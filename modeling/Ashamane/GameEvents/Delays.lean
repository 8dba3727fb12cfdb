import Ashamane.GameEvents.Basic
import Ashamane.Lib.Polling

/-! Game events: when they are active, and the delay to the next look at them. -/
namespace Ashamane.GameEvents
open Ashamane.Lib

inductive GameEventState where
  | normal | worldInactive | worldConditions | worldNextphase | worldFinished | internal
  deriving DecidableEq, Repr

/-- What the checks read of an event. The times are in seconds, `occurence` and `length` in
minutes. -/
structure GameEventData where
  start : Int := 1
  endTime : Int := 0
  nextstart : Int := 0
  occurence : BitVec 32 := 0
  length : BitVec 32 := 0
  state : GameEventState := .normal
  prerequisiteEvents : List Nat := []
  deriving DecidableEq, Repr

def maxGeCheckDelay : Int := 86400

def seconds (minutes : BitVec 32) : Int := (minutes * 60#32).toNat

def uint32 (x : Int) : Int := x % 2 ^ 32

namespace GameEventData

def period (e : GameEventData) : Int := seconds e.occurence
def window (e : GameEventData) : Int := seconds e.length
def phase (e : GameEventData) (t : Int) : Int := (t - e.start) % e.period

/-- The check of an event in the normal state. Without a result the code divides by 0. -/
def checkNormal (e : GameEventData) (currenttime : Int) : Option Bool :=
  if e.start < currenttime ∧ currenttime < e.endTime then
    if e.period = 0 then none else some (decide (e.phase currenttime < e.window))
  else some false

/-- `NextCheck`. Without a result the code divides by 0. -/
def nextCheck (e : GameEventData) (currenttime : Int) : Option Int :=
  if (e.state = .worldNextphase ∨ e.state = .worldFinished) ∧ e.nextstart ≥ currenttime then
    some (uint32 (e.nextstart - currenttime))
  else if e.state = .worldConditions then
    some (if e.length ≠ 0 then e.window else maxGeCheckDelay)
  else if currenttime > e.endTime then some maxGeCheckDelay
  else if e.start > currenttime then some (uint32 (e.start - currenttime))
  else if e.period = 0 then none
  else
    let delay := uint32 (if e.phase currenttime < e.window then e.window - e.phase currenttime
      else e.period - e.phase currenttime)
    some (if e.endTime < currenttime + delay then uint32 (e.endTime - currenttime) else delay)

end GameEventData

def checkOneGameEvent (mGameEvent : Nat → GameEventData) (entry : Nat) (currenttime : Int) :
    Option Bool :=
  match (mGameEvent entry).state with
  | .normal => (mGameEvent entry).checkNormal currenttime
  | .worldConditions | .worldNextphase => some true
  | .worldFinished | .internal => some false
  | .worldInactive =>
    let prerequisites := (mGameEvent entry).prerequisiteEvents
    some ((prerequisites.all fun p =>
      ((mGameEvent p).state = .worldNextphase || (mGameEvent p).state = .worldFinished) &&
        (mGameEvent p).nextstart ≤ currenttime) && !prerequisites.isEmpty)

/-- `Update` for events in the normal state: which of them are active after it, and the delay to
the next one in seconds. -/
def update (mGameEvent : Nat → GameEventData) (entries : List Nat) (active : Nat → Bool)
    (currenttime : Int) : Option ((Nat → Bool) × Int) := do
  let (active, nextEventDelay) ← entries.foldlM (fun (active, next) entry => do
    let on ← checkOneGameEvent mGameEvent entry currenttime
    let calcDelay ← (mGameEvent entry).nextCheck currenttime
    some (Function.update active entry on, if calcDelay < next then calcDelay else next))
    (active, maxGeCheckDelay)
  some (active, nextEventDelay + 1)

namespace GameEventData

/-- Where the delay of a normal event is safe. The code divides by 0 where the period is a multiple
of 2 ^ 32 seconds. At the very first second the event is not active yet, but is taken to be so by
`nextCheck`; and a last window of one second, which the end date leaves of a period, is over when
the events are looked at again. -/
def Timely (e : GameEventData) (t : Int) : Prop :=
  (e.start ≤ t → t ≤ e.endTime → e.period ≠ 0) ∧
  ¬(t = e.start ∧ e.window ≠ 0 ∧ t + 2 ≤ e.endTime) ∧
  ¬(e.start < t ∧ t < e.endTime ∧ 0 < e.window ∧ e.window ≤ e.phase t ∧
    e.endTime = t + (e.period - e.phase t) + 1 ∧ e.period - e.phase t ≤ maxGeCheckDelay)

instance (e : GameEventData) (t : Int) : Decidable (e.Timely t) := by
  unfold Timely; infer_instance

variable {e : GameEventData} {t s k : Int}

theorem seconds_range (minutes : BitVec 32) :
    0 ≤ seconds minutes ∧ seconds minutes < 2 ^ 32 ∧ seconds minutes % 4 = 0 := by
  have h60 : (60#32).toNat = 60 := rfl
  rw [seconds, BitVec.toNat_mul, h60]
  omega

theorem phase_range (h : e.period ≠ 0) (t : Int) : 0 ≤ e.phase t ∧ e.phase t < e.period :=
  ⟨Int.emod_nonneg _ h, Int.emod_lt_of_pos _ (by have := seconds_range e.occurence; unfold period at h ⊢; omega)⟩

theorem phase_start (e : GameEventData) : e.phase e.start = 0 := by simp [phase]

theorem phase_add (h : e.period ≠ 0) (hk : 0 ≤ k) (hlt : e.phase t + k < e.period) :
    e.phase (t + k) = e.phase t + k := by
  have hrange := phase_range h t
  have hdiv := Int.emod_add_mul_ediv (t - e.start) e.period
  have hshift : t + k - e.start = e.phase t + k + e.period * ((t - e.start) / e.period) := by
    unfold phase
    omega
  rw [phase, hshift, Int.add_mul_emod_self_left]
  exact Int.emod_eq_of_lt (by omega) hlt

theorem phase_next (hk : 0 ≤ k) (hlt : k < e.period) :
    e.phase (t + (e.period - e.phase t) + k) = k := by
  have hdiv := Int.emod_add_mul_ediv (t - e.start) e.period
  have hshift : t + (e.period - e.phase t) + k - e.start =
      k + e.period * ((t - e.start) / e.period + 1) := by
    rw [Int.mul_add, Int.mul_one]
    unfold phase
    omega
  rw [phase, hshift, Int.add_mul_emod_self_left]
  exact Int.emod_eq_of_lt hk hlt

/-! The check, before the first start, from the end on, and in between. -/

theorem check_early (h : s ≤ e.start) : e.checkNormal s = some false := by
  rw [checkNormal, if_neg (by omega)]

theorem check_late (h : e.endTime ≤ s) : e.checkNormal s = some false := by
  rw [checkNormal, if_neg (by omega)]

theorem check_on (hp : e.period ≠ 0) (hs : e.start < s) (he : s < e.endTime)
    (h : e.phase s < e.window) : e.checkNormal s = some true := by
  rw [checkNormal, if_pos ⟨hs, he⟩, if_neg hp, decide_eq_true h]

theorem check_off (hp : e.period ≠ 0) (h : e.window ≤ e.phase s) :
    e.checkNormal s = some false := by
  rw [checkNormal]
  split
  · rw [decide_eq_false (by omega)]
  · rfl

/-! The delay, after the end, before the first start, and in between. -/

theorem nextCheck_late (hn : e.state = .normal) (h : e.endTime < t) :
    e.nextCheck t = some maxGeCheckDelay := by
  simp [nextCheck, hn, h]

theorem nextCheck_early (hn : e.state = .normal) (he : t ≤ e.endTime) (hs : t < e.start) :
    e.nextCheck t = some (uint32 (e.start - t)) := by
  simp [nextCheck, hn, hs, show ¬ e.endTime < t by omega]

theorem nextCheck_none (hn : e.state = .normal) (he : t ≤ e.endTime) (hs : e.start ≤ t)
    (hp : e.period = 0) : e.nextCheck t = none := by
  simp [nextCheck, hn, hp, show ¬ e.endTime < t by omega, show ¬ t < e.start by omega]

def turn (e : GameEventData) (t : Int) : Int := if e.phase t < e.window then e.window else e.period

theorem turn_range (hp : e.period ≠ 0) (t : Int) : e.phase t < e.turn t ∧ e.turn t < 2 ^ 32 := by
  have hphase := phase_range hp t
  have hperiod := seconds_range e.occurence
  have hwindow := seconds_range e.length
  unfold turn window period at *
  split <;> omega

/-- The end of the window or of the period, or the end date where this is sooner. -/
theorem nextCheck_inside (hn : e.state = .normal) (he : t ≤ e.endTime) (hs : e.start ≤ t)
    (hp : e.period ≠ 0) :
    e.nextCheck t = some (min (e.endTime - t) (e.turn t - e.phase t)) := by
  have hphase := phase_range hp t
  have hturn := turn_range hp t
  have hdelay : uint32 (if e.phase t < e.window then e.window - e.phase t
      else e.period - e.phase t) = e.turn t - e.phase t := by
    rw [uint32, ← Int.emod_eq_of_lt (a := e.turn t - e.phase t) (b := 2 ^ 32) (by omega) (by omega),
      turn]
    split <;> rfl
  simp only [nextCheck, hn, reduceCtorEq, or_self, false_and, if_false, hp, hdelay,
    gt_iff_lt, show ¬ e.endTime < t by omega, show ¬ t < e.start by omega]
  by_cases hend : e.endTime < t + (e.turn t - e.phase t)
  · rw [if_pos hend, uint32, Int.emod_eq_of_lt (by omega) (by omega), min_eq_left (by omega)]
  · rw [if_neg hend, min_eq_right (by omega)]

theorem safe_on (hp : e.period ≠ 0) (hs : e.start < t) (hw : e.phase t < e.window) {d : Int}
    (hend : d ≤ e.endTime - t) (hturn : d ≤ e.turn t - e.phase t) :
    Safe e.checkNormal (some true) t d := by
  refine Safe.of_on fun s hle hlt => check_on hp (by omega) (by omega) ?_
  rw [turn, if_pos hw] at hturn
  by_cases hlong : e.window ≤ e.period
  · have hadd := @phase_add e t (s - t) hp (by omega) (by omega)
    rw [show t + (s - t) = s by omega] at hadd
    omega
  · have hrange := phase_range hp s
    omega

theorem safe_start_iff (hp : e.period ≠ 0) (ht : t = e.start) :
    Safe e.checkNormal (some true) t
      (min (min (e.endTime - t) (e.turn t - e.phase t)) maxGeCheckDelay) ↔
    ¬(e.window ≠ 0 ∧ t + 2 ≤ e.endTime) := by
  have hzero : e.phase t = 0 := by rw [ht]; exact phase_start e
  have hwindow := seconds_range e.length
  have hperiod := seconds_range e.occurence
  constructor
  · intro hsafe ⟨hw, hend⟩
    unfold window at hw
    unfold period at hp
    have hone : e.phase (t + 1) = 1 := by
      rw [phase_add hp (by omega) (by unfold period; omega)]
      omega
    have hon : e.checkNormal (t + 1) = some true :=
      check_on hp (by omega) (by omega) (by unfold window; omega)
    refine Safe.not_of_next (some false) (by simp) ?_ (check_early ht.le) hon hsafe
    rw [hzero, turn, if_pos (by unfold window; omega)]
    unfold window maxGeCheckDelay
    omega
  · intro hnot
    refine Safe.of_off (some false) (by simp) fun s hs _ => ?_
    by_cases hw : e.window = 0
    · have hphase := phase_range hp s
      exact check_off hp (by omega)
    · by_cases hlate : e.endTime ≤ s
      · exact check_late hlate
      · exact check_early (by omega)

theorem safe_off_iff (hp : e.period ≠ 0) (hs : e.start < t) (hw : e.window ≤ e.phase t) :
    Safe e.checkNormal (some true) t
      (min (min (e.endTime - t) (e.turn t - e.phase t)) maxGeCheckDelay) ↔
    ¬(0 < e.window ∧ e.endTime = t + (e.period - e.phase t) + 1 ∧
      e.period - e.phase t ≤ maxGeCheckDelay) := by
  have hphase := phase_range hp t
  rw [turn, if_neg (by omega)]
  have hoff : ∀ s, t ≤ s → s < t + (e.period - e.phase t) → e.checkNormal s = some false := by
    intro s hle hlt
    have hadd := @phase_add e t (s - t) hp (by omega) (by omega)
    rw [show t + (s - t) = s by omega] at hadd
    exact check_off hp (by omega)
  by_cases hwin : e.window ≤ 0
  · refine iff_of_true (Safe.of_off (some false) (by simp) fun s _ _ => ?_) (by omega)
    have hrange := phase_range hp s
    exact check_off hp (by omega)
  by_cases hday : e.period - e.phase t ≤ maxGeCheckDelay
  swap
  · refine iff_of_true (Safe.of_off (some false) (by simp) fun s hle hlt => ?_) (by omega)
    exact hoff s hle (by omega)
  by_cases hnext : e.endTime ≤ t + (e.period - e.phase t)
  · refine iff_of_true (Safe.of_off (some false) (by simp) fun s hle hlt => ?_) (by omega)
    by_cases hlate : e.endTime ≤ s
    · exact check_late hlate
    · exact hoff s hle (by omega)
  · -- the next window begins with the second after the delay
    have hperiod := seconds_range e.occurence
    have hwindow := seconds_range e.length
    have hd : min (min (e.endTime - t) (e.period - e.phase t)) maxGeCheckDelay =
        e.period - e.phase t := by omega
    have hzero := @phase_next e t 0 le_rfl (by omega)
    rw [add_zero] at hzero
    have hone := @phase_next e t 1 (by omega) (by unfold period at *; omega)
    rw [hd, Safe.iff_of_rise (some false) (by simp) (by omega)
      (fun s hle hlt => hoff s hle (by omega))
      (check_on hp (by omega) (by omega) (by omega))]
    constructor
    · intro hon ⟨_, hlast, _⟩
      rw [check_late hlast.le] at hon
      exact absurd hon (by simp)
    · intro hnot
      refine check_on hp (by omega) (by omega) ?_
      unfold window at *
      omega

/-- The delay is there and safe, with the bound that `update` puts on it, exactly where it is
timely. -/
theorem safe_iff (hn : e.state = .normal) :
    (∃ d, e.nextCheck t = some d ∧
      Safe e.checkNormal (some true) t (min d maxGeCheckDelay)) ↔ e.Timely t := by
  unfold Timely
  by_cases hend : e.endTime < t
  · rw [nextCheck_late hn hend]
    refine iff_of_true ⟨_, rfl, ?_⟩ ⟨by omega, by omega, by omega⟩
    exact Safe.of_off (some false) (by simp) fun s hs _ => check_late (by omega)
  by_cases hstart : t < e.start
  · rw [nextCheck_early hn (by omega) hstart]
    refine iff_of_true ⟨_, rfl, ?_⟩ ⟨by omega, by omega, by omega⟩
    refine Safe.of_off (some false) (by simp) fun s _ hs => check_early ?_
    have hle : uint32 (e.start - t) ≤ e.start - t := by unfold uint32; omega
    omega
  by_cases hp : e.period = 0
  · rw [nextCheck_none hn (by omega) (by omega) hp]
    refine iff_of_false (by simp) fun h => h.1 (by omega) (by omega) hp
  rw [nextCheck_inside hn (by omega) (by omega) hp]
  simp only [Option.some.injEq, exists_eq_left', ne_eq, hp, not_false_eq_true, implies_true,
    true_and]
  by_cases hfirst : t = e.start
  · rw [safe_start_iff hp hfirst]
    simp [hfirst]
  by_cases hw : e.phase t < e.window
  · refine iff_of_true (safe_on hp (by omega) hw (by omega) (by omega)) ⟨by tauto, by omega⟩
  · rw [safe_off_iff hp (by omega) (by omega)]
    have hphase := phase_range hp t
    have hs : e.start < t := by omega
    have hw' : e.window ≤ e.phase t := by omega
    simp only [hfirst, hs, hw', true_and, false_and, not_false_eq_true]
    omega

end GameEventData

variable (mGameEvent : Nat → GameEventData)

theorem checkOneGameEvent_normal {entry : Nat} (hn : (mGameEvent entry).state = .normal) :
    checkOneGameEvent mGameEvent entry = (mGameEvent entry).checkNormal := by
  funext s
  simp only [checkOneGameEvent, hn]

/-- The delay of an event is there, and it is safe with the bound that `update` puts on it. -/
def SafeAt (entry : Nat) (t : Int) : Prop :=
  ∃ d, (mGameEvent entry).nextCheck t = some d ∧
    Safe (checkOneGameEvent mGameEvent entry) (some true) t (min d maxGeCheckDelay)

theorem safeAt_iff_timely (entry : Nat) (t : Int) (hn : (mGameEvent entry).state = .normal) :
    SafeAt mGameEvent entry t ↔ (mGameEvent entry).Timely t := by
  rw [SafeAt, checkOneGameEvent_normal mGameEvent hn]
  exact GameEventData.safe_iff hn

def hourly : GameEventData :=
  { start := 1000, endTime := 10 ^ 9, occurence := 60, length := 10 }

theorem safeAt_gap : SafeAt (fun _ => hourly) 1 1900 :=
  (safeAt_iff_timely (fun _ => hourly) 1 1900 rfl).mpr (by decide)

/-- Looked at in the second of its start, the event is looked at again when its first window is
over. -/
theorem not_safeAt_start : ¬ SafeAt (fun _ => hourly) 1 1000 := by
  intro ⟨d, hd, hsafe⟩
  have hnext : hourly.nextCheck 1000 = some 600 := by decide
  have hd' : d = 600 := Option.some.inj (hd.symm.trans hnext)
  subst hd'
  have hlast : checkOneGameEvent (fun _ => hourly) 1 1001 = some true := by decide
  rw [hsafe.steady 1001 (by decide) (by decide)] at hlast
  exact absurd hlast (by decide)

theorem checkOneGameEvent_some {entry : Nat} {t : Int} (hn : (mGameEvent entry).state = .normal)
    (ht : (mGameEvent entry).Timely t) : ∃ on, checkOneGameEvent mGameEvent entry t = some on := by
  rw [checkOneGameEvent_normal mGameEvent hn, GameEventData.checkNormal]
  by_cases hin : (mGameEvent entry).start < t ∧ t < (mGameEvent entry).endTime
  · rw [if_pos hin, if_neg (ht.1 hin.1.le hin.2.le)]
    exact ⟨_, rfl⟩
  · rw [if_neg hin]
    exact ⟨_, rfl⟩

/-- With timely events one `update` after the other keeps every event right, but for the last
second before the later one. -/
theorem update_safe (entries : List Nat) (active : Nat → Bool) (t : Int)
    (hn : ∀ entry ∈ entries, (mGameEvent entry).state = .normal)
    (ht : ∀ entry ∈ entries, (mGameEvent entry).Timely t) :
    ∃ active' delay, update mGameEvent entries active t = some (active', delay) ∧
      ∀ entry ∈ entries, ∀ s, t ≤ s → s < t + delay →
        checkOneGameEvent mGameEvent entry s = some (active' entry) ∨ s = t + delay - 1 := by
  suffices hfold : ∀ next ≤ maxGeCheckDelay, ∃ active' next',
      entries.foldlM (fun (x : (Nat → Bool) × Int) entry => do
        let on ← checkOneGameEvent mGameEvent entry t
        let calcDelay ← (mGameEvent entry).nextCheck t
        some (Function.update x.1 entry on, if calcDelay < x.2 then calcDelay else x.2))
        (active, next) = some (active', next') ∧ next' ≤ next ∧
      (∀ entry, entry ∉ entries → active' entry = active entry) ∧
      ∀ entry ∈ entries, Safe (checkOneGameEvent mGameEvent entry) (some true) t next' ∧
        checkOneGameEvent mGameEvent entry t = some (active' entry) by
    obtain ⟨active', next', heq, -, -, hsafe⟩ := hfold maxGeCheckDelay le_rfl
    refine ⟨active', next' + 1, ?_, ?_⟩
    · rw [update, heq]
      rfl
    · intro entry hentry s hs hlt
      obtain ⟨hok, hnow⟩ := hsafe entry hentry
      by_cases heq : checkOneGameEvent mGameEvent entry s = checkOneGameEvent mGameEvent entry t
      · exact Or.inl (heq.trans hnow)
      · have hlast := hok.late hs (by omega) heq
        exact Or.inr (by omega)
  induction entries generalizing active with
  | nil =>
    intro next _
    exact ⟨active, next, rfl, le_rfl, fun _ _ => rfl, by simp⟩
  | cons entry rest ih =>
    intro next hnext
    have hne := hn entry List.mem_cons_self
    have hte := ht entry List.mem_cons_self
    obtain ⟨on, hon⟩ := checkOneGameEvent_some mGameEvent hne hte
    obtain ⟨d, hd, hsafe⟩ := (GameEventData.safe_iff hne).mpr hte
    rw [← checkOneGameEvent_normal mGameEvent hne] at hsafe
    have hmin : (if d < next then d else next) ≤ min d maxGeCheckDelay := by
      split <;> omega
    obtain ⟨active', next', heq, hle, hframe, hall⟩ := ih (Function.update active entry on)
      (fun e he => hn e (List.mem_cons_of_mem _ he)) (fun e he => ht e (List.mem_cons_of_mem _ he))
      (if d < next then d else next) (by omega)
    refine ⟨active', next', ?_, by split at hle <;> omega, ?_, ?_⟩
    · rw [List.foldlM_cons, hon, hd]
      exact heq
    · intro e he
      rw [List.mem_cons, not_or] at he
      rw [hframe e he.2, Function.update_of_ne he.1]
    · intro e he
      by_cases hrest : e ∈ rest
      · exact hall e hrest
      · have hself : e = entry := by simpa [hrest] using he
        subst hself
        rw [hframe e hrest, Function.update_self]
        exact ⟨hsafe.mono (by omega), hon⟩

theorem update_safe_gap : ∃ active' delay,
    update (fun _ => hourly) [1, 2] (fun _ => true) 1900 = some (active', delay) ∧
      ∀ entry ∈ [1, 2], ∀ s : Int, 1900 ≤ s → s < 1900 + delay →
        checkOneGameEvent (fun _ => hourly) entry s = some (active' entry) ∨ s = 1900 + delay - 1 :=
  update_safe (fun _ => hourly) [1, 2] (fun _ => true) 1900 (fun _ _ => rfl) fun _ _ => by decide

end Ashamane.GameEvents
