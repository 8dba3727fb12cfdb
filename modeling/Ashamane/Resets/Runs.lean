import Ashamane.Resets.Pending
import Ashamane.Lib.Run

/-! Every run of updates, single instances scheduled and forced resets. -/
namespace Ashamane.Resets
open Ashamane.Lib
open scoped List

variable {w : World} {s s' : Manager} {p q : Pair} {k r now : Nat} {time : Int}
  {event : InstResetEvent} {queue : ResetTimeQueue}

def Allowed (w : World) (event : InstResetEvent) : Prop :=
  if event.instanceId = 0 then event.type ≠ 0 ∧ w.raidDuration event.pair ≠ 0
  else event.type = 0

theorem Clean.of_subset (h : Clean w s) (hsubset : ∀ x ∈ s'.resetTimeQueue,
    x ∈ s.resetTimeQueue ∨ Allowed w x.2) : Clean w s' := by
  intro x hx
  cases hsubset x hx with
  | inl hold => exact h x hold
  | inr hnew => exact hnew

theorem Clean.scheduleReset (h : Clean w s) (add : Bool) (time : Int)
    (hevent : add = true → Allowed w event) : Clean w (s.scheduleReset add time event) := by
  refine h.of_subset fun x hx => ?_
  cases add with
  | true =>
    cases mem_insertEvent.mp hx with
    | inl hsame => exact .inr (hsame ▸ hevent rfl)
    | inr hold => exact .inl hold
  | false =>
    rcases cancelEvent_cases time event s.resetTimeQueue with
      ⟨_, hsame⟩ | ⟨before, y, after, hqueue, _, hcancel⟩
    · exact .inl (hsame ▸ hx)
    · have hmem : x ∈ before ++ after := hcancel ▸ hx
      rw [hqueue]
      exact .inl ((List.sublist_append_right [y] after).append_left before |>.subset hmem)

theorem Clean.resetOrWarnAll (h : Clean w s) (p : Pair) (warn : Bool) (r : Nat) :
    Clean w (s.resetOrWarnAll w p warn r) := by
  unfold Manager.resetOrWarnAll
  split
  · exact h
  split
  · exact h
  dsimp only
  split
  · exact h
  rename_i hnext
  have hset : Clean w (s.setResetTimeFor p (getSubsequentResetTime w p r)) := h
  refine hset.scheduleReset true _ fun _ => ?_
  refine (if_pos rfl).mpr ⟨Nat.one_ne_zero, fun hzero => hnext ?_⟩
  unfold getSubsequentResetTime
  exact if_pos hzero

theorem Clean.updateRound (h : Clean w s) (hround : s.updateRound w now = some s') :
    Clean w s' := by
  unfold Manager.updateRound at hround
  cases hqueue : s.resetTimeQueue with
  | nil =>
    rw [hqueue] at hround
    cases hround
  | cons x rest =>
    obtain ⟨t, event⟩ := x
    rw [hqueue] at hround
    dsimp only at hround
    have hrest : ∀ x ∈ rest, x ∈ s.resetTimeQueue := fun x hx =>
      hqueue ▸ List.mem_cons_of_mem _ hx
    have hfirst := h (t, event) (hqueue ▸ List.mem_cons_self)
    by_cases hlt : t ≥ now
    · rw [if_pos hlt] at hround
      cases hround
    rw [if_neg hlt] at hround
    by_cases hsingle : event.type = 0
    · rw [if_pos hsingle] at hround
      obtain rfl := Option.some.inj hround
      exact h.of_subset fun x hx => .inl (hrest x hx)
    rw [if_neg hsingle] at hround
    have hid : event.instanceId = 0 := by
      by_contra hne
      rw [if_neg hne] at hfirst
      exact hsingle hfirst
    rw [if_pos hid] at hfirst
    by_cases hlast : event.type ≠ 4
    · rw [if_pos hlast] at hround
      obtain rfl := Option.some.inj hround
      refine h.of_subset fun x hx => ?_
      have hallowed : Allowed w { event with type := event.type + 1 } :=
        (if_pos hid).mpr ⟨Nat.succ_ne_zero _, hfirst.2⟩
      rcases mem_insertEvent.mp (List.mem_of_mem_tail hx) with rfl | hold
      · exact .inr hallowed
      · rcases List.mem_cons.mp hold with rfl | hold
        · exact .inr hallowed
        · exact .inl (hrest x hold)
    · rw [if_neg hlast] at hround
      obtain rfl := Option.some.inj hround
      exact (h.resetOrWarnAll event.pair (event.type != 4)
        (s.getResetTimeFor event.pair)).of_subset fun x hx => .inl (List.mem_of_mem_tail hx)

theorem Clean.apply (h : Clean w s) (op : Op) : Clean w (s.apply w op) := by
  cases op with
  | update now =>
    rw [Manager.apply]
    cases hround : s.updateRound w now with
    | none => exact h
    | some s' => exact h.updateRound hround
  | scheduleReset add time p instanceId single =>
    exact h.scheduleReset add time fun _ => (if_neg single).mpr rfl
  | forceGlobalReset p now =>
    rw [Manager.apply, Manager.forceGlobalReset]
    split
    · exact h
    · refine Clean.resetOrWarnAll ?_ _ false now
      refine Clean.scheduleReset ?_ false 0 fun hadd => by cases hadd
      exact h.scheduleReset false 0 fun hadd => by cases hadd

theorem eq_of_globalEvent {t t' : Int} {k' : Nat}
    (h : (t, globalEvent k p) = (t', globalEvent k' q)) : k = k' ∧ p = q := by
  have hevent := (Prod.mk.inj h).2
  exact ⟨congrArg InstResetEvent.type hevent, congrArg InstResetEvent.pair hevent⟩

theorem moves_idle (hidle : ∀ p k r, Due s p k r →
      s.resetTimeQueue.head? = some ((r : Int) - resetTimeDelay k, globalEvent k p) →
        ¬(r : Int) - resetTimeDelay k < now)
    (hsame : ∀ p k r, Due s p k r → Due s' p k r) :
    Moves w s s' (.update now) ↔ Fits w s (.update now) := by
  refine iff_of_true (fun p k r _ h => ?_) fun p r _ h hfront hlt => ?_
  · rw [if_neg fun hserved => hidle p k r h hserved.1 hserved.2]
    exact hsame p k r h
  · exact absurd hlt (hidle p 4 r h hfront)

theorem Due.other (h : Due s q k r) (hne : q ≠ p) {t t' : Int} {rest : ResetTimeQueue}
    {k₀ k₁ : Nat} (hqueue : s.resetTimeQueue = (t, globalEvent k₀ p) :: rest) (next : Nat) :
    Due { s.setResetTimeFor p next with
      resetTimeQueue := insertEvent t' (globalEvent k₁ p) rest } q k r := by
  refine h.congr (Assoc.lookup_modify_ne hne _ _) ?_
  rw [hqueue, pending_cons_of_ne (.inr fun hsame => hne hsame.symm)]
  exact pending_insertEvent_of_ne (.inr fun hsame => hne hsame.symm)

/-- A warning of a pair moves it to its next event, and no other pair. -/
theorem Due.moves_warning (h : Due s p k r) (hk : k < 4) {rest : ResetTimeQueue}
    (hqueue : s.resetTimeQueue = ((r : Int) - resetTimeDelay k, globalEvent k p) :: rest)
    (hnone : Resets.pending rest p = []) (hlt : (r : Int) - resetTimeDelay k < now) :
    Moves w s (s.apply w (.update now)) (.update now) ↔ Fits w s (.update now) := by
  have hround : s.apply w (.update now) = _ :=
    congrArg (Option.getD · s) (h.updateRound_warning hk hqueue hlt)
  rw [hround]
  refine iff_of_true (fun q k' r' _ h' => ?_) fun q r' _ h' hfront => ?_
  · rw [hqueue, List.head?_cons]
    by_cases hq : q = p
    · subst hq
      obtain ⟨rfl, rfl⟩ := h.unique h'
      rw [if_pos ⟨rfl, hlt⟩, if_neg (by omega)]
      have htype := h.type
      exact ⟨by omega, h.resetTime, pending_insertEvent (Nat.succ_ne_zero k) rfl hnone⟩
    · rw [if_neg fun hserved => hq (eq_of_globalEvent (Option.some.inj hserved.1)).2.symm]
      refine h'.congr rfl ?_
      rw [hqueue, pending_cons_of_ne (.inr fun hsame => hq hsame.symm)]
      exact pending_insertEvent_of_ne (.inr fun hsame => hq hsame.symm)
  · rw [hqueue, List.head?_cons] at hfront
    have hfour := (eq_of_globalEvent (Option.some.inj hfront)).1
    omega

/-- A reset of a pair moves it to the next period, unless the first warning of that comes
before the event that is served. -/
theorem Due.moves_reset (h : Due s p 4 r) (hp : w.raidDuration p ≠ 0) {rest : ResetTimeQueue}
    (hqueue : s.resetTimeQueue = ((r : Int) - 60, globalEvent 4 p) :: rest)
    (hnone : Resets.pending rest p = []) (hlt : (r : Int) - 60 < now) :
    Moves w s (s.apply w (.update now)) (.update now) ↔ Fits w s (.update now) := by
  have hround : s.apply w (.update now) = _ :=
    congrArg (Option.getD · s) (h.updateRound_reset hp hqueue hlt)
  rw [hround, Option.getD_some]
  have hnext : ((s.setResetTimeFor p (getSubsequentResetTime w p r)).resetTimeByMapDifficulty).lookup
      p = some (getSubsequentResetTime w p r) := by
    rw [Manager.setResetTimeFor, Assoc.lookup_modify_self, h.resetTime]
    rfl
  by_cases hfits : r + 3540 ≤ getSubsequentResetTime w p r
  · rw [insertEvent_cons_of_le (by omega), List.tail_cons]
    refine iff_of_true (fun q k' r' _ h' => ?_) fun q r' _ h' hfront _ => ?_
    · rw [hqueue, List.head?_cons]
      by_cases hq : q = p
      · subst hq
        obtain ⟨rfl, rfl⟩ := h.unique h'
        rw [if_pos ⟨rfl, hlt⟩, if_pos rfl]
        exact ⟨by omega, hnext, pending_insertEvent Nat.one_ne_zero rfl hnone⟩
      · rw [if_neg fun hserved => hq (eq_of_globalEvent (Option.some.inj hserved.1)).2.symm]
        exact h'.other hq hqueue _
    · rw [hqueue, List.head?_cons] at hfront
      obtain ⟨_, rfl⟩ := eq_of_globalEvent (Option.some.inj hfront)
      obtain ⟨_, rfl⟩ := h.unique h'
      exact hfits
  · rw [insertEvent_cons_of_lt (by omega), List.tail_cons]
    refine iff_of_false (fun hmoves => ?_) fun hall => ?_
    · have hdue := hmoves p 4 r hp h
      rw [hqueue, List.head?_cons, if_pos ⟨rfl, hlt⟩, if_pos rfl] at hdue
      have hstill : Resets.pending (((r : Int) - 60, globalEvent 4 p) :: rest) p =
          ((r : Int) - 60, globalEvent 4 p) :: Resets.pending rest p :=
        pending_cons (Nat.succ_ne_zero 3) rfl
      have hpending := List.cons.inj (hstill.symm.trans hdue.pending)
      exact absurd (eq_of_globalEvent hpending.1).1 (by decide)
    · exact hfits (hall p r hp h (by rw [hqueue, List.head?_cons]) hlt)

/-- A round of `Update` serves the pair whose event comes first, unless its next warning would
come before. -/
theorem moves_update_iff (hclean : Clean w s) (hkept : Kept w s) (now : Nat) :
    Moves w s (s.apply w (.update now)) (.update now) ↔ Fits w s (.update now) := by
  cases hqueue : s.resetTimeQueue with
  | nil =>
    refine moves_idle (fun p k r _ hfront => ?_) fun p k r h => ?_
    · rw [hqueue] at hfront
      cases hfront
    · have hsame : s.apply w (.update now) = s := by
        simp [Manager.apply, Manager.updateRound, hqueue]
      rwa [hsame]
  | cons x rest =>
    obtain ⟨t, event⟩ := x
    by_cases hlt : t < now
    · by_cases hsingle : event.type = 0
      · refine moves_idle (fun p k r h hfront => ?_) fun p k r h => ?_
        · rw [hqueue, List.head?_cons] at hfront
          have hevent := (Prod.mk.inj (Option.some.inj hfront)).2
          have hk : k = 0 := by rw [hevent] at hsingle; exact hsingle
          have htype := h.type
          omega
        · have hround : s.apply w (.update now) = { s with resetTimeQueue := rest } := by
            simp [Manager.apply, Manager.updateRound, hqueue, Int.not_le.mpr hlt, hsingle]
          rw [hround]
          refine h.congr rfl ?_
          rw [hqueue, pending_cons_of_ne (.inl hsingle)]
      · have hfirst := hclean (t, event) (hqueue ▸ List.mem_cons_self)
        have hid : event.instanceId = 0 := by
          by_contra hne
          rw [if_neg hne] at hfirst
          exact hsingle hfirst
        rw [if_pos hid] at hfirst
        obtain ⟨k, r, h⟩ := hkept event.pair hfirst.2
        obtain ⟨hfront, hnone⟩ := h.front hqueue hsingle rfl
        rw [hfront] at hqueue
        have hlt' : (r : Int) - resetTimeDelay k < now := (Prod.mk.inj hfront).1 ▸ hlt
        by_cases hk : k = 4
        · subst hk
          exact h.moves_reset hfirst.2 hqueue hnone hlt'
        · have htype := h.type
          exact h.moves_warning (by omega) hqueue hnone hlt'
    · refine moves_idle (fun p k r _ hfront => ?_) fun p k r h => ?_
      · rw [hqueue, List.head?_cons] at hfront
        exact (Prod.mk.inj (Option.some.inj hfront)).1 ▸ hlt
      · have hsame : s.apply w (.update now) = s := by
          simp [Manager.apply, Manager.updateRound, hqueue, Int.not_lt.mp hlt]
        rwa [hsame]

section Forced

def AtMostOne (w : World) (s : Manager) : Prop :=
  ∀ p, w.raidDuration p ≠ 0 → (pending s.resetTimeQueue p).length ≤ 1

theorem Kept.atMostOne (h : Kept w s) : AtMostOne w s := by
  intro p hp
  obtain ⟨k, r, hdue⟩ := h p hp
  rw [hdue.pending]
  exact Nat.le_refl 1

theorem cancel_global (hclean : Clean w s) (hone : AtMostOne w s) (time : Int)
    (hid : event.instanceId = 0) :
    (∀ p, w.raidDuration p ≠ 0 → pending s.resetTimeQueue p = []) ∨
      ∃ p, w.raidDuration p ≠ 0 ∧ pending s.resetTimeQueue p ≠ [] ∧
        pending (s.scheduleReset false time event).resetTimeQueue p = [] ∧
        ∀ q, q ≠ p → pending (s.scheduleReset false time event).resetTimeQueue q =
          pending s.resetTimeQueue q := by
  rcases cancelEvent_cases time event s.resetTimeQueue with
    ⟨hnone, _⟩ | ⟨before, x, after, hqueue, hx, hcancel⟩
  · refine .inl fun p _ => List.filter_eq_nil_iff.mpr fun x hx hpending => ?_
    have hclean := hclean x hx
    rw [if_neg (hid ▸ hnone x hx)] at hclean
    exact (of_decide_eq_true hpending).1 hclean
  · have hallowed := hclean x (by rw [hqueue]; simp)
    rw [if_pos (hx.trans hid)] at hallowed
    have hqueue' : (s.scheduleReset false time event).resetTimeQueue = before ++ after := hcancel
    have hsplit : pending s.resetTimeQueue x.2.pair =
        pending before x.2.pair ++ x :: pending after x.2.pair := by
      rw [hqueue, pending_append]
      exact congrArg (pending before x.2.pair ++ ·) (pending_cons hallowed.1 rfl)
    have hlength := hone x.2.pair hallowed.2
    rw [hsplit, List.length_append, List.length_cons] at hlength
    refine .inr ⟨x.2.pair, hallowed.2, by simp [hsplit], ?_, fun q hq => ?_⟩
    · rw [hqueue', pending_append, List.append_eq_nil_iff]
      exact ⟨List.length_eq_zero_iff.mp (by omega), List.length_eq_zero_iff.mp (by omega)⟩
    · have hother : pending (x :: after) q = pending after q :=
        pending_cons_of_ne (.inr fun hsame => hq hsame.symm)
      rw [hqueue', hqueue, pending_append, pending_append, hother]

theorem Clean.cancel (h : Clean w s) (time : Int) (event : InstResetEvent) :
    Clean w (s.scheduleReset false time event) :=
  h.scheduleReset false time fun hadd => by cases hadd

theorem sublist_cancel (s : Manager) (time : Int) (event : InstResetEvent) :
    (s.scheduleReset false time event).resetTimeQueue.Sublist s.resetTimeQueue := by
  rcases cancelEvent_cases time event s.resetTimeQueue with
    ⟨_, hsame⟩ | ⟨before, x, after, hqueue, _, hcancel⟩
  · exact hsame ▸ List.Sublist.refl _
  · have hqueue' : (s.scheduleReset false time event).resetTimeQueue = before ++ after := hcancel
    rw [hqueue', hqueue]
    exact (List.sublist_cons_self x after).append_left before

theorem AtMostOne.cancel (h : AtMostOne w s) (time : Int) (event : InstResetEvent) :
    AtMostOne w (s.scheduleReset false time event) := fun p hp =>
  Nat.le_trans ((sublist_cancel s time event).filter _).length_le (h p hp)

theorem pending_cancel_of_nil (h : pending s.resetTimeQueue p = []) (time : Int)
    (event : InstResetEvent) :
    pending (s.scheduleReset false time event).resetTimeQueue p = [] :=
  List.sublist_nil.mp (h ▸ (sublist_cancel s time event).filter _)

theorem pending_resetOrWarnAll (hne : q ≠ p) (warn : Bool) (r : Nat) :
    pending (s.resetOrWarnAll w p warn r).resetTimeQueue q = pending s.resetTimeQueue q := by
  unfold Manager.resetOrWarnAll
  split
  · rfl
  split
  · rfl
  dsimp only
  split
  · rfl
  · exact pending_insertEvent_of_ne (.inr fun hsame => hne hsame.symm)

/-- A forced reset takes the events of two pairs and puts back that of one. -/
theorem moves_force_iff (hclean : Clean w s) (hkept : Kept w s) (q : Pair) (now : Nat) :
    Moves w s (s.apply w (.forceGlobalReset q now)) (.forceGlobalReset q now) ↔
      Fits w s (.forceGlobalReset q now) := by
  rw [Manager.apply, Manager.forceGlobalReset]
  cases hdown : w.downscaled q with
  | none =>
    refine iff_of_true (fun p k r _ h => ?_) fun p q' hsome => ?_
    · rw [if_neg (by simp [hdown])]
      exact h
    · rw [hdown] at hsome
      cases hsome
  | some q' =>
    dsimp only
    have hclean₁ := hclean.cancel 0 (globalEvent 1 q')
    have hone₁ := hkept.atMostOne.cancel 0 (globalEvent 1 q')
    have hthere : ∀ p, w.raidDuration p ≠ 0 → pending s.resetTimeQueue p ≠ [] := by
      intro p hp hnone
      obtain ⟨k, r, h⟩ := hkept p hp
      rw [h.pending] at hnone
      cases hnone
    by_cases halone : ∀ p, w.raidDuration p ≠ 0 → p = q'
    · refine iff_of_true (fun p k r hp h => ?_) fun p q'' hsome hp => ?_
      · obtain rfl := halone p hp
        rw [if_pos hdown, resetOrWarnAll_false hp]
        refine ⟨by omega, ?_, pending_insertEvent Nat.one_ne_zero rfl ?_⟩
        · refine (Assoc.lookup_modify_self _ _ _).trans ?_
          exact congrArg (Option.map fun _ => getSubsequentResetTime w p now) h.resetTime
        · rcases @cancel_global w s (globalEvent 1 p) hclean hkept.atMostOne 0 rfl with
            hnone | ⟨u, hu, _, hcancelled, _⟩
          · exact absurd (hnone p hp) (hthere p hp)
          · obtain rfl := halone u hu
            exact pending_cancel_of_nil hcancelled 0 (globalEvent 4 u)
      · obtain rfl := Option.some.inj (hdown.symm.trans hsome)
        exact halone p hp
    · push Not at halone
      obtain ⟨p, hp, hne⟩ := halone
      refine iff_of_false (fun hmoves => ?_) fun hall => hne (hall p q' hdown hp)
      -- the event of some other pair is taken
      have htaken : ∃ u, w.raidDuration u ≠ 0 ∧ u ≠ q' ∧
          pending ((s.scheduleReset false 0 (globalEvent 1 q')).scheduleReset false 0
            (globalEvent 4 q')).resetTimeQueue u = [] := by
        rcases @cancel_global w s (globalEvent 1 q') hclean hkept.atMostOne 0 rfl with
          hnone | ⟨u, hu, _, hcancelled, hothers⟩
        · exact absurd (hnone p hp) (hthere p hp)
        by_cases huq : u = q'
        · subst huq
          rcases @cancel_global w _ (globalEvent 4 u) hclean₁ hone₁ 0 rfl with
            hnone | ⟨v, hv, hpending, hcancelled', _⟩
          · exact absurd ((hothers p hne).symm.trans (hnone p hp)) (hthere p hp)
          · exact ⟨v, hv, fun hsame => hpending (hsame ▸ hcancelled), hcancelled'⟩
        · exact ⟨u, hu, huq, pending_cancel_of_nil hcancelled 0 _⟩
      obtain ⟨u, hu, huq, hnone⟩ := htaken
      obtain ⟨k, r, h⟩ := hkept u hu
      have hdue := hmoves u k r hu h
      rw [if_neg fun hsome => huq (Option.some.inj (hdown.symm.trans hsome)).symm] at hdue
      have hpending := hdue.pending
      rw [pending_resetOrWarnAll huq, hnone] at hpending
      cases hpending

end Forced

theorem moves_iff (hclean : Clean w s) (hkept : Kept w s) (op : Op) :
    Moves w s (s.apply w op) op ↔ Fits w s op := by
  cases op with
  | update now => exact moves_update_iff hclean hkept now
  | scheduleReset add time p instanceId single =>
    refine iff_of_true (fun q k r _ h => ?_) trivial
    exact h.scheduleReset hclean add time instanceId single p
  | forceGlobalReset q now => exact moves_force_iff hclean hkept q now

theorem Kept.of_moves (h : Kept w s) {op : Op} (hmoves : Moves w s s' op) : Kept w s' := by
  intro p hp
  obtain ⟨k, r, hdue⟩ := h p hp
  cases op with
  | update now =>
    have hnext := hmoves p k r hp hdue
    split at hnext
    · split at hnext
      · exact ⟨_, _, hnext⟩
      · exact ⟨_, _, hnext⟩
    · exact ⟨_, _, hnext⟩
  | scheduleReset add time p' instanceId single => exact ⟨k, r, hmoves p k r hp hdue⟩
  | forceGlobalReset q now =>
    have hnext := hmoves p k r hp hdue
    split at hnext
    · exact ⟨_, _, hnext⟩
    · exact ⟨_, _, hnext⟩

section Load
variable {data : ResetTimes}

theorem firstType_bounds (now t : Nat) :
    1 ≤ Manager.firstType now t ∧ Manager.firstType now t ≤ 4 := by
  unfold Manager.firstType
  split
  · omega
  split
  · omega
  split
  · omega
  · omega

def loadSingle (now : Nat) (instances : List SavedInstance) : ResetTimeQueue :=
  instances.foldl (fun queue x =>
    if x.resetTime > now then insertEvent x.resetTime ⟨0, x.pair.1, x.pair.2, x.instanceId⟩ queue
    else queue) []

theorem mem_loadSingle (now : Nat) (instances : List SavedInstance) :
    ∀ x ∈ loadSingle now instances, x.2.type = 0 ∧ x.2.instanceId ≠ 0 := by
  induction instances using List.reverseRecOn with
  | nil => intro x hx; cases hx
  | append_singleton instances last ih =>
    intro x hx
    rw [loadSingle, List.foldl_append, List.foldl_cons, List.foldl_nil, ← loadSingle] at hx
    split at hx
    · rcases mem_insertEvent.mp hx with rfl | hold
      · exact ⟨rfl, last.instanceId_ne⟩
      · exact ih x hold
    · exact ih x hx

def firstTime (now : Nat) (data : ResetTimes) (p : Pair) : Int :=
  data.times p - resetTimeDelay (Manager.firstType now (data.times p))

def firstEvent (now : Nat) (data : ResetTimes) (p : Pair) : InstResetEvent :=
  globalEvent (Manager.firstType now (data.times p)) p

def instanceEvents (now : Nat) (data : ResetTimes) (p : Pair) : ResetTimeQueue :=
  (data.mapDiffResetInstances p).map fun instanceId =>
    (firstTime now data p, { firstEvent now data p with instanceId })

def loadPair (w : World) (now : Nat) (data : ResetTimes) (queue : ResetTimeQueue) (p : Pair) :
    ResetTimeQueue :=
  if w.raidDuration p = 0 then queue
  else
    (instanceEvents now data p).foldl (fun queue x => insertEvent x.1 x.2 queue)
      (insertEvent (firstTime now data p) (firstEvent now data p) queue)

def loadQueue (w : World) (now : Nat) (data : ResetTimes) (pairs : List Pair) : ResetTimeQueue :=
  pairs.foldl (loadPair w now data) (loadSingle now data.instResetTime)

theorem load_queue : (Manager.load w now data).resetTimeQueue =
    loadQueue w now data w.mapDifficulties.keys := by
  unfold Manager.load loadQueue loadPair instanceEvents
  simp only [List.foldl_map]
  rfl

theorem loadQueue_concat (pairs : List Pair) (q : Pair) :
    loadQueue w now data (pairs ++ [q]) = loadPair w now data (loadQueue w now data pairs) q := by
  rw [loadQueue, List.foldl_append]
  rfl

theorem loadPair_perm (hp : w.raidDuration p ≠ 0) : loadPair w now data queue p ~
    instanceEvents now data p ++ (firstTime now data p, firstEvent now data p) :: queue := by
  have hfold (events queue : ResetTimeQueue) :
      events.foldl (fun queue x => insertEvent x.1 x.2 queue) queue ~ events ++ queue := by
    induction events generalizing queue with
    | nil => rfl
    | cons x events ih =>
      exact (ih _).trans ((insertEvent_perm.append_left events).trans List.perm_middle)
  rw [loadPair, if_neg hp]
  exact (hfold _ _).trans (insertEvent_perm.append_left _)

theorem pending_loadSingle (instances : List SavedInstance) (p : Pair) :
    pending (loadSingle now instances) p = [] := by
  refine List.filter_eq_nil_iff.mpr fun x hx => ?_
  simp [(mem_loadSingle now instances x hx).1]

theorem pending_loadPair_of_ne (h : q ≠ p) :
    pending (loadPair w now data queue q) p = pending queue p := by
  by_cases hq : w.raidDuration q = 0
  · rw [loadPair, if_pos hq]
  · have hfold (events queue : ResetTimeQueue) (hne : ∀ x ∈ events, x.2.pair ≠ p) :
        pending (events.foldl (fun queue x => insertEvent x.1 x.2 queue) queue) p =
          pending queue p := by
      induction events generalizing queue with
      | nil => rfl
      | cons x events ih =>
        rw [List.forall_mem_cons] at hne
        exact (ih _ hne.2).trans (pending_insertEvent_of_ne (.inr hne.1))
    have hfirst : (firstEvent now data q).pair ≠ p := h
    rw [loadPair, if_neg hq, hfold, pending_insertEvent_of_ne (.inr hfirst)]
    intro x hx
    obtain ⟨instanceId, _, rfl⟩ := List.mem_map.mp hx
    exact h

/-- A pair has its own event and one for every instance with a stored reset time. -/
theorem pending_loadQueue (pairs : List Pair) (hnodup : pairs.Nodup) (hp : w.raidDuration p ≠ 0) :
    pending (loadQueue w now data pairs) p ~ if p ∈ pairs then
      instanceEvents now data p ++ [(firstTime now data p, firstEvent now data p)] else [] := by
  induction pairs using List.reverseRecOn with
  | nil => exact .of_eq (pending_loadSingle _ p)
  | append_singleton pairs q ih =>
    obtain ⟨hpairs, _, hdisjoint⟩ := List.nodup_append.mp hnodup
    have ih := ih hpairs
    rw [loadQueue_concat]
    by_cases hpq : q = p
    · subst hpq
      have hnot : q ∉ pairs := fun hmem => hdisjoint q hmem q (by simp) rfl
      rw [if_neg hnot, List.perm_nil] at ih
      rw [if_pos (by simp)]
      refine ((loadPair_perm hp).filter _).trans (.of_eq ?_)
      have htype := firstType_bounds now (data.times q)
      rw [List.filter_append, List.filter_cons_of_pos, List.filter_eq_self.mpr]
      · exact congrArg _ (congrArg _ ih)
      · intro x hx
        obtain ⟨instanceId, _, rfl⟩ := List.mem_map.mp hx
        refine decide_eq_true ⟨?_, rfl⟩
        change Manager.firstType now (data.times q) ≠ 0
        omega
      · refine decide_eq_true ⟨?_, rfl⟩
        change Manager.firstType now (data.times q) ≠ 0
        omega
    · have hmem : p ∈ pairs ++ [q] ↔ p ∈ pairs := by simp [Ne.symm hpq]
      rw [if_congr hmem rfl rfl, pending_loadPair_of_ne hpq]
      exact ih

theorem mem_keys_of_raidDuration (hp : w.raidDuration p ≠ 0) : p ∈ w.mapDifficulties := by
  by_contra hnot
  exact hp (by rw [World.raidDuration, AList.lookup_eq_none.mpr hnot]; rfl)

theorem pending_load (hp : w.raidDuration p ≠ 0) :
    pending (Manager.load w now data).resetTimeQueue p ~
      instanceEvents now data p ++ [(firstTime now data p, firstEvent now data p)] := by
  have hpending : pending (loadQueue w now data w.mapDifficulties.keys) p ~ _ :=
    pending_loadQueue _ (AList.keys_nodup w.mapDifficulties) hp
  rwa [if_pos (AList.mem_keys.mp (mem_keys_of_raidDuration hp)), ← load_queue] at hpending

/-- After the loading every pair has its one event where no instance of such a pair has a stored
reset time, and only there. -/
theorem kept_load_iff : Kept w (.load w now data) ↔
    ∀ p, w.raidDuration p ≠ 0 → data.mapDiffResetInstances p = [] := by
  constructor
  · intro hkept p hp
    obtain ⟨k, r, hdue⟩ := hkept p hp
    have hlength := (@pending_load w p now data hp).length_eq
    rw [hdue.pending] at hlength
    simpa [instanceEvents] using hlength
  · intro hnone p hp
    have hpending := @pending_load w p now data hp
    rw [instanceEvents, hnone p hp] at hpending
    refine ⟨_, data.times p, firstType_bounds now (data.times p), ?_,
      List.perm_singleton.mp hpending⟩
    obtain ⟨duration, hduration⟩ :=
      Option.isSome_iff_exists.mp (AList.lookup_isSome.mpr (mem_keys_of_raidDuration hp))
    refine (Assoc.lookup_mapVal _ _ p).trans ?_
    rw [hduration]
    rfl

theorem clean_load (hnone : ∀ p, w.raidDuration p ≠ 0 → data.mapDiffResetInstances p = []) :
    Clean w (.load w now data) := by
  have hqueue : ∀ pairs, ∀ x ∈ loadQueue w now data pairs, Allowed w x.2 := by
    intro pairs
    induction pairs using List.reverseRecOn with
    | nil =>
      intro x hx
      obtain ⟨htype, hid⟩ := mem_loadSingle now _ x hx
      exact (if_neg hid).mpr htype
    | append_singleton pairs q ih =>
      intro x hx
      rw [loadQueue_concat] at hx
      by_cases hq : w.raidDuration q = 0
      · rw [loadPair, if_pos hq] at hx
        exact ih x hx
      · rw [(loadPair_perm hq).mem_iff, instanceEvents, hnone q hq] at hx
        rcases List.mem_cons.mp hx with rfl | hold
        · have htype := firstType_bounds now (data.times q)
          refine (if_pos rfl).mpr ⟨?_, hq⟩
          change Manager.firstType now (data.times q) ≠ 0
          omega
        · exact ih x hold
  intro x hx
  rw [load_queue] at hx
  exact hqueue _ x hx

end Load

def run (w : World) (now : Nat) (data : ResetTimes) (ops : List Op) : Manager :=
  ops.foldl (Manager.apply w) (.load w now data)

theorem run_concat (data : ResetTimes) (ops : List Op) (op : Op) :
    run w now data (ops ++ [op]) = (run w now data ops).apply w op := by
  rw [run, List.foldl_append]
  rfl

theorem clean_run {data : ResetTimes}
    (hnone : ∀ p, w.raidDuration p ≠ 0 → data.mapDiffResetInstances p = []) (ops : List Op) :
    Clean w (run w now data ops) := by
  induction ops using List.reverseRecOn with
  | nil => exact clean_load hnone
  | append_singleton ops op ih =>
    rw [run_concat]
    exact ih.apply op

/-- All along a run each pair has its one event, and is moved by its own events only, if and only
if no instance of a pair has a stored reset time and the calls of the run fit. -/
theorem resets_run_iff (w : World) (now : Nat) (data : ResetTimes) (ops : List Op) :
    ((∀ before later, ops = before ++ later → Kept w (run w now data before)) ∧
      ∀ before op later, ops = before ++ op :: later →
        Moves w (run w now data before) (run w now data (before ++ [op])) op) ↔
      (∀ p, w.raidDuration p ≠ 0 → data.mapDiffResetInstances p = []) ∧
        ∀ before op later, ops = before ++ op :: later → Fits w (run w now data before) op := by
  constructor
  · rintro ⟨hkept, hmoves⟩
    have hnone := kept_load_iff.mp (hkept [] ops rfl)
    refine ⟨hnone, fun before op later hops => ?_⟩
    refine (moves_iff (clean_run hnone before) (hkept before _ hops) op).mp ?_
    rw [← run_concat]
    exact hmoves before op later hops
  · rintro ⟨hnone, hfits⟩
    have hmoves : ∀ before op later, ops = before ++ op :: later →
        Kept w (run w now data before) →
          Moves w (run w now data before) (run w now data (before ++ [op])) op := by
      intro before op later hops hkept
      rw [run_concat]
      exact (moves_iff (clean_run hnone before) hkept op).mpr (hfits before op later hops)
    have hkept : ∀ before later, ops = before ++ later → Kept w (run w now data before) :=
      of_beginnings (kept_load_iff.mpr hnone) fun before op later hops hkept =>
        hkept.of_moves (hmoves before op later hops hkept)
    exact ⟨hkept, fun before op later hops => hmoves before op later hops (hkept before _ hops)⟩

def twoRaids : World where
  mapDifficulties := (∅ : AList fun _ : Pair => Nat).insert (509, 3) 86400 |>.insert (531, 9) 604800
  scaledDuration p := if p = (509, 3) then 86400 else 604800
  resetTimeHour := 4
  instanceable _ := true
  instanceable_of_raidDuration _ _ _ _ := rfl
  downscaled p := some p

def twoWeeks : ResetTimes where
  times _ := 1137600
  instResetTime := []
  mapDiffResetInstances _ := []

/-- When one of them is reset by force, the other has no event any more. -/
theorem forced_reset_loses : ¬ Kept twoRaids (run twoRaids 1000000 twoWeeks
    [.forceGlobalReset (509, 3) 1000000]) := by
  intro hkept
  obtain ⟨k, r, h⟩ := hkept (531, 9) (by decide)
  have hnone : pending (run twoRaids 1000000 twoWeeks
      [.forceGlobalReset (509, 3) 1000000]).resetTimeQueue (531, 9) = [] := by decide
  have hpending := h.pending
  rw [hnone] at hpending
  cases hpending

end Ashamane.Resets
