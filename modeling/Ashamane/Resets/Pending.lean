import Ashamane.Resets.Basic
import Mathlib.Data.List.Induction

/-! The pending warning or reset of each pair, over all runs. -/
namespace Ashamane.Resets
open Ashamane.Lib
open scoped List

variable {w : World} {s s' : Manager} {p q : Pair} {k r now : Nat} {time : Int}
  {event : InstResetEvent} {queue : ResetTimeQueue}

section Queue
variable {P : Int × InstResetEvent → Bool}

theorem filter_insertEvent_of_not (h : P (time, event) = false) :
    (insertEvent time event queue).filter P = queue.filter P := by
  rw [insertEvent, List.filter_append, List.filter_cons_of_neg (by simp [h]),
    ← List.filter_append, List.takeWhile_append_dropWhile]

theorem filter_insertEvent_of_none (h : P (time, event) = true) (hnone : queue.filter P = []) :
    (insertEvent time event queue).filter P = [(time, event)] := by
  rw [← List.takeWhile_append_dropWhile (p := (·.1 ≤ time)) (l := queue), List.filter_append,
    List.append_eq_nil_iff] at hnone
  rw [insertEvent, List.filter_append, List.filter_cons_of_pos h, hnone.1, hnone.2]
  rfl

theorem insertEvent_perm : insertEvent time event queue ~ (time, event) :: queue := by
  refine List.perm_middle.trans (List.Perm.cons _ ?_)
  rw [List.takeWhile_append_dropWhile]

theorem mem_insertEvent {x : Int × InstResetEvent} :
    x ∈ insertEvent time event queue ↔ x = (time, event) ∨ x ∈ queue :=
  insertEvent_perm.mem_iff.trans List.mem_cons

theorem insertEvent_cons_of_le {t : Int} {first : InstResetEvent} (h : t ≤ time) :
    insertEvent time event ((t, first) :: queue) = (t, first) :: insertEvent time event queue := by
  simp [insertEvent, h]

theorem insertEvent_cons_of_lt {t : Int} {first : InstResetEvent} (h : time < t) :
    insertEvent time event ((t, first) :: queue) = (time, event) :: (t, first) :: queue := by
  simp [insertEvent, Int.not_le.mpr h]

/-- What is cancelled has the instance id, and nothing else is taken out. -/
theorem cancelEvent_cases (time : Int) (event : InstResetEvent) (queue : ResetTimeQueue) :
    ((∀ x ∈ queue, x.2.instanceId ≠ event.instanceId) ∧ cancelEvent time event queue = queue) ∨
      ∃ before x after, queue = before ++ x :: after ∧ x.2.instanceId = event.instanceId ∧
        cancelEvent time event queue = before ++ after := by
  unfold cancelEvent
  by_cases hthere : queue.any (fun x => x.1 = time && x.2.same event) = true
  · rw [if_pos hthere]
    obtain ⟨x, hx, hsame⟩ := List.any_eq_true.mp hthere
    obtain ⟨x, before, after, _, hsame, hqueue, herase⟩ :=
      List.exists_of_eraseP (p := fun x => x.1 = time && x.2.same event) hx hsame
    simp only [InstResetEvent.same, Bool.and_eq_true, decide_eq_true_eq] at hsame
    exact .inr ⟨before, x, after, hqueue, hsame.2, herase⟩
  · rw [if_neg hthere]
    by_cases hsome : ∃ x ∈ queue, x.2.same event = true
    · obtain ⟨x, hx, hsame⟩ := hsome
      obtain ⟨x, before, after, _, hsame, hqueue, herase⟩ :=
        List.exists_of_eraseP (p := fun x => x.2.same event) hx hsame
      exact .inr ⟨before, x, after, hqueue, of_decide_eq_true hsame, herase⟩
    · push Not at hsome
      refine .inl ⟨fun x hx hsame => hsome x hx (decide_eq_true hsame), ?_⟩
      exact List.eraseP_of_forall_not hsome

end Queue

def pending (queue : ResetTimeQueue) (p : Pair) : ResetTimeQueue :=
  queue.filter fun x => x.2.type ≠ 0 ∧ x.2.pair = p

/-- The pair waits for the event of type `k` before its reset time `r`. -/
structure Due (s : Manager) (p : Pair) (k r : Nat) : Prop where
  type : 1 ≤ k ∧ k ≤ 4
  resetTime : s.resetTimeByMapDifficulty.lookup p = some r
  pending : pending s.resetTimeQueue p = [((r : Int) - resetTimeDelay k, globalEvent k p)]

def Kept (w : World) (s : Manager) : Prop := ∀ p, w.raidDuration p ≠ 0 → ∃ k r, Due s p k r

def Clean (w : World) (s : Manager) : Prop :=
  ∀ x ∈ s.resetTimeQueue, if x.2.instanceId = 0 then
    x.2.type ≠ 0 ∧ w.raidDuration x.2.pair ≠ 0 else x.2.type = 0

theorem pending_append (queue queue' : ResetTimeQueue) (p : Pair) :
    pending (queue ++ queue') p = pending queue p ++ pending queue' p := List.filter_append ..

theorem pending_insertEvent_of_ne (h : event.type = 0 ∨ event.pair ≠ p) :
    pending (insertEvent time event queue) p = pending queue p := by
  refine filter_insertEvent_of_not (decide_eq_false ?_)
  rintro ⟨htype, hpair⟩
  exact h.elim htype fun hne => hne hpair

theorem pending_insertEvent (htype : event.type ≠ 0) (hpair : event.pair = p)
    (hnone : pending queue p = []) :
    pending (insertEvent time event queue) p = [(time, event)] :=
  filter_insertEvent_of_none (decide_eq_true ⟨htype, hpair⟩) hnone

theorem pending_cons_of_ne {t : Int} (h : event.type = 0 ∨ event.pair ≠ p) :
    pending ((t, event) :: queue) p = pending queue p := by
  refine List.filter_cons_of_neg ?_
  rw [decide_eq_true_eq]
  rintro ⟨htype, hpair⟩
  exact h.elim htype fun hne => hne hpair

theorem pending_cons {t : Int} (htype : event.type ≠ 0) (hpair : event.pair = p) :
    pending ((t, event) :: queue) p = (t, event) :: pending queue p :=
  List.filter_cons_of_pos (decide_eq_true ⟨htype, hpair⟩)

def Moves (w : World) (s s' : Manager) : Op → Prop
  | .update now => ∀ p k r, w.raidDuration p ≠ 0 → Due s p k r →
      -- the pair is served if its event is the first and over
      if s.resetTimeQueue.head? = some ((r : Int) - resetTimeDelay k, globalEvent k p) ∧
          (r : Int) - resetTimeDelay k < now then
        if k = 4 then Due s' p 1 (getSubsequentResetTime w p r) else Due s' p (k + 1) r
      else Due s' p k r
  | .scheduleReset .. => ∀ p k r, w.raidDuration p ≠ 0 → Due s p k r → Due s' p k r
  | .forceGlobalReset q now => ∀ p k r, w.raidDuration p ≠ 0 → Due s p k r →
      if w.downscaled q = some p then Due s' p 1 (getSubsequentResetTime w p now)
      else Due s' p k r

def Fits (w : World) (s : Manager) : Op → Prop
  -- the first warning of the next period comes after the last one of this period
  | .update now => ∀ p r, w.raidDuration p ≠ 0 → Due s p 4 r →
      s.resetTimeQueue.head? = some ((r : Int) - 60, globalEvent 4 p) → (r : Int) - 60 < now →
        r + 3540 ≤ getSubsequentResetTime w p r
  | .scheduleReset .. => True
  -- a forced reset comes only where there is no other pair
  | .forceGlobalReset q _ => ∀ p q', w.downscaled q = some q' → w.raidDuration p ≠ 0 → p = q'

theorem getSubsequentResetTime_gt (h : w.raidDuration p ≠ 0) (r : Nat) :
    r < getSubsequentResetTime w p r := by
  unfold getSubsequentResetTime
  rw [if_neg h]
  have hdiv := Nat.lt_div_mul_add (a := r + 60) (b := day) (by decide)
  dsimp only
  split
  · omega
  · rename_i hperiod
    omega

section Calls

/-- A reset of a pair: its reset time moves, and its first warning is put in the queue. -/
theorem resetOrWarnAll_false (h : w.raidDuration p ≠ 0) (s : Manager) (r : Nat) :
    s.resetOrWarnAll w p false r = (s.setResetTimeFor p (getSubsequentResetTime w p r)).scheduleReset
      true (getSubsequentResetTime w p r - 3600) (globalEvent 1 p) := by
  have hinstanceable : w.instanceable p.1 = true := by
    cases hlookup : w.mapDifficulties.lookup p with
    | none => exact absurd (by simp [World.raidDuration, hlookup]) h
    | some duration =>
      refine w.instanceable_of_raidDuration p duration hlookup fun hzero => h ?_
      simp [World.raidDuration, hlookup, hzero]
  have hnext : getSubsequentResetTime w p r ≠ 0 := by
    have hgt := getSubsequentResetTime_gt h r
    omega
  unfold Manager.resetOrWarnAll
  rw [if_neg (by simp [hinstanceable]), if_neg (by simp), if_neg hnext]

theorem resetOrWarnAll_true (s : Manager) (p : Pair) (r : Nat) :
    s.resetOrWarnAll w p true r = s := by
  unfold Manager.resetOrWarnAll
  split
  · rfl
  · rfl

theorem Due.getResetTimeFor (h : Due s p k r) : s.getResetTimeFor p = r := by
  rw [Manager.getResetTimeFor, h.resetTime]
  rfl

/-- Single instances are scheduled and cancelled beside the pairs. -/
theorem Due.scheduleReset (hs : Clean w s) (h : Due s p k r) (add : Bool) (time : Int)
    (instanceId : Nat) (hsingle : instanceId ≠ 0) (q : Pair) :
    Due (s.scheduleReset add time ⟨0, q.1, q.2, instanceId⟩) p k r := by
  refine ⟨h.type, h.resetTime, ?_⟩
  rw [← h.pending]
  cases add with
  | true => exact pending_insertEvent_of_ne (.inl rfl)
  | false =>
    rcases cancelEvent_cases time ⟨0, q.1, q.2, instanceId⟩ s.resetTimeQueue with
      ⟨_, hsame⟩ | ⟨before, x, after, hqueue, hid, hcancel⟩
    · exact congrArg (fun queue => Resets.pending queue p) hsame
    · have hclean := hs x (by rw [hqueue]; simp)
      rw [if_neg (hid ▸ hsingle)] at hclean
      have hnot : (decide (x.2.type ≠ 0 ∧ x.2.pair = p)) = false := by simp [hclean]
      refine (congrArg (fun queue => Resets.pending queue p) hcancel).trans ?_
      rw [hqueue]
      simp only [Resets.pending, List.filter_append, List.filter_cons, hnot]
      rfl

theorem Due.congr (h : Due s p k r)
    (hlookup : s'.resetTimeByMapDifficulty.lookup p = s.resetTimeByMapDifficulty.lookup p)
    (hpending : Resets.pending s'.resetTimeQueue p = Resets.pending s.resetTimeQueue p) :
    Due s' p k r := ⟨h.type, hlookup.trans h.resetTime, hpending.trans h.pending⟩

theorem Due.unique {k' r' : Nat} (h : Due s p k r) (h' : Due s p k' r') : k = k' ∧ r = r' := by
  have hpending := h.pending.symm.trans h'.pending
  refine ⟨?_, Option.some.inj (h.resetTime.symm.trans h'.resetTime)⟩
  have hevent := congrArg (fun x : Int × InstResetEvent => x.2.type) (List.cons.inj hpending).1
  exact hevent

/-- The event of a pair at the front of the queue is the one that the pair waits for. -/
theorem Due.front (h : Due s p k r) {t : Int} {rest : ResetTimeQueue}
    (hqueue : s.resetTimeQueue = (t, event) :: rest) (htype : event.type ≠ 0)
    (hpair : event.pair = p) :
    (t, event) = ((r : Int) - resetTimeDelay k, globalEvent k p) ∧ Resets.pending rest p = [] := by
  have hpending := h.pending
  rw [hqueue, pending_cons htype hpair] at hpending
  exact List.cons.inj hpending

theorem Due.updateRound_warning (h : Due s p k r) (hk : k < 4) {rest : ResetTimeQueue}
    (hqueue : s.resetTimeQueue = ((r : Int) - resetTimeDelay k, globalEvent k p) :: rest)
    (hlt : (r : Int) - resetTimeDelay k < now) :
    s.updateRound w now = some { s with
      resetTimeQueue := insertEvent (r - resetTimeDelay (k + 1)) (globalEvent (k + 1) p) rest } := by
  have htype : k ≠ 0 := by have := h.type; omega
  have hlater : (r : Int) - resetTimeDelay k ≤ r - resetTimeDelay (k + 1) := by
    have hcases : k = 1 ∨ k = 2 ∨ k = 3 := by omega
    rcases hcases with rfl | rfl | rfl
    · exact Int.sub_le_sub_left (by decide) _
    · exact Int.sub_le_sub_left (by decide) _
    · exact Int.sub_le_sub_left (by decide) _
  have hwarn : (k != 4) = true := by simp only [bne_iff_ne, ne_eq]; omega
  unfold Manager.updateRound
  rw [hqueue]
  dsimp only [globalEvent]
  rw [if_neg (Int.not_le.mpr hlt), if_neg htype, if_pos (by omega), hwarn,
    resetOrWarnAll_true]
  have hreset : s.getResetTimeFor (InstResetEvent.pair ⟨k, p.1, p.2, 0⟩) = r := h.getResetTimeFor
  simp only [Manager.scheduleReset, if_true, hreset, insertEvent_cons_of_le hlater, List.tail_cons]

theorem Due.updateRound_reset (h : Due s p 4 r) (hp : w.raidDuration p ≠ 0)
    {rest : ResetTimeQueue}
    (hqueue : s.resetTimeQueue = ((r : Int) - 60, globalEvent 4 p) :: rest)
    (hlt : (r : Int) - 60 < now) :
    s.updateRound w now = some { s.setResetTimeFor p (getSubsequentResetTime w p r) with
      resetTimeQueue := (insertEvent (getSubsequentResetTime w p r - 3600) (globalEvent 1 p)
        (((r : Int) - 60, globalEvent 4 p) :: rest)).tail } := by
  have hreset : s.getResetTimeFor (InstResetEvent.pair ⟨4, p.1, p.2, 0⟩) = r := h.getResetTimeFor
  have hpair : InstResetEvent.pair ⟨4, p.1, p.2, 0⟩ = p := rfl
  unfold Manager.updateRound
  rw [hqueue]
  dsimp only [globalEvent]
  rw [if_neg (Int.not_le.mpr hlt), if_neg (by decide), if_neg (by decide), hreset, hpair,
    show ((4 : Nat) != 4) = false from rfl, resetOrWarnAll_false hp]
  simp only [Manager.scheduleReset, if_true, Manager.setResetTimeFor, hqueue]
  rfl

end Calls

end Ashamane.Resets
