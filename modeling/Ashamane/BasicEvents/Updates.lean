import Ashamane.BasicEvents.Lifetimes
import Ashamane.Lib.Descent

/-! An update ends, and what holds of the events over all runs. -/
namespace Ashamane.BasicEvents

open Lib

namespace EventProcessor

variable {s t : EventProcessor} {due event d : Nat}

/-- A turn of the loop of `Update` whose event behaves. -/
def Turns (s t : EventProcessor) : Prop :=
  ∃ ops result deletable, s.Allowed (.turn ops result deletable) ∧
    s.step (.turn ops result deletable) = some t

def dueAt (s : EventProcessor) (d : Nat) : Nat := s.events.countP fun q => q.1 == d

def overdue (s : EventProcessor) : Multiset Nat :=
  (s.events.filter fun q => q.1 ≤ s.time).map fun q => s.time - q.1

theorem count_overdue (v : Nat) :
    s.overdue.count v = if v ≤ s.time then s.dueAt (s.time - v) else 0 := by
  unfold overdue dueAt
  rw [Multiset.coe_count, List.count_eq_countP, List.countP_map, List.countP_filter]
  split
  · refine List.countP_congr fun q _ => ?_
    simp only [Function.comp, beq_iff_eq, decide_eq_true_eq, Bool.and_eq_true]
    omega
  · refine List.countP_eq_zero.mpr fun q _ => ?_
    simp only [Function.comp, beq_iff_eq, decide_eq_true_eq, Bool.and_eq_true]
    omega

theorem dueAt_addEvent {time : Nat} (h : d < time) : (s.addEvent event time).dueAt d = s.dueAt d := by
  unfold dueAt EventProcessor.addEvent
  rw [(perm_insertAt time event s.events).countP_eq, List.countP_cons]
  have hne : ((time, event).1 == d) = false := beq_eq_false_iff_ne.mpr (Nat.ne_of_gt h)
  rw [hne]
  rfl

theorem dueAt_apply {op : Op} (hfits : s.Fits (due + 1) op) (happly : s.apply op = some t)
    (hd : d ≤ due) : t.dueAt d ≤ s.dueAt d := by
  cases op with
  | addEvent event time =>
    obtain rfl := Option.some.inj happly
    have hlt : due + 1 ≤ time := hfits.2
    exact Nat.le_of_eq (dueAt_addEvent (by omega))
  | scheduleAbort event =>
    obtain ⟨-, ht⟩ := Option.ite_none_right_eq_some.mp happly
    exact Option.some.inj ht ▸ Nat.le_refl _
  | killAllEvents force deletable =>
    obtain rfl := Option.some.inj happly
    unfold dueAt
    rw [killAllEvents_events]
    exact List.filter_sublist.countP_le

theorem dueAt_applyAll {ops : List Op} (hfits : s.AllFit (due + 1) ops)
    (happly : ops.foldlM EventProcessor.apply s = some t) (hd : d ≤ due) :
    t.dueAt d ≤ s.dueAt d ∧ t.time = s.time := by
  induction ops generalizing s with
  | nil => exact Option.some.inj happly ▸ ⟨Nat.le_refl _, rfl⟩
  | cons op ops ih =>
    obtain ⟨u, hu, hrest⟩ := Option.bind_eq_some_iff.mp happly
    obtain ⟨hle, htime⟩ := ih (hfits.2 u hu) hrest
    exact ⟨Nat.le_trans hle (dueAt_apply hfits.1 hu hd), htime.trans (apply_time hu)⟩

/-- A turn takes an event of the earliest time out, and adds only later ones. -/
theorem Turns.dueAt (h : s.Turns t) : t.time = s.time ∧ ∃ due ≤ s.time,
    t.dueAt due < s.dueAt due ∧ ∀ d ≤ due, t.dueAt d ≤ s.dueAt d := by
  obtain ⟨ops, result, deletable, hallowed, hstep⟩ := h
  simp only [EventProcessor.step] at hstep
  split at hstep
  · cases hstep
  rename_i due event rest hevents
  obtain ⟨⟨-, hdue⟩, hturn⟩ := Option.ite_none_right_eq_some.mp hstep
  have hqueue : ∀ d, s.dueAt d = (rest.countP fun q => q.1 == d) + if due = d then 1 else 0 := by
    intro d
    unfold EventProcessor.dueAt
    rw [hevents, List.countP_cons]
    simp only [beq_iff_eq]
  suffices hrest : t.time = s.time ∧ ∀ d ≤ due, t.dueAt d ≤ rest.countP fun q => q.1 == d by
    refine ⟨hrest.1, due, hdue, ?_, fun d hd => ?_⟩
    · rw [hqueue, if_pos rfl]
      exact Nat.lt_succ_of_le (hrest.2 due (Nat.le_refl _))
    · rw [hqueue]
      exact Nat.le_trans (hrest.2 d hd) (Nat.le_add_right ..)
  unfold EventProcessor.turn at hturn
  split at hturn
  · rename_i hstate
    obtain ⟨hfit, -⟩ := hallowed due event rest hevents hstate
    obtain ⟨u, hops, rfl⟩ := Option.map_eq_some_iff.mp hturn
    have htime : u.time = s.time := (dueAt_applyAll hfit hops (Nat.zero_le due)).2
    have hle : ∀ d ≤ due, u.dueAt d ≤ rest.countP fun q => q.1 == d :=
      fun d hd => (dueAt_applyAll hfit hops hd).1
    split <;> exact ⟨htime, hle⟩
  · obtain rfl := Option.some.inj hturn
    have habort : ∃ u : EventProcessor, u = (if s.abortState event = .abortScheduled then
        EventProcessor.abort { s with events := rest } event else { s with events := rest }) ∧
        u.time = s.time ∧ u.events = rest := by
      refine ⟨_, rfl, ?_⟩
      split <;> exact ⟨rfl, rfl⟩
    obtain ⟨u, hu, htime, hrest⟩ := habort
    dsimp only
    rw [← hu]
    split
    · refine ⟨htime, fun d _ => ?_⟩
      unfold EventProcessor.dueAt EventProcessor.delete
      exact Nat.le_of_eq (congr_arg _ hrest)
    · refine ⟨htime, fun d hd => ?_⟩
      rw [dueAt_addEvent (by unfold calculateTime; omega)]
      unfold EventProcessor.dueAt
      exact Nat.le_of_eq (congr_arg _ hrest)

theorem Turns.overdue (h : s.Turns t) : t.overdue.IsDershowitzMannaLT s.overdue := by
  obtain ⟨htime, due, hdue, hlt, hle⟩ := h.dueAt
  refine isDershowitzMannaLT_of_count (b := s.time - due) ?_ fun v hv => ?_
  · rw [count_overdue, count_overdue, htime, if_pos (Nat.sub_le ..), if_pos (Nat.sub_le ..),
      Nat.sub_sub_self hdue]
    exact hlt
  · rw [count_overdue, count_overdue, htime]
    split
    · exact hle _ (by omega)
    · exact Nat.le_refl _

structure Orderly (s : EventProcessor) : Prop where
  history : s.log.Pairwise Entry.Follows
  due : ∀ e d t, .executed e d t ∈ s.log → d ≤ t
  owned : ∀ e, .added e ∈ s.log → (e ∈ s.events.map Prod.snd ∧ .deleted e ∉ s.log) ∨
    (e ∉ s.events.map Prod.snd ∧ s.log.count (.deleted e) = 1)
  kept : ∀ deletable, (s.killAllEvents false deletable).events =
    s.events.filter fun q => !deletable q.2
  ends : ∀ f : ℕ → EventProcessor, f 0 = s → ¬∀ n, (f n).Turns (f (n + 1))

theorem count_deleted {l : List Entry} (h : l.Pairwise Entry.Follows) (e : Nat) :
    l.count (.deleted e) ≤ 1 := by
  induction l with
  | nil => exact Nat.zero_le _
  | cons x l ih =>
    obtain ⟨hx, hl⟩ := List.pairwise_cons.mp h
    rw [List.count_cons]
    split
    · rename_i heq
      have hzero : l.count (.deleted e) = 0 := by
        refine List.count_eq_zero_of_not_mem fun hm => ?_
        exact (hx _ hm).deleted (by rw [beq_iff_eq.mp heq]; rfl)
      omega
    · exact ih hl

theorem Sound.orderly {cap : Nat} (h : s.Sound cap ∅) : s.Orderly where
  history := h.history
  due e d t hm := (h.times e d t hm).1
  owned e hm := by
    have hfree : e ∈ s.events.map Prod.snd → .deleted e ∉ s.log := by
      intro hq
      obtain ⟨q, hmem, rfl⟩ := List.mem_map.mp hq
      exact h.kept q hmem
    by_cases hq : e ∈ s.events.map Prod.snd
    · exact .inl ⟨hq, hfree hq⟩
    · have hdeleted := ((h.owned e hm).resolve_left hq).resolve_right (Set.notMem_empty e)
      have hpos := List.count_pos_iff.mpr hdeleted
      have hle := count_deleted h.history e
      exact .inr ⟨hq, by omega⟩
  kept deletable := killAllEvents_events false deletable
  ends f _ := no_infinite_shrinking overdue (fun _ _ hturn => hturn.overdue) f

/-- Over all runs of a processor whose events behave. -/
theorem updates_run {as : List Act}
    (hrun : Run (fun s a t => s.step a = some t) Allowed {} as s) : s.Orderly :=
  (hrun.invariant (fun u : EventProcessor => u.Sound u.time ∅) sound_initial
    fun _ _ _ hu hok hstep => hu.step hok hstep).orderly

/-- An event is aborted, and another one adds itself and a third one. -/
theorem updates_run_three : ∃ s : EventProcessor, (s.events = [(8, 3)] ∧ s.log =
    [.deleted 1, .executed 1 7 10, .added 3, .added 1, .executed 1 5 10, .deleted 2, .abort 2,
      .scheduled 2, .added 2, .added 1]) ∧ s.Orderly := by
  have hturn : ∀ {s : EventProcessor} {due event : Nat} {rest : List (Nat × Nat)} {ops : List Op}
      {result deletable : Bool}, s.events = (due, event) :: rest →
      (s.abortState event = .running → AllFit (due + 1)
        { s with events := rest, log := .executed event due s.time :: s.log } ops ∧
        result = !ops.any (Op.adds event)) → s.Allowed (.turn ops result deletable) := by
    intro s due event rest ops result deletable hevents h d e r hsame hstate
    obtain ⟨hfirst, rfl⟩ := List.cons.inj (hevents.symm.trans hsame)
    obtain ⟨rfl, rfl⟩ := Prod.mk.inj hfirst
    exact h hstate
  refine ⟨_, ⟨?_, ?_⟩, @updates_run _ [.call (.addEvent 1 5), .call (.addEvent 2 3),
    .call (.scheduleAbort 2), .update 10, .turn [] true true,
    .turn [.addEvent 1 7, .addEvent 3 8] false true, .turn [] true true]
    (.cons ?_ rfl (.cons ?_ rfl (.cons ?_ rfl (.cons trivial rfl (.cons (hturn rfl ?_) rfl
      (.cons (hturn rfl ?_) rfl (.cons (hturn rfl ?_) rfl (.nil _))))))))⟩
  · rfl
  · rfl
  · exact ⟨⟨by decide, by decide⟩, by decide⟩
  · exact ⟨⟨by decide, by decide⟩, by decide⟩
  · change Entry.deleted 2 ∉ [Entry.added 2, Entry.added 1]
    decide
  · exact nofun
  · refine fun _ => ⟨⟨⟨⟨by decide, by decide⟩, by decide⟩, fun t ht => ?_⟩, rfl⟩
    obtain rfl := Option.some.inj ht
    exact ⟨⟨⟨by decide, by decide⟩, by decide⟩, fun _ _ => trivial⟩
  · exact fun _ => ⟨trivial, rfl⟩

/-- An event is added at a time that is past: it is executed after one that was due later. -/
theorem updates_fail_past : ∃ s : EventProcessor,
    Run (fun s a t => s.step a = some t) always {} [.call (.addEvent 1 10), .update 10,
      .turn [] true true, .leave, .call (.addEvent 2 5), .update 1, .turn [] true true] s ∧
    s.log.take 2 = [.deleted 2, .executed 2 5 11] ∧ .executed 1 10 10 ∈ s.log ∧ ¬s.Orderly := by
  refine ⟨_, .cons trivial rfl (.cons trivial rfl (.cons trivial rfl (.cons trivial rfl
    (.cons trivial rfl (.cons trivial rfl (.cons trivial rfl (.nil _))))))), rfl, ?_, ?_⟩
  · decide
  · intro h
    have hlog := h.history
    have hpair := (List.pairwise_cons.mp (List.pairwise_cons.mp hlog).2).1 (.executed 1 10 10) (by decide)
    exact absurd (hpair.ordered 2 5 11 1 10 10 rfl rfl) (by decide)

end EventProcessor

end Ashamane.BasicEvents
