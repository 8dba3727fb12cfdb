import Ashamane.Tasks.Scheduler
import Mathlib.Data.List.Nodup
import Mathlib.Tactic.Tauto

/-! Every callable is run once, as long as none of them cancels the others while it runs. -/
namespace Ashamane.Tasks

open Lib

namespace TaskScheduler

variable {s t : TaskScheduler}

structure Served (s : TaskScheduler) : Prop where
  defined : s.phase ≠ .undefined
  once : ∀ c < s.issued, c ∉ s.cancelled →
    if c ∈ s.asyncHolder then c ∉ s.started else s.started.count c = 1
  twice : ∀ c, s.started.count c ≤ 1
  dispatched : ∀ c < s.dispatched, c ∉ s.cancelled → s.started.count c = 1

structure Numbered (s : TaskScheduler) : Prop where
  queued : s.asyncHolder.Nodup
  run : s.started.Nodup
  waiting : ∀ c ∈ s.asyncHolder, c < s.issued ∧ s.dispatched ≤ c ∧ c ∉ s.started ∧ c ∉ s.cancelled
  known : ∀ c ∈ s.started ++ s.cancelled, c < s.issued
  all : ∀ c < s.issued, c ∈ s.asyncHolder ++ s.started ++ s.cancelled
  dispatched : s.dispatched ≤ s.issued

theorem Numbered.served (h : s.Numbered) (hphase : s.phase ≠ .undefined) : s.Served where
  defined := hphase
  once c hc hcancelled := by
    split
    · exact (h.waiting c ‹_›).2.2.1
    · refine List.count_eq_one_of_mem h.run ?_
      have := h.all c hc
      simp only [List.mem_append] at this
      tauto
  twice c := List.nodup_iff_count_le_one.mp h.run c
  dispatched c hc hcancelled := by
    have := h.all c (Nat.lt_of_lt_of_le hc h.dispatched)
    refine List.count_eq_one_of_mem h.run ?_
    simp only [List.mem_append] at this
    rcases this with (hqueued | hrun) | hcancel
    · exact absurd (h.waiting c hqueued).2.1 (Nat.not_le_of_lt hc)
    · exact hrun
    · exact absurd hcancel hcancelled

theorem numbered_initial (now : Int) : Numbered { now } where
  queued := List.nodup_nil
  run := List.nodup_nil
  waiting := nofun
  known := nofun
  all := nofun
  dispatched := Nat.le_refl 0

theorem Numbered.async (h : s.Numbered) : s.async.Numbered where
  queued := by
    change (s.asyncHolder ++ [_]).Nodup
    rw [← List.concat_eq_append]
    exact h.queued.concat fun hmem => Nat.lt_irrefl _ (h.waiting _ hmem).1
  run := h.run
  waiting c hc := by
    rcases List.mem_append.mp hc with hold | hnew
    · obtain ⟨hlt, hrest⟩ := h.waiting c hold
      exact ⟨Nat.lt_succ_of_lt hlt, hrest⟩
    · obtain rfl := List.mem_singleton.mp hnew
      have hnot : s.issued ∉ s.started ++ s.cancelled := fun hm => Nat.lt_irrefl _ (h.known _ hm)
      rw [List.mem_append, not_or] at hnot
      exact ⟨Nat.lt_succ_self _, h.dispatched, hnot⟩
  known c hc := Nat.lt_succ_of_lt (h.known c hc)
  all c hc := by
    have hcases : c < s.issued ∨ c = s.issued := Nat.lt_succ_iff_lt_or_eq.mp hc
    change c ∈ (s.asyncHolder ++ [s.issued]) ++ s.started ++ s.cancelled
    rcases hcases with hlt | rfl
    · have := h.all c hlt
      simp only [List.mem_append] at this ⊢
      tauto
    · simp
  dispatched := Nat.le_succ_of_le h.dispatched

theorem Numbered.cancelAll (h : s.Numbered) : s.cancelAll.Numbered where
  queued := List.nodup_nil
  run := h.run
  waiting := nofun
  known c hc := by
    simp only [TaskScheduler.cancelAll, List.mem_append] at hc
    rcases hc with hrun | hqueued | hcancelled
    · exact h.known c (List.mem_append_left _ hrun)
    · exact (h.waiting c hqueued).1
    · exact h.known c (List.mem_append_right _ hcancelled)
  all c hc := by
    have := h.all c hc
    simp only [TaskScheduler.cancelAll, List.mem_append] at this ⊢
    tauto
  dispatched := h.dispatched

theorem Numbered.apply (h : s.Numbered) (op : Op) : (s.apply op).Numbered := by
  by_cases hasync : op = .async
  · subst hasync
    exact h.async
  by_cases hcancel : op = .cancelAll
  · subst hcancel
    exact h.cancelAll
  obtain ⟨holder, heq⟩ := apply_holders (s := s) hasync hcancel
  rw [heq]
  exact { h with }

theorem Numbered.applyAll (h : s.Numbered) (ops : List Op) : (s.applyAll ops).Numbered :=
  applyAll_induct h fun _ hs op _ => hs.apply op

theorem Numbered.started {callable : Nat} {rest : List Nat} (h : s.Numbered)
    (hqueue : s.asyncHolder = callable :: rest) :
    Numbered { s with asyncHolder := rest, started := callable :: s.started } := by
  have hfront : callable ∈ s.asyncHolder := hqueue ▸ List.mem_cons_self ..
  have hnodup := h.queued
  rw [hqueue, List.nodup_cons] at hnodup
  obtain ⟨hlt, -, hrun, -⟩ := h.waiting callable hfront
  refine ⟨hnodup.2, List.nodup_cons.mpr ⟨hrun, h.run⟩, ?_, ?_, ?_, h.dispatched⟩
  · intro c hc
    obtain ⟨hclt, hpast, hcrun, hcancelled⟩ := h.waiting c (hqueue ▸ List.mem_cons_of_mem _ hc)
    have hne : c ≠ callable := fun heq => hnodup.1 (heq ▸ hc)
    exact ⟨hclt, hpast, by simp [hne, hcrun], hcancelled⟩
  · intro c hc
    rcases List.mem_cons.mp hc with rfl | hold
    · exact hlt
    · exact h.known c hold
  · intro c hc
    have := h.all c hc
    rw [hqueue] at this
    simp only [List.mem_append, List.mem_cons] at this ⊢
    tauto

theorem Numbered.loopAsyncs (h : s.Numbered) (valid : Bool) : (s.loopAsyncs valid).Numbered := by
  unfold TaskScheduler.loopAsyncs
  split
  · exact { h with }
  split
  · rename_i hempty
    have hnil : s.asyncHolder = [] := List.isEmpty_iff.mp hempty
    refine { h with waiting := ?_, dispatched := Nat.le_refl _ }
    simp [hnil]
  · exact { h with }

theorem loopAsyncs_defined (valid : Bool) : (s.loopAsyncs valid).phase ≠ .undefined := by
  unfold loopAsyncs
  split
  · exact nofun
  split <;> exact nofun

theorem applyAll_phase (ops : List Op) : (s.applyAll ops).phase = s.phase := by
  refine applyAll_induct (P := fun u => u.phase = s.phase) rfl fun u hu op _ => ?_
  rw [← hu]
  cases op with
  | cancelGroupsOf groups => rw [apply, cancelGroupsOf_eq]
  | _ => rfl

/-- No callable that `Dispatch` runs calls `CancelAll`. -/
def Leaves (_ : TaskScheduler) (a : Act) : Prop :=
  ∀ ops valid, a = .runAsync ops valid → .cancelAll ∉ ops

theorem Numbered.step {a : Act} (h : s.Numbered ∧ s.phase ≠ .undefined) (hok : s.Leaves a)
    (hstep : s.step a = some t) : t.Numbered ∧ t.phase ≠ .undefined := by
  obtain ⟨hs, hdefined⟩ := h
  rcases step_cases hstep with ⟨op, -, -, rfl⟩ | ⟨now, valid, -, -, rfl⟩ |
    ⟨ops, valid, callable, rest, rfl, -, hqueue, rfl⟩ | ⟨ops, valid, rest, -, -, rfl⟩ |
    ⟨ops, -, -, rfl⟩
  · have hphase : (s.applyAll [op]).phase = s.phase := applyAll_phase [op]
    exact ⟨hs.apply op, hphase ▸ hdefined⟩
  · have hnow : Numbered { s with now } := { hs with }
    exact ⟨hnow.loopAsyncs valid, loopAsyncs_defined valid⟩
  · rw [runAsync_eq hqueue (hok ops valid rfl)]
    exact ⟨((hs.started hqueue).applyAll ops).loopAsyncs valid, loopAsyncs_defined valid⟩
  · have hrest : Numbered { s with taskHolder := rest } := { hs with }
    have hops := hrest.applyAll ops
    unfold runTask
    dsimp only
    split
    · exact ⟨hops, by rw [applyAll_phase]; exact hdefined⟩
    · exact ⟨{ hops with }, nofun⟩
  · exact ⟨{ hs.applyAll ops with }, nofun⟩

def Turns (s : TaskScheduler) (a : Act) : Prop := s.Leaves a ∧ ∃ ops, a = .runAsync ops true

theorem applyAll_keeps {ops : List Op} (hcancel : .cancelAll ∉ ops) :
    (s.applyAll ops).started = s.started ∧ s.asyncHolder <+: (s.applyAll ops).asyncHolder := by
  refine applyAll_induct (P := fun u => u.started = s.started ∧ s.asyncHolder <+: u.asyncHolder)
    ⟨rfl, List.prefix_refl _⟩ ?_
  rintro u ⟨hstarted, hqueue⟩ op hop
  have hne : op ≠ .cancelAll := fun h => hcancel (h ▸ hop)
  by_cases hasync : op = .async
  · subst hasync
    exact ⟨hstarted, hqueue.trans (List.prefix_append _ _)⟩
  obtain ⟨holder, heq⟩ := apply_holders (s := u) hasync hne
  rw [heq]
  exact ⟨hstarted, hqueue⟩

theorem turn_eq {ops : List Op} (hleaves : s.Leaves (.runAsync ops true))
    (hstep : s.step (.runAsync ops true) = some t) : ∃ front rest u,
      s.asyncHolder = front :: rest ∧ u.started = front :: s.started ∧
      rest <+: u.asyncHolder ∧ t = loopAsyncs u true := by
  rcases step_cases hstep with ⟨op, h, -⟩ | ⟨now, valid, h, -⟩ |
    ⟨ops', valid, front, rest, h, -, hqueue, ht⟩ | ⟨ops', valid, rest, h, -⟩ | ⟨ops', h, -⟩
  · exact nomatch h
  · exact nomatch h
  · obtain ⟨rfl, rfl⟩ := Act.runAsync.inj h
    have hcancel := hleaves ops true rfl
    rw [runAsync_eq hqueue hcancel] at ht
    obtain ⟨hstarted, hkept⟩ := applyAll_keeps
      (s := { s with asyncHolder := rest, started := front :: s.started }) hcancel
    exact ⟨front, rest, _, hqueue, hstarted, hkept, ht⟩
  · exact nomatch h
  · exact nomatch h

theorem loopAsyncs_fields (valid : Bool) :
    (s.loopAsyncs valid).started = s.started ∧ (s.loopAsyncs valid).asyncHolder = s.asyncHolder ∧
      (s.loopAsyncs valid).issued = s.issued ∧ (s.loopAsyncs valid).cancelled = s.cancelled := by
  unfold loopAsyncs
  split
  · exact ⟨rfl, rfl, rfl, rfl⟩
  split <;> exact ⟨rfl, rfl, rfl, rfl⟩

/-- The first loop comes to the callable at place `k` in its turn `k + 1`, whatever the others
add behind it. -/
theorem turns_reach {c k : Nat} {as : List Act} (hk : s.asyncHolder[k]? = some c)
    (hlength : as.length = k + 1)
    (hrun : Run (fun s a t => s.step a = some t) Turns s as t) : c ∈ t.started := by
  induction k generalizing s as with
  | zero =>
    obtain _ | ⟨⟨hleaves, ops, rfl⟩, hstep, hrest⟩ := hrun
    · exact nomatch hlength
    obtain ⟨front, rest, u, hqueue, hstarted, -, rfl⟩ := turn_eq hleaves hstep
    rw [hqueue] at hk
    obtain rfl := Option.some.inj hk
    refine hrest.invariant (fun u => front ∈ u.started) ?_ ?_
    · rw [(loopAsyncs_fields true).1, hstarted]
      exact List.mem_cons_self ..
    · rintro v a w hv ⟨hleaves, ops, rfl⟩ hstep
      obtain ⟨other, _, x, -, hstarted, -, rfl⟩ := turn_eq hleaves hstep
      rw [(loopAsyncs_fields true).1, hstarted]
      exact List.mem_cons_of_mem _ hv
  | succ k ih =>
    obtain _ | ⟨⟨hleaves, ops, rfl⟩, hstep, hrest⟩ := hrun
    · exact nomatch hlength
    obtain ⟨front, rest, u, hqueue, -, ⟨added, hadded⟩, rfl⟩ := turn_eq hleaves hstep
    refine ih ?_ (Nat.succ.inj hlength) hrest
    rw [hqueue] at hk
    rw [(loopAsyncs_fields true).2.1, ← hadded, List.getElem?_append_left]
    · exact hk
    · exact Nat.lt_of_succ_lt_succ (List.getElem?_eq_some_iff.mp hk).1

/-- Every callable is run exactly once, in all runs of the scheduler in which none of them cancels
everything while it runs. -/
theorem asyncs_run {now : Int} {as : List Act}
    (hrun : Run (fun s a t => s.step a = some t) Leaves { now } as s) :
    s.Served ∧ ∀ k c, s.asyncHolder[k]? = some c → ∀ bs t, bs.length = k + 1 →
      Run (fun s a t => s.step a = some t) Turns s bs t → t.started.count c = 1 := by
  have hinv : s.Numbered ∧ s.phase ≠ .undefined :=
    hrun.invariant (fun u => u.Numbered ∧ u.phase ≠ .undefined) ⟨numbered_initial now, nofun⟩
      fun _ _ _ hu hok hstep => Numbered.step hu hok hstep
  refine ⟨hinv.1.served hinv.2, fun k c hk bs t hlength hturns => ?_⟩
  have ht : t.Numbered ∧ t.phase ≠ .undefined :=
    hturns.invariant (fun u => u.Numbered ∧ u.phase ≠ .undefined) hinv
      fun _ _ _ hu hok hstep => Numbered.step hu hok.1 hstep
  exact List.count_eq_one_of_mem ht.1.run (turns_reach hk hlength hturns)

/-- Two callables are run, and a task cancels a third one that waits for the next update. -/
theorem asyncs_run_three : ∃ s : TaskScheduler, (s.started = [1, 0] ∧ s.cancelled = [2]) ∧
    s.Served ∧ ∀ k c, s.asyncHolder[k]? = some c → ∀ bs t, bs.length = k + 1 →
      Run (fun s a t => s.step a = some t) Turns s bs t → t.started.count c = 1 := by
  have hleaves : ∀ (s : TaskScheduler) (a : Act),
      s.Leaves a ↔ ∀ ops valid, a = .runAsync ops valid → Op.cancelAll ∉ ops := fun _ _ => Iff.rfl
  refine ⟨_, ⟨?_, ?_⟩, @asyncs_run _ 0 [.call .async,
    .call (.schedule 5 none 7), .update 10 true, .runAsync [.async] true, .runAsync [] true,
    .runTask [.async, .cancelAll] true]
    (.cons ?_ rfl (.cons ?_ rfl (.cons ?_ rfl (.cons ?_ rfl (.cons ?_ rfl (.cons ?_ rfl (.nil _)))))))⟩
  · decide
  · decide
  all_goals
    rw [hleaves]
    intro ops valid h
    cases h <;> decide

/-- A callable that cancels everything and adds two others: the first of them leaves the queue
instead of the callable. When it adds none, the queue is empty when it is popped. -/
theorem asyncs_fails_cancelAll : ∃ s t u : TaskScheduler,
    Run (fun s a t => s.step a = some t) always { now := 0 } [.call .async, .update 1 true] s ∧
    s.step (.runAsync [.cancelAll, .async, .async] true) = some t ∧
    s.step (.runAsync [.cancelAll] true) = some u ∧
    (t.issued = 3 ∧ t.cancelled = [0] ∧ t.started = [0] ∧ t.asyncHolder = [2]) ∧
    ¬t.Served ∧ ¬u.Served := by
  refine ⟨_, _, _, .cons trivial rfl (.cons trivial rfl (.nil _)), rfl, rfl, ?_, ?_, ?_⟩
  · decide
  · intro h
    exact absurd (h.once 1 (by decide) (by decide)) (by decide)
  · intro h
    exact h.defined rfl

end TaskScheduler

end Ashamane.Tasks
