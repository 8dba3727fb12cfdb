import Ashamane.Tasks.Asyncs
import Mathlib.Data.List.Perm.Basic

/-! The queue of the tasks keeps its order and its tasks, and `Dispatch` goes through it in the
order of the ends. -/
namespace Ashamane.Tasks

open Lib

namespace TaskQueue

def Ordered (queue : List Task) : Prop := queue.Pairwise (·.ends ≤ ·.ends)

instance (queue : List Task) : Decidable (Ordered queue) :=
  inferInstanceAs (Decidable (queue.Pairwise _))

variable {queue : List Task} {task : Task} {filter : Task → Bool} {modify : Task → Task}

theorem push_perm (task : Task) (queue : List Task) : (push task queue).Perm (task :: queue) := by
  induction queue with
  | nil => exact .refl _
  | cons t queue ih =>
    rw [push]
    split
    · exact .refl _
    · exact (ih.cons t).trans (.swap task t queue)

theorem Ordered.push (h : Ordered queue) (task : Task) : Ordered (push task queue) := by
  induction queue with
  | nil => exact List.pairwise_singleton _ _
  | cons t queue ih =>
    obtain ⟨hfirst, hrest⟩ := List.pairwise_cons.mp h
    rw [TaskQueue.push]
    split
    · rename_i hlt
      refine List.pairwise_cons.mpr ⟨fun u hu => ?_, h⟩
      rcases List.mem_cons.mp hu with rfl | hu
      · exact Int.le_of_lt hlt
      · exact Int.le_trans (Int.le_of_lt hlt) (hfirst u hu)
    · rename_i hge
      refine List.pairwise_cons.mpr ⟨fun u hu => ?_, ih hrest⟩
      rcases List.mem_cons.mp ((push_perm task queue).mem_iff.mp hu) with rfl | hu
      · exact Int.not_lt.mp hge
      · exact hfirst u hu

theorem foldl_push_perm (cache queue : List Task) :
    (cache.foldl (fun q t => push t q) queue).Perm (cache ++ queue) := by
  induction cache generalizing queue with
  | nil => exact .refl _
  | cons t cache ih =>
    refine (ih (push t queue)).trans ?_
    exact ((push_perm t queue).append_left cache).trans List.perm_middle

theorem Ordered.foldl_push (h : Ordered queue) (cache : List Task) :
    Ordered (cache.foldl (fun q t => TaskQueue.push t q) queue) := by
  induction cache generalizing queue with
  | nil => exact h
  | cons t cache ih => exact ih (h.push t)

theorem Ordered.modifyIf (h : Ordered queue) (filter : Task → Bool) (modify : Task → Task) :
    Ordered (modifyIf filter modify queue) :=
  Ordered.foldl_push (List.Pairwise.filter _ h) _

theorem modifyIf_perm (filter : Task → Bool) (modify : Task → Task) (queue : List Task) :
    (modifyIf filter modify queue).Perm
      (queue.map fun t => if filter t then modify t else t) := by
  refine (foldl_push_perm _ _).trans ?_
  induction queue with
  | nil => exact .refl _
  | cons t queue ih =>
    cases h : filter t with
    | true => simpa [h] using ih
    | false =>
      have hskip : ((t :: queue).filter filter).map modify ++ (t :: queue).filter (fun u => !filter u) =
          (queue.filter filter).map modify ++ t :: queue.filter (fun u => !filter u) := by simp [h]
      rw [hskip, List.map_cons, if_neg (by simp [h])]
      exact List.perm_middle.trans (ih.cons t)

theorem Ordered.removeIf (h : Ordered queue) (filter : Task → Bool) :
    Ordered (removeIf filter queue) := List.Pairwise.filter _ h

end TaskQueue

namespace TaskScheduler

open TaskQueue

variable {s t : TaskScheduler}

structure Moves (s t : TaskScheduler) (filter : Task → Bool) (ends : Task → Int) : Prop where
  tasks : t.taskHolder.Perm
    (s.taskHolder.map fun task => if filter task then { task with ends := ends task } else task)
  ordered : Ordered t.taskHolder
  frame : { t with taskHolder := s.taskHolder } = s

theorem moves_modifyIf (h : Ordered s.taskHolder) (filter : Task → Bool) (ends : Task → Int) :
    Moves s (s.modifyIf filter fun task => { task with ends := ends task }) filter ends :=
  ⟨modifyIf_perm _ _ _, h.modifyIf _ _, rfl⟩

theorem ordered_apply (h : Ordered s.taskHolder) (op : Op) : Ordered (s.apply op).taskHolder := by
  cases op with
  | async => exact h
  | schedule time group handler => exact h.push _
  | insertTask task => exact h.push task
  | cancelAll => exact List.Pairwise.nil
  | cancelGroup group => exact h.removeIf _
  | cancelGroupsOf groups =>
    rw [apply, cancelGroupsOf_eq]
    dsimp only
    induction groups generalizing s with
    | nil => exact h
    | cons group groups ih => exact ih (s := s.cancelGroup group) (h.removeIf _)
  | delayAll duration => exact h.modifyIf _ _
  | delayGroup group duration => exact h.modifyIf _ _
  | rescheduleAll duration => exact h.modifyIf _ _
  | rescheduleGroup group duration => exact h.modifyIf _ _

theorem ordered_applyAll (h : Ordered s.taskHolder) (ops : List Op) :
    Ordered (s.applyAll ops).taskHolder :=
  applyAll_induct (P := fun s => Ordered s.taskHolder) h fun _ hs op _ => ordered_apply hs op

theorem runTask_step {ops : List Op} {valid : Bool} (h : s.step (.runTask ops valid) = some t) :
    ∃ first rest, s.phase = .tasks ∧ s.taskHolder = first :: rest ∧ first.ends ≤ s.now ∧
      t = s.runTask rest ops valid := by
  simp only [step] at h
  split at h
  · rename_i first rest hphase htasks
    obtain ⟨hdue, ht⟩ := Option.ite_none_right_eq_some.mp h
    exact ⟨first, rest, hphase, htasks, hdue, (Option.some.inj ht).symm⟩
  · cases h

theorem loopAsyncs_tasks (valid : Bool) :
    (s.loopAsyncs valid).taskHolder = s.taskHolder ∧ (s.loopAsyncs valid).now = s.now := by
  unfold loopAsyncs
  split
  · exact ⟨rfl, rfl⟩
  split <;> exact ⟨rfl, rfl⟩

theorem popAsync_tasks (valid : Bool) :
    (s.popAsync valid).taskHolder = s.taskHolder ∧ (s.popAsync valid).now = s.now := by
  unfold popAsync
  split
  · exact ⟨rfl, rfl⟩
  · exact loopAsyncs_tasks valid

theorem runTask_tasks (rest : List Task) (ops : List Op) (valid : Bool) :
    (s.runTask rest ops valid).taskHolder = (applyAll { s with taskHolder := rest } ops).taskHolder ∧
      (s.runTask rest ops valid).now = (applyAll { s with taskHolder := rest } ops).now := by
  unfold runTask
  dsimp only
  split <;> exact ⟨rfl, rfl⟩

theorem ordered_step {a : Act} (h : Ordered s.taskHolder) (hstep : s.step a = some t) :
    Ordered t.taskHolder := by
  cases a with
  | runTask ops valid =>
    obtain ⟨first, rest, -, htasks, -, rfl⟩ := runTask_step hstep
    rw [(runTask_tasks rest ops valid).1]
    rw [htasks] at h
    exact ordered_applyAll (s := { s with taskHolder := rest }) (List.pairwise_cons.mp h).2 ops
  | _ =>
    rcases step_cases hstep with ⟨op, -, -, rfl⟩ | ⟨now, valid, -, -, rfl⟩ |
      ⟨ops, valid, callable, rest, -, -, hqueue, rfl⟩ | ⟨ops, valid, rest, ha, -⟩ |
      ⟨ops, -, -, rfl⟩
    · exact ordered_apply h op
    · rw [(loopAsyncs_tasks valid).1]
      exact h
    · rw [runAsync, (popAsync_tasks valid).1]
      exact ordered_applyAll (s := { s with started := callable :: s.started }) h ops
    · exact nomatch ha
    · exact ordered_applyAll h ops

def invokedIn (s : TaskScheduler) : List Act → List Task
  | [] => []
  | a :: as =>
    match s.step a with
    | none => []
    | some t =>
      match a with
      | .runTask _ _ => s.taskHolder.take 1 ++ t.invokedIn as
      | _ => t.invokedIn as

end TaskScheduler

def Act.isUpdate : Act → Bool
  | .update _ _ => true
  | _ => false

def Op.Forward (ends : Int) : Op → Prop
  | .schedule time _ _ => 0 ≤ time
  | .insertTask task => ends ≤ task.ends
  | .delayAll duration | .delayGroup _ duration => 0 ≤ duration
  | .rescheduleAll duration | .rescheduleGroup _ duration => 0 ≤ duration
  | .async | .cancelAll | .cancelGroup _ | .cancelGroupsOf _ => True

namespace TaskScheduler

open TaskQueue

variable {s t : TaskScheduler}

def Forward (s : TaskScheduler) : Act → Prop
  | .runTask ops _ => ∀ first ∈ s.taskHolder.head?, ∀ op ∈ ops, op.Forward first.ends
  | _ => True

theorem apply_now (op : Op) : (s.apply op).now = s.now := by
  cases op with
  | cancelGroupsOf groups => rw [apply, cancelGroupsOf_eq]
  | _ => rfl

theorem applyAll_now (ops : List Op) : (s.applyAll ops).now = s.now :=
  applyAll_induct (P := fun u => u.now = s.now) rfl fun _ hu op _ => (apply_now op).trans hu

theorem forward_modifyIf {ends : Int} (h : ∀ task ∈ s.taskHolder, ends ≤ task.ends)
    {filter : Task → Bool} {f : Task → Int} (hf : ∀ task ∈ s.taskHolder, ends ≤ f task) :
    ∀ task ∈ (s.modifyIf filter fun task => { task with ends := f task }).taskHolder,
      ends ≤ task.ends := by
  intro task htask
  obtain ⟨old, hold, rfl⟩ := List.mem_map.mp
    ((modifyIf_perm filter _ s.taskHolder).mem_iff.mp htask)
  split
  · exact hf old hold
  · exact h old hold

theorem forward_apply {ends : Int} {op : Op} (hnow : ends ≤ s.now)
    (h : ∀ task ∈ s.taskHolder, ends ≤ task.ends) (hop : op.Forward ends) :
    ∀ task ∈ (s.apply op).taskHolder, ends ≤ task.ends := by
  cases op with
  | async => exact h
  | schedule time group handler =>
    intro task htask
    rcases List.mem_cons.mp ((push_perm _ _).mem_iff.mp htask) with rfl | hold
    · exact Int.le_trans hnow (Int.le_add_of_nonneg_right hop)
    · exact h task hold
  | insertTask new =>
    intro task htask
    rcases List.mem_cons.mp ((push_perm _ _).mem_iff.mp htask) with rfl | hold
    · exact hop
    · exact h task hold
  | cancelAll => exact nofun
  | cancelGroup group => exact fun task htask => h task (List.mem_filter.mp htask).1
  | cancelGroupsOf groups =>
    rw [apply, cancelGroupsOf_eq]
    dsimp only
    induction groups generalizing s with
    | nil => exact h
    | cons group groups ih =>
      exact ih (s := s.cancelGroup group) hnow
        (fun task htask => h task (List.mem_filter.mp htask).1) trivial
  | delayAll duration =>
    exact forward_modifyIf h fun task htask =>
      Int.le_trans (h task htask) (Int.le_add_of_nonneg_right hop)
  | delayGroup group duration =>
    exact forward_modifyIf h fun task htask =>
      Int.le_trans (h task htask) (Int.le_add_of_nonneg_right hop)
  | rescheduleAll duration =>
    exact forward_modifyIf h fun _ _ => Int.le_trans hnow (Int.le_add_of_nonneg_right hop)
  | rescheduleGroup group duration =>
    exact forward_modifyIf h fun _ _ => Int.le_trans hnow (Int.le_add_of_nonneg_right hop)

theorem forward_applyAll {ends : Int} {ops : List Op} (hnow : ends ≤ s.now)
    (h : ∀ task ∈ s.taskHolder, ends ≤ task.ends) (hops : ∀ op ∈ ops, op.Forward ends) :
    ∀ task ∈ (s.applyAll ops).taskHolder, ends ≤ task.ends := by
  refine (applyAll_induct (P := fun u => u.now = s.now ∧ ∀ task ∈ u.taskHolder, ends ≤ task.ends)
    ⟨rfl, h⟩ fun u hu op hop => ⟨(apply_now op).trans hu.1, ?_⟩).2
  exact forward_apply (hu.1 ▸ hnow) hu.2 (hops op hop)

theorem step_now {a : Act} (ha : a.isUpdate = false) (hstep : s.step a = some t) : t.now = s.now := by
  cases a with
  | runTask ops valid =>
    obtain ⟨first, rest, -, -, -, rfl⟩ := runTask_step hstep
    rw [(runTask_tasks rest ops valid).2]
    exact applyAll_now ops
  | _ =>
    rcases step_cases hstep with ⟨op, -, -, rfl⟩ | ⟨now, valid, hupdate, -⟩ |
      ⟨ops, valid, callable, rest, -, -, -, rfl⟩ | ⟨ops, valid, rest, hrun, -⟩ | ⟨ops, -, -, rfl⟩
    · exact apply_now op
    · rw [hupdate] at ha
      cases ha
    · rw [runAsync, (popAsync_tasks valid).2]
      exact applyAll_now ops
    · exact nomatch hrun
    · exact applyAll_now ops

theorem invokedIn_due {as : List Act} (has : ∀ a ∈ as, a.isUpdate = false) :
    ∀ task ∈ s.invokedIn as, task.ends ≤ s.now := by
  induction as generalizing s with
  | nil => exact nofun
  | cons a as ih =>
    intro task htask
    rw [invokedIn] at htask
    cases hstep : s.step a with
    | none =>
      rw [hstep] at htask
      cases htask
    | some t =>
      rw [hstep] at htask
      have hnow := step_now (has a List.mem_cons_self) hstep
      have hrest := ih (s := t) fun b hb => has b (List.mem_cons_of_mem a hb)
      rw [hnow] at hrest
      cases a with
      | runTask ops valid =>
        obtain ⟨first, rest, -, htasks, hdue, -⟩ := runTask_step hstep
        rcases List.mem_append.mp htask with hfirst | hlater
        · rw [htasks] at hfirst
          rw [List.mem_singleton.mp hfirst]
          exact hdue
        · exact hrest task hlater
      | _ => exact hrest task htask

/-- What is invoked once no callable waits comes in the order of the ends, not before what is queued. -/
theorem invokedIn_ordered {as : List Act} (has : ∀ a ∈ as, a.isUpdate = false)
    (hs : Ordered s.taskHolder) (hrun : Run (fun s a t => s.step a = some t) Forward s as t) :
    Ordered (s.invokedIn as) ∧ (s.phase ≠ .asyncs → ∀ ends : Int,
      (s.phase = .tasks → ∀ task ∈ s.taskHolder, ends ≤ task.ends) →
        ∀ task ∈ s.invokedIn as, ends ≤ task.ends) := by
  induction hrun with
  | nil s => exact ⟨List.Pairwise.nil, fun _ _ _ => nofun⟩
  | @cons s u t a as hforward hstep hrest ih =>
    obtain ⟨hlater, hbound⟩ := ih (fun b hb => has b (List.mem_cons_of_mem a hb))
      (ordered_step hs hstep)
    cases a with
    | runTask ops valid =>
      obtain ⟨first, rest, hphase, htasks, hdue, rfl⟩ := runTask_step hstep
      have hinvoked : s.invokedIn (.runTask ops valid :: as) =
          first :: (s.runTask rest ops valid).invokedIn as := by
        rw [invokedIn, hstep, htasks]
        rfl
      rw [htasks] at hs
      obtain ⟨hfirst, -⟩ := List.pairwise_cons.mp hs
      have hqueue : ∀ task ∈ (s.runTask rest ops valid).taskHolder, first.ends ≤ task.ends := by
        rw [(runTask_tasks rest ops valid).1]
        exact forward_applyAll (s := { s with taskHolder := rest }) hdue hfirst
          (hforward first (by rw [htasks]; rfl))
      have hphase' : (s.runTask rest ops valid).phase ≠ .asyncs := by
        unfold runTask
        dsimp only
        split
        · rw [applyAll_phase, hphase]
          exact nofun
        · exact nofun
      have hafter := hbound hphase' first.ends fun _ => hqueue
      rw [hinvoked]
      refine ⟨List.pairwise_cons.mpr ⟨hafter, hlater⟩, fun _ ends hends task htask => ?_⟩
      have hle : ends ≤ first.ends := hends hphase first (htasks ▸ List.mem_cons_self)
      rcases List.mem_cons.mp htask with rfl | htask
      · exact hle
      · exact Int.le_trans hle (hafter task htask)
    | _ =>
      refine ⟨by rw [invokedIn, hstep]; exact hlater, fun hphase ends hends task htask => ?_⟩
      have hidle : u.phase = .idle := by
        rcases step_cases hstep with ⟨op, -, hidle, rfl⟩ | ⟨now, valid, hupdate, -⟩ |
          ⟨ops, valid, callable, rest, -, hasyncs, -⟩ | ⟨ops, valid, rest, hrun, -⟩ |
          ⟨ops, -, -, rfl⟩
        · exact (applyAll_phase [op]).trans hidle
        · exact absurd (has _ List.mem_cons_self) (by rw [hupdate]; exact nofun)
        · exact absurd hasyncs hphase
        · exact nomatch hrun
        · rfl
      rw [invokedIn, hstep] at htask
      exact hbound (by rw [hidle]; exact nofun) ends (fun h => nomatch hidle.symm.trans h) task htask

/-- The tasks in every run: the queue is ordered, the operations that move tasks lose none and double
none, and between two updates the tasks that are due are invoked in the order of their ends, unless
a handler asks for something that comes before its own end. -/
theorem tasks_run {now : Int} {as : List Act}
    (hrun : Run (fun s a t => s.step a = some t) always { now } as s) :
    Ordered s.taskHolder ∧
    (∀ filter ends,
      Moves s (s.modifyIf filter fun task => { task with ends := ends task }) filter ends) ∧
    (∀ duration, Moves s (s.delayAll duration) (fun _ => true) (·.ends + duration) ∧
      Moves s (s.rescheduleAll duration) (fun _ => true) fun _ => s.now + duration) ∧
    (∀ group duration,
      Moves s (s.delayGroup group duration) (·.group == some group) (·.ends + duration) ∧
      Moves s (s.rescheduleGroup group duration) (·.group == some group) fun _ => s.now + duration) ∧
    ∀ bs t, (∀ b ∈ bs, b.isUpdate = false) → Run (fun s a t => s.step a = some t) always s bs t →
      (∀ task ∈ s.invokedIn bs, task.ends ≤ s.now) ∧
      (Run (fun s a t => s.step a = some t) Forward s bs t → Ordered (s.invokedIn bs)) := by
  have hstart : Ordered ({ now } : TaskScheduler).taskHolder := List.Pairwise.nil
  have hs : Ordered s.taskHolder := hrun.invariant (fun u => Ordered u.taskHolder)
    hstart fun _ _ _ hu _ hstep => ordered_step hu hstep
  exact ⟨hs, fun filter ends => moves_modifyIf hs filter ends,
    fun duration => ⟨moves_modifyIf hs _ _, moves_modifyIf hs _ _⟩,
    fun group duration => ⟨moves_modifyIf hs _ _, moves_modifyIf hs _ _⟩,
    fun bs t hbs _ => ⟨invokedIn_due hbs, fun hforward => (invokedIn_ordered hbs hs hforward).1⟩⟩

/-- Two tasks, the later one delayed. -/
theorem tasks_run_two : ∃ s : TaskScheduler, s.taskHolder.map Task.ends = [1, 5] ∧
    Ordered s.taskHolder ∧
    (∀ filter ends,
      Moves s (s.modifyIf filter fun task => { task with ends := ends task }) filter ends) ∧
    (∀ duration, Moves s (s.delayAll duration) (fun _ => true) (·.ends + duration) ∧
      Moves s (s.rescheduleAll duration) (fun _ => true) fun _ => s.now + duration) ∧
    (∀ group duration,
      Moves s (s.delayGroup group duration) (·.group == some group) (·.ends + duration) ∧
      Moves s (s.rescheduleGroup group duration) (·.group == some group) fun _ => s.now + duration) ∧
    ∀ bs t, (∀ b ∈ bs, b.isUpdate = false) → Run (fun s a t => s.step a = some t) always s bs t →
      (∀ task ∈ s.invokedIn bs, task.ends ≤ s.now) ∧
      (Run (fun s a t => s.step a = some t) Forward s bs t → Ordered (s.invokedIn bs)) := by
  refine ⟨_, ?_, @tasks_run _ 0 [.call (.schedule 3 (some 1) 0),
    .call (.schedule 1 none 1), .call (.delayGroup 1 2)]
    (.cons trivial rfl (.cons trivial rfl (.cons trivial rfl (.nil _))))⟩
  decide

/-- A handler that takes a duration off the ends of the others. -/
theorem tasks_fail_negativeDelay : ∃ s t : TaskScheduler,
    Run (fun s a t => s.step a = some t) always { now := 0 }
      [.call (.schedule 1 none 0), .call (.schedule 3 none 1), .update 5 true] s ∧
    Run (fun s a t => s.step a = some t) always s
      [.runTask [.delayAll (-10)] true, .runTask [] true] t ∧
    ¬Ordered (s.invokedIn [.runTask [.delayAll (-10)] true, .runTask [] true]) :=
  ⟨_, _, .cons trivial rfl (.cons trivial rfl (.cons trivial rfl (.nil _))),
    .cons trivial rfl (.cons trivial rfl (.nil _)), by decide⟩

end TaskScheduler

end Ashamane.Tasks
