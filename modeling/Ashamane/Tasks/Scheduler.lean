import Ashamane.Lib.Run

/-! The task scheduler of the creature scripts: timed tasks, and callables that the next update
runs before the tasks. -/
namespace Ashamane.Tasks

structure Task where
  handler : Nat
  ends : Int
  duration : Int
  group : Option Nat := none
  repeated : Nat := 0
  deriving DecidableEq, Repr

/-! The tasks, in the order of their ends. -/
namespace TaskQueue

def push (task : Task) : List Task → List Task
  | [] => [task]
  | t :: rest => if task.ends < t.ends then task :: t :: rest else t :: push task rest

def removeIf (filter : Task → Bool) (queue : List Task) : List Task :=
  queue.filter fun t => !filter t

/-- The modified tasks leave the queue and come in again with their new ends. -/
def modifyIf (filter : Task → Bool) (modify : Task → Task) (queue : List Task) : List Task :=
  ((queue.filter filter).map modify).foldl (fun q t => push t q) (queue.filter fun t => !filter t)

end TaskQueue

inductive Op where
  | async
  | schedule (time : Int) (group : Option Nat) (handler : Nat)
  | insertTask (task : Task)
  | cancelAll
  | cancelGroup (group : Nat)
  | cancelGroupsOf (groups : List Nat)
  | delayAll (duration : Int)
  | delayGroup (group : Nat) (duration : Int)
  | rescheduleAll (duration : Int)
  | rescheduleGroup (group : Nat) (duration : Int)
  deriving DecidableEq, Repr

/-- Where `Dispatch` is; after a pop of an empty queue nothing is defined. -/
inductive Phase where
  | idle
  | asyncs
  | tasks
  | undefined
  deriving DecidableEq, Repr

/-- The callables have numbers, in the order of the calls of `Async`. The last four fields are
history: how many there have been, which ones have been run, which ones were queued when
`CancelAll` was called, and how many there were when the first loop of `Dispatch` last ended. -/
structure TaskScheduler where
  now : Int
  taskHolder : List Task := []
  asyncHolder : List Nat := []
  phase : Phase := .idle
  issued : Nat := 0
  started : List Nat := []
  cancelled : List Nat := []
  dispatched : Nat := 0
  deriving DecidableEq, Repr

namespace TaskScheduler

variable (s : TaskScheduler)

def async : TaskScheduler :=
  { s with asyncHolder := s.asyncHolder ++ [s.issued], issued := s.issued + 1 }

def insertTask (task : Task) : TaskScheduler :=
  { s with taskHolder := TaskQueue.push task s.taskHolder }

def scheduleAt (ends time : Int) (group : Option Nat) (handler : Nat) : TaskScheduler :=
  s.insertTask { handler, ends := ends + time, duration := time, group }

def cancelAll : TaskScheduler :=
  { s with taskHolder := [], asyncHolder := [], cancelled := s.asyncHolder ++ s.cancelled }

def cancelGroup (group : Nat) : TaskScheduler :=
  { s with taskHolder := TaskQueue.removeIf (·.group == some group) s.taskHolder }

def cancelGroupsOf (groups : List Nat) : TaskScheduler := groups.foldl cancelGroup s

def modifyIf (filter : Task → Bool) (modify : Task → Task) : TaskScheduler :=
  { s with taskHolder := TaskQueue.modifyIf filter modify s.taskHolder }

def delayAll (duration : Int) : TaskScheduler :=
  s.modifyIf (fun _ => true) fun t => { t with ends := t.ends + duration }

def delayGroup (group : Nat) (duration : Int) : TaskScheduler :=
  s.modifyIf (·.group == some group) fun t => { t with ends := t.ends + duration }

def rescheduleAll (duration : Int) : TaskScheduler :=
  s.modifyIf (fun _ => true) fun t => { t with ends := s.now + duration }

def rescheduleGroup (group : Nat) (duration : Int) : TaskScheduler :=
  s.modifyIf (·.group == some group) fun t => { t with ends := s.now + duration }

def apply : Op → TaskScheduler
  | .async => s.async
  | .schedule time group handler => s.scheduleAt s.now time group handler
  | .insertTask task => s.insertTask task
  | .cancelAll => s.cancelAll
  | .cancelGroup group => s.cancelGroup group
  | .cancelGroupsOf groups => s.cancelGroupsOf groups
  | .delayAll duration => s.delayAll duration
  | .delayGroup group duration => s.delayGroup group duration
  | .rescheduleAll duration => s.rescheduleAll duration
  | .rescheduleGroup group duration => s.rescheduleGroup group duration

def applyAll (ops : List Op) : TaskScheduler := ops.foldl apply s

/-- After the validator has answered: the first loop goes on while there are callables. -/
def loopAsyncs (valid : Bool) : TaskScheduler :=
  if !valid then { s with phase := .idle }
  else if s.asyncHolder.isEmpty then { s with phase := .tasks, dispatched := s.issued }
  else { s with phase := .asyncs }

def popAsync (valid : Bool) : TaskScheduler :=
  match s.asyncHolder with
  | [] => { s with phase := .undefined }
  | _ :: rest => loopAsyncs { s with asyncHolder := rest } valid

/-- One turn of the first loop: the front callable runs where it stands and does `ops`. -/
def runAsync (callable : Nat) (ops : List Op) (valid : Bool) : TaskScheduler :=
  (applyAll { s with started := callable :: s.started } ops).popAsync valid

def runTask (rest : List Task) (ops : List Op) (valid : Bool) : TaskScheduler :=
  let s := applyAll { s with taskHolder := rest } ops
  if valid then s else { s with phase := .idle }

end TaskScheduler

inductive Act where
  | call (op : Op)
  | update (now : Int) (valid : Bool)
  | runAsync (ops : List Op) (valid : Bool)
  | runTask (ops : List Op) (valid : Bool)
  | callback (ops : List Op)
  deriving DecidableEq, Repr

namespace TaskScheduler

def step (s : TaskScheduler) : Act → Option TaskScheduler
  | .call op => if s.phase = .idle then some (s.apply op) else none
  | .update now valid =>
    if s.phase = .idle then some (loopAsyncs { s with now } valid) else none
  | .runAsync ops valid =>
    match s.phase, s.asyncHolder with
    | .asyncs, callable :: _ => some (s.runAsync callable ops valid)
    | _, _ => none
  | .runTask ops valid =>
    match s.phase, s.taskHolder with
    | .tasks, first :: rest => if first.ends ≤ s.now then some (s.runTask rest ops valid) else none
    | _, _ => none
  | .callback ops =>
    if s.phase = .tasks ∧ ∀ first ∈ s.taskHolder.head?, s.now < first.ends then
      some { s.applyAll ops with phase := .idle }
    else none

theorem step_cases {s t : TaskScheduler} {a : Act} (h : s.step a = some t) :
    (∃ op, a = .call op ∧ s.phase = .idle ∧ t = s.apply op) ∨
    (∃ now valid, a = .update now valid ∧ s.phase = .idle ∧ t = loopAsyncs { s with now } valid) ∨
    (∃ ops valid callable rest, a = .runAsync ops valid ∧ s.phase = .asyncs ∧
      s.asyncHolder = callable :: rest ∧ t = s.runAsync callable ops valid) ∨
    (∃ ops valid rest, a = .runTask ops valid ∧ s.phase = .tasks ∧ t = s.runTask rest ops valid) ∨
    ∃ ops, a = .callback ops ∧ s.phase = .tasks ∧ t = { s.applyAll ops with phase := .idle } := by
  cases a with
  | call op =>
    obtain ⟨hphase, ht⟩ := Option.ite_none_right_eq_some.mp h
    exact .inl ⟨op, rfl, hphase, (Option.some.inj ht).symm⟩
  | update now valid =>
    obtain ⟨hphase, ht⟩ := Option.ite_none_right_eq_some.mp h
    exact .inr (.inl ⟨now, valid, rfl, hphase, (Option.some.inj ht).symm⟩)
  | runAsync ops valid =>
    simp only [step] at h
    split at h
    · rename_i callable rest hphase hqueue
      exact .inr (.inr (.inl ⟨ops, valid, callable, rest, rfl, hphase, hqueue,
        (Option.some.inj h).symm⟩))
    · exact nomatch h
  | runTask ops valid =>
    simp only [step] at h
    split at h
    · rename_i first rest hphase htasks
      obtain ⟨-, ht⟩ := Option.ite_none_right_eq_some.mp h
      exact .inr (.inr (.inr (.inl ⟨ops, valid, rest, rfl, hphase, (Option.some.inj ht).symm⟩)))
    · exact nomatch h
  | callback ops =>
    obtain ⟨⟨hphase, -⟩, ht⟩ := Option.ite_none_right_eq_some.mp h
    exact .inr (.inr (.inr (.inr ⟨ops, rfl, hphase, (Option.some.inj ht).symm⟩)))

theorem applyAll_induct {P : TaskScheduler → Prop} {s : TaskScheduler} {ops : List Op} (hs : P s)
    (hop : ∀ s, P s → ∀ op ∈ ops, P (s.apply op)) : P (s.applyAll ops) := by
  unfold applyAll
  induction ops generalizing s with
  | nil => exact hs
  | cons op ops ih =>
    exact ih (hop s hs op (List.mem_cons_self ..)) fun s h o ho =>
      hop s h o (List.mem_cons_of_mem _ ho)

theorem cancelGroupsOf_eq (s : TaskScheduler) (groups : List Nat) :
    s.cancelGroupsOf groups = { s with
      taskHolder := groups.foldl (fun q g => TaskQueue.removeIf (·.group == some g) q)
        s.taskHolder } := by
  unfold cancelGroupsOf
  induction groups generalizing s with
  | nil => rfl
  | cons group groups ih => exact ih (s.cancelGroup group)

theorem apply_holders {s : TaskScheduler} {op : Op} (hasync : op ≠ .async)
    (hcancel : op ≠ .cancelAll) : ∃ holder, s.apply op = { s with taskHolder := holder } := by
  cases op with
  | async => exact absurd rfl hasync
  | cancelAll => exact absurd rfl hcancel
  | cancelGroupsOf groups => exact ⟨_, s.cancelGroupsOf_eq groups⟩
  | _ => exact ⟨_, rfl⟩

/-- The callable in front of the others does not matter to a call that does not cancel it. -/
theorem apply_behind (s : TaskScheduler) (callable : Nat) {op : Op} (hcancel : op ≠ .cancelAll) :
    apply { s with asyncHolder := callable :: s.asyncHolder } op =
      { s.apply op with asyncHolder := callable :: (s.apply op).asyncHolder } := by
  cases op with
  | cancelAll => exact absurd rfl hcancel
  | cancelGroupsOf groups =>
    simp only [apply, cancelGroupsOf_eq]
  | _ => rfl

theorem applyAll_behind (s : TaskScheduler) (callable : Nat) {ops : List Op}
    (hcancel : .cancelAll ∉ ops) :
    applyAll { s with asyncHolder := callable :: s.asyncHolder } ops =
      { s.applyAll ops with asyncHolder := callable :: (s.applyAll ops).asyncHolder } := by
  unfold applyAll
  induction ops generalizing s with
  | nil => rfl
  | cons op ops ih =>
    have hop : op ≠ .cancelAll := fun h => hcancel (h ▸ List.mem_cons_self ..)
    rw [List.foldl_cons, List.foldl_cons, apply_behind s callable hop]
    exact ih (s.apply op) fun h => hcancel (List.mem_cons_of_mem _ h)

/-- A callable that does not cancel everything may as well leave the queue before it runs. -/
theorem runAsync_eq {s : TaskScheduler} {callable : Nat} {rest : List Nat} {ops : List Op}
    (hqueue : s.asyncHolder = callable :: rest) (hcancel : .cancelAll ∉ ops) (valid : Bool) :
    s.runAsync callable ops valid =
      loopAsyncs (applyAll { s with asyncHolder := rest, started := callable :: s.started } ops)
        valid := by
  unfold runAsync popAsync
  have h := applyAll_behind { s with asyncHolder := rest, started := callable :: s.started }
    callable hcancel
  rw [← hqueue] at h
  rw [h]

end TaskScheduler

end Ashamane.Tasks
