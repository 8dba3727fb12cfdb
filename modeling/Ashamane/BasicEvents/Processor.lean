import Ashamane.Lib.Run
import Mathlib.Logic.Function.Basic

/-! The event processor of units, game objects and battleground queues. An event is the object
that a pointer points to; what it does when executed comes from outside. -/
namespace Ashamane.BasicEvents

inductive AbortState where
  | running
  | abortScheduled
  | aborted
  deriving DecidableEq, Repr

inductive Entry where
  | added (event : Nat)
  | scheduled (event : Nat)
  | executed (event due time : Nat)
  | abort (event : Nat)
  | deleted (event : Nat)
  deriving DecidableEq, Repr

/-- `updating` holds between the begin and the end of `Update`; the log begins with the latest. -/
structure EventProcessor where
  time : Nat := 0
  events : List (Nat × Nat) := []
  abortState : Nat → AbortState := fun _ => .running
  updating : Bool := false
  log : List Entry := []

inductive Op where
  | addEvent (event time : Nat)
  | scheduleAbort (event : Nat)
  | killAllEvents (force : Bool) (deletable : Nat → Bool)

def Op.adds (event : Nat) : Op → Bool
  | .addEvent other _ => other == event
  | _ => false

def insertAt (time event : Nat) : List (Nat × Nat) → List (Nat × Nat)
  | [] => [(time, event)]
  | e :: rest => if time < e.1 then (time, event) :: e :: rest else e :: insertAt time event rest

namespace EventProcessor

variable (s : EventProcessor)

def calculateTime (offset : Nat) : Nat := s.time + offset

def addEvent (event time : Nat) : EventProcessor :=
  { s with events := insertAt time event s.events, log := .added event :: s.log }

/-- `ASSERT(IsRunning())` -/
def scheduleAbort (event : Nat) : Option EventProcessor :=
  if s.abortState event = .running then
    some { s with
      abortState := Function.update s.abortState event .abortScheduled
      log := .scheduled event :: s.log }
  else none

/-- `Abort` and `SetAborted`, which the callers write in either order. -/
def abort (event : Nat) : EventProcessor :=
  { s with
    abortState := Function.update s.abortState event .aborted
    log := .abort event :: s.log }

def delete (event : Nat) : EventProcessor := { s with log := .deleted event :: s.log }

/-- The body of the loop of `KillAllEvents`: an event that is not deletable is kept, unless all go. -/
def killEvent (force : Bool) (deletable : Nat → Bool) (s : EventProcessor) (e : Nat × Nat) :
    EventProcessor :=
  let s := if s.abortState e.2 = .aborted then s else s.abort e.2
  if !force && !deletable e.2 then { s with events := s.events ++ [e] } else s.delete e.2

def killAllEvents (force : Bool) (deletable : Nat → Bool) : EventProcessor :=
  s.events.foldl (killEvent force deletable) { s with events := [] }

def apply : Op → Option EventProcessor
  | .addEvent event time => some (s.addEvent event time)
  | .scheduleAbort event => s.scheduleAbort event
  | .killAllEvents force deletable => some (s.killAllEvents force deletable)

/-- One turn of the loop of `Update`: an event that runs does `ops` and returns `result`. -/
def turn (due event : Nat) (ops : List Op) (result deletable : Bool) : Option EventProcessor :=
  match s.abortState event with
  | .running =>
    (ops.foldlM apply { s with log := .executed event due s.time :: s.log }).map fun s =>
      if result then s.delete event else s
  | state =>
    let s := if state = .abortScheduled then s.abort event else s
    some (if deletable then s.delete event else s.addEvent event (s.calculateTime 1))

end EventProcessor

inductive Act where
  | call (op : Op)
  | update (diff : Nat)
  | turn (ops : List Op) (result deletable : Bool)
  | leave

namespace EventProcessor

/-- Calls come from outside between two updates. The loop leaves when nothing is due. -/
def step (s : EventProcessor) : Act → Option EventProcessor
  | .call op => if s.updating then none else s.apply op
  | .update diff =>
    if s.updating then none else some { s with time := s.time + diff, updating := true }
  | .turn ops result deletable =>
    match s.events with
    | [] => none
    | (due, event) :: rest =>
      if s.updating ∧ due ≤ s.time then
        turn { s with events := rest } due event ops result deletable
      else none
  | .leave =>
    if s.updating ∧ ∀ e ∈ s.events.head?, s.time < e.1 then some { s with updating := false }
    else none

def Free (s : EventProcessor) (event : Nat) : Prop :=
  event ∉ s.events.map Prod.snd ∧ .deleted event ∉ s.log

/-- How the processor is used: no event is added twice or earlier than `low`, and none is marked
after it has been deleted. -/
def Fits (low : Nat) (s : EventProcessor) : Op → Prop
  | .addEvent event time => s.Free event ∧ low ≤ time
  | .scheduleAbort event => .deleted event ∉ s.log
  | .killAllEvents _ _ => True

def AllFit (low : Nat) (s : EventProcessor) : List Op → Prop
  | [] => True
  | op :: ops => s.Fits low op ∧ ∀ t, s.apply op = some t → t.AllFit low ops

def Allowed (s : EventProcessor) : Act → Prop
  | .call op => s.Fits s.time op
  | .turn ops result _ =>
    ∀ due event rest, s.events = (due, event) :: rest → s.abortState event = .running →
      AllFit (due + 1)
        { s with events := rest, log := .executed event due s.time :: s.log } ops ∧
      result = !ops.any (Op.adds event)
  | _ => True

end EventProcessor

end Ashamane.BasicEvents
