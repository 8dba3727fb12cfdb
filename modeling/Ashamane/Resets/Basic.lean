import Ashamane.Lib.Assoc

/-! The global resets of instances: the reset time of each map and difficulty, and the queue of
warnings and resets. -/
namespace Ashamane.Resets
open Ashamane.Lib

abbrev Pair := Nat × Nat

def day : Nat := 86400

def resetTimeDelay : Nat → Int
  | 1 => 3600
  | 2 => 900
  | 3 => 300
  | _ => 60

structure World where
  /-- `GetRaidDuration` of the map difficulties. -/
  mapDifficulties : AList fun _ : Pair => Nat
  /-- The duration times the rate of the configuration, computed with floats. -/
  scaledDuration : Pair → Nat
  resetTimeHour : Nat
  instanceable : Nat → Bool
  /-- Only maps with instances have a raid duration. -/
  instanceable_of_raidDuration : ∀ p duration, mapDifficulties.lookup p = some duration →
    duration ≠ 0 → instanceable p.1 = true
  /-- `GetDownscaledMapDifficultyData`, with the difficulty that it changes. -/
  downscaled : Pair → Option Pair

def World.raidDuration (w : World) (p : Pair) : Nat := (w.mapDifficulties.lookup p).getD 0

def getSubsequentResetTime (w : World) (p : Pair) (resetTime : Nat) : Nat :=
  if w.raidDuration p = 0 then 0
  else
    let period := if w.scaledDuration p < day then day else w.scaledDuration p
    (resetTime + 60) / day * day + period + w.resetTimeHour * 3600

structure InstResetEvent where
  type : Nat
  mapid : Nat
  difficulty : Nat
  instanceId : Nat
deriving DecidableEq

def InstResetEvent.pair (event : InstResetEvent) : Pair := (event.mapid, event.difficulty)

def InstResetEvent.same (event other : InstResetEvent) : Bool :=
  event.instanceId = other.instanceId

def globalEvent (type : Nat) (p : Pair) : InstResetEvent where
  type := type
  mapid := p.1
  difficulty := p.2
  instanceId := 0

/-- `ResetTimeQueue`, in the order of the multimap. -/
abbrev ResetTimeQueue := List (Int × InstResetEvent)

def insertEvent (time : Int) (event : InstResetEvent) (queue : ResetTimeQueue) :
    ResetTimeQueue :=
  queue.takeWhile (·.1 ≤ time) ++ (time, event) :: queue.dropWhile (·.1 ≤ time)

/-- The event is looked for at its time, and where it is not found in the whole queue. -/
def cancelEvent (time : Int) (event : InstResetEvent) (queue : ResetTimeQueue) :
    ResetTimeQueue :=
  if queue.any fun x => x.1 = time && x.2.same event then
    queue.eraseP fun x => x.1 = time && x.2.same event
  else queue.eraseP fun x => x.2.same event

structure SavedInstance where
  instanceId : Nat
  pair : Pair
  resetTime : Nat
  instanceId_ne : instanceId ≠ 0

/-- What `LoadResetTimes` works on after its queries. -/
structure ResetTimes where
  /-- The reset times found or computed there. -/
  times : Pair → Nat
  /-- In the order in which it is walked. -/
  instResetTime : List SavedInstance
  /-- The ids of the instances of a pair whose stored reset time is not 0. -/
  mapDiffResetInstances : Pair → List Nat

structure Manager where
  resetTimeByMapDifficulty : AList fun _ : Pair => Nat
  resetTimeQueue : ResetTimeQueue

namespace Manager

def getResetTimeFor (s : Manager) (p : Pair) : Nat := (s.resetTimeByMapDifficulty.lookup p).getD 0

def scheduleReset (s : Manager) (add : Bool) (time : Int) (event : InstResetEvent) : Manager :=
  { s with resetTimeQueue :=
      if add then insertEvent time event s.resetTimeQueue
      else cancelEvent time event s.resetTimeQueue }

def setResetTimeFor (s : Manager) (p : Pair) (t : Nat) : Manager :=
  { s with resetTimeByMapDifficulty := Assoc.modify p (fun _ => t) s.resetTimeByMapDifficulty }

def resetOrWarnAll (w : World) (s : Manager) (p : Pair) (warn : Bool) (resetTime : Nat) :
    Manager :=
  if !w.instanceable p.1 then s
  else if warn then s
  else
    let nextReset := getSubsequentResetTime w p resetTime
    if nextReset = 0 then s
    else (s.setResetTimeFor p nextReset).scheduleReset true (nextReset - 3600) (globalEvent 1 p)

def forceGlobalReset (w : World) (s : Manager) (p : Pair) (now : Nat) : Manager :=
  match w.downscaled p with
  | none => s
  | some p =>
    let s := s.scheduleReset false 0 (globalEvent 1 p)
    let s := s.scheduleReset false 0 (globalEvent 4 p)
    s.resetOrWarnAll w p false now

def updateRound (w : World) (s : Manager) (now : Nat) : Option Manager :=
  match s.resetTimeQueue with
  | [] => none
  | (t, event) :: rest =>
    if t ≥ now then none
    else if event.type = 0 then some { s with resetTimeQueue := rest }
    else
      let resetTime := s.getResetTimeFor event.pair
      let s := s.resetOrWarnAll w event.pair (event.type != 4) resetTime
      if event.type ≠ 4 then
        -- the event in the queue is changed, and copied
        let next := { event with type := event.type + 1 }
        let s := { s with resetTimeQueue := (t, next) :: rest }
        let s := s.scheduleReset true (resetTime - resetTimeDelay next.type) next
        some { s with resetTimeQueue := s.resetTimeQueue.tail }
      else some { s with resetTimeQueue := s.resetTimeQueue.tail }

def firstType (now t : Nat) : Nat :=
  if (t : Int) - resetTimeDelay 1 > now then 1
  else if (t : Int) - resetTimeDelay 2 > now then 2
  else if (t : Int) - resetTimeDelay 3 > now then 3
  else 4

/-- The manager after `LoadResetTimes`: first the resets of single instances, then for each pair
its event and one more for every instance of the pair that has a stored reset time. -/
def load (w : World) (now : Nat) (data : ResetTimes) : Manager where
  resetTimeByMapDifficulty := Assoc.mapVal (fun p _ => data.times p) w.mapDifficulties
  resetTimeQueue := w.mapDifficulties.keys.foldl (fun queue p =>
    if w.raidDuration p = 0 then queue
    else
      let type := firstType now (data.times p)
      let time := data.times p - resetTimeDelay type
      (data.mapDiffResetInstances p).foldl (fun queue instanceId =>
          insertEvent time ⟨type, p.1, p.2, instanceId⟩ queue)
        (insertEvent time (globalEvent type p) queue))
    (data.instResetTime.foldl (fun queue x =>
      if x.resetTime > now then insertEvent x.resetTime ⟨0, x.pair.1, x.pair.2, x.instanceId⟩ queue
      else queue) [])

end Manager

inductive Op where
  /-- A round of the loop of `Update`. -/
  | update (now : Nat)
  /-- `ScheduleReset` of a single instance, whose id is never 0. -/
  | scheduleReset (add : Bool) (time : Int) (p : Pair) (instanceId : Nat)
      (single : instanceId ≠ 0)
  | forceGlobalReset (p : Pair) (now : Nat)

def Manager.apply (w : World) (s : Manager) : Op → Manager
  | .update now => (s.updateRound w now).getD s
  | .scheduleReset add time p instanceId _ => s.scheduleReset add time ⟨0, p.1, p.2, instanceId⟩
  | .forceGlobalReset p now => s.forceGlobalReset w p now

end Ashamane.Resets
