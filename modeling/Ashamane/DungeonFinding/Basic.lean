import Ashamane.Lib.Assoc
import Ashamane.Lib.Run
import Mathlib.Data.Finset.Basic

/-! What the dungeon finder stores: the states of players and parties, role checks,
proposals, and the queues with what is known about the compatibility of their guids. -/
namespace Ashamane.DungeonFinding

open Ashamane.Lib

inductive Guid where
  | player (low : Nat)
  | party (low : Nat)
  deriving DecidableEq, Repr

def Guid.isParty : Guid → Bool
  | .player _ => false
  | .party _ => true

def maxGroupSize : Nat := 5
def tanksNeeded : Nat := 1
def healersNeeded : Nat := 1
def dpsNeeded : Nat := 3

def roleTank : Nat := 2
def roleHealer : Nat := 4
def roleDamage : Nat := 8

abbrev LfgRolesMap := AList fun _ : Guid => Nat

abbrev LfgDungeonSet := Finset Nat

inductive LfgState where
  | none
  | roleCheck
  | queued
  | proposal
  | dungeon
  | finishedDungeon
  | raidBrowser
  deriving DecidableEq, Repr

inductive LfgRoleCheckState where
  | finished
  | initialiting
  | wrongRoles
  | aborted
  | noRole
  deriving DecidableEq, Repr

inductive LfgAnswer where
  | pending
  | deny
  | agree
  deriving DecidableEq, Repr

inductive LfgUpdateType where
  | proposalFailed
  | proposalDeclined
  deriving DecidableEq, Repr

inductive LfgCompatibility where
  | pending
  | wrongGroupSize
  | tooMuchPlayers
  | multipleLfgGroups
  | hasIgnores
  | noRoles
  | noDungeons
  | withLessPlayers
  | badStates
  | matched
  deriving DecidableEq, Repr

/-- Values under `LFG_COMPATIBLES_WITH_LESS_PLAYERS` are not compatible. -/
def LfgCompatibility.compatible : LfgCompatibility → Bool
  | .withLessPlayers | .badStates | .matched => true
  | _ => false

structure LfgStates where
  state : LfgState
  oldState : LfgState
  deriving DecidableEq, Repr

namespace LfgStates

def setState (d : LfgStates) (state : LfgState) : LfgStates :=
  match state with
  | .none | .finishedDungeon | .dungeon => ⟨state, state⟩
  | _ => { d with state := state }

def restoreState (d : LfgStates) : LfgStates := { d with state := d.oldState }

end LfgStates

structure LfgRoleCheck where
  roles : LfgRolesMap
  state : LfgRoleCheckState
  dungeons : LfgDungeonSet
  leader : Guid

structure LfgProposalPlayer where
  role : Nat
  accept : LfgAnswer
  group : Option Guid
  deriving DecidableEq, Repr

/-- `queues` are the guids to remove from the queue, or to put back into it. -/
structure LfgProposal where
  group : Option Guid
  isNew : Bool
  queues : List Guid
  players : AList fun _ : Guid => LfgProposalPlayer

structure LfgQueueData where
  dungeons : LfgDungeonSet
  roles : LfgRolesMap

/-- One queue. The keys of `CompatibleMapStore` are the sets of guids that the strings list;
what has no entry is pending. -/
structure LFGQueue where
  queueDataStore : AList fun _ : Guid => LfgQueueData
  compatibleMapStore : Finset Guid → LfgCompatibility
  newToQueueStore : List Guid
  currentQueueStore : List Guid

structure State where
  states : AList fun _ : Guid => LfgStates
  roleChecksStore : AList fun _ : Guid => LfgRoleCheck
  proposalsStore : AList fun _ : Nat => LfgProposal
  proposalId : Nat
  queuesStore : Nat → LFGQueue

structure World where
  queueId : Guid → Nat

section CheckGroupRoles

/-- One of the blocks for the roles of an entry. A role among others is dropped and the rest
checked again; otherwise it is counted. `error` returns from `CheckGroupRoles`, `ok` goes on
with the count. -/
def tryRole (check : LfgRolesMap → Option LfgRolesMap) (groles : LfgRolesMap) (guid : Guid)
    (role bit needed count : Nat) : Except (Option LfgRolesMap) Nat :=
  if role &&& bit = 0 then .ok count
  else if role ≠ bit then
    match check (Assoc.modify guid (fun value => value - bit) groles) with
    | some assigned => .error (some assigned)
    | none => .ok count
  else if count = needed then .error none
  else .ok (count + 1)

def roleLoop (check : LfgRolesMap → Option LfgRolesMap) (groles : LfgRolesMap) :
    List (Sigma fun _ : Guid => Nat) → Nat → Nat → Nat → Option LfgRolesMap
  | [], damage, healer, tank =>
    if tank + healer + damage = groles.entries.length % 256 then some groles else none
  | ⟨guid, value⟩ :: rest, damage, healer, tank =>
    if value - value % 2 = 0 then none
    else
      match tryRole check groles guid (value - value % 2) roleDamage dpsNeeded damage with
      | .error result => result
      | .ok damage =>
        match tryRole check groles guid (value - value % 2) roleHealer healersNeeded healer with
        | .error result => result
        | .ok healer =>
          match tryRole check groles guid (value - value % 2) roleTank tanksNeeded tank with
          | .error result => result
          | .ok tank => roleLoop check groles rest damage healer tank

def checkGroupRolesFuel : Nat → LfgRolesMap → Option LfgRolesMap
  | 0, _ => none
  | fuel + 1, groles =>
    if groles.entries = [] then none
    else roleLoop (checkGroupRolesFuel fuel) groles groles.entries 0 0 0

/-- `LFGMgr::CheckGroupRoles`, with the roles as it leaves them when it succeeds. Each nested
call has one role less of three for each entry. -/
def checkGroupRoles (groles : LfgRolesMap) : Option LfgRolesMap :=
  checkGroupRolesFuel (3 * groles.entries.length + 1) groles

end CheckGroupRoles

namespace LFGQueue

def empty : LFGQueue := ⟨∅, fun _ => .pending, [], []⟩

def setCompatibles (queue : LFGQueue) (check : List Guid) (compatibles : LfgCompatibility) :
    LFGQueue :=
  { queue with compatibleMapStore := Function.update queue.compatibleMapStore check.toFinset compatibles }

def getCompatibles (queue : LFGQueue) (check : List Guid) : LfgCompatibility :=
  queue.compatibleMapStore check.toFinset

def removeFromNewQueue (queue : LFGQueue) (guid : Guid) : LFGQueue :=
  { queue with newToQueueStore := queue.newToQueueStore.filter (· != guid) }

def removeFromCurrentQueue (queue : LFGQueue) (guid : Guid) : LFGQueue :=
  { queue with currentQueueStore := queue.currentQueueStore.filter (· != guid) }

def removeFromCompatibles (queue : LFGQueue) (guid : Guid) : LFGQueue :=
  let kept (key : Finset Guid) : LfgCompatibility :=
    if guid ∈ key then .pending else queue.compatibleMapStore key
  { queue with compatibleMapStore := kept }

def addToCurrentQueue (queue : LFGQueue) (guid : Guid) : LFGQueue :=
  { queue with currentQueueStore := queue.currentQueueStore ++ [guid] }

def addToQueue (queue : LFGQueue) (guid : Guid) (reAdd : Bool) : LFGQueue :=
  match queue.queueDataStore.lookup guid with
  | none => queue
  | some _ =>
    if reAdd then { queue with currentQueueStore := guid :: queue.currentQueueStore }
    else { queue with newToQueueStore := queue.newToQueueStore ++ [guid] }

def removeFromQueue (queue : LFGQueue) (guid : Guid) : LFGQueue :=
  let removed := ((queue.removeFromNewQueue guid).removeFromCurrentQueue guid).removeFromCompatibles guid
  { removed with queueDataStore := removed.queueDataStore.erase guid }

def addQueueData (queue : LFGQueue) (guid : Guid) (dungeons : LfgDungeonSet) (roles : LfgRolesMap) :
    LFGQueue :=
  { queue with queueDataStore := queue.queueDataStore.insert guid ⟨dungeons, roles⟩ }.addToQueue guid
    false

end LFGQueue

namespace State

def statesOf (s : State) (guid : Guid) : LfgStates := (s.states.lookup guid).getD ⟨.none, .none⟩

def getState (s : State) (guid : Guid) : LfgState := (s.statesOf guid).state

def getOldState (s : State) (guid : Guid) : LfgState := (s.statesOf guid).oldState

def setState (s : State) (state : LfgState) (guid : Guid) : State :=
  { s with states := s.states.insert guid ((s.statesOf guid).setState state) }

def restoreState (s : State) (guid : Guid) : State :=
  { s with states := s.states.insert guid (s.statesOf guid).restoreState }

def isLfgGroup (s : State) (guid : Guid) : Bool := guid.isParty && s.getOldState guid != .none

def allQueued (s : State) (check : List Guid) : Bool :=
  !check.isEmpty && check.all fun guid => s.getState guid == .queued

def modifyQueue (s : State) (q : Nat) (f : LFGQueue → LFGQueue) : State :=
  { s with queuesStore := Function.update s.queuesStore q (f (s.queuesStore q)) }

def queueData (s : State) (q : Nat) (guid : Guid) : Option LfgQueueData :=
  (s.queuesStore q).queueDataStore.lookup guid

end State

end Ashamane.DungeonFinding
