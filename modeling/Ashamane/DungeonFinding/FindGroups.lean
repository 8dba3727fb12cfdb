import Ashamane.DungeonFinding.Basic

/-! The search of a queue for complete groups. -/
namespace Ashamane.DungeonFinding

open Ashamane.Lib

structure LfgView where
  testing : Bool
  hasIgnore : Guid → Guid → Bool

section CheckCompatibility

def mergeRoles (view : LfgView) : LfgRolesMap → List (Sigma fun _ : Guid => Nat) → LfgRolesMap
  | proposalRoles, [] => proposalRoles
  | proposalRoles, ⟨guid, role⟩ :: rest =>
    if proposalRoles.entries.any fun e => guid != e.1 && view.hasIgnore guid e.1 then
      mergeRoles view proposalRoles rest
    else mergeRoles view (proposalRoles.insert guid role) rest

-- what the loops of `CheckCompatibility` read: the queue data of the guids of `check`
variable (data : Guid → Option LfgQueueData)

/-- How many players (a `uint8`) and LFG groups there are, or the first guid that is listed without
queue data. -/
def countPlayers (isLfgGroup : Guid → Bool) : List Guid → Nat → Nat → Except Guid (Nat × Nat)
  | [], numPlayers, numLfgGroups => .ok (numPlayers, numLfgGroups)
  | guid :: rest, numPlayers, numLfgGroups =>
    if numLfgGroups < 2 ∧ numPlayers ≤ maxGroupSize then
      match data guid with
      | none => .error guid
      | some found =>
        countPlayers isLfgGroup rest ((numPlayers + found.roles.entries.length) % 2 ^ 8)
          (if isLfgGroup guid then numLfgGroups + 1 else numLfgGroups)
    else .ok (numPlayers, numLfgGroups)

variable {data} in
theorem countPlayers_error {isLfgGroup : Guid → Bool} {g : Guid} {check : List Guid}
    {numPlayers numLfgGroups : Nat}
    (h : countPlayers data isLfgGroup check numPlayers numLfgGroups = .error g) : data g = none := by
  induction check generalizing numPlayers numLfgGroups with
  | nil => cases h
  | cons g' rest ih =>
    simp only [countPlayers] at h
    split at h
    · split at h
      next hnone =>
        cases h
        exact hnone
      · exact ih h
    · cases h

def mergeAll (view : LfgView) : LfgRolesMap → List Guid → LfgRolesMap
  | proposalRoles, [] => proposalRoles
  | proposalRoles, guid :: rest =>
    mergeAll view (mergeRoles view proposalRoles ((data guid).elim ∅ (·.roles)).entries) rest

def proposalDungeons : List Guid → LfgDungeonSet
  | [] => ∅
  | guid :: rest =>
    rest.foldl (fun dungeons guid => dungeons ∩ (data guid).elim ∅ (·.dungeons))
      ((data guid).elim ∅ (·.dungeons))

def proposalRoles (view : LfgView) (check : List Guid) : Option LfgRolesMap :=
  match check with
  | [guid] =>
    let roles := (data guid).elim ∅ (·.roles)
    some ((checkGroupRoles roles).getD roles)
  | _ => checkGroupRoles (mergeAll data view ∅ check)

/-- What `CheckCompatibility` finds out about guids whose queue data are there. -/
def compatibilityOf (view : LfgView) (allQueued : List Guid → Bool) (check : List Guid)
    (numPlayers numLfgGroups : Nat) : LfgCompatibility :=
  if !view.testing ∧ check.length = 1 ∧ numPlayers ≠ maxGroupSize then .withLessPlayers
  else if 1 < numLfgGroups then .multipleLfgGroups
  else if maxGroupSize < numPlayers then .tooMuchPlayers
  else if 1 < check.length ∧ numPlayers ≠ (mergeAll data view ∅ check).entries.length % 2 ^ 8 then
    .hasIgnores
  else if (proposalRoles data view check).isNone then .noRoles
  else if 1 < check.length ∧ proposalDungeons data check = ∅ then .noDungeons
  else if !view.testing ∧ numPlayers ≠ maxGroupSize then .withLessPlayers
  else if !allQueued check then .badStates
  else .matched

def proposalGroup (check : List Guid) (guid : Guid) : Option Guid :=
  (check.reverse.find? fun g => (data g).any fun found => decide (guid ∈ found.roles)).filter
    Guid.isParty

end CheckCompatibility

namespace State

def newProposal (s : State) (q : Nat) (check : List Guid) (numLfgGroups : Nat)
    (roles : LfgRolesMap) : LfgProposal :=
  let group := check.find? s.isLfgGroup
  let isNew := numLfgGroups != 1 || check.head?.map s.getOldState != some .dungeon
  let player (guid : Guid) (role : Nat) : LfgProposalPlayer :=
    let own := proposalGroup (s.queueData q) check guid
    ⟨role, if !isNew && own.isSome && own == group then .agree else .pending, own⟩
  ⟨group, isNew, check, Assoc.mapVal player roles⟩

/-- `AddProposal`, with a `uint32` id. -/
def addProposal (s : State) (proposal : LfgProposal) : State :=
  let id := (s.proposalId + 1) % 2 ^ 32
  { s with proposalId := id, proposalsStore := s.proposalsStore.insert id proposal }

def takeFromQueue (s : State) (q : Nat) (check : List Guid) : State :=
  s.modifyQueue q fun queue =>
    check.foldl (fun queue guid => (queue.removeFromNewQueue guid).removeFromCurrentQueue guid) queue

/-- `CheckCompatibility` once the guids without the first are known to be compatible. -/
def checkGroup (view : LfgView) (s : State) (q : Nat) (check : List Guid) :
    LfgCompatibility × State :=
  match countPlayers (s.queueData q) s.isLfgGroup check 0 0 with
  | .error guid => (.pending, s.modifyQueue q (·.removeFromQueue guid))
  | .ok (numPlayers, numLfgGroups) =>
    let compatibles := compatibilityOf (s.queueData q) view s.allQueued check numPlayers numLfgGroups
    let found :=
      if compatibles = .matched then
        (s.takeFromQueue q check).addProposal
          (s.newProposal q check numLfgGroups ((proposalRoles (s.queueData q) view check).getD ∅))
      else s
    (compatibles, found.modifyQueue q (·.setCompatibles check compatibles))

def checkCompatibility (view : LfgView) (q : Nat) : List Guid → State → LfgCompatibility × State
  | [], s => (.wrongGroupSize, s)
  | guid :: rest, s =>
    if maxGroupSize < rest.length + 1 then (.wrongGroupSize, s)
    else if 1 < rest.length then
      let child := checkCompatibility view q rest s
      if child.1.compatible then child.2.checkGroup view q (guid :: rest)
      else (child.1, child.2.modifyQueue q (·.setCompatibles (guid :: rest) child.1))
    else s.checkGroup view q (guid :: rest)

/-- The start of `FindNewGroups`: the compatibility that is stored, or else computed. -/
def findCompatibility (view : LfgView) (q : Nat) (check : List Guid) (s : State) :
    LfgCompatibility × State :=
  let stored := (s.queuesStore q).getCompatibles check
  let known := if stored = .pending then s.checkCompatibility view q check else (stored, s)
  if known.1 = .badStates ∧ known.2.allQueued check then
    (.matched, known.2.modifyQueue q (·.setCompatibles check .matched))
  else known

/-- The loop of `FindNewGroups`. The list of the others is shared with the nested calls, which
return only at its end or at once, so the search is one walk along it. -/
def matchQueued (view : LfgView) (q : Nat) (check : List Guid) : List Guid → State → Bool × State
  | [], s => (false, s)
  | guid :: all, s =>
    let sub := s.findCompatibility view q (check ++ [guid])
    if sub.1 = .matched then (true, sub.2)
    else if sub.1 = .withLessPlayers then matchQueued view q (check ++ [guid]) all sub.2
    else matchQueued view q check all sub.2

def findNewGroups (view : LfgView) (q : Nat) (check all : List Guid) (s : State) : Bool × State :=
  let first := s.findCompatibility view q check
  if first.1 = .withLessPlayers then matchQueued view q check all first.2
  else (first.1 == .matched, first.2)

/-- One pass of the loop of `LFGQueue::FindGroups`, which goes on until no guid is new. -/
def findGroups (view : LfgView) (q : Nat) (s : State) : State :=
  match (s.queuesStore q).newToQueueStore with
  | [] => s
  | frontguid :: _ =>
    let taken := s.modifyQueue q (·.removeFromNewQueue frontguid)
    let found := taken.findNewGroups view q [frontguid] (taken.queuesStore q).currentQueueStore
    if found.1 then found.2 else found.2.modifyQueue q (·.addToCurrentQueue frontguid)

end State

end Ashamane.DungeonFinding
