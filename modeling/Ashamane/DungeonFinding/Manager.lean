import Ashamane.DungeonFinding.FindGroups

/-! The operations of the dungeon finder. -/
namespace Ashamane.DungeonFinding

open Ashamane.Lib

structure JoinRequest where
  guid : Guid
  group : Option (Guid × List Guid)
  roles : Nat
  dungeons : LfgDungeonSet
  isRaid : Bool
  allowed : Bool

namespace State

def modifyQueueOf (w : World) (s : State) (guid : Guid) (f : LFGQueue → LFGQueue) : State :=
  s.modifyQueue (w.queueId guid) f

def setStates (s : State) (state : LfgState) (guids : List Guid) : State :=
  guids.foldl (fun s guid => s.setState state guid) s

def restoreStates (s : State) (guids : List Guid) : State :=
  guids.foldl (fun s guid => s.restoreState guid) s

/-- What an answer makes of a role check; `none` aborts it. -/
def answerRoleCheck (roleCheck : LfgRoleCheck) (guid : Option Guid) (roles : Nat) : LfgRoleCheck :=
  match guid with
  | none => { roleCheck with state := .aborted }
  | some guid =>
    if roles < roleTank then { roleCheck with state := .noRole }
    else
      let chosen := roleCheck.roles.insert guid roles
      let state :=
        if chosen.entries.all fun e => e.2 != 0 then
          if (checkGroupRoles chosen).isSome then .finished else .wrongRoles
        else roleCheck.state
      { roleCheck with roles := chosen, state := state }

def updateRoleCheck (w : World) (s : State) (gguid : Guid) (guid : Option Guid) (roles : Nat) :
    State :=
  match s.roleChecksStore.lookup gguid with
  | none => s
  | some roleCheck =>
    let answered := answerRoleCheck roleCheck guid roles
    let members := answered.roles.entries.map (·.1)
    match answered.state with
    | .initialiting => { s with roleChecksStore := s.roleChecksStore.insert gguid answered }
    | .finished =>
      let queued := ((s.setStates .queued members).setState .queued gguid).modifyQueueOf w gguid
        (·.addQueueData gguid answered.dungeons answered.roles)
      { queued with roleChecksStore := queued.roleChecksStore.erase gguid }
    | _ =>
      let restored := (s.restoreStates members).restoreState gguid
      { restored with roleChecksStore := restored.roleChecksStore.erase gguid }

/-- The new role check of a party. The roles of one that has not ended are kept. -/
def beginRoleCheck (s : State) (gguid leader : Guid) (members : List Guid) (dungeons : LfgDungeonSet) :
    State :=
  let kept := (s.roleChecksStore.lookup gguid).elim ∅ (·.roles)
  let asked := members.foldl (fun roles guid => roles.insert guid 0) kept
  let begun := (s.setState .roleCheck gguid).setStates .roleCheck members
  { begun with
    roleChecksStore := begun.roleChecksStore.insert gguid ⟨asked, .initialiting, dungeons, leader⟩ }

def joinGuid (r : JoinRequest) : Guid := r.group.elim r.guid (·.1)

def leaveBeforeJoin (w : World) (s : State) (guid : Guid) : State :=
  if s.getState guid = .queued then s.modifyQueueOf w guid (·.removeFromQueue guid) else s

def joinLfg (w : World) (s : State) (r : JoinRequest) : State :=
  let left := s.leaveBeforeJoin w (joinGuid r)
  if !r.allowed ∨ r.isRaid then left
  else
    match r.group with
    | some (gguid, members) =>
      (left.beginRoleCheck gguid r.guid members r.dungeons).updateRoleCheck w gguid (some r.guid) r.roles
    | none =>
      (left.modifyQueueOf w r.guid
        (·.addQueueData r.guid r.dungeons (AList.singleton r.guid r.roles))).setState .queued r.guid

def removeRoleCheck (s : State) (gguid : Guid) : State :=
  match s.roleChecksStore.lookup gguid with
  | none => s
  | some roleCheck =>
    let restored := (s.restoreStates (roleCheck.roles.entries.map (·.1))).restoreState gguid
    { restored with roleChecksStore := restored.roleChecksStore.erase gguid }

def queuedGuid (guid : Guid) (player : LfgProposalPlayer) : Guid := player.group.getD guid

def closeAnswers (type : LfgUpdateType) (players : AList fun _ : Guid => LfgProposalPlayer) :
    AList fun _ : Guid => LfgProposalPlayer :=
  let close (_ : Guid) (player : LfgProposalPlayer) : LfgProposalPlayer :=
    if type = .proposalFailed ∧ player.accept = .pending then { player with accept := .deny } else player
  Assoc.mapVal close players

def guidsToRemove (players : AList fun _ : Guid => LfgProposalPlayer) : List Guid :=
  (players.entries.filter fun e => e.2.accept == .deny).map fun e => queuedGuid e.1 e.2

def failStates (toRemove : List Guid) (s : State) : List (Sigma fun _ : Guid => LfgProposalPlayer) → State
  | [] => s
  | ⟨guid, player⟩ :: rest =>
    let guids := guid :: player.group.toList
    if queuedGuid guid player ∈ toRemove then failStates toRemove (s.restoreStates guids) rest
    else failStates toRemove (s.setStates .queued guids) rest

/-- `LFGMgr::RemoveProposal`. All players of a proposal are of one queue. -/
def removeProposal (w : World) (s : State) (id : Nat) (type : LfgUpdateType) : State :=
  match s.proposalsStore.lookup id with
  | none => s
  | some proposal =>
    let players := closeAnswers type proposal.players
    let toRemove := guidsToRemove players
    let failed := failStates toRemove s players.entries
    let erased := { failed with proposalsStore := failed.proposalsStore.erase id }
    match players.entries with
    | [] => erased
    | ⟨first, _⟩ :: _ =>
      erased.modifyQueueOf w first fun queue =>
        (proposal.queues.filter fun guid => decide (guid ∉ toRemove)).foldl
          (fun queue guid => queue.addToQueue guid true)
          (toRemove.foldl (fun queue guid => queue.removeFromQueue guid) queue)

def answerProposal (proposal : LfgProposal) (guid : Guid) (accept : LfgAnswer) : LfgProposal :=
  { proposal with players := Assoc.modify guid (fun player => { player with accept := accept }) proposal.players }

/-- The group of a proposal that all have accepted; `newGroup` is the guid of a group made for
it. -/
def makeNewGroup (s : State) (proposal : LfgProposal) (newGroup : Guid) : State :=
  match proposal.group with
  | some gguid => s.setState .dungeon gguid
  | none => (s.setState .proposal newGroup).setState .dungeon newGroup

def updateProposal (w : World) (s : State) (testing : Bool) (id : Nat) (guid : Guid) (accept : Bool)
    (newGroup : Guid) : State :=
  match s.proposalsStore.lookup id with
  | none => s
  | some proposal =>
    if guid ∉ proposal.players then s
    else
      let answered := answerProposal proposal guid (if accept then .agree else .deny)
      let stored := { s with proposalsStore := s.proposalsStore.insert id answered }
      if !accept then stored.removeProposal w id .proposalDeclined
      else if !testing ∧ !answered.players.entries.all (fun e => e.2.accept == .agree) then stored
      else
        let left := (stored.setStates .dungeon (answered.players.entries.map (·.1))).modifyQueueOf w guid
          fun queue => answered.queues.foldl (fun queue guid => queue.removeFromQueue guid) queue
        let made := left.makeNewGroup answered newGroup
        { made with proposalsStore := made.proposalsStore.erase id }

def proposalOf (s : State) (guid : Guid) : Option (Nat × LfgProposal) :=
  (s.proposalsStore.entries.find? fun e => decide (guid ∈ e.2.players)).map fun e => (e.1, e.2)

/-- `LFGMgr::LeaveLfg`, with what the group stores know of the guid: its party, and the
leader and the players of that. -/
def leaveLfg (w : World) (s : State) (guid : Guid) (group : Option Guid) (leader : Guid)
    (players : List Guid) (disconnected : Bool) : State :=
  let gguid := if guid.isParty then some guid else group
  match s.getState guid with
  | .queued =>
    match gguid with
    | some gguid =>
      ((s.modifyQueueOf w gguid (·.removeFromQueue gguid)).setState .none gguid).setStates .none players
    | none => (s.modifyQueueOf w guid (·.removeFromQueue guid)).setState .none guid
  | .roleCheck =>
    match gguid with
    | some gguid => s.updateRoleCheck w gguid none 0
    | none => s
  | .proposal =>
    let pguid := if gguid = some guid then leader else guid
    match s.proposalOf pguid with
    | none => s
    | some (id, proposal) =>
      { s with proposalsStore := s.proposalsStore.insert id (answerProposal proposal pguid .deny)
      }.removeProposal w id .proposalDeclined
  | .dungeon | .finishedDungeon =>
    if gguid ≠ some guid ∧ !disconnected then s.setState .none guid else s
  | .none | .raidBrowser => s

/-- The loop of `Update` over the proposals from the last one on, with the parties that the
players are in. -/
def beginProposals (s : State) (getGroup : Guid → Option Guid) : State :=
  match s.proposalsStore.lookup s.proposalId with
  | none => s
  | some _ =>
    (s.proposalsStore.entries.filter fun e => decide (s.proposalId ≤ e.1)).foldl
      (fun s e => s.setStates .proposal
        (e.2.players.entries.flatMap fun player => player.1 :: (getGroup player.1).toList)) s

end State

inductive Op where
  | joinLfg (request : JoinRequest)
  | updateRoleCheck (gguid : Guid) (guid : Option Guid) (roles : Nat)
  | removeRoleCheck (gguid : Guid)
  | findGroups (view : LfgView) (q : Nat)
  | beginProposals (getGroup : Guid → Option Guid)
  | updateProposal (testing : Bool) (id : Nat) (guid : Guid) (accept : Bool) (newGroup : Guid)
  | removeProposal (id : Nat) (type : LfgUpdateType)
  | leaveLfg (guid : Guid) (group : Option Guid) (leader : Guid) (players : List Guid)
      (disconnected : Bool)
  | otherStates (states : AList fun _ : Guid => LfgStates)

def Op.apply (w : World) (s : State) : Op → State
  | .joinLfg request => s.joinLfg w request
  | .updateRoleCheck gguid guid roles => s.updateRoleCheck w gguid guid roles
  | .removeRoleCheck gguid => s.removeRoleCheck gguid
  | .findGroups view q => s.findGroups view q
  | .beginProposals getGroup => s.beginProposals getGroup
  | .updateProposal testing id guid accept newGroup =>
    s.updateProposal w testing id guid accept newGroup
  | .removeProposal id type => s.removeProposal w id type
  | .leaveLfg guid group leader players disconnected =>
    s.leaveLfg w guid group leader players disconnected
  | .otherStates states => { s with states := states }

def Step (w : World) (s : State) (op : Op) (s' : State) : Prop := s' = op.apply w s

end Ashamane.DungeonFinding
