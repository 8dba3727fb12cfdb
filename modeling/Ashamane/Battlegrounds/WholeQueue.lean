import Ashamane.Battlegrounds.Update
import Mathlib.Data.List.AList
import Mathlib.Data.List.Sort

/-! The whole queue: all its brackets over one store of groups, and the map from the queued
players to their groups. -/
namespace Ashamane.Battlegrounds

abbrev maxBattlegroundBrackets : Nat := 12

instance neZeroBrackets : NeZero maxBattlegroundBrackets := ⟨by decide⟩

abbrev BracketId := Fin maxBattlegroundBrackets

/-- `queuedPlayers` holds the `GroupInfo` of each `PlayerQueueInfo`. -/
structure WholeQueue where
  groups : GroupPtr → GroupQueueInfo
  next : GroupPtr
  queuedGroups : BracketId → GroupType → List GroupPtr
  queuedPlayers : AList fun _ : ObjectGuid => GroupPtr
  waitTimes : BracketId → Team → WaitTimes
  events : List QueueEvent

inductive RemoveEffect where
  | decreaseInvitedCount (instanceGuid : BitVec 32) (bgTypeId : Nat) (team : Team)
  | memberLost (player : ObjectGuid) (opponentsMatchmakerRating : BitVec 32) (arenaType : Nat)
  | leaveQueue (player : ObjectGuid) (bgTypeId arenaType : Nat)
  deriving DecidableEq, Repr

def GroupType.isPremade : GroupType → Bool
  | .premadeAlliance | .premadeHorde => true
  | .normalAlliance | .normalHorde => false

def GroupType.team : GroupType → Team
  | .premadeAlliance | .normalAlliance => .alliance
  | .premadeHorde | .normalHorde => .horde

namespace WholeQueue

def bracket (q : WholeQueue) (b : BracketId) : BattlegroundQueue :=
  { groups := q.groups, next := q.next, queued := q.queuedGroups b, waitTimes := q.waitTimes b
    events := q.events }

def setBracket (q : WholeQueue) (b : BracketId) (v : BattlegroundQueue) : WholeQueue :=
  { q with
    groups := v.groups
    next := v.next
    queuedGroups := Function.update q.queuedGroups b v.queued
    waitTimes := Function.update q.waitTimes b v.waitTimes
    events := v.events }

def setGroup (q : WholeQueue) (p : GroupPtr) (f : GroupQueueInfo → GroupQueueInfo) :
    WholeQueue :=
  { q with groups := Function.update q.groups p (f (q.groups p)) }

def setList (q : WholeQueue) (b : BracketId) (t : GroupType) (l : List GroupPtr) : WholeQueue :=
  let lists := Function.update (q.queuedGroups b) t l
  { q with queuedGroups := Function.update q.queuedGroups b lists }

def playersMap (members : List ObjectGuid) : List ObjectGuid :=
  members.foldl (fun l guid => if guid ∈ l then l else l.orderedInsert (· ≤ ·) guid) []

/-- `members` are the members of the group that joins, or the leader alone. -/
def addGroup (srv : Server) (q : WholeQueue) (b : BracketId) (leaderTeam : Team)
    (members : List ObjectGuid) (bgTypeId arenaType : Nat) (isRated isPremade : Bool)
    (arenaRating matchmakerRating : BitVec 32) : WholeQueue :=
  let (ginfo, v) := BattlegroundQueue.addGroup srv (q.bracket b) leaderTeam (playersMap members)
    bgTypeId arenaType isRated isPremade arenaRating matchmakerRating
  let queuedPlayers := members.foldl (fun m guid => m.insert guid ginfo) q.queuedPlayers
  { q.setBracket b v with queuedPlayers }

def findGroup (q : WholeQueue) (p : GroupPtr) : Option (BracketId × GroupType) :=
  let team := (q.groups p).team
  (List.finRange maxBattlegroundBrackets).reverse.findSome? fun b =>
    (([team.premade, team.normal].filter fun t => p ∈ q.queuedGroups b t).getLast?).map fun t =>
      (b, t)

def dropPlayer (q : WholeQueue) (guid : ObjectGuid) (p : GroupPtr) : WholeQueue :=
  { q.setGroup p fun g => { g with players := g.players.erase guid } with
    queuedPlayers := q.queuedPlayers.erase guid }

def removeEffects (g : GroupQueueInfo) (guid : ObjectGuid) (decreaseInvitedCount : Bool) :
    List RemoveEffect :=
  (if decreaseInvitedCount ∧ g.isInvitedToBGInstanceGUID ≠ 0 then
    [.decreaseInvitedCount g.isInvitedToBGInstanceGUID g.bgTypeId g.team] else []) ++
  if g.isInvitedToBGInstanceGUID ≠ 0 ∧ g.isRated ∧ decreaseInvitedCount then
    [.memberLost guid g.opponentsMatchmakerRating g.arenaType] else []

/-- `RemovePlayer`. The number bounds the recursion: each call that goes on has taken one
player out of the queue. -/
def removeLoop (decreaseInvitedCount : Bool) :
    Nat → WholeQueue → ObjectGuid → WholeQueue × List RemoveEffect
  | 0, q, _ => (q, [])
  | n + 1, q, guid =>
    match q.queuedPlayers.lookup guid with
    | none => (q, [])
    | some p =>
      match q.findGroup p with
      | none => (q, [])
      | some (b, t) =>
        let q := q.dropPlayer guid p
        let g := q.groups p
        let effects := removeEffects g guid decreaseInvitedCount
        match g.players with
        | [] => (q.setList b t ((q.queuedGroups b t).erase p), effects)
        | member :: _ =>
          if g.isInvitedToBGInstanceGUID = 0 ∧ g.isRated then
            let (q, more) := removeLoop decreaseInvitedCount n q member
            (q, effects ++ .leaveQueue member g.bgTypeId g.arenaType :: more)
          else (q, effects)

def removePlayer (q : WholeQueue) (guid : ObjectGuid) (decreaseInvitedCount : Bool) :
    WholeQueue × List RemoveEffect :=
  removeLoop decreaseInvitedCount q.queuedPlayers.entries.length q guid

def inviteGroupToBG (srv : Server) (q : WholeQueue) (p : GroupPtr) (b : BracketId)
    (bg : Battleground) (side : Option Team) : WholeQueue :=
  q.setBracket b (BattlegroundQueue.inviteGroupToBG srv (q.bracket b) p bg side).2.1

def update (srv : Server) (cfg : Config) (q : WholeQueue) (b : BracketId)
    (u : UpdateCall) : WholeQueue :=
  q.setBracket b (BattlegroundQueue.update srv cfg { u with bracketId := b } (q.bracket b))

def empty : WholeQueue where
  groups := BattlegroundQueue.empty.groups
  next := 0
  queuedGroups _ _ := []
  queuedPlayers := ∅
  waitTimes _ := BattlegroundQueue.empty.waitTimes
  events := []

end WholeQueue

inductive QueueOp where
  | addGroup (srv : Server) (b : BracketId) (leaderTeam : Team) (members : List ObjectGuid)
      (bgTypeId arenaType : Nat) (isRated isPremade : Bool)
      (arenaRating matchmakerRating : BitVec 32)
  | removePlayer (guid : ObjectGuid) (decreaseInvitedCount : Bool)
  | inviteGroupToBG (srv : Server) (p : GroupPtr) (b : BracketId) (bg : Battleground)
      (side : Option Team)
  | update (srv : Server) (cfg : Config) (b : BracketId) (u : UpdateCall)

structure Traced where
  queue : WholeQueue
  joinedPremade : GroupPtr → Bool
  battlegrounds : Bool

namespace Traced

def start : Traced := ⟨.empty, fun _ => false, false⟩

def step (s : Traced) : QueueOp → Traced
  | .addGroup srv b leaderTeam members bgTypeId arenaType isRated isPremade rating mmr =>
    { s with
      queue := s.queue.addGroup srv b leaderTeam members bgTypeId arenaType isRated isPremade
        rating mmr
      joinedPremade := Function.update s.joinedPremade s.queue.next (isRated || isPremade) }
  | .removePlayer guid decrease =>
    { s with queue := (s.queue.removePlayer guid decrease).1 }
  | .inviteGroupToBG srv p b bg side =>
    { s with queue := s.queue.inviteGroupToBG srv p b bg side }
  | .update srv cfg b u =>
    { s with
      queue := s.queue.update srv cfg b u
      battlegrounds := s.battlegrounds || u.template.any fun tmpl => ! tmpl.isArena }

end Traced

end Ashamane.Battlegrounds
