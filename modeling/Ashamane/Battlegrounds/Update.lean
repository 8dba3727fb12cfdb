import Ashamane.Battlegrounds.RatedArena
import Ashamane.Battlegrounds.Selection

/-! `BattlegroundQueueUpdate` for one bracket: the running battlegrounds are filled up, then a
premade match, a normal match or a rated arena match is looked for. -/
namespace Ashamane.Battlegrounds

inductive InvitationType where
  | noBalance
  | balanced
  | even
  deriving DecidableEq, Repr

structure Config where
  invitationType : InvitationType
  premadeGroupWaitForMatch : BitVec 32
  testing : Bool
  arenaTesting : Bool

inductive Status where
  | none
  | waitQueue
  | waitJoin
  | inProgress
  | waitLeave
  deriving DecidableEq, Repr

structure FreeSlotEntry where
  bg : Battleground
  isRated : Bool
  bracketId : Nat
  status : Status
  freeSlots : Team → Nat

structure Template where
  isArena : Bool
  minPlayersPerTeam : Nat
  maxPlayersPerTeam : Nat

structure UpdateCall where
  bgTypeId : Nat
  bracketId : Nat
  arenaType : Nat
  isRated : Bool
  freeSlotQueue : List FreeSlotEntry
  template : Option Template
  hasBracketEntry : Bool
  newPremade : Option Battleground
  newNormal : Option Battleground
  rated : RatedUpdate

def Team.premade : Team → GroupType
  | .alliance => .premadeAlliance
  | .horde => .premadeHorde

def Team.normal : Team → GroupType
  | .alliance => .normalAlliance
  | .horde => .normalHorde

def Team.other : Team → Team
  | .alliance => .horde
  | .horde => .alliance

namespace BattlegroundQueue

def invited (q : BattlegroundQueue) (p : GroupPtr) : Bool :=
  (q.groups p).isInvitedToBGInstanceGUID != 0

def groupSize (q : BattlegroundQueue) (p : GroupPtr) : Nat := (q.groups p).players.length

abbrev Pool (q : BattlegroundQueue) := SelectionPool q.groupSize

def fillPlayersToBG (cfg : Config) (q : BattlegroundQueue) (aliFree hordeFree : Nat) :
    q.Pool × q.Pool :=
  let ali := q.queued .normalAlliance
  let horde := q.queued .normalHorde
  let uneven := cfg.invitationType = .even ∧ hordeFree = 1 ∧ aliFree = 1
  let aliFree := if uneven then aliFree - (ali.length - horde.length) else aliFree
  let hordeFree := if uneven then hordeFree - (horde.length - ali.length) else hordeFree
  let a : Side q.groupSize := (Side.mk aliFree .init ali).fill q.invited aliFree
  let h : Side q.groupSize := (Side.mk hordeFree .init horde).fill q.invited hordeFree
  if cfg.invitationType = .noBalance then (a.pool, h.pool)
  else
    let (a, h) := Side.balance q.invited a h
    (a.pool, h.pool)

def inviteGroups (srv : Server) (l : List GroupPtr) (s : BattlegroundQueue × Battleground) :
    BattlegroundQueue × Battleground :=
  l.foldl (fun s p => (inviteGroupToBG srv s.1 p s.2 (some (s.1.groups p).team)).2) s

def fillRunning (srv : Server) (cfg : Config) (u : UpdateCall) (q : BattlegroundQueue)
    (e : FreeSlotEntry) : BattlegroundQueue :=
  if ¬ e.isRated ∧ e.bg.typeID = u.bgTypeId ∧ e.bracketId = u.bracketId ∧
      (e.status = .waitJoin ∨ e.status = .inProgress) then
    let (ali, horde) := fillPlayersToBG cfg q (e.freeSlots .alliance) (e.freeSlots .horde)
    (inviteGroups srv horde.selectedGroups (inviteGroups srv ali.selectedGroups (q, e.bg))).1
  else q

def addNormalGroups (q : BattlegroundQueue) (maxPlayers : Nat) (pool : q.Pool) :
    List GroupPtr → q.Pool
  | [] => pool
  | p :: rest =>
    if q.invited p then addNormalGroups q maxPlayers pool rest
    else
      match pool.addGroup q.invited p maxPlayers with
      | (true, pool) => addNormalGroups q maxPlayers pool rest
      | (false, pool) => pool

def expirePremade (srv : Server) (cfg : Config) (minPlayersPerTeam : Nat) (q : BattlegroundQueue)
    (team : Team) : BattlegroundQueue :=
  match q.queued team.premade with
  | [] => q
  | p :: rest =>
    if ¬ q.invited p ∧ ((q.groups p).joinTime < srv.msTime - cfg.premadeGroupWaitForMatch ∨
        q.groupSize p < minPlayersPerTeam) then
      let q := q.setQueued team.normal (p :: q.queued team.normal)
      q.setQueued team.premade rest
    else q

def checkPremadeMatch (srv : Server) (cfg : Config) (q : BattlegroundQueue)
    (minPlayersPerTeam maxPlayersPerTeam : Nat) : Option (q.Pool × q.Pool) × BattlegroundQueue :=
  match (q.queued .premadeAlliance).find? fun p => ! q.invited p,
      (q.queued .premadeHorde).find? fun p => ! q.invited p with
  | some aliGroup, some hordeGroup =>
    let ali : q.Pool := (SelectionPool.init.addGroup q.invited aliGroup maxPlayersPerTeam).2
    let horde : q.Pool := (SelectionPool.init.addGroup q.invited hordeGroup maxPlayersPerTeam).2
    let maxPlayers := min ali.playerCount horde.playerCount
    (some (q.addNormalGroups maxPlayers ali (q.queued .normalAlliance),
      q.addNormalGroups maxPlayers horde (q.queued .normalHorde)), q)
  | _, _ => (none, [Team.alliance, .horde].foldl (expirePremade srv cfg minPlayersPerTeam) q)

/-- The first loop of `CheckNormalMatch` for one side, with the place where it stops. -/
def selectNormal (q : BattlegroundQueue) (minPlayers maxPlayers : Nat) (pool : q.Pool) :
    List GroupPtr → q.Pool × List GroupPtr
  | [] => (pool, [])
  | p :: rest =>
    if q.invited p then selectNormal q minPlayers maxPlayers pool rest
    else
      let pool := (pool.addGroup q.invited p maxPlayers).2
      if pool.playerCount ≥ minPlayers then (pool, p :: rest)
      else selectNormal q minPlayers maxPlayers pool rest

def checkNormalMatch (cfg : Config) (q : BattlegroundQueue) (minPlayers maxPlayers : Nat) :
    Bool × q.Pool × q.Pool :=
  let (ali, aliRest) := q.selectNormal minPlayers maxPlayers .init (q.queued .normalAlliance)
  let (horde, hordeRest) := q.selectNormal minPlayers maxPlayers .init (q.queued .normalHorde)
  let full := horde.playerCount ≥ minPlayers ∧ ali.playerCount ≥ minPlayers
  let (ali, horde) :=
    if cfg.invitationType ≠ .noBalance ∧ full then
      -- more groups for the side with fewer players, after the last one selected
      if horde.playerCount < ali.playerCount then
        (ali, q.addNormalGroups ali.playerCount horde hordeRest.tail)
      else (q.addNormalGroups horde.playerCount ali aliRest.tail, horde)
    else (ali, horde)
  let uneven := cfg.invitationType ≠ .noBalance ∧ full ∧
    (ali.playerCount > horde.playerCount + 2 ∨ horde.playerCount > ali.playerCount + 2)
  let testing := cfg.testing ∧ (ali.playerCount ≠ 0 ∨ horde.playerCount ≠ 0)
  let enough := ali.playerCount ≥ minPlayers ∧ horde.playerCount ≥ minPlayers
  (decide (¬ uneven ∧ (testing ∨ enough)), ali, horde)

/-- `g` is taken out of the list behind `ginfo`. -/
def eraseBehind (l : List GroupPtr) (ginfo g : GroupPtr) : List GroupPtr :=
  let k := l.idxOf ginfo + 1
  l.take k ++ (l.drop k).erase g

def changeSide (team : Team) (ginfo : GroupPtr) (q : BattlegroundQueue) (g : GroupPtr) :
    BattlegroundQueue :=
  let q := q.setGroup g fun x => { x with team := team.other }
  let q := q.setQueued team.other.normal (g :: q.queued team.other.normal)
  q.setQueued team.normal (eraseBehind (q.queued team.normal) ginfo g)

def checkSkirmishForSameFaction (q : BattlegroundQueue) (ali horde : q.Pool)
    (minPlayersPerTeam : Nat) : Option (List GroupPtr × List GroupPtr × BattlegroundQueue) :=
  if ali.playerCount < minPlayersPerTeam ∧ horde.playerCount < minPlayersPerTeam then none
  else
    let team : Team := if horde.playerCount = minPlayersPerTeam then .horde else .alliance
    let pool := match team with
      | .alliance => ali
      | .horde => horde
    match pool.selectedGroups.getLast? with
    | none => none
    | some ginfo =>
      let l := q.queued team.normal
      if ginfo ∉ l then none
      else
        let other := q.addNormalGroups minPlayersPerTeam .init (l.drop (l.idxOf ginfo + 1))
        if other.playerCount ≠ minPlayersPerTeam then none
        else
          let q' := other.selectedGroups.foldl (changeSide team ginfo) q
          match team with
          | .alliance => some (pool.selectedGroups, other.selectedGroups, q')
          | .horde => some (other.selectedGroups, pool.selectedGroups, q')

def startPremade (srv : Server) (cfg : Config) (u : UpdateCall) (tmpl : Template)
    (minPlayers maxPlayers : Nat) (q : BattlegroundQueue) : Bool × BattlegroundQueue :=
  if tmpl.isArena then (true, q)
  else
    match checkPremadeMatch srv cfg q minPlayers maxPlayers with
    | (none, q') => (true, q')
    | (some (ali, horde), q') =>
      match u.newPremade with
      | none => (false, q')
      | some bg =>
        (true,
          (inviteGroups srv horde.selectedGroups (inviteGroups srv ali.selectedGroups (q', bg))).1)

def findMatch (cfg : Config) (tmpl : Template) (minPlayers maxPlayers : Nat)
    (q : BattlegroundQueue) : Option (List GroupPtr × List GroupPtr × BattlegroundQueue) :=
  let (enough, ali, horde) := checkNormalMatch cfg q minPlayers maxPlayers
  if enough then some (ali.selectedGroups, horde.selectedGroups, q)
  else if tmpl.isArena then checkSkirmishForSameFaction q ali horde minPlayers
  else none

def startNormal (srv : Server) (cfg : Config) (u : UpdateCall) (tmpl : Template)
    (minPlayers maxPlayers : Nat) (q : BattlegroundQueue) : BattlegroundQueue :=
  match findMatch cfg tmpl minPlayers maxPlayers q with
  | none => q
  | some (ali, horde, q') =>
    match u.newNormal with
    | none => q'
    | some bg => (inviteGroups srv horde (inviteGroups srv ali (q', bg))).1

def update (srv : Server) (cfg : Config) (u : UpdateCall) (q : BattlegroundQueue) :
    BattlegroundQueue :=
  if q.queued .premadeAlliance = [] ∧ q.queued .premadeHorde = [] ∧
      q.queued .normalAlliance = [] ∧ q.queued .normalHorde = [] then q
  else
    let q := u.freeSlotQueue.foldl (fillRunning srv cfg u) q
    match u.template with
    | none => q
    | some tmpl =>
      if ¬ u.hasBracketEntry then q
      else
        let maxPlayers := if tmpl.isArena then u.arenaType else tmpl.maxPlayersPerTeam
        let minPlayers :=
          if tmpl.isArena then (if cfg.arenaTesting then 1 else u.arenaType)
          else if cfg.testing then 1
          else tmpl.minPlayersPerTeam
        let (goOn, q) := startPremade srv cfg u tmpl minPlayers maxPlayers q
        if ¬ goOn then q
        else if ¬ u.isRated then startNormal srv cfg u tmpl minPlayers maxPlayers q
        else if tmpl.isArena then (updateRatedArena srv q u.rated).1
        else q

end BattlegroundQueue

end Ashamane.Battlegrounds
