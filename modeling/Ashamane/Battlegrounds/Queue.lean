import Mathlib.Logic.Function.Basic
import Mathlib.Data.List.Basic
import Mathlib.Data.List.Nodup

/-! The queue of one bracket: the queued groups, the store they point into, the
waiting times and the invite events. -/
namespace Ashamane.Battlegrounds

abbrev ObjectGuid := Nat

abbrev GroupPtr := Nat

inductive Team where
  | alliance
  | horde
  deriving DecidableEq, Repr

inductive GroupType where
  | premadeAlliance
  | premadeHorde
  | normalAlliance
  | normalHorde
  deriving DecidableEq, Repr

abbrev countOfPlayersToAverageWaitTime : Nat := 10
def inviteAcceptWaitTime : BitVec 32 := 90000
def invitationRemindTime : BitVec 32 := 20000

structure GroupQueueInfo where
  players : List ObjectGuid
  team : Team
  bgTypeId : Nat
  isRated : Bool
  arenaType : Nat
  joinTime : BitVec 32
  removeInviteTime : BitVec 32
  isInvitedToBGInstanceGUID : BitVec 32
  arenaGroupRating : BitVec 32
  arenaMatchmakerRating : BitVec 32
  opponentsTeamRating : BitVec 32
  opponentsMatchmakerRating : BitVec 32
  deriving DecidableEq, Repr

structure Battleground where
  instanceID : BitVec 32
  typeID : Nat
  arenaType : Nat
  invitedCount : Team → Nat
  arenaMatchmakerRating : Team → BitVec 32

def Battleground.increaseInvitedCount (bg : Battleground) (team : Team) : Battleground :=
  { bg with invitedCount := Function.update bg.invitedCount team (bg.invitedCount team + 1) }

def Battleground.setArenaMatchmakerRating (bg : Battleground) (team : Team) (mmr : BitVec 32) :
    Battleground :=
  { bg with arenaMatchmakerRating := Function.update bg.arenaMatchmakerRating team mmr }

structure WaitTimes where
  times : Fin countOfPlayersToAverageWaitTime → BitVec 32
  lastPlayer : Fin countOfPlayersToAverageWaitTime
  sum : BitVec 32

inductive QueueEvent where
  | invite (player : ObjectGuid) (instanceGuid : BitVec 32) (bgTypeId arenaType : Nat)
      (removeTime delay : BitVec 32)
  | remove (player : ObjectGuid) (instanceGuid : BitVec 32) (bgTypeId arenaType : Nat)
      (removeTime delay : BitVec 32)
  deriving DecidableEq, Repr

/-- One bracket of `m_QueuedGroups`, over the objects in `groups`. `next` is the place
of the next `new GroupQueueInfo`. -/
structure BattlegroundQueue where
  groups : GroupPtr → GroupQueueInfo
  next : GroupPtr
  queued : GroupType → List GroupPtr
  waitTimes : Team → WaitTimes
  events : List QueueEvent

structure Server where
  msTime : BitVec 32
  connected : ObjectGuid → Bool

namespace BattlegroundQueue

def setGroup (q : BattlegroundQueue) (p : GroupPtr) (f : GroupQueueInfo → GroupQueueInfo) :
    BattlegroundQueue :=
  { q with groups := Function.update q.groups p (f (q.groups p)) }

def setQueued (q : BattlegroundQueue) (t : GroupType) (l : List GroupPtr) : BattlegroundQueue :=
  { q with queued := Function.update q.queued t l }

/-- `getMSTimeDiff`, which takes the shorter way round when the clock has wrapped. -/
def getMSTimeDiff (oldMSTime newMSTime : BitVec 32) : BitVec 32 :=
  if newMSTime < oldMSTime then (0xFFFFFFFF - oldMSTime) + newMSTime else newMSTime - oldMSTime

def playerInvitedToBGUpdateAverageWaitTime (srv : Server) (q : BattlegroundQueue)
    (ginfo : GroupQueueInfo) : BattlegroundQueue :=
  let timeInQueue := getMSTimeDiff ginfo.joinTime srv.msTime
  let teamIndex : Team :=
    if ginfo.arenaType = 0 then ginfo.team
    else if ginfo.isRated then .horde
    else .alliance
  let w := q.waitTimes teamIndex
  let w : WaitTimes :=
    { times := Function.update w.times w.lastPlayer timeInQueue
      lastPlayer := w.lastPlayer + 1
      sum := w.sum - w.times w.lastPlayer + timeInQueue }
  { q with waitTimes := Function.update q.waitTimes teamIndex w }

/-- The turn of the loop of `InviteGroupToBG` for one player of the group. -/
def invitePlayer (srv : Server) (ginfo : GroupQueueInfo) (s : BattlegroundQueue × Battleground)
    (player : ObjectGuid) : BattlegroundQueue × Battleground :=
  if ¬ srv.connected player then s
  else
    let q := playerInvitedToBGUpdateAverageWaitTime srv s.1 ginfo
    let bg := s.2.increaseInvitedCount ginfo.team
    let events := q.events ++
      [.invite player ginfo.isInvitedToBGInstanceGUID bg.typeID ginfo.arenaType
          ginfo.removeInviteTime invitationRemindTime,
        .remove player ginfo.isInvitedToBGInstanceGUID bg.typeID ginfo.arenaType
          ginfo.removeInviteTime inviteAcceptWaitTime]
    ({ q with events := events }, bg)

def inviteGroupToBG (srv : Server) (q : BattlegroundQueue) (p : GroupPtr) (bg : Battleground)
    (side : Option Team) : Bool × BattlegroundQueue × Battleground :=
  let q := match side with
    | some side => q.setGroup p fun ginfo => { ginfo with team := side }
    | none => q
  if (q.groups p).isInvitedToBGInstanceGUID = 0 then
    let q := q.setGroup p fun ginfo =>
      { ginfo with
        isInvitedToBGInstanceGUID := bg.instanceID
        removeInviteTime := srv.msTime + inviteAcceptWaitTime }
    (true, (q.groups p).players.foldl (invitePlayer srv (q.groups p)) (q, bg))
  else (false, q, bg)

def groupIndex (isRated isPremade : Bool) (team : Team) : GroupType :=
  match isRated || isPremade, team with
  | true, .alliance => .premadeAlliance
  | true, .horde => .premadeHorde
  | false, .alliance => .normalAlliance
  | false, .horde => .normalHorde

def enqueue (q : BattlegroundQueue) (index : GroupType) (ginfo : GroupQueueInfo) :
    BattlegroundQueue :=
  { q with
    groups := Function.update q.groups q.next ginfo
    next := q.next + 1
    queued := Function.update q.queued index (q.queued index ++ [q.next]) }

def addGroup (srv : Server) (q : BattlegroundQueue) (leaderTeam : Team) (players : List ObjectGuid)
    (bgTypeId arenaType : Nat) (isRated isPremade : Bool)
    (arenaRating matchmakerRating : BitVec 32) : GroupPtr × BattlegroundQueue :=
  let ginfo : GroupQueueInfo :=
    { players := players, team := leaderTeam, bgTypeId := bgTypeId, isRated := isRated
      arenaType := arenaType, joinTime := srv.msTime, removeInviteTime := 0
      isInvitedToBGInstanceGUID := 0, arenaGroupRating := arenaRating
      arenaMatchmakerRating := matchmakerRating, opponentsTeamRating := 0
      opponentsMatchmakerRating := 0 }
  (q.next, q.enqueue (groupIndex isRated isPremade leaderTeam) ginfo)

variable {srv : Server} {q : BattlegroundQueue}

@[simp] theorem setGroup_queued (p : GroupPtr) (f : GroupQueueInfo → GroupQueueInfo) :
    (q.setGroup p f).queued = q.queued := rfl

@[simp] theorem setGroup_groups_self (p : GroupPtr) (f : GroupQueueInfo → GroupQueueInfo) :
    (q.setGroup p f).groups p = f (q.groups p) :=
  Function.update_self p _ q.groups

theorem setGroup_groups_ne {p r : GroupPtr} (h : r ≠ p) (f : GroupQueueInfo → GroupQueueInfo) :
    (q.setGroup p f).groups r = q.groups r :=
  Function.update_of_ne h _ q.groups

/-- A field that the update leaves alone is the same in every group. -/
theorem setGroup_field {α : Type*} (field : GroupQueueInfo → α) (p : GroupPtr)
    {f : GroupQueueInfo → GroupQueueInfo} (hf : ∀ g, field (f g) = field g) (r : GroupPtr) :
    field ((q.setGroup p f).groups r) = field (q.groups r) := by
  by_cases h : r = p
  · subst h
    rw [setGroup_groups_self, hf]
  · rw [setGroup_groups_ne h]

@[simp] theorem setQueued_queued_self (t : GroupType) (l : List GroupPtr) :
    (q.setQueued t l).queued t = l :=
  Function.update_self t _ q.queued

theorem setQueued_queued_ne {t u : GroupType} (h : u ≠ t) (l : List GroupPtr) :
    (q.setQueued t l).queued u = q.queued u :=
  Function.update_of_ne h _ q.queued

theorem enqueue_groups_new (index : GroupType) (ginfo : GroupQueueInfo) :
    (q.enqueue index ginfo).groups q.next = ginfo :=
  Function.update_self q.next _ q.groups

theorem enqueue_groups_old {p : GroupPtr} (h : p ≠ q.next) (index : GroupType)
    (ginfo : GroupQueueInfo) : (q.enqueue index ginfo).groups p = q.groups p :=
  Function.update_of_ne h _ q.groups

theorem enqueue_queued_self (index : GroupType) (ginfo : GroupQueueInfo) :
    (q.enqueue index ginfo).queued index = q.queued index ++ [q.next] :=
  Function.update_self index _ q.queued

theorem enqueue_queued_ne {t index : GroupType} (h : t ≠ index) (ginfo : GroupQueueInfo) :
    (q.enqueue index ginfo).queued t = q.queued t :=
  Function.update_of_ne h _ q.queued

theorem mem_enqueue_queued {t index : GroupType} {ginfo : GroupQueueInfo} {p : GroupPtr} :
    p ∈ (q.enqueue index ginfo).queued t ↔ p ∈ q.queued t ∨ (t = index ∧ p = q.next) := by
  by_cases ht : t = index
  · subst ht
    rw [enqueue_queued_self]
    simp
  · rw [enqueue_queued_ne ht]
    simp [ht]

/-- The players of an invited group only reach the waiting times and the events. -/
theorem foldl_invitePlayer_frame (ginfo : GroupQueueInfo) (l : List ObjectGuid)
    (s : BattlegroundQueue × Battleground) :
    (l.foldl (invitePlayer srv ginfo) s).1.groups = s.1.groups ∧
      (l.foldl (invitePlayer srv ginfo) s).1.queued = s.1.queued ∧
      (l.foldl (invitePlayer srv ginfo) s).1.next = s.1.next ∧
      (l.foldl (invitePlayer srv ginfo) s).2.instanceID = s.2.instanceID := by
  induction l generalizing s with
  | nil => exact ⟨rfl, rfl, rfl, rfl⟩
  | cons player l ih =>
    obtain ⟨hg, hq, hn, hi⟩ := ih (invitePlayer srv ginfo s player)
    rw [List.foldl_cons, hg, hq, hn, hi]
    unfold invitePlayer
    split <;> exact ⟨rfl, rfl, rfl, rfl⟩

theorem inviteGroupToBG_frame (p : GroupPtr) (bg : Battleground) (side : Team) :
    (inviteGroupToBG srv q p bg (some side)).2.1.queued = q.queued ∧
      (inviteGroupToBG srv q p bg (some side)).2.1.next = q.next := by
  unfold inviteGroupToBG
  dsimp only
  split
  · obtain ⟨_, hq, hn, _⟩ := @foldl_invitePlayer_frame srv _ _ _
    exact ⟨hq, hn⟩
  · exact ⟨rfl, rfl⟩

theorem inviteGroupToBG_instanceID (p : GroupPtr) (bg : Battleground) (side : Team) :
    (inviteGroupToBG srv q p bg (some side)).2.2.instanceID = bg.instanceID := by
  unfold inviteGroupToBG
  dsimp only
  split
  · rw [(foldl_invitePlayer_frame _ _ _).2.2.2]
  · rfl

theorem inviteGroupToBG_groups (p : GroupPtr) (bg : Battleground) (side : Team) :
    (inviteGroupToBG srv q p bg (some side)).2.1.groups = (q.setGroup p fun g =>
      { g with
        team := side
        isInvitedToBGInstanceGUID :=
          if g.isInvitedToBGInstanceGUID = 0 then bg.instanceID else g.isInvitedToBGInstanceGUID
        removeInviteTime :=
          if g.isInvitedToBGInstanceGUID = 0 then srv.msTime + inviteAcceptWaitTime
          else g.removeInviteTime }).groups := by
  unfold inviteGroupToBG
  dsimp only
  split
  next h =>
    simp only [setGroup_groups_self] at h
    rw [(foldl_invitePlayer_frame _ _ _).1]
    simp only [setGroup, Function.update_self, Function.update_idem, if_pos h]
  next h =>
    simp only [setGroup_groups_self] at h
    simp only [setGroup, if_neg h]

theorem inviteGroupToBG_players (p : GroupPtr) (bg : Battleground) (side : Team) (r : GroupPtr) :
    ((inviteGroupToBG srv q p bg (some side)).2.1.groups r).players = (q.groups r).players := by
  rw [inviteGroupToBG_groups]
  apply setGroup_field (·.players) p
  intro g
  rfl

theorem inviteGroupToBG_uninvited {p r : GroupPtr} {bg : Battleground} {side : Team}
    (hid : bg.instanceID ≠ 0)
    (h : ((inviteGroupToBG srv q p bg (some side)).2.1.groups r).isInvitedToBGInstanceGUID = 0) :
    r ≠ p ∧ (inviteGroupToBG srv q p bg (some side)).2.1.groups r = q.groups r := by
  rw [inviteGroupToBG_groups] at h ⊢
  by_cases hr : r = p
  · subst hr
    rw [setGroup_groups_self] at h
    dsimp only at h
    split at h
    · exact absurd h hid
    next hz => exact absurd h hz
  · exact ⟨hr, setGroup_groups_ne hr _⟩

def empty : BattlegroundQueue where
  groups _ := ⟨[], .alliance, 0, false, 0, 0, 0, 0, 0, 0, 0, 0⟩
  next := 0
  queued _ := []
  waitTimes _ := ⟨fun _ => 0, 0, 0⟩
  events := []

end BattlegroundQueue

end Ashamane.Battlegrounds
