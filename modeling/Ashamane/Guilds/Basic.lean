import Ashamane.Lib.Assoc
import Mathlib.Data.List.Basic

/-! The rank table and the member store of a guild, with the private helpers that
every request goes through. -/
namespace Ashamane.Guilds

open Ashamane.Lib

abbrev ObjectGuid := Nat

def guildRanksMinCount : Nat := 2
def guildRanksMaxCount : Nat := 10
def guildRankNone : Nat := 0xFF
def guildMasterDethroneInactiveDays : Nat := 90
def gold : Nat := 10000

def grGuildmaster : Nat := 0
def grOfficer : Nat := 1
def grMember : Nat := 3
def grInitiate : Nat := 4

def grRightNone : BitVec 32 := 0x00000000
def grRightGchatlisten : BitVec 32 := 0x00000001
def grRightGchatspeak : BitVec 32 := 0x00000002
def grRightRemove : BitVec 32 := 0x00000020
def grRightPromote : BitVec 32 := 0x00000080
def grRightDemote : BitVec 32 := 0x00000100
def grRightAll : BitVec 32 := 0x00DDFFBF

/-- The part of the world a guild asks for: texts by their id, and the option
`Guild.AllowMultipleGuildMaster`. -/
structure World where
  trinityString : Nat → String
  allowMultipleGuildMaster : Bool

def langGuildMaster : Nat := 811
def langGuildOfficer : Nat := 812
def langGuildVeteran : Nat := 813
def langGuildMember : Nat := 814
def langGuildInitiate : Nat := 815

structure RankInfo where
  rankId : Nat
  name : String
  rights : BitVec 32
  bankMoneyPerDay : Nat
  deriving DecidableEq, Repr

namespace RankInfo

def loadFromDB (row : RankInfo) : RankInfo :=
  { row with rights :=
      if row.rankId = grGuildmaster then row.rights ||| grRightAll else row.rights }

def setName (r : RankInfo) (name : String) : RankInfo := { r with name := name }

def setRights (r : RankInfo) (rights : BitVec 32) : RankInfo :=
  { r with rights := if r.rankId = grGuildmaster then grRightAll else rights }

def setBankMoneyPerDay (r : RankInfo) (money : Nat) : RankInfo :=
  { r with bankMoneyPerDay := money }

end RankInfo

structure Member where
  name : String
  rankId : Nat
  rankId_lt : rankId < 2 ^ 8
  deriving DecidableEq, Repr

namespace Member

def new (name : String) (rankId : Nat) : Member :=
  ⟨name, rankId % 2 ^ 8, Nat.mod_lt _ (by decide)⟩

def changeRank (m : Member) (newRank : Nat) : Member := new m.name newRank

@[simp] theorem changeRank_rankId (m : Member) (newRank : Nat) :
    (m.changeRank newRank).rankId = newRank % 2 ^ 8 := rfl

def isRank (m : Member) (rankId : Nat) : Bool := m.rankId == rankId

/-- The parameter is a `uint8`: the caller's sum is truncated. -/
def isRankNotLower (m : Member) (rankId : Nat) : Bool := decide (m.rankId ≤ rankId % 2 ^ 8)

end Member

/-- The members are keyed by guid; the order of the entries is the order in which
the hash map is walked. -/
abbrev Members := AList fun _ : ObjectGuid => Member

structure Guild where
  leaderGuid : ObjectGuid
  ranks : List RankInfo
  members : Members
  deriving DecidableEq

inductive Gone where
  | disbanded
  | assertFailed
  | nullPointer
  deriving DecidableEq, Repr

namespace Guild

def ranksSize (g : Guild) : Nat := g.ranks.length % 2 ^ 8

def lowestRankId (g : Guild) : Nat := (g.ranks.length + (2 ^ 8 - 1)) % 2 ^ 8

def getRankInfo (g : Guild) (rankId : Nat) : Option RankInfo :=
  if rankId < g.ranksSize then g.ranks[rankId]? else none

def getMember (g : Guild) (guid : ObjectGuid) : Option Member := g.members.lookup guid

def getMemberByName (g : Guild) (name : String) : Option ObjectGuid :=
  (g.members.entries.find? fun e => e.2.name == name).map (·.1)

def rankRights (g : Guild) (rankId : Nat) : BitVec 32 :=
  match g.getRankInfo rankId with
  | some rankInfo => rankInfo.rights
  | none => 0

def hasRankRight (g : Guild) (player : ObjectGuid) (right : BitVec 32) : Bool :=
  match g.getMember player with
  | some member => g.rankRights member.rankId &&& right != grRightNone
  | none => false

def isLeader (g : Guild) (player : ObjectGuid) : Bool :=
  if player = g.leaderGuid then true
  else
    match g.getMember player with
    | some member => member.isRank grGuildmaster
    | none => false

def changeRank (g : Guild) (guid : ObjectGuid) (newRank : Nat) : Guild :=
  { g with members := Assoc.modify guid (·.changeRank newRank) g.members }

def setLeader (g : Guild) (leader : ObjectGuid) : Guild :=
  { g with leaderGuid := leader }.changeRank leader grGuildmaster

def createRank (g : Guild) (name : String) (rights : BitVec 32) : Option Guild :=
  let newRankId := g.ranksSize
  if guildRanksMaxCount ≤ newRankId then none
  else
    some { g with ranks := g.ranks ++ [⟨newRankId, name, rights, 0⟩] }

/-- The result of `_CreateRank` is not looked at here. -/
def createDefaultGuildRanks (w : World) (g : Guild) : Guild :=
  let tryRank (g : Guild) (name : Nat) (rights : BitVec 32) : Guild :=
    (g.createRank (w.trinityString name) rights).getD g
  let g := tryRank g langGuildMaster grRightAll
  let g := tryRank g langGuildOfficer grRightAll
  let g := tryRank g langGuildVeteran (grRightGchatlisten ||| grRightGchatspeak)
  let g := tryRank g langGuildMember (grRightGchatlisten ||| grRightGchatspeak)
  tryRank g langGuildInitiate (grRightGchatlisten ||| grRightGchatspeak)

variable {g : Guild}

@[simp] theorem changeRank_ranks (guid : ObjectGuid) (r : Nat) :
    (g.changeRank guid r).ranks = g.ranks := rfl

@[simp] theorem changeRank_leaderGuid (guid : ObjectGuid) (r : Nat) :
    (g.changeRank guid r).leaderGuid = g.leaderGuid := rfl

@[simp] theorem setLeader_ranks (leader : ObjectGuid) : (g.setLeader leader).ranks = g.ranks := rfl

@[simp] theorem setLeader_leaderGuid (leader : ObjectGuid) :
    (g.setLeader leader).leaderGuid = leader := rfl

theorem getMember_changeRank (guid other : ObjectGuid) (r : Nat) :
    (g.changeRank guid r).getMember other =
      if other = guid then (g.getMember other).map (·.changeRank r) else g.getMember other :=
  Assoc.lookup_modify guid other _ g.members

theorem getMember_setLeader (leader other : ObjectGuid) :
    (g.setLeader leader).getMember other =
      if other = leader then (g.getMember other).map (·.changeRank grGuildmaster)
      else g.getMember other :=
  Assoc.lookup_modify leader other _ g.members

end Guild

end Ashamane.Guilds
