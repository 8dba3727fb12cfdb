import Mathlib.Algebra.Ring.Int.Defs
import Mathlib.Algebra.Ring.Nat
import Mathlib.Data.List.Basic

/-! A group of players: a party or a raid, with the subgroups of the raid. -/
namespace Ashamane.Groups

abbrev ObjectGuid := Nat

def maxGroupSize : Nat := 5
def maxRaidSize : Nat := 40
def maxRaidSubgroups : Nat := maxRaidSize / maxGroupSize

def groupFlagNone : BitVec 16 := 0x000
def groupFlagRaid : BitVec 16 := 0x002
def groupFlagLfgRestricted : BitVec 16 := 0x004
def groupFlagLfg : BitVec 16 := 0x008
def groupMaskBgraid : BitVec 16 := 0x003

structure MemberSlot where
  guid : ObjectGuid
  group : Nat
  deriving DecidableEq, Repr

inductive Purpose where
  | home
  | battleground
  | battlefield
  deriving DecidableEq, Repr

structure Group where
  purpose : Purpose
  groupFlags : BitVec 16
  leaderGuid : ObjectGuid
  memberSlots : List MemberSlot
  /-- One byte for each subgroup of a raid. -/
  subGroupsCounts : Option (List Nat)
  deriving DecidableEq, Repr

namespace Group

def isBGGroup (g : Group) : Bool := g.purpose = .battleground
def isBFGroup (g : Group) : Bool := g.purpose = .battlefield
def isLFGGroup (g : Group) : Bool := g.groupFlags &&& groupFlagLfg != 0
def isRaidGroup (g : Group) : Bool := g.groupFlags &&& groupFlagRaid != 0

def getMembersCount (g : Group) : Nat := g.memberSlots.length

def isFull (g : Group) : Bool :=
  if g.isRaidGroup then maxRaidSize ≤ g.memberSlots.length
  else maxGroupSize ≤ g.memberSlots.length

def memberSlot (g : Group) (guid : ObjectGuid) : Option Nat :=
  g.memberSlots.findIdx? fun m => m.guid == guid

def subGroupCounterIncrease (g : Group) (subgroup : Nat) : Group :=
  { g with subGroupsCounts := g.subGroupsCounts.map (·.modify subgroup fun n => (n + 1) % 2 ^ 8) }

def subGroupCounterDecrease (g : Group) (subgroup : Nat) : Group :=
  { g with subGroupsCounts :=
      g.subGroupsCounts.map (·.modify subgroup fun n => (n + (2 ^ 8 - 1)) % 2 ^ 8) }

def hasFreeSlotSubGroup (g : Group) (subgroup : Nat) : Bool :=
  match g.subGroupsCounts with
  | none => false
  | some counts => counts.getD subgroup 0 < maxGroupSize

def initRaidSubGroupsCounter (g : Group) : Group :=
  g.memberSlots.foldl (fun g m => g.subGroupCounterIncrease m.group)
    { g with subGroupsCounts := some (List.replicate maxRaidSubgroups 0) }

def freeSubGroup (g : Group) : Option Nat :=
  match g.subGroupsCounts with
  | none => some 0
  | some counts =>
    (List.range maxRaidSubgroups).find? fun subGroup => counts.getD subGroup 0 < maxGroupSize

def addMember (g : Group) (guid : ObjectGuid) : Option Group :=
  match g.freeSubGroup with
  | none => none
  | some subGroup =>
    let g := { g with memberSlots := g.memberSlots ++ [MemberSlot.mk guid subGroup] }
    some (g.subGroupCounterIncrease subGroup)

def new (purpose : Purpose) : Group := ⟨purpose, groupFlagNone, 0, [], none⟩

def convertToLFG (g : Group) : Group :=
  { g with groupFlags := g.groupFlags ||| groupFlagLfg ||| groupFlagLfgRestricted }

def convertToRaid (g : Group) : Group :=
  { g with groupFlags := g.groupFlags ||| groupFlagRaid }.initRaidSubGroupsCounter

def convertToGroup (g : Group) : Group :=
  if 5 < g.memberSlots.length then g
  else { g with groupFlags := groupFlagNone, subGroupsCounts := none }

def create (g : Group) (leader : ObjectGuid) : Option Group :=
  let g := { g with leaderGuid := leader }
  let g := if g.isBGGroup ∨ g.isBFGroup then { g with groupFlags := groupMaskBgraid } else g
  let g := if g.isRaidGroup then g.initRaidSubGroupsCounter else g
  g.addMember leader

/-- What the removal of a member finds in the world: the method `GROUP_REMOVEMETHOD_KICK`,
which members are connected, whether the last member of a dungeon finder group is
outside of the dungeon, and the number of members still linked to the group. -/
structure Removal where
  kick : Bool
  connected : ObjectGuid → Bool
  outside : Bool
  linked : Nat

def leaveSlot (g : Group) (guid : ObjectGuid) : Group :=
  match g.memberSlot guid with
  | none => g
  | some slot =>
    { g.subGroupCounterDecrease ((g.memberSlots[slot]?.map (·.group)).getD 0) with
      memberSlots := g.memberSlots.eraseIdx slot }

/-- The first connected member becomes the leader if `guid` was it. -/
def pickLeader (g : Group) (guid : ObjectGuid) (connected : ObjectGuid → Bool) : Group :=
  if g.leaderGuid = guid then
    match g.memberSlots.find? fun m => connected m.guid with
    | none => g
    | some m => { g with leaderGuid := m.guid }
  else g

def removeMember (g : Group) (guid : ObjectGuid) (r : Removal) : Option Group :=
  if g.isLFGGroup ∧ r.kick then some g
  else if (if g.isBGGroup ∨ g.isLFGGroup ∨ g.isBFGroup then 1 else 2) < g.getMembersCount then
    let g := (g.leaveSlot guid).pickLeader guid r.connected
    if g.isLFGGroup ∧ g.getMembersCount = 1 ∧ r.outside then none
    else if r.linked < (if g.isLFGGroup ∨ g.isBGGroup then 1 else 2) then none
    else some g
  else none

def setGroup (g : Group) (slot : Nat) (group : Nat) : Group :=
  { g with memberSlots := g.memberSlots.modify slot ({ · with group := group }) }

def changeMembersGroup (g : Group) (guid : ObjectGuid) (group : Nat) : Group :=
  if ¬ g.isRaidGroup then g
  else
    match g.memberSlot guid with
    | none => g
    | some slot =>
      let prevSubGroup := (g.memberSlots[slot]?.map (·.group)).getD 0
      if prevSubGroup = group then g
      else ((g.setGroup slot group).subGroupCounterIncrease group).subGroupCounterDecrease
        prevSubGroup

def swapMembersGroups (g : Group) (firstGuid secondGuid : ObjectGuid) : Group :=
  if ¬ g.isRaidGroup then g
  else
    match g.memberSlot firstGuid, g.memberSlot secondGuid with
    | some first, some second =>
      let firstGroup := (g.memberSlots[first]?.map (·.group)).getD 0
      let secondGroup := (g.memberSlots[second]?.map (·.group)).getD 0
      if firstGroup = secondGroup then g
      else (g.setGroup first secondGroup).setGroup second firstGroup
    | _, _ => g

def loadGroupFromDB (leader : ObjectGuid) (groupFlags : BitVec 16) : Group :=
  let g := { new .home with leaderGuid := leader, groupFlags := groupFlags }
  if g.isRaidGroup then g.initRaidSubGroupsCounter else g

/-- `exists?` says whether the character still exists. -/
def loadMemberFromDB (g : Group) (known : ObjectGuid → Bool) (guid : ObjectGuid)
    (subgroup : Nat) : Group :=
  if ¬ known guid then g
  else { g with memberSlots := g.memberSlots ++ [MemberSlot.mk guid subgroup] }.subGroupCounterIncrease subgroup

def reload (g : Group) (known : ObjectGuid → Bool) (rows : List MemberSlot) : Group :=
  rows.foldl (fun g row => g.loadMemberFromDB known row.guid row.group)
    (loadGroupFromDB g.leaderGuid g.groupFlags)

end Group

inductive Op where
  | addMember (guid : ObjectGuid)
  | removeMember (guid : ObjectGuid) (removal : Group.Removal)
  | convertToLFG
  | convertToRaid
  | convertToGroup
  | changeMembersGroup (guid : ObjectGuid) (group : Nat)
  | swapMembersGroups (firstGuid secondGuid : ObjectGuid)
  | reload (known : ObjectGuid → Bool) (rows : List MemberSlot)

/-- An operation after which the group is still there. An `AddMember` that is refused leaves
the group as it is. -/
def Step (g : Group) : Op → Group → Prop
  | .addMember guid, g' => g' = (g.addMember guid).getD g
  | .removeMember guid removal, g' => g.removeMember guid removal = some g'
  | .convertToLFG, g' => g' = g.convertToLFG
  | .convertToRaid, g' => g' = g.convertToRaid
  | .convertToGroup, g' => g' = g.convertToGroup
  | .changeMembersGroup guid group, g' => g' = g.changeMembersGroup guid group
  | .swapMembersGroups firstGuid secondGuid, g' => g' = g.swapMembersGroups firstGuid secondGuid
  | .reload known rows, g' => g' = g.reload known rows

/-- What an operation finds: `ChangeMembersGroup` is called with a subgroup of the raid that
has a free slot (`HasFreeSlotSubGroup`), and a server start finds the rows that were saved
for the members of a group that is not made for a battleground. -/
def Op.Requested (g : Group) : Op → Prop
  | .changeMembersGroup _ group => group < maxRaidSubgroups ∧ g.hasFreeSlotSubGroup group = true
  | .reload _ rows => g.purpose = .home ∧ rows.Subperm g.memberSlots
  | _ => True

/-- A party that a member is added to is not full. The invitations are checked with `IsFull`;
`LFGMgr::MakeNewGroup` does not check it. -/
def Op.Checked (g : Group) (op : Op) : Prop :=
  op.Requested g ∧
    ∀ guid, op = .addMember guid → g.isRaidGroup = false → g.isFull = false

def Created (g : Group) : Prop :=
  ∃ purpose leader, (Group.new purpose).create leader = some g ∨
    (Group.new purpose).convertToLFG.create leader = some g

end Ashamane.Groups
