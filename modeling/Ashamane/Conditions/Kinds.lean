import Ashamane.Conditions.Basic

/-! The types of conditions: when a condition is met by its target, and which types of objects the
search for its sake is narrowed to. -/
namespace Ashamane.Conditions

inductive ConditionTypes
  | none
  | aura
  | item
  | itemEquipped
  | zoneid
  | reputationRank
  | team
  | skill
  | questrewarded
  | questtaken
  | drunkenstate
  | worldState
  | activeEvent
  | instanceInfo
  | questNone
  | «class»
  | race
  | achievement
  | title
  | spawnmask
  | gender
  | unitState
  | mapid
  | areaid
  | creatureType
  | spell
  | phaseid
  | level
  | questComplete
  | nearCreature
  | nearGameobject
  | objectEntryGuid
  | typeMask
  | relationTo
  | reactionTo
  | distanceTo
  | alive
  | hpVal
  | hpPct
  | realmAchievement
  | inWater
  | terrainSwap
  | standState
  | dailyQuestDone
  | charmed
  | petType
  | taxi
  | queststate
  | questObjectiveComplete
  deriving DecidableEq, Repr

def conditionTypes : List ConditionTypes :=
  [.none, .aura, .item, .itemEquipped, .zoneid, .reputationRank, .team, .skill, .questrewarded,
    .questtaken, .drunkenstate, .worldState, .activeEvent, .instanceInfo, .questNone, .class, .race,
    .achievement, .title, .spawnmask, .gender, .unitState, .mapid, .areaid, .creatureType, .spell,
    .phaseid, .level, .questComplete, .nearCreature, .nearGameobject, .objectEntryGuid, .typeMask,
    .relationTo, .reactionTo, .distanceTo, .alive, .hpVal, .hpPct, .realmAchievement, .inWater,
    .terrainSwap, .standState, .dailyQuestDone, .charmed, .petType, .taxi, .queststate,
    .questObjectiveComplete]

/-- `none` is `CONDITION_MAX` and above. -/
def Condition.kind (cond : Condition) : Option ConditionTypes := conditionTypes[cond.conditionType]?

inductive QuestStatus
  | none
  | complete
  | incomplete
  | failed
  | rewarded
  deriving DecidableEq, Repr

def QuestStatus.toNat : QuestStatus → Nat
  | .none => 0
  | .complete => 1
  | .incomplete => 3
  | .failed => 5
  | .rewarded => 6

structure InstanceScript where
  getData : Nat → Nat
  getBossState : Nat → Nat
  getData64 : Nat → Nat

structure ObjectData where
  guid : Nat
  entry : Nat
  zoneId : Nat
  areaId : Nat
  mapId : Nat
  spawnMode : Nat
  /-- The script of a dungeon map. -/
  instanceScript : Option InstanceScript
  hasPhase : Nat → Bool
  hasVisibleMapId : Nat → Bool
  findNearestCreature : Nat → Nat → Bool → Bool
  findNearestGameObject : Nat → Nat → Bool
  /-- The distance to another object, compared. -/
  compareDistance : Nat → Nat → Nat → Bool

structure UnitData where
  hasAuraEffect : Nat → Nat → Bool
  classMask : Nat
  raceMask : Nat
  level : Nat
  health : Nat
  isAlive : Bool
  /-- The health in percent, compared. -/
  compareHealthPct : Nat → Nat → Bool
  hasUnitState : Nat → Bool
  isInWater : Bool
  standState : Nat
  isStandState : Bool
  isSitState : Bool
  isCharmed : Bool
  ownerGuid : Nat
  creatorGuid : Nat
  isInPartyWith : Nat → Bool
  isInRaidWith : Nat → Bool
  isOnVehicle : Nat → Bool
  reactionTo : Nat → Nat

structure PlayerData where
  hasItemCount : Nat → Nat → Bool → Bool
  hasItemOrGemWithIdEquipped : Nat → Nat → Bool
  /-- The rank for a faction that exists. -/
  rank : Nat → Option Nat
  hasAchieved : Nat → Bool
  team : Nat
  gender : Nat
  hasSkill : Nat → Bool
  baseSkillValue : Nat → Nat
  questRewardStatus : Nat → Bool
  questStatus : Nat → QuestStatus
  isQuestObjectiveComplete : Nat → Bool
  hasSpell : Nat → Bool
  drunkenstate : Nat
  hasTitle : Nat → Bool
  isDailyQuestDone : Nat → Bool
  petType : Option Nat
  isInFlight : Bool

structure CreatureData where
  spawnId : Nat
  creatureType : Nat

inductive WorldObject
  | creature (object : ObjectData) (unit : UnitData) (creature : CreatureData)
  | player (object : ObjectData) (unit : UnitData) (player : PlayerData)
  | gameObject (object : ObjectData) (spawnId : Nat)
  | dynamicObject (object : ObjectData)
  | corpse (object : ObjectData)
  | areaTrigger (object : ObjectData)
  | sceneObject (object : ObjectData)
  | conversation (object : ObjectData)

namespace WorldObject

def data : WorldObject → ObjectData
  | creature object _ _ => object
  | player object _ _ => object
  | gameObject object _ => object
  | dynamicObject object => object
  | corpse object => object
  | areaTrigger object => object
  | sceneObject object => object
  | conversation object => object

def typeId : WorldObject → Nat
  | creature .. => 3
  | player .. => 4
  | gameObject .. => 5
  | dynamicObject _ => 6
  | corpse _ => 7
  | areaTrigger _ => 8
  | sceneObject _ => 9
  | conversation _ => 10

def TYPEMASK_UNIT : BitVec 32 := 0x0008
def TYPEMASK_PLAYER : BitVec 32 := 0x0010
def TYPEMASK_GAMEOBJECT : BitVec 32 := 0x0020
def TYPEMASK_CORPSE : BitVec 32 := 0x0080
def TYPEMASK_AREATRIGGER : BitVec 32 := 0x0100

/-- The types of an object, `TYPEMASK_OBJECT` among them. -/
def objectType : WorldObject → BitVec 32
  | creature .. => 0x0009
  | player .. => 0x0019
  | gameObject .. => 0x0021
  | dynamicObject _ => 0x0041
  | corpse _ => 0x0081
  | areaTrigger _ => 0x0101
  | sceneObject _ => 0x0201
  | conversation _ => 0x0401

def isType (object : WorldObject) (mask : BitVec 32) : Bool :=
  mask.setWidth 16 &&& object.objectType.setWidth 16 ≠ 0

def GRID_MAP_TYPE_MASK_CORPSE : BitVec 32 := 0x01
def GRID_MAP_TYPE_MASK_CREATURE : BitVec 32 := 0x02
def GRID_MAP_TYPE_MASK_DYNAMICOBJECT : BitVec 32 := 0x04
def GRID_MAP_TYPE_MASK_GAMEOBJECT : BitVec 32 := 0x08
def GRID_MAP_TYPE_MASK_PLAYER : BitVec 32 := 0x10
def GRID_MAP_TYPE_MASK_AREATRIGGER : BitVec 32 := 0x20
def GRID_MAP_TYPE_MASK_SCENEOBJECT : BitVec 32 := 0x40
def GRID_MAP_TYPE_MASK_CONVERSATION : BitVec 32 := 0x80

def gridMapType : WorldObject → BitVec 32
  | creature .. => GRID_MAP_TYPE_MASK_CREATURE
  | player .. => GRID_MAP_TYPE_MASK_PLAYER
  | gameObject .. => GRID_MAP_TYPE_MASK_GAMEOBJECT
  | dynamicObject _ => GRID_MAP_TYPE_MASK_DYNAMICOBJECT
  | corpse _ => GRID_MAP_TYPE_MASK_CORPSE
  | areaTrigger _ => GRID_MAP_TYPE_MASK_AREATRIGGER
  | sceneObject _ => GRID_MAP_TYPE_MASK_SCENEOBJECT
  | conversation _ => GRID_MAP_TYPE_MASK_CONVERSATION

def toUnit : WorldObject → Option UnitData
  | creature _ unit _ => some unit
  | player _ unit _ => some unit
  | _ => none

def toPlayer : WorldObject → Option PlayerData
  | player _ _ data => some data
  | _ => none

def toCreature : WorldObject → Option CreatureData
  | creature _ _ data => some data
  | _ => none

/-- The spawn id that `CONDITION_OBJECT_ENTRY_GUID` compares, of the two types that have one. -/
def spawnId : WorldObject → Option Nat
  | creature _ _ data => some data.spawnId
  | gameObject _ spawnId => some spawnId
  | _ => none

end WorldObject

structure World where
  isActiveEvent : Nat → Bool
  worldState : Nat → Nat
  isRealmCompleted : Nat → Bool
  /-- The quest of an objective. -/
  questObjective : Nat → Option Nat
  /-- The scripts; they agree by default. -/
  onConditionCheck : Condition → Bool

def compareValues (type val1 val2 : Nat) : Bool :=
  match type with
  | 0 => val1 = val2
  | 1 => val1 > val2
  | 2 => val1 < val2
  | 3 => val1 ≥ val2
  | 4 => val1 ≤ val2
  | _ => false

namespace Condition

def meetsInstanceInfo (cond : Condition) (instanceScript : InstanceScript) : Bool :=
  match cond.conditionValue3 with
  | 0 => instanceScript.getData cond.conditionValue1 = cond.conditionValue2
  | 2 => instanceScript.getBossState cond.conditionValue1 = cond.conditionValue2
  | 3 => instanceScript.getData64 cond.conditionValue1 = cond.conditionValue2
  | _ => false

def meetsRelation (cond : Condition) (object toObject : ObjectData) (unit : UnitData) : Bool :=
  match cond.conditionValue2 with
  | 0 => object.guid = toObject.guid
  | 1 => unit.isInPartyWith toObject.guid
  | 2 => unit.isInRaidWith toObject.guid
  | 3 => unit.ownerGuid = toObject.guid
  | 4 => unit.isOnVehicle toObject.guid
  | 5 => unit.creatorGuid = toObject.guid
  | _ => false

def meetsStandState (cond : Condition) (unit : UnitData) : Bool :=
  if cond.conditionValue1 = 0 then unit.standState = cond.conditionValue2
  else if cond.conditionValue2 = 0 then unit.isStandState
  else if cond.conditionValue2 = 1 then unit.isSitState
  else false

def meetsQuestState (cond : Condition) (player : PlayerData) : Bool :=
  let status := player.questStatus cond.conditionValue1
  let asked (status : QuestStatus) : Bool := cond.conditionValue2.testBit status.toNat
  asked .none && status = .none || asked .complete && status = .complete ||
    asked .incomplete && status = .incomplete || asked .failed && status = .failed ||
    asked .rewarded && player.questRewardStatus cond.conditionValue1

def meetsObjectEntryGuid (cond : Condition) (object : WorldObject) : Bool :=
  if object.typeId = cond.conditionValue1 then
    (cond.conditionValue2 = 0 || object.data.entry = cond.conditionValue2) &&
      (cond.conditionValue3 = 0 || object.spawnId.all (· = cond.conditionValue3))
  else false

variable (w : World) (targets : Nat → Option WorldObject)

def test (cond : Condition) (object : WorldObject) : ConditionTypes → Bool
  | .none => true
  | .aura => object.toUnit.any fun unit =>
      unit.hasAuraEffect cond.conditionValue1 cond.conditionValue2
  | .item => object.toPlayer.any fun player =>
      player.hasItemCount cond.conditionValue1 cond.conditionValue2 (cond.conditionValue3 ≠ 0)
  | .itemEquipped => object.toPlayer.any fun player =>
      player.hasItemOrGemWithIdEquipped cond.conditionValue1 1
  | .zoneid => object.data.zoneId = cond.conditionValue1
  | .reputationRank => object.toPlayer.any fun player =>
      (player.rank cond.conditionValue1).any fun rank => cond.conditionValue2.testBit rank
  | .achievement => object.toPlayer.any fun player => player.hasAchieved cond.conditionValue1
  | .team => object.toPlayer.any fun player => player.team = cond.conditionValue1
  | .class => object.toUnit.any fun unit => unit.classMask &&& cond.conditionValue1 ≠ 0
  | .race => object.toUnit.any fun unit => unit.raceMask &&& cond.conditionValue1 ≠ 0
  | .gender => object.toPlayer.any fun player => player.gender = cond.conditionValue1
  | .skill => object.toPlayer.any fun player => player.hasSkill cond.conditionValue1 &&
      player.baseSkillValue cond.conditionValue1 ≥ cond.conditionValue2
  | .questrewarded => object.toPlayer.any fun player =>
      player.questRewardStatus cond.conditionValue1
  | .questtaken => object.toPlayer.any fun player =>
      player.questStatus cond.conditionValue1 = .incomplete
  | .questComplete => object.toPlayer.any fun player =>
      player.questStatus cond.conditionValue1 = .complete &&
        !player.questRewardStatus cond.conditionValue1
  | .questNone => object.toPlayer.any fun player =>
      player.questStatus cond.conditionValue1 = .none
  | .activeEvent => w.isActiveEvent cond.conditionValue1
  | .instanceInfo => object.data.instanceScript.any cond.meetsInstanceInfo
  | .mapid => object.data.mapId = cond.conditionValue1
  | .areaid => object.data.areaId = cond.conditionValue1
  | .spell => object.toPlayer.any fun player => player.hasSpell cond.conditionValue1
  | .level => object.toUnit.any fun unit =>
      compareValues cond.conditionValue2 unit.level cond.conditionValue1
  | .drunkenstate => object.toPlayer.any fun player => player.drunkenstate ≥ cond.conditionValue1
  | .nearCreature => object.data.findNearestCreature cond.conditionValue1 cond.conditionValue2
      (cond.conditionValue3 = 0)
  | .nearGameobject => object.data.findNearestGameObject cond.conditionValue1 cond.conditionValue2
  | .objectEntryGuid => cond.meetsObjectEntryGuid object
  | .typeMask => object.isType (BitVec.ofNat 32 cond.conditionValue1)
  | .relationTo => (targets cond.conditionValue1).any fun toObject =>
      toObject.toUnit.isSome && object.toUnit.any fun unit =>
        cond.meetsRelation object.data toObject.data unit
  | .reactionTo => (targets cond.conditionValue1).any fun toObject =>
      toObject.toUnit.isSome && object.toUnit.any fun unit =>
        cond.conditionValue2.testBit (unit.reactionTo toObject.data.guid)
  | .distanceTo => (targets cond.conditionValue1).any fun toObject =>
      object.data.compareDistance toObject.data.guid cond.conditionValue3 cond.conditionValue2
  | .alive => object.toUnit.any fun unit => unit.isAlive
  | .hpVal => object.toUnit.any fun unit =>
      compareValues cond.conditionValue2 unit.health cond.conditionValue1
  | .hpPct => object.toUnit.any fun unit =>
      unit.compareHealthPct cond.conditionValue2 cond.conditionValue1
  | .worldState => w.worldState cond.conditionValue1 = cond.conditionValue2
  | .phaseid => object.data.hasPhase cond.conditionValue1
  | .title => object.toPlayer.any fun player => player.hasTitle cond.conditionValue1
  | .spawnmask => cond.conditionValue1.testBit object.data.spawnMode
  | .unitState => object.toUnit.any fun unit => unit.hasUnitState cond.conditionValue1
  | .creatureType => object.toCreature.any fun creature =>
      creature.creatureType = cond.conditionValue1
  | .realmAchievement => w.isRealmCompleted cond.conditionValue1
  | .inWater => object.toUnit.any fun unit => unit.isInWater
  | .terrainSwap => object.data.hasVisibleMapId cond.conditionValue1
  | .standState => object.toUnit.any cond.meetsStandState
  | .dailyQuestDone => object.toPlayer.any fun player =>
      player.isDailyQuestDone cond.conditionValue1
  | .charmed => object.toUnit.any fun unit => unit.isCharmed
  | .petType => object.toPlayer.any fun player =>
      player.petType.any fun petType => cond.conditionValue1.testBit petType
  | .taxi => object.toPlayer.any fun player => player.isInFlight
  | .queststate => object.toPlayer.any cond.meetsQuestState
  | .questObjectiveComplete => object.toPlayer.any fun player =>
      (w.questObjective cond.conditionValue1).any fun questId =>
        !player.questRewardStatus questId && player.isQuestObjectiveComplete cond.conditionValue1

def meets (cond : Condition) : Bool :=
  match targets cond.conditionTarget with
  | none => false
  | some object =>
    let condMeets := cond.kind.any (cond.test w targets object)
    let condMeets := if cond.negativeCondition then !condMeets else condMeets
    condMeets && w.onConditionCheck cond

open WorldObject

def entryMask (cond : Condition) : BitVec 32 :=
  match cond.conditionValue1 with
  | 3 => GRID_MAP_TYPE_MASK_CREATURE
  | 4 => GRID_MAP_TYPE_MASK_PLAYER
  | 5 => GRID_MAP_TYPE_MASK_GAMEOBJECT
  | 7 => GRID_MAP_TYPE_MASK_CORPSE
  | 8 => GRID_MAP_TYPE_MASK_AREATRIGGER
  | _ => 0

def typesMask (cond : Condition) : BitVec 32 :=
  let value := BitVec.ofNat 32 cond.conditionValue1
  let mask : BitVec 32 := 0
  let mask := if value &&& TYPEMASK_UNIT ≠ 0 then
      mask ||| (GRID_MAP_TYPE_MASK_CREATURE ||| GRID_MAP_TYPE_MASK_PLAYER)
    else mask
  let mask := if value &&& TYPEMASK_PLAYER ≠ 0 then mask ||| GRID_MAP_TYPE_MASK_PLAYER else mask
  let mask := if value &&& TYPEMASK_GAMEOBJECT ≠ 0 then mask ||| GRID_MAP_TYPE_MASK_GAMEOBJECT
    else mask
  let mask := if value &&& TYPEMASK_CORPSE ≠ 0 then mask ||| GRID_MAP_TYPE_MASK_CORPSE else mask
  if value &&& TYPEMASK_AREATRIGGER ≠ 0 then mask ||| GRID_MAP_TYPE_MASK_AREATRIGGER else mask

def typeMask (cond : Condition) : ConditionTypes → BitVec 32
  | .none => gridMapTypeMaskAll
  | .aura => GRID_MAP_TYPE_MASK_CREATURE ||| GRID_MAP_TYPE_MASK_PLAYER
  | .item => GRID_MAP_TYPE_MASK_PLAYER
  | .itemEquipped => GRID_MAP_TYPE_MASK_PLAYER
  | .zoneid => gridMapTypeMaskAll
  | .reputationRank => GRID_MAP_TYPE_MASK_PLAYER
  | .achievement => GRID_MAP_TYPE_MASK_PLAYER
  | .team => GRID_MAP_TYPE_MASK_PLAYER
  | .class => GRID_MAP_TYPE_MASK_CREATURE ||| GRID_MAP_TYPE_MASK_PLAYER
  | .race => GRID_MAP_TYPE_MASK_CREATURE ||| GRID_MAP_TYPE_MASK_PLAYER
  | .skill => GRID_MAP_TYPE_MASK_PLAYER
  | .questrewarded => GRID_MAP_TYPE_MASK_PLAYER
  | .questtaken => GRID_MAP_TYPE_MASK_PLAYER
  | .questComplete => GRID_MAP_TYPE_MASK_PLAYER
  | .questNone => GRID_MAP_TYPE_MASK_PLAYER
  | .activeEvent => gridMapTypeMaskAll
  | .instanceInfo => gridMapTypeMaskAll
  | .mapid => gridMapTypeMaskAll
  | .areaid => gridMapTypeMaskAll
  | .spell => GRID_MAP_TYPE_MASK_PLAYER
  | .level => GRID_MAP_TYPE_MASK_CREATURE ||| GRID_MAP_TYPE_MASK_PLAYER
  | .drunkenstate => GRID_MAP_TYPE_MASK_PLAYER
  | .nearCreature => gridMapTypeMaskAll
  | .nearGameobject => gridMapTypeMaskAll
  | .objectEntryGuid => cond.entryMask
  | .typeMask => cond.typesMask
  | .relationTo => GRID_MAP_TYPE_MASK_CREATURE ||| GRID_MAP_TYPE_MASK_PLAYER
  | .reactionTo => GRID_MAP_TYPE_MASK_CREATURE ||| GRID_MAP_TYPE_MASK_PLAYER
  | .distanceTo => gridMapTypeMaskAll
  | .alive => GRID_MAP_TYPE_MASK_CREATURE ||| GRID_MAP_TYPE_MASK_PLAYER
  | .hpVal => GRID_MAP_TYPE_MASK_CREATURE ||| GRID_MAP_TYPE_MASK_PLAYER
  | .hpPct => GRID_MAP_TYPE_MASK_CREATURE ||| GRID_MAP_TYPE_MASK_PLAYER
  | .worldState => gridMapTypeMaskAll
  | .phaseid => gridMapTypeMaskAll
  | .title => GRID_MAP_TYPE_MASK_PLAYER
  | .spawnmask => gridMapTypeMaskAll
  | .gender => GRID_MAP_TYPE_MASK_PLAYER
  | .unitState => GRID_MAP_TYPE_MASK_CREATURE ||| GRID_MAP_TYPE_MASK_PLAYER
  | .creatureType => GRID_MAP_TYPE_MASK_CREATURE
  | .realmAchievement => gridMapTypeMaskAll
  | .inWater => GRID_MAP_TYPE_MASK_CREATURE ||| GRID_MAP_TYPE_MASK_PLAYER
  | .terrainSwap => gridMapTypeMaskAll
  | .standState => GRID_MAP_TYPE_MASK_CREATURE ||| GRID_MAP_TYPE_MASK_PLAYER
  | .dailyQuestDone => GRID_MAP_TYPE_MASK_PLAYER
  | .charmed => GRID_MAP_TYPE_MASK_CREATURE ||| GRID_MAP_TYPE_MASK_PLAYER
  | .petType => GRID_MAP_TYPE_MASK_PLAYER
  | .taxi => GRID_MAP_TYPE_MASK_PLAYER
  | .queststate => GRID_MAP_TYPE_MASK_PLAYER
  | .questObjectiveComplete => GRID_MAP_TYPE_MASK_PLAYER

/-- `GetSearcherTypeMaskForCondition`; the default is an assertion that fails. -/
def getSearcherTypeMaskForCondition (cond : Condition) : BitVec 32 :=
  if cond.negativeCondition then gridMapTypeMaskAll
  else
    match cond.kind with
    | some type => cond.typeMask type
    | none => 0

/-- What `isConditionTypeValid` finds of the values of the two conditions about types. -/
def typesValid (cond : Condition) : Bool :=
  match cond.kind with
  | some .objectEntryGuid => cond.conditionValue1 ∈ [3, 5, 4, 7]
  | some .typeMask => BitVec.ofNat 32 cond.conditionValue1 ≠ 0 &&
      BitVec.ofNat 32 cond.conditionValue1 &&&
        ~~~(TYPEMASK_UNIT ||| TYPEMASK_PLAYER ||| TYPEMASK_GAMEOBJECT ||| TYPEMASK_CORPSE) = 0
  | some _ => true
  | none => false

end Condition

end Ashamane.Conditions
