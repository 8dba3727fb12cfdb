import Mathlib.Data.List.AList

/-! Criteria trees and the progress under which they are completed. -/
namespace Ashamane.Achievements

/-- The types that `IsCompletedCriteria` names; it answers no for all others. -/
inductive CriteriaTypes
  | winBg | killCreature | reachLevel | reachGuildLevel | reachSkillLevel | completeQuestCount
  | completeDailyQuestDaily | completeQuestsInZone | damageDone | healingDone | completeDailyQuest
  | fallWithoutDying | beSpellTarget | beSpellTarget2 | castSpell | castSpell2
  | bgObjectiveCapture | honorableKillAtArea | honorableKill | earnHonorableKill | ownItem
  | winRatedArena | highestPersonalRating | useItem | lootItem | buyBankSlot | gainReputation
  | gainExaltedReputation | visitBarberShop | equipEpicItem | rollNeedOnLoot | rollGreedOnLoot
  | hkClass | hkRace | doEmote | equipItem | moneyFromQuestReward | lootMoney | useGameobject
  | specialPvpKill | fishInGameobject | learnSkilllineSpells | winDuel | lootType | learnSkillLine
  | useLfdToGroupWithPlayers | getKillingBlows | currency | placeGarrisonBuilding
  | ownBattlePetCount | appearanceUnlockedBySlot | gainParagonReputation | earnHonorXp
  | relicTalentUnlocked | completeDungeonEncounter | sendEventScenario
  | completeAchievement | completeQuest | learnSpell | exploreArea | recruitGarrisonFollower
  | ownBattlePet | honorLevelReached | prestigeReached | transmogSetUnlocked
  | learnSkillLevel
  | earnAchievementPoints
  | winArena
  | onLogin
  | other
  deriving DecidableEq, Repr

inductive CriteriaTreeOperator
  | single
  | singleNotCompleted
  | all
  | sumChildren
  | maxChild
  | countDirectChildren
  | any
  | sumChildrenWeight
  | other
  deriving DecidableEq, Repr

structure Criteria where
  id : Nat
  type : CriteriaTypes
  startAsset : Int
  startEvent : Nat
  startTimer : Nat
  deriving DecidableEq, Repr

/-- `Amount` is an `int32`. -/
inductive CriteriaTree
  | node (id : Nat) (amount : BitVec 32) (operator : CriteriaTreeOperator)
      (criteria : Option Criteria) (children : List CriteriaTree)

namespace CriteriaTree

def id : CriteriaTree → Nat
  | node id _ _ _ _ => id

def amount : CriteriaTree → BitVec 32
  | node _ amount _ _ _ => amount

def operator : CriteriaTree → CriteriaTreeOperator
  | node _ _ operator _ _ => operator

def criteria : CriteriaTree → Option Criteria
  | node _ _ _ criteria _ => criteria

def children : CriteriaTree → List CriteriaTree
  | node _ _ _ _ children => children

mutual
/-- The nodes in the order of `WalkCriteriaTree`. -/
def walk : CriteriaTree → List CriteriaTree
  | node id amount operator criteria children =>
    walkAll children ++ [node id amount operator criteria children]
def walkAll : List CriteriaTree → List CriteriaTree
  | [] => []
  | tree :: trees => walk tree ++ walkAll trees
end

end CriteriaTree

abbrev CriteriaProgressMap := AList fun _ : Nat => BitVec 64

variable (p : CriteriaProgressMap)

def getCriteriaProgress (criteria : Criteria) : Option (BitVec 64) := p.lookup criteria.id

def isCompletedCriteria (criteria : Criteria) (requiredAmount : BitVec 64) : Bool :=
  match getCriteriaProgress p criteria with
  | none => false
  | some counter =>
    match criteria.type with
    | .winBg | .killCreature | .reachLevel | .reachGuildLevel | .reachSkillLevel
    | .completeQuestCount | .completeDailyQuestDaily | .completeQuestsInZone | .damageDone
    | .healingDone | .completeDailyQuest | .fallWithoutDying | .beSpellTarget | .beSpellTarget2
    | .castSpell | .castSpell2 | .bgObjectiveCapture | .honorableKillAtArea | .honorableKill
    | .earnHonorableKill | .ownItem | .winRatedArena | .highestPersonalRating | .useItem
    | .lootItem | .buyBankSlot | .gainReputation | .gainExaltedReputation | .visitBarberShop
    | .equipEpicItem | .rollNeedOnLoot | .rollGreedOnLoot | .hkClass | .hkRace | .doEmote
    | .equipItem | .moneyFromQuestReward | .lootMoney | .useGameobject | .specialPvpKill
    | .fishInGameobject | .learnSkilllineSpells | .winDuel | .lootType | .learnSkillLine
    | .useLfdToGroupWithPlayers | .getKillingBlows | .currency | .placeGarrisonBuilding
    | .ownBattlePetCount | .appearanceUnlockedBySlot | .gainParagonReputation | .earnHonorXp
    | .relicTalentUnlocked | .completeDungeonEncounter | .sendEventScenario =>
      requiredAmount ≤ counter
    | .completeAchievement | .completeQuest | .learnSpell | .exploreArea
    | .recruitGarrisonFollower | .ownBattlePet | .honorLevelReached | .prestigeReached
    | .transmogSetUnlocked => 1#64 ≤ counter
    | .learnSkillLevel => requiredAmount * 75#64 ≤ counter
    | .earnAchievementPoints => 9000#64 ≤ counter
    | .winArena => requiredAmount != 0 && requiredAmount ≤ counter
    | .onLogin => true
    | .other => false

def counterOf (tree : CriteriaTree) : Option (BitVec 64) :=
  tree.criteria.bind (getCriteriaProgress p)

def sumChildren (nodes : List CriteriaTree) : BitVec 64 :=
  nodes.foldl (fun progress tree => match counterOf p tree with
    | some counter => progress + counter
    | none => progress) 0

def sumChildrenWeight (nodes : List CriteriaTree) : BitVec 64 :=
  nodes.foldl (fun progress tree => match counterOf p tree with
    | some counter => progress + counter * tree.amount.signExtend 64
    | none => progress) 0

def maxChild (nodes : List CriteriaTree) : BitVec 64 :=
  nodes.foldl (fun progress tree => match counterOf p tree with
    | some counter => if progress < counter then counter else progress
    | none => progress) 0

def countUp (requiredCount : BitVec 64) : Nat → List Bool → Bool
  | _, [] => false
  | progress, counts :: rest =>
    if counts then
      if requiredCount.toNat ≤ progress + 1 then true else countUp requiredCount (progress + 1) rest
    else countUp requiredCount progress rest

def hasCounter (tree : CriteriaTree) : Bool :=
  match counterOf p tree with
  | some counter => 1#64 ≤ counter
  | none => false

mutual
/-- `canComplete` is the override of `CanCompleteCriteriaTree`. -/
def isCompletedCriteriaTree (canComplete : CriteriaTree → Bool) : CriteriaTree → Bool
  | .node id amount operator criteria children =>
    if !canComplete (.node id amount operator criteria children) then false
    else
      let requiredCount := amount.signExtend 64
      let nodes := CriteriaTree.walk (.node id amount operator criteria children)
      match operator with
      | .single => match criteria with
        | some criteria => isCompletedCriteria p criteria requiredCount
        | none => false
      | .singleNotCompleted => match criteria with
        | some criteria => !isCompletedCriteria p criteria requiredCount
        | none => true
      | .all => (completedAll canComplete children).all fun completed => completed
      | .sumChildren => requiredCount ≤ sumChildren p nodes
      | .maxChild => requiredCount ≤ maxChild p nodes
      | .countDirectChildren => countUp requiredCount 0 (children.map (hasCounter p))
      | .any => countUp requiredCount 0 (completedAll canComplete children)
      | .sumChildrenWeight => requiredCount ≤ sumChildrenWeight p nodes
      | .other => false
def completedAll (canComplete : CriteriaTree → Bool) : List CriteriaTree → List Bool
  | [] => []
  | tree :: trees => isCompletedCriteriaTree canComplete tree :: completedAll canComplete trees
end

end Ashamane.Achievements
