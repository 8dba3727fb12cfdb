import Ashamane.Lib.Assoc
import Mathlib.Logic.Function.Basic

/-! The quest log of a player and the status of the quests: accepting, crediting, completing,
failing and rewarding, and the item checks that these run into. -/
namespace Ashamane.Quests
open Ashamane.Lib

inductive QuestStatus where
  | none
  | complete
  | incomplete
  | failed
deriving DecidableEq

inductive QuestObjectiveType where
  | monster
  | item
  | gameObject
  | talkTo
  | currency
  | learnSpell
  | minReputation
  | maxReputation
  | money
  | playerKills
  | areaTrigger
  | winPetBattleAgainstNPC
  | defeatBattlePet
  | winPvpPetBattles
  | criteriaTree
  | progressBar
  | haveCurrency
  | obtainCurrency
deriving DecidableEq

structure QuestObjective where
  type : QuestObjectiveType
  storageIndex : Int
  objectID : Nat
  amount : Nat
  optional : Bool
  partOfProgressBar : Bool
deriving DecidableEq

def QuestObjective.isStoringFlag (obj : QuestObjective) : Bool :=
  match obj.type with
  | .areaTrigger => true
  | .winPetBattleAgainstNPC => true
  | .defeatBattlePet => true
  | .criteriaTree => true
  | _ => false

structure Quest where
  objectives : List QuestObjective
  repeatable : Bool
  autoComplete : Bool
  explorationOrEvent : Bool
  timed : Bool
  deliver : Bool
  tracking : Bool
  task : Bool
  canIncreaseRewardedQuestCounters : Bool

abbrev Templates := Nat → Option Quest

structure QuestStatusData where
  status : QuestStatus := .none
  timer : Nat := 0
  objectiveData : List Nat := []
  explored : Bool := false

structure QuestSlot where
  questId : Nat := 0
  state : BitVec 32 := 0
  counters : Nat → Nat := fun _ => 0

def stateComplete : BitVec 32 := 1

def stateFail : BitVec 32 := 2

def maxQuestLogSize : Nat := 25

def maxQuestCounts : Nat := 24

structure Around where
  canTakeQuest : Nat → Bool
  met : QuestObjective → Bool
  getItemCount : Nat → Nat

structure Player where
  questStatus : AList fun _ : Nat => QuestStatusData
  log : Nat → QuestSlot
  rewardedQuests : List Nat

namespace Player

def new : Player := ⟨∅, fun _ => {}, []⟩

/-! The log -/

def findQuestSlot (p : Player) (questId : Nat) : Option Nat :=
  (List.range maxQuestLogSize).find? fun slot => (p.log slot).questId = questId

def getQuestSlotCounter (p : Player) (slot counter : Nat) : Nat :=
  if counter < maxQuestCounts then (p.log slot).counters counter else 0

def modifySlot (p : Player) (slot : Nat) (f : QuestSlot → QuestSlot) : Player :=
  { p with log := Function.update p.log slot (f (p.log slot)) }

def setQuestSlot (p : Player) (slot questId : Nat) : Player :=
  p.modifySlot slot fun _ => { questId := questId }

def setQuestSlotCounter (p : Player) (slot counter count : Nat) : Player :=
  if maxQuestCounts ≤ counter then p
  else p.modifySlot slot fun s =>
    { s with counters := Function.update s.counters counter (count % 65536) }

def setQuestSlotState (p : Player) (slot : Nat) (state : BitVec 32) : Player :=
  p.modifySlot slot fun s => { s with state := s.state ||| state }

def removeQuestSlotState (p : Player) (slot : Nat) (state : BitVec 32) : Player :=
  p.modifySlot slot fun s => { s with state := s.state &&& ~~~state }

/-! The status -/

def status (p : Player) (questId : Nat) : QuestStatus :=
  ((p.questStatus.lookup questId).map (·.status)).getD .none

def setQuestStatus (templates : Templates) (p : Player) (questId : Nat) (status : QuestStatus) :
    Player :=
  match templates questId with
  | none => p
  | some _ =>
    { p with
      questStatus := p.questStatus.insert questId
        { (p.questStatus.lookup questId).getD {} with status := status } }

def removeActiveQuest (p : Player) (questId : Nat) (quest : Quest) : Player :=
  match p.questStatus.lookup questId with
  | none => p
  | some data =>
    if !quest.task ∨ questId ∈ p.rewardedQuests then
      { p with questStatus := p.questStatus.erase questId }
    else
      { p with questStatus := p.questStatus.insert questId { data with status := .none } }

/-! Objectives -/

def getQuestObjectiveData (p : Player) (questId : Nat) (storageIndex : Int) : Nat :=
  if storageIndex < 0 then 0
  else
    ((p.questStatus.lookup questId).bind fun data =>
      data.objectiveData[storageIndex.toNat]?).getD 0

def setQuestObjectiveData (p : Player) (questId : Nat) (obj : QuestObjective) (data : Nat) :
    Player :=
  if obj.storageIndex < 0 then p
  else
    match p.questStatus.lookup questId with
    | none => p
    | some statusData =>
      let index := obj.storageIndex.toNat
      match statusData.objectiveData[index]? with
      | none => p
      | some oldData =>
        if oldData = data then p
        else
          let p := { p with
            questStatus := p.questStatus.insert questId
              { statusData with objectiveData := statusData.objectiveData.set index data } }
          match p.findQuestSlot questId with
          | none => p
          | some slot =>
            if !obj.isStoringFlag then p.setQuestSlotCounter slot index data
            else if data ≠ 0 then p.setQuestSlotState slot (256#32 <<< index)
            else p.removeQuestSlotState slot (256#32 <<< index)

def isQuestObjectiveComplete (around : Around) (p : Player) (questId : Nat)
    (obj : QuestObjective) : Bool :=
  match obj.type with
  | .monster | .item | .gameObject | .playerKills | .talkTo | .winPvpPetBattles | .haveCurrency
  | .obtainCurrency => obj.amount ≤ p.getQuestObjectiveData questId obj.storageIndex
  | .areaTrigger | .criteriaTree => p.getQuestObjectiveData questId obj.storageIndex ≠ 0
  | .winPetBattleAgainstNPC | .defeatBattlePet => false
  | _ => around.met obj

def canCompleteQuest (templates : Templates) (around : Around) (p : Player) (questId : Nat) :
    Bool :=
  if questId = 0 then false
  else
    match templates questId with
    | none => false
    | some quest =>
      if !quest.repeatable ∧ questId ∈ p.rewardedQuests then false
      else if quest.autoComplete ∧ around.canTakeQuest questId then true
      else
        match p.questStatus.lookup questId with
        | none => false
        | some data =>
          decide (data.status = .incomplete) && !(quest.explorationOrEvent && !data.explored) &&
            !(quest.timed && data.timer = 0) && quest.objectives.all fun obj =>
              obj.optional || obj.partOfProgressBar || isQuestObjectiveComplete around p questId obj

/-! Completing and failing -/

/-- `CompleteQuest`, before the rewards that it may lead to. -/
def completed (templates : Templates) (p : Player) (questId : Nat) : Player :=
  let p := p.setQuestStatus templates questId .complete
  match p.findQuestSlot questId with
  | none => p
  | some slot => p.setQuestSlotState slot stateComplete

def incompleteQuest (templates : Templates) (p : Player) (questId : Nat) : Player :=
  if questId = 0 then p
  else
    let p := p.setQuestStatus templates questId .incomplete
    match p.findQuestSlot questId with
    | none => p
    | some slot => p.removeQuestSlotState slot stateComplete

/-- `FailQuest`, before the items of the quest are destroyed. -/
def failed (templates : Templates) (p : Player) (questId : Nat) (quest : Quest) : Player :=
  let p := p.setQuestStatus templates questId .failed
  let p :=
    match p.findQuestSlot questId with
    | none => p
    | some slot => p.setQuestSlotState slot stateFail
  if quest.timed then
    { p with
      questStatus := p.questStatus.insert questId
        { (p.questStatus.lookup questId).getD {} with timer := 0 } }
  else p

/-- `RewardQuest`, after the items are taken and given. -/
def rewarded (p : Player) (questId : Nat) (quest : Quest) : Player :=
  let p :=
    match p.findQuestSlot questId with
    | none => p
    | some slot => p.setQuestSlot slot 0
  let p :=
    if quest.canIncreaseRewardedQuestCounters then
      { p with rewardedQuests := p.rewardedQuests.insert questId }
    else p
  p.removeActiveQuest questId quest

/-! Items -/

/-- The first objective in the log for an item, among the quests with `counts`. -/
def itemObjective (templates : Templates) (p : Player) (counts : Nat → Bool) (entry : Nat) :
    Option (Nat × QuestObjective) :=
  (List.range maxQuestLogSize).findSome? fun slot =>
    let questId := (p.log slot).questId
    if questId = 0 ∨ !counts questId then none
    else
      (templates questId).bind fun quest =>
        if quest.deliver then
          (quest.objectives.find? fun obj => obj.type = .item ∧ obj.objectID = entry).map
            fun obj => (questId, obj)
        else none

/-- The count that `ItemRemovedQuestCheck` comes to; its numbers have 16 bits. -/
def countAfterRemoval (around : Around) (p : Player) (questId : Nat) (obj : QuestObjective)
    (entry count : Nat) : Nat :=
  let cur := p.getQuestObjectiveData questId obj.storageIndex % 65536
  -- we may have more than what the status shows
  let cur := if obj.amount ≤ cur then around.getItemCount entry % 65536 else cur
  cur - count

def itemRemovedQuestCheck (templates : Templates) (around : Around) (p : Player)
    (entry count : Nat) : Player :=
  match p.itemObjective templates (fun _ => true) entry with
  | none => p
  | some (questId, obj) =>
    let newItemCount := p.countAfterRemoval around questId obj entry count
    if newItemCount < obj.amount then
      (p.setQuestObjectiveData questId obj newItemCount).incompleteQuest templates questId
    else p

/-- `ItemAddedQuestCheck`, with the quest for which it then calls `CompleteQuest`. -/
def itemAddedQuestCheck (templates : Templates) (around : Around) (p : Player)
    (entry count : Nat) : Player × Option Nat :=
  match p.itemObjective templates (fun questId => p.status questId = .incomplete) entry with
  | none => (p, none)
  | some (questId, obj) =>
    let cur := p.getQuestObjectiveData questId obj.storageIndex
    let p :=
      if cur < obj.amount then
        p.setQuestObjectiveData questId obj (min (cur + count) obj.amount)
      else p
    (p, if p.canCompleteQuest templates around questId then some questId else none)

/-! Accepting -/

/-- What `CanTakeQuest` and `CanAddQuest` see to in the log: the quest is not there, and a slot is
free. -/
def CanAddQuest (p : Player) (questId slot : Nat) : Prop :=
  p.status questId = .none ∧ p.findQuestSlot 0 = some slot

/-- `AddQuest`, before the source item is given. -/
def accepted (p : Player) (questId : Nat) (quest : Quest) : Player :=
  let data := (p.questStatus.lookup questId).getD {}
  let size := quest.objectives.foldl (fun m obj => max m obj.storageIndex.toNat) 0 + 1
  { p with
    questStatus := p.questStatus.insert questId
      { data with
        status := .incomplete
        explored := false
        objectiveData := (data.objectiveData ++ List.replicate size 0).take size } }

def adjustQuestReqItemCount (getItemCount : Nat → Nat) (p : Player) (questId : Nat)
    (quest : Quest) : Player :=
  if quest.deliver then
    (quest.objectives.filter fun obj => obj.type = .item).foldl
      (fun p obj => p.setQuestObjectiveData questId obj (min (getItemCount obj.objectID) obj.amount))
      p
  else p

/-- `AddQuest`, after the source item is given, with the timer of a timed quest. -/
def logged (getItemCount : Nat → Nat) (p : Player) (questId : Nat) (quest : Quest) (slot timer : Nat) :
    Player :=
  let p := p.adjustQuestReqItemCount getItemCount questId quest
  let p := { p with
    questStatus := p.questStatus.insert questId
      { (p.questStatus.lookup questId).getD {} with timer := if quest.timed then timer else 0 } }
  p.setQuestSlot slot questId

end Player

/-! Calls that run into each other -/

inductive Call where
  | addQuest (questId timer : Nat) (getItemCount : Nat → Nat)
  | setQuestObjectiveData (questId : Nat) (obj : QuestObjective) (data : Nat)
  | completeQuest (questId : Nat)
  | incompleteQuest (questId : Nat)
  | failQuest (questId : Nat)
  | rewardQuest (questId : Nat)
  /-- `HandleQuestLogRemoveQuest` -/
  | removeQuest (slot : Nat)
  /-- Items that come and go. -/
  | items
  /-- The loop at the end of `RewardQuest`, from a slot on. -/
  | criteriaQuests (slot : Nat)

inductive ItemCheck where
  | removed (around : Around) (entry count : Nat)
  | added (around : Around) (entry count : Nat)

/-- `Runs templates ok okItem within call p t`: the call leads from `p` to `t`, within the
accepting, abandoning and rewarding of the quests `within`. All calls in it meet `ok` when they are
made, and all item checks `okItem`. Which items come and go, and how much of them there is, is left
open. -/
inductive Runs (templates : Templates) (ok : List Nat → Player → Call → Prop)
    (okItem : List Nat → Player → ItemCheck → Prop) :
    List Nat → Call → Player → Player → Prop where
  | noItems (within : List Nat) (p : Player) : Runs templates ok okItem within .items p p
  | itemRemoved {within : List Nat} {p t : Player} (around : Around) (entry count : Nat) :
      okItem within p (.removed around entry count) →
      Runs templates ok okItem within .items
        (p.itemRemovedQuestCheck templates around entry count) t →
      Runs templates ok okItem within .items p t
  | itemAdded {within : List Nat} {p t : Player} (around : Around) (entry count : Nat) :
      okItem within p (.added around entry count) →
      (p.itemAddedQuestCheck templates around entry count).2 = none →
      Runs templates ok okItem within .items
        (p.itemAddedQuestCheck templates around entry count).1 t →
      Runs templates ok okItem within .items p t
  | itemCompletes {within : List Nat} {p u t : Player} {questId : Nat} (around : Around)
      (entry count : Nat) :
      okItem within p (.added around entry count) →
      (p.itemAddedQuestCheck templates around entry count).2 = some questId →
      Runs templates ok okItem within (.completeQuest questId)
        (p.itemAddedQuestCheck templates around entry count).1 u →
      Runs templates ok okItem within .items u t →
      Runs templates ok okItem within .items p t
  | completeNothing (within : List Nat) (p : Player) :
      Runs templates ok okItem within (.completeQuest 0) p p
  | complete {within : List Nat} {p : Player} {questId : Nat} :
      ok within p (.completeQuest questId) → questId ≠ 0 →
      (∀ quest, templates questId = some quest → ¬(quest.tracking ∨ quest.task)) →
      Runs templates ok okItem within (.completeQuest questId) p (p.completed templates questId)
  | completeRewards {within : List Nat} {p t : Player} {questId : Nat} {quest : Quest} :
      ok within p (.completeQuest questId) → questId ≠ 0 → templates questId = some quest →
      quest.tracking ∨ quest.task →
      Runs templates ok okItem within (.rewardQuest questId) (p.completed templates questId) t →
      Runs templates ok okItem within (.completeQuest questId) p t
  | reward {within : List Nat} {p u t : Player} {questId : Nat} {quest : Quest} :
      ok within p (.rewardQuest questId) → templates questId = some quest →
      Runs templates ok okItem (questId :: within) .items p u →
      Runs templates ok okItem within (.criteriaQuests 0) (u.rewarded questId quest) t →
      Runs templates ok okItem within (.rewardQuest questId) p t
  | criteriaDone {within : List Nat} (p : Player) (slot : Nat) : maxQuestLogSize ≤ slot →
      Runs templates ok okItem within (.criteriaQuests slot) p p
  | criteriaSkipped {within : List Nat} {p t : Player} {slot : Nat} (around : Around) :
      slot < maxQuestLogSize →
      (∀ quest, templates (p.log slot).questId = some quest →
        (∃ obj ∈ quest.objectives, obj.type = .criteriaTree) →
          p.canCompleteQuest templates around (p.log slot).questId = false) →
      Runs templates ok okItem within (.criteriaQuests (slot + 1)) p t →
      Runs templates ok okItem within (.criteriaQuests slot) p t
  | criteriaCompletes {within : List Nat} {p u t : Player} {slot : Nat} {quest : Quest}
      (around : Around) :
      slot < maxQuestLogSize → templates (p.log slot).questId = some quest →
      (∃ obj ∈ quest.objectives, obj.type = .criteriaTree) →
      p.canCompleteQuest templates around (p.log slot).questId = true →
      Runs templates ok okItem within (.completeQuest (p.log slot).questId) p u →
      Runs templates ok okItem within (.criteriaQuests (slot + 1)) u t →
      Runs templates ok okItem within (.criteriaQuests slot) p t
  | add {within : List Nat} {p u : Player} {questId timer slot : Nat} {quest : Quest}
      {getItemCount : Nat → Nat} :
      ok within p (.addQuest questId timer getItemCount) → questId ≠ 0 →
      templates questId = some quest → p.CanAddQuest questId slot →
      Runs templates ok okItem (questId :: within) .items (p.accepted questId quest) u →
      Runs templates ok okItem within (.addQuest questId timer getItemCount) p
        (u.logged getItemCount questId quest slot timer)
  | credit {within : List Nat} {p : Player} {questId data : Nat} {obj : QuestObjective} :
      ok within p (.setQuestObjectiveData questId obj data) →
      Runs templates ok okItem within (.setQuestObjectiveData questId obj data) p
        (p.setQuestObjectiveData questId obj data)
  | incomplete {within : List Nat} {p : Player} {questId : Nat} :
      ok within p (.incompleteQuest questId) →
      Runs templates ok okItem within (.incompleteQuest questId) p
        (p.incompleteQuest templates questId)
  | failRefused {within : List Nat} {p : Player} {questId : Nat} :
      (∀ quest, templates questId = some quest →
        p.status questId = .complete ∧ quest.timed = false ∨ p.status questId = .none) →
      Runs templates ok okItem within (.failQuest questId) p p
  | fail {within : List Nat} {p t : Player} {questId : Nat} {quest : Quest} :
      ok within p (.failQuest questId) → templates questId = some quest →
      ¬(p.status questId = .complete ∧ quest.timed = false) → p.status questId ≠ .none →
      Runs templates ok okItem within .items (p.failed templates questId quest) t →
      Runs templates ok okItem within (.failQuest questId) p t
  | removeRefused {within : List Nat} {p : Player} {slot : Nat} :
      Runs templates ok okItem within (.removeQuest slot) p p
  | removeEmpty {within : List Nat} {p : Player} {slot : Nat} : slot < maxQuestLogSize →
      (p.log slot).questId = 0 →
      Runs templates ok okItem within (.removeQuest slot) p (p.setQuestSlot slot 0)
  | remove {within : List Nat} {p u : Player} {slot : Nat} {quest : Quest} :
      slot < maxQuestLogSize → (p.log slot).questId ≠ 0 →
      templates (p.log slot).questId = some quest →
      Runs templates ok okItem ((p.log slot).questId :: within) .items p u →
      Runs templates ok okItem within (.removeQuest slot) p
        ((u.removeActiveQuest (p.log slot).questId quest).setQuestSlot slot 0)

end Ashamane.Quests
