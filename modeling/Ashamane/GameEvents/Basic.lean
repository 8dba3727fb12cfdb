import Ashamane.Lib.Run
import Mathlib.Data.List.Basic
import Mathlib.Logic.Function.Basic

/-! Game events: the quests that they give to creatures and game objects, and the models and
equipment that they give to creatures, while they are active. -/
namespace Ashamane.GameEvents

def insertRelation (relation : Nat × Nat) : List (Nat × Nat) → List (Nat × Nat)
  | [] => [relation]
  | r :: rest => if relation.1 < r.1 then relation :: r :: rest else r :: insertRelation relation rest

structure CreatureData where
  displayid : Nat
  equipmentId : BitVec 8
  deriving DecidableEq, Repr

structure ModelEquip where
  modelid : Nat
  modelidPrev : Nat
  equipmentId : BitVec 8
  equipementIdPrev : BitVec 8
  deriving DecidableEq, Repr

structure GameEventMgr where
  gameEventCreatureQuests : Nat → List (Nat × Nat)
  gameEventGameObjectQuests : Nat → List (Nat × Nat)
  gameEventModelEquip : Nat → List (Nat × ModelEquip)
  activeEvents : List Nat := []
  creatureQuestRelations : List (Nat × Nat)
  goQuestRelations : List (Nat × Nat)
  creatureData : Nat → Option CreatureData

/-- `hasCreatureQuestActiveEventExcept` and its counterpart for game objects, with the quests of
the events. -/
def hasQuestActiveEventExcept (quests : Nat → List (Nat × Nat)) (active : List Nat)
    (questId eventId : Nat) : Bool :=
  active.any fun e => e != eventId && (quests e).any fun r => r.2 == questId

/-- One of the two loops of `UpdateEventQuests`. The erased entry is the first of its giver that
has the quest. -/
def updateQuests (quests : Nat → List (Nat × Nat)) (active : List Nat) (eventId : Nat)
    (activate : Bool) (relations : List (Nat × Nat)) : List (Nat × Nat) :=
  (quests eventId).foldl (fun relations r =>
    if activate then insertRelation r relations
    else if hasQuestActiveEventExcept quests active r.2 eventId then relations
    else relations.erase r) relations

/-- The loop of `ChangeEquipOrModel`, without the creatures that are spawned now: an entry keeps
the values that it replaces. -/
def changeEquipOrModel (activate : Bool) : List (Nat × ModelEquip) → (Nat → Option CreatureData) →
    List (Nat × ModelEquip) × (Nat → Option CreatureData)
  | [], data => ([], data)
  | (guid, entry) :: rest, data =>
    match data guid with
    | none =>
      let (rest, data) := changeEquipOrModel activate rest data
      ((guid, entry) :: rest, data)
    | some old =>
      if activate then
        let (rest, data) := changeEquipOrModel activate rest
          (Function.update data guid (some ⟨entry.modelid, entry.equipmentId⟩))
        ((guid, { entry with
          modelidPrev := old.displayid, equipementIdPrev := old.equipmentId }) :: rest, data)
      else
        let (rest, data) := changeEquipOrModel activate rest
          (Function.update data guid (some ⟨entry.modelidPrev, entry.equipementIdPrev⟩))
        ((guid, entry) :: rest, data)

namespace GameEventMgr

/-- What `ApplyNewEvent` and `UnApplyEvent` do to the creature data and to the relations. -/
def applyEvent (s : GameEventMgr) (eventId : Nat) (activate : Bool) : GameEventMgr :=
  let changed := changeEquipOrModel activate (s.gameEventModelEquip eventId) s.creatureData
  { s with
    gameEventModelEquip := Function.update s.gameEventModelEquip eventId changed.1
    creatureData := changed.2
    creatureQuestRelations := updateQuests s.gameEventCreatureQuests s.activeEvents eventId activate
      s.creatureQuestRelations
    goQuestRelations := updateQuests s.gameEventGameObjectQuests s.activeEvents eventId activate
      s.goQuestRelations }

def startEvent (s : GameEventMgr) (eventId : Nat) : GameEventMgr :=
  { s with activeEvents := eventId :: s.activeEvents }.applyEvent eventId true

def stopEvent (s : GameEventMgr) (eventId : Nat) : GameEventMgr :=
  { s with activeEvents := s.activeEvents.erase eventId }.applyEvent eventId false

end GameEventMgr

inductive Act where
  | start (eventId : Nat)
  | stop (eventId : Nat)
  deriving DecidableEq, Repr

namespace GameEventMgr

/-- Only inactive events are started, and only active ones are stopped. -/
def step (s : GameEventMgr) : Act → Option GameEventMgr
  | .start eventId => if eventId ∈ s.activeEvents then none else some (s.startEvent eventId)
  | .stop eventId => if eventId ∈ s.activeEvents then some (s.stopEvent eventId) else none

end GameEventMgr

end Ashamane.GameEvents
