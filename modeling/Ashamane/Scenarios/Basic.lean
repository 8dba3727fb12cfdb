import Ashamane.Achievements.Basic
import Mathlib.Data.List.MinMax
import Mathlib.Logic.Function.Basic

/-! A scenario: its steps, the one that is current, and how criteria trees complete them. -/
namespace Ashamane.Scenarios
open Ashamane.Achievements

inductive ScenarioStepState
  | invalid
  | notStarted
  | inProgress
  | done
  deriving DecidableEq, Repr

structure ScenarioStep where
  id : Nat
  scenarioID : Nat
  orderIndex : Nat
  rewardQuestID : Nat
  isBonusObjective : Bool
  deriving DecidableEq, Repr

/-- The steps of a scenario; no two of those that have to be done have one `OrderIndex`. -/
structure ScenarioData where
  entry : Nat
  steps : List ScenarioStep
  distinct : ∀ a ∈ steps, ∀ b ∈ steps, a.isBonusObjective = false → b.isBonusObjective = false →
    a.orderIndex = b.orderIndex → a = b

abbrev PlayerGuid := Nat

structure Scenario where
  currentstep : Option ScenarioStep
  stepStates : ScenarioStep → ScenarioStepState
  criteriaProgress : CriteriaProgressMap
  players : List PlayerGuid
  everCompleted : List ScenarioStep
  completed : List ScenarioStep
  rewards : List (PlayerGuid × ScenarioStep)

structure World where
  data : ScenarioData
  scenarioStep : CriteriaTree → Option ScenarioStep
  hasQuestTemplate : Nat → Bool

def lowestStep (eligible : ScenarioStep → Bool) (steps : List ScenarioStep) :
    Option ScenarioStep :=
  steps.foldl (fun newStep step =>
    if step.isBonusObjective then newStep
    else if !eligible step then newStep
    else match newStep with
      | none => some step
      | some low => if step.orderIndex < low.orderIndex then some step else newStep) none

def ScenarioData.getFirstStep (data : ScenarioData) : Option ScenarioStep :=
  lowestStep (fun _ => true) data.steps

namespace Scenario

def setStepState (step : ScenarioStep) (state : ScenarioStepState) (s : Scenario) : Scenario :=
  { s with stepStates := Function.update s.stepStates step state }

def setStep (step : Option ScenarioStep) (s : Scenario) : Scenario :=
  match step with
  | none => { s with currentstep := none }
  | some step => { s with currentstep := some step }.setStepState step .inProgress

def new (data : ScenarioData) : Scenario :=
  setStep data.getFirstStep
    (data.steps.foldl (fun s step => s.setStepState step .notStarted)
      ⟨none, fun _ => .invalid, ∅, [], [], [], []⟩)

def reset (data : ScenarioData) (s : Scenario) : Scenario :=
  setStep data.getFirstStep
    { s with
      criteriaProgress := ∅
      completed := []
      rewards := [] }

def isComplete (data : ScenarioData) (s : Scenario) : Bool :=
  data.steps.all fun step => step.isBonusObjective || s.stepStates step = .done

def completeStep (world : World) (online : PlayerGuid → Bool) (step : ScenarioStep)
    (s : Scenario) : Scenario :=
  let s := if world.hasQuestTemplate step.rewardQuestID then
      { s with rewards := s.rewards ++ (s.players.filter online).map fun guid => (guid, step) }
    else s
  if step.isBonusObjective then s
  else setStep (lowestStep (fun other => s.stepStates other ≠ .done) world.data.steps) s

def canCompleteCriteriaTree (world : World) (s : Scenario) (tree : CriteriaTree) : Bool :=
  match world.scenarioStep tree with
  | none => false
  | some step =>
    if step.scenarioID ≠ world.data.entry then false
    else if step.isBonusObjective then !s.isComplete world.data
    else s.currentstep = some step

def completedCriteriaTree (world : World) (online : PlayerGuid → Bool) (tree : CriteriaTree)
    (s : Scenario) : Scenario :=
  match world.scenarioStep tree with
  | none => s
  | some step =>
    if !step.isBonusObjective && s.currentstep ≠ some step then s
    else if s.stepStates step = .done then s
    else
      { s with
        everCompleted := s.everCompleted ++ [step]
        completed := s.completed ++ [step] }.setStepState step .done
      |>.completeStep world online step

/-- The end of `UpdateCriteria`. -/
def updateTree (world : World) (online : PlayerGuid → Bool) (s : Scenario) (tree : CriteriaTree) :
    Scenario :=
  if isCompletedCriteriaTree s.criteriaProgress (s.canCompleteCriteriaTree world) tree then
    s.completedCriteriaTree world online tree
  else s

end Scenario

inductive Op
  /-- `UpdateCriteria` for a criterion of these trees, which leaves this progress. -/
  | updateCriteria (progress : CriteriaProgressMap) (trees : List CriteriaTree)
      (online : PlayerGuid → Bool)
  | reset
  | playerEnter (guid : PlayerGuid)
  | playerExit (guid : PlayerGuid)

def step (world : World) (s : Scenario) : Op → Scenario
  | .updateCriteria progress trees online =>
    trees.foldl (fun s tree => s.updateTree world online tree)
      { s with criteriaProgress := progress }
  | .reset => s.reset world.data
  | .playerEnter guid => { s with players := s.players.insert guid }
  | .playerExit guid => { s with players := s.players.erase guid }

section Lowest
variable {eligible : ScenarioStep → Bool} {data : ScenarioData} {step : ScenarioStep}

theorem lowestStep_eq_argmin (eligible : ScenarioStep → Bool) (steps : List ScenarioStep) :
    lowestStep eligible steps =
      (steps.filter fun step => !step.isBonusObjective && eligible step).argmin
        ScenarioStep.orderIndex := by
  unfold lowestStep List.argmin
  rw [List.foldl_filter]
  congr 1
  funext newStep step
  cases step.isBonusObjective with
  | true => rfl
  | false =>
    cases eligible step with
    | false => rfl
    | true => cases newStep <;> rfl

theorem mem_eligible {steps : List ScenarioStep} :
    step ∈ steps.filter (fun step => !step.isBonusObjective && eligible step) ↔
      step ∈ steps ∧ step.isBonusObjective = false ∧ eligible step = true := by
  simp

theorem lowestStep_eq_none :
    lowestStep eligible data.steps = none ↔
      ∀ step ∈ data.steps, step.isBonusObjective = false → eligible step = false := by
  rw [lowestStep_eq_argmin, List.argmin_eq_none, List.filter_eq_nil_iff]
  simp

theorem lowestStep_eq_some (h : lowestStep eligible data.steps = some step) :
    step ∈ data.steps ∧ step.isBonusObjective = false ∧ eligible step = true ∧
      ∀ other ∈ data.steps, other.isBonusObjective = false → eligible other = true →
        other ≠ step → step.orderIndex < other.orderIndex := by
  rw [lowestStep_eq_argmin] at h
  obtain ⟨hmem, hplain, heligible⟩ := mem_eligible.mp (List.argmin_mem h)
  refine ⟨hmem, hplain, heligible, fun other hother hotherPlain hotherEligible hne => ?_⟩
  have hle : step.orderIndex ≤ other.orderIndex :=
    List.le_of_mem_argmin (mem_eligible.mpr ⟨hother, hotherPlain, hotherEligible⟩) h
  refine lt_of_le_of_ne hle fun heq => hne ?_
  exact data.distinct _ hother _ hmem hotherPlain hplain heq.symm

end Lowest

end Ashamane.Scenarios
