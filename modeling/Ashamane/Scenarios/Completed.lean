import Ashamane.Scenarios.Basic

/-! The steps of a scenario are completed in their order, and what a reset leaves of them. -/
namespace Ashamane.Scenarios
open Ashamane.Achievements

def initialState (data : ScenarioData) (step : ScenarioStep) : ScenarioStepState :=
  if step ∈ data.steps then .notStarted else .invalid

def OnlyFirst (data : ScenarioData) (everCompleted : List ScenarioStep) : Prop :=
  (∀ step ∈ everCompleted, data.getFirstStep = some step) ∧
    (everCompleted ≠ [] → ∀ other ∈ data.steps, other.isBonusObjective = false →
      data.getFirstStep = some other)

structure Recorded (data : ScenarioData) (s : Scenario) : Prop where
  done : ∀ step ∈ s.completed, s.stepStates step = .done
  players : s.players.Nodup
  rewards : s.rewards.Nodup
  rewarded : ∀ reward ∈ s.rewards, reward.2 ∈ s.completed
  everDone : ∀ step ∈ s.everCompleted, data.getFirstStep ≠ some step → s.stepStates step = .done

structure Kept (data : ScenarioData) (s : Scenario) : Prop extends Recorded data s where
  current : s.currentstep = lowestStep (fun step => s.stepStates step ≠ .done) data.steps
  below : ∀ step ∈ s.completed, step.isBonusObjective = false → ∀ other ∈ data.steps,
    other.isBonusObjective = false → s.stepStates other ≠ .done →
      step.orderIndex < other.orderIndex
  sorted : (s.completed.filter fun step => !step.isBonusObjective).Pairwise
    fun a b => a.orderIndex < b.orderIndex
  started : ∀ first ∈ s.everCompleted, data.getFirstStep = some first → ∀ other ∈ data.steps,
    other.isBonusObjective = false → other ≠ first →
      ∃ later ∈ data.steps, later ≠ first ∧ s.stepStates later ≠ .notStarted
  untouched : OnlyFirst data s.everCompleted → ∀ step, data.getFirstStep ≠ some step →
    s.stepStates step = initialState data step

section Steps
variable {data : ScenarioData} {s : Scenario} {step : ScenarioStep}

theorem lowestStep_congr {eligible eligible' : ScenarioStep → Bool} {steps : List ScenarioStep}
    (h : ∀ step ∈ steps, step.isBonusObjective = false → eligible step = eligible' step) :
    lowestStep eligible steps = lowestStep eligible' steps := by
  rw [lowestStep_eq_argmin, lowestStep_eq_argmin]
  congr 1
  refine List.filter_congr fun step hstep => ?_
  cases hbonus : step.isBonusObjective with
  | true => rfl
  | false => rw [h step hstep hbonus]

theorem lowestStep_eq_first {eligible : ScenarioStep → Bool}
    (h : ∀ first, data.getFirstStep = some first → eligible first = true) :
    lowestStep eligible data.steps = data.getFirstStep := by
  cases hfirst : data.getFirstStep with
  | none =>
    refine lowestStep_eq_none.mpr fun step hstep hplain => ?_
    cases lowestStep_eq_none.mp hfirst step hstep hplain
  | some first =>
    obtain ⟨hmem, hplain, -, hlowest⟩ := lowestStep_eq_some hfirst
    cases hlow : lowestStep eligible data.steps with
    | none =>
      have hno := lowestStep_eq_none.mp hlow first hmem hplain
      rw [h first hfirst] at hno
      cases hno
    | some low =>
      obtain ⟨hlowMem, hlowPlain, -, hleast⟩ := lowestStep_eq_some hlow
      by_contra hne
      have hne : low ≠ first := fun heq => hne (congrArg some heq)
      have hlt := hlowest low hlowMem hlowPlain rfl hne
      have hgt := hleast first hmem hplain (h first hfirst) hne.symm
      omega

theorem getFirstStep_plain (h : data.getFirstStep = some step) :
    step ∈ data.steps ∧ step.isBonusObjective = false :=
  ⟨(lowestStep_eq_some h).1, (lowestStep_eq_some h).2.1⟩

namespace Scenario

theorem stepStates_setStep (new : Option ScenarioStep) (s : Scenario) (x : ScenarioStep) :
    (s.setStep new).stepStates x = if new = some x then .inProgress else s.stepStates x := by
  cases new with
  | none => rfl
  | some step =>
    by_cases hx : x = step
    · subst hx
      rw [if_pos rfl]
      exact Function.update_self ..
    · rw [if_neg fun h => hx (Option.some.inj h).symm]
      exact Function.update_of_ne hx ..

@[simp] theorem currentstep_setStep (new : Option ScenarioStep) (s : Scenario) :
    (s.setStep new).currentstep = new := by cases new <;> rfl
@[simp] theorem players_setStep (new : Option ScenarioStep) (s : Scenario) :
    (s.setStep new).players = s.players := by cases new <;> rfl
@[simp] theorem rewards_setStep (new : Option ScenarioStep) (s : Scenario) :
    (s.setStep new).rewards = s.rewards := by cases new <;> rfl
@[simp] theorem completed_setStep (new : Option ScenarioStep) (s : Scenario) :
    (s.setStep new).completed = s.completed := by cases new <;> rfl
@[simp] theorem everCompleted_setStep (new : Option ScenarioStep) (s : Scenario) :
    (s.setStep new).everCompleted = s.everCompleted := by cases new <;> rfl
theorem foldl_setStepState (steps : List ScenarioStep) (s : Scenario) :
    steps.foldl (fun s step => s.setStepState step .notStarted) s =
      { s with stepStates := fun x => if x ∈ steps then .notStarted else s.stepStates x } := by
  induction steps generalizing s with
  | nil => simp
  | cons step steps ih =>
    rw [List.foldl_cons, ih]
    simp only [setStepState, Scenario.mk.injEq, and_self, and_true, true_and]
    funext x
    by_cases hx : x = step
    · subst hx
      simp
    · simp [hx]

theorem new_eq (data : ScenarioData) :
    new data = setStep data.getFirstStep ⟨none, initialState data, ∅, [], [], [], []⟩ := by
  unfold new
  rw [foldl_setStepState]
  rfl

end Scenario

open Scenario

theorem current_setStep {new : Option ScenarioStep}
    (hnew : new = lowestStep (fun step => s.stepStates step ≠ .done) data.steps) :
    new = lowestStep (fun step => (s.setStep new).stepStates step ≠ .done) data.steps := by
  refine hnew.trans (lowestStep_congr fun step _ _ => ?_)
  rw [stepStates_setStep]
  split_ifs with hstep
  · rw [hnew] at hstep
    obtain ⟨-, -, hopen, -⟩ := lowestStep_eq_some hstep
    simpa using hopen
  · rfl

theorem done_setStep {new : Option ScenarioStep}
    (hnew : new = lowestStep (fun step => s.stepStates step ≠ .done) data.steps)
    (x : ScenarioStep) : (s.setStep new).stepStates x = .done ↔ s.stepStates x = .done := by
  rw [stepStates_setStep]
  split_ifs with hx
  · rw [hnew] at hx
    obtain ⟨-, -, hopen, -⟩ := lowestStep_eq_some hx
    simpa using hopen
  · exact Iff.rfl

theorem kept_new (data : ScenarioData) : Kept data (new data) := by
  rw [new_eq]
  have hinitial : ∀ x, initialState data x ≠ .done := by
    intro x
    unfold initialState
    split_ifs <;> exact nofun
  have hstates : ∀ x, (setStep data.getFirstStep
      ⟨none, initialState data, ∅, [], [], [], []⟩).stepStates x ≠ .done := by
    intro x
    rw [stepStates_setStep]
    split_ifs
    · exact nofun
    · exact hinitial x
  refine ⟨⟨?_, ?_, ?_, ?_, ?_⟩, ?_, ?_, ?_, ?_, ?_⟩
  · simp
  · simp
  · simp
  · simp
  · simp
  · rw [currentstep_setStep]
    exact (lowestStep_eq_first fun first _ => decide_eq_true (hstates first)).symm
  · simp
  · simp
  · simp
  · intro _ x hx
    rw [stepStates_setStep, if_neg hx]

namespace Kept

theorem setCriteriaProgress (h : Kept data s) (progress : CriteriaProgressMap) :
    Kept data { s with criteriaProgress := progress } :=
  ⟨⟨h.done, h.players, h.rewards, h.rewarded, h.everDone⟩, h.current, h.below, h.sorted,
    h.started, h.untouched⟩

theorem setPlayers (h : Kept data s) {players : List PlayerGuid} (hplayers : players.Nodup) :
    Kept data { s with players := players } :=
  ⟨⟨h.done, hplayers, h.rewards, h.rewarded, h.everDone⟩, h.current, h.below, h.sorted,
    h.started, h.untouched⟩

/-- A reset makes the first step the current one again and leaves the other states. -/
theorem reset (h : Kept data s) : Kept data (s.reset data) := by
  unfold Scenario.reset
  refine ⟨⟨?_, ?_, ?_, ?_, ?_⟩, ?_, ?_, ?_, ?_, ?_⟩
  · simp
  · simpa using h.players
  · simp
  · simp
  · intro step hstep hne
    rw [stepStates_setStep, if_neg hne]
    exact h.everDone step (by simpa using hstep) hne
  · rw [currentstep_setStep]
    refine (lowestStep_eq_first fun first hfirst => ?_).symm
    rw [stepStates_setStep, if_pos hfirst]
    rfl
  · simp
  · simp
  · intro first hever hfirst other hother hplain hne
    obtain ⟨later, hlater, hlaterNe, hstarted⟩ :=
      h.started first (by simpa using hever) hfirst other hother hplain hne
    refine ⟨later, hlater, hlaterNe, ?_⟩
    rw [stepStates_setStep, if_neg fun heq => hlaterNe (Option.some.inj (heq.symm.trans hfirst))]
    exact hstarted
  · intro honly step hne
    rw [stepStates_setStep, if_neg hne]
    exact h.untouched (by simpa using honly) step hne

end Kept

/-- What `CompleteStep` gives to the players for a step. -/
def givenRewards (world : World) (online : PlayerGuid → Bool) (step : ScenarioStep)
    (s : Scenario) : List (PlayerGuid × ScenarioStep) :=
  if world.hasQuestTemplate step.rewardQuestID then
    (s.players.filter online).map fun guid => (guid, step)
  else []

def withDone (world : World) (online : PlayerGuid → Bool) (step : ScenarioStep) (s : Scenario) :
    Scenario :=
  { s with
    stepStates := Function.update s.stepStates step .done
    everCompleted := s.everCompleted ++ [step]
    completed := s.completed ++ [step]
    rewards := s.rewards ++ givenRewards world online step s }

/-- What a completed criteria tree does: nothing, a bonus, or the current step. -/
theorem completedCriteriaTree_cases (world : World) (online : PlayerGuid → Bool)
    (tree : CriteriaTree) (s : Scenario) :
    s.completedCriteriaTree world online tree = s ∨
      ∃ step, s.stepStates step ≠ .done ∧
        (step.isBonusObjective = true ∧
            s.completedCriteriaTree world online tree = withDone world online step s ∨
          step.isBonusObjective = false ∧ s.currentstep = some step ∧
            s.completedCriteriaTree world online tree =
              (withDone world online step s).setStep (lowestStep
                (fun other => (withDone world online step s).stepStates other ≠ .done)
                world.data.steps)) := by
  unfold completedCriteriaTree
  cases world.scenarioStep tree with
  | none => exact .inl rfl
  | some step =>
    dsimp only
    split_ifs with hskip hdone
    · exact .inl rfl
    · exact .inl rfl
    · refine .inr ⟨step, hdone, ?_⟩
      have hafter : (if world.hasQuestTemplate step.rewardQuestID then
          { { s with
                everCompleted := s.everCompleted ++ [step]
                completed := s.completed ++ [step] }.setStepState step .done with
            rewards := s.rewards ++ (s.players.filter online).map fun guid => (guid, step) }
          else { s with
                everCompleted := s.everCompleted ++ [step]
                completed := s.completed ++ [step] }.setStepState step .done) =
          withDone world online step s := by
        unfold withDone givenRewards setStepState
        split_ifs
        · rfl
        · rw [List.append_nil]
      cases hbonus : step.isBonusObjective with
      | true =>
        refine .inl ⟨rfl, ?_⟩
        unfold completeStep
        rw [if_pos hbonus]
        exact hafter
      | false =>
        refine .inr ⟨rfl, ?_, ?_⟩
        · simpa [hbonus] using hskip
        · unfold completeStep
          rw [if_neg (by simp [hbonus])]
          rw [← hafter]
          rfl

theorem stepStates_withDone (world : World) (online : PlayerGuid → Bool) (step x : ScenarioStep)
    (s : Scenario) : (withDone world online step s).stepStates x =
      if x = step then .done else s.stepStates x :=
  Function.update_apply ..

theorem open_withDone {world : World} {online : PlayerGuid → Bool} {step x : ScenarioStep}
    (hopen : (withDone world online step s).stepStates x ≠ .done) :
    x ≠ step ∧ s.stepStates x ≠ .done := by
  rw [stepStates_withDone] at hopen
  split_ifs at hopen with hx
  · exact absurd rfl hopen
  · exact ⟨hx, hopen⟩

theorem Recorded.withDone (h : Recorded data s) {world : World} (online : PlayerGuid → Bool)
    (hopen : s.stepStates step ≠ .done) :
    Recorded data (Scenarios.withDone world online step s) where
  done := by
    intro x hx
    rw [stepStates_withDone]
    split_ifs with heq
    · rfl
    · obtain hx | hx := List.mem_append.mp hx
      · exact h.done x hx
      · exact absurd (List.mem_singleton.mp hx) heq
  players := h.players
  rewards := by
    refine h.rewards.append ?_ ?_
    · unfold givenRewards
      split_ifs
      · exact (h.players.filter _).map fun _ _ heq => (Prod.mk.inj heq).1
      · exact List.nodup_nil
    · intro reward hold hnew
      have hstep : reward.2 = step := by
        unfold givenRewards at hnew
        split_ifs at hnew
        · obtain ⟨_, -, rfl⟩ := List.mem_map.mp hnew
          rfl
        · cases hnew
      exact hopen (hstep ▸ h.done _ (h.rewarded reward hold))
  rewarded := by
    intro reward hreward
    obtain hold | hnew := List.mem_append.mp hreward
    · exact List.mem_append_left _ (h.rewarded reward hold)
    · unfold givenRewards at hnew
      split_ifs at hnew
      · obtain ⟨_, -, rfl⟩ := List.mem_map.mp hnew
        exact List.mem_append_right _ List.mem_cons_self
      · cases hnew
  everDone := by
    intro x hx hne
    rw [stepStates_withDone]
    split_ifs with heq
    · rfl
    · obtain hx | hx := List.mem_append.mp hx
      · exact h.everDone x hx hne
      · exact absurd (List.mem_singleton.mp hx) heq

theorem Recorded.setStep (h : Recorded data s) {new : Option ScenarioStep}
    (hnew : new = lowestStep (fun step => s.stepStates step ≠ .done) data.steps) :
    Recorded data (s.setStep new) where
  done := by
    intro x hx
    exact (done_setStep hnew x).mpr (h.done x (by simpa using hx))
  players := by simpa using h.players
  rewards := by simpa using h.rewards
  rewarded := by simpa using h.rewarded
  everDone := by
    intro x hx hne
    exact (done_setStep hnew x).mpr (h.everDone x (by simpa using hx) hne)

theorem OnlyFirst.of_append {earlier later : List ScenarioStep}
    (h : OnlyFirst data (earlier ++ later)) : OnlyFirst data earlier := by
  refine ⟨fun x hx => h.1 x (List.mem_append_left _ hx), fun hne => h.2 fun hnil => hne ?_⟩
  exact (List.append_eq_nil_iff.mp hnil).1

theorem started_withDone {world : World} {online : PlayerGuid → Bool} {step x : ScenarioStep}
    (h : s.stepStates x ≠ .notStarted) :
    (withDone world online step s).stepStates x ≠ .notStarted := by
  rw [stepStates_withDone]
  split_ifs
  · exact nofun
  · exact h

theorem started_setStep {new : Option ScenarioStep} {x : ScenarioStep}
    (h : s.stepStates x ≠ .notStarted) : (s.setStep new).stepStates x ≠ .notStarted := by
  rw [stepStates_setStep]
  split_ifs
  · exact nofun
  · exact h

namespace Kept
variable {world : World} {online : PlayerGuid → Bool}

theorem bonus (h : Kept data s) (hopen : s.stepStates step ≠ .done)
    (hbonus : step.isBonusObjective = true) : Kept data (withDone world online step s) where
  toRecorded := h.toRecorded.withDone online hopen
  current := by
    refine h.current.trans (lowestStep_congr fun other _ hplain => ?_)
    have hne : other ≠ step := fun heq => by
      rw [heq, hbonus] at hplain
      cases hplain
    rw [stepStates_withDone, if_neg hne]
  below := by
    intro x hx hplain other hother hotherPlain hotherOpen
    obtain hx | hx := List.mem_append.mp hx
    · exact h.below x hx hplain other hother hotherPlain (open_withDone hotherOpen).2
    · rw [List.mem_singleton.mp hx, hbonus] at hplain
      cases hplain
  sorted := by
    have hfilter : ((s.completed ++ [step]).filter fun step => !step.isBonusObjective) =
        s.completed.filter fun step => !step.isBonusObjective := by
      simp [List.filter_append, hbonus]
    exact hfilter ▸ h.sorted
  started := by
    intro first hever hfirst other hother hplain hne
    obtain hever | hever := List.mem_append.mp hever
    · obtain ⟨later, hlater, hlaterNe, hstarted⟩ :=
        h.started first hever hfirst other hother hplain hne
      exact ⟨later, hlater, hlaterNe, started_withDone hstarted⟩
    · have hfirstPlain := (getFirstStep_plain hfirst).2
      rw [List.mem_singleton.mp hever, hbonus] at hfirstPlain
      cases hfirstPlain
  untouched := by
    intro honly
    have hfirst := honly.1 step (List.mem_append_right _ List.mem_cons_self)
    have hfirstPlain := (getFirstStep_plain hfirst).2
    rw [hbonus] at hfirstPlain
    cases hfirstPlain

/-- The current step is done and the lowest that is not is begun. -/
theorem plain (h : Kept world.data s) (hopen : s.stepStates step ≠ .done)
    (hplain : step.isBonusObjective = false) (hcurrent : s.currentstep = some step) :
    Kept world.data ((withDone world online step s).setStep (lowestStep
      (fun other => (withDone world online step s).stepStates other ≠ .done)
      world.data.steps)) where
  toRecorded := (h.toRecorded.withDone online hopen).setStep rfl
  current := by
    rw [currentstep_setStep]
    exact current_setStep rfl
  below := by
    intro x hx hxPlain other hother hotherPlain hotherOpen
    rw [Ne, done_setStep rfl] at hotherOpen
    obtain ⟨hne, hotherOpen⟩ := open_withDone hotherOpen
    rw [completed_setStep] at hx
    obtain hx | hx := List.mem_append.mp hx
    · exact h.below x hx hxPlain other hother hotherPlain hotherOpen
    · rw [List.mem_singleton.mp hx]
      obtain ⟨-, -, -, hlowest⟩ := lowestStep_eq_some (h.current.symm.trans hcurrent)
      exact hlowest other hother hotherPlain (decide_eq_true hotherOpen) hne
  sorted := by
    rw [completed_setStep]
    have hfilter : ((s.completed ++ [step]).filter fun step => !step.isBonusObjective) =
        (s.completed.filter fun step => !step.isBonusObjective) ++ [step] := by
      simp [List.filter_append, hplain]
    refine hfilter ▸ List.pairwise_append.mpr ⟨h.sorted, List.pairwise_singleton _ _, ?_⟩
    intro x hx y hy
    rw [List.mem_singleton.mp hy]
    obtain ⟨hx, hxPlain⟩ := List.mem_filter.mp hx
    obtain ⟨hmem, -, -, -⟩ := lowestStep_eq_some (h.current.symm.trans hcurrent)
    exact h.below x hx (by simpa using hxPlain) step hmem hplain hopen
  started := by
    intro first hever hfirst other hother hotherPlain hne
    rw [everCompleted_setStep] at hever
    obtain hever | hever := List.mem_append.mp hever
    · obtain ⟨later, hlater, hlaterNe, hstarted⟩ :=
        h.started first hever hfirst other hother hotherPlain hne
      exact ⟨later, hlater, hlaterNe, started_setStep (started_withDone hstarted)⟩
    · obtain rfl := List.mem_singleton.mp hever
      cases hlow : lowestStep (fun other => (withDone world online first s).stepStates other ≠
          .done) world.data.steps with
      | none =>
        have hdone := lowestStep_eq_none.mp hlow other hother hotherPlain
        refine ⟨other, hother, hne, started_setStep ?_⟩
        rw [of_not_not (of_decide_eq_false hdone)]
        exact nofun
      | some low =>
        obtain ⟨hlowMem, -, hlowOpen, -⟩ := lowestStep_eq_some hlow
        refine ⟨low, hlowMem, (open_withDone (of_decide_eq_true hlowOpen)).1, ?_⟩
        rw [stepStates_setStep, if_pos rfl]
        exact nofun
  untouched := by
    intro honly x hx
    rw [everCompleted_setStep] at honly
    have honly : OnlyFirst world.data (s.everCompleted ++ [step]) := honly
    have hfirst := honly.1 step (List.mem_append_right _ List.mem_cons_self)
    have hnone : lowestStep (fun other => (withDone world online step s).stepStates other ≠
        .done) world.data.steps = none := by
      refine lowestStep_eq_none.mpr fun other hother hotherPlain => ?_
      have hother := honly.2 (by simp) other hother hotherPlain
      obtain rfl := Option.some.inj (hfirst.symm.trans hother)
      rw [stepStates_withDone, if_pos rfl]
      rfl
    have hne : x ≠ step := fun heq => hx (hfirst.trans (congrArg some heq.symm))
    rw [hnone, stepStates_setStep, if_neg nofun, stepStates_withDone, if_neg hne]
    exact h.untouched honly.of_append x hx

theorem updateTree (h : Kept world.data s) (tree : CriteriaTree) :
    Kept world.data (s.updateTree world online tree) := by
  unfold Scenario.updateTree
  split_ifs
  · obtain hsame | ⟨step, hopen, ⟨hbonus, hafter⟩ | ⟨hplain, hcurrent, hafter⟩⟩ :=
      completedCriteriaTree_cases world online tree s
    · rw [hsame]
      exact h
    · rw [hafter]
      exact h.bonus hopen hbonus
    · rw [hafter]
      exact h.plain hopen hplain hcurrent
  · exact h

theorem next (h : Kept world.data s) (op : Op) : Kept world.data (Scenarios.step world s op) := by
  cases op with
  | updateCriteria progress trees online =>
    exact List.foldlRecOn trees _ (h.setCriteriaProgress progress) fun _ h tree _ =>
      h.updateTree tree
  | reset => exact h.reset
  | playerEnter guid => exact h.setPlayers (h.players.insert)
  | playerExit guid => exact h.setPlayers (h.players.erase guid)

end Kept

structure InOrder (data : ScenarioData) (s : Scenario) : Prop where
  current_none : s.currentstep = none ↔ s.isComplete data = true
  current_some : ∀ step, s.currentstep = some step →
    step ∈ data.steps ∧ step.isBonusObjective = false ∧ s.stepStates step ≠ .done ∧
      ∀ other ∈ data.steps, other.isBonusObjective = false → s.stepStates other ≠ .done →
        other ≠ step → step.orderIndex < other.orderIndex
  sorted : (s.completed.filter fun step => !step.isBonusObjective).Pairwise
    fun a b => a.orderIndex < b.orderIndex
  once : s.rewards.Nodup

theorem Kept.inOrder (h : Kept data s) : InOrder data s where
  current_none := by
    rw [h.current, lowestStep_eq_none, isComplete, List.all_eq_true]
    refine forall_congr' fun step => forall_congr' fun _ => ?_
    cases step.isBonusObjective <;> simp
  current_some := by
    intro step hstep
    obtain ⟨hmem, hplain, hopen, hlowest⟩ := lowestStep_eq_some (h.current.symm.trans hstep)
    refine ⟨hmem, hplain, of_decide_eq_true hopen, fun other hother hotherPlain hotherOpen => ?_⟩
    exact hlowest other hother hotherPlain (decide_eq_true hotherOpen)
  sorted := h.sorted
  once := h.rewards

/-- A reset restores the states of a new scenario exactly if nothing but a first step that
stands alone was ever completed. -/
theorem Kept.reset_iff (h : Kept data s) :
    (s.reset data).stepStates = (new data).stepStates ↔ OnlyFirst data s.everCompleted := by
  have hnew : ∀ x, (new data).stepStates x =
      if data.getFirstStep = some x then .inProgress else initialState data x := by
    intro x
    rw [new_eq, stepStates_setStep]
  have hreset : ∀ x, (s.reset data).stepStates x =
      if data.getFirstStep = some x then .inProgress else s.stepStates x :=
    fun x => stepStates_setStep _ _ x
  constructor
  · intro heq
    have hsame : ∀ x, data.getFirstStep ≠ some x → s.stepStates x = initialState data x := by
      intro x hx
      have := congrFun heq x
      rwa [hnew, hreset, if_neg hx, if_neg hx] at this
    have hfirst : ∀ x ∈ s.everCompleted, data.getFirstStep = some x := by
      intro x hx
      by_contra hne
      have hdone := h.everDone x hx hne
      rw [hsame x hne] at hdone
      unfold initialState at hdone
      split_ifs at hdone
    refine ⟨hfirst, fun hne other hother hplain => ?_⟩
    obtain ⟨first, hever⟩ := List.exists_mem_of_ne_nil _ hne
    by_contra hnot
    have hotherNe : other ≠ first := fun heq => hnot (heq ▸ hfirst first hever)
    obtain ⟨later, hlater, hlaterNe, hstarted⟩ :=
      h.started first hever (hfirst first hever) other hother hplain hotherNe
    refine hstarted ((hsame later fun heq => hlaterNe ?_).trans (if_pos hlater))
    exact Option.some.inj (heq.symm.trans (hfirst first hever))
  · intro honly
    funext x
    rw [hnew, hreset]
    split_ifs with hx
    · rfl
    · exact h.untouched honly x hx

end Steps

/-- In every run from a new scenario, and what a reset at its end restores. -/
theorem scenario_run (world : World) (ops : List Op) :
    InOrder world.data (ops.foldl (step world) (Scenario.new world.data)) ∧
      ((step world (ops.foldl (step world) (Scenario.new world.data)) .reset).stepStates =
          (Scenario.new world.data).stepStates ↔
        OnlyFirst world.data
          (ops.foldl (step world) (Scenario.new world.data)).everCompleted) := by
  have hkept : Kept world.data (ops.foldl (step world) (Scenario.new world.data)) :=
    List.foldlRecOn ops _ (kept_new world.data) fun _ h op _ => h.next op
  exact ⟨hkept.inOrder, hkept.reset_iff⟩

def firstBoss : ScenarioStep := ⟨1, 7, 0, 0, false⟩
def secondBoss : ScenarioStep := ⟨2, 7, 1, 0, false⟩

def twoBosses : World where
  data := ⟨7, [firstBoss, secondBoss], by decide⟩
  scenarioStep := fun tree => if tree.id = 1 then some firstBoss else some secondBoss
  hasQuestTemplate := fun _ => false

/-- After the first step is completed a reset leaves the second in progress. -/
theorem scenario_run_fails_twoBosses :
    ¬∀ (world : World) (ops : List Op),
      InOrder world.data (ops.foldl (step world) (Scenario.new world.data)) ∧
        (step world (ops.foldl (step world) (Scenario.new world.data)) .reset).stepStates =
          (Scenario.new world.data).stepStates := by
  intro h
  have hstates := (h twoBosses
    [.updateCriteria ∅ [.node 1 0 .all none []] fun _ => true]).2
  exact absurd (congrFun hstates secondBoss) (by decide +kernel)

end Ashamane.Scenarios
