import Ashamane.Conditions.Narrowed

/-! A search that is narrowed by the mask of its conditions, and the objects that meet them. -/
namespace Ashamane.Conditions
open Ashamane.Lib Relation WorldObject

variable {store : ReferenceStore} {conditions : List Condition} {cond : Condition}
  {object : WorldObject} {others : Condition → Bool} {rows : List ConditionRow}

def isObjectMeetToConditions (w : World) (targets : Nat → Option WorldObject)
    (store : ReferenceStore) (fuel : Nat) (conditions : List Condition) : Option Bool :=
  if conditions.isEmpty then some true
  else isObjectMeetToConditionList (Condition.meets w targets) store fuel conditions

def Searched (store : ReferenceStore) (conditions : List Condition) (object : WorldObject) : Prop :=
  ∃ fuel mask, getSearcherTypeMaskForConditionList Condition.getSearcherTypeMaskForCondition store
    fuel conditions = some (.ok mask) ∧ mask &&& object.gridMapType ≠ 0

section Covered

variable (w : World) (targets : Nat → Option WorldObject) (store : ReferenceStore)
  (conditions : List Condition) (object : WorldObject)

def Meeting : Prop :=
  ∃ fuel, isObjectMeetToConditions w targets store fuel conditions = some true

def Covered : Prop := Meeting w targets store conditions → Searched store conditions object

def spares (cond : Condition) : Bool :=
  cond.meets w targets && (cond.conditionTarget = 0 ||
    cond.getSearcherTypeMaskForCondition &&& object.gridMapType ≠ 0)

/-- Some else-group of the list is met, in the templates that it refers to as well, without a
condition about another target that excludes the type of the object. -/
def Spared : Prop := conditions = [] ∨ Met (spares w targets object) store conditions

end Covered

/-- The templates and the list come from rows that `LoadConditions` has accepted. The cases of
`isConditionTypeValid` are those about types, and `others`. -/
structure Loaded (others : Condition → Bool) (rows : List ConditionRow) (store : ReferenceStore)
    (conditions : List Condition) : Prop where
  store : store = loadConditions (fun cond => cond.typesValid && others cond) rows
  conditions : ∀ cond ∈ conditions, ∃ row ∈ rows,
    readCondition (fun cond => cond.typesValid && others cond) row = some cond

theorem typesValid_of_readCondition {row : ConditionRow}
    (h : readCondition (fun cond => cond.typesValid && others cond) row = some cond)
    (hzero : cond.referenceId = 0) : cond.typesValid = true := by
  unfold readCondition at h
  by_cases hneg : row.conditionTypeOrReference < 0
  · rw [if_pos hneg] at h
    split at h
    · cases h
    · obtain rfl := Option.some.inj h
      exact absurd (Int.natAbs_eq_zero.mp hzero) hneg.ne
  · rw [if_neg hneg] at h
    by_cases hvalid : isConditionTypeValid (fun cond => cond.typesValid && others cond)
        row.condition = true
    · rw [if_pos hvalid] at h
      obtain rfl := Option.some.inj h
      exact (Bool.and_eq_true_iff.mp (Bool.and_eq_true_iff.mp hvalid).2).1
    · rw [if_neg hvalid] at h
      cases h

theorem Loaded.template (h : Loaded others rows store conditions) {r : Nat}
    {template : List Condition} (htemplate : store.lookup r = some template) :
    Loaded others rows store template := by
  refine ⟨h.store, fun cond hcond => ?_⟩
  have hin : cond ∈ store.template r := by
    rw [ReferenceStore.template, htemplate]
    exact hcond
  rw [h.store] at hin
  obtain ⟨row, hrow, -, -, hread⟩ := (mem_template_loadConditions r).mp hin
  exact ⟨row, hrow, hread⟩

theorem Loaded.typesValid (h : Loaded others rows store conditions)
    (hcond : Reached store conditions cond) (hzero : cond.referenceId = 0) :
    cond.typesValid = true := by
  induction hcond with
  | here hmem =>
    obtain ⟨row, -, hread⟩ := h.conditions _ hmem
    exact typesValid_of_readCondition hread hzero
  | there _ _ htemplate _ ih => exact ih (h.template htemplate) hzero

theorem hasBit_iff : HasBit Condition.getSearcherTypeMaskForCondition object.gridBit cond = true ↔
    cond.getSearcherTypeMaskForCondition &&& object.gridMapType ≠ 0 :=
  (object.and_gridMapType _).symm

theorem searched_iff (hacyclic : Acyclic (Refers store))
    (hresolved : AllResolved store conditions) : Searched store conditions object ↔
      Lets (HasBit Condition.getSearcherTypeMaskForCondition object.gridBit) store conditions := by
  constructor
  · rintro ⟨fuel, mask, hmask, hbit⟩
    have hin := (object.and_gridMapType mask).mp hbit
    exact (lets_of_returns object.gridBit_lt ⟨fuel, hmask⟩).mp hin
  · intro hlets
    have hends : ∃ answer,
        Fuel.Returns (maskBody Condition.getSearcherTypeMaskForCondition store) conditions answer ∧
          (AllResolved store conditions → ∃ mask, answer = .ok mask) :=
      maskBody_ends hacyclic conditions
    obtain ⟨answer, hreturns, hok⟩ := hends
    obtain ⟨mask, rfl⟩ := hok hresolved
    have hbit := (lets_of_returns object.gridBit_lt hreturns).mpr hlets
    obtain ⟨fuel, hmask⟩ := hreturns
    exact ⟨fuel, mask, hmask, (object.and_gridMapType mask).mpr hbit⟩

section Target

variable {w : World} {targets : Nat → Option WorldObject}

theorem met_of_meeting (h : Meeting w targets store conditions) :
    conditions = [] ∨ Met (Condition.meets w targets) store conditions := by
  obtain ⟨fuel, hmet⟩ := h
  rw [isObjectMeetToConditions] at hmet
  by_cases hempty : conditions.isEmpty = true
  · exact .inl (List.isEmpty_iff.mp hempty)
  · rw [if_neg hempty] at hmet
    exact .inr ((met_of_returns ⟨fuel, hmet⟩).mp rfl)

theorem lets_of_spared (hobject : targets 0 = some object)
    (hloaded : Loaded others rows store conditions)
    (h : Spared w targets store conditions object) :
    Lets (HasBit Condition.getSearcherTypeMaskForCondition object.gridBit) store conditions := by
  rcases h with rfl | hmet
  · exact .empty
  · refine lets_of_met hmet fun cond hcond hzero hspares => ?_
    obtain ⟨hmeets, hfree⟩ := Bool.and_eq_true_iff.mp hspares
    rcases Bool.or_eq_true_iff.mp hfree with htarget | hmask
    · rw [← of_decide_eq_true htarget] at hobject
      exact Condition.through_target hobject (hloaded.typesValid hcond hzero) hmeets
    · exact hasBit_iff.mpr (of_decide_eq_true hmask)

end Target

/-- An object that meets the conditions is searched where a met else-group has no condition about
another target that excludes its type; and with one else-group in each list only there. -/
theorem covered_iff (w : World) (targets : Nat → Option WorldObject)
    (hobject : targets 0 = some object) (hacyclic : Acyclic (Refers store))
    (hresolved : AllResolved store conditions) (hloaded : Loaded others rows store conditions) :
    ((Meeting w targets store conditions → Spared w targets store conditions object) →
        Covered w targets store conditions object) ∧
      (OneGroup conditions →
        (∀ r template, store.lookup r = some template → OneGroup template) →
          (Covered w targets store conditions object ↔
            (Meeting w targets store conditions → Spared w targets store conditions object))) := by
  have hcovered : (Meeting w targets store conditions →
      Spared w targets store conditions object) → Covered w targets store conditions object :=
    fun hspared hmeeting =>
      (searched_iff hacyclic hresolved).mpr (lets_of_spared hobject hloaded (hspared hmeeting))
  refine ⟨hcovered, fun hone htemplates => ⟨fun h hmeeting => ?_, hcovered⟩⟩
  have hlets := (searched_iff hacyclic hresolved).mp (h hmeeting)
  refine (met_of_meeting hmeeting).imp_right fun hmet => hmet.mono fun cond hcond hzero hmeets => ?_
  have hbit := reached_of_lets hresolved hone htemplates hlets hcond hzero
  exact Bool.and_eq_true_iff.mpr
    ⟨hmeets, Bool.or_eq_true_iff.mpr (.inr (decide_eq_true (hasBit_iff.mp hbit)))⟩

section Example

def bareObject (guid : Nat) : ObjectData where
  guid := guid
  entry := 0
  zoneId := 0
  areaId := 0
  mapId := 0
  spawnMode := 0
  instanceScript := none
  hasPhase _ := false
  hasVisibleMapId _ := false
  findNearestCreature _ _ _ := false
  findNearestGameObject _ _ := false
  compareDistance _ _ _ := false

def aliveUnit : UnitData where
  hasAuraEffect _ _ := false
  classMask := 1
  raceMask := 1
  level := 1
  health := 1
  isAlive := true
  compareHealthPct _ _ := false
  hasUnitState _ := false
  isInWater := false
  standState := 0
  isStandState := true
  isSitState := false
  isCharmed := false
  ownerGuid := 0
  creatorGuid := 0
  isInPartyWith _ := false
  isInRaidWith _ := false
  isOnVehicle _ := false
  reactionTo _ := 0

def collector : PlayerData where
  hasItemCount _ _ _ := true
  hasItemOrGemWithIdEquipped _ _ := false
  rank _ := none
  hasAchieved _ := false
  team := 0
  gender := 0
  hasSkill _ := false
  baseSkillValue _ := 0
  questRewardStatus _ := false
  questStatus _ := .none
  isQuestObjectiveComplete _ := false
  hasSpell _ := false
  drunkenstate := 0
  hasTitle _ := false
  isDailyQuestDone _ := false
  petType := none
  isInFlight := false

def quietWorld : World where
  isActiveEvent _ := false
  worldState _ := 0
  isRealmCompleted _ := false
  questObjective _ := none
  onConditionCheck _ := true

def victim : WorldObject := .creature (bareObject 1) aliveUnit ⟨1, 7⟩

def casterAndVictim : Nat → Option WorldObject
  | 0 => some victim
  | 1 => some (.player (bareObject 2) aliveUnit collector)
  | _ => none

def plainCondition (conditionType conditionTarget value1 value2 : Nat) : Condition where
  elseGroup := 0
  conditionType := conditionType
  conditionTarget := conditionTarget
  conditionValue1 := value1
  conditionValue2 := value2
  conditionValue3 := 0
  referenceId := 0
  scriptId := 0
  negativeCondition := false

def casterHasItem : Condition := plainCondition 2 1 6948 1

def victimAlive : Condition := plainCondition 36 0 0 0

theorem acyclic_of_plain (h : ∀ r, ∀ cond ∈ store.template r, cond.referenceId = 0) :
    Acyclic (Refers store) := by
  intro r hcircle
  obtain ⟨s, -, cond, hcond, hreference, hne⟩ := TransGen.tail'_iff.mp hcircle
  exact hne (hreference.symm.trans (h s cond hcond))

/-- A creature that meets a condition about its caster is not searched. -/
theorem victim_not_searched :
    casterAndVictim 0 = some victim ∧ casterHasItem.typesValid = true ∧
      Acyclic (Refers ∅) ∧ AllResolved ∅ [casterHasItem] ∧
        Meeting quietWorld casterAndVictim ∅ [casterHasItem] ∧
          ¬ Searched ∅ [casterHasItem] victim := by
  have hacyclic : Acyclic (Refers ∅) := acyclic_of_plain fun _ => nofun
  have hresolved : AllResolved ∅ [casterHasItem] := by
    refine ⟨fun cond hcond => ?_, fun r template htemplate => by cases htemplate⟩
    obtain rfl := List.mem_singleton.mp hcond
    exact ⟨rfl, fun hne => absurd rfl hne⟩
  refine ⟨rfl, rfl, hacyclic, hresolved, ⟨1, rfl⟩, fun h => ?_⟩
  have hlets := (searched_iff hacyclic hresolved).mp h
  rcases lets_iff.mp hlets with hnil | ⟨group, hne, hall⟩
  · cases hnil
  · obtain ⟨cond, hcond⟩ := List.exists_mem_of_ne_nil _ hne
    obtain rfl := List.mem_singleton.mp (mem_members.mp hcond).1
    exact absurd ((hall _ hcond).1 rfl) (by decide)

def aliveRow : ConditionRow where
  sourceTypeOrReferenceId := -5
  elseGroup := 0
  conditionTypeOrReference := 36
  conditionTarget := 0
  conditionValue1 := 0
  conditionValue2 := 0
  conditionValue3 := 0
  negativeCondition := false
  scriptId := 0

def victimRows : List ConditionRow :=
  [aliveRow, { aliveRow with sourceTypeOrReferenceId := 13, conditionTypeOrReference := -5 }] ++
    [(2, 0, 6948), (24, 0, 7), (2, 1, 6948)].map fun (type, target, value) =>
      { aliveRow with
        sourceTypeOrReferenceId := 13
        elseGroup := 1
        conditionTypeOrReference := type
        conditionTarget := target
        conditionValue1 := value
        conditionValue2 := 1 }

def victimList : List Condition :=
  victimRows.tail.filterMap (readCondition fun cond => cond.typesValid && true)

def victimTemplates : ReferenceStore :=
  loadConditions (fun cond => cond.typesValid && true) victimRows

theorem lookup_victimTemplates {r : Nat} {template : List Condition}
    (h : victimTemplates.lookup r = some template) : template = [victimAlive] := by
  have hmem : (⟨r, template⟩ : Sigma fun _ : Nat => List Condition) ∈ [⟨5, [victimAlive]⟩] :=
    AList.mem_lookup_iff.mp h
  cases List.mem_singleton.mp hmem
  rfl

/-- The victim, whose list excludes it in the else-group that it does not meet. -/
theorem alive_victim_searched :
    Meeting quietWorld casterAndVictim victimTemplates victimList ∧
      Searched victimTemplates victimList victim := by
  have hacyclic : Acyclic (Refers victimTemplates) := acyclic_of_plain fun r cond hcond => by
    rw [ReferenceStore.template] at hcond
    cases htemplate : victimTemplates.lookup r with
    | none =>
      rw [htemplate] at hcond
      cases hcond
    | some template =>
      rw [htemplate, lookup_victimTemplates htemplate] at hcond
      obtain rfl := List.mem_singleton.mp hcond
      rfl
  have hresolved : AllResolved victimTemplates victimList := by
    refine ⟨fun cond hcond => ?_, fun r template htemplate cond hcond => ?_⟩
    · have hlist : ∀ cond ∈ victimList, cond.isLoaded = true ∧
          (cond.referenceId ≠ 0 → cond.referenceId = 5) := by decide
      refine (hlist cond hcond).imp_right fun hfive hne => ⟨[victimAlive], ?_⟩
      rw [hfive hne]
      rfl
    · rw [lookup_victimTemplates htemplate] at hcond
      obtain rfl := List.mem_singleton.mp hcond
      exact ⟨rfl, fun hne => absurd rfl hne⟩
  have hspared : Spared quietWorld casterAndVictim victimTemplates victimList victim := by
    refine .inr (.group _ 0 (by decide) (by decide) fun cond hcond _ _ _ template htemplate => ?_)
    rw [lookup_victimTemplates htemplate]
    refine .group _ 0 (by decide) (by decide) fun cond hcond _ _ hne => ?_
    obtain rfl := List.mem_singleton.mp hcond
    exact absurd rfl hne
  have hmeeting : Meeting quietWorld casterAndVictim victimTemplates victimList := ⟨2, rfl⟩
  exact ⟨hmeeting, (covered_iff quietWorld casterAndVictim rfl hacyclic hresolved
    ⟨rfl, by decide⟩).1 (fun _ => hspared) hmeeting⟩

end Example

end Ashamane.Conditions
