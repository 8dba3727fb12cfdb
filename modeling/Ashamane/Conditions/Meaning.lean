import Ashamane.Conditions.Basic
import Ashamane.Lib.Circles

/-! What the check of a list of conditions means, whenever it ends. -/
namespace Ashamane.Conditions
open Ashamane.Lib

variable {meets : Condition → Bool} {store : ReferenceStore} {conditions seen : List Condition}
  {refer refer' : List Condition → Option Bool} {cond : Condition}
  {groups groups' : AList fun _ : Nat => Bool}

inductive Met (meets : Condition → Bool) (store : ReferenceStore) : List Condition → Prop where
  | group (conditions : List Condition) (group : Nat)
      (hloaded : ∃ cond ∈ conditions, cond.isLoaded ∧ cond.elseGroup = group)
      (hmeets : ∀ cond ∈ conditions, cond.isLoaded → cond.elseGroup = group →
        cond.referenceId = 0 → meets cond = true)
      (hrefer : ∀ cond ∈ conditions, cond.isLoaded → cond.elseGroup = group →
        cond.referenceId ≠ 0 → ∀ template, store.lookup cond.referenceId = some template →
          Met meets store template) : Met meets store conditions

def Condition.Fulfilled (meets : Condition → Bool) (store : ReferenceStore) (cond : Condition) :
    Prop :=
  (cond.referenceId = 0 → meets cond = true) ∧
    (cond.referenceId ≠ 0 → ∀ template, store.lookup cond.referenceId = some template →
      Met meets store template)

def members (group : Nat) (conditions : List Condition) : List Condition :=
  conditions.filter fun cond => cond.isLoaded && cond.elseGroup = group

theorem mem_members {group : Nat} :
    cond ∈ members group conditions ↔
      cond ∈ conditions ∧ cond.isLoaded = true ∧ cond.elseGroup = group := by
  simp [members]

theorem members_concat_self (hloaded : cond.isLoaded = true) :
    members cond.elseGroup (seen ++ [cond]) = members cond.elseGroup seen ++ [cond] := by
  simp [members, hloaded]

theorem members_concat_of_ne {group : Nat}
    (h : cond.isLoaded = true → cond.elseGroup ≠ group) :
    members group (seen ++ [cond]) = members group seen := by
  simpa [members] using h

theorem met_iff : Met meets store conditions ↔ ∃ group, members group conditions ≠ [] ∧
    ∀ cond ∈ members group conditions, cond.Fulfilled meets store := by
  constructor
  · rintro ⟨_, group, ⟨cond, hcond, hloaded, hgroup⟩, hmeets, hrefer⟩
    refine ⟨group, List.ne_nil_of_mem (mem_members.mpr ⟨hcond, hloaded, hgroup⟩), ?_⟩
    intro cond hcond
    obtain ⟨hmem, hloaded, hgroup⟩ := mem_members.mp hcond
    exact ⟨hmeets cond hmem hloaded hgroup, hrefer cond hmem hloaded hgroup⟩
  · rintro ⟨group, hne, hall⟩
    obtain ⟨cond, hcond⟩ := List.exists_mem_of_ne_nil _ hne
    refine .group conditions group ⟨cond, mem_members.mp hcond⟩ ?_ ?_
    · intro cond hmem hloaded hgroup
      exact (hall cond (mem_members.mpr ⟨hmem, hloaded, hgroup⟩)).1
    · intro cond hmem hloaded hgroup
      exact (hall cond (mem_members.mpr ⟨hmem, hloaded, hgroup⟩)).2

theorem meetStep_cases (h : meetStep meets store refer groups cond = some groups') :
    (cond.isLoaded = false ∧ groups' = groups) ∨
      (cond.isLoaded = true ∧ groups.lookup cond.elseGroup = some false ∧ groups' = groups) ∨
      (cond.isLoaded = true ∧ groups.lookup cond.elseGroup ≠ some false ∧
        ∃ met, cond.check meets store refer = some met ∧
          ∀ g, groups'.lookup g = if g = cond.elseGroup then some met else groups.lookup g) := by
  unfold meetStep at h
  by_cases hloaded : cond.isLoaded = true
  · rw [if_pos hloaded] at h
    dsimp only at h
    cases hgroup : groups.lookup cond.elseGroup with
    | none =>
      rw [hgroup] at h
      obtain ⟨met, hmet, rfl⟩ := Option.map_eq_some_iff.mp h
      refine .inr (.inr ⟨hloaded, by simp, met, hmet, fun g => ?_⟩)
      by_cases hg : g = cond.elseGroup
      · subst hg
        cases met <;> simp
      · cases met <;> simp [hg]
    | some passed =>
      rw [hgroup] at h
      cases passed with
      | false => exact .inr (.inl ⟨hloaded, rfl, (Option.some.inj h).symm⟩)
      | true =>
        obtain ⟨met, hmet, rfl⟩ := Option.map_eq_some_iff.mp h
        refine .inr (.inr ⟨hloaded, by simp, met, hmet, fun g => ?_⟩)
        by_cases hg : g = cond.elseGroup
        · subst hg
          cases met <;> simp [hgroup]
        · cases met <;> simp [hg]
  · rw [if_neg hloaded] at h
    exact .inl ⟨by simpa using hloaded, (Option.some.inj h).symm⟩

/-- What is recorded of the groups, after the conditions `seen`. -/
def GroupsRight (meets : Condition → Bool) (store : ReferenceStore)
    (groups : AList fun _ : Nat => Bool) (seen : List Condition) : Prop :=
  ∀ g, match groups.lookup g with
    | none => members g seen = []
    | some passed => members g seen ≠ [] ∧
        (passed = true ↔ ∀ cond ∈ members g seen, cond.Fulfilled meets store)

def AnswersRight (meets : Condition → Bool) (store : ReferenceStore)
    (refer : List Condition → Option Bool) : Prop :=
  ∀ template met, refer template = some met → (met = true ↔ Met meets store template)

theorem AnswersRight.check {met : Bool} (hrefer : AnswersRight meets store refer)
    (h : cond.check meets store refer = some met) : met = true ↔ cond.Fulfilled meets store := by
  unfold Condition.check Condition.ask at h
  by_cases hzero : cond.referenceId = 0
  · rw [if_neg (not_not.mpr hzero)] at h
    simp [Condition.Fulfilled, hzero, ← Option.some.inj h]
  · rw [if_pos hzero] at h
    cases htemplate : store.lookup cond.referenceId with
    | none =>
      rw [htemplate] at h
      simp [Condition.Fulfilled, hzero, htemplate, ← Option.some.inj h]
    | some template =>
      rw [htemplate] at h
      simp [Condition.Fulfilled, hzero, htemplate, hrefer template met h]

theorem GroupsRight.step (hgroups : GroupsRight meets store groups seen)
    (hrefer : AnswersRight meets store refer)
    (h : meetStep meets store refer groups cond = some groups') :
    GroupsRight meets store groups' (seen ++ [cond]) := by
  intro g
  have hg := hgroups g
  by_cases hown : cond.isLoaded = true ∧ cond.elseGroup = g
  · obtain ⟨hloaded, rfl⟩ := hown
    rw [members_concat_self hloaded]
    rcases meetStep_cases h with ⟨hnot, _⟩ | ⟨_, hfalse, rfl⟩ | ⟨_, hnot, met, hmet, hlookup⟩
    · simp [hloaded] at hnot
    · rw [hfalse] at hg ⊢
      have hsome : ¬ ∀ other ∈ members cond.elseGroup seen, other.Fulfilled meets store := by
        intro hall
        cases hg.2.mpr hall
      refine ⟨by simp, iff_of_false (by simp) fun hall => hsome fun other hother => ?_⟩
      exact hall other (List.mem_append_left _ hother)
    · rw [hlookup, if_pos rfl]
      refine ⟨by simp, (hrefer.check hmet).trans ⟨fun hmet other hother => ?_, fun hall => ?_⟩⟩
      · cases hbefore : groups.lookup cond.elseGroup with
        | none =>
          rw [hbefore] at hg
          dsimp only at hg
          rw [hg] at hother
          exact List.mem_singleton.mp hother ▸ hmet
        | some passed =>
          rw [hbefore] at hg
          cases passed with
          | false => exact absurd hbefore hnot
          | true =>
            cases List.mem_append.mp hother with
            | inl hold => exact hg.2.mp rfl other hold
            | inr hnew => exact List.mem_singleton.mp hnew ▸ hmet
      · exact hall cond (List.mem_append_right _ List.mem_cons_self)
  · rw [members_concat_of_ne fun hloaded hsame => hown ⟨hloaded, hsame⟩]
    rcases meetStep_cases h with ⟨_, rfl⟩ | ⟨_, _, rfl⟩ | ⟨hloaded, _, met, _, hlookup⟩
    · exact hg
    · exact hg
    · have hne : g ≠ cond.elseGroup := fun hsame => hown ⟨hloaded, hsame.symm⟩
      rw [hlookup, if_neg hne]
      exact hg

theorem GroupsRight.walk (hgroups : GroupsRight meets store groups seen)
    (hrefer : AnswersRight meets store refer)
    (h : conditions.foldlM (meetStep meets store refer) groups = some groups') :
    GroupsRight meets store groups' (seen ++ conditions) := by
  induction conditions generalizing groups seen with
  | nil =>
    obtain rfl := Option.some.inj h
    rwa [List.append_nil]
  | cons cond conditions ih =>
    rw [List.foldlM_cons] at h
    obtain ⟨between, hstep, hrest⟩ := Option.bind_eq_some_iff.mp h
    rw [List.append_cons]
    exact ih (hgroups.step hrefer hstep) hrest

theorem AnswersRight.meetBody (hrefer : AnswersRight meets store refer) :
    AnswersRight meets store (meetBody meets store refer) := by
  intro conditions met h
  obtain ⟨groups, hwalk, rfl⟩ := Option.map_eq_some_iff.mp h
  have hempty : GroupsRight meets store ∅ [] := fun g => by
    rw [AList.lookup_empty]
    rfl
  have hright := hempty.walk hrefer hwalk
  rw [List.nil_append] at hright
  rw [met_iff, List.any_eq_true]
  constructor
  · rintro ⟨⟨g, passed⟩, hmem, hpassed⟩
    have hg := hright g
    rw [AList.mem_lookup_iff.mpr hmem] at hg
    exact ⟨g, hg.1, hg.2.mp hpassed⟩
  · rintro ⟨g, hne, hall⟩
    have hg := hright g
    cases hlookup : groups.lookup g with
    | none =>
      rw [hlookup] at hg
      exact absurd hg hne
    | some passed =>
      rw [hlookup] at hg
      exact ⟨⟨g, passed⟩, AList.mem_lookup_iff.mp hlookup, hg.2.mpr hall⟩

/-- Every answer that the check returns is right, whatever the templates are. -/
theorem met_of_returns {met : Bool} (h : Fuel.Returns (meetBody meets store) conditions met) :
    met = true ↔ Met meets store conditions :=
  Fuel.Returns.induct (P := fun conditions met => met = true ↔ Met meets store conditions)
    (fun _ hrefer => AnswersRight.meetBody hrefer) h

end Ashamane.Conditions

/-! Reference templates that refer to each other, and the checks that go from one to the next. -/
namespace Ashamane.Conditions
open Ashamane.Lib Relation

variable {meets : Condition → Bool} {store : ReferenceStore} {conditions : List Condition}
  {maskForCondition : Condition → BitVec 32} {valuesValid : Condition → Bool}
  {rows : List ConditionRow} {row : ConditionRow} {cond : Condition}

def ReferenceStore.template (store : ReferenceStore) (r : Nat) : List Condition :=
  (store.lookup r).getD []

def Refers (store : ReferenceStore) (r s : Nat) : Prop :=
  ∃ cond ∈ store.template r, cond.referenceId = s ∧ s ≠ 0

def RowRefers (rows : List ConditionRow) (r s : Nat) : Prop :=
  ∃ row ∈ rows, row.sourceTypeOrReferenceId < 0 ∧ row.conditionTypeOrReference < 0 ∧
    row.sourceTypeOrReferenceId.natAbs = r ∧ row.conditionTypeOrReference.natAbs = s ∧ r ≠ s

section Load

theorem isLoaded_of_readCondition (h : readCondition valuesValid row = some cond) :
    cond.isLoaded = true := by
  unfold readCondition at h
  by_cases hneg : row.conditionTypeOrReference < 0
  · rw [if_pos hneg] at h
    by_cases hself : row.conditionTypeOrReference = row.sourceTypeOrReferenceId
    · rw [if_pos hself] at h
      cases h
    · rw [if_neg hself] at h
      obtain rfl := Option.some.inj h
      simp only [Condition.isLoaded, Bool.or_eq_true, decide_eq_true_eq]
      exact .inr (by omega)
  · rw [if_neg hneg] at h
    by_cases hvalid : isConditionTypeValid valuesValid row.condition = true
    · rw [if_pos hvalid] at h
      obtain rfl := Option.some.inj h
      simp only [isConditionTypeValid, Bool.and_eq_true, decide_eq_true_eq] at hvalid
      simp only [Condition.isLoaded, Bool.or_eq_true, decide_eq_true_eq]
      exact .inl hvalid.1.1
    · rw [if_neg hvalid] at h
      cases h

theorem exists_readCondition_reference {s : Nat} (hs : s ≠ 0) :
    (∃ cond, readCondition valuesValid row = some cond ∧ cond.referenceId = s) ↔
      row.conditionTypeOrReference < 0 ∧
        row.conditionTypeOrReference ≠ row.sourceTypeOrReferenceId ∧
          row.conditionTypeOrReference.natAbs = s := by
  unfold readCondition
  by_cases hneg : row.conditionTypeOrReference < 0
  · rw [if_pos hneg]
    by_cases hself : row.conditionTypeOrReference = row.sourceTypeOrReferenceId
    · simp [hself]
    · simp [hneg, hself]
  · rw [if_neg hneg]
    refine iff_of_false ?_ fun h => hneg h.1
    rintro ⟨cond, hcond, rfl⟩
    by_cases hvalid : isConditionTypeValid valuesValid row.condition = true
    · rw [if_pos hvalid] at hcond
      obtain rfl := Option.some.inj hcond
      exact hs rfl
    · rw [if_neg hvalid] at hcond
      cases hcond

theorem mem_template_loadReference (r : Nat) :
    cond ∈ (loadReference valuesValid store row).template r ↔ cond ∈ store.template r ∨
      (row.sourceTypeOrReferenceId < 0 ∧ row.sourceTypeOrReferenceId.natAbs = r ∧
        readCondition valuesValid row = some cond) := by
  unfold loadReference ReferenceStore.template
  cases hread : readCondition valuesValid row with
  | none => simp
  | some other =>
    dsimp only
    by_cases hneg : row.sourceTypeOrReferenceId < 0
    · rw [if_pos hneg]
      by_cases hr : r = row.sourceTypeOrReferenceId.natAbs
      · subst hr
        simp [hneg, eq_comm]
      · simp [AList.lookup_insert_ne hr, Ne.symm hr]
    · simp [hneg]

theorem mem_template_foldl (r : Nat) :
    cond ∈ (rows.foldl (loadReference valuesValid) store).template r ↔ cond ∈ store.template r ∨
      ∃ row ∈ rows, row.sourceTypeOrReferenceId < 0 ∧ row.sourceTypeOrReferenceId.natAbs = r ∧
        readCondition valuesValid row = some cond := by
  induction rows generalizing store with
  | nil => simp
  | cons row rows ih =>
    rw [List.foldl_cons, ih, mem_template_loadReference, or_assoc]
    simp only [List.mem_cons, exists_eq_or_imp]

theorem mem_template_loadConditions (r : Nat) :
    cond ∈ (loadConditions valuesValid rows).template r ↔
      ∃ row ∈ rows, row.sourceTypeOrReferenceId < 0 ∧ row.sourceTypeOrReferenceId.natAbs = r ∧
        readCondition valuesValid row = some cond := by
  have hempty : cond ∉ ReferenceStore.template ∅ r := by
    simp [ReferenceStore.template, AList.lookup_empty]
  rw [loadConditions, mem_template_foldl]
  exact or_iff_right hempty

theorem refers_loadConditions (r s : Nat) :
    Refers (loadConditions valuesValid rows) r s ↔ RowRefers rows r s := by
  unfold Refers RowRefers
  constructor
  · rintro ⟨cond, hcond, hreference, hs⟩
    obtain ⟨row, hrow, hneg, hr, hread⟩ := (mem_template_loadConditions r).mp hcond
    obtain ⟨hcneg, hne, habs⟩ :=
      (exists_readCondition_reference hs).mp ⟨cond, hread, hreference⟩
    exact ⟨row, hrow, hneg, hcneg, hr, habs, by omega⟩
  · rintro ⟨row, hrow, hneg, hcneg, hr, habs, hne⟩
    have hs : s ≠ 0 := by omega
    obtain ⟨cond, hread, hreference⟩ :=
      (@exists_readCondition_reference valuesValid row s hs).mpr
        ⟨hcneg, by omega, habs⟩
    exact ⟨cond, (mem_template_loadConditions r).mpr ⟨row, hrow, hneg, hr, hread⟩, hreference, hs⟩

def WellLoaded (store : ReferenceStore) : Prop :=
  ∀ r template, store.lookup r = some template →
    template ≠ [] ∧ ∀ cond ∈ template, cond.isLoaded = true

theorem WellLoaded.loadReference (h : WellLoaded store) :
    WellLoaded (loadReference valuesValid store row) := by
  intro r template hlookup
  unfold Conditions.loadReference at hlookup
  cases hread : readCondition valuesValid row with
  | none =>
    rw [hread] at hlookup
    exact h r template hlookup
  | some other =>
    rw [hread] at hlookup
    dsimp only at hlookup
    split at hlookup
    · by_cases hr : r = row.sourceTypeOrReferenceId.natAbs
      · rw [hr, AList.lookup_insert] at hlookup
        obtain rfl := Option.some.inj hlookup
        refine ⟨by simp, fun cond hcond => ?_⟩
        cases List.mem_append.mp hcond with
        | inl hold =>
          cases hbefore : store.lookup row.sourceTypeOrReferenceId.natAbs with
          | none => simp [hbefore] at hold
          | some before =>
            rw [hbefore] at hold
            exact (h _ before hbefore).2 cond hold
        | inr hnew =>
          obtain rfl := List.mem_singleton.mp hnew
          exact isLoaded_of_readCondition hread
      · rw [AList.lookup_insert_ne hr] at hlookup
        exact h r template hlookup
    · exact h r template hlookup

theorem wellLoaded_loadConditions : WellLoaded (loadConditions valuesValid rows) := by
  refine List.foldlRecOn rows _ (fun _ _ hlookup => ?_) fun store hstore row _ =>
    hstore.loadReference
  cases hlookup

end Load

end Ashamane.Conditions
