import Ashamane.Conditions.Meaning

/-! The checks of a list of conditions end exactly where no template leads back to itself. -/
namespace Ashamane.Conditions
open Ashamane.Lib Relation

variable {meets : Condition → Bool} {store : ReferenceStore} {conditions : List Condition}
  {maskForCondition : Condition → BitVec 32} {valuesValid : Condition → Bool}
  {rows : List ConditionRow} {cond : Condition}

def calls (store : ReferenceStore) (conditions : List Condition) : List (List Condition) :=
  (conditions.filter fun cond => cond.referenceId ≠ 0).filterMap fun cond =>
    store.lookup cond.referenceId

theorem mem_calls {template : List Condition} (hcond : cond ∈ conditions)
    (hreference : cond.referenceId ≠ 0) (h : store.lookup cond.referenceId = some template) :
    template ∈ calls store conditions :=
  List.mem_filterMap.mpr ⟨cond, List.mem_filter.mpr ⟨hcond, by simpa using hreference⟩, h⟩

section Ask
variable {β γ : Type} {f g : List Condition → Option β} {missing plain : β}

theorem Condition.ask_extends (hfg : Fuel.Extends f g) {k : β → γ} {answer : γ}
    (h : (cond.ask store f missing plain).map k = some answer) :
    (cond.ask store g missing plain).map k = some answer := by
  obtain ⟨other, hother, rfl⟩ := Option.map_eq_some_iff.mp h
  refine Option.map_eq_some_iff.mpr ⟨other, ?_, rfl⟩
  unfold Condition.ask at hother ⊢
  by_cases hreference : cond.referenceId ≠ 0
  · rw [if_pos hreference] at hother ⊢
    cases htemplate : store.lookup cond.referenceId with
    | none => simpa only [htemplate] using hother
    | some template =>
      rw [htemplate] at hother
      exact hfg template other hother
  · rwa [if_neg hreference] at hother ⊢

theorem Condition.ask_ends {P : β → Prop} (hcond : cond ∈ conditions)
    (hf : ∀ template ∈ calls store conditions, store.lookup cond.referenceId = some template →
      ∃ answer, f template = some answer ∧ P answer)
    (hmissing : cond.referenceId ≠ 0 → store.lookup cond.referenceId = none → P missing)
    (hplain : P plain) : ∃ answer, cond.ask store f missing plain = some answer ∧ P answer := by
  unfold Condition.ask
  by_cases hreference : cond.referenceId ≠ 0
  · rw [if_pos hreference]
    cases htemplate : store.lookup cond.referenceId with
    | none => exact ⟨missing, rfl, hmissing hreference htemplate⟩
    | some template => exact hf template (mem_calls hcond hreference htemplate) htemplate
  · rw [if_neg hreference]
    exact ⟨plain, rfl, hplain⟩

end Ask

section Steady

theorem meetBody_steady : Fuel.Steady (meetBody meets store) := by
  intro f g hfg conditions met h
  obtain ⟨groups, hwalk, rfl⟩ := Option.map_eq_some_iff.mp h
  refine Option.map_eq_some_iff.mpr ⟨groups, Fuel.foldlM_extends ?_ hwalk, rfl⟩
  intro groups cond groups' hstep
  unfold meetStep at hstep ⊢
  by_cases hloaded : cond.isLoaded = true
  · rw [if_pos hloaded] at hstep ⊢
    dsimp only at hstep ⊢
    cases hgroup : groups.lookup cond.elseGroup with
    | none =>
      rw [hgroup] at hstep
      exact Condition.ask_extends hfg hstep
    | some passed =>
      rw [hgroup] at hstep
      cases passed with
      | false => exact hstep
      | true => exact Condition.ask_extends hfg hstep
  · rwa [if_neg hloaded] at hstep ⊢

theorem maskBody_steady : Fuel.Steady (maskBody maskForCondition store) := by
  intro f g hfg conditions answer h
  unfold maskBody at h ⊢
  by_cases hempty : conditions.isEmpty = true
  · rwa [if_pos hempty] at h ⊢
  rw [if_neg hempty] at h ⊢
  obtain ⟨walked, hwalk, rfl⟩ := Option.map_eq_some_iff.mp h
  refine Option.map_eq_some_iff.mpr ⟨walked, Fuel.foldlM_extends ?_ hwalk, rfl⟩
  intro walked cond walked' hstep
  cases walked with
  | error assertion => exact hstep
  | ok masks =>
    unfold maskStep at hstep ⊢
    dsimp only at hstep ⊢
    by_cases hloaded : cond.isLoaded = true
    · rw [if_pos hloaded] at hstep ⊢
      cases hgroup : masks.lookup cond.elseGroup with
      | none =>
        rw [hgroup] at hstep
        exact Condition.ask_extends hfg hstep
      | some mask =>
        rw [hgroup] at hstep
        dsimp only at hstep ⊢
        by_cases hzero : mask = 0
        · rwa [if_pos hzero] at hstep ⊢
        · rw [if_neg hzero] at hstep ⊢
          exact Condition.ask_extends hfg hstep
    · rwa [if_neg hloaded] at hstep ⊢

end Steady

section Acyclic

theorem acc_calls (h : Acyclic (Refers store)) (conditions : List Condition) :
    Acc (fun called conditions => called ∈ calls store conditions) conditions := by
  have hdown : WellFounded fun s r => Refers store r s := by
    refine h.wellFounded store.keys.toFinset fun r s ⟨cond, hcond, _⟩ => ?_
    rw [List.mem_toFinset]
    refine AList.mem_keys.mp (AList.lookup_isSome.mp ?_)
    cases hlookup : store.lookup r with
    | none => simp [ReferenceStore.template, hlookup] at hcond
    | some template => rfl
  have hcalls : ∀ {called conditions}, called ∈ calls store conditions →
      ∃ cond ∈ conditions, cond.referenceId ≠ 0 ∧
        store.lookup cond.referenceId = some called := by
    intro called conditions hcalled
    obtain ⟨cond, hcond, hlookup⟩ := List.mem_filterMap.mp hcalled
    obtain ⟨hmem, hreference⟩ := List.mem_filter.mp hcond
    exact ⟨cond, hmem, by simpa using hreference, hlookup⟩
  have htemplates : ∀ r template, store.lookup r = some template →
      Acc (fun called conditions => called ∈ calls store conditions) template := by
    intro r
    induction r using hdown.induction with
    | _ r ih =>
      intro template hlookup
      refine ⟨_, fun called hcalled => ?_⟩
      obtain ⟨cond, hcond, hreference, hcalled⟩ := hcalls hcalled
      refine ih cond.referenceId ⟨cond, ?_, rfl, hreference⟩ called hcalled
      simpa [ReferenceStore.template, hlookup] using hcond
  refine ⟨_, fun called hcalled => ?_⟩
  obtain ⟨cond, _, _, hlookup⟩ := hcalls hcalled
  exact htemplates cond.referenceId called hlookup

theorem meetBody_ends (h : Acyclic (Refers store)) (conditions : List Condition) :
    ∃ met, Fuel.Returns (meetBody meets store) conditions met := by
  refine (meetBody_steady.returns_of_acc (P := fun _ _ => True) ?_
    (acc_calls h conditions)).imp fun _ hmet => hmet.1
  intro f conditions hanswers
  have hwalk : ∃ groups, conditions.foldlM (meetStep meets store f) ∅ = some groups ∧ True := by
    refine Fuel.foldlM_ends (I := fun _ => True) trivial fun groups _ cond hcond => ?_
    have hcheck : ∃ met, Condition.check meets store f cond = some met ∧ True :=
      Condition.ask_ends hcond (fun template hmem _ => hanswers template hmem)
        (fun _ _ => trivial) trivial
    obtain ⟨met, hmet, -⟩ := hcheck
    unfold meetStep
    rw [hmet]
    split
    · dsimp only
      split <;> exact ⟨_, rfl, trivial⟩
    · exact ⟨_, rfl, trivial⟩
  obtain ⟨groups, hgroups, -⟩ := hwalk
  exact ⟨_, Option.map_eq_some_iff.mpr ⟨groups, hgroups, rfl⟩, trivial⟩

def Resolved (store : ReferenceStore) (conditions : List Condition) : Prop :=
  ∀ cond ∈ conditions, cond.isLoaded = true ∧
    (cond.referenceId ≠ 0 → ∃ template, store.lookup cond.referenceId = some template)

def AllResolved (store : ReferenceStore) (conditions : List Condition) : Prop :=
  Resolved store conditions ∧ ∀ r template, store.lookup r = some template →
    Resolved store template

theorem maskBody_ends (h : Acyclic (Refers store)) (conditions : List Condition) :
    ∃ answer, Fuel.Returns (maskBody maskForCondition store) conditions answer ∧
      (AllResolved store conditions → ∃ mask, answer = .ok mask) := by
  refine maskBody_steady.returns_of_acc
    (P := fun conditions answer => AllResolved store conditions → ∃ mask, answer = .ok mask) ?_
    (acc_calls h conditions)
  intro f conditions hanswers
  have hwalk : ∃ walked, conditions.foldlM (maskStep maskForCondition store f) (.ok ∅) =
      some walked ∧ (AllResolved store conditions → ∃ masks, walked = .ok masks) := by
    refine Fuel.foldlM_ends
      (I := fun walked => AllResolved store conditions → ∃ masks, walked = Except.ok masks)
      (fun _ => ⟨∅, rfl⟩) fun walked hwalked cond hcond => ?_
    cases walked with
    | error assertion => exact ⟨.error assertion, rfl, hwalked⟩
    | ok masks =>
      have hmask : ∃ answer, Condition.mask maskForCondition store f cond = some answer ∧
          (AllResolved store conditions → ∃ mask, answer = .ok mask) := by
        refine Condition.ask_ends hcond (fun template hmem htemplate => ?_) ?_
          fun _ => ⟨_, rfl⟩
        · obtain ⟨answer, hanswer, hok⟩ := hanswers template hmem
          exact ⟨answer, hanswer, fun hresolved =>
            hok ⟨hresolved.2 _ template htemplate, hresolved.2⟩⟩
        · intro hreference hnone hresolved
          obtain ⟨template, hsome⟩ := (hresolved.1 cond hcond).2 hreference
          rw [hnone] at hsome
          cases hsome
      obtain ⟨answer, hanswer, hok⟩ := hmask
      have hnarrow : ∀ mask : BitVec 32, AllResolved store conditions → ∃ masks',
          (answer.map fun other => masks.insert cond.elseGroup (mask &&& other)) =
            Except.ok masks' := by
        intro mask hresolved
        obtain ⟨other, rfl⟩ := hok hresolved
        exact ⟨_, rfl⟩
      unfold maskStep
      dsimp only
      rw [hanswer]
      by_cases hloaded : cond.isLoaded = true
      · rw [if_pos hloaded]
        cases hgroup : masks.lookup cond.elseGroup with
        | none => exact ⟨_, rfl, hnarrow _⟩
        | some mask =>
          dsimp only
          by_cases hzero : mask = 0
          · rw [if_pos hzero]
            exact ⟨_, rfl, fun _ => ⟨_, rfl⟩⟩
          · rw [if_neg hzero]
            exact ⟨_, rfl, hnarrow _⟩
      · rw [if_neg hloaded]
        exact ⟨_, rfl, fun hresolved => absurd (hresolved.1 cond hcond).1 hloaded⟩
  unfold maskBody
  split
  · exact ⟨_, rfl, fun _ => ⟨_, rfl⟩⟩
  · obtain ⟨walked, hwalked, hok⟩ := hwalk
    refine ⟨_, Option.map_eq_some_iff.mpr ⟨walked, hwalked, rfl⟩, fun hresolved => ?_⟩
    obtain ⟨masks, rfl⟩ := hok hresolved
    exact ⟨_, rfl⟩

end Acyclic

section Cycle
variable {refer : List Condition → Option Bool}
  {groups groups' : AList fun _ : Nat => Bool}

def NoneFailed (groups : AList fun _ : Nat => Bool) : Prop := ∀ g, groups.lookup g ≠ some false

def OnlyMet (store : ReferenceStore) (refer : List Condition → Option Bool) : Prop :=
  ∀ r template, store.lookup r = some template → refer template ≠ some false

def Asked (store : ReferenceStore) (refer : List Condition → Option Bool) (cond : Condition) :
    Prop :=
  cond.referenceId ≠ 0 → ∀ template, store.lookup cond.referenceId = some template →
    refer template = some true

theorem OnlyMet.check {met : Bool} (hrefer : OnlyMet store refer)
    (h : cond.check (fun _ => true) store refer = some met) :
    met = true ∧ Asked store refer cond := by
  unfold Condition.check Condition.ask at h
  by_cases hreference : cond.referenceId ≠ 0
  · rw [if_pos hreference] at h
    cases htemplate : store.lookup cond.referenceId with
    | none =>
      rw [htemplate] at h
      refine ⟨(Option.some.inj h).symm, fun _ template hsome => ?_⟩
      rw [htemplate] at hsome
      cases hsome
    | some template =>
      rw [htemplate] at h
      cases met with
      | false => exact absurd h (hrefer _ template htemplate)
      | true =>
        refine ⟨rfl, fun _ other hsome => ?_⟩
        obtain rfl := Option.some.inj (htemplate.symm.trans hsome)
        exact h
  · rw [if_neg hreference] at h
    exact ⟨(Option.some.inj h).symm, fun hne => absurd hne hreference⟩

/-- With an object that meets every condition nothing is skipped. -/
theorem NoneFailed.step (hgroups : NoneFailed groups) (hrefer : OnlyMet store refer)
    (h : meetStep (fun _ => true) store refer groups cond = some groups') :
    NoneFailed groups' ∧ (∀ g, groups.lookup g = some true → groups'.lookup g = some true) ∧
      (cond.isLoaded = true →
        groups'.lookup cond.elseGroup = some true ∧ Asked store refer cond) := by
  rcases meetStep_cases h with ⟨hnot, rfl⟩ | ⟨_, hfalse, _⟩ | ⟨_, _, met, hmet, hlookup⟩
  · exact ⟨hgroups, fun _ hg => hg, fun hloaded => by simp [hloaded] at hnot⟩
  · exact absurd hfalse (hgroups _)
  · obtain ⟨rfl, hasked⟩ := hrefer.check hmet
    refine ⟨fun g => ?_, fun g hg => ?_, fun _ => ⟨by rw [hlookup, if_pos rfl], hasked⟩⟩
    · rw [hlookup]
      split
      · simp
      · exact hgroups g
    · rw [hlookup, hg, ite_self]

theorem NoneFailed.walk (hgroups : NoneFailed groups) (hrefer : OnlyMet store refer)
    (h : conditions.foldlM (meetStep (fun _ => true) store refer) groups = some groups') :
    (∀ g, groups.lookup g = some true → groups'.lookup g = some true) ∧
      ∀ cond ∈ conditions, cond.isLoaded = true →
        groups'.lookup cond.elseGroup = some true ∧ Asked store refer cond := by
  induction conditions generalizing groups with
  | nil =>
    obtain rfl := Option.some.inj h
    exact ⟨fun _ hg => hg, by simp⟩
  | cons cond conditions ih =>
    rw [List.foldlM_cons] at h
    obtain ⟨between, hstep, hrest⟩ := Option.bind_eq_some_iff.mp h
    obtain ⟨hbetween, hkept, hfirst⟩ := hgroups.step hrefer hstep
    obtain ⟨hkept', hothers⟩ := ih hbetween hrest
    refine ⟨fun g hg => hkept' g (hkept g hg), fun other hother hloaded => ?_⟩
    cases List.mem_cons.mp hother with
    | inl hsame =>
      subst hsame
      exact ⟨hkept' _ (hfirst hloaded).1, (hfirst hloaded).2⟩
    | inr hrest => exact hothers other hrest hloaded

theorem noneFailed_empty : NoneFailed ∅ := fun _ h => by cases h

/-- The templates have a condition each, which this object meets. -/
theorem onlyMet_run (hstore : WellLoaded store) (fuel : Nat) :
    OnlyMet store (isObjectMeetToConditionList (fun _ => true) store fuel) := by
  induction fuel with
  | zero => intro r template _ hrun; cases hrun
  | succ fuel ih =>
    intro r template htemplate hrun
    obtain ⟨groups, hwalk, hany⟩ := Option.map_eq_some_iff.mp hrun
    obtain ⟨hne, hloaded⟩ := hstore r template htemplate
    obtain ⟨cond, hcond⟩ := List.exists_mem_of_ne_nil _ hne
    have hpassed := ((noneFailed_empty.walk ih hwalk).2 cond hcond (hloaded cond hcond)).1
    have htrue : (groups.entries.any fun group => group.2) = true :=
      List.any_eq_true.mpr ⟨⟨cond.elseGroup, true⟩, AList.mem_lookup_iff.mp hpassed, rfl⟩
    rw [htrue] at hany
    cases hany

/-- On a circle of templates the check goes on until the stack is used up. -/
theorem never_returns (hstore : WellLoaded store) (fuel : Nat) :
    ∀ r template, TransGen (Refers store) r r → store.lookup r = some template →
      isObjectMeetToConditionList (fun _ => true) store fuel template = none := by
  induction fuel with
  | zero => intro r template _ _; rfl
  | succ fuel ih =>
    intro r template hcircle htemplate
    refine Option.eq_none_iff_forall_ne_some.mpr fun met hrun => ?_
    obtain ⟨groups, hwalk, -⟩ := Option.map_eq_some_iff.mp hrun
    obtain ⟨s, ⟨cond, hcond, rfl, hne⟩, hback⟩ := TransGen.head'_iff.mp hcircle
    have hmem : cond ∈ template := by
      simpa [ReferenceStore.template, htemplate] using hcond
    have hnext : TransGen (Refers store) cond.referenceId cond.referenceId :=
      TransGen.tail'_iff.mpr ⟨r, hback, cond, hcond, rfl, hne⟩
    obtain ⟨_, ⟨other, hother, _⟩, _⟩ := TransGen.head'_iff.mp hnext
    cases hlookup : store.lookup cond.referenceId with
    | none => simp [ReferenceStore.template, hlookup] at hother
    | some called =>
      have hloaded := (hstore r template htemplate).2 cond hmem
      have hasked := ((noneFailed_empty.walk (onlyMet_run hstore fuel) hwalk).2
        cond hmem hloaded).2 hne called hlookup
      have hnever := ih cond.referenceId called hnext hlookup
      rw [hasked] at hnever
      cases hnever

theorem acyclic_of_ends (hstore : WellLoaded store)
    (h : ∀ conditions, ∃ met, Fuel.Returns (meetBody (fun _ => true) store) conditions met) :
    Acyclic (Refers store) := by
  intro r hcircle
  obtain ⟨_, ⟨cond, hcond, _⟩, _⟩ := TransGen.head'_iff.mp hcircle
  cases hlookup : store.lookup r with
  | none => simp [ReferenceStore.template, hlookup] at hcond
  | some template =>
    obtain ⟨met, fuel, hrun⟩ := h template
    rw [← isObjectMeetToConditionList, never_returns hstore fuel r template hcircle hlookup] at hrun
    cases hrun

end Cycle

structure Sound (store : ReferenceStore) : Prop where
  acyclic : Acyclic (Refers store)
  meets_ends : ∀ meets conditions, ∃ met, Fuel.Returns (meetBody meets store) conditions met
  -- the mask is given unless an assertion stops the search, which it never does where every
  -- reference is found
  mask_ends : ∀ maskForCondition conditions, ∃ answer,
    Fuel.Returns (maskBody maskForCondition store) conditions answer ∧
      (AllResolved store conditions → ∃ mask, answer = .ok mask)
  meets_iff : ∀ meets conditions,
    Fuel.Returns (meetBody meets store) conditions true ↔ Met meets store conditions

theorem sound_of_acyclic (h : Acyclic (Refers store)) : Sound store where
  acyclic := h
  meets_ends _ := meetBody_ends h
  mask_ends _ := maskBody_ends h
  meets_iff meets conditions := by
    obtain ⟨met, hmet⟩ := @meetBody_ends meets store h conditions
    constructor
    · intro htrue
      exact (met_of_returns htrue).mp rfl
    · intro hMet
      obtain rfl := (met_of_returns hmet).mpr hMet
      exact hmet

theorem acyclic_loadConditions :
    Acyclic (Refers (loadConditions valuesValid rows)) ↔ Acyclic (RowRefers rows) := by
  have hsame : Refers (loadConditions valuesValid rows) = RowRefers rows :=
    funext₂ fun r s => propext (refers_loadConditions r s)
  rw [hsame]

/-- The loader leaves out rows that refer to their own template, and no longer circles. -/
theorem sound_loadConditions_iff (valuesValid : Condition → Bool) (rows : List ConditionRow) :
    (Sound (loadConditions valuesValid rows) ↔ Acyclic (RowRefers rows)) ∧
      ((∀ meets conditions, ∃ met,
        Fuel.Returns (meetBody meets (loadConditions valuesValid rows)) conditions met) ↔
          Acyclic (RowRefers rows)) := by
  rw [← @acyclic_loadConditions valuesValid rows]
  refine ⟨⟨fun h => h.acyclic, sound_of_acyclic⟩, fun h => ?_, fun h => ?_⟩
  · exact acyclic_of_ends wellLoaded_loadConditions (h fun _ => true)
  · exact (sound_of_acyclic h).meets_ends

def referenceRow (source target : Int) : ConditionRow where
  sourceTypeOrReferenceId := -source
  elseGroup := 0
  conditionTypeOrReference := -target
  conditionTarget := 0
  conditionValue1 := 0
  conditionValue2 := 0
  conditionValue3 := 0
  negativeCondition := false
  scriptId := 0

/-- Two templates that refer to each other are loaded, and their check never ends. -/
theorem two_templates_never_end :
    ¬ Sound (loadConditions (fun _ => true) [referenceRow 1 2, referenceRow 2 1]) ∧
      ∃ template, (loadConditions (fun _ => true) [referenceRow 1 2, referenceRow 2 1]).lookup 1 =
        some template ∧ ∀ fuel, isObjectMeetToConditionList (fun _ => true)
          (loadConditions (fun _ => true) [referenceRow 1 2, referenceRow 2 1]) fuel template =
            none := by
  have hcircle : TransGen
      (Refers (loadConditions (fun _ => true) [referenceRow 1 2, referenceRow 2 1])) 1 1 := by
    have hrefers := @refers_loadConditions (fun _ => true) [referenceRow 1 2, referenceRow 2 1]
    refine .tail (.single ((hrefers 1 2).mpr ?_)) ((hrefers 2 1).mpr ?_)
    · exact ⟨referenceRow 1 2, by simp, by decide, by decide, rfl, rfl, by decide⟩
    · exact ⟨referenceRow 2 1, by simp, by decide, by decide, rfl, rfl, by decide⟩
  exact ⟨fun h => h.acyclic 1 hcircle, _, rfl, fun fuel =>
    never_returns wellLoaded_loadConditions fuel 1 _ hcircle rfl⟩

end Ashamane.Conditions
