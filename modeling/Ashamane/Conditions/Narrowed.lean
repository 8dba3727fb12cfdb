import Ashamane.Conditions.Ends
import Ashamane.Conditions.Kinds

/-! When the types that a search is narrowed to include those of the objects that meet its
conditions. -/
namespace Ashamane.Conditions
open Ashamane.Lib Relation

variable {store : ReferenceStore} {conditions seen : List Condition} {cond : Condition}
  {maskForCondition : Condition → BitVec 32} {i : Nat} {masks masks' : Masks}
  {refer : List Condition → Option (Except Assertion (BitVec 32))}

inductive Lets (lets : Condition → Bool) (store : ReferenceStore) : List Condition → Prop where
  | empty : Lets lets store []
  | group (conditions : List Condition) (group : Nat) (hne : members group conditions ≠ [])
      (hplain : ∀ cond ∈ members group conditions, cond.referenceId = 0 → lets cond = true)
      (hrefer : ∀ cond ∈ members group conditions, cond.referenceId ≠ 0 →
        ∀ template, store.lookup cond.referenceId = some template → Lets lets store template) :
      Lets lets store conditions

def Condition.Through (lets : Condition → Bool) (store : ReferenceStore) (cond : Condition) :
    Prop :=
  (cond.referenceId = 0 → lets cond = true) ∧
    (cond.referenceId ≠ 0 → ∀ template, store.lookup cond.referenceId = some template →
      Lets lets store template)

theorem lets_iff {lets : Condition → Bool} : Lets lets store conditions ↔ conditions = [] ∨
    ∃ group, members group conditions ≠ [] ∧
      ∀ cond ∈ members group conditions, cond.Through lets store := by
  constructor
  · intro h
    cases h with
    | empty => exact .inl rfl
    | group _ group hne hplain hrefer =>
      exact .inr ⟨group, hne, fun cond hcond => ⟨hplain cond hcond, hrefer cond hcond⟩⟩
  · rintro (rfl | ⟨group, hne, hall⟩)
    · exact .empty
    · exact .group conditions group hne (fun cond hcond => (hall cond hcond).1)
        fun cond hcond => (hall cond hcond).2

def HasBit (maskForCondition : Condition → BitVec 32) (i : Nat) (cond : Condition) : Bool :=
  (maskForCondition cond).getLsbD i

/-- The two things that a step of the walk does, unless an assertion fails. -/
theorem maskStep_cases
    (h : maskStep maskForCondition store refer (.ok masks) cond = some (.ok masks')) :
    cond.isLoaded = true ∧
      ((masks.lookup cond.elseGroup = some 0 ∧ masks' = masks) ∨
        ∃ other, cond.mask maskForCondition store refer = some (.ok other) ∧
          ∀ g, masks'.lookup g = if g = cond.elseGroup then
            some ((masks.lookup cond.elseGroup).getD gridMapTypeMaskAll &&& other)
          else masks.lookup g) := by
  have hnarrow : ∀ mask : BitVec 32, (cond.mask maskForCondition store refer).map (fun answer =>
        answer.map fun other => masks.insert cond.elseGroup (mask &&& other)) = some (.ok masks') →
      ∃ other, cond.mask maskForCondition store refer = some (.ok other) ∧
        ∀ g, masks'.lookup g =
          if g = cond.elseGroup then some (mask &&& other) else masks.lookup g := by
    intro mask hmap
    obtain ⟨answer, hanswer, hok⟩ := Option.map_eq_some_iff.mp hmap
    cases answer with
    | error assertion => cases hok
    | ok other =>
      obtain rfl := Except.ok.inj hok
      refine ⟨other, hanswer, fun g => ?_⟩
      by_cases hg : g = cond.elseGroup
      · rw [if_pos hg, hg, AList.lookup_insert]
      · rw [if_neg hg, AList.lookup_insert_ne hg]
  unfold maskStep at h
  by_cases hloaded : cond.isLoaded = true
  · refine ⟨hloaded, ?_⟩
    simp only [hloaded, if_true] at h
    cases hgroup : masks.lookup cond.elseGroup with
    | none =>
      rw [hgroup] at h
      exact .inr (hnarrow _ h)
    | some mask =>
      rw [hgroup] at h
      simp only [] at h
      by_cases hzero : mask = 0
      · rw [if_pos hzero] at h
        rw [hzero]
        exact .inl ⟨rfl, (Except.ok.inj (Option.some.inj h)).symm⟩
      · rw [if_neg hzero] at h
        exact .inr (hnarrow mask h)
  · simp only [hloaded, Bool.false_eq_true, if_false] at h
    cases Option.some.inj h

/-- What is recorded of the groups, after the conditions `seen`. -/
def MasksRight (maskForCondition : Condition → BitVec 32) (store : ReferenceStore) (i : Nat)
    (masks : Masks) (seen : List Condition) : Prop :=
  ∀ g, match masks.lookup g with
    | none => members g seen = []
    | some mask => members g seen ≠ [] ∧ (mask.getLsbD i = true ↔
        ∀ cond ∈ members g seen, cond.Through (HasBit maskForCondition i) store)

def MasksAnswer (maskForCondition : Condition → BitVec 32) (store : ReferenceStore) (i : Nat)
    (refer : List Condition → Option (Except Assertion (BitVec 32))) : Prop :=
  ∀ template mask, refer template = some (.ok mask) →
    (mask.getLsbD i = true ↔ Lets (HasBit maskForCondition i) store template)

theorem MasksAnswer.mask {mask : BitVec 32} (hrefer : MasksAnswer maskForCondition store i refer)
    (h : cond.mask maskForCondition store refer = some (.ok mask)) :
    mask.getLsbD i = true ↔ cond.Through (HasBit maskForCondition i) store := by
  unfold Condition.mask Condition.ask at h
  by_cases hzero : cond.referenceId = 0
  · rw [if_neg (not_not.mpr hzero)] at h
    obtain rfl := Except.ok.inj (Option.some.inj h)
    exact ⟨fun hbit => ⟨fun _ => hbit, fun hne => absurd hzero hne⟩, fun hbit => hbit.1 hzero⟩
  · rw [if_pos hzero] at h
    cases htemplate : store.lookup cond.referenceId with
    | none =>
      rw [htemplate] at h
      cases Option.some.inj h
    | some template =>
      rw [htemplate] at h
      refine (hrefer template mask h).trans ⟨fun hlets => ⟨fun hz => absurd hz hzero, ?_⟩,
        fun hthrough => hthrough.2 hzero template htemplate⟩
      intro _ other hother
      obtain rfl := Option.some.inj (htemplate.symm.trans hother)
      exact hlets

theorem getLsbD_all (hi : i < 8) : gridMapTypeMaskAll.getLsbD i = true := by
  revert hi
  revert i
  decide

theorem MasksRight.step (hi : i < 8) (hmasks : MasksRight maskForCondition store i masks seen)
    (hrefer : MasksAnswer maskForCondition store i refer)
    (h : maskStep maskForCondition store refer (.ok masks) cond = some (.ok masks')) :
    MasksRight maskForCondition store i masks' (seen ++ [cond]) := by
  obtain ⟨hloaded, hcases⟩ := maskStep_cases h
  intro g
  have hg := hmasks g
  by_cases hown : cond.elseGroup = g
  · subst hown
    rw [members_concat_self hloaded]
    rcases hcases with ⟨hzero, rfl⟩ | ⟨other, hmask, hlookup⟩
    · rw [hzero] at hg ⊢
      refine ⟨List.append_ne_nil_of_right_ne_nil _ (List.cons_ne_nil _ _), ?_⟩
      rw [BitVec.ofNat_eq_ofNat, BitVec.getLsbD_zero]
      refine iff_of_false Bool.false_ne_true fun hall => ?_
      have hbefore := hg.2.mpr fun other hother => hall other (List.mem_append_left _ hother)
      rw [BitVec.ofNat_eq_ofNat, BitVec.getLsbD_zero] at hbefore
      cases hbefore
    · rw [hlookup, if_pos rfl]
      refine ⟨List.append_ne_nil_of_right_ne_nil _ (List.cons_ne_nil _ _), ?_⟩
      rw [BitVec.getLsbD_and, Bool.and_eq_true, hrefer.mask hmask]
      have hbefore : ((masks.lookup cond.elseGroup).getD gridMapTypeMaskAll).getLsbD i = true ↔
          ∀ other ∈ members cond.elseGroup seen,
            other.Through (HasBit maskForCondition i) store := by
        cases hgroup : masks.lookup cond.elseGroup with
        | none =>
          rw [hgroup] at hg
          simp only [] at hg
          rw [hg]
          exact iff_of_true (getLsbD_all hi) nofun
        | some mask =>
          rw [hgroup] at hg
          exact hg.2
      rw [hbefore, List.forall_mem_append, List.forall_mem_singleton]
  · rw [members_concat_of_ne fun _ => hown]
    rcases hcases with ⟨-, rfl⟩ | ⟨other, -, hlookup⟩
    · exact hg
    · rw [hlookup, if_neg (Ne.symm hown)]
      exact hg

theorem maskStep_error (conditions : List Condition) (assertion : Assertion) :
    conditions.foldlM (maskStep maskForCondition store refer) (.error assertion) =
      some (.error assertion) := by
  induction conditions with
  | nil => rfl
  | cons cond conditions ih =>
    rw [List.foldlM_cons]
    exact ih

theorem MasksRight.walk (hi : i < 8) (hmasks : MasksRight maskForCondition store i masks seen)
    (hrefer : MasksAnswer maskForCondition store i refer)
    (h : conditions.foldlM (maskStep maskForCondition store refer) (.ok masks) =
      some (.ok masks')) :
    MasksRight maskForCondition store i masks' (seen ++ conditions) := by
  induction conditions generalizing masks seen with
  | nil =>
    obtain rfl := Except.ok.inj (Option.some.inj h)
    rwa [List.append_nil]
  | cons cond conditions ih =>
    rw [List.foldlM_cons] at h
    obtain ⟨between, hstep, hrest⟩ := Option.bind_eq_some_iff.mp h
    cases between with
    | error assertion =>
      rw [maskStep_error] at hrest
      cases Option.some.inj hrest
    | ok masks =>
      rw [List.append_cons]
      exact ih (hmasks.step hi hrefer hstep) hrest

theorem getLsbD_foldl_or (l : List (Sigma fun _ : Nat => BitVec 32)) (mask : BitVec 32) :
    (l.foldl (fun mask group => mask ||| group.2) mask).getLsbD i =
      (mask.getLsbD i || l.any fun group => group.2.getLsbD i) := by
  induction l generalizing mask with
  | nil => rw [List.foldl_nil, List.any_nil, Bool.or_false]
  | cons group l ih => rw [List.foldl_cons, ih, BitVec.getLsbD_or, List.any_cons, Bool.or_assoc]

theorem MasksAnswer.maskBody (hi : i < 8) (hrefer : MasksAnswer maskForCondition store i refer) :
    MasksAnswer maskForCondition store i (maskBody maskForCondition store refer) := by
  intro conditions mask h
  unfold Conditions.maskBody at h
  by_cases hempty : conditions.isEmpty = true
  · rw [if_pos hempty] at h
    obtain rfl := Except.ok.inj (Option.some.inj h)
    rw [List.isEmpty_iff.mp hempty]
    exact iff_of_true (getLsbD_all hi) .empty
  · rw [if_neg hempty] at h
    obtain ⟨walked, hwalk, hok⟩ := Option.map_eq_some_iff.mp h
    cases walked with
    | error assertion => cases hok
    | ok masks =>
      obtain rfl := Except.ok.inj hok
      have hstart : MasksRight maskForCondition store i ∅ [] := fun g => by
        rw [AList.lookup_empty]
        rfl
      have hright := hstart.walk hi hrefer hwalk
      rw [List.nil_append] at hright
      rw [getLsbD_foldl_or, BitVec.ofNat_eq_ofNat, BitVec.getLsbD_zero, Bool.false_or,
        List.any_eq_true, lets_iff, or_iff_right fun h => hempty (List.isEmpty_iff.mpr h)]
      constructor
      · rintro ⟨⟨g, mask⟩, hmem, hbit⟩
        have hg := hright g
        rw [AList.mem_lookup_iff.mpr hmem] at hg
        exact ⟨g, hg.1, hg.2.mp hbit⟩
      · rintro ⟨g, hne, hall⟩
        have hg := hright g
        cases hlookup : masks.lookup g with
        | none =>
          rw [hlookup] at hg
          exact absurd hg hne
        | some mask =>
          rw [hlookup] at hg
          exact ⟨⟨g, mask⟩, AList.mem_lookup_iff.mp hlookup, hg.2.mpr hall⟩

theorem lets_of_returns (hi : i < 8) {mask : BitVec 32}
    (h : Fuel.Returns (maskBody maskForCondition store) conditions (.ok mask)) :
    mask.getLsbD i = true ↔ Lets (HasBit maskForCondition i) store conditions :=
  Fuel.Returns.induct (P := fun conditions answer => ∀ mask, answer = .ok mask →
      (mask.getLsbD i = true ↔ Lets (HasBit maskForCondition i) store conditions))
    (fun f hf conditions answer hanswer mask hok => by
      subst hok
      exact MasksAnswer.maskBody hi (fun template mask hmask => hf template _ hmask mask rfl)
        conditions mask hanswer) h mask rfl

namespace WorldObject

def gridBit : WorldObject → Nat
  | creature .. => 1
  | player .. => 4
  | gameObject .. => 3
  | dynamicObject _ => 2
  | corpse _ => 0
  | areaTrigger _ => 5
  | sceneObject _ => 6
  | conversation _ => 7

variable (object : WorldObject)

theorem gridBit_lt : object.gridBit < 8 := by
  cases object <;> simp only [gridBit] <;> decide

theorem gridMapType_eq : object.gridMapType = BitVec.twoPow 32 object.gridBit := by
  cases object <;> rfl

theorem and_gridMapType (mask : BitVec 32) :
    mask &&& object.gridMapType ≠ 0 ↔ mask.getLsbD object.gridBit = true := by
  have hbit := object.gridBit_lt
  rw [gridMapType_eq, BitVec.and_twoPow]
  cases mask.getLsbD object.gridBit with
  | false => exact iff_of_false (fun h => h rfl) Bool.false_ne_true
  | true =>
    refine iff_of_true (fun h => ?_) rfl
    have hone := congrArg (BitVec.getLsbD · object.gridBit) h
    simp [BitVec.getLsbD_twoPow] at hone
    omega

variable {object}

theorem through_unit {f : UnitData → Bool} (h : object.toUnit.any f = true) :
    (GRID_MAP_TYPE_MASK_CREATURE ||| GRID_MAP_TYPE_MASK_PLAYER).getLsbD object.gridBit = true := by
  cases object with
  | creature | player =>
    simp only [gridBit]
    decide
  | _ => cases h

theorem through_player {f : PlayerData → Bool} (h : object.toPlayer.any f = true) :
    GRID_MAP_TYPE_MASK_PLAYER.getLsbD object.gridBit = true := by
  cases object with
  | player =>
    simp only [gridBit]
    decide
  | _ => cases h

theorem through_creature {f : CreatureData → Bool} (h : object.toCreature.any f = true) :
    GRID_MAP_TYPE_MASK_CREATURE.getLsbD object.gridBit = true := by
  cases object with
  | creature =>
    simp only [gridBit]
    decide
  | _ => cases h

theorem through_units {other : Option WorldObject} {f : WorldObject → UnitData → Bool}
    (h : (other.any fun toObject => toObject.toUnit.isSome && object.toUnit.any (f toObject)) =
      true) :
    (GRID_MAP_TYPE_MASK_CREATURE ||| GRID_MAP_TYPE_MASK_PLAYER).getLsbD object.gridBit = true := by
  cases other with
  | none => cases h
  | some toObject => exact through_unit (Bool.and_eq_true_iff.mp h).2

theorem through_all : gridMapTypeMaskAll.getLsbD object.gridBit = true :=
  getLsbD_all object.gridBit_lt

theorem isType_of_disjoint {value : BitVec 32} (h : value &&& object.objectType = 0) :
    object.isType value = false := by
  rw [isType, ← BitVec.setWidth_and, h]
  rfl

theorem and_of_outside {value types other : BitVec 32} (h : value &&& ~~~types = 0)
    (hother : ~~~types &&& other = other) : value &&& other = 0 := by
  rw [← hother, ← BitVec.and_assoc, h]
  exact BitVec.zero_and

end WorldObject

namespace Condition

open WorldObject

variable {object : WorldObject} {w : World} {targets : Nat → Option WorldObject}

theorem through_entry (hvalid : cond.conditionValue1 ∈ [3, 5, 4, 7])
    (h : cond.meetsObjectEntryGuid object = true) :
    cond.entryMask.getLsbD object.gridBit = true := by
  rw [meetsObjectEntryGuid] at h
  by_cases htype : object.typeId = cond.conditionValue1
  · rw [entryMask, ← htype]
    rw [← htype] at hvalid
    cases object with
    | creature | player | gameObject | corpse | areaTrigger =>
      simp only [typeId, gridBit]
      decide
    | dynamicObject | sceneObject | conversation =>
      simp only [typeId] at hvalid
      exact absurd hvalid (by decide)
  · rw [if_neg htype] at h
    cases h

def typesTable : List (BitVec 32 × BitVec 32) :=
  [(TYPEMASK_UNIT, GRID_MAP_TYPE_MASK_CREATURE ||| GRID_MAP_TYPE_MASK_PLAYER),
    (TYPEMASK_PLAYER, GRID_MAP_TYPE_MASK_PLAYER),
    (TYPEMASK_GAMEOBJECT, GRID_MAP_TYPE_MASK_GAMEOBJECT),
    (TYPEMASK_CORPSE, GRID_MAP_TYPE_MASK_CORPSE),
    (TYPEMASK_AREATRIGGER, GRID_MAP_TYPE_MASK_AREATRIGGER)]

theorem typesMask_eq : cond.typesMask = typesTable.foldl (fun mask entry =>
    if BitVec.ofNat 32 cond.conditionValue1 &&& entry.1 ≠ 0 then mask ||| entry.2 else mask) 0 :=
  rfl

theorem getLsbD_foldl_types (value : BitVec 32) (table : List (BitVec 32 × BitVec 32))
    (mask : BitVec 32) :
    (table.foldl (fun mask entry => if value &&& entry.1 ≠ 0 then mask ||| entry.2 else mask)
        mask).getLsbD i =
      (mask.getLsbD i || table.any fun entry => value &&& entry.1 ≠ 0 && entry.2.getLsbD i) := by
  induction table generalizing mask with
  | nil => rw [List.foldl_nil, List.any_nil, Bool.or_false]
  | cons entry table ih =>
    rw [List.foldl_cons, ih, List.any_cons, ← Bool.or_assoc]
    congr 1
    by_cases hvalue : value &&& entry.1 ≠ 0
    · rw [if_pos hvalue, BitVec.getLsbD_or, decide_eq_true hvalue, Bool.true_and]
    · rw [if_neg hvalue, decide_eq_false hvalue, Bool.false_and, Bool.or_false]

theorem through_entry_types {types mask : BitVec 32} (hmem : (types, mask) ∈ typesTable)
    (hvalue : BitVec.ofNat 32 cond.conditionValue1 &&& types ≠ 0) (hbit : mask.getLsbD i = true) :
    cond.typesMask.getLsbD i = true := by
  rw [typesMask_eq, getLsbD_foldl_types, Bool.or_eq_true]
  refine .inr (List.any_eq_true.mpr ⟨_, hmem, ?_⟩)
  rw [decide_eq_true hvalue, hbit]
  rfl

theorem through_types
    (hvalid : BitVec.ofNat 32 cond.conditionValue1 &&&
      ~~~(TYPEMASK_UNIT ||| TYPEMASK_PLAYER ||| TYPEMASK_GAMEOBJECT ||| TYPEMASK_CORPSE) = 0)
    (h : object.isType (BitVec.ofNat 32 cond.conditionValue1) = true) :
    cond.typesMask.getLsbD object.gridBit = true := by
  generalize hvalue : BitVec.ofNat 32 cond.conditionValue1 = value at hvalid h
  have hout : ∀ other : BitVec 32, ~~~(TYPEMASK_UNIT ||| TYPEMASK_PLAYER ||| TYPEMASK_GAMEOBJECT |||
      TYPEMASK_CORPSE) &&& other = other → value &&& other = 0 := fun other hother =>
    and_of_outside hvalid hother
  -- an object that has one type of the mask, beside others that the mask cannot have
  have hone : ∀ types rest : BitVec 32, object.objectType = types ||| rest → value &&& rest = 0 →
      value &&& types ≠ 0 := by
    intro types rest htypes hrest hzero
    rw [isType_of_disjoint (by rw [htypes, BitVec.and_or_distrib_left, hzero, hrest]; rfl)] at h
    cases h
  have hentry : ∀ {types mask : BitVec 32} {i : Nat}, (types, mask) ∈ typesTable →
      value &&& types ≠ 0 → mask.getLsbD i = true → cond.typesMask.getLsbD i = true :=
    fun hmem hne hbit => through_entry_types hmem (hvalue ▸ hne) hbit
  cases object with
  | creature =>
    exact hentry (i := 1) (.head _) (hone TYPEMASK_UNIT 1 rfl (hout 1 rfl)) (by decide)
  | player =>
    by_cases hunit : value &&& TYPEMASK_UNIT = 0
    · have hplayer := hone TYPEMASK_PLAYER (TYPEMASK_UNIT ||| 1) rfl (by
        rw [BitVec.and_or_distrib_left, hunit, hout 1 rfl]
        rfl)
      exact hentry (i := 4) (.tail _ (.head _)) hplayer (by decide)
    · exact hentry (i := 4) (.head _) hunit (by decide)
  | gameObject =>
    have hgameObject := hone TYPEMASK_GAMEOBJECT 1 rfl (hout 1 rfl)
    exact hentry (i := 3) (.tail _ (.tail _ (.head _))) hgameObject (by decide)
  | corpse =>
    have hcorpse := hone TYPEMASK_CORPSE 1 rfl (hout 1 rfl)
    exact hentry (i := 0) (.tail _ (.tail _ (.tail _ (.head _)))) hcorpse (by decide)
  | dynamicObject => exact absurd BitVec.and_zero (hone 0 0x0041 rfl (hout _ rfl))
  | areaTrigger => exact absurd BitVec.and_zero (hone 0 0x0101 rfl (hout _ rfl))
  | sceneObject => exact absurd BitVec.and_zero (hone 0 0x0201 rfl (hout _ rfl))
  | conversation => exact absurd BitVec.and_zero (hone 0 0x0401 rfl (hout _ rfl))

theorem through_type {type : ConditionTypes} (htype : cond.kind = some type)
    (hvalid : cond.typesValid = true) (h : cond.test w targets object type = true) :
    (cond.typeMask type).getLsbD object.gridBit = true := by
  cases type with
  | objectEntryGuid =>
    rw [typesValid, htype] at hvalid
    exact through_entry (of_decide_eq_true hvalid) h
  | typeMask =>
    rw [typesValid, htype] at hvalid
    exact through_types (of_decide_eq_true (Bool.and_eq_true_iff.mp hvalid).2) h
  | creatureType => exact through_creature h
  | relationTo | reactionTo => exact through_units h
  | none | zoneid | activeEvent | instanceInfo | mapid | areaid | nearCreature | nearGameobject
  | distanceTo | worldState | phaseid | spawnmask | realmAchievement | terrainSwap =>
    exact through_all
  | aura | «class» | race | level | alive | hpVal | hpPct | unitState | inWater | standState
  | charmed => exact through_unit h
  | item | itemEquipped | reputationRank | achievement | team | gender | skill | questrewarded
  | questtaken | questComplete | questNone | spell | drunkenstate | title | dailyQuestDone | petType
  | taxi | queststate | questObjectiveComplete => exact through_player h

theorem through_target (htarget : targets cond.conditionTarget = some object)
    (hvalid : cond.typesValid = true) (h : cond.meets w targets = true) :
    cond.getSearcherTypeMaskForCondition.getLsbD object.gridBit = true := by
  rw [getSearcherTypeMaskForCondition]
  by_cases hneg : cond.negativeCondition = true
  · rw [if_pos hneg]
    exact through_all
  · rw [if_neg hneg]
    rw [Condition.meets, htarget] at h
    have htest := (Bool.and_eq_true_iff.mp h).1
    rw [if_neg hneg] at htest
    cases htype : cond.kind with
    | none =>
      rw [htype] at htest
      cases htest
    | some type =>
      rw [htype] at htest
      exact through_type htype hvalid htest

end Condition

inductive Reached (store : ReferenceStore) : List Condition → Condition → Prop where
  | here {conditions : List Condition} {cond : Condition} (hcond : cond ∈ conditions) :
      Reached store conditions cond
  | there {conditions template : List Condition} {reference cond : Condition}
      (hmem : reference ∈ conditions) (hne : reference.referenceId ≠ 0)
      (htemplate : store.lookup reference.referenceId = some template)
      (hcond : Reached store template cond) : Reached store conditions cond

/-- An else-group whose conditions are met lets a type through that each of them lets through. -/
theorem lets_of_met {meets lets : Condition → Bool} (h : Met meets store conditions)
    (hall : ∀ cond, Reached store conditions cond → cond.referenceId = 0 → meets cond = true →
      lets cond = true) : Lets lets store conditions := by
  induction h with
  | group conditions group hloaded hmeets hrefer ih =>
    obtain ⟨first, hfirst, hload, hgroup⟩ := hloaded
    refine .group conditions group
      (List.ne_nil_of_mem (mem_members.mpr ⟨hfirst, hload, hgroup⟩)) ?_ ?_
    · intro cond hcond hzero
      obtain ⟨hmem, hload, hgroup⟩ := mem_members.mp hcond
      exact hall cond (.here hmem) hzero (hmeets cond hmem hload hgroup hzero)
    · intro cond hcond hne template htemplate
      obtain ⟨hmem, hload, hgroup⟩ := mem_members.mp hcond
      exact ih cond hmem hload hgroup hne template htemplate fun other hother =>
        hall other (.there hmem hne htemplate hother)

theorem Met.mono {meets meets' : Condition → Bool} (h : Met meets store conditions)
    (hall : ∀ cond, Reached store conditions cond → cond.referenceId = 0 → meets cond = true →
      meets' cond = true) : Met meets' store conditions := by
  induction h with
  | group conditions group hloaded hmeets hrefer ih =>
    refine .group conditions group hloaded ?_ ?_
    · intro cond hmem hload hgroup hzero
      exact hall cond (.here hmem) hzero (hmeets cond hmem hload hgroup hzero)
    · intro cond hmem hload hgroup hne template htemplate
      exact ih cond hmem hload hgroup hne template htemplate fun other hother =>
        hall other (.there hmem hne htemplate hother)

def OneGroup (conditions : List Condition) : Prop :=
  ∀ cond ∈ conditions, ∀ other ∈ conditions, cond.elseGroup = other.elseGroup

theorem OneGroup.mem_members {group : Nat} (hone : OneGroup conditions)
    (hresolved : Resolved store conditions) (hne : members group conditions ≠ [])
    (hcond : cond ∈ conditions) : cond ∈ members group conditions := by
  obtain ⟨first, hfirst⟩ := List.exists_mem_of_ne_nil _ hne
  obtain ⟨hmem, -, hgroup⟩ := Conditions.mem_members.mp hfirst
  exact Conditions.mem_members.mpr
    ⟨hcond, (hresolved cond hcond).1, (hone cond hcond first hmem).trans hgroup⟩

/-- With one else-group in each list every condition has to let the type through. -/
theorem reached_of_lets {lets : Condition → Bool} (hresolved : AllResolved store conditions)
    (hone : OneGroup conditions)
    (htemplates : ∀ r template, store.lookup r = some template → OneGroup template)
    (h : Lets lets store conditions) (hcond : Reached store conditions cond)
    (hzero : cond.referenceId = 0) : lets cond = true := by
  induction hcond with
  | here hmem =>
    rcases lets_iff.mp h with rfl | ⟨group, hne, hall⟩
    · cases hmem
    · exact (hall _ (hone.mem_members hresolved.1 hne hmem)).1 hzero
  | there hmem hne htemplate _ ih =>
    rcases lets_iff.mp h with rfl | ⟨group, hgroup, hall⟩
    · cases hmem
    · exact ih ⟨hresolved.2 _ _ htemplate, hresolved.2⟩ (htemplates _ _ htemplate)
        ((hall _ (hone.mem_members hresolved.1 hgroup hmem)).2 hne _ htemplate) hzero

end Ashamane.Conditions
