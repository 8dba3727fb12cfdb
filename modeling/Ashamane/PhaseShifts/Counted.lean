import Ashamane.Lib.Run
import Ashamane.PhaseShifts.Basic

/-! What the counters and the flags of a phase shift say about its phases. -/
namespace Ashamane.PhaseShifts
open Ashamane.Lib

section Flags
variable {w : Nat} {value flag other : BitVec w}

theorem hasFlag_eq_iff {v' : BitVec w} (h : v' &&& other = value &&& other) :
    hasFlag v' other = hasFlag value other := by
  rw [hasFlag, hasFlag, h]

theorem and_or_of_disjoint (h : flag &&& other = 0#w) :
    (value ||| flag) &&& other = value &&& other := by
  ext i hi
  have hbit := congrArg (·.getLsbD i) h
  simp only [BitVec.getLsbD_and, BitVec.getLsbD_zero] at hbit
  simp only [← BitVec.getLsbD_eq_getElem, BitVec.getLsbD_and, BitVec.getLsbD_or,
    Bool.and_or_distrib_right, hbit, Bool.or_false]

theorem and_not_of_disjoint (h : flag &&& other = 0#w) :
    (value &&& ~~~flag) &&& other = value &&& other := by
  ext i hi
  have hbit := congrArg (·.getLsbD i) h
  simp only [BitVec.getLsbD_and, BitVec.getLsbD_zero] at hbit
  simp only [← BitVec.getLsbD_eq_getElem, BitVec.getLsbD_and, BitVec.getLsbD_not, hi,
    decide_true, Bool.true_and]
  cases hflag : flag.getLsbD i
  · simp
  · rw [hflag, Bool.true_and] at hbit
    simp [hbit]

end Flags

variable {κ : Type} {s : PhaseShift κ} {F : PhaseId → PhaseFlags}

namespace PhaseShift

theorem hasFlag_setFlag_ne {flag other : PhaseShiftFlags} (h : flag &&& other = 0#32)
    (apply : Bool) (s : PhaseShift κ) :
    hasFlag (s.setFlag flag apply).flags other = hasFlag s.flags other := by
  cases apply with
  | false => exact hasFlag_eq_iff (and_not_of_disjoint h)
  | true => exact hasFlag_eq_iff (and_or_of_disjoint h)

theorem hasFlag_setFlag {flag : PhaseShiftFlags} (h : flag ≠ 0#32) (apply : Bool)
    (s : PhaseShift κ) : hasFlag (s.setFlag flag apply).flags flag = apply := by
  cases apply with
  | false =>
    have hnone : s.flags &&& ~~~flag &&& flag = 0#32 := by
      rw [BitVec.and_assoc, BitVec.and_comm (~~~flag), BitVec.and_not_self]
      exact BitVec.and_zero
    simp [hasFlag, setFlag, hnone]
  | true =>
    have hall : (s.flags ||| flag) &&& flag = flag := by
      ext i hi
      simpa using Or.inr
    simp [hasFlag, setFlag, hall, h]

/-- What `UpdateUnphasedFlag` sees to. -/
structure Settled (s : PhaseShift κ) : Prop where
  matching : hasFlag s.flags (if hasFlag s.flags PhaseShiftFlags.inverse then
      PhaseShiftFlags.inverseUnphased else PhaseShiftFlags.unphased) =
    !(s.nonCosmeticReferences != 0 && s.defaultReferences == 0)
  other : hasFlag s.flags (if hasFlag s.flags PhaseShiftFlags.inverse then
    PhaseShiftFlags.unphased else PhaseShiftFlags.inverseUnphased) = false

theorem updateUnphasedFlag_settled (s : PhaseShift κ) : s.updateUnphasedFlag.Settled := by
  cases hinverse : hasFlag s.flags PhaseShiftFlags.inverse with
  | false =>
    have hkeep : hasFlag s.updateUnphasedFlag.flags PhaseShiftFlags.inverse = false := by
      simp only [updateUnphasedFlag, hinverse]
      rw [hasFlag_setFlag_ne (by decide), hasFlag_setFlag_ne (by decide), hinverse]
    constructor
    · rw [hkeep]
      simp only [updateUnphasedFlag, hinverse]
      exact hasFlag_setFlag (by decide) _ _
    · rw [hkeep]
      simp only [updateUnphasedFlag, hinverse]
      exact (hasFlag_setFlag_ne (by decide) _ _).trans (hasFlag_setFlag (by decide) _ _)
  | true =>
    have hkeep : hasFlag s.updateUnphasedFlag.flags PhaseShiftFlags.inverse = true := by
      simp only [updateUnphasedFlag, hinverse]
      rw [hasFlag_setFlag_ne (by decide), hasFlag_setFlag_ne (by decide), hinverse]
    constructor
    · rw [hkeep]
      simp only [updateUnphasedFlag, hinverse]
      exact hasFlag_setFlag (by decide) _ _
    · rw [hkeep]
      simp only [updateUnphasedFlag, hinverse]
      exact (hasFlag_setFlag_ne (by decide) _ _).trans (hasFlag_setFlag (by decide) _ _)

theorem updateUnphasedFlag_noCosmetic (s : PhaseShift κ) :
    hasFlag s.updateUnphasedFlag.flags PhaseShiftFlags.noCosmetic =
      hasFlag s.flags PhaseShiftFlags.noCosmetic := by
  unfold updateUnphasedFlag
  cases hasFlag s.flags PhaseShiftFlags.inverse <;>
    exact (hasFlag_setFlag_ne (by decide) _ _).trans (hasFlag_setFlag_ne (by decide) _ _)

end PhaseShift

inductive Kind
  | cosmetic
  | nonCosmetic
  | default
  deriving DecidableEq

def PhaseRef.kind (ref : PhaseRef κ) : Kind :=
  if hasFlag ref.flags PhaseFlags.cosmetic then .cosmetic
  else if ref.id ≠ defaultPhase then .nonCosmetic
  else .default

def PhaseRef.counted (kind : Kind) (ref : PhaseRef κ) : Int :=
  if ref.kind = kind then ref.references else 0

def PhaseShift.counter (s : PhaseShift κ) : Kind → Int
  | .cosmetic => s.cosmeticReferences
  | .nonCosmetic => s.nonCosmeticReferences
  | .default => s.defaultReferences

structure Counted (F : PhaseId → PhaseFlags) (s : PhaseShift κ) : Prop where
  notDb : s.isDbPhaseShift = false
  flags : ∀ ref ∈ s.phases.elems, ref.flags = F ref.id
  counters : ∀ kind, s.counter kind = s.phases.total (PhaseRef.counted kind)
  noCosmetic : hasFlag s.flags PhaseShiftFlags.noCosmetic = (s.cosmeticReferences != 0)
  settled : s.Settled

namespace PhaseShift

theorem phases_modifyPhasesReferences {id : PhaseId} {ref : PhaseRef κ}
    (hfound : s.phases.find? id = some ref) (references : Int) :
    (s.modifyPhasesReferences id references).phases =
      s.phases.modify id (PhaseRef.addReferences references)
        (PhaseRef.id_addReferences references) := by
  simp only [modifyPhasesReferences, hfound]
  split_ifs <;> rfl

theorem find?_modifyPhasesReferences (id : PhaseId) (references : Int) (s : PhaseShift κ)
    (j : PhaseId) : (s.modifyPhasesReferences id references).phases.find? j =
      (s.phases.find? j).map fun ref =>
        if j = id then ref.addReferences references else ref := by
  cases hfound : s.phases.find? id with
  | none =>
    simp only [modifyPhasesReferences, hfound]
    cases hj : s.phases.find? j with
    | none => rfl
    | some ref =>
      have hne : j ≠ id := by
        rintro rfl
        rw [hfound] at hj
        cases hj
      rw [Option.map_some, if_neg hne]
  | some ref =>
    rw [phases_modifyPhasesReferences hfound]
    exact FlatSet.find?_modify id _ s.phases j

theorem find?_setAreaConditions (id : PhaseId) (areaConditions : Option κ) (s : PhaseShift κ)
    (j : PhaseId) : (s.setAreaConditions id areaConditions).phases.find? j =
      (s.phases.find? j).map fun ref =>
        if j = id then { ref with areaConditions := areaConditions.or ref.areaConditions }
        else ref := by
  cases areaConditions with
  | none =>
    simp only [setAreaConditions, Option.none_or, ite_self, Option.map_id']
  | some conditions =>
    simp only [setAreaConditions, Option.some_or]
    rw [FlatSet.find?_modify]
    rfl

theorem find?_addPhase (phaseId : Nat) (flags : PhaseFlags) (areaConditions : Option κ)
    (references : Int) (s : PhaseShift κ) (j : PhaseId) :
    (s.addPhase phaseId flags areaConditions references).phases.find? j =
      if j = Fin.ofNat (2 ^ 16) phaseId then
        some {
          id := j
          flags := ((s.phases.find? j).map PhaseRef.flags).getD flags
          references := ((s.phases.find? j).map PhaseRef.references).getD 0 + references
          areaConditions := areaConditions.or ((s.phases.find? j).bind PhaseRef.areaConditions) }
      else s.phases.find? j := by
  unfold addPhase
  generalize Fin.ofNat (2 ^ 16) phaseId = id
  dsimp only
  rw [find?_setAreaConditions, find?_modifyPhasesReferences, FlatSet.find?_insert]
  by_cases hj : j = id
  · subst hj
    simp only [if_true]
    cases hfound : s.phases.find? j with
    | none => simp [PhaseRef.addReferences]
    | some ref =>
      obtain ⟨-, rfl⟩ := FlatSet.find?_eq_some.mp hfound
      simp [PhaseRef.addReferences]
  · have hne : ¬id = j := fun h => hj h.symm
    simp only [if_neg hj, if_neg hne, Option.or_none, Option.map_id']

theorem find?_erasePhase (id : PhaseId) (s : PhaseShift κ) (j : PhaseId) :
    (s.erasePhase id).phases.find? j = if j = id then none else s.phases.find? j :=
  FlatSet.find?_erase id s.phases j

end PhaseShift

namespace Counted

theorem new : Counted F (PhaseShift.new : PhaseShift κ) where
  notDb := rfl
  flags := fun _ href => nomatch href
  counters := fun kind => by cases kind <;> rfl
  noCosmetic := by
    simp [PhaseShift.new, hasFlag, PhaseShiftFlags.unphased, PhaseShiftFlags.noCosmetic]
  settled := by
    constructor <;> simp [PhaseShift.new, hasFlag, PhaseShiftFlags.unphased,
      PhaseShiftFlags.inverse, PhaseShiftFlags.inverseUnphased]

theorem clearPhases (hs : s.isDbPhaseShift = false) : Counted F s.clearPhases where
  notDb := hs
  flags := fun _ href => nomatch href
  counters := fun kind => by cases kind <;> rfl
  noCosmetic := by
    unfold PhaseShift.clearPhases
    rw [PhaseShift.updateUnphasedFlag_noCosmetic]
    have hnone : s.flags &&& (PhaseShiftFlags.alwaysVisible ||| PhaseShiftFlags.inverse) &&&
        PhaseShiftFlags.noCosmetic = 0#32 := by
      rw [BitVec.and_assoc]
      exact BitVec.and_zero
    simp [hasFlag, hnone, PhaseShift.updateUnphasedFlag, PhaseShift.setFlag]
  settled := PhaseShift.updateUnphasedFlag_settled _

theorem setInversed (hs : Counted F s) (apply : Bool) : Counted F (s.setInversed apply) where
  notDb := hs.notDb
  flags := hs.flags
  counters := fun kind => (by cases kind <;> rfl : _ = s.counter kind).trans (hs.counters kind)
  noCosmetic := by
    unfold PhaseShift.setInversed
    rw [PhaseShift.updateUnphasedFlag_noCosmetic, PhaseShift.hasFlag_setFlag_ne (by decide)]
    exact hs.noCosmetic
  settled := PhaseShift.updateUnphasedFlag_settled _

theorem setAlwaysVisible (hs : Counted F s) (apply : Bool) :
    Counted F (s.setAlwaysVisible apply) where
  notDb := hs.notDb
  flags := hs.flags
  counters := fun kind => (by cases kind <;> rfl : _ = s.counter kind).trans (hs.counters kind)
  noCosmetic := (PhaseShift.hasFlag_setFlag_ne (by decide) _ _).trans hs.noCosmetic
  settled := by
    have hinverse : hasFlag (s.setAlwaysVisible apply).flags PhaseShiftFlags.inverse =
        hasFlag s.flags PhaseShiftFlags.inverse :=
      PhaseShift.hasFlag_setFlag_ne (by decide) _ _
    constructor
    · rw [hinverse]
      refine (PhaseShift.hasFlag_setFlag_ne ?_ _ _).trans hs.settled.matching
      split_ifs <;> decide
    · rw [hinverse]
      refine (PhaseShift.hasFlag_setFlag_ne ?_ _ _).trans hs.settled.other
      split_ifs <;> decide

theorem ofPhases (hs : Counted F s) {phases : FlatSet (PhaseRef.id (κ := κ))}
    (hflags : ∀ ref ∈ phases.elems, ref.flags = F ref.id)
    (htotal : ∀ kind, phases.total (PhaseRef.counted kind) =
      s.phases.total (PhaseRef.counted kind)) : Counted F { s with phases := phases } where
  notDb := hs.notDb
  flags := hflags
  counters := fun kind =>
    ((by cases kind <;> rfl : _ = s.counter kind).trans (hs.counters kind)).trans
      (htotal kind).symm
  noCosmetic := hs.noCosmetic
  settled := ⟨hs.settled.matching, hs.settled.other⟩

theorem modifyPhasesReferences (hs : Counted F s) (id : PhaseId) (references : Int) :
    Counted F (s.modifyPhasesReferences id references) := by
  have hflags : ∀ ref ∈ (s.modifyPhasesReferences id references).phases.elems,
      ref.flags = F ref.id := by
    refine FlatSet.forall_mem_iff.mpr fun j ref href => ?_
    rw [PhaseShift.find?_modifyPhasesReferences] at href
    obtain ⟨old, hold, rfl⟩ := Option.map_eq_some_iff.mp href
    have holdFlags := FlatSet.forall_mem_iff.mp hs.flags j old hold
    split_ifs <;> exact holdFlags
  cases hfound : s.phases.find? id with
  | none =>
    simp only [PhaseShift.modifyPhasesReferences, hfound]
    exact hs
  | some ref =>
    -- the phase counts for its kind alone, as does the change
    have htotal : ∀ kind, (s.modifyPhasesReferences id references).phases.total
        (PhaseRef.counted kind) = s.phases.total (PhaseRef.counted kind) +
          if ref.kind = kind then references else 0 := by
      intro kind
      have hkind : (ref.addReferences references).kind = ref.kind := rfl
      rw [PhaseShift.phases_modifyPhasesReferences hfound,
        FlatSet.total_modify hfound]
      congr 1
      unfold PhaseRef.counted
      rw [hkind]
      split_ifs
      · dsimp only [PhaseRef.addReferences]
        omega
      · rfl
    have hcounter : ∀ kind, (s.modifyPhasesReferences id references).counter kind =
        s.counter kind + if ref.kind = kind then references else 0 := by
      intro kind
      simp only [PhaseShift.modifyPhasesReferences, hfound, hs.notDb, PhaseRef.kind]
      split_ifs <;> cases kind <;> simp_all [PhaseShift.counter, PhaseShift.updateUnphasedFlag,
        PhaseShift.setFlag]
    refine ⟨?_, hflags, fun kind => ?_, ?_, ?_⟩
    · simp only [PhaseShift.modifyPhasesReferences, hfound]
      split_ifs <;> exact hs.notDb
    · rw [hcounter, htotal, hs.counters]
    · simp only [PhaseShift.modifyPhasesReferences, hfound, hs.notDb]
      rw [if_neg Bool.false_ne_true, PhaseShift.updateUnphasedFlag_noCosmetic,
        PhaseShift.hasFlag_setFlag (by decide)]
      rfl
    · simp only [PhaseShift.modifyPhasesReferences, hfound, hs.notDb]
      exact PhaseShift.updateUnphasedFlag_settled _

theorem setAreaConditions (hs : Counted F s) (id : PhaseId) (areaConditions : Option κ) :
    Counted F (s.setAreaConditions id areaConditions) := by
  cases areaConditions with
  | none => exact hs
  | some conditions =>
    have hcounted : ∀ kind (ref : PhaseRef κ),
        (ref.setAreaConditions conditions).counted kind = ref.counted kind := fun _ _ => rfl
    refine hs.ofPhases (FlatSet.forall_mem_iff.mpr fun j ref href => ?_) fun kind =>
      FlatSet.total_modify_same (hcounted kind) s.phases
    rw [FlatSet.find?_modify] at href
    obtain ⟨old, hold, rfl⟩ := Option.map_eq_some_iff.mp href
    have holdFlags := FlatSet.forall_mem_iff.mp hs.flags j old hold
    split_ifs <;> exact holdFlags

theorem addPhase (hs : Counted F s) {phaseId : Nat} {flags : PhaseFlags}
    (hflags : flags = F (Fin.ofNat (2 ^ 16) phaseId)) (areaConditions : Option κ)
    (references : Int) : Counted F (s.addPhase phaseId flags areaConditions references) := by
  refine ((hs.ofPhases ?_ fun kind => FlatSet.total_insert ?_ s.phases).modifyPhasesReferences
    _ references).setAreaConditions _ areaConditions
  · refine FlatSet.forall_mem_iff.mpr fun j ref href => ?_
    rw [FlatSet.find?_insert] at href
    obtain hold | ⟨-, hnew⟩ := Option.or_eq_some_iff.mp href
    · exact FlatSet.forall_mem_iff.mp hs.flags j ref hold
    · split_ifs at hnew
      obtain rfl := Option.some.inj hnew
      exact hflags
  · unfold PhaseRef.counted
    split_ifs <;> rfl

theorem erasePhase (hs : Counted F s) {id : PhaseId} {ref : PhaseRef κ}
    (hfound : s.phases.find? id = some ref) (hzero : ref.references = 0) :
    Counted F (s.erasePhase id) := by
  refine hs.ofPhases (FlatSet.forall_mem_iff.mpr fun j other hother => ?_) fun kind => ?_
  · rw [FlatSet.find?_erase] at hother
    split_ifs at hother
    exact FlatSet.forall_mem_iff.mp hs.flags j other hother
  · have hnothing : ref.counted kind = 0 := by
      unfold PhaseRef.counted
      split_ifs
      · exact hzero
      · rfl
    rw [FlatSet.total_erase hfound, hnothing, sub_zero]

end Counted

structure Sound (F : PhaseId → PhaseFlags) (s : PhaseShift κ) : Prop where
  counted : Counted F s
  positive : ∀ ref ∈ s.phases.elems, 0 < ref.references

namespace Sound

theorem new : Sound F (PhaseShift.new : PhaseShift κ) := ⟨.new, fun _ href => nomatch href⟩

theorem clearPhases (hs : Sound F s) : Sound F s.clearPhases :=
  ⟨.clearPhases hs.counted.notDb, fun _ href => nomatch href⟩

theorem addPhase (hs : Sound F s) {phaseId : Nat} {flags : PhaseFlags}
    (hflags : flags = F (Fin.ofNat (2 ^ 16) phaseId)) (areaConditions : Option κ)
    {references : Int} (hpos : 0 < references) :
    Sound F (s.addPhase phaseId flags areaConditions references) := by
  refine ⟨hs.counted.addPhase hflags areaConditions references,
    FlatSet.forall_mem_iff.mpr fun j ref href => ?_⟩
  rw [PhaseShift.find?_addPhase] at href
  split_ifs at href with hj
  · obtain rfl := Option.some.inj href
    cases hold : s.phases.find? j with
    | none => simpa using hpos
    | some old =>
      have hle := FlatSet.forall_mem_iff.mp hs.positive j old hold
      simp only [Option.map_some, Option.getD_some]
      omega
  · exact FlatSet.forall_mem_iff.mp hs.positive j ref href

/-- What is left when the references of a phase are taken back and it is erased. -/
theorem takenBack (hs : Sound F s) {id : PhaseId} {ref : PhaseRef κ}
    (hfound : s.phases.find? id = some ref) {references : Int}
    (hall : ref.references + references = 0) :
    Sound F ((s.modifyPhasesReferences id references).erasePhase id) := by
  have hfound' : (s.modifyPhasesReferences id references).phases.find? id =
      some (ref.addReferences references) := by
    rw [PhaseShift.find?_modifyPhasesReferences, hfound, Option.map_some, if_pos rfl]
  refine ⟨(hs.counted.modifyPhasesReferences id references).erasePhase hfound' hall,
    FlatSet.forall_mem_iff.mpr fun j other hother => ?_⟩
  rw [PhaseShift.find?_erasePhase] at hother
  split_ifs at hother with hj
  rw [PhaseShift.find?_modifyPhasesReferences] at hother
  obtain ⟨old, hold, rfl⟩ := Option.map_eq_some_iff.mp hother
  rw [if_neg hj]
  exact FlatSet.forall_mem_iff.mp hs.positive j old hold

theorem removePhase (hs : Sound F s) (phaseId : Nat) : Sound F (s.removePhase phaseId).1 := by
  unfold PhaseShift.removePhase
  generalize Fin.ofNat (2 ^ 16) phaseId = id
  dsimp only
  split
  · exact hs
  · rename_i ref hfound
    split_ifs with hlast
    · exact hs.takenBack hfound hlast
    · refine ⟨hs.counted.modifyPhasesReferences id (-1),
        FlatSet.forall_mem_iff.mpr fun j other hother => ?_⟩
      rw [PhaseShift.find?_modifyPhasesReferences] at hother
      obtain ⟨old, hold, rfl⟩ := Option.map_eq_some_iff.mp hother
      have hle := FlatSet.forall_mem_iff.mp hs.positive j old hold
      split_ifs with hj
      · subst hj
        rw [hfound] at hold
        obtain rfl := Option.some.inj hold
        dsimp only [PhaseRef.addReferences]
        omega
      · exact hle

theorem setInversed (hs : Sound F s) (apply : Bool) : Sound F (s.setInversed apply) :=
  ⟨hs.counted.setInversed apply, hs.positive⟩

theorem setAlwaysVisible (hs : Sound F s) (apply : Bool) : Sound F (s.setAlwaysVisible apply) :=
  ⟨hs.counted.setAlwaysVisible apply, hs.positive⟩

theorem ofNat_val (id : PhaseId) : Fin.ofNat (2 ^ 16) id.val = id :=
  Fin.ext (Nat.mod_eq_of_lt id.isLt)

theorem stored {s t : PhaseShift κ} (hs : Sound F s) (ht : Sound F t)
    {id : PhaseId} {ref : PhaseRef κ} (hfound : s.phases.find? id = some ref)
    (areaConditions : Option κ) :
    Sound F (t.addPhase id.val ref.flags areaConditions ref.references) := by
  obtain ⟨hmem, rfl⟩ := FlatSet.find?_eq_some.mp hfound
  refine ht.addPhase ?_ areaConditions (hs.positive ref hmem)
  rw [ofNat_val]
  exact hs.counted.flags ref hmem

end Sound
end Ashamane.PhaseShifts
