import Ashamane.PhaseShifts.Basic

/-! Whether objects of two phase shifts see each other. -/
namespace Ashamane.PhaseShifts
open Ashamane.Lib

variable {κ : Type} {s t : PhaseShift κ}

namespace PhaseShift

def checkInversePhaseShift (excludePhasesWithFlag : PhaseFlags)
    (phaseShift excludedPhaseShift : PhaseShift κ) : Bool :=
  hasFlag phaseShift.flags PhaseShiftFlags.unphased &&
      !hasFlag excludedPhaseShift.flags PhaseShiftFlags.inverseUnphased ||
    phaseShift.phases.elems.any fun ref =>
      !hasFlag ref.flags excludePhasesWithFlag &&
        match excludedPhaseShift.phases.elems.find? (·.id = ref.id) with
        | none => true
        | some excluded => hasFlag excluded.flags excludePhasesWithFlag

def canSee (s other : PhaseShift κ) : Bool :=
  if hasFlag s.flags PhaseShiftFlags.unphased && hasFlag other.flags PhaseShiftFlags.unphased then
    true
  else if hasFlag s.flags PhaseShiftFlags.alwaysVisible ||
      hasFlag other.flags PhaseShiftFlags.alwaysVisible then
    true
  else if hasFlag s.flags PhaseShiftFlags.inverse &&
      hasFlag other.flags PhaseShiftFlags.inverse then
    true
  else
    let excludePhasesWithFlag :=
      if hasFlag s.flags PhaseShiftFlags.noCosmetic &&
          hasFlag other.flags PhaseShiftFlags.noCosmetic then
        PhaseFlags.cosmetic
      else PhaseFlags.none
    if !hasFlag s.flags PhaseShiftFlags.inverse &&
        !hasFlag other.flags PhaseShiftFlags.inverse then
      s.phases.intersects (fun myPhase _ => !hasFlag myPhase.flags excludePhasesWithFlag &&
        (!hasFlag myPhase.flags PhaseFlags.personal || s.personalGuid == other.personalGuid))
        other.phases
    else if hasFlag other.flags PhaseShiftFlags.inverse then
      checkInversePhaseShift excludePhasesWithFlag s other
    else checkInversePhaseShift excludePhasesWithFlag other s

end PhaseShift

def FlagsOf (F : PhaseId → PhaseFlags) (s : PhaseShift κ) : Prop :=
  ∀ ref ∈ s.phases.elems, ref.flags = F ref.id

def ShareAPhase (s t : PhaseShift κ) : Prop :=
  ∃ ref ∈ s.phases.elems, ∃ other ∈ t.phases.elems, ref.id = other.id ∧
    (hasFlag s.flags PhaseShiftFlags.noCosmetic = true →
      hasFlag t.flags PhaseShiftFlags.noCosmetic = true →
        hasFlag ref.flags PhaseFlags.cosmetic = false) ∧
    (hasFlag ref.flags PhaseFlags.personal = true → s.personalGuid = t.personalGuid)

theorem hasFlag_none {w : Nat} (value : BitVec w) : hasFlag value 0#w = false := by
  simp [hasFlag]

theorem intersects_iff :
    s.phases.intersects (fun myPhase _ => !hasFlag myPhase.flags
        (if hasFlag s.flags PhaseShiftFlags.noCosmetic &&
          hasFlag t.flags PhaseShiftFlags.noCosmetic then PhaseFlags.cosmetic
          else PhaseFlags.none) &&
      (!hasFlag myPhase.flags PhaseFlags.personal || s.personalGuid == t.personalGuid))
      t.phases = true ↔ ShareAPhase s t := by
  rw [FlatSet.intersects_iff]
  refine exists_congr fun ref => and_congr_right fun _ => exists_congr fun other =>
    and_congr_right fun _ => and_congr_right fun _ => ?_
  have hnone := hasFlag_none ref.flags
  cases hasFlag s.flags PhaseShiftFlags.noCosmetic <;>
    cases hasFlag t.flags PhaseShiftFlags.noCosmetic <;>
    cases hasFlag ref.flags PhaseFlags.personal <;>
    simp_all [PhaseFlags.none]

theorem ShareAPhase.symm {F : PhaseId → PhaseFlags} (hs : FlagsOf F s) (ht : FlagsOf F t)
    (h : ShareAPhase s t) : ShareAPhase t s := by
  obtain ⟨ref, href, other, hother, hid, hcosmetic, hpersonal⟩ := h
  have hflags : ref.flags = other.flags := by
    rw [hs ref href, ht other hother, hid]
  refine ⟨other, hother, ref, href, hid.symm, fun ht hs => ?_, fun h => ?_⟩
  · rw [← hflags]
    exact hcosmetic hs ht
  · rw [← hflags] at h
    exact (hpersonal h).symm

theorem canSee_comm_of_not_inverse {F : PhaseId → PhaseFlags} (hs : FlagsOf F s) (ht : FlagsOf F t)
    (hinverse : hasFlag s.flags PhaseShiftFlags.inverse = false)
    (hinverse' : hasFlag t.flags PhaseShiftFlags.inverse = false) : s.canSee t = t.canSee s := by
  have hcomm := Bool.eq_iff_iff.mpr (intersects_iff.trans
    (⟨.symm hs ht, .symm ht hs⟩ : ShareAPhase s t ↔ ShareAPhase t s) |>.trans intersects_iff.symm)
  unfold PhaseShift.canSee
  dsimp only
  rw [hinverse, hinverse', hcomm,
    Bool.and_comm (hasFlag t.flags PhaseShiftFlags.unphased),
    Bool.or_comm (hasFlag t.flags PhaseShiftFlags.alwaysVisible)]
  rfl

theorem canSee_inverse (hinverse : hasFlag s.flags PhaseShiftFlags.inverse = false)
    (hinverse' : hasFlag t.flags PhaseShiftFlags.inverse = true) : s.canSee t = t.canSee s := by
  unfold PhaseShift.canSee
  dsimp only
  rw [hinverse, hinverse', Bool.and_comm (hasFlag t.flags PhaseShiftFlags.unphased),
    Bool.or_comm (hasFlag t.flags PhaseShiftFlags.alwaysVisible),
    Bool.and_comm (hasFlag t.flags PhaseShiftFlags.noCosmetic)]
  simp

theorem canSee_comm {F : PhaseId → PhaseFlags} (hs : FlagsOf F s) (ht : FlagsOf F t) :
    s.canSee t = t.canSee s := by
  cases hinverse : hasFlag s.flags PhaseShiftFlags.inverse with
  | false =>
    cases hinverse' : hasFlag t.flags PhaseShiftFlags.inverse with
    | false => exact canSee_comm_of_not_inverse hs ht hinverse hinverse'
    | true => exact canSee_inverse hinverse hinverse'
  | true =>
    cases hinverse' : hasFlag t.flags PhaseShiftFlags.inverse with
    | false => exact (canSee_inverse hinverse' hinverse).symm
    | true => simp [PhaseShift.canSee, hinverse, hinverse']

/-- Objects see each other or not, and without special flags they do if they share a phase. -/
theorem canSee_comm_and_iff {F : PhaseId → PhaseFlags} (hs : FlagsOf F s) (ht : FlagsOf F t) :
    s.canSee t = t.canSee s ∧
      (hasFlag s.flags PhaseShiftFlags.inverse = false →
        hasFlag t.flags PhaseShiftFlags.inverse = false →
        hasFlag s.flags PhaseShiftFlags.alwaysVisible = false →
        hasFlag t.flags PhaseShiftFlags.alwaysVisible = false →
        hasFlag s.flags PhaseShiftFlags.unphased = false →
        hasFlag t.flags PhaseShiftFlags.unphased = false →
          (s.canSee t = true ↔ ShareAPhase s t)) := by
  refine ⟨canSee_comm hs ht, fun hi hi' ha ha' hu _ => ?_⟩
  rw [← intersects_iff]
  unfold PhaseShift.canSee
  dsimp only
  rw [hi, hi', ha, ha', hu]
  rfl

def ofGuid (personalGuid : ObjectGuid) : PhaseShift Unit :=
  ⟨PhaseShiftFlags.none, personalGuid,
    ⟨[⟨5, PhaseFlags.personal, 1, none⟩, ⟨7, PhaseFlags.none, 1, none⟩], by decide⟩, 2, 0, 0,
    false⟩

theorem canSee_comm_and_iff_personal : (ofGuid 1).canSee (ofGuid 2) = true := by
  have hflags : ∀ personalGuid, FlagsOf (fun id => if id = 5 then PhaseFlags.personal
      else PhaseFlags.none) (ofGuid personalGuid) := fun _ ref href => by
    obtain rfl | href := List.mem_cons.mp href
    · rfl
    · rw [List.mem_singleton.mp href]
      rfl
  refine ((canSee_comm_and_iff (hflags 1) (hflags 2)).2 (by decide)
    (by decide) (by decide) (by decide) (by decide) (by decide)).mpr ?_
  exact ⟨⟨7, PhaseFlags.none, 1, none⟩, by decide, ⟨7, PhaseFlags.none, 1, none⟩, by decide, rfl,
    by decide, by decide⟩

end Ashamane.PhaseShifts
