import Ashamane.PhaseShifts.Counted

/-! The counters and the flags of the phase shifts of an object over all its changes. -/
namespace Ashamane.PhaseShifts
open Ashamane.Lib

variable {κ : Type} {F : PhaseId → PhaseFlags}

/-- The three shifts of `OnConditionChange` are counted. -/
structure Working.Sound (F : PhaseId → PhaseFlags) (ws : Working κ) : Prop where
  phaseShift : PhaseShifts.Sound F ws.phaseShift
  suppressed : PhaseShifts.Sound F ws.suppressed
  newSuppressions : PhaseShifts.Sound F ws.newSuppressions

namespace Working.Sound
variable {ws : Working κ}

theorem suppressPhase (h : ws.Sound F) (meets : κ → Bool) (id : PhaseId) :
    (ws.suppressPhase meets id).Sound F := by
  unfold Working.suppressPhase
  split
  · rename_i stored flags references areaConditions hfound
    split_ifs
    · exact h
    · exact ⟨h.phaseShift.takenBack hfound (Int.add_right_neg _), h.suppressed,
        h.phaseShift.stored h.newSuppressions hfound (some areaConditions)⟩
  · exact h

theorem restorePhase (h : ws.Sound F) (meets : κ → Bool) {id : PhaseId} {ws' : Working κ}
    (hws' : ws.restorePhase meets id = some ws') : ws'.Sound F := by
  unfold Working.restorePhase at hws'
  split at hws'
  · cases hws'
  · rename_i stored flags references areaConditions hfound
    split_ifs at hws'
    · obtain rfl := Option.some.inj hws'
      exact ⟨h.suppressed.stored h.phaseShift hfound (some areaConditions),
        h.suppressed.takenBack hfound (Int.add_right_neg _), h.newSuppressions⟩
    · obtain rfl := Option.some.inj hws'
      exact h
  · obtain rfl := Option.some.inj hws'
    exact h

theorem repairAura (h : ws.Sound F) {getPhaseFlags : Nat → PhaseFlags}
    (hflags : ∀ phaseId, getPhaseFlags phaseId = F (Fin.ofNat (2 ^ 16) phaseId))
    (phaseId : Nat) : (ws.repairAura getPhaseFlags phaseId).Sound F := by
  have hremoved := h.newSuppressions.removePhase phaseId
  unfold Working.repairAura
  split
  · rename_i newSuppressions hremove
    rw [hremove] at hremoved
    exact ⟨h.phaseShift, h.suppressed, hremoved⟩
  · rename_i newSuppressions erased hremove
    rw [hremove] at hremoved
    exact ⟨h.phaseShift.addPhase (hflags phaseId) none Int.one_pos, h.suppressed, hremoved⟩

theorem keepPhase (h : ws.Sound F) (id : PhaseId) : (ws.keepPhase id).Sound F := by
  unfold Working.keepPhase
  split
  · rename_i ref hfound
    exact ⟨h.phaseShift, h.newSuppressions.stored h.suppressed hfound _, h.newSuppressions⟩
  · exact h

theorem foldl {α : Type} {f : Working κ → α → Working κ}
    (hf : ∀ {ws : Working κ}, ws.Sound F → ∀ a, (f ws a).Sound F) (h : ws.Sound F)
    (as : List α) : (as.foldl f ws).Sound F := by
  induction as generalizing ws with
  | nil => exact h
  | cons a as ih => exact ih (hf h a)

end Working.Sound

def Shifts.Sound (F : PhaseId → PhaseFlags) (s : Shifts κ) : Prop :=
  PhaseShifts.Sound F s.phaseShift ∧ PhaseShifts.Sound F s.suppressed

theorem Shifts.Sound.onConditionChange {s t : Shifts κ} (h : s.Sound F)
    {getPhaseFlags : Nat → PhaseFlags}
    (hflags : ∀ phaseId, getPhaseFlags phaseId = F (Fin.ofNat (2 ^ 16) phaseId))
    {meets : κ → Bool} {auraPhases : List Nat}
    (ht : s.onConditionChange getPhaseFlags meets auraPhases = some t) : t.Sound F := by
  have hstart : Working.Sound F ⟨s.phaseShift, s.suppressed, .new⟩ := ⟨h.1, h.2, .new⟩
  unfold Shifts.onConditionChange at ht
  obtain ⟨ws, hws, ht⟩ := Option.bind_eq_some_iff.mp ht
  obtain rfl := Option.some.inj ht
  have hrestored : ws.Sound F := (Run.of_foldlM hws).invariant (Working.Sound F)
    (.foldl (fun h id => h.suppressPhase meets id) hstart _)
    fun _ _ _ h _ hstep => h.restorePhase meets hstep
  have hkept := Working.Sound.foldl (fun h id => h.keepPhase id)
    (Working.Sound.foldl (fun h phaseId => h.repairAura hflags phaseId) hrestored auraPhases)
    (auraPhases.foldl (Working.repairAura getPhaseFlags) ws).newSuppressions.phases.keys
  exact ⟨hkept.phaseShift, hkept.suppressed⟩

inductive Which
  | phaseShift
  | suppressed

def Shifts.modify (which : Which) (f : PhaseShift κ → PhaseShift κ) (s : Shifts κ) : Shifts κ :=
  match which with
  | .phaseShift => { s with phaseShift := f s.phaseShift }
  | .suppressed => { s with suppressed := f s.suppressed }

inductive Op (κ : Type)
  | addPhase (which : Which) (phaseId : Nat) (flags : PhaseFlags) (areaConditions : Option κ)
      (references : Int)
  | removePhase (which : Which) (phaseId : Nat)
  | clearPhases (which : Which)
  | setInversed (which : Which) (apply : Bool)
  | setAlwaysVisible (which : Which) (apply : Bool)
  | onConditionChange (meets : κ → Bool) (auraPhases : List Nat)

def step (getPhaseFlags : Nat → PhaseFlags) (s : Shifts κ) : Op κ → Option (Shifts κ)
  | .addPhase which phaseId flags areaConditions references =>
    some (s.modify which (·.addPhase phaseId flags areaConditions references))
  | .removePhase which phaseId => some (s.modify which (·.removePhase phaseId |>.1))
  | .clearPhases which => some (s.modify which (·.clearPhases))
  | .setInversed which apply => some (s.modify which (·.setInversed apply))
  | .setAlwaysVisible which apply => some (s.modify which (·.setAlwaysVisible apply))
  | .onConditionChange meets auraPhases => s.onConditionChange getPhaseFlags meets auraPhases

def Op.Allowed (F : PhaseId → PhaseFlags) : Op κ → Prop
  | .addPhase _ phaseId flags _ references =>
    flags = F (Fin.ofNat (2 ^ 16) phaseId) ∧ 0 < references
  | _ => True

theorem Shifts.Sound.modify {s : Shifts κ} (h : s.Sound F) (which : Which)
    {f : PhaseShift κ → PhaseShift κ}
    (hf : ∀ {s : PhaseShift κ}, PhaseShifts.Sound F s → PhaseShifts.Sound F (f s)) :
    (s.modify which f).Sound F := by
  cases which with
  | phaseShift => exact ⟨hf h.1, h.2⟩
  | suppressed => exact ⟨h.1, hf h.2⟩

theorem Shifts.Sound.step {s t : Shifts κ} (h : s.Sound F) {getPhaseFlags : Nat → PhaseFlags}
    (hflags : ∀ phaseId, getPhaseFlags phaseId = F (Fin.ofNat (2 ^ 16) phaseId)) {op : Op κ}
    (hop : op.Allowed F) (ht : PhaseShifts.step getPhaseFlags s op = some t) : t.Sound F := by
  cases op with
  | addPhase which phaseId flags areaConditions references =>
    obtain rfl := Option.some.inj ht
    exact h.modify which fun h => h.addPhase hop.1 areaConditions hop.2
  | removePhase which phaseId =>
    obtain rfl := Option.some.inj ht
    exact h.modify which fun h => h.removePhase phaseId
  | clearPhases which =>
    obtain rfl := Option.some.inj ht
    exact h.modify which fun h => h.clearPhases
  | setInversed which apply =>
    obtain rfl := Option.some.inj ht
    exact h.modify which fun h => h.setInversed apply
  | setAlwaysVisible which apply =>
    obtain rfl := Option.some.inj ht
    exact h.modify which fun h => h.setAlwaysVisible apply
  | onConditionChange meets auraPhases => exact h.onConditionChange hflags ht

def PhaseShift.references (kind : Kind) (s : PhaseShift κ) : Int :=
  ((s.phases.elems.filter (·.kind = kind)).map PhaseRef.references).sum

structure Right (s : PhaseShift κ) : Prop where
  positive : ∀ ref ∈ s.phases.elems, 0 < ref.references
  cosmetic : s.cosmeticReferences = s.references .cosmetic
  default : s.defaultReferences = s.references .default
  nonCosmetic : s.nonCosmeticReferences = s.references .nonCosmetic
  noCosmetic : hasFlag s.flags PhaseShiftFlags.noCosmetic = true ↔ s.references .cosmetic ≠ 0
  unphased : hasFlag s.flags (if hasFlag s.flags PhaseShiftFlags.inverse then
      PhaseShiftFlags.inverseUnphased else PhaseShiftFlags.unphased) = true ↔
    (∀ ref ∈ s.phases.elems, ref.kind ≠ .nonCosmetic) ∨
      ∃ ref ∈ s.phases.elems, ref.kind = .default
  other : hasFlag s.flags (if hasFlag s.flags PhaseShiftFlags.inverse then
    PhaseShiftFlags.unphased else PhaseShiftFlags.inverseUnphased) = false

theorem total_counted (s : PhaseShift κ) (kind : Kind) :
    s.phases.total (PhaseRef.counted kind) = s.references kind := by
  unfold FlatSet.total PhaseShift.references
  generalize s.phases.elems = l
  induction l with
  | nil => rfl
  | cons ref l ih =>
    rw [List.map_cons, List.sum_cons, ih, PhaseRef.counted]
    by_cases h : ref.kind = kind
    · rw [if_pos h, List.filter_cons_of_pos (by simpa using h), List.map_cons, List.sum_cons]
    · rw [if_neg h, List.filter_cons_of_neg (by simpa using h), zero_add]

theorem Sound.counter_eq_zero_iff {s : PhaseShift κ} (h : Sound F s) (kind : Kind) :
    s.counter kind = 0 ↔ ∀ ref ∈ s.phases.elems, ref.kind ≠ kind := by
  have hnonneg : ∀ ref ∈ s.phases.elems, 0 ≤ ref.counted kind := fun ref href => by
    have hpos := h.positive ref href
    unfold PhaseRef.counted
    split_ifs
    · exact hpos.le
    · exact le_rfl
  rw [h.counted.counters, FlatSet.total_eq_zero_iff hnonneg]
  refine forall₂_congr fun ref href => ?_
  have hpos := h.positive ref href
  unfold PhaseRef.counted
  split_ifs with hkind
  · simp [hkind, hpos.ne']
  · simp [hkind]

theorem Sound.right {s : PhaseShift κ} (h : Sound F s) : Right s where
  positive := h.positive
  cosmetic := (h.counted.counters .cosmetic).trans (total_counted s .cosmetic)
  default := (h.counted.counters .default).trans (total_counted s .default)
  nonCosmetic := (h.counted.counters .nonCosmetic).trans (total_counted s .nonCosmetic)
  noCosmetic := by
    rw [h.counted.noCosmetic, ← total_counted, ← h.counted.counters, bne_iff_ne]
    rfl
  unphased := by
    have hnonCosmetic := h.counter_eq_zero_iff .nonCosmetic
    have hdefault := h.counter_eq_zero_iff .default
    dsimp only [PhaseShift.counter] at hnonCosmetic hdefault
    rw [h.counted.settled.matching, ← hnonCosmetic]
    have hpresent : (∃ ref ∈ s.phases.elems, ref.kind = .default) ↔ s.defaultReferences ≠ 0 := by
      rw [Ne, hdefault]
      push Not
      rfl
    rw [hpresent]
    simp [or_iff_not_imp_left]
  other := h.counted.settled.other

/-- Over all changes the counters are those of the phases and the flags say what they count. -/
theorem references_run {getPhaseFlags : Nat → PhaseFlags}
    (hflags : ∀ phaseId, getPhaseFlags phaseId = F (Fin.ofNat (2 ^ 16) phaseId))
    {ops : List (Op κ)} (hops : ∀ op ∈ ops, op.Allowed F) {s : Shifts κ}
    (h : ops.foldlM (step getPhaseFlags) Shifts.new = some s) :
    Right s.phaseShift ∧ Right s.suppressed := by
  obtain ⟨hshift, hsuppressed⟩ := (Run.of_foldlM_all h hops).invariant (Shifts.Sound F)
    ⟨.new, .new⟩ fun _ _ _ hs hop hstep => hs.step hflags hop hstep
  exact ⟨hshift.right, hsuppressed.right⟩

/-- Phase 5 is cosmetic. The conditions of phase 7 are not met any more. -/
theorem references_run_suppressed :
    ∃ s, [Op.addPhase .phaseShift 5 PhaseFlags.cosmetic none 1,
        .addPhase .phaseShift 7 PhaseFlags.none (some ()) 1, .setInversed .phaseShift true,
        .addPhase .phaseShift 7 PhaseFlags.none none 1, .onConditionChange (fun _ => false) [7],
        .removePhase .phaseShift 5].foldlM
      (step fun phaseId => if phaseId % 2 ^ 16 = 5 then PhaseFlags.cosmetic else PhaseFlags.none)
      Shifts.new = some s ∧ Right s.phaseShift ∧ Right s.suppressed := by
  obtain ⟨s, hs⟩ := Option.isSome_iff_exists.mp (by decide +kernel :
    ([Op.addPhase .phaseShift 5 PhaseFlags.cosmetic none 1,
        .addPhase .phaseShift 7 PhaseFlags.none (some ()) 1, .setInversed .phaseShift true,
        .addPhase .phaseShift 7 PhaseFlags.none none 1, .onConditionChange (fun _ => false) [7],
        .removePhase .phaseShift 5].foldlM
      (step fun phaseId => if phaseId % 2 ^ 16 = 5 then PhaseFlags.cosmetic else PhaseFlags.none)
      Shifts.new).isSome = true)
  refine ⟨s, hs, references_run
    (F := fun id => if id.val = 5 then PhaseFlags.cosmetic else PhaseFlags.none)
    (fun phaseId => rfl) (fun op hop => ?_) hs⟩
  simp only [List.mem_cons, List.not_mem_nil, or_false] at hop
  obtain rfl | rfl | rfl | rfl | rfl | rfl := hop <;> trivial

end Ashamane.PhaseShifts
