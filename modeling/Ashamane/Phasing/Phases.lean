import Ashamane.Lib.Pointwise
import Ashamane.PhaseShifts.Counted
import Ashamane.Phasing.Basic

/-! The loops of a change of conditions, seen from one phase. -/
namespace Ashamane.Phasing
open Ashamane.Lib

variable {κ : Type}

structure Cell (κ : Type) where
  active : Option (PhaseRef κ)
  suppressed : Option (PhaseRef κ)
  new : Option (PhaseRef κ)

def Working.cell (id : PhaseId) (ws : Working κ) : Cell κ where
  active := ws.phaseShift.phases.lookup id
  suppressed := ws.suppressed.phases.lookup id
  new := ws.newSuppressions.phases.lookup id

namespace Cell

def suppress (v : Valuation κ) (cell : Cell κ) : Cell κ :=
  match cell.active with
  | some ⟨references, some areaConditions⟩ =>
    if v.isObjectMeetToConditions areaConditions then cell
    else { cell with
      active := none
      new := some (.plus cell.new (some areaConditions) references) }
  | _ => cell

def restore (v : Valuation κ) (cell : Cell κ) : Cell κ :=
  match cell.suppressed with
  | some ⟨references, some areaConditions⟩ =>
    if v.isObjectMeetToConditions areaConditions then
      { cell with
        active := some (.plus cell.active (some areaConditions) references)
        suppressed := none }
    else cell
  | _ => cell

def repair (cell : Cell κ) : Cell κ :=
  match cell.new with
  | none => cell
  | some ref =>
    { cell with
      active := some (.plus cell.active none 1)
      new := if ref.references - 1 = 0 then none
        else some { ref with references := ref.references - 1 } }

def keep (cell : Cell κ) : Cell κ :=
  match cell.new with
  | none => cell
  | some ref =>
    { cell with suppressed := some (.plus cell.suppressed ref.areaConditions ref.references) }

end Cell

section Lookup
variable (s : PhaseShift κ) (phaseId : Nat) (areaConditions : Option κ) (references : Int)

theorem lookup_addPhase (j : PhaseId) :
    (s.addPhase phaseId areaConditions references).phases.lookup j =
      if j = UInt16.ofNat phaseId then
        some (.plus (s.phases.lookup j) areaConditions references)
      else s.phases.lookup j := by
  unfold PhaseShift.addPhase
  dsimp only
  by_cases h : j = UInt16.ofNat phaseId
  · subst h
    rw [if_pos rfl, AList.lookup_insert]
  · rw [if_neg h, AList.lookup_insert_ne h]

theorem lookup_removePhase_self :
    (s.removePhase phaseId).1.phases.lookup (UInt16.ofNat phaseId) =
      (s.phases.lookup (UInt16.ofNat phaseId)).bind fun ref =>
        if ref.references - 1 = 0 then none
        else some { ref with references := ref.references - 1 } := by
  unfold PhaseShift.removePhase
  dsimp only
  cases href : s.phases.lookup (UInt16.ofNat phaseId) with
  | none => exact href
  | some ref =>
    dsimp only
    rw [Option.bind_some]
    split
    · exact AList.lookup_erase ..
    · exact AList.lookup_insert ..

theorem lookup_removePhase_ne {j : PhaseId} (h : j ≠ UInt16.ofNat phaseId) :
    (s.removePhase phaseId).1.phases.lookup j = s.phases.lookup j := by
  unfold PhaseShift.removePhase
  dsimp only
  split
  · rfl
  · split
    · exact AList.lookup_erase_ne h
    · exact AList.lookup_insert_ne h

theorem removePhase_eq_none : (s.removePhase phaseId).2 = none ↔
    s.phases.lookup (UInt16.ofNat phaseId) = none := by
  unfold PhaseShift.removePhase
  dsimp only
  split
  · rename_i hnone
    exact iff_of_true rfl hnone
  · rename_i hsome
    rw [hsome]
    split <;> exact iff_of_false (fun h => nomatch h) (fun h => nomatch h)

end Lookup

section Turns
variable (v : Valuation κ) (ws : Working κ)

theorem cell_suppressPhase (id : PhaseId) :
    (ws.suppressPhase v id).cell id = (ws.cell id).suppress v := by
  rcases href : ws.phaseShift.phases.lookup id with _ | ⟨references, _ | areaConditions⟩
  · simp only [Working.suppressPhase, Cell.suppress, Working.cell, href]
  · simp only [Working.suppressPhase, Cell.suppress, Working.cell, href]
  · simp only [Working.suppressPhase, Cell.suppress, Working.cell, href]
    split
    · simp only [href]
    · simp only [lookup_addPhase, UInt16.ofNat_toNat, if_true, AList.lookup_erase]

theorem cell_suppressPhase_ne {id j : PhaseId} (h : j ≠ id) :
    (ws.suppressPhase v id).cell j = ws.cell j := by
  unfold Working.suppressPhase
  simp only [Working.cell]
  split
  · split
    · rfl
    · simp only [lookup_addPhase, UInt16.ofNat_toNat, if_neg h, AList.lookup_erase_ne h]
  · rfl

theorem cell_restorePhase (id : PhaseId) :
    (ws.restorePhase v id).cell id = (ws.cell id).restore v := by
  rcases href : ws.suppressed.phases.lookup id with _ | ⟨references, _ | areaConditions⟩
  · simp only [Working.restorePhase, Cell.restore, Working.cell, href]
  · simp only [Working.restorePhase, Cell.restore, Working.cell, href]
  · simp only [Working.restorePhase, Cell.restore, Working.cell, href]
    split
    · simp only [lookup_addPhase, UInt16.ofNat_toNat, if_true, AList.lookup_erase]
    · simp only [href]

theorem cell_restorePhase_ne {id j : PhaseId} (h : j ≠ id) :
    (ws.restorePhase v id).cell j = ws.cell j := by
  unfold Working.restorePhase
  simp only [Working.cell]
  split
  · split
    · simp only [lookup_addPhase, UInt16.ofNat_toNat, if_neg h, AList.lookup_erase_ne h]
    · rfl
  · rfl

theorem cell_repairAura (phaseId : Nat) :
    (ws.repairAura phaseId).cell (UInt16.ofNat phaseId) =
      (ws.cell (UInt16.ofNat phaseId)).repair := by
  have hself := lookup_removePhase_self ws.newSuppressions phaseId
  have hnone := removePhase_eq_none ws.newSuppressions phaseId
  unfold Working.repairAura Cell.repair
  generalize ws.newSuppressions.removePhase phaseId = result at hself hnone
  obtain ⟨shift, found⟩ := result
  simp only [Working.cell]
  cases found with
  | none =>
    simp only [hself, hnone.mp rfl, Option.bind_none]
  | some erased =>
    obtain ⟨ref, href⟩ : ∃ ref, ws.newSuppressions.phases.lookup (UInt16.ofNat phaseId) =
        some ref := Option.ne_none_iff_exists'.mp fun h => nomatch hnone.mpr h
    simp only [hself, href, Option.bind_some, lookup_addPhase, if_true]

theorem cell_repairAura_ne {phaseId : Nat} {j : PhaseId} (h : j ≠ UInt16.ofNat phaseId) :
    (ws.repairAura phaseId).cell j = ws.cell j := by
  have hne := lookup_removePhase_ne ws.newSuppressions phaseId h
  unfold Working.repairAura
  generalize ws.newSuppressions.removePhase phaseId = result at hne
  obtain ⟨shift, found⟩ := result
  simp only [Working.cell]
  cases found with
  | none => simp only [hne]
  | some erased => simp only [hne, lookup_addPhase, if_neg h]

theorem cell_keepPhase (id : PhaseId) : (ws.keepPhase id).cell id = (ws.cell id).keep := by
  unfold Working.keepPhase Cell.keep
  simp only [Working.cell]
  split <;> rename_i hnew
  · simp only [lookup_addPhase, UInt16.ofNat_toNat, if_true, hnew]
  · simp only [hnew]

theorem cell_keepPhase_ne {id j : PhaseId} (h : j ≠ id) :
    (ws.keepPhase id).cell j = ws.cell j := by
  unfold Working.keepPhase
  simp only [Working.cell]
  split
  · simp only [lookup_addPhase, UInt16.ofNat_toNat, if_neg h]
  · rfl

end Turns

section Frames

theorem phases_foldl_addUi (uis : List Nat) (s : PhaseShift κ) :
    (uis.foldl PhaseShift.addUiWorldMapAreaIdSwap s).phases = s.phases := by
  induction uis generalizing s with
  | nil => rfl
  | cons ui uis ih => exact ih _

theorem phases_removeUi (s : PhaseShift κ) (ui : Nat) :
    (s.removeUiWorldMapAreaIdSwap ui).phases = s.phases := by
  unfold PhaseShift.removeUiWorldMapAreaIdSwap
  split <;> rfl

theorem phases_foldl_removeUi (uis : List Nat) (s : PhaseShift κ) :
    (uis.foldl PhaseShift.removeUiWorldMapAreaIdSwap s).phases = s.phases := by
  induction uis generalizing s with
  | nil => rfl
  | cons ui uis ih => exact (ih _).trans (phases_removeUi s ui)

theorem phases_showMap (w : World κ) (s : PhaseShift κ) (m info : MapId) (references : Int) :
    (Shifts.showMap w s m info references).phases = s.phases :=
  phases_foldl_addUi _ _

variable {w : World κ} {v : Valuation κ}

theorem cell_suppressMap (ws : Working κ) (m : MapId) (j : PhaseId) :
    (ws.suppressMap w v m).cell j = ws.cell j := by
  unfold Working.suppressMap
  split
  · split
    · rfl
    · simp only [Working.cell, phases_foldl_removeUi]
      rfl
  · rfl

theorem cell_restoreMap (ws : Working κ) (m : MapId) (j : PhaseId) :
    (ws.restoreMap w v m).cell j = ws.cell j := by
  unfold Working.restoreMap
  split
  · split
    · simp only [Working.cell, phases_showMap]
    · rfl
  · rfl

theorem cell_keepMap (ws : Working κ) (m : MapId) (j : PhaseId) :
    (ws.keepMap m).cell j = ws.cell j := by
  unfold Working.keepMap
  split <;> rfl

theorem cell_foldl {f : Working κ → MapId → Working κ}
    (hf : ∀ ws m j, (f ws m).cell j = ws.cell j) (maps : List MapId) (ws : Working κ)
    (j : PhaseId) : (maps.foldl f ws).cell j = ws.cell j := by
  induction maps generalizing ws with
  | nil => rfl
  | cons m maps ih => exact (ih _).trans (hf ws m j)

end Frames

def auraCount (w : World κ) (object : WorldObject) (j : PhaseId) : Nat :=
  ((object.auraPhases w).filter fun phaseId => UInt16.ofNat phaseId = j).length

section Loops
variable (v : Valuation κ) (j : PhaseId)

theorem suppress_of_none {cell : Cell κ} (h : cell.active = none) : cell.suppress v = cell := by
  unfold Cell.suppress
  rw [h]

theorem restore_of_none {cell : Cell κ} (h : cell.suppressed = none) : cell.restore v = cell := by
  unfold Cell.restore
  rw [h]

theorem keep_of_none {cell : Cell κ} (h : cell.new = none) : cell.keep = cell := by
  unfold Cell.keep
  rw [h]

theorem cell_phaseLoops (ws : Working κ) :
    (ws.phaseLoops v).cell j = ((ws.cell j).suppress v).restore v := by
  have hfirst : ∀ ws : Working κ, (ws.phaseShift.phases.keys.foldl (Working.suppressPhase v)
      ws).cell j = (ws.cell j).suppress v := by
    intro ws
    rw [view_foldl_nodup (cell_suppressPhase v) (fun ws _ _ h => cell_suppressPhase_ne v ws h) j
      (AList.keys_nodup _)]
    split
    · rfl
    · rename_i hj
      exact (suppress_of_none v (AList.lookup_eq_none.mpr fun h =>
        hj (AList.mem_keys.mp h))).symm
  have hsecond : ∀ ws : Working κ, (ws.suppressed.phases.keys.foldl (Working.restorePhase v)
      ws).cell j = (ws.cell j).restore v := by
    intro ws
    rw [view_foldl_nodup (cell_restorePhase v) (fun ws _ _ h => cell_restorePhase_ne v ws h) j
      (AList.keys_nodup _)]
    split
    · rfl
    · rename_i hj
      exact (restore_of_none v (AList.lookup_eq_none.mpr fun h =>
        hj (AList.mem_keys.mp h))).symm
  rw [Working.phaseLoops, hsecond, hfirst]

theorem cell_mapLoops (w : World κ) (ws : Working κ) : (ws.mapLoops w v).cell j = ws.cell j := by
  unfold Working.mapLoops
  dsimp only
  rw [cell_foldl (fun ws m j => cell_restoreMap ws m j),
    cell_foldl fun ws m j => cell_suppressMap ws m j]

theorem cell_repairLoop (w : World κ) (object : WorldObject) (ws : Working κ) :
    ((object.auraPhases w).foldl Working.repairAura ws).cell j =
      Cell.repair^[auraCount w object j] (ws.cell j) := by
  have hview : ((object.auraPhases w).foldl Working.repairAura ws).cell j =
      ((object.auraPhases w).filter fun phaseId => UInt16.ofNat phaseId = j).foldl
        (fun cell _ => cell.repair) (ws.cell j) :=
    view_foldl (fun ws phaseId => cell_repairAura ws phaseId)
      (fun ws phaseId _ h => @cell_repairAura_ne κ ws phaseId _ h) j _ ws
  rw [hview, auraCount, List.foldl_const]

theorem cell_keepLoops (ws : Working κ) : ws.keepLoops.cell j = (ws.cell j).keep := by
  unfold Working.keepLoops
  dsimp only
  rw [cell_foldl (fun ws m j => cell_keepMap ws m j),
    view_foldl_nodup cell_keepPhase (fun ws _ _ h => cell_keepPhase_ne ws h) j
      (AList.keys_nodup _)]
  split
  · rfl
  · rename_i hj
    exact (keep_of_none (AList.lookup_eq_none.mpr fun h => hj (AList.mem_keys.mp h))).symm

/-- A change of conditions, for one phase that `n` aura effects give. -/
def Cell.change (n : Nat) (active suppressed : Option (PhaseRef κ)) : Cell κ :=
  (Cell.repair^[n] (((⟨active, suppressed, none⟩ : Cell κ).suppress v).restore v)).keep

end Loops

theorem onConditionChange_phases {w : World κ} {v : Valuation κ} {object : WorldObject}
    {s t : Shifts κ} (h : s.onConditionChange w v object = some t) (j : PhaseId) :
    t.phaseShift.phases.lookup j = (Cell.change v (auraCount w object j)
        (s.phaseShift.phases.lookup j) (s.suppressed.phases.lookup j)).active ∧
      t.suppressed.phases.lookup j = (Cell.change v (auraCount w object j)
        (s.phaseShift.phases.lookup j) (s.suppressed.phases.lookup j)).suppressed := by
  unfold Shifts.onConditionChange at h
  split at h
  · cases h
  obtain rfl := Option.some.inj h
  have hcell : (Working.keepLoops ((object.auraPhases w).foldl Working.repairAura
      (Working.mapLoops w v (Working.phaseLoops v
        ⟨s.phaseShift, s.suppressed, .new⟩)))).cell j =
      Cell.change v (auraCount w object j) (s.phaseShift.phases.lookup j)
        (s.suppressed.phases.lookup j) := by
    rw [cell_keepLoops, cell_repairLoop, cell_mapLoops, cell_phaseLoops]
    rfl
  exact ⟨congrArg Cell.active hcell, congrArg Cell.suppressed hcell⟩

section Shifts
variable (s : PhaseShifts.PhaseShift κ) (phaseId : Nat) (id : PhaseShifts.PhaseId)

/-- A phase of a `PhaseShifts.PhaseShift`, whose flags and counters are left out here. -/
def phaseAt : Option (PhaseRef κ) :=
  (s.phases.find? id).map fun ref => ⟨ref.references, ref.areaConditions⟩

theorem phaseAt_addPhase (flags : PhaseShifts.PhaseFlags) (areaConditions : Option κ)
    (references : Int) :
    phaseAt (s.addPhase phaseId flags areaConditions references) id =
      if id = Fin.ofNat (2 ^ 16) phaseId then
        some (.plus (phaseAt s id) areaConditions references)
      else phaseAt s id := by
  rw [phaseAt, PhaseShifts.PhaseShift.find?_addPhase]
  split
  · cases href : s.phases.find? id <;> simp [phaseAt, PhaseRef.plus, href]
  · rfl

theorem phaseAt_erasePhase (references : Int) (j : PhaseShifts.PhaseId) :
    phaseAt ((s.modifyPhasesReferences id references).erasePhase id) j =
      if j = id then none else phaseAt s j := by
  rw [phaseAt, PhaseShifts.PhaseShift.find?_erasePhase,
    PhaseShifts.PhaseShift.find?_modifyPhasesReferences]
  split
  · rfl
  · simp [phaseAt, *]

theorem removePhase_found : (s.removePhase phaseId).2 =
    (phaseAt s (Fin.ofNat (2 ^ 16) phaseId)).map fun ref => decide (ref.references - 1 = 0) := by
  unfold PhaseShifts.PhaseShift.removePhase phaseAt
  dsimp only
  cases href : s.phases.find? (Fin.ofNat (2 ^ 16) phaseId) with
  | none => rfl
  | some ref =>
    simp only [Int.sub_eq_add_neg, Option.map_some]
    split
    next hlast => rw [decide_eq_true hlast]
    next hlast => rw [decide_eq_false hlast]

theorem phaseAt_removePhase : phaseAt (s.removePhase phaseId).1 id =
    if id = Fin.ofNat (2 ^ 16) phaseId then (phaseAt s id).bind fun ref =>
      if ref.references - 1 = 0 then none
      else some { ref with references := ref.references - 1 }
    else phaseAt s id := by
  unfold PhaseShifts.PhaseShift.removePhase
  dsimp only
  cases href : s.phases.find? (Fin.ofNat (2 ^ 16) phaseId) with
  | none =>
    dsimp only
    split
    next hid => rw [hid, phaseAt, href]; rfl
    next => rfl
  | some ref =>
    simp only [Int.sub_eq_add_neg]
    by_cases hlast : ref.references + -1 = 0
    · rw [if_pos hlast, phaseAt_erasePhase]
      split
      next hid => rw [hid, phaseAt, href]; simp [hlast]
      next => rfl
    · rw [if_neg hlast, phaseAt, PhaseShifts.PhaseShift.find?_modifyPhasesReferences]
      split
      next hid =>
        rw [hid, phaseAt, href]
        simp [hlast, PhaseShifts.PhaseRef.addReferences]
      next hid => simp [phaseAt]

def cellAt (ws : PhaseShifts.Working κ) : Cell κ where
  active := phaseAt ws.phaseShift id
  suppressed := phaseAt ws.suppressed id
  new := phaseAt ws.newSuppressions id

variable (v : Valuation κ) (ws : PhaseShifts.Working κ) (j : PhaseShifts.PhaseId)

theorem ofNat_val : Fin.ofNat (2 ^ 16) id.val = id := Fin.ext (Nat.mod_eq_of_lt id.isLt)

theorem cellAt_suppressPhase :
    cellAt id (ws.suppressPhase v.isObjectMeetToConditions id) = (cellAt id ws).suppress v := by
  rcases href : ws.phaseShift.phases.find? id with _ | ⟨_, flags, references, _ | conditions⟩
  all_goals have hat : phaseAt ws.phaseShift id = _ := congrArg (Option.map _) href
  · simp only [PhaseShifts.Working.suppressPhase, href, Cell.suppress, cellAt, hat, Option.map_none]
  · simp only [PhaseShifts.Working.suppressPhase, href, Cell.suppress, cellAt, hat, Option.map_some]
  · simp only [PhaseShifts.Working.suppressPhase, href, Cell.suppress, cellAt, hat, Option.map_some]
    split
    · simp only [hat, Option.map_some]
    · simp only [phaseAt_addPhase, ofNat_val, phaseAt_erasePhase, if_true]

theorem cellAt_suppressPhase_ne (h : j ≠ id) :
    cellAt j (ws.suppressPhase v.isObjectMeetToConditions id) = cellAt j ws := by
  unfold PhaseShifts.Working.suppressPhase
  simp only [cellAt]
  split
  · split
    · rfl
    · simp only [phaseAt_addPhase, ofNat_val, phaseAt_erasePhase, if_neg h]
  · rfl

theorem cellAt_restorePhase {ws' : PhaseShifts.Working κ}
    (h : ws.restorePhase v.isObjectMeetToConditions id = some ws') :
    cellAt id ws' = (cellAt id ws).restore v := by
  rcases href : ws.suppressed.phases.find? id with _ | ⟨_, flags, references, _ | conditions⟩
  all_goals have hat : phaseAt ws.suppressed id = _ := congrArg (Option.map _) href
  all_goals simp only [PhaseShifts.Working.restorePhase, href] at h
  · obtain rfl := Option.some.inj h
    simp only [Cell.restore, cellAt, hat, Option.map_none]
  · cases h
  · simp only [Cell.restore, cellAt, hat, Option.map_some]
    split at h <;> obtain rfl := Option.some.inj h
    next hmeets => simp only [hmeets, if_true, phaseAt_addPhase, ofNat_val, phaseAt_erasePhase]
    next hmeets =>
      rw [if_neg hmeets]
      simp only [hat, Option.map_some]

theorem cellAt_restorePhase_ne {ws' : PhaseShifts.Working κ} (hne : j ≠ id)
    (h : ws.restorePhase v.isObjectMeetToConditions id = some ws') : cellAt j ws' = cellAt j ws := by
  unfold PhaseShifts.Working.restorePhase at h
  split at h
  · cases h
  · split at h <;> obtain rfl := Option.some.inj h
    · simp only [cellAt, phaseAt_addPhase, ofNat_val, phaseAt_erasePhase, if_neg hne]
    · rfl
  · obtain rfl := Option.some.inj h
    rfl

theorem cellAt_repairAura (getPhaseFlags : Nat → PhaseShifts.PhaseFlags) :
    cellAt (Fin.ofNat (2 ^ 16) phaseId) (ws.repairAura getPhaseFlags phaseId) =
      (cellAt (Fin.ofNat (2 ^ 16) phaseId) ws).repair := by
  have hself := phaseAt_removePhase ws.newSuppressions phaseId (Fin.ofNat (2 ^ 16) phaseId)
  have hfound := removePhase_found ws.newSuppressions phaseId
  unfold PhaseShifts.Working.repairAura Cell.repair
  generalize ws.newSuppressions.removePhase phaseId = result at hself hfound
  obtain ⟨shift, found⟩ := result
  simp only [cellAt]
  dsimp only at hfound
  rw [if_pos rfl] at hself
  cases href : phaseAt ws.newSuppressions (Fin.ofNat (2 ^ 16) phaseId) with
  | none =>
    rw [href] at hself hfound
    simp only [hfound, hself, Option.map_none, Option.bind_none]
  | some ref =>
    rw [href] at hself hfound
    simp only [hfound, hself, Option.map_some, Option.bind_some, phaseAt_addPhase, if_true]

theorem cellAt_repairAura_ne (getPhaseFlags : Nat → PhaseShifts.PhaseFlags)
    (h : j ≠ Fin.ofNat (2 ^ 16) phaseId) :
    cellAt j (ws.repairAura getPhaseFlags phaseId) = cellAt j ws := by
  have hne := phaseAt_removePhase ws.newSuppressions phaseId j
  rw [if_neg h] at hne
  unfold PhaseShifts.Working.repairAura
  generalize ws.newSuppressions.removePhase phaseId = result at hne
  obtain ⟨shift, found⟩ := result
  cases found with
  | none => simp only [cellAt, hne]
  | some erased => simp only [cellAt, hne, phaseAt_addPhase, if_neg h]

theorem cellAt_keepPhase : cellAt id (ws.keepPhase id) = (cellAt id ws).keep := by
  cases href : ws.newSuppressions.phases.find? id
  all_goals have hat : phaseAt ws.newSuppressions id = _ := congrArg (Option.map _) href
  · simp only [PhaseShifts.Working.keepPhase, href, Cell.keep, cellAt, hat, Option.map_none]
  · simp only [PhaseShifts.Working.keepPhase, href, Cell.keep, cellAt, hat, Option.map_some,
      phaseAt_addPhase, ofNat_val, if_true]

theorem cellAt_keepPhase_ne (h : j ≠ id) : cellAt j (ws.keepPhase id) = cellAt j ws := by
  unfold PhaseShifts.Working.keepPhase
  split
  · simp only [cellAt, phaseAt_addPhase, ofNat_val, if_neg h]
  · rfl

theorem cellAt_foldlM_restorePhase {l : List PhaseShifts.PhaseId} (hl : l.Nodup)
    {ws ws' : PhaseShifts.Working κ}
    (h : l.foldlM (PhaseShifts.Working.restorePhase v.isObjectMeetToConditions) ws = some ws') :
    cellAt j ws' = if j ∈ l then (cellAt j ws).restore v else cellAt j ws := by
  induction l generalizing ws with
  | nil =>
    obtain rfl := Option.some.inj h
    rfl
  | cons k l ih =>
    obtain ⟨hk, hl⟩ := List.nodup_cons.mp hl
    obtain ⟨mid, hmid, hrest⟩ := Option.bind_eq_some_iff.mp h
    rw [ih hl hrest]
    by_cases hj : j = k
    · rw [hj, if_neg hk, if_pos List.mem_cons_self, cellAt_restorePhase k v ws hmid]
    · rw [cellAt_restorePhase_ne k v ws j hj hmid]
      simp only [List.mem_cons, hj, false_or]

def finOf (id : PhaseId) : PhaseShifts.PhaseId := Fin.ofNat (2 ^ 16) id.toNat

theorem finOf_eq_iff (id : PhaseId) (phaseId : Nat) :
    finOf id = Fin.ofNat (2 ^ 16) phaseId ↔ id = UInt16.ofNat phaseId := by
  rw [← UInt16.toNat_inj, UInt16.toNat_ofNat', finOf, ← Fin.val_inj, Fin.val_ofNat,
    Fin.val_ofNat, Nat.mod_eq_of_lt id.toNat_lt]

theorem phaseAt_of_notMem {s : PhaseShifts.PhaseShift κ} {id : PhaseShifts.PhaseId}
    (h : id ∉ s.phases.keys) : phaseAt s id = none := by
  rw [phaseAt, FlatSet.find?_eq_none h, Option.map_none]

theorem cellAt_restoreLoop {ws ws' : PhaseShifts.Working κ}
    (h : ws.suppressed.phases.keys.foldlM
      (PhaseShifts.Working.restorePhase v.isObjectMeetToConditions) ws = some ws') :
    cellAt j ws' = (cellAt j ws).restore v := by
  rw [cellAt_foldlM_restorePhase v j (FlatSet.nodup_keys _) h]
  split
  · rfl
  next hj => exact (restore_of_none v (phaseAt_of_notMem hj)).symm

theorem cellAt_suppressLoop : cellAt j (ws.phaseShift.phases.keys.foldl
    (PhaseShifts.Working.suppressPhase v.isObjectMeetToConditions) ws) =
      (cellAt j ws).suppress v := by
  rw [view_foldl_nodup (fun ws id => cellAt_suppressPhase id v ws)
    (fun ws id j h => cellAt_suppressPhase_ne id v ws j h) j (FlatSet.nodup_keys _)]
  split
  · rfl
  next hj => exact (suppress_of_none v (phaseAt_of_notMem hj)).symm

theorem cellAt_keepLoop : cellAt j (ws.newSuppressions.phases.keys.foldl
    PhaseShifts.Working.keepPhase ws) = (cellAt j ws).keep := by
  rw [view_foldl_nodup (fun ws id => cellAt_keepPhase id ws)
    (fun ws id j h => cellAt_keepPhase_ne id ws j h) j (FlatSet.nodup_keys _)]
  split
  · rfl
  next hj => exact (keep_of_none (phaseAt_of_notMem hj)).symm

theorem cellAt_repairLoop (w : World κ) (object : WorldObject)
    (getPhaseFlags : Nat → PhaseShifts.PhaseFlags) (j : PhaseId) :
    cellAt (finOf j) ((object.auraPhases w).foldl
      (PhaseShifts.Working.repairAura getPhaseFlags) ws) =
      Cell.repair^[auraCount w object j] (cellAt (finOf j) ws) := by
  have hview := @view_foldl (PhaseShifts.Working κ) Nat _ _ _ _ _ cellAt
    (fun (cell : Cell κ) _ => cell.repair)
    (fun ws phaseId => cellAt_repairAura phaseId ws getPhaseFlags)
    (fun ws phaseId j h => cellAt_repairAura_ne phaseId ws j getPhaseFlags h) (finOf j)
    (object.auraPhases w) ws
  rw [hview, auraCount, List.foldl_const]
  congr 2
  refine List.filter_congr fun phaseId _ => decide_eq_decide.mpr ?_
  rw [eq_comm, finOf_eq_iff, eq_comm]

theorem onConditionChange_phaseAt {w : World κ} {v : Valuation κ} {object : WorldObject}
    {getPhaseFlags : Nat → PhaseShifts.PhaseFlags} {s t : PhaseShifts.Shifts κ}
    (h : s.onConditionChange getPhaseFlags v.isObjectMeetToConditions (object.auraPhases w) =
      some t) (j : PhaseId) :
    ∃ new, cellAt (finOf j) ⟨t.phaseShift, t.suppressed, new⟩ =
      Cell.change v (auraCount w object j) (phaseAt s.phaseShift (finOf j))
        (phaseAt s.suppressed (finOf j)) := by
  obtain ⟨restored, hrestored, hkept⟩ := Option.bind_eq_some_iff.mp h
  obtain rfl := Option.some.inj hkept
  refine ⟨_, (cellAt_keepLoop _ _).trans ?_⟩
  rw [cellAt_repairLoop, cellAt_restoreLoop v _ hrestored, cellAt_suppressLoop, Cell.change]
  rfl

def SamePhases (s : PhaseShifts.PhaseShift κ) (t : PhaseShift κ) : Prop :=
  ∀ id : PhaseId, t.phases.lookup id = phaseAt s (finOf id)

theorem SamePhases.new : @SamePhases κ .new .new := fun _ => rfl

theorem SamePhases.addPhase {s : PhaseShifts.PhaseShift κ} {t : PhaseShift κ}
    (h : SamePhases s t) (phaseId : Nat) (flags : PhaseShifts.PhaseFlags)
    (areaConditions : Option κ) (references : Int) :
    SamePhases (s.addPhase phaseId flags areaConditions references)
      (t.addPhase phaseId areaConditions references) := by
  intro id
  rw [lookup_addPhase, phaseAt_addPhase, h id]
  simp only [finOf_eq_iff]

theorem SamePhases.removePhase {s : PhaseShifts.PhaseShift κ} {t : PhaseShift κ}
    (h : SamePhases s t) (phaseId : Nat) :
    SamePhases (s.removePhase phaseId).1 (t.removePhase phaseId).1 := by
  intro id
  rw [phaseAt_removePhase, ← h id]
  simp only [finOf_eq_iff]
  split
  next hid => rw [hid, lookup_removePhase_self]
  next hid => exact lookup_removePhase_ne t phaseId hid

/-- A change of conditions does the same to the phases of both. -/
theorem SamePhases.onConditionChange {w : World κ} {v : Valuation κ} {object : WorldObject}
    {getPhaseFlags : Nat → PhaseShifts.PhaseFlags} {s s' : PhaseShifts.Shifts κ}
    {t t' : Shifts κ} (hshift : SamePhases s.phaseShift t.phaseShift)
    (hsuppressed : SamePhases s.suppressed t.suppressed)
    (hs : s.onConditionChange getPhaseFlags v.isObjectMeetToConditions (object.auraPhases w) =
      some s') (ht : t.onConditionChange w v object = some t') :
    SamePhases s'.phaseShift t'.phaseShift ∧ SamePhases s'.suppressed t'.suppressed := by
  have hcell : ∀ j, _ := fun j => onConditionChange_phaseAt hs j
  constructor
  · intro id
    obtain ⟨new, hnew⟩ := hcell id
    rw [(onConditionChange_phases ht id).1, hshift id, hsuppressed id, ← hnew]
    rfl
  · intro id
    obtain ⟨new, hnew⟩ := hcell id
    rw [(onConditionChange_phases ht id).2, hshift id, hsuppressed id, ← hnew]
    rfl

end Shifts

end Ashamane.Phasing
