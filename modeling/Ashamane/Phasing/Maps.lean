import Ashamane.Lib.Pointwise
import Ashamane.Phasing.Basic

/-! The visible maps of an object, and the ui maps counted for them. -/
namespace Ashamane.Phasing
open Ashamane.Lib

variable {κ : Type} {w : World κ} {v : Valuation κ}

/-- The container of ui maps holds `N` references. -/
def Counted (uis : AList fun _ : Nat => Int) (N : Nat → Nat) : Prop :=
  ∀ u, uis.lookup u = if N u = 0 then none else some (N u : Int)

/-- The references to the ui map `u` of the terrain swaps that are shown. -/
def shownCount (w : World κ) (maps : AList fun _ : MapId => VisibleMapIdRef) (u : Nat) : Nat :=
  Assoc.total (fun ref => (w.uiWorldMapAreaIDSwaps ref.visibleMapInfo).count u) maps

section Counting
variable {s : PhaseShift κ} {N : Nat → Nat}

theorem Counted.addUi (h : Counted s.uiWorldMapAreaIdSwaps N) (ui : Nat) :
    Counted (s.addUiWorldMapAreaIdSwap ui).uiWorldMapAreaIdSwaps fun u =>
      N u + if u = ui then 1 else 0 := by
  intro u
  unfold PhaseShift.addUiWorldMapAreaIdSwap
  dsimp only
  by_cases hu : u = ui
  · subst hu
    have hne : N u + 1 ≠ 0 := Nat.succ_ne_zero _
    rw [AList.lookup_insert, h]
    simp only [if_true, if_neg hne]
    split
    · rename_i hzero
      rw [hzero]
      rfl
    · rfl
  · rw [AList.lookup_insert_ne hu, h]
    simp only [if_neg hu, Nat.add_zero]

theorem Counted.removeUi (h : Counted s.uiWorldMapAreaIdSwaps N) (ui : Nat) :
    Counted (s.removeUiWorldMapAreaIdSwap ui).uiWorldMapAreaIdSwaps fun u =>
      N u - if u = ui then 1 else 0 := by
  intro u
  have hui := h ui
  unfold PhaseShift.removeUiWorldMapAreaIdSwap
  by_cases hzero : N ui = 0
  · rw [if_pos hzero] at hui
    simp only [hui]
    rw [h]
    by_cases hu : u = ui
    · simp only [hu, hzero, Nat.zero_sub]
    · simp only [if_neg hu, Nat.sub_zero]
  · rw [if_neg hzero] at hui
    simp only [hui]
    by_cases hone : N ui = 1
    · rw [if_pos (by omega)]
      by_cases hu : u = ui
      · subst hu
        simp only [AList.lookup_erase, hone, if_true, Nat.sub_self]
      · simp only [AList.lookup_erase_ne hu, h u, if_neg hu, Nat.sub_zero]
    · rw [if_neg (by omega)]
      by_cases hu : u = ui
      · subst hu
        have hne : N u - 1 ≠ 0 := by omega
        simp only [AList.lookup_insert, if_true, if_neg hne]
        exact congrArg some (by omega)
      · simp only [AList.lookup_insert_ne hu, h u, if_neg hu, Nat.sub_zero]

theorem Counted.congr {uis : AList fun _ : Nat => Int} {M : Nat → Nat} (h : Counted uis N)
    (hsame : ∀ u, N u = M u) : Counted uis M := fun u => hsame u ▸ h u

theorem Counted.foldl_addUi (h : Counted s.uiWorldMapAreaIdSwaps N) (uis : List Nat) :
    Counted (uis.foldl PhaseShift.addUiWorldMapAreaIdSwap s).uiWorldMapAreaIdSwaps fun u =>
      N u + uis.count u := by
  induction uis generalizing s N with
  | nil => exact h
  | cons ui uis ih =>
    refine (ih (h.addUi ui)).congr fun u => ?_
    rw [List.count_cons]
    by_cases hu : u = ui
    · subst hu
      simp only [if_true, beq_self_eq_true]
      omega
    · simp only [if_neg hu, beq_iff_eq, if_neg (Ne.symm hu)]
      omega

theorem Counted.foldl_removeUi (h : Counted s.uiWorldMapAreaIdSwaps N) (uis : List Nat) :
    Counted (uis.foldl PhaseShift.removeUiWorldMapAreaIdSwap s).uiWorldMapAreaIdSwaps fun u =>
      N u - uis.count u := by
  induction uis generalizing s N with
  | nil => exact h
  | cons ui uis ih =>
    refine (ih (h.removeUi ui)).congr fun u => ?_
    rw [List.count_cons]
    by_cases hu : u = ui
    · subst hu
      simp only [if_true, beq_self_eq_true]
      omega
    · simp only [if_neg hu, beq_iff_eq, if_neg (Ne.symm hu)]
      omega

theorem maps_foldl_addUi (uis : List Nat) (s : PhaseShift κ) :
    (uis.foldl PhaseShift.addUiWorldMapAreaIdSwap s).visibleMapIds = s.visibleMapIds := by
  induction uis generalizing s with
  | nil => rfl
  | cons ui uis ih => exact ih _

theorem maps_foldl_removeUi (uis : List Nat) (s : PhaseShift κ) :
    (uis.foldl PhaseShift.removeUiWorldMapAreaIdSwap s).visibleMapIds = s.visibleMapIds := by
  induction uis generalizing s with
  | nil => rfl
  | cons ui uis ih =>
    refine (ih _).trans ?_
    unfold PhaseShift.removeUiWorldMapAreaIdSwap
    split <;> rfl

theorem maps_showMap (s : PhaseShift κ) (m info : MapId) (references : Int) :
    (Shifts.showMap w s m info references).visibleMapIds =
      (s.addVisibleMapId m info references).visibleMapIds := maps_foldl_addUi _ _

end Counting

def OwnInfo (maps : AList fun _ : MapId => VisibleMapIdRef) : Prop :=
  ∀ m ref, maps.lookup m = some ref → ref.visibleMapInfo = m

theorem OwnInfo.addVisibleMapId {s : PhaseShift κ} (h : OwnInfo s.visibleMapIds) (m : MapId)
    (references : Int) : OwnInfo (s.addVisibleMapId m m references).visibleMapIds := by
  intro j ref hj
  unfold PhaseShift.addVisibleMapId at hj
  dsimp only at hj
  by_cases hjm : j = m
  · subst hjm
    rw [AList.lookup_insert] at hj
    obtain rfl := Option.some.inj hj
    cases hold : s.visibleMapIds.lookup j with
    | none => rfl
    | some old => exact h j old hold
  · rw [AList.lookup_insert_ne hjm] at hj
    exact h j ref hj

theorem OwnInfo.erase {maps : AList fun _ : MapId => VisibleMapIdRef} (h : OwnInfo maps)
    (m : MapId) : OwnInfo (maps.erase m) := by
  intro j ref hj
  by_cases hjm : j = m
  · rw [hjm, AList.lookup_erase] at hj
    cases hj
  · rw [AList.lookup_erase_ne hjm] at hj
    exact h j ref hj

theorem isSome_addVisibleMapId (s : PhaseShift κ) (m info j : MapId) (references : Int) :
    ((s.addVisibleMapId m info references).visibleMapIds.lookup j).isSome =
      (decide (j = m) || (s.visibleMapIds.lookup j).isSome) := by
  unfold PhaseShift.addVisibleMapId
  dsimp only
  by_cases h : j = m
  · subst h
    rw [AList.lookup_insert]
    simp
  · rw [AList.lookup_insert_ne h]
    simp [h]

/-- Showing a terrain swap counts its ui maps, once it is not shown yet. -/
theorem counted_showMap {s : PhaseShift κ} (hown : OwnInfo s.visibleMapIds)
    (hcounted : Counted s.uiWorldMapAreaIdSwaps (shownCount w s.visibleMapIds)) {m : MapId}
    (hnew : s.visibleMapIds.lookup m = none ∨ w.uiWorldMapAreaIDSwaps m = []) (references : Int) :
    Counted (Shifts.showMap w s m m references).uiWorldMapAreaIdSwaps
      (shownCount w (Shifts.showMap w s m m references).visibleMapIds) := by
  refine (Counted.foldl_addUi (s := s.addVisibleMapId m m references) hcounted
    (w.uiWorldMapAreaIDSwaps m)).congr fun u => ?_
  rw [maps_showMap]
  simp only [shownCount, PhaseShift.addVisibleMapId, Assoc.total_insert]
  cases hold : s.visibleMapIds.lookup m with
  | none =>
    have herase : s.visibleMapIds.erase m = s.visibleMapIds :=
      AList.ext (List.kerase_of_notMem_keys (AList.lookup_eq_none.mp hold))
    rw [herase, Option.getD_none, Nat.add_comm]
  | some ref =>
    have htotal := Assoc.total_erase
      (fun ref => (w.uiWorldMapAreaIDSwaps ref.visibleMapInfo).count u) hold
    rcases hnew with hnew | hempty
    · rw [hold] at hnew
      cases hnew
    · have hinfo := hown m ref hold
      simp only [Option.getD_some, hinfo, hempty, List.count_nil] at htotal ⊢
      omega

section Loops

structure MapsOk (w : World κ) (ws : Working κ) : Prop where
  shown : OwnInfo ws.phaseShift.visibleMapIds
  hidden : OwnInfo ws.suppressed.visibleMapIds
  new : OwnInfo ws.newSuppressions.visibleMapIds
  apart : ∀ m, ws.phaseShift.visibleMapIds.lookup m = none ∨
    ws.suppressed.visibleMapIds.lookup m = none
  counted : Counted ws.phaseShift.uiWorldMapAreaIdSwaps
    (shownCount w ws.phaseShift.visibleMapIds)

theorem MapsOk.suppressMap {ws : Working κ} (h : MapsOk w ws) (m : MapId) :
    MapsOk w (ws.suppressMap w v m) := by
  unfold Working.suppressMap
  cases href : ws.phaseShift.visibleMapIds.lookup m with
  | none => exact h
  | some ref =>
    dsimp only
    split
    · exact h
    refine ⟨?_, h.hidden, ?_, fun j => ?_, ?_⟩
    · dsimp only
      rw [maps_foldl_removeUi]
      exact h.shown.erase m
    · rw [h.shown m ref href]
      exact h.new.addVisibleMapId m ref.references
    · dsimp only
      rw [maps_foldl_removeUi]
      by_cases hj : j = m
      · exact .inl (hj ▸ AList.lookup_erase ..)
      · rw [AList.lookup_erase_ne hj]
        exact h.apart j
    · refine (h.counted.foldl_removeUi _).congr fun u => ?_
      dsimp only
      rw [maps_foldl_removeUi]
      have htotal := Assoc.total_erase
        (fun ref => (w.uiWorldMapAreaIDSwaps ref.visibleMapInfo).count u) href
      simp only [shownCount]
      omega

theorem MapsOk.restoreMap {ws : Working κ} (h : MapsOk w ws) (m : MapId) :
    MapsOk w (ws.restoreMap w v m) := by
  unfold Working.restoreMap
  cases href : ws.suppressed.visibleMapIds.lookup m with
  | none => exact h
  | some ref =>
    dsimp only
    split
    · have hnone : ws.phaseShift.visibleMapIds.lookup m = none :=
        (h.apart m).resolve_right fun hnone => nomatch href.symm.trans hnone
      rw [h.hidden m ref href]
      refine ⟨?_, h.hidden.erase m, h.new, fun j => ?_, ?_⟩
      · exact (maps_showMap _ _ _ _).symm ▸ h.shown.addVisibleMapId m ref.references
      · dsimp only
        by_cases hj : j = m
        · exact .inr (hj ▸ AList.lookup_erase ..)
        · rw [AList.lookup_erase_ne hj, maps_showMap, PhaseShift.addVisibleMapId,
            AList.lookup_insert_ne hj]
          exact h.apart j
      · exact counted_showMap h.shown h.counted (.inl hnone) ref.references
    · exact h

theorem MapsOk.foldl {f : Working κ → MapId → Working κ}
    (hf : ∀ ws m, MapsOk w ws → MapsOk w (f ws m)) (maps : List MapId) {ws : Working κ}
    (h : MapsOk w ws) : MapsOk w (maps.foldl f ws) := by
  induction maps generalizing ws with
  | nil => exact h
  | cons m maps ih => exact ih (hf ws m h)

theorem MapsOk.mapLoops {ws : Working κ} (h : MapsOk w ws) : MapsOk w (ws.mapLoops w v) :=
  MapsOk.foldl (fun _ m h => h.restoreMap m) _ (MapsOk.foldl (fun _ m h => h.suppressMap m) _ h)

def Working.where (m : MapId) (ws : Working κ) : Bool × Bool × Bool :=
  ((ws.phaseShift.visibleMapIds.lookup m).isSome, (ws.suppressed.visibleMapIds.lookup m).isSome,
    (ws.newSuppressions.visibleMapIds.lookup m).isSome)

def suppressAt (v : Valuation κ) (m : MapId) (p : Bool × Bool × Bool) : Bool × Bool × Bool :=
  if p.1 && !v.isTerrainSwapAllowed m then (false, p.2.1, true) else p

def restoreAt (v : Valuation κ) (m : MapId) (p : Bool × Bool × Bool) : Bool × Bool × Bool :=
  if p.2.1 && v.isTerrainSwapAllowed m then (true, false, p.2.2) else p

def keepAt (p : Bool × Bool × Bool) : Bool × Bool × Bool := (p.1, p.2.1 || p.2.2, p.2.2)

theorem where_suppressMap (ws : Working κ) (m j : MapId) :
    (ws.suppressMap w v m).where j = if j = m then suppressAt v m (ws.where j) else ws.where j := by
  unfold Working.suppressMap Working.where suppressAt
  by_cases hj : j = m
  · subst hj
    rw [if_pos rfl]
    cases href : ws.phaseShift.visibleMapIds.lookup j with
    | none => simp [href]
    | some ref =>
      cases hv : v.isTerrainSwapAllowed j with
      | true => simp [href]
      | false => simp [maps_foldl_removeUi, isSome_addVisibleMapId]
  · rw [if_neg hj]
    cases ws.phaseShift.visibleMapIds.lookup m with
    | none => rfl
    | some ref =>
      dsimp only
      split
      · rfl
      · simp [maps_foldl_removeUi, isSome_addVisibleMapId, hj]

theorem where_restoreMap (ws : Working κ) (m j : MapId) :
    (ws.restoreMap w v m).where j = if j = m then restoreAt v m (ws.where j) else ws.where j := by
  unfold Working.restoreMap Working.where restoreAt
  by_cases hj : j = m
  · subst hj
    rw [if_pos rfl]
    cases href : ws.suppressed.visibleMapIds.lookup j with
    | none => simp [href]
    | some ref =>
      cases hv : v.isTerrainSwapAllowed j with
      | true => simp [maps_showMap, isSome_addVisibleMapId]
      | false => simp [href]
  · rw [if_neg hj]
    cases ws.suppressed.visibleMapIds.lookup m with
    | none => rfl
    | some ref =>
      dsimp only
      split
      · simp [maps_showMap, isSome_addVisibleMapId, hj]
      · rfl

theorem where_keepMap (ws : Working κ) (m j : MapId) :
    (ws.keepMap m).where j = if j = m then keepAt (ws.where j) else ws.where j := by
  unfold Working.keepMap Working.where keepAt
  by_cases hj : j = m
  · subst hj
    rw [if_pos rfl]
    cases href : ws.newSuppressions.visibleMapIds.lookup j with
    | none => simp [href]
    | some ref => simp [href, isSome_addVisibleMapId]
  · rw [if_neg hj]
    cases ws.newSuppressions.visibleMapIds.lookup m with
    | none => rfl
    | some ref => simp [isSome_addVisibleMapId, hj]

theorem where_foldl {f : Working κ → MapId → Working κ}
    {g : MapId → Bool × Bool × Bool → Bool × Bool × Bool}
    (hf : ∀ ws m j, (f ws m).where j = if j = m then g m (ws.where j) else ws.where j)
    {maps : List MapId} (hmaps : maps.Nodup) (ws : Working κ) (j : MapId)
    (hother : j ∉ maps → g j (ws.where j) = ws.where j) :
    (maps.foldl f ws).where j = g j (ws.where j) := by
  rw [view_foldl_nodup (fun ws m => (hf ws m m).trans (if_pos rfl))
    (fun ws m j hj => (hf ws m j).trans (if_neg hj)) j hmaps]
  split
  · rfl
  · rename_i hj
    exact (hother hj).symm

theorem isSome_of_notMem {maps : AList fun _ : MapId => VisibleMapIdRef} {j : MapId}
    (h : j ∉ maps.keys) : (maps.lookup j).isSome = false := by
  rw [AList.lookup_eq_none.mpr fun hj => h (AList.mem_keys.mp hj)]
  rfl

/-- A terrain swap that was shown or suppressed is now shown if it is allowed. -/
theorem where_change (m : MapId) (a b : Bool) :
    keepAt (restoreAt v m (suppressAt v m (a, b, false))) =
      ((a || b) && v.isTerrainSwapAllowed m, (a || b) && !v.isTerrainSwapAllowed m,
        a && !v.isTerrainSwapAllowed m) := by
  unfold keepAt restoreAt suppressAt
  cases a <;> cases b <;> cases v.isTerrainSwapAllowed m <;> rfl

theorem keepMaps_spec (maps : List MapId) {ws : Working κ}
    (hhidden : OwnInfo ws.suppressed.visibleMapIds)
    (hnew : OwnInfo ws.newSuppressions.visibleMapIds) :
    (maps.foldl Working.keepMap ws).phaseShift = ws.phaseShift ∧
      OwnInfo (maps.foldl Working.keepMap ws).suppressed.visibleMapIds := by
  induction maps generalizing ws with
  | nil => exact ⟨rfl, hhidden⟩
  | cons m maps ih =>
    have hstep : (ws.keepMap m).phaseShift = ws.phaseShift ∧
        (ws.keepMap m).newSuppressions = ws.newSuppressions ∧
        OwnInfo (ws.keepMap m).suppressed.visibleMapIds := by
      unfold Working.keepMap
      cases href : ws.newSuppressions.visibleMapIds.lookup m with
      | none => exact ⟨rfl, rfl, hhidden⟩
      | some ref =>
        refine ⟨rfl, rfl, ?_⟩
        dsimp only
        rw [hnew m ref href]
        exact hhidden.addVisibleMapId m ref.references
    obtain ⟨hshift, hinfo⟩ := ih hstep.2.2 (hstep.2.1 ▸ hnew)
    exact ⟨hshift.trans hstep.1, hinfo⟩

theorem where_mapLoops (ws : Working κ) (j : MapId) :
    (ws.mapLoops w v).where j = restoreAt v j (suppressAt v j (ws.where j)) := by
  unfold Working.mapLoops
  dsimp only
  rw [where_foldl (fun ws m j => where_restoreMap ws m j) (AList.keys_nodup _),
    where_foldl (fun ws m j => where_suppressMap ws m j) (AList.keys_nodup _)]
  · intro hj
    simp only [suppressAt, Working.where, isSome_of_notMem hj, Bool.false_and,
      Bool.false_eq_true, if_false]
  · intro hj
    simp only [restoreAt, Working.where, isSome_of_notMem hj, Bool.false_and,
      Bool.false_eq_true, if_false]

end Loops

section Frames

structure SameMaps (ws ws' : Working κ) : Prop where
  shown : ws'.phaseShift.visibleMapIds = ws.phaseShift.visibleMapIds
  uis : ws'.phaseShift.uiWorldMapAreaIdSwaps = ws.phaseShift.uiWorldMapAreaIdSwaps
  hidden : ws'.suppressed.visibleMapIds = ws.suppressed.visibleMapIds
  new : ws'.newSuppressions.visibleMapIds = ws.newSuppressions.visibleMapIds

theorem SameMaps.refl (ws : Working κ) : SameMaps ws ws := ⟨rfl, rfl, rfl, rfl⟩

theorem SameMaps.trans {ws ws' ws'' : Working κ} (h : SameMaps ws ws') (h' : SameMaps ws' ws'') :
    SameMaps ws ws'' :=
  ⟨h'.shown.trans h.shown, h'.uis.trans h.uis, h'.hidden.trans h.hidden, h'.new.trans h.new⟩

theorem SameMaps.foldl {α : Type} {f : Working κ → α → Working κ}
    (hf : ∀ ws a, SameMaps ws (f ws a)) (l : List α) (ws : Working κ) :
    SameMaps ws (l.foldl f ws) := by
  induction l generalizing ws with
  | nil => exact .refl ws
  | cons a l ih => exact (hf ws a).trans (ih _)

theorem sameMaps_suppressPhase (ws : Working κ) (id : PhaseId) :
    SameMaps ws (ws.suppressPhase v id) := by
  unfold Working.suppressPhase
  split
  · split <;> exact ⟨rfl, rfl, rfl, rfl⟩
  · exact .refl ws

theorem sameMaps_restorePhase (ws : Working κ) (id : PhaseId) :
    SameMaps ws (ws.restorePhase v id) := by
  unfold Working.restorePhase
  split
  · split <;> exact ⟨rfl, rfl, rfl, rfl⟩
  · exact .refl ws

theorem sameMaps_repairAura (ws : Working κ) (phaseId : Nat) :
    SameMaps ws (ws.repairAura phaseId) := by
  have hnew : (ws.newSuppressions.removePhase phaseId).1.visibleMapIds =
      ws.newSuppressions.visibleMapIds := by
    unfold PhaseShift.removePhase
    dsimp only
    split
    · rfl
    · split <;> rfl
  unfold Working.repairAura
  generalize ws.newSuppressions.removePhase phaseId = result at hnew
  obtain ⟨shift, _ | erased⟩ := result
  · exact ⟨rfl, rfl, rfl, hnew⟩
  · exact ⟨rfl, rfl, rfl, hnew⟩

theorem sameMaps_keepPhase (ws : Working κ) (id : PhaseId) : SameMaps ws (ws.keepPhase id) := by
  unfold Working.keepPhase
  split <;> exact ⟨rfl, rfl, rfl, rfl⟩

theorem SameMaps.where {ws ws' : Working κ} (h : SameMaps ws ws') (j : MapId) :
    ws'.where j = ws.where j := by
  simp only [Working.where, h.shown, h.hidden, h.new]

theorem SameMaps.mapsOk {ws ws' : Working κ} (h : SameMaps ws ws') (hok : MapsOk w ws) :
    MapsOk w ws' := by
  refine ⟨h.shown ▸ hok.shown, h.hidden ▸ hok.hidden, h.new ▸ hok.new, fun m => ?_, ?_⟩
  · rw [h.shown, h.hidden]
    exact hok.apart m
  · rw [h.shown, h.uis]
    exact hok.counted

end Frames

structure MapsSettled (w : World κ) (listed : List MapId) (v : Valuation κ) (s : Shifts κ) :
    Prop where
  shown : ∀ m, s.phaseShift.hasVisibleMapId m = true ↔ m ∈ listed ∧ v.isTerrainSwapAllowed m = true
  hidden : ∀ m, s.suppressed.hasVisibleMapId m = true ↔
    m ∈ listed ∧ v.isTerrainSwapAllowed m = false
  shownInfo : OwnInfo s.phaseShift.visibleMapIds
  hiddenInfo : OwnInfo s.suppressed.visibleMapIds
  counted : Counted s.phaseShift.uiWorldMapAreaIdSwaps (shownCount w s.phaseShift.visibleMapIds)

theorem MapsSettled.ui_iff {listed : List MapId} {s : Shifts κ} (h : MapsSettled w listed v s)
    (u : Nat) : s.phaseShift.hasUiWorldMapAreaIdSwap u = true ↔
      ∃ m ∈ listed, v.isTerrainSwapAllowed m = true ∧ u ∈ w.uiWorldMapAreaIDSwaps m := by
  have hpos : s.phaseShift.hasUiWorldMapAreaIdSwap u = true ↔
      0 < shownCount w s.phaseShift.visibleMapIds u := by
    rw [PhaseShift.hasUiWorldMapAreaIdSwap, h.counted u]
    split
    · rename_i hzero
      exact iff_of_false (fun h => nomatch h) (by omega)
    · exact iff_of_true rfl (by omega)
  rw [hpos, shownCount, Assoc.total_pos_iff]
  constructor
  · rintro ⟨m, ref, href, hcount⟩
    rw [h.shownInfo m ref href] at hcount
    obtain ⟨hm, hv⟩ := (h.shown m).mp (Option.isSome_iff_exists.mpr ⟨ref, href⟩)
    exact ⟨m, hm, hv, List.count_pos_iff.mp hcount⟩
  · rintro ⟨m, hm, hv, hu⟩
    obtain ⟨ref, href⟩ := Option.isSome_iff_exists.mp ((h.shown m).mpr ⟨hm, hv⟩)
    refine ⟨m, ref, href, ?_⟩
    rw [h.shownInfo m ref href]
    exact List.count_pos_iff.mpr hu

theorem mapsSettled_onMapChange {object : WorldObject} (s : Shifts κ)
    (honce : ∀ m, 1 < (w.terrainSwapsForMap object.mapId).count m →
      w.uiWorldMapAreaIDSwaps m = []) :
    MapsSettled w (w.terrainSwapsForMap object.mapId) v (s.onMapChange w v object) := by
  unfold Shifts.onMapChange
  generalize w.terrainSwapsForMap object.mapId = listed at honce
  induction listed using List.reverseRecOn with
  | nil =>
    refine ⟨fun m => ?_, fun m => ?_, (fun _ _ h => nomatch h), (fun _ _ h => nomatch h),
      fun u => ?_⟩
    · exact iff_of_false (fun h => nomatch h) fun h => nomatch h.1
    · exact iff_of_false (fun h => nomatch h) fun h => nomatch h.1
    · rfl
  | append_singleton listed m ih =>
    have hih := ih fun j hj => honce j (by
      rw [List.count_append]
      omega)
    rw [List.foldl_append, List.foldl_cons, List.foldl_nil]
    generalize listed.foldl _ _ = before at hih
    by_cases hv : v.isTerrainSwapAllowed m = true
    · rw [if_pos hv]
      refine ⟨fun j => ?_, fun j => ?_, ?_, hih.hiddenInfo, ?_⟩
      · have hj := hih.shown j
        simp only [PhaseShift.hasVisibleMapId] at hj ⊢
        rw [maps_showMap, isSome_addVisibleMapId, Bool.or_eq_true, hj, decide_eq_true_eq,
          List.mem_append, List.mem_singleton]
        constructor
        · rintro (rfl | ⟨hj, hv⟩)
          · exact ⟨.inr rfl, hv⟩
          · exact ⟨.inl hj, hv⟩
        · rintro ⟨hj | hj, hv⟩
          · exact .inr ⟨hj, hv⟩
          · exact .inl hj
      · rw [hih.hidden j, List.mem_append, List.mem_singleton]
        constructor
        · rintro ⟨hj, hv⟩
          exact ⟨.inl hj, hv⟩
        · rintro ⟨hj | rfl, hv'⟩
          · exact ⟨hj, hv'⟩
          · rw [hv] at hv'
            cases hv'
      · exact (maps_showMap _ _ _ _).symm ▸ hih.shownInfo.addVisibleMapId m 1
      · refine counted_showMap hih.shownInfo hih.counted ?_ 1
        by_cases hm : m ∈ listed
        · refine .inr (honce m ?_)
          rw [List.count_append, List.count_singleton_self]
          have hpos := List.count_pos_iff.mpr hm
          omega
        · refine .inl (Option.not_isSome_iff_eq_none.mp fun h => hm ((hih.shown m).mp h).1)
    · rw [if_neg hv]
      have hv : v.isTerrainSwapAllowed m = false := Bool.eq_false_iff.mpr hv
      refine ⟨fun j => ?_, fun j => ?_, hih.shownInfo, hih.hiddenInfo.addVisibleMapId m 1,
        hih.counted⟩
      · rw [hih.shown j, List.mem_append, List.mem_singleton]
        constructor
        · rintro ⟨hj, hv⟩
          exact ⟨.inl hj, hv⟩
        · rintro ⟨hj | rfl, hv'⟩
          · exact ⟨hj, hv'⟩
          · rw [hv] at hv'
            cases hv'
      · have hj := hih.hidden j
        simp only [PhaseShift.hasVisibleMapId] at hj ⊢
        rw [isSome_addVisibleMapId, Bool.or_eq_true, hj, decide_eq_true_eq, List.mem_append,
          List.mem_singleton]
        constructor
        · rintro (rfl | ⟨hj, hv⟩)
          · exact ⟨.inr rfl, hv⟩
          · exact ⟨.inl hj, hv⟩
        · rintro ⟨hj | hj, hv⟩
          · exact .inr ⟨hj, hv⟩
          · exact .inl hj

theorem onAreaChange_same {object : WorldObject} {s t : Shifts κ}
    (h : s.onAreaChange w v object = some t) :
    t.phaseShift.visibleMapIds = s.phaseShift.visibleMapIds ∧
      t.phaseShift.uiWorldMapAreaIdSwaps = s.phaseShift.uiWorldMapAreaIdSwaps ∧
      t.suppressed.visibleMapIds = s.suppressed.visibleMapIds := by
  have hfold : ∀ (l : List (Nat × κ)) (s : Shifts κ),
      (l.foldl (Shifts.addListed v) s).phaseShift.visibleMapIds = s.phaseShift.visibleMapIds ∧
      (l.foldl (Shifts.addListed v) s).phaseShift.uiWorldMapAreaIdSwaps =
        s.phaseShift.uiWorldMapAreaIdSwaps ∧
      (l.foldl (Shifts.addListed v) s).suppressed.visibleMapIds =
        s.suppressed.visibleMapIds := by
    intro l
    induction l with
    | nil => exact fun _ => ⟨rfl, rfl, rfl⟩
    | cons e l ih =>
      intro s
      obtain ⟨hshown, huis, hhidden⟩ := ih (Shifts.addListed v s e)
      rw [List.foldl_cons, hshown, huis, hhidden]
      unfold Shifts.addListed
      split <;> exact ⟨rfl, rfl, rfl⟩
  have haura : ∀ (l : List Nat) (shift : PhaseShift κ),
      (l.foldl (fun shift phaseId => shift.addPhase phaseId none 1) shift).visibleMapIds =
        shift.visibleMapIds ∧
      (l.foldl (fun shift phaseId => shift.addPhase phaseId none 1) shift).uiWorldMapAreaIdSwaps =
        shift.uiWorldMapAreaIdSwaps := by
    intro l
    induction l with
    | nil => exact fun _ => ⟨rfl, rfl⟩
    | cons e l ih => exact fun shift => ih _
  unfold Shifts.onAreaChange at h
  obtain ⟨phases, -, rfl⟩ := Option.map_eq_some_iff.mp h
  obtain ⟨hshown, huis, hhidden⟩ := hfold phases ⟨{ s.phaseShift with phases := ∅ },
    { s.suppressed with phases := ∅ }⟩
  generalize phases.foldl (Shifts.addListed v) ⟨{ s.phaseShift with phases := ∅ },
    { s.suppressed with phases := ∅ }⟩ = u at hshown huis hhidden
  obtain ⟨hshown', huis'⟩ := haura (object.auraPhases w) u.phaseShift
  exact ⟨hshown'.trans hshown, huis'.trans huis, hhidden⟩

theorem onAreaChange_maps {object : WorldObject} {s t : Shifts κ} {listed : List MapId}
    (hs : MapsSettled w listed v s) {v' : Valuation κ}
    (h : s.onAreaChange w v' object = some t) : MapsSettled w listed v t := by
  obtain ⟨hshown, huis, hhidden⟩ := onAreaChange_same h
  obtain ⟨hs₁, hs₂, hs₃, hs₄, hs₅⟩ := hs
  simp only [PhaseShift.hasVisibleMapId] at hs₁ hs₂
  refine ⟨?_, ?_, ?_, ?_, ?_⟩ <;>
    simp only [PhaseShift.hasVisibleMapId, hshown, huis, hhidden]
  · exact hs₁
  · exact hs₂
  · exact hs₃
  · exact hs₄
  · exact hs₅

/-- The loops over the maps, between loops that leave the maps alone. -/
theorem onConditionChange_loops {object : WorldObject} {s t : Shifts κ}
    (h : s.onConditionChange w v object = some t) : ∃ first last : Working κ,
      SameMaps ⟨s.phaseShift, s.suppressed, .new⟩ first ∧
      SameMaps (first.mapLoops w v) last ∧
      t = ⟨(last.newSuppressions.visibleMapIds.keys.foldl Working.keepMap last).phaseShift,
        (last.newSuppressions.visibleMapIds.keys.foldl Working.keepMap last).suppressed⟩ := by
  unfold Shifts.onConditionChange at h
  split at h
  · cases h
  obtain rfl := Option.some.inj h
  refine ⟨Working.phaseLoops v ⟨s.phaseShift, s.suppressed, .new⟩, _, ?_, ?_, rfl⟩
  · exact (SameMaps.foldl (fun ws id => sameMaps_suppressPhase ws id) _ _).trans
      (SameMaps.foldl (fun ws id => sameMaps_restorePhase ws id) _ _)
  · exact (SameMaps.foldl (fun ws phaseId => sameMaps_repairAura ws phaseId) _ _).trans
      (SameMaps.foldl (fun ws id => sameMaps_keepPhase ws id) _ _)

/-- After a change of conditions the maps are those that the new valuation allows. -/
theorem MapsSettled.onConditionChange {object : WorldObject} {s t : Shifts κ}
    {listed : List MapId} (hs : MapsSettled w listed v s) {v' : Valuation κ}
    (h : s.onConditionChange w v' object = some t) : MapsSettled w listed v' t := by
  obtain ⟨first, last, hfirst, hlast, rfl⟩ := onConditionChange_loops h
  have hok : MapsOk w ⟨s.phaseShift, s.suppressed, .new⟩ := by
    refine ⟨hs.shownInfo, hs.hiddenInfo, fun _ _ h => (nomatch h), fun m => ?_, hs.counted⟩
    by_cases hm : s.phaseShift.hasVisibleMapId m = true
    · refine .inr (Option.not_isSome_iff_eq_none.mp fun hm' => ?_)
      have hv := ((hs.shown m).mp hm).2
      rw [((hs.hidden m).mp hm').2] at hv
      cases hv
    · exact .inl (Option.not_isSome_iff_eq_none.mp hm)
  have hok := hlast.mapsOk (hfirst.mapsOk hok).mapLoops
  have hwhere : ∀ m, (last.newSuppressions.visibleMapIds.keys.foldl Working.keepMap last).where m =
      ((s.phaseShift.hasVisibleMapId m || s.suppressed.hasVisibleMapId m) &&
          v'.isTerrainSwapAllowed m,
        (s.phaseShift.hasVisibleMapId m || s.suppressed.hasVisibleMapId m) &&
          !v'.isTerrainSwapAllowed m,
        s.phaseShift.hasVisibleMapId m && !v'.isTerrainSwapAllowed m) := by
    intro m
    rw [where_foldl (g := fun _ => keepAt) (fun ws m j => where_keepMap ws m j)
      (AList.keys_nodup _), hlast.where, where_mapLoops, hfirst.where]
    · exact where_change m (s.phaseShift.hasVisibleMapId m) (s.suppressed.hasVisibleMapId m)
    · intro hj
      simp only [keepAt, Working.where, isSome_of_notMem hj, Bool.or_false]
  obtain ⟨hshift, hinfo⟩ := keepMaps_spec last.newSuppressions.visibleMapIds.keys hok.hidden hok.new
  generalize last.newSuppressions.visibleMapIds.keys.foldl Working.keepMap last = kept at *
  have hlisted : ∀ m, (s.phaseShift.hasVisibleMapId m || s.suppressed.hasVisibleMapId m) = true ↔
      m ∈ listed := by
    intro m
    rw [Bool.or_eq_true, hs.shown, hs.hidden]
    constructor
    · rintro (⟨hm, -⟩ | ⟨hm, -⟩) <;> exact hm
    · intro hm
      cases hv : v.isTerrainSwapAllowed m with
      | true => exact .inl ⟨hm, rfl⟩
      | false => exact .inr ⟨hm, rfl⟩
  refine ⟨fun m => ?_, fun m => ?_, hshift ▸ hok.shown, hinfo, hshift ▸ hok.counted⟩
  · have hm : kept.phaseShift.hasVisibleMapId m = _ := congrArg Prod.fst (hwhere m)
    rw [hm, Bool.and_eq_true, hlisted]
  · have hm : kept.suppressed.hasVisibleMapId m = _ := congrArg (fun p => p.2.1) (hwhere m)
    rw [hm, Bool.and_eq_true, hlisted, Bool.not_eq_true']

section Twice
variable {m : MapId}

/-- Only `m` is allowed: its ui maps are counted once for each time it is listed. -/
theorem onMapChange_only {object : WorldObject} (s : Shifts κ)
    (hv : ∀ j, v.isTerrainSwapAllowed j = decide (j = m)) :
    OwnInfo (s.onMapChange w v object).phaseShift.visibleMapIds ∧
    (∀ j, (s.onMapChange w v object).phaseShift.hasVisibleMapId j = true ↔
      j = m ∧ m ∈ w.terrainSwapsForMap object.mapId) ∧
    Counted (s.onMapChange w v object).phaseShift.uiWorldMapAreaIdSwaps fun u =>
      (w.terrainSwapsForMap object.mapId).count m * (w.uiWorldMapAreaIDSwaps m).count u := by
  unfold Shifts.onMapChange
  generalize w.terrainSwapsForMap object.mapId = listed
  induction listed using List.reverseRecOn with
  | nil =>
    refine ⟨(fun _ _ h => nomatch h), fun j => ?_, fun u => ?_⟩
    · exact iff_of_false (fun h => nomatch h) fun h => nomatch h.2
    · simp only [List.count_nil, Nat.zero_mul, if_true]
      rfl
  | append_singleton listed j ih =>
    obtain ⟨hown, hshown, hcounted⟩ := ih
    rw [List.foldl_append, List.foldl_cons, List.foldl_nil]
    generalize listed.foldl _ _ = before at hown hshown hcounted
    by_cases hj : j = m
    · subst hj
      rw [if_pos ((hv j).trans (decide_eq_true rfl))]
      refine ⟨(maps_showMap _ _ _ _).symm ▸ hown.addVisibleMapId j 1, fun i => ?_, ?_⟩
      · have hi := hshown i
        simp only [PhaseShift.hasVisibleMapId] at hi ⊢
        rw [maps_showMap, isSome_addVisibleMapId, Bool.or_eq_true, hi, decide_eq_true_eq,
          List.mem_append, List.mem_singleton]
        constructor
        · rintro (h | ⟨h, -⟩) <;> exact ⟨h, .inr rfl⟩
        · exact fun h => .inl h.1
      · refine (Counted.foldl_addUi (s := before.phaseShift.addVisibleMapId j j 1) hcounted
          (w.uiWorldMapAreaIDSwaps j)).congr fun u => ?_
        rw [List.count_append, List.count_singleton_self, Nat.add_mul, Nat.one_mul]
    · have hnot : ¬v.isTerrainSwapAllowed j = true := by
        rw [hv, decide_eq_true_eq]
        exact hj
      rw [if_neg hnot]
      refine ⟨hown, fun i => (hshown i).trans ?_, hcounted.congr fun u => ?_⟩
      · rw [List.mem_append, List.mem_singleton]
        constructor
        · rintro ⟨hi, hm⟩
          exact ⟨hi, .inl hm⟩
        · rintro ⟨hi, hm | rfl⟩
          · exact ⟨hi, hm⟩
          · exact absurd rfl hj
      · rw [List.count_append, List.count_singleton, beq_eq_false_iff_ne.mpr hj]
        rfl

theorem onMapChange_none {object : WorldObject} (s : Shifts κ)
    (hv : ∀ j, v.isTerrainSwapAllowed j = false) :
    (s.onMapChange w v object).phaseShift.uiWorldMapAreaIdSwaps = ∅ := by
  unfold Shifts.onMapChange
  generalize w.terrainSwapsForMap object.mapId = listed
  induction listed using List.reverseRecOn with
  | nil => rfl
  | append_singleton listed j ih =>
    rw [List.foldl_append, List.foldl_cons, List.foldl_nil, if_neg (by rw [hv]; decide)]
    exact ih

/-- If only `m` is shown and nothing is allowed any more, its ui maps are taken off once. -/
theorem onConditionChange_none {object : WorldObject} {s t : Shifts κ} {N : Nat → Nat}
    (hown : OwnInfo s.phaseShift.visibleMapIds)
    (hshown : ∀ j, s.phaseShift.hasVisibleMapId j = true ↔ j = m)
    (hcounted : Counted s.phaseShift.uiWorldMapAreaIdSwaps N)
    (hv : ∀ j, v.isTerrainSwapAllowed j = false)
    (h : s.onConditionChange w v object = some t) :
    Counted t.phaseShift.uiWorldMapAreaIdSwaps fun u =>
      N u - (w.uiWorldMapAreaIDSwaps m).count u := by
  obtain ⟨first, last, hfirst, hlast, rfl⟩ := onConditionChange_loops h
  have hkeep : ∀ (maps : List MapId) (ws : Working κ),
      (maps.foldl Working.keepMap ws).phaseShift = ws.phaseShift := by
    intro maps
    induction maps with
    | nil => exact fun _ => rfl
    | cons m maps ih =>
      intro ws
      refine (ih _).trans ?_
      unfold Working.keepMap
      split <;> rfl
  have hrestore : ∀ (maps : List MapId) (ws : Working κ),
      maps.foldl (Working.restoreMap w v) ws = ws := by
    intro maps
    induction maps with
    | nil => exact fun _ => rfl
    | cons m maps ih =>
      intro ws
      rw [List.foldl_cons, ih]
      unfold Working.restoreMap
      split
      · rw [if_neg (by rw [hv]; decide)]
      · rfl
  have hkeys : first.phaseShift.visibleMapIds.keys = [m] := by
    have hmem : ∀ j, j ∈ s.phaseShift.visibleMapIds.keys ↔ j = m := fun j => by
      rw [← hshown, PhaseShift.hasVisibleMapId, AList.lookup_isSome, AList.mem_keys]
    rw [hfirst.shown]
    exact List.perm_singleton.mp ((List.perm_ext_iff_of_nodup (AList.keys_nodup _)
      (List.nodup_singleton m)).mpr fun j => (hmem j).trans List.mem_singleton.symm)
  obtain ⟨ref, href⟩ := Option.isSome_iff_exists.mp ((hshown m).mpr rfl)
  have href' : first.phaseShift.visibleMapIds.lookup m = some ref := hfirst.shown ▸ href
  have huis : (first.mapLoops w v).phaseShift.uiWorldMapAreaIdSwaps =
      ((w.uiWorldMapAreaIDSwaps m).foldl PhaseShift.removeUiWorldMapAreaIdSwap
        first.phaseShift).uiWorldMapAreaIdSwaps := by
    unfold Working.mapLoops
    dsimp only
    rw [hrestore, hkeys, List.foldl_cons, List.foldl_nil]
    unfold Working.suppressMap
    simp only [href', hv, Bool.false_eq_true, if_false, hown m ref href]
  dsimp only
  rw [hkeep, hlast.uis, huis]
  exact Counted.foldl_removeUi (hfirst.uis ▸ hcounted) _

end Twice

end Ashamane.Phasing
