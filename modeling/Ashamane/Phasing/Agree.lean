import Ashamane.Phasing.Maps
import Ashamane.Phasing.Settled

/-! When phases kept up under changing conditions are those computed from scratch. -/
namespace Ashamane.Phasing
open Ashamane.Lib

variable {κ : Type} {w : World κ} {object : WorldObject} {v v' : Valuation κ}

section Areas
variable {fuel : Nat} {areaId : AreaId} {areas : List AreaId}

theorem areasUp_cons (h : w.areasUp fuel areaId = some areas) : areas = [] ∧
    w.areaTable.lookup areaId = none ∨
    ∃ parentAreaID fuel' up, w.areaTable.lookup areaId = some parentAreaID ∧ fuel = fuel' + 1 ∧
      w.areasUp fuel' parentAreaID = some up ∧ areas = areaId :: up := by
  unfold World.areasUp at h
  split at h
  · rename_i hnone
    exact .inl ⟨(Option.some.inj h).symm, hnone⟩
  · cases h
  · rename_i parentAreaID fuel hparent
    obtain ⟨up, hup, rfl⟩ := Option.map_eq_some_iff.mp h
    exact .inr ⟨parentAreaID, fuel, up, hparent, rfl, hup, rfl⟩

theorem areasUp_of_lookup {parentAreaID : AreaId}
    (h : w.areaTable.lookup areaId = some parentAreaID) :
    w.areasUp (fuel + 1) areaId = (w.areasUp fuel parentAreaID).map (areaId :: ·) := by
  conv_lhs => unfold World.areasUp
  rw [h]

/-- As many turns as there are areas are enough, and so are more. -/
theorem areasUp_length (h : w.areasUp fuel areaId = some areas) {more : Nat}
    (hmore : areas.length ≤ more) : w.areasUp more areaId = some areas := by
  induction fuel generalizing areaId areas more with
  | zero =>
    obtain ⟨rfl, hnone⟩ | ⟨_, _, _, -, hfuel, -, -⟩ := areasUp_cons h
    · unfold World.areasUp
      rw [hnone]
    · cases hfuel
  | succ fuel ih =>
    obtain ⟨rfl, hnone⟩ | ⟨parentAreaID, fuel', up, hparent, hfuel, hup, rfl⟩ := areasUp_cons h
    · unfold World.areasUp
      rw [hnone]
    · obtain rfl := Nat.succ.inj hfuel
      cases more with
      | zero => cases hmore
      | succ more =>
        rw [areasUp_of_lookup hparent, ih hup (Nat.le_of_succ_le_succ hmore), Option.map_some]

theorem areasUp_unique {fuel' : Nat} {areas' : List AreaId}
    (h : w.areasUp fuel areaId = some areas) (h' : w.areasUp fuel' areaId = some areas') :
    areas = areas' := by
  have hmax := areasUp_length h (Nat.le_max_left areas.length areas'.length)
  rw [areasUp_length h' (Nat.le_max_right areas.length areas'.length)] at hmax
  exact (Option.some.inj hmax).symm

theorem areasUp_mem (h : w.areasUp fuel areaId = some areas) {b : AreaId} (hb : b ∈ areas) :
    b ∈ w.areaTable ∧ ∃ fuel up, w.areasUp fuel b = some up ∧ up.length ≤ areas.length := by
  induction fuel generalizing areaId areas with
  | zero =>
    obtain ⟨rfl, -⟩ | ⟨_, _, _, -, hfuel, -, -⟩ := areasUp_cons h
    · cases hb
    · cases hfuel
  | succ fuel ih =>
    obtain ⟨rfl, -⟩ | ⟨parentAreaID, fuel', up, hparent, hfuel, hup, rfl⟩ := areasUp_cons h
    · cases hb
    · obtain rfl := Nat.succ.inj hfuel
      rcases List.mem_cons.mp hb with rfl | hb
      · exact ⟨AList.lookup_isSome.mp (Option.isSome_iff_exists.mpr ⟨_, hparent⟩), _, _, h,
          Nat.le_refl _⟩
      · obtain ⟨hmem, further, up', hup', hle⟩ := ih hup hb
        exact ⟨hmem, further, up', hup', Nat.le_succ_of_le hle⟩

theorem areasUp_nodup (h : w.areasUp fuel areaId = some areas) : areas.Nodup := by
  induction fuel generalizing areaId areas with
  | zero =>
    obtain ⟨rfl, -⟩ | ⟨_, _, _, -, hfuel, -, -⟩ := areasUp_cons h
    · exact List.nodup_nil
    · cases hfuel
  | succ fuel ih =>
    obtain ⟨rfl, -⟩ | ⟨parentAreaID, fuel', up, hparent, hfuel, hup, rfl⟩ := areasUp_cons h
    · exact List.nodup_nil
    · obtain rfl := Nat.succ.inj hfuel
      refine List.nodup_cons.mpr ⟨fun hmem => ?_, ih hup⟩
      obtain ⟨-, further, up', hup', hle⟩ := areasUp_mem hup hmem
      rw [← areasUp_unique h hup'] at hle
      exact Nat.not_succ_le_self _ hle

/-- The loop over an area and its parents, if it ends, ends within the size of the table. -/
theorem areasUp_table (h : w.areasUp fuel areaId = some areas) :
    w.areasUp w.areaTable.entries.length areaId = some areas := by
  refine areasUp_length h ?_
  have hkeys : areas.length ≤ w.areaTable.keys.length :=
    ((areasUp_nodup h).subperm fun b hb =>
      AList.mem_keys.mp (areasUp_mem h hb).1).length_le
  rwa [AList.keys, List.keys, List.length_map] at hkeys

end Areas

structure Same (s t : PhaseShift κ) : Prop where
  phases : ∀ phaseId, s.hasPhase phaseId = t.hasPhase phaseId
  maps : ∀ m, s.hasVisibleMapId m = t.hasVisibleMapId m
  uis : ∀ u, s.hasUiWorldMapAreaIdSwap u = t.hasUiWorldMapAreaIdSwap u

/-- Kept up from `v` on, the shift is the one computed under the last valuation. -/
def AgreesWithScratch (w : World κ) (object : WorldObject) (v : Valuation κ)
    (vs : List (Valuation κ)) : Prop :=
  ∃ s t, Shifts.keepUp w object v vs = some s ∧
    Shifts.compute w object (vs.getLastD v) = some t ∧ Same s.phaseShift t.phaseShift

def MetTogether (w : World κ) (object : WorldObject) (v : Valuation κ) : Prop :=
  ∀ listed, w.phaseAreas object = some listed → ∀ j, auraCount w object j = 0 →
    ∀ c ∈ listedFor listed j, ∀ d ∈ listedFor listed j,
      v.isObjectMeetToConditions c = v.isObjectMeetToConditions d

def OneConditionList (w : World κ) (object : WorldObject) : Prop :=
  ∀ listed, w.phaseAreas object = some listed → ∀ j, auraCount w object j = 0 →
    ∀ c ∈ listedFor listed j, ∀ d ∈ listedFor listed j, c = d

def UiMapsOnce (w : World κ) (object : WorldObject) : Prop :=
  ∀ m, 1 < (w.terrainSwapsForMap object.mapId).count m → w.uiWorldMapAreaIDSwaps m = []

structure Kept (w : World κ) (object : WorldObject) (listed : List (Nat × κ)) (v : Valuation κ)
    (s : Shifts κ) : Prop where
  maps : MapsSettled w (w.terrainSwapsForMap object.mapId) v s
  phases : ∀ j, Settled (listedFor listed j) (auraCount w object j) v
    (s.phaseShift.phases.lookup j) (s.suppressed.phases.lookup j)

theorem compute_isSome {listed : List (Nat × κ)} (hlisted : w.phaseAreas object = some listed)
    (v : Valuation κ) : ∃ s, Shifts.compute w object v = some s := by
  unfold Shifts.compute Shifts.onAreaChange
  rw [hlisted]
  exact ⟨_, rfl⟩

theorem compute_maps (honce : UiMapsOnce w object) {s : Shifts κ}
    (h : Shifts.compute w object v = some s) :
    MapsSettled w (w.terrainSwapsForMap object.mapId) v s :=
  onAreaChange_maps (mapsSettled_onMapChange Shifts.new honce) h

theorem compute_kept {listed : List (Nat × κ)} (hlisted : w.phaseAreas object = some listed)
    (honce : UiMapsOnce w object) (hmet : MetTogether w object v) {s : Shifts κ}
    (h : Shifts.compute w object v = some s) : Kept w object listed v s := by
  refine ⟨compute_maps honce h, fun j => ?_⟩
  obtain ⟨hactive, hsuppressed⟩ := onAreaChange_phases hlisted h j
  rw [hactive, hsuppressed]
  exact settled_scratch (hmet listed hlisted j)

theorem Kept.onConditionChange {listed : List (Nat × κ)} {s : Shifts κ}
    (hs : Kept w object listed v s) (v' : Valuation κ) :
    ∃ t, s.onConditionChange w v' object = some t ∧ Kept w object listed v' t := by
  have hdefined : (s.suppressed.phases.entries.any fun e => e.2.areaConditions.isNone) = false := by
    refine List.any_eq_false.mpr fun e he => ?_
    have hlookup := AList.mem_lookup_iff.mpr he
    have hconditions := (hs.phases e.1).conditions hlookup
    rwa [Option.isNone_iff_eq_none]
  obtain ⟨t, ht⟩ : ∃ t, s.onConditionChange w v' object = some t := by
    unfold Shifts.onConditionChange
    rw [if_neg (by rw [hdefined]; decide)]
    exact ⟨_, rfl⟩
  refine ⟨t, ht, hs.maps.onConditionChange ht, fun j => ?_⟩
  obtain ⟨hactive, hsuppressed⟩ := onConditionChange_phases ht j
  rw [hactive, hsuppressed]
  exact (hs.phases j).change

theorem Kept.run {listed : List (Nat × κ)} {s : Shifts κ} (hs : Kept w object listed v s)
    (vs : List (Valuation κ)) :
    ∃ t, vs.foldlM (fun s v => Shifts.onConditionChange w v object s) s = some t ∧
      Kept w object listed (vs.getLastD v) t := by
  induction vs generalizing v s with
  | nil => exact ⟨s, rfl, hs⟩
  | cons v' vs ih =>
    obtain ⟨u, hu, hkept⟩ := hs.onConditionChange v'
    obtain ⟨t, ht, hlast⟩ := ih hkept
    refine ⟨t, ?_, ?_⟩
    · rw [List.foldlM_cons, hu]
      exact ht
    · rw [List.getLastD_cons]
      exact hlast

/-- What is kept up shows what is computed from scratch, if the listings are met together. -/
theorem Kept.same {listed : List (Nat × κ)} {s t : Shifts κ}
    (hlisted : w.phaseAreas object = some listed) (honce : UiMapsOnce w object)
    (hmet : MetTogether w object v) (hs : Kept w object listed v s)
    (ht : Shifts.compute w object v = some t) : Same s.phaseShift t.phaseShift := by
  have hmaps := compute_maps honce ht
  refine ⟨fun j => ?_, fun m => ?_, fun u => ?_⟩
  · have hactive := (onAreaChange_phases hlisted ht j).1
    rw [Bool.eq_iff_iff, PhaseShift.hasPhase, PhaseShift.hasPhase, Option.isSome_iff_ne_none,
      Option.isSome_iff_ne_none, hactive, shown_scratch]
    exact (hs.phases j).shown_iff (hmet listed hlisted j)
  · rw [Bool.eq_iff_iff, hs.maps.shown, hmaps.shown]
  · rw [Bool.eq_iff_iff, hs.maps.ui_iff, hmaps.ui_iff]

theorem phaseAreas_of_ends (hends : ∃ fuel, (w.areasUp fuel object.areaId).isSome) :
    ∃ listed, w.phaseAreas object = some listed := by
  obtain ⟨fuel, h⟩ := hends
  obtain ⟨areas, hareas⟩ := Option.isSome_iff_exists.mp h
  unfold World.phaseAreas
  rw [areasUp_table hareas]
  exact ⟨_, rfl⟩

theorem agreesWithScratch_of_metTogether
    (hends : ∃ fuel, (w.areasUp fuel object.areaId).isSome) (honce : UiMapsOnce w object)
    {vs : List (Valuation κ)} (hfirst : MetTogether w object v)
    (hlast : MetTogether w object (vs.getLastD v)) : AgreesWithScratch w object v vs := by
  obtain ⟨listed, hlisted⟩ := phaseAreas_of_ends hends
  obtain ⟨s, hs⟩ := compute_isSome hlisted v
  obtain ⟨t, ht⟩ := compute_isSome hlisted (vs.getLastD v)
  obtain ⟨u, hu, hkept⟩ := (compute_kept hlisted honce hfirst hs).run vs
  refine ⟨u, t, ?_, ht, hkept.same hlisted honce hlast ht⟩
  rw [Shifts.keepUp, hs]
  exact hu

section Disagree

theorem keepUp_one {t : Shifts κ} (h : Shifts.keepUp w object v [v'] = some t) :
    ∃ s, Shifts.compute w object v = some s ∧ s.onConditionChange w v' object = some t := by
  obtain ⟨s, hs, ht⟩ := Option.bind_eq_some_iff.mp h
  obtain ⟨u, hu, hrest⟩ := Option.bind_eq_some_iff.mp ht
  obtain rfl := Option.some.inj hrest
  exact ⟨s, hs, hu⟩

theorem foldl_addTo_hidden {L : List κ} (hL : L ≠ [])
    (hv : ∀ c ∈ L, v.isObjectMeetToConditions c = false) :
    ∃ references, L.foldl (addTo v) (none, none) =
      (none, some ⟨references, some (L.getLast hL)⟩) := by
  obtain ⟨init, last, rfl⟩ := (List.eq_nil_or_concat' L).resolve_left hL
  obtain ⟨hshown, -⟩ := foldl_addTo v init
  have hnone : (init.foldl (addTo v) (none, none)).1 = none := by
    refine Option.eq_none_iff_forall_ne_some.mpr fun r hr => ?_
    obtain ⟨-, c, hc, hmet, -⟩ := hshown r hr
    rw [hv c (List.mem_append_left _ hc)] at hmet
    cases hmet
  have hlast := hv last (List.mem_append_right _ List.mem_cons_self)
  refine ⟨(((init.foldl (addTo v) (none, none)).2.map PhaseRef.references).getD 0) + 1, ?_⟩
  rw [List.foldl_append, List.foldl_cons, List.foldl_nil, addTo, if_neg (by rw [hlast]; decide),
    hnone, List.getLast_append_singleton]
  rfl

/-- A phase listed under two condition lists: the one not remembered is forgotten. -/
theorem oneConditionList_of_agrees (h : ∀ (v : Valuation κ) (vs : List (Valuation κ)),
    AgreesWithScratch w object v vs) : OneConditionList w object := by
  classical
  intro listed hlisted j haura
  by_contra hdiffer
  have hL : listedFor listed j ≠ [] := by
    intro hnil
    rw [hnil] at hdiffer
    exact hdiffer fun c hc => nomatch hc
  obtain ⟨c, hc, hne⟩ : ∃ c ∈ listedFor listed j, c ≠ (listedFor listed j).getLast hL := by
    by_contra hall
    refine hdiffer fun c hc d hd => ?_
    have hlast : ∀ c ∈ listedFor listed j, c = (listedFor listed j).getLast hL := fun c hc =>
      by_contra fun hne => hall ⟨c, hc, hne⟩
    rw [hlast c hc, hlast d hd]
  generalize hlast : (listedFor listed j).getLast hL = last at hne
  obtain ⟨t, scratch, ht, hscratch, hsame⟩ := h ⟨fun _ => false, fun _ => false⟩
    [⟨fun c => decide (c ≠ last), fun _ => false⟩]
  obtain ⟨s, hs, ht⟩ := keepUp_one ht
  obtain ⟨hactive, hsuppressed⟩ := onAreaChange_phases hlisted hs j
  obtain ⟨references, hfold⟩ := foldl_addTo_hidden (v := ⟨fun _ => false, fun _ => false⟩) hL
    fun _ _ => rfl
  rw [hfold, haura, Function.iterate_zero, id_eq] at hactive
  rw [hfold, hlast] at hsuppressed
  -- what is suppressed is settled under the last list alone
  have hsettled : Settled [last] 0 ⟨fun _ => false, fun _ => false⟩
      (s.phaseShift.phases.lookup j) (s.suppressed.phases.lookup j) := by
    rw [hactive, hsuppressed]
    exact .hidden references rfl List.mem_cons_self rfl
  have hkept := (onConditionChange_phases ht j).1
  rw [haura] at hkept
  have hgone : ¬t.phaseShift.phases.lookup j ≠ none := by
    have hchanged := @Settled.change κ [last] 0 _ ⟨fun c => decide (c ≠ last), fun _ => false⟩
      _ _ hsettled
    rw [hkept, hchanged.shown_iff fun _ c hc d hd => by
      rw [List.mem_singleton.mp hc, List.mem_singleton.mp hd]]
    rintro (hzero | ⟨d, hd, hmet⟩)
    · exact Nat.lt_irrefl 0 hzero
    · exact of_decide_eq_true hmet (List.mem_singleton.mp hd)
  have hthere : scratch.phaseShift.phases.lookup j ≠ none := by
    rw [(onAreaChange_phases hlisted hscratch j).1]
    exact shown_scratch.mpr (.inr ⟨c, hc, decide_eq_true hne⟩)
  have hphases := hsame.phases j
  rw [Bool.eq_iff_iff, PhaseShift.hasPhase, PhaseShift.hasPhase, Option.isSome_iff_ne_none,
    Option.isSome_iff_ne_none] at hphases
  exact hgone (hphases.mpr hthere)

/-- A terrain swap listed twice: its ui maps are counted twice and taken off once. -/
theorem uiMapsOnce_of_agrees (h : ∀ (v : Valuation κ) (vs : List (Valuation κ)),
    AgreesWithScratch w object v vs) : UiMapsOnce w object := by
  intro m hm
  refine List.eq_nil_iff_forall_not_mem.mpr fun u hu => ?_
  obtain ⟨t, scratch, ht, hscratch, hsame⟩ := h ⟨fun _ => false, fun j => decide (j = m)⟩
    [⟨fun _ => false, fun _ => false⟩]
  obtain ⟨s, hs, ht⟩ := keepUp_one ht
  obtain ⟨hmaps, huis, -⟩ := onAreaChange_same hs
  obtain ⟨hown, hshown, hcounted⟩ := @onMapChange_only κ w
    ⟨fun _ => false, fun j => decide (j = m)⟩ m object Shifts.new fun _ => rfl
  have hlisted : m ∈ w.terrainSwapsForMap object.mapId := List.count_pos_iff.mp (by omega)
  have hleft := onConditionChange_none (m := m) (s := s) (hmaps.symm ▸ hown)
    (fun j => by
      rw [PhaseShift.hasVisibleMapId, hmaps]
      exact (hshown j).trans (and_iff_left hlisted))
    (huis.symm ▸ hcounted) (fun _ => rfl) ht u
  have hthere : t.phaseShift.hasUiWorldMapAreaIdSwap u = true := by
    have hpos := List.count_pos_iff.mpr hu
    have htwo : 2 * (w.uiWorldMapAreaIDSwaps m).count u ≤
        (w.terrainSwapsForMap object.mapId).count m * (w.uiWorldMapAreaIDSwaps m).count u :=
      Nat.mul_le_mul_right _ hm
    have hne : (w.terrainSwapsForMap object.mapId).count m * (w.uiWorldMapAreaIDSwaps m).count u -
        (w.uiWorldMapAreaIDSwaps m).count u ≠ 0 := by
      omega
    rw [PhaseShift.hasUiWorldMapAreaIdSwap, hleft, if_neg hne]
    rfl
  have hgone : scratch.phaseShift.uiWorldMapAreaIdSwaps = ∅ :=
    (onAreaChange_same hscratch).2.1.trans (onMapChange_none Shifts.new fun _ => rfl)
  rw [hsame.uis u, PhaseShift.hasUiWorldMapAreaIdSwap, hgone] at hthere
  cases hthere

end Disagree

/-- Keeping up agrees with computing from scratch under all conditions exactly if a phase that
no aura gives has one condition list and a terrain swap with ui maps is listed once; without
the former, as long as the listings are met together first and last. -/
theorem keepUp_agrees_iff (hends : ∃ fuel, (w.areasUp fuel object.areaId).isSome) :
    ((∀ (v : Valuation κ) (vs : List (Valuation κ)), AgreesWithScratch w object v vs) ↔
      OneConditionList w object ∧ UiMapsOnce w object) ∧
    (UiMapsOnce w object → ∀ (v : Valuation κ) (vs : List (Valuation κ)),
      MetTogether w object v → MetTogether w object (vs.getLastD v) →
        AgreesWithScratch w object v vs) := by
  refine ⟨⟨fun h => ⟨oneConditionList_of_agrees h, uiMapsOnce_of_agrees h⟩, ?_⟩, ?_⟩
  · rintro ⟨hone, honce⟩ v vs
    have hmet : ∀ v : Valuation κ, MetTogether w object v :=
      fun v listed hlisted j haura c hc d hd =>
        congrArg v.isObjectMeetToConditions (hone listed hlisted j haura c hc d hd)
    exact agreesWithScratch_of_metTogether hends honce (hmet v) (hmet _)
  · exact fun honce v vs hfirst hlast => agreesWithScratch_of_metTogether hends honce hfirst hlast

def twoListings : World Nat where
  areaTable := (∅ : AList fun _ : AreaId => AreaId).insert 2 0 |>.insert 1 2
  phasesForArea
    | 1 => [⟨5, [], 1⟩]
    | 2 => [⟨5, [], 2⟩]
    | _ => []
  terrainSwapsForMap := fun _ => []
  uiWorldMapAreaIDSwaps := fun _ => []
  phasesForGroup := fun _ => []

/-- Condition 2 is never met, condition 1 is met later: the phase stays away. -/
theorem twoListings_disagrees : (twoListings.areasUp 2 1).isSome ∧
    ¬AgreesWithScratch twoListings ⟨0, 1, [], []⟩ ⟨fun _ => false, fun _ => false⟩
      [⟨fun condition => condition == 1, fun _ => false⟩] := by
  refine ⟨by decide, ?_⟩
  rintro ⟨s, t, hs, ht, hsame⟩
  have hkept : (Shifts.keepUp twoListings ⟨0, 1, [], []⟩ ⟨fun _ => false, fun _ => false⟩
      [⟨fun condition => condition == 1, fun _ => false⟩]).map
        (fun s => s.phaseShift.hasPhase 5) = some false := by
    decide
  have hscratch : (Shifts.compute twoListings ⟨0, 1, [], []⟩
      ⟨fun condition => condition == 1, fun _ => false⟩).map
        (fun s => s.phaseShift.hasPhase 5) = some true := by
    decide
  have hphase := hsame.phases 5
  rw [hs, Option.map_some] at hkept
  rw [List.getLastD_cons, List.getLastD_nil] at ht
  rw [ht, Option.map_some] at hscratch
  rw [Option.some.inj hkept, Option.some.inj hscratch] at hphase
  cases hphase

theorem twoListings_agrees : AgreesWithScratch twoListings ⟨0, 1, [], []⟩
    ⟨fun _ => false, fun _ => false⟩ [⟨fun _ => true, fun _ => false⟩] :=
  (keepUp_agrees_iff ⟨2, by decide⟩).2 (fun _ _ => rfl) _ _ (fun _ _ _ _ _ _ _ _ => rfl)
    fun _ _ _ _ _ _ _ _ => rfl

end Ashamane.Phasing
