import Ashamane.GarrisonTables.Saved

/-! What a load makes of a garrison that was saved, and when that is the same. -/
namespace Ashamane.GarrisonTables
open Ashamane.Lib Tables

variable {stores : Stores} {owner : Owner} {garrison garrison' : WodGarrison} {db db' : Database}

/-! Followers -/

def Follower.reloaded (stores : Stores) (follower : Follower) : Option Follower :=
  if stores.follower follower.GarrFollowerID then
    some { follower with
      CurrentBuildingID :=
        if stores.building follower.CurrentBuildingID then follower.CurrentBuildingID else 0
      CurrentMissionID :=
        if (stores.mission follower.CurrentMissionID).isSome then follower.CurrentMissionID else 0
      AbilityID := follower.AbilityID.filter stores.ability }
  else none

theorem map_abilityRows (dbId slot : Nat) (abilities : List Nat) :
    (abilityRows dbId slot abilities).map AbilityRow.abilityId = abilities := by
  induction abilities generalizing slot with
  | nil => rfl
  | cons ability abilities ih => rw [abilityRows, List.map_cons, ih]

theorem foldl_abilities (rows : List AbilityRow) (follower : Follower) :
    rows.foldl (fun follower row =>
      { follower with AbilityID := follower.AbilityID ++ [row.abilityId] }) follower =
      { follower with AbilityID := follower.AbilityID ++ rows.map AbilityRow.abilityId } := by
  induction rows generalizing follower with
  | nil => simp
  | cons row rows ih => rw [List.foldl_cons, ih, List.map_cons, List.append_assoc]; rfl

/-- The abilities of one follower come in the order of their slots. -/
theorem Holds.abilities_ordered (h : Holds owner garrison db) {dbId : Nat} {follower : Follower}
    (hlookup : garrison.followers.lookup dbId = some follower)
    (hlength : follower.AbilityID.length ≤ 256) :
    ((joined owner.ownsFollower FollowerRow.dbId AbilityRow.dbId db.followers
        db.follower_abilities).insertionSort (·.slot ≤ ·.slot)).filter (·.dbId = dbId) =
      abilityRows dbId 0 follower.AbilityID := by
  have htotal : Std.Total fun row row' : AbilityRow => row.slot ≤ row'.slot :=
    ⟨fun row row' => Nat.le_total row.slot row'.slot⟩
  have htrans : IsTrans AbilityRow fun row row' => row.slot ≤ row'.slot :=
    ⟨fun _ _ _ => Nat.le_trans⟩
  refine eq_of_ordered AbilityRow.slot ?_ ?_ (abilityRows_slots (by omega)).1
  · have hrows := filter_children
      (fun dbId (follower : Follower) => abilityRows dbId 0 follower.AbilityID)
      (fun k v row hrow => abilityRows_dbId hrow)
      ((List.perm_insertionSort (·.slot ≤ ·.slot) _).trans h.abilities) dbId
    rwa [hlookup] at hrows
  · exact (List.pairwise_insertionSort _ _).filter _

theorem foldl_loadAbility (rows : List AbilityRow) (followers : AList fun _ : Nat => Follower)
    (dbId : Nat) : (rows.foldl (loadAbility stores) followers).lookup dbId =
      (followers.lookup dbId).map fun follower => { follower with
        AbilityID := follower.AbilityID ++
          ((rows.filter (·.dbId = dbId)).map AbilityRow.abilityId).filter stores.ability } := by
  have hfilter : rows.foldl (loadAbility stores) followers =
      (rows.filter fun row => stores.ability row.abilityId).foldl (fun followers row =>
        Assoc.modify row.dbId (fun follower =>
          { follower with AbilityID := follower.AbilityID ++ [row.abilityId] }) followers)
        followers := by
    rw [List.foldl_filter]
    rfl
  rw [hfilter, lookup_attach]
  refine congrArg (fun f => Option.map f (followers.lookup dbId)) (funext fun follower => ?_)
  rw [foldl_abilities, List.filter_map, List.filter_filter, List.filter_filter]
  simp only [Function.comp_apply, Bool.and_comm]

theorem follower_followerRow (dbId : Nat) (follower : Follower) :
    (followerRow owner dbId follower).follower stores =
      if stores.follower follower.GarrFollowerID then
        some { follower with
          CurrentBuildingID :=
            if stores.building follower.CurrentBuildingID then follower.CurrentBuildingID else 0
          CurrentMissionID :=
            if (stores.mission follower.CurrentMissionID).isSome then follower.CurrentMissionID
            else 0
          AbilityID := [] }
      else none := rfl

theorem Holds.lookup_followers (h : Holds owner garrison db)
    (hlength : ∀ dbId follower, garrison.followers.lookup dbId = some follower →
      follower.AbilityID.length ≤ 256) (dbId : Nat) :
    (((joined owner.ownsFollower FollowerRow.dbId AbilityRow.dbId db.followers
        db.follower_abilities).insertionSort (·.slot ≤ ·.slot)).foldl (loadAbility stores)
      ((db.followers.filter owner.ownsFollower).foldl (loadFollower stores) (∅, ∅)).1).lookup dbId =
      (garrison.followers.lookup dbId).bind (·.reloaded stores) := by
  rw [foldl_loadAbility]
  have hloaded : ((db.followers.filter owner.ownsFollower).foldl (loadFollower stores)
      (∅, ∅)).1.lookup dbId = (garrison.followers.lookup dbId).bind fun follower =>
        (followerRow owner dbId follower).follower stores :=
    lookup_loadEntries (followerRow owner) (fun _ _ => rfl) h.followers dbId
  rw [hloaded]
  cases hlookup : garrison.followers.lookup dbId with
  | none => rfl
  | some follower =>
    rw [h.abilities_ordered hlookup (hlength dbId follower hlookup), map_abilityRows,
      Option.bind_some, Option.bind_some, follower_followerRow, Follower.reloaded]
    by_cases hknown : stores.follower follower.GarrFollowerID = true
    · rw [if_pos hknown, if_pos hknown, Option.map_some, List.nil_append]
    · rw [if_neg hknown, if_neg hknown, Option.map_none]

theorem Holds.mem_followerIds (h : Holds owner garrison db) (n : Nat) :
    n ∈ ((db.followers.filter owner.ownsFollower).foldl (loadFollower stores) (∅, ∅)).2 ↔
      ∃ dbId follower, garrison.followers.lookup dbId = some follower ∧
        stores.follower follower.GarrFollowerID = true ∧ follower.GarrFollowerID = n := by
  refine (mem_loadEntries (followerRow owner) h.followers n).trans ?_
  refine exists₂_congr fun dbId follower => and_congr_right fun _ => and_congr_left fun _ => ?_
  rw [follower_followerRow, Option.isSome_ite]

/-! Missions -/

def normalRewards (rewards : List GarrisonMissionReward) : List GarrisonMissionReward :=
  (rewards.zipIdx.filter fun reward => reward.2 % 256 = 0).map (·.1)

def bonusRewards (rewards : List GarrisonMissionReward) : List GarrisonMissionReward :=
  (rewards.zipIdx.filter fun reward => reward.2 % 256 ≠ 0).map (·.1)

def GarrisonMissionReward.stored (reward : GarrisonMissionReward) : GarrisonMissionReward :=
  { reward with Unknown := 0 }

def Mission.reloaded (stores : Stores) (mission : Mission) : Option Mission :=
  (stores.mission mission.MissionRecID).map fun missionEntry =>
    { MissionRecID := mission.MissionRecID
      OfferTime := mission.OfferTime % 2 ^ 32
      OfferDuration := missionEntry.offerTime
      StartTime :=
        if mission.StartTime = NOT_STARTED ∨ mission.StartTime % 2 ^ 32 = 0 then NOT_STARTED
        else mission.StartTime % 2 ^ 32
      TravelDuration := missionEntry.travelTime
      MissionDuration := missionEntry.duration
      MissionState := mission.MissionState
      SuccessChance := Garrisons.getMissionSuccessChance
      Unknown2 := 0
      Rewards := (normalRewards (mission.Rewards ++ mission.BonusRewards)).map (·.stored)
      BonusRewards := (bonusRewards (mission.Rewards ++ mission.BonusRewards)).map (·.stored)
      CanStartMission := true }

structure SameMission (mission mission' : Mission) : Prop where
  data : { mission with Rewards := [], BonusRewards := [] } =
    { mission' with Rewards := [], BonusRewards := [] }
  rewards : mission.Rewards.Perm mission'.Rewards
  bonusRewards : mission.BonusRewards.Perm mission'.BonusRewards

theorem SameMission.trans {mission mission' mission'' : Mission}
    (h : SameMission mission mission') (h' : SameMission mission' mission'') :
    SameMission mission mission'' :=
  ⟨h.data.trans h'.data, h.rewards.trans h'.rewards, h.bonusRewards.trans h'.bonusRewards⟩

theorem SameMission.symm {mission mission' : Mission} (h : SameMission mission mission') :
    SameMission mission' mission := ⟨h.data.symm, h.rewards.symm, h.bonusRewards.symm⟩

theorem SameMission.rel_trans {m m' m'' : Option Mission} (h : Option.Rel SameMission m m')
    (h' : Option.Rel SameMission m' m'') : Option.Rel SameMission m m'' := by
  cases h with
  | none => exact h'
  | some h =>
    cases h' with
    | some h' => exact .some (h.trans h')

theorem SameMission.rel_symm {m m' : Option Mission} (h : Option.Rel SameMission m m') :
    Option.Rel SameMission m' m := by
  cases h with
  | none => exact .none
  | some h => exact .some h.symm

theorem filter_rewardRows (dbId n : Nat) (rewards : List GarrisonMissionReward)
    (normal : Nat → Bool) :
    ((rewardRows dbId (n % 2 ^ 8) rewards).filter fun row => normal row.type).map (·.reward) =
      ((rewards.zipIdx n).filter fun reward => normal (reward.2 % 256)).map (·.1.stored) := by
  induction rewards generalizing n with
  | nil => rfl
  | cons reward rewards ih =>
    have hnext : (n % 2 ^ 8 + 1) % 2 ^ 8 = (n + 1) % 2 ^ 8 := by omega
    rw [rewardRows, hnext, List.zipIdx_cons]
    have hrest := ih (n + 1)
    by_cases hnormal : normal (n % 256) = true
    · rw [List.filter_cons_of_pos, List.filter_cons_of_pos, List.map_cons, List.map_cons, hrest]
      · rfl
      · exact hnormal
      · exact hnormal
    · rw [List.filter_cons_of_neg, List.filter_cons_of_neg, hrest]
      · exact hnormal
      · exact hnormal

def RewardRow.attach (row : RewardRow) (mission : Mission) : Mission :=
  if row.type = 0 then { mission with Rewards := mission.Rewards ++ [row.reward] }
  else { mission with BonusRewards := mission.BonusRewards ++ [row.reward] }

theorem foldl_rewards (rows : List RewardRow) (mission : Mission) :
    rows.foldl (fun mission row => row.attach mission) mission =
      { mission with
        Rewards := mission.Rewards ++ (rows.filter (·.type = 0)).map (·.reward)
        BonusRewards := mission.BonusRewards ++ (rows.filter (·.type ≠ 0)).map (·.reward) } := by
  induction rows generalizing mission with
  | nil => simp
  | cons row rows ih =>
    rw [List.foldl_cons, ih, List.filter_cons, List.filter_cons]
    by_cases htype : row.type = 0
    · simp [htype, RewardRow.attach]
    · simp [htype, RewardRow.attach]

theorem normal_append_bonus (rewards : List GarrisonMissionReward) :
    (normalRewards rewards ++ bonusRewards rewards).Perm rewards := by
  rw [normalRewards, bonusRewards, ← List.map_append]
  have hperm := List.filter_append_perm (fun reward : GarrisonMissionReward × Nat =>
    decide (reward.2 % 256 = 0)) rewards.zipIdx
  have hmap := hperm.map Prod.fst
  rw [List.zipIdx_map_fst] at hmap
  simpa using hmap

theorem mission_missionRow (dbId : Nat) (mission : Mission) :
    (missionRow owner dbId mission).mission stores =
      (mission.reloaded stores).map fun mission =>
        { mission with Rewards := [], BonusRewards := [] } := by
  rw [MissionRow.mission, Mission.reloaded, Option.map_map]
  refine congrArg (fun f => Option.map f (stores.mission mission.MissionRecID))
    (funext fun missionEntry => ?_)
  simp only [missionRow, Function.comp_apply]
  congr 1
  by_cases hstart : mission.StartTime = NOT_STARTED
  · simp [hstart]
  · simp [hstart]

theorem Holds.lookup_missions (h : Holds owner garrison db) (dbId : Nat) :
    Option.Rel SameMission
      (((joined owner.ownsMission MissionRow.dbId RewardRow.dbId db.missions
          db.mission_rewards).foldl loadReward
        ((db.missions.filter owner.ownsMission).foldl (loadMission stores) (∅, ∅)).1).lookup dbId)
      ((garrison.missions.lookup dbId).bind (·.reloaded stores)) := by
  have hloaded : ((db.missions.filter owner.ownsMission).foldl (loadMission stores)
      (∅, ∅)).1.lookup dbId = (garrison.missions.lookup dbId).bind fun mission =>
        (missionRow owner dbId mission).mission stores :=
    lookup_loadEntries (missionRow owner) (fun _ _ => rfl) h.missions dbId
  have hrewards := filter_children
    (fun dbId (mission : Mission) =>
      rewardRows dbId 0 [mission.Rewards, mission.BonusRewards].flatten)
    (fun k v row hrow => rewardRows_dbId hrow) h.rewards dbId
  rw [show loadReward = fun missions row => Assoc.modify row.dbId row.attach missions from rfl,
    lookup_attach, hloaded]
  cases hlookup : garrison.missions.lookup dbId with
  | none => exact .none
  | some mission =>
    rw [hlookup, Option.map_some, Option.getD_some] at hrewards
    simp only [Option.bind_some, mission_missionRow, Option.map_map]
    cases hreloaded : mission.reloaded stores with
    | none => exact .none
    | some mission' =>
      refine .some ?_
      simp only [Function.comp_apply, foldl_rewards]
      obtain ⟨missionEntry, _, rfl⟩ := Option.map_eq_some_iff.mp hreloaded
      have hboth : [mission.Rewards, mission.BonusRewards].flatten =
          mission.Rewards ++ mission.BonusRewards := by simp
      rw [hboth] at hrewards
      have hrows : ∀ normal : Nat → Bool, (((joined owner.ownsMission MissionRow.dbId
          RewardRow.dbId db.missions db.mission_rewards).filter (·.dbId = dbId)).filter
            (fun row => normal row.type) |>.map (·.reward)).Perm
          (((mission.Rewards ++ mission.BonusRewards).zipIdx.filter fun reward =>
            normal (reward.2 % 256)).map (·.1.stored)) := by
        intro normal
        rw [← filter_rewardRows dbId 0]
        exact (hrewards.filter _).map _
      refine ⟨rfl, ?_, ?_⟩
      · rw [List.nil_append, normalRewards, List.map_map]
        exact hrows fun type => type = 0
      · rw [List.nil_append, bonusRewards, List.map_map]
        exact hrows fun type => type ≠ 0

theorem Holds.mem_missionIds (h : Holds owner garrison db) (n : Nat) :
    n ∈ ((db.missions.filter owner.ownsMission).foldl (loadMission stores) (∅, ∅)).2 ↔
      ∃ dbId mission, garrison.missions.lookup dbId = some mission ∧
        (stores.mission mission.MissionRecID).isSome ∧ mission.MissionRecID = n := by
  refine (mem_loadEntries (missionRow owner) h.missions n).trans ?_
  refine exists₂_congr fun dbId mission => and_congr_right fun _ => and_congr_left fun _ => ?_
  rw [mission_missionRow, Option.isSome_map, Mission.reloaded, Option.isSome_map]

/-! Plots and blueprints -/

theorem lookup_initializePlots (siteLevel plot : Nat) :
    (initializePlots stores siteLevel).lookup plot =
      if plot ∈ stores.plots siteLevel then some none else none := by
  have hfold : ∀ (l : List Nat) (plots : AList fun _ : Nat => Option GarrisonBuildingInfo),
      (l.foldl (fun plots plot => plots.insert plot none) plots).lookup plot =
        if plot ∈ l then some none else plots.lookup plot := by
    intro l
    induction l with
    | nil => simp
    | cons first l ih =>
      intro plots
      rw [List.foldl_cons, ih, Assoc.lookup_insert]
      by_cases hfirst : plot = first
      · simp [hfirst]
      · simp [hfirst]
  rw [initializePlots, hfold, AList.lookup_empty]

def GarrisonBuildingInfo.reloaded (stores : Stores) (info : GarrisonBuildingInfo) :
    Option GarrisonBuildingInfo :=
  if stores.building info.GarrBuildingID then some info else none

theorem foldl_loadBuilding (rows : List BuildingRow)
    (plots : AList fun _ : Nat => Option GarrisonBuildingInfo) (plot : Nat) :
    (rows.foldl (loadBuilding stores) plots).lookup plot =
      (plots.lookup plot).map fun info =>
        ((rows.filter (·.plotInstanceId = plot)).filter fun row =>
          stores.building row.buildingId).foldl
            (fun _ row => some ⟨row.buildingId, row.timeBuilt, row.active⟩) info := by
  have hfilter : rows.foldl (loadBuilding stores) plots =
      (rows.filter fun row => stores.building row.buildingId).foldl (fun plots row =>
        Assoc.modify row.plotInstanceId
          (fun _ => some ⟨row.buildingId, row.timeBuilt, row.active⟩) plots) plots := by
    rw [List.foldl_filter]
    rfl
  rw [hfilter, lookup_attach, List.filter_filter, List.filter_filter]
  simp only [Bool.and_comm]

theorem Holds.filter_buildings (h : Holds owner garrison db) (plot : Nat) :
    (db.buildings.filter owner.ownsBuilding).filter (·.plotInstanceId = plot) =
      (((garrison.plots.lookup plot).bind id).map fun info => ⟨owner.guid, owner.type, plot,
        info.GarrBuildingID, info.TimeBuilt, info.Active⟩).toList := by
  have hrows := h.buildings
  rw [buildingRows, List.filterMap_eq_flatMap_toList] at hrows
  have hfilter : ((db.buildings.filter owner.ownsBuilding).filter
      (·.plotInstanceId = plot)).Perm _ :=
    filter_children (fun plot (info : Option GarrisonBuildingInfo) =>
      (info.map fun info => BuildingRow.mk owner.guid owner.type plot info.GarrBuildingID
        info.TimeBuilt info.Active).toList) (fun plot info row hrow => ?_) hrows plot
  · cases hlookup : garrison.plots.lookup plot with
    | none =>
      rw [hlookup] at hfilter
      exact List.perm_nil.mp hfilter
    | some info =>
      rw [hlookup] at hfilter
      cases info with
      | none => exact List.perm_nil.mp hfilter
      | some info => exact List.perm_singleton.mp hfilter
  · obtain ⟨info, _, rfl⟩ := Option.map_eq_some_iff.mp (Option.mem_toList.mp hrow)
    rfl

theorem Holds.lookup_plots (h : Holds owner garrison db) (siteLevel plot : Nat) :
    ((db.buildings.filter owner.ownsBuilding).foldl (loadBuilding stores)
      (initializePlots stores siteLevel)).lookup plot =
      if plot ∈ stores.plots siteLevel then
        some (((garrison.plots.lookup plot).bind id).bind (·.reloaded stores))
      else none := by
  rw [foldl_loadBuilding, lookup_initializePlots, h.filter_buildings]
  by_cases hplot : plot ∈ stores.plots siteLevel
  · rw [if_pos hplot, if_pos hplot, Option.map_some]
    cases (garrison.plots.lookup plot).bind id with
    | none => rfl
    | some info =>
      by_cases hknown : stores.building info.GarrBuildingID = true
      · simp [GarrisonBuildingInfo.reloaded, hknown]
      · simp [GarrisonBuildingInfo.reloaded, hknown]
  · rw [if_neg hplot, if_neg hplot, Option.map_none]

theorem mem_loadBlueprints (rows : List BlueprintRow) (known : IdSet) (b : Nat) :
    b ∈ rows.foldl (loadBlueprint stores) known ↔
      b ∈ known ∨ stores.building b = true ∧ ∃ row ∈ rows, row.buildingId = b := by
  induction rows generalizing known with
  | nil => simp
  | cons row rows ih =>
    rw [List.foldl_cons, ih, loadBlueprint]
    by_cases hknown : stores.building row.buildingId = true
    · rw [if_pos hknown, AList.mem_insert]
      simp only [List.mem_cons, exists_eq_or_imp]
      constructor
      · rintro ((rfl | hb) | ⟨hb, hrow⟩)
        · exact .inr ⟨hknown, .inl rfl⟩
        · exact .inl hb
        · exact .inr ⟨hb, .inr hrow⟩
      · rintro (hb | ⟨hb, rfl | hrow⟩)
        · exact .inl (.inr hb)
        · exact .inl (.inl rfl)
        · exact .inr ⟨hb, hrow⟩
    · rw [if_neg hknown]
      simp only [List.mem_cons, exists_eq_or_imp]
      refine or_congr_right (and_congr_right fun hb => ⟨.inr, ?_⟩)
      rintro (rfl | hrow)
      · exact absurd hb hknown
      · exact hrow

theorem Holds.mem_knownBuildings (h : Holds owner garrison db) (b : Nat) :
    b ∈ (db.blueprints.filter owner.ownsBlueprint).foldl (loadBlueprint stores) ∅ ↔
      b ∈ garrison.knownBuildings ∧ stores.building b = true := by
  rw [mem_loadBlueprints, or_iff_right (AList.notMem_empty b), and_comm]
  refine and_congr_left fun _ => ?_
  simp only [h.blueprints.mem_iff, blueprintRows, List.mem_map]
  constructor
  · rintro ⟨row, ⟨b', hb', rfl⟩, rfl⟩
    exact hb'
  · intro hb
    exact ⟨_, ⟨b, hb, rfl⟩, rfl⟩

/-! The whole garrison -/

structure Loaded (stores : Stores) (garrison garrison' : WodGarrison) : Prop where
  siteLevel : garrison'.siteLevel = garrison.siteLevel
  activations : garrison'.followerActivationsRemainingToday =
    garrison.followerActivationsRemainingToday
  followers : ∀ dbId, garrison'.followers.lookup dbId =
    (garrison.followers.lookup dbId).bind (·.reloaded stores)
  followerIds : ∀ n, n ∈ garrison'.followerIds ↔ ∃ dbId follower,
    garrison.followers.lookup dbId = some follower ∧
      stores.follower follower.GarrFollowerID = true ∧ follower.GarrFollowerID = n
  missions : ∀ dbId, Option.Rel SameMission (garrison'.missions.lookup dbId)
    ((garrison.missions.lookup dbId).bind (·.reloaded stores))
  missionIds : ∀ n, n ∈ garrison'.missionIds ↔ ∃ dbId mission,
    garrison.missions.lookup dbId = some mission ∧
      (stores.mission mission.MissionRecID).isSome ∧ mission.MissionRecID = n
  plots : ∀ plot, garrison'.plots.lookup plot =
    if plot ∈ stores.plots garrison.siteLevel then
      some (((garrison.plots.lookup plot).bind id).bind (·.reloaded stores))
    else none
  knownBuildings : ∀ b, b ∈ garrison'.knownBuildings ↔
    b ∈ garrison.knownBuildings ∧ stores.building b = true

theorem Holds.load (stores : Stores) (h : Holds owner garrison db)
    (hlength : ∀ dbId follower, garrison.followers.lookup dbId = some follower →
      follower.AbilityID.length ≤ 256) :
    if stores.siteLevel garrison.siteLevel then
      ∃ garrison', WodGarrison.loadFromDB stores owner db = some garrison' ∧
        Loaded stores garrison garrison'
    else WodGarrison.loadFromDB stores owner db = none := by
  have hfind : db.garrison.find? owner.ownsGarrison = some (garrisonRow owner garrison) := by
    rw [← List.head?_filter, h.itself, List.head?_cons]
  by_cases hsite : stores.siteLevel garrison.siteLevel = true
  · rw [if_pos hsite]
    simp only [WodGarrison.loadFromDB, Garrison.loadFromDB, hfind, Option.bind_eq_bind,
      Option.bind_some, garrisonRow, if_pos hsite]
    exact ⟨_, rfl, rfl, rfl, h.lookup_followers hlength, h.mem_followerIds, h.lookup_missions,
      h.mem_missionIds, h.lookup_plots _, h.mem_knownBuildings⟩
  · rw [if_neg hsite]
    simp only [WodGarrison.loadFromDB, Garrison.loadFromDB, hfind, Option.bind_eq_bind,
      Option.bind_some, garrisonRow, if_neg hsite, Option.bind_none]

structure WodGarrison.Same (garrison' garrison : WodGarrison) : Prop where
  siteLevel : garrison'.siteLevel = garrison.siteLevel
  activations : garrison'.followerActivationsRemainingToday =
    garrison.followerActivationsRemainingToday
  followers : ∀ dbId, garrison'.followers.lookup dbId = garrison.followers.lookup dbId
  followerIds : ∀ n, n ∈ garrison'.followerIds ↔ n ∈ garrison.followerIds
  missions : ∀ dbId,
    Option.Rel SameMission (garrison'.missions.lookup dbId) (garrison.missions.lookup dbId)
  missionIds : ∀ n, n ∈ garrison'.missionIds ↔ n ∈ garrison.missionIds
  plots : ∀ plot, garrison'.plots.lookup plot = garrison.plots.lookup plot
  knownBuildings : ∀ b, b ∈ garrison'.knownBuildings ↔ b ∈ garrison.knownBuildings

structure Follower.Kept (stores : Stores) (follower : Follower) : Prop where
  known : stores.follower follower.GarrFollowerID = true
  building : follower.CurrentBuildingID = 0 ∨ stores.building follower.CurrentBuildingID = true
  mission : follower.CurrentMissionID = 0 ∨ (stores.mission follower.CurrentMissionID).isSome
  abilities : ∀ ability ∈ follower.AbilityID, stores.ability ability = true

structure Mission.Kept (stores : Stores) (mission : Mission) : Prop where
  entry : ∃ missionEntry, stores.mission mission.MissionRecID = some missionEntry ∧
    mission.OfferDuration = missionEntry.offerTime ∧
      mission.TravelDuration = missionEntry.travelTime ∧
      mission.MissionDuration = missionEntry.duration
  offerTime : mission.OfferTime < 2 ^ 32
  startTime : 0 < mission.StartTime ∧ mission.StartTime < 2 ^ 32
  chance : mission.SuccessChance = Garrisons.getMissionSuccessChance
  unknown : mission.Unknown2 = 0
  canStart : mission.CanStartMission = true
  stored : ∀ reward ∈ mission.Rewards ++ mission.BonusRewards, reward.Unknown = 0
  normal : (normalRewards (mission.Rewards ++ mission.BonusRewards)).Perm mission.Rewards

structure WodGarrison.Kept (stores : Stores) (garrison : WodGarrison) : Prop where
  siteLevel : stores.siteLevel garrison.siteLevel = true
  followers : ∀ dbId follower, garrison.followers.lookup dbId = some follower →
    follower.Kept stores
  followerIds : ∀ n, n ∈ garrison.followerIds ↔ ∃ dbId follower,
    garrison.followers.lookup dbId = some follower ∧ follower.GarrFollowerID = n
  missions : ∀ dbId mission, garrison.missions.lookup dbId = some mission → mission.Kept stores
  missionIds : ∀ n, n ∈ garrison.missionIds ↔ ∃ dbId mission,
    garrison.missions.lookup dbId = some mission ∧ mission.MissionRecID = n
  plots : ∀ plot, plot ∈ garrison.plots ↔ plot ∈ stores.plots garrison.siteLevel
  buildings : ∀ plot info, garrison.plots.lookup plot = some (some info) →
    stores.building info.GarrBuildingID = true
  knownBuildings : ∀ b ∈ garrison.knownBuildings, stores.building b = true

theorem Follower.kept_iff {follower : Follower} :
    follower.reloaded stores = some follower ↔ follower.Kept stores := by
  rw [Follower.reloaded, Option.ite_none_right_eq_some, Option.some.injEq]
  obtain ⟨_, _, _, _, _, _, building, mission, abilities, _⟩ := follower
  simp only [Follower.mk.injEq, true_and, and_true, List.filter_eq_self]
  constructor
  · rintro ⟨hknown, hbuilding, hmission, habilities⟩
    refine ⟨hknown, ?_, ?_, habilities⟩
    · by_contra hnot
      rw [not_or] at hnot
      rw [if_neg hnot.2] at hbuilding
      exact hnot.1 hbuilding.symm
    · by_contra hnot
      rw [not_or] at hnot
      rw [if_neg hnot.2] at hmission
      exact hnot.1 hmission.symm
  · rintro ⟨hknown, hbuilding, hmission, habilities⟩
    refine ⟨hknown, ?_, ?_, habilities⟩
    · rw [ite_eq_left_iff]
      exact fun hnot => (hbuilding.resolve_right hnot).symm
    · rw [ite_eq_left_iff]
      exact fun hnot => (hmission.resolve_right hnot).symm

theorem mem_normalRewards {rewards : List GarrisonMissionReward} {reward : GarrisonMissionReward}
    (h : reward ∈ normalRewards rewards ∨ reward ∈ bonusRewards rewards) : reward ∈ rewards :=
  (normal_append_bonus rewards).mem_iff.mp (List.mem_append.mpr h)

theorem map_stored {rewards : List GarrisonMissionReward}
    (h : ∀ reward ∈ rewards, reward.Unknown = 0) : rewards.map (·.stored) = rewards := by
  refine (List.map_congr_left fun reward hreward => ?_).trans (List.map_id _)
  rw [GarrisonMissionReward.stored, ← h reward hreward]
  rfl

/-- The rewards come back as what they were if the types do not mix them up. -/
theorem rewards_kept_iff (rewards bonus : List GarrisonMissionReward) :
    ((normalRewards (rewards ++ bonus)).map (·.stored)).Perm rewards ∧
        ((bonusRewards (rewards ++ bonus)).map (·.stored)).Perm bonus ↔
      (∀ reward ∈ rewards ++ bonus, reward.Unknown = 0) ∧
        (normalRewards (rewards ++ bonus)).Perm rewards := by
  have hsame : (∀ reward ∈ rewards ++ bonus, reward.Unknown = 0) →
      (normalRewards (rewards ++ bonus)).map (·.stored) = normalRewards (rewards ++ bonus) ∧
        (bonusRewards (rewards ++ bonus)).map (·.stored) = bonusRewards (rewards ++ bonus) :=
    fun hunknown =>
      ⟨map_stored fun reward hreward => hunknown reward (mem_normalRewards (.inl hreward)),
        map_stored fun reward hreward => hunknown reward (mem_normalRewards (.inr hreward))⟩
  constructor
  · rintro ⟨hnormal, hbonus⟩
    have hunknown : ∀ reward ∈ rewards ++ bonus, reward.Unknown = 0 := by
      intro reward hreward
      rcases List.mem_append.mp hreward with hreward | hreward
      · obtain ⟨_, _, rfl⟩ := List.mem_map.mp (hnormal.mem_iff.mpr hreward)
        rfl
      · obtain ⟨_, _, rfl⟩ := List.mem_map.mp (hbonus.mem_iff.mpr hreward)
        rfl
    rw [(hsame hunknown).1] at hnormal
    exact ⟨hunknown, hnormal⟩
  · rintro ⟨hunknown, hnormal⟩
    rw [(hsame hunknown).1, (hsame hunknown).2]
    refine ⟨hnormal, ?_⟩
    have hall := (hnormal.symm.append_right _).trans (normal_append_bonus (rewards ++ bonus))
    exact (List.perm_append_left_iff rewards).mp hall

theorem Mission.kept_iff {mission : Mission} :
    Option.Rel SameMission (mission.reloaded stores) (some mission) ↔ mission.Kept stores := by
  rw [Mission.reloaded]
  cases hentry : stores.mission mission.MissionRecID with
  | none =>
    refine iff_of_false (fun hrel => nomatch hrel) fun hkept => ?_
    obtain ⟨missionEntry, hsome, _⟩ := hkept.entry
    rw [hentry] at hsome
    cases hsome
  | some missionEntry =>
    rw [Option.map_some, Option.rel_some_some]
    have hdata := rewards_kept_iff mission.Rewards mission.BonusRewards
    constructor
    · rintro ⟨hsame, hnormal, hbonus⟩
      obtain ⟨hunknown, hperm⟩ := hdata.mp ⟨hnormal, hbonus⟩
      simp only [Mission.mk.injEq, true_and] at hsame
      obtain ⟨hoffer, hduration, hstart, htravel, htime, hchance, hunknown2, hcan⟩ := hsame
      refine ⟨⟨missionEntry, hentry, hduration.symm, htravel.symm, htime.symm⟩, ?_, ?_,
        hchance.symm, hunknown2.symm, hcan.symm, hunknown, hperm⟩
      · rw [← hoffer]
        exact Nat.mod_lt _ (by decide)
      · split at hstart
        next => rw [← hstart]; decide
        next hnot =>
          have hlt := Nat.mod_lt mission.StartTime (show 2 ^ 32 > 0 by decide)
          omega
    · rintro ⟨⟨entry', hentry', hduration, htravel, htime⟩, hoffer, hstart, hchance, hunknown2,
        hcan, hunknown, hperm⟩
      obtain rfl := Option.some.inj (hentry.symm.trans hentry')
      obtain ⟨hnormal, hbonus⟩ := hdata.mpr ⟨hunknown, hperm⟩
      refine ⟨?_, hnormal, hbonus⟩
      have hmod : mission.StartTime % 2 ^ 32 = mission.StartTime := Nat.mod_eq_of_lt hstart.2
      simp only [Mission.mk.injEq, true_and, hmod, Nat.mod_eq_of_lt hoffer]
      refine ⟨hduration.symm, ?_, htravel.symm, htime.symm, hchance.symm, hunknown2.symm, hcan.symm⟩
      split
      next hor => exact (hor.resolve_right (Nat.ne_of_gt hstart.1)).symm
      next => rfl

theorem GarrisonBuildingInfo.reloaded_iff {info : GarrisonBuildingInfo} :
    info.reloaded stores = some info ↔ stores.building info.GarrBuildingID = true := by
  rw [GarrisonBuildingInfo.reloaded, Option.ite_none_right_eq_some, and_iff_left rfl]

theorem Loaded.same (h : Loaded stores garrison garrison') (hkept : garrison.Kept stores) :
    garrison'.Same garrison where
  siteLevel := h.siteLevel
  activations := h.activations
  followers dbId := by
    rw [h.followers]
    cases hlookup : garrison.followers.lookup dbId with
    | none => rfl
    | some follower => exact Follower.kept_iff.mpr (hkept.followers dbId follower hlookup)
  followerIds n := by
    rw [h.followerIds, hkept.followerIds]
    refine exists₂_congr fun dbId follower => and_congr_right fun hlookup => ?_
    exact and_iff_right (hkept.followers dbId follower hlookup).known
  missions dbId := by
    have hrel := h.missions dbId
    cases hlookup : garrison.missions.lookup dbId with
    | none => rwa [hlookup] at hrel
    | some mission =>
      rw [hlookup, Option.bind_some] at hrel
      exact SameMission.rel_trans hrel (Mission.kept_iff.mpr (hkept.missions dbId mission hlookup))
  missionIds n := by
    rw [h.missionIds, hkept.missionIds]
    refine exists₂_congr fun dbId mission => and_congr_right fun hlookup => ?_
    obtain ⟨missionEntry, hentry, _⟩ := (hkept.missions dbId mission hlookup).entry
    exact and_iff_right (Option.isSome_of_eq_some hentry)
  plots plot := by
    rw [h.plots]
    by_cases hplot : plot ∈ stores.plots garrison.siteLevel
    · rw [if_pos hplot]
      obtain ⟨info, hlookup⟩ := Option.isSome_iff_exists.mp
        (AList.lookup_isSome.mpr ((hkept.plots plot).mpr hplot))
      rw [hlookup]
      cases info with
      | none => rfl
      | some info =>
        exact congrArg some (GarrisonBuildingInfo.reloaded_iff.mpr
          (hkept.buildings plot info hlookup))
    · rw [if_neg hplot, eq_comm, AList.lookup_eq_none, hkept.plots]
      exact hplot
  knownBuildings b := by
    rw [h.knownBuildings]
    exact and_iff_left_of_imp (hkept.knownBuildings b)

theorem Loaded.kept (h : Loaded stores garrison garrison')
    (hsite : stores.siteLevel garrison.siteLevel = true) (hsame : garrison'.Same garrison) :
    garrison.Kept stores := by
  have hfollowers : ∀ dbId follower, garrison.followers.lookup dbId = some follower →
      follower.Kept stores := by
    intro dbId follower hlookup
    have hloaded := h.followers dbId
    rw [hsame.followers, hlookup, Option.bind_some] at hloaded
    exact Follower.kept_iff.mp hloaded.symm
  have hmissions : ∀ dbId mission, garrison.missions.lookup dbId = some mission →
      mission.Kept stores := by
    intro dbId mission hlookup
    have hloaded := h.missions dbId
    have hback := hsame.missions dbId
    rw [hlookup] at hloaded hback
    exact Mission.kept_iff.mp (SameMission.rel_trans (SameMission.rel_symm hloaded) hback)
  refine ⟨hsite, hfollowers, fun n => ?_, hmissions, fun n => ?_, fun plot => ?_,
    fun plot info hlookup => ?_, fun b hb => ?_⟩
  · rw [← hsame.followerIds, h.followerIds]
    refine exists₂_congr fun dbId follower => and_congr_right fun hlookup => ?_
    exact and_iff_right (hfollowers dbId follower hlookup).known
  · rw [← hsame.missionIds, h.missionIds]
    refine exists₂_congr fun dbId mission => and_congr_right fun hlookup => ?_
    obtain ⟨missionEntry, hentry, _⟩ := (hmissions dbId mission hlookup).entry
    exact and_iff_right (Option.isSome_of_eq_some hentry)
  · rw [← AList.lookup_isSome, ← hsame.plots, h.plots]
    by_cases hplot : plot ∈ stores.plots garrison.siteLevel
    · rw [if_pos hplot]
      exact iff_of_true rfl hplot
    · rw [if_neg hplot]
      exact iff_of_false Bool.false_ne_true hplot
  · have hloaded := h.plots plot
    rw [hsame.plots, hlookup] at hloaded
    split at hloaded
    · exact GarrisonBuildingInfo.reloaded_iff.mp (Option.some.inj hloaded).symm
    · cases hloaded
  · exact ((h.knownBuildings b).mp ((hsame.knownBuildings b).mpr hb)).2

def Relogs (stores : Stores) (owner : Owner) (garrison : WodGarrison) (db : Database) : Prop :=
  ∀ db', db'.Shuffles (garrison.saveToDB owner db) → ∃ garrison',
    WodGarrison.loadFromDB stores owner db' = some garrison' ∧ garrison'.Same garrison

/-- A relog is invisible exactly if nothing of the garrison is lost by a save or a load, and the
tables are swept for the next one if nothing is without the rows that belong to it. -/
theorem relogs_iff_kept (hready : Ready owner garrison db) :
    (Relogs stores owner garrison db ↔ garrison.Kept stores) ∧
      (garrison.Parents → Swept owner (garrison.saveToDB owner db)) := by
  refine ⟨?_, hready.swept⟩
  constructor
  · intro h
    obtain ⟨garrison', hload, hsame⟩ := h _ (.refl _)
    have hloads := (hready.holds (.refl _)).load stores hready.abilities
    split at hloads
    next hsite =>
      obtain ⟨loaded, hloaded, hloads⟩ := hloads
      obtain rfl := Option.some.inj (hload.symm.trans hloaded)
      exact hloads.kept hsite hsame
    next =>
      rw [hload] at hloads
      cases hloads
  · intro hkept db' hshuffles
    have hloads := (hready.holds hshuffles).load stores hready.abilities
    rw [if_pos hkept.siteLevel] at hloads
    obtain ⟨garrison', hload, hloaded⟩ := hloads
    exact ⟨garrison', hload, hloaded.same hkept⟩

/-! A mission with two rewards -/

def noRows : Database where
  garrison := []
  blueprints := []
  buildings := []
  followers := []
  follower_abilities := []
  missions := []
  mission_rewards := []

def someOwner : Owner := ⟨5, 3⟩

def oneMission : Stores where
  siteLevel n := n = 1
  follower _ := false
  ability _ := false
  building _ := false
  mission n := if n = 9 then some ⟨3600, 7200, 60⟩ else none
  plots _ := []

def reward (item : Int) : GarrisonMissionReward := ⟨item, 1, 0, 0, 0, 0, 0⟩

def rewarding (rewards bonus : List GarrisonMissionReward) : WodGarrison where
  siteLevel := 1
  followerActivationsRemainingToday := 1
  followers := ∅
  followerIds := ∅
  missions := AList.singleton 2
    { MissionRecID := 9
      OfferTime := 1500000000
      OfferDuration := 7200
      StartTime := NOT_STARTED
      TravelDuration := 60
      MissionDuration := 3600
      MissionState := 0
      SuccessChance := 100
      Unknown2 := 0
      Rewards := rewards
      BonusRewards := bonus
      CanStartMission := true }
  missionIds := AList.singleton 9 ()
  plots := ∅
  knownBuildings := ∅

theorem ready_rewarding (rewards bonus : List GarrisonMissionReward) :
    Ready someOwner (rewarding rewards bonus) noRows where
  followersSwept _ h := absurd h List.not_mem_nil
  missionsSwept _ h := absurd h List.not_mem_nil
  abilityParents _ h := absurd h List.not_mem_nil
  rewardParents _ h := absurd h List.not_mem_nil
  otherFollowers _ h := absurd h List.not_mem_nil
  otherMissions _ h := absurd h List.not_mem_nil
  followerIds _ _ _ _ h := by cases h
  abilities _ _ h := by cases h
  missions dbId mission h := by
    have hentry := Assoc.mem_entries_iff.mpr h
    obtain ⟨rfl, hmission⟩ := Sigma.mk.inj (List.mem_singleton.mp hentry)
    obtain rfl := eq_of_heq hmission
    exact ⟨rfl, by decide⟩

theorem relogs_iff_kept_rewarding :
    (Relogs oneMission someOwner (rewarding [reward 140587] [reward 140591]) noRows ↔
      (rewarding [reward 140587] [reward 140591]).Kept oneMission) ∧
    Swept someOwner
      ((rewarding [reward 140587] [reward 140591]).saveToDB someOwner noRows) := by
  refine (relogs_iff_kept (ready_rewarding _ _)).imp_right fun hswept => hswept ⟨?_, ?_⟩
  · intro dbId follower h
    cases h
  · intro dbId mission h
    obtain ⟨rfl, hmission⟩ := Sigma.mk.inj (List.mem_singleton.mp (Assoc.mem_entries_iff.mpr h))
    obtain rfl := eq_of_heq hmission
    exact List.cons_ne_nil _ _

/-- The second of two normal rewards comes back as a bonus. -/
theorem not_relogs_two_rewards :
    ¬Relogs oneMission someOwner (rewarding [reward 140587, reward 140591] []) noRows := by
  intro h
  obtain ⟨garrison', hload, hsame⟩ := h _ (.refl _)
  have hone : ((WodGarrison.loadFromDB oneMission someOwner
      ((rewarding [reward 140587, reward 140591] []).saveToDB someOwner noRows)).bind
        fun garrison => (garrison.missions.lookup 2).map (·.Rewards.length)) = some 1 := by
    decide +kernel
  rw [hload, Option.bind_some] at hone
  obtain ⟨mission, hmission, hlength⟩ := Option.map_eq_some_iff.mp hone
  have hrel := hsame.missions 2
  rw [hmission, show (rewarding [reward 140587, reward 140591] []).missions.lookup 2 = some _
    from rfl, Option.rel_some_some] at hrel
  have htwo := hrel.rewards.length_eq
  rw [hlength] at htwo
  exact absurd htwo (by decide)

end Ashamane.GarrisonTables
