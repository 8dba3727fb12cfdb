import Ashamane.GarrisonTables.Basic

/-! What the tables hold of a garrison after it is saved. -/
namespace Ashamane.GarrisonTables
open Ashamane.Lib Tables

/-- No row of the owner is left without the rows that belong to it: `DeleteFromDB`, which joins the
tables, deletes all of the owner's. -/
structure Swept (owner : Owner) (db : Database) : Prop where
  followersSwept : ∀ row ∈ db.followers, owner.ownsFollower row = true →
    ∃ child ∈ db.follower_abilities, child.dbId = row.dbId
  missionsSwept : ∀ row ∈ db.missions, owner.ownsMission row = true →
    ∃ child ∈ db.mission_rewards, child.dbId = row.dbId

/-- The garrison can be saved, and nothing in the tables stands in its way: no id is used by others,
and no row belongs to one that is not there. -/
structure Ready (owner : Owner) (garrison : WodGarrison) (db : Database) : Prop
    extends Swept owner db where
  abilityParents : ∀ child ∈ db.follower_abilities, child.dbId ∈ garrison.followers →
    ∃ row ∈ db.followers, owner.ownsFollower row = true ∧ row.dbId = child.dbId
  rewardParents : ∀ child ∈ db.mission_rewards, child.dbId ∈ garrison.missions →
    ∃ row ∈ db.missions, owner.ownsMission row = true ∧ row.dbId = child.dbId
  otherFollowers : ∀ row ∈ db.followers, owner.ownsFollower row = false →
    ∀ dbId follower, garrison.followers.lookup dbId = some follower →
      row.dbId ≠ dbId ∧ ¬(row.guid = owner.guid ∧ row.followerId = follower.GarrFollowerID)
  otherMissions : ∀ row ∈ db.missions, owner.ownsMission row = false → row.dbId ∉ garrison.missions
  followerIds : ∀ dbId dbId' follower follower', garrison.followers.lookup dbId = some follower →
    garrison.followers.lookup dbId' = some follower' →
      follower.GarrFollowerID = follower'.GarrFollowerID → dbId = dbId'
  abilities : ∀ dbId follower, garrison.followers.lookup dbId = some follower →
    follower.AbilityID.length ≤ 256
  missions : ∀ dbId mission, garrison.missions.lookup dbId = some mission →
    (missionRow owner dbId mission).fits = true ∧ dbId < 2 ^ 32

variable {owner : Owner} {garrison : WodGarrison} {db db' : Database}

/-! The rows of one family -/

theorem abilityRows_dbId {dbId slot : Nat} {abilities : List Nat} {row : AbilityRow}
    (h : row ∈ abilityRows dbId slot abilities) : row.dbId = dbId := by
  induction abilities generalizing slot with
  | nil => cases h
  | cons ability abilities ih =>
    rcases List.mem_cons.mp h with rfl | h
    · rfl
    · exact ih h

theorem rewardRows_dbId {dbId type : Nat} {rewards : List GarrisonMissionReward} {row : RewardRow}
    (h : row ∈ rewardRows dbId type rewards) : row.dbId = dbId := by
  induction rewards generalizing type with
  | nil => cases h
  | cons reward rewards ih =>
    rcases List.mem_cons.mp h with rfl | h
    · rfl
    · exact ih h

theorem abilityRows_slots {dbId slot : Nat} {abilities : List Nat}
    (h : slot + abilities.length ≤ 256) :
    (abilityRows dbId slot abilities).Pairwise (fun row row' => row.slot < row'.slot) ∧
      ∀ row ∈ abilityRows dbId slot abilities, slot ≤ row.slot := by
  induction abilities generalizing slot with
  | nil => exact ⟨.nil, fun row hrow => absurd hrow List.not_mem_nil⟩
  | cons ability abilities ih =>
    rw [List.length_cons] at h
    cases habilities : abilities with
    | nil =>
      refine ⟨List.pairwise_singleton _ _, fun row hrow => ?_⟩
      rw [List.mem_singleton.mp hrow]
    | cons next rest =>
      have hnext : (slot + 1) % 2 ^ 8 = slot + 1 := by
        rw [habilities, List.length_cons] at h
        exact Nat.mod_eq_of_lt (by omega)
      obtain ⟨hsorted, hge⟩ := @ih (slot + 1) (by omega)
      rw [habilities] at hsorted hge
      have hrows : abilityRows dbId slot (ability :: next :: rest) =
          ⟨dbId, ability, slot⟩ :: abilityRows dbId (slot + 1) (next :: rest) := by
        rw [abilityRows, hnext]
      rw [hrows]
      refine ⟨List.pairwise_cons.mpr ⟨fun row hrow => ?_, hsorted⟩, fun row hrow => ?_⟩
      · exact hge row hrow
      · rcases List.mem_cons.mp hrow with rfl | hrow
        · exact Nat.le_refl _
        · exact Nat.le_of_succ_le (hge row hrow)

/-! Saving -/

theorem FollowerRow.clash_eq_false {row other : FollowerRow} : row.clash other = false ↔
    row.dbId ≠ other.dbId ∧ ¬(row.guid = other.guid ∧ row.followerId = other.followerId) := by
  simp [FollowerRow.clash]

theorem lookup_of_entry {μ : Type} {s : AList fun _ : Nat => μ} {e : Sigma fun _ : Nat => μ}
    (h : e ∈ s.entries) : s.lookup e.1 = some e.2 := Assoc.mem_entries_iff.mp h

theorem pairwise_keys {μ : Type} (s : AList fun _ : Nat => μ) :
    s.entries.Pairwise fun e e' => e.1 ≠ e'.1 := List.nodupKeys_iff_pairwise.mp s.nodupKeys

theorem Ready.left_followers (h : Ready owner garrison db) :
    ∀ row ∈ (db.deleteFromDB owner).followers, owner.ownsFollower row = false :=
  left_deleteJoined h.followersSwept

theorem Ready.left_missions (h : Ready owner garrison db) :
    ∀ row ∈ (db.deleteFromDB owner).missions, owner.ownsMission row = false :=
  left_deleteJoined h.missionsSwept

theorem Ready.insertFollowers (h : Ready owner garrison db) :
    garrison.followers.entries.foldlM (insertFollower owner)
        ((db.deleteFromDB owner).followers, (db.deleteFromDB owner).follower_abilities) =
      some ((db.deleteFromDB owner).followers ++
          garrison.followers.entries.map fun e => followerRow owner e.1 e.2,
        (db.deleteFromDB owner).follower_abilities ++
          garrison.followers.entries.flatMap fun e => abilityRows e.1 0 e.2.AbilityID) := by
  refine insertFamilies_eq_some (insertRows_eq_some (fun _ _ => rfl) ?_ ?_)
    (insertRows_eq_some (fun _ _ => rfl) ?_ ?_)
  · rw [List.pairwise_map]
    refine (pairwise_keys garrison.followers).imp_of_mem fun {e e'} he he' hne => ?_
    refine FollowerRow.clash_eq_false.mpr ⟨hne.symm, fun ⟨_, hsame⟩ => hne ?_⟩
    exact h.followerIds _ _ _ _ (lookup_of_entry he) (lookup_of_entry he') hsame.symm
  · intro row hrow other hother
    obtain ⟨e, he, rfl⟩ := List.mem_map.mp hrow
    obtain ⟨hne, hother⟩ := h.otherFollowers other (mem_deleteJoined_fst.mp hother).1
      (h.left_followers other hother) e.1 e.2 (lookup_of_entry he)
    exact FollowerRow.clash_eq_false.mpr
      ⟨hne.symm, fun ⟨hguid, hsame⟩ => hother ⟨hguid.symm, hsame.symm⟩⟩
  · rw [List.pairwise_flatMap]
    constructor
    · intro e he
      refine (abilityRows_slots ?_).1.imp fun {row row'} hslot => ?_
      · rw [Nat.zero_add]
        exact h.abilities e.1 e.2 (lookup_of_entry he)
      · rw [AbilityRow.clash, decide_eq_false_iff_not]
        rintro rfl
        exact Nat.lt_irrefl _ hslot
    · refine (pairwise_keys garrison.followers).imp fun {e e'} hne row hrow row' hrow' => ?_
      rw [AbilityRow.clash, decide_eq_false_iff_not]
      rintro rfl
      exact hne ((abilityRows_dbId hrow).symm.trans (abilityRows_dbId hrow'))
  · intro row hrow other hother
    obtain ⟨e, he, hrow⟩ := List.mem_flatMap.mp hrow
    obtain ⟨hmem, horphan⟩ := mem_deleteJoined_snd.mp hother
    rw [AbilityRow.clash, decide_eq_false_iff_not]
    rintro rfl
    obtain ⟨parent, hparent, howned, hid⟩ := h.abilityParents row hmem
      (AList.lookup_isSome.mp (by rw [abilityRows_dbId hrow, lookup_of_entry he]; rfl))
    exact horphan parent hparent howned hid

theorem Ready.insertMissions (h : Ready owner garrison db) :
    garrison.missions.entries.foldlM (insertMission owner)
        ((db.deleteFromDB owner).missions, (db.deleteFromDB owner).mission_rewards) =
      some ((db.deleteFromDB owner).missions ++
          garrison.missions.entries.map fun e => missionRow owner e.1 e.2,
        (db.deleteFromDB owner).mission_rewards ++
          garrison.missions.entries.flatMap fun e =>
            rewardRows e.1 0 [e.2.Rewards, e.2.BonusRewards].flatten) := by
  refine insertFamilies_eq_some (insertRows_eq_some ?_ ?_ ?_) (insertRows_eq_some ?_ ?_ ?_)
  · intro row hrow
    obtain ⟨e, he, rfl⟩ := List.mem_map.mp hrow
    exact (h.missions e.1 e.2 (lookup_of_entry he)).1
  · rw [List.pairwise_map]
    refine (pairwise_keys garrison.missions).imp fun {e e'} hne => ?_
    rw [MissionRow.clash, decide_eq_false_iff_not]
    exact hne.symm
  · intro row hrow other hother
    obtain ⟨e, he, rfl⟩ := List.mem_map.mp hrow
    rw [MissionRow.clash, decide_eq_false_iff_not]
    intro hsame
    refine h.otherMissions other (mem_deleteJoined_fst.mp hother).1 (h.left_missions other hother)
      (AList.lookup_isSome.mp ?_)
    rw [← hsame]
    exact Option.isSome_iff_exists.mpr ⟨e.2, lookup_of_entry he⟩
  · intro row hrow
    obtain ⟨e, he, hrow⟩ := List.mem_flatMap.mp hrow
    rw [RewardRow.fits, decide_eq_true_eq, rewardRows_dbId hrow]
    exact (h.missions e.1 e.2 (lookup_of_entry he)).2
  · exact List.pairwise_of_forall fun _ _ => rfl
  · exact fun _ _ _ _ => rfl

theorem Ready.insertBlueprints (_ : Ready owner garrison db) :
    (blueprintRows owner garrison).foldlM (insertRow (fun _ => true) BlueprintRow.clash)
        (db.deleteFromDB owner).blueprints =
      some ((db.deleteFromDB owner).blueprints ++ blueprintRows owner garrison) := by
  refine insertRows_eq_some (fun _ _ => rfl) ?_ ?_
  · rw [blueprintRows, List.pairwise_map]
    refine garrison.knownBuildings.keys_nodup.imp fun {b b'} hne => ?_
    rw [BlueprintRow.clash, decide_eq_false_iff_not]
    intro hsame
    exact hne (congrArg BlueprintRow.buildingId hsame).symm
  · intro row hrow other hother
    obtain ⟨b, _, rfl⟩ := List.mem_map.mp hrow
    have howned := (List.mem_filter.mp hother).2
    rw [BlueprintRow.clash, decide_eq_false_iff_not]
    rintro rfl
    simp [Owner.ownsBlueprint] at howned

theorem mem_buildingRows {row : BuildingRow} : row ∈ buildingRows owner garrison ↔
    row.guid = owner.guid ∧ row.garrison_type = owner.type ∧
      garrison.plots.lookup row.plotInstanceId =
        some (some ⟨row.buildingId, row.timeBuilt, row.active⟩) := by
  rw [buildingRows, List.mem_filterMap]
  constructor
  · rintro ⟨⟨plot, info⟩, hplot, hrow⟩
    obtain ⟨info, rfl, rfl⟩ := Option.map_eq_some_iff.mp hrow
    exact ⟨rfl, rfl, lookup_of_entry hplot⟩
  · rintro ⟨hguid, htype, hplot⟩
    refine ⟨⟨row.plotInstanceId, _⟩, Assoc.mem_entries_iff.mpr hplot, ?_⟩
    simp only [Option.map_some, ← hguid, ← htype]

theorem Ready.insertBuildings (_ : Ready owner garrison db) :
    (buildingRows owner garrison).foldlM (insertRow (fun _ => true) BuildingRow.clash)
        (db.deleteFromDB owner).buildings =
      some ((db.deleteFromDB owner).buildings ++ buildingRows owner garrison) := by
  refine insertRows_eq_some (fun _ _ => rfl) ?_ ?_
  · rw [buildingRows, List.pairwise_filterMap]
    refine (pairwise_keys garrison.plots).imp fun {e e'} hne row hrow row' hrow' => ?_
    obtain ⟨info, _, rfl⟩ := Option.map_eq_some_iff.mp hrow
    obtain ⟨info', _, rfl⟩ := Option.map_eq_some_iff.mp hrow'
    simp [BuildingRow.clash, hne.symm]
  · intro row hrow other hother
    obtain ⟨hguid, htype, _⟩ := mem_buildingRows.mp hrow
    have howned := (List.mem_filter.mp hother).2
    by_contra hclash
    simp only [BuildingRow.clash, Bool.not_eq_false, Bool.and_eq_true, decide_eq_true_eq] at hclash
    simp [Owner.ownsBuilding, ← hclash.1.1, ← hclash.1.2, hguid, htype] at howned

def garrisonRow (owner : Owner) (garrison : WodGarrison) : GarrisonRow :=
  ⟨owner.guid, owner.type, garrison.siteLevel, garrison.followerActivationsRemainingToday⟩

theorem GarrisonRow.clash_iff {row other : GarrisonRow} :
    row.clash other = true ↔ row.guid = other.guid ∧ row.type = other.type := by
  simp [GarrisonRow.clash]

/-- The transaction is committed: the rows of the garrison come after those that are left. -/
theorem Ready.saved (h : Ready owner garrison db) : garrison.saveToDB owner db =
    let left := db.deleteFromDB owner
    { garrison := left.garrison ++ [garrisonRow owner garrison]
      blueprints := left.blueprints ++ blueprintRows owner garrison
      buildings := left.buildings ++ buildingRows owner garrison
      followers := left.followers ++
        garrison.followers.entries.map fun e => followerRow owner e.1 e.2
      follower_abilities := left.follower_abilities ++
        garrison.followers.entries.flatMap fun e => abilityRows e.1 0 e.2.AbilityID
      missions := left.missions ++ garrison.missions.entries.map fun e => missionRow owner e.1 e.2
      mission_rewards := left.mission_rewards ++ garrison.missions.entries.flatMap fun e =>
        rewardRows e.1 0 [e.2.Rewards, e.2.BonusRewards].flatten } := by
  have hrow : insertRow (fun _ => true) GarrisonRow.clash (db.deleteFromDB owner).garrison
      (garrisonRow owner garrison) =
        some ((db.deleteFromDB owner).garrison ++ [garrisonRow owner garrison]) := by
    refine insertRow_eq_some rfl fun other hother => ?_
    have howned := (List.mem_filter.mp hother).2
    rw [Bool.eq_false_iff]
    intro hclash
    obtain ⟨hguid, htype⟩ := GarrisonRow.clash_iff.mp hclash
    simp [Owner.ownsGarrison, ← hguid, ← htype, garrisonRow] at howned
  have hgarrison : garrison.toGarrison.transaction owner db = some
      { db.deleteFromDB owner with
        garrison := (db.deleteFromDB owner).garrison ++ [garrisonRow owner garrison]
        followers := (db.deleteFromDB owner).followers ++
          garrison.followers.entries.map fun e => followerRow owner e.1 e.2
        follower_abilities := (db.deleteFromDB owner).follower_abilities ++
          garrison.followers.entries.flatMap fun e => abilityRows e.1 0 e.2.AbilityID
        missions := (db.deleteFromDB owner).missions ++
          garrison.missions.entries.map fun e => missionRow owner e.1 e.2
        mission_rewards := (db.deleteFromDB owner).mission_rewards ++
          garrison.missions.entries.flatMap fun e =>
            rewardRows e.1 0 [e.2.Rewards, e.2.BonusRewards].flatten } := by
    rw [garrisonRow] at hrow
    simp only [Garrison.transaction, hrow, h.insertFollowers, h.insertMissions,
      Option.bind_eq_bind, Option.bind_some, garrisonRow]
  rw [WodGarrison.saveToDB, WodGarrison.transaction, hgarrison]
  simp only [Option.bind_eq_bind, Option.bind_some, h.insertBlueprints, h.insertBuildings,
    Option.getD_some]

structure WodGarrison.Parents (garrison : WodGarrison) : Prop where
  abilities : ∀ dbId follower, garrison.followers.lookup dbId = some follower →
    follower.AbilityID ≠ []
  rewards : ∀ dbId mission, garrison.missions.lookup dbId = some mission →
    mission.Rewards ++ mission.BonusRewards ≠ []

/-- So are the tables after the save of a garrison like that. -/
theorem Ready.swept (h : Ready owner garrison db) (hparents : garrison.Parents) :
    Swept owner (garrison.saveToDB owner db) := by
  rw [h.saved]
  constructor
  · intro row hrow howned
    rcases List.mem_append.mp hrow with hleft | hnew
    · rw [h.left_followers row hleft] at howned
      cases howned
    · obtain ⟨e, he, rfl⟩ := List.mem_map.mp hnew
      obtain ⟨ability, rest, habilities⟩ :=
        List.exists_cons_of_ne_nil (hparents.abilities e.1 e.2 (lookup_of_entry he))
      refine ⟨⟨e.1, ability, 0⟩, List.mem_append_right _ (List.mem_flatMap.mpr ⟨e, he, ?_⟩), rfl⟩
      rw [habilities]
      exact List.mem_cons_self
  · intro row hrow howned
    rcases List.mem_append.mp hrow with hleft | hnew
    · rw [h.left_missions row hleft] at howned
      cases howned
    · obtain ⟨e, he, rfl⟩ := List.mem_map.mp hnew
      obtain ⟨reward, rest, hrewards⟩ :=
        List.exists_cons_of_ne_nil (hparents.rewards e.1 e.2 (lookup_of_entry he))
      have hchild : ∃ child, child ∈ rewardRows e.1 0 [e.2.Rewards, e.2.BonusRewards].flatten := by
        rw [List.flatten_cons, List.flatten_singleton, hrewards]
        exact ⟨_, List.mem_cons_self⟩
      obtain ⟨child, hchild⟩ := hchild
      exact ⟨child, List.mem_append_right _ (List.mem_flatMap.mpr ⟨e, he, hchild⟩),
        rewardRows_dbId hchild⟩

/-! What a query finds, in whatever order -/

structure Database.Shuffles (db' db : Database) : Prop where
  garrison : db'.garrison.Perm db.garrison
  blueprints : db'.blueprints.Perm db.blueprints
  buildings : db'.buildings.Perm db.buildings
  followers : db'.followers.Perm db.followers
  follower_abilities : db'.follower_abilities.Perm db.follower_abilities
  missions : db'.missions.Perm db.missions
  mission_rewards : db'.mission_rewards.Perm db.mission_rewards

theorem Database.Shuffles.refl (db : Database) : db.Shuffles db :=
  ⟨.refl _, .refl _, .refl _, .refl _, .refl _, .refl _, .refl _⟩

structure Holds (owner : Owner) (garrison : WodGarrison) (db : Database) : Prop where
  itself : db.garrison.filter owner.ownsGarrison = [garrisonRow owner garrison]
  blueprints : (db.blueprints.filter owner.ownsBlueprint).Perm (blueprintRows owner garrison)
  buildings : (db.buildings.filter owner.ownsBuilding).Perm (buildingRows owner garrison)
  followers : (db.followers.filter owner.ownsFollower).Perm
    (garrison.followers.entries.map fun e => followerRow owner e.1 e.2)
  abilities : (joined owner.ownsFollower FollowerRow.dbId AbilityRow.dbId db.followers
    db.follower_abilities).Perm
      (garrison.followers.entries.flatMap fun e => abilityRows e.1 0 e.2.AbilityID)
  missions : (db.missions.filter owner.ownsMission).Perm
    (garrison.missions.entries.map fun e => missionRow owner e.1 e.2)
  rewards : (joined owner.ownsMission MissionRow.dbId RewardRow.dbId db.missions
    db.mission_rewards).Perm (garrison.missions.entries.flatMap fun e =>
      rewardRows e.1 0 [e.2.Rewards, e.2.BonusRewards].flatten)

theorem filter_append_owned {α : Type*} {owns : α → Bool} {left rows table : List α}
    (htable : table.Perm (left ++ rows)) (hleft : ∀ row ∈ left, owns row = false)
    (hrows : ∀ row ∈ rows, owns row = true) : (table.filter owns).Perm rows := by
  refine (htable.filter owns).trans ?_
  rw [List.filter_append, List.filter_eq_nil_iff.mpr fun row hrow => by simp [hleft row hrow],
    List.nil_append, List.filter_eq_self.mpr hrows]

theorem Ready.holds (h : Ready owner garrison db)
    (hshuffles : db'.Shuffles (garrison.saveToDB owner db)) : Holds owner garrison db' := by
  rw [h.saved] at hshuffles
  constructor
  · refine List.perm_singleton.mp (filter_append_owned hshuffles.garrison (fun row hrow => ?_)
      fun row hrow => ?_)
    · simpa using (List.mem_filter.mp hrow).2
    · rw [List.mem_singleton.mp hrow]
      simp [Owner.ownsGarrison, garrisonRow]
  · refine filter_append_owned hshuffles.blueprints (fun row hrow => ?_) fun row hrow => ?_
    · simpa using (List.mem_filter.mp hrow).2
    · obtain ⟨b, _, rfl⟩ := List.mem_map.mp hrow
      simp [Owner.ownsBlueprint]
  · refine filter_append_owned hshuffles.buildings (fun row hrow => ?_) fun row hrow => ?_
    · simpa using (List.mem_filter.mp hrow).2
    · obtain ⟨hguid, htype, _⟩ := mem_buildingRows.mp hrow
      simp [Owner.ownsBuilding, hguid, htype]
  · refine filter_append_owned hshuffles.followers h.left_followers fun row hrow => ?_
    obtain ⟨e, _, rfl⟩ := List.mem_map.mp hrow
    simp [Owner.ownsFollower, followerRow]
  · refine (joined_perm hshuffles.followers hshuffles.follower_abilities).trans ?_
    refine .of_eq (joined_saved h.followersSwept (fun child hchild hnew => ?_)
      fun child hchild => ?_)
    · obtain ⟨parent, hparent, hid⟩ := hnew
      obtain ⟨e, he, rfl⟩ := List.mem_map.mp hparent
      refine h.abilityParents child hchild (AList.lookup_isSome.mp ?_)
      rw [← hid]
      exact Option.isSome_of_eq_some (lookup_of_entry he)
    · obtain ⟨e, he, hrow⟩ := List.mem_flatMap.mp hchild
      refine ⟨_, List.mem_map_of_mem he, ?_, (abilityRows_dbId hrow).symm⟩
      simp [Owner.ownsFollower, followerRow]
  · refine filter_append_owned hshuffles.missions h.left_missions fun row hrow => ?_
    obtain ⟨e, _, rfl⟩ := List.mem_map.mp hrow
    simp [Owner.ownsMission, missionRow]
  · refine (joined_perm hshuffles.missions hshuffles.mission_rewards).trans ?_
    refine .of_eq (joined_saved h.missionsSwept (fun child hchild hnew => ?_)
      fun child hchild => ?_)
    · obtain ⟨parent, hparent, hid⟩ := hnew
      obtain ⟨e, he, rfl⟩ := List.mem_map.mp hparent
      refine h.rewardParents child hchild (AList.lookup_isSome.mp ?_)
      rw [← hid]
      exact Option.isSome_of_eq_some (lookup_of_entry he)
    · obtain ⟨e, he, hrow⟩ := List.mem_flatMap.mp hchild
      refine ⟨_, List.mem_map_of_mem he, ?_, (rewardRows_dbId hrow).symm⟩
      simp [Owner.ownsMission, missionRow]

end Ashamane.GarrisonTables
