import Ashamane.Garrisons.Basic
import Ashamane.Lib.Tables
import Mathlib.Data.List.Sort

/-! A garrison and its tables: what `SaveToDB` writes and `LoadFromDB` reads. The key of a map is
the database id (or the plot instance) that the source keeps in the value as well. Followers and
missions have the fields of their rows here; what the requests about missions read of the same
types is in `Garrisons`, where the state of a mission goes by its name. -/
namespace Ashamane.GarrisonTables
open Ashamane.Lib Tables

abbrev IdSet : Type := AList fun _ : Nat => Unit

structure Follower where
  GarrFollowerID : Nat
  Quality : Nat
  FollowerLevel : Nat
  ItemLevelWeapon : Nat
  ItemLevelArmor : Nat
  Xp : Nat
  CurrentBuildingID : Nat
  CurrentMissionID : Nat
  AbilityID : List Nat
  FollowerStatus : Nat
  deriving DecidableEq, Repr

structure GarrisonMissionReward where
  ItemID : Int
  ItemQuantity : Nat
  CurrencyID : Int
  CurrencyQuantity : Nat
  FollowerXP : Nat
  BonusAbilityID : Nat
  Unknown : Int
  deriving DecidableEq, Repr

structure Mission where
  MissionRecID : Nat
  OfferTime : Nat
  OfferDuration : Nat
  StartTime : Nat
  TravelDuration : Nat
  MissionDuration : Nat
  MissionState : Nat
  SuccessChance : Nat
  Unknown2 : Nat
  Rewards : List GarrisonMissionReward
  BonusRewards : List GarrisonMissionReward
  CanStartMission : Bool
  deriving DecidableEq, Repr

structure GarrisonBuildingInfo where
  GarrBuildingID : Nat
  TimeBuilt : Nat
  Active : Bool
  deriving DecidableEq, Repr

structure Garrison where
  siteLevel : Nat
  followerActivationsRemainingToday : Nat
  followers : AList fun _ : Nat => Follower
  followerIds : IdSet
  missions : AList fun _ : Nat => Mission
  missionIds : IdSet

structure WodGarrison extends Garrison where
  plots : AList fun _ : Nat => Option GarrisonBuildingInfo
  knownBuildings : IdSet

/-- What the loader looks up. `plots` are those that `InitializePlots` makes for a site level. -/
structure Stores where
  siteLevel : Nat → Bool
  follower : Nat → Bool
  ability : Nat → Bool
  building : Nat → Bool
  mission : Nat → Option Garrisons.GarrMissionEntry
  plots : Nat → List Nat

/-! The rows. A `clash` is a row with the same primary or unique key. -/

structure GarrisonRow where
  guid : Nat
  type : Nat
  siteLevelId : Nat
  followerActivationsRemainingToday : Nat
  deriving DecidableEq, Repr

def GarrisonRow.clash (row other : GarrisonRow) : Bool :=
  row.guid = other.guid && row.type = other.type

structure BlueprintRow where
  guid : Nat
  garrison_type : Nat
  buildingId : Nat
  deriving DecidableEq, Repr

def BlueprintRow.clash (row other : BlueprintRow) : Bool := row = other

structure BuildingRow where
  guid : Nat
  garrison_type : Nat
  plotInstanceId : Nat
  buildingId : Nat
  timeBuilt : Nat
  active : Bool
  deriving DecidableEq, Repr

def BuildingRow.clash (row other : BuildingRow) : Bool :=
  row.guid = other.guid && row.garrison_type = other.garrison_type &&
    row.plotInstanceId = other.plotInstanceId

structure FollowerRow where
  dbId : Nat
  guid : Nat
  garrison_type : Nat
  followerId : Nat
  quality : Nat
  level : Nat
  itemLevelWeapon : Nat
  itemLevelArmor : Nat
  xp : Nat
  currentBuilding : Nat
  currentMission : Nat
  status : Nat
  deriving DecidableEq, Repr

def FollowerRow.clash (row other : FollowerRow) : Bool :=
  row.dbId = other.dbId || row.guid = other.guid && row.followerId = other.followerId

structure AbilityRow where
  dbId : Nat
  abilityId : Nat
  slot : Nat
  deriving DecidableEq, Repr

def AbilityRow.clash (row other : AbilityRow) : Bool := row = other

structure MissionRow where
  dbId : Nat
  guid : Nat
  garrison_type : Nat
  missionId : Nat
  offerTime : Nat
  startTime : Nat
  status : Nat
  deriving DecidableEq, Repr

def MissionRow.clash (row other : MissionRow) : Bool := row.dbId = other.dbId

/-- The times are `INT` and the status is `TINYINT UNSIGNED`. -/
def MissionRow.fits (row : MissionRow) : Bool :=
  row.offerTime < 2 ^ 31 && row.startTime < 2 ^ 31 && row.status < 2 ^ 8

structure RewardRow where
  dbId : Nat
  type : Nat
  itemId : Int
  itemQuantity : Nat
  currencyId : Int
  currencyQuantity : Nat
  FollowerXP : Nat
  BonusAbilityId : Nat
  deriving DecidableEq, Repr

/-- The id is `INT UNSIGNED` here. -/
def RewardRow.fits (row : RewardRow) : Bool := row.dbId < 2 ^ 32

structure Database where
  garrison : List GarrisonRow
  blueprints : List BlueprintRow
  buildings : List BuildingRow
  followers : List FollowerRow
  follower_abilities : List AbilityRow
  missions : List MissionRow
  mission_rewards : List RewardRow

structure Owner where
  guid : Nat
  type : Nat
  deriving DecidableEq, Repr

namespace Owner
variable (owner : Owner)

def ownsGarrison (row : GarrisonRow) : Bool := row.guid = owner.guid && row.type = owner.type

def ownsBlueprint (row : BlueprintRow) : Bool :=
  row.guid = owner.guid && row.garrison_type = owner.type

def ownsBuilding (row : BuildingRow) : Bool :=
  row.guid = owner.guid && row.garrison_type = owner.type

def ownsFollower (row : FollowerRow) : Bool :=
  row.guid = owner.guid && row.garrison_type = owner.type

def ownsMission (row : MissionRow) : Bool :=
  row.guid = owner.guid && row.garrison_type = owner.type

end Owner

/-- The first reward of a mission gets the type `Normal`, and the counter goes on over both lists in
eight bits. -/
def rewardRows (dbId rewardType : Nat) : List GarrisonMissionReward → List RewardRow
  | [] => []
  | reward :: rewards =>
    { dbId
      type := rewardType
      itemId := reward.ItemID
      itemQuantity := reward.ItemQuantity
      currencyId := reward.CurrencyID
      currencyQuantity := reward.CurrencyQuantity
      FollowerXP := reward.FollowerXP
      BonusAbilityId := reward.BonusAbilityID } ::
      rewardRows dbId ((rewardType + 1) % 2 ^ 8) rewards

def abilityRows (dbId slot : Nat) : List Nat → List AbilityRow
  | [] => []
  | abilityId :: abilities =>
    ⟨dbId, abilityId, slot⟩ :: abilityRows dbId ((slot + 1) % 2 ^ 8) abilities

def followerRow (owner : Owner) (dbId : Nat) (follower : Follower) : FollowerRow where
  dbId
  guid := owner.guid
  garrison_type := owner.type
  followerId := follower.GarrFollowerID
  quality := follower.Quality
  level := follower.FollowerLevel
  itemLevelWeapon := follower.ItemLevelWeapon
  itemLevelArmor := follower.ItemLevelArmor
  xp := follower.Xp
  currentBuilding := follower.CurrentBuildingID
  currentMission := follower.CurrentMissionID
  status := follower.FollowerStatus

def NOT_STARTED : Nat := 2254525440

def missionRow (owner : Owner) (dbId : Nat) (mission : Mission) : MissionRow where
  dbId
  guid := owner.guid
  garrison_type := owner.type
  missionId := mission.MissionRecID
  offerTime := mission.OfferTime % 2 ^ 32
  startTime := if mission.StartTime ≠ NOT_STARTED then mission.StartTime % 2 ^ 32 else 0
  status := mission.MissionState

namespace Database
variable (owner : Owner) (db : Database)

def deleteFromDB : Database :=
  let missions := deleteJoined owner.ownsMission MissionRow.dbId RewardRow.dbId db.missions
    db.mission_rewards
  let followers := deleteJoined owner.ownsFollower FollowerRow.dbId AbilityRow.dbId db.followers
    db.follower_abilities
  { garrison := db.garrison.filter fun row => !owner.ownsGarrison row
    blueprints := db.blueprints.filter fun row => !owner.ownsBlueprint row
    buildings := db.buildings.filter fun row => !owner.ownsBuilding row
    followers := followers.1
    follower_abilities := followers.2
    missions := missions.1
    mission_rewards := missions.2 }

end Database

def insertFollower (owner : Owner) : List FollowerRow × List AbilityRow →
    (Sigma fun _ : Nat => Follower) → Option (List FollowerRow × List AbilityRow) :=
  insertFamily (insertRow (fun _ => true) FollowerRow.clash)
    (insertRow (fun _ => true) AbilityRow.clash)
    (fun entry => followerRow owner entry.1 entry.2)
    fun entry => abilityRows entry.1 0 entry.2.AbilityID

def insertMission (owner : Owner) : List MissionRow × List RewardRow →
    (Sigma fun _ : Nat => Mission) → Option (List MissionRow × List RewardRow) :=
  insertFamily (insertRow MissionRow.fits MissionRow.clash)
    (insertRow RewardRow.fits fun _ _ => false)
    (fun entry => missionRow owner entry.1 entry.2)
    fun entry => rewardRows entry.1 0 [entry.2.Rewards, entry.2.BonusRewards].flatten

/-- The transaction of `Garrison::SaveToDB`, which fails as a whole. -/
def Garrison.transaction (owner : Owner) (garrison : Garrison) (db : Database) :
    Option Database := do
  let db := db.deleteFromDB owner
  let rows ← insertRow (fun _ => true) GarrisonRow.clash db.garrison
    ⟨owner.guid, owner.type, garrison.siteLevel, garrison.followerActivationsRemainingToday⟩
  let followers ← garrison.followers.entries.foldlM (insertFollower owner)
    (db.followers, db.follower_abilities)
  let missions ← garrison.missions.entries.foldlM (insertMission owner)
    (db.missions, db.mission_rewards)
  some { db with
    garrison := rows
    followers := followers.1
    follower_abilities := followers.2
    missions := missions.1
    mission_rewards := missions.2 }

def blueprintRows (owner : Owner) (garrison : WodGarrison) : List BlueprintRow :=
  garrison.knownBuildings.keys.map fun building => ⟨owner.guid, owner.type, building⟩

def buildingRows (owner : Owner) (garrison : WodGarrison) : List BuildingRow :=
  garrison.plots.entries.filterMap fun plot => plot.2.map fun info =>
    ⟨owner.guid, owner.type, plot.1, info.GarrBuildingID, info.TimeBuilt, info.Active⟩

def WodGarrison.transaction (owner : Owner) (garrison : WodGarrison) (db : Database) :
    Option Database := do
  let db ← garrison.toGarrison.transaction owner db
  let blueprints ← (blueprintRows owner garrison).foldlM
    (insertRow (fun _ => true) BlueprintRow.clash) db.blueprints
  let buildings ← (buildingRows owner garrison).foldlM
    (insertRow (fun _ => true) BuildingRow.clash) db.buildings
  some { db with blueprints, buildings }

/-- What the tables hold after the transaction, be it committed or rolled back. -/
def WodGarrison.saveToDB (owner : Owner) (garrison : WodGarrison) (db : Database) : Database :=
  (garrison.transaction owner db).getD db

/-! The loops of `LoadFromDB`. -/

def FollowerRow.follower (stores : Stores) (row : FollowerRow) : Option Follower :=
  if stores.follower row.followerId then
    some
      { GarrFollowerID := row.followerId
        Quality := row.quality
        FollowerLevel := row.level
        ItemLevelWeapon := row.itemLevelWeapon
        ItemLevelArmor := row.itemLevelArmor
        Xp := row.xp
        CurrentBuildingID := if stores.building row.currentBuilding then row.currentBuilding else 0
        CurrentMissionID :=
          if (stores.mission row.currentMission).isSome then row.currentMission else 0
        AbilityID := []
        FollowerStatus := row.status }
  else none

def loadFollower (stores : Stores) : (AList fun _ : Nat => Follower) × IdSet → FollowerRow →
    (AList fun _ : Nat => Follower) × IdSet :=
  loadRow FollowerRow.dbId (FollowerRow.follower stores) FollowerRow.followerId

def loadAbility (stores : Stores) (followers : AList fun _ : Nat => Follower) (row : AbilityRow) :
    AList fun _ : Nat => Follower :=
  if stores.ability row.abilityId then
    Assoc.modify row.dbId
      (fun follower => { follower with AbilityID := follower.AbilityID ++ [row.abilityId] })
      followers
  else followers

def MissionRow.mission (stores : Stores) (row : MissionRow) : Option Mission :=
  (stores.mission row.missionId).map fun missionEntry =>
    { MissionRecID := row.missionId
      OfferTime := row.offerTime
      OfferDuration := missionEntry.offerTime
      StartTime := if row.startTime = 0 then NOT_STARTED else row.startTime
      TravelDuration := missionEntry.travelTime
      MissionDuration := missionEntry.duration
      MissionState := row.status
      SuccessChance := Garrisons.getMissionSuccessChance
      Unknown2 := 0
      Rewards := []
      BonusRewards := []
      CanStartMission := true }

def loadMission (stores : Stores) : (AList fun _ : Nat => Mission) × IdSet → MissionRow →
    (AList fun _ : Nat => Mission) × IdSet :=
  loadRow MissionRow.dbId (MissionRow.mission stores) MissionRow.missionId

def RewardRow.reward (row : RewardRow) : GarrisonMissionReward where
  ItemID := row.itemId
  ItemQuantity := row.itemQuantity
  CurrencyID := row.currencyId
  CurrencyQuantity := row.currencyQuantity
  FollowerXP := row.FollowerXP
  BonusAbilityID := row.BonusAbilityId
  Unknown := 0

/-- The type `Normal` is 0. -/
def loadReward (missions : AList fun _ : Nat => Mission) (row : RewardRow) :
    AList fun _ : Nat => Mission :=
  Assoc.modify row.dbId
    (fun mission =>
      if row.type = 0 then { mission with Rewards := mission.Rewards ++ [row.reward] }
      else { mission with BonusRewards := mission.BonusRewards ++ [row.reward] })
    missions

def Garrison.loadFromDB (stores : Stores) (owner : Owner) (db : Database) : Option Garrison := do
  let garrison ← db.garrison.find? owner.ownsGarrison
  if stores.siteLevel garrison.siteLevelId then
    let followers := (db.followers.filter owner.ownsFollower).foldl (loadFollower stores) (∅, ∅)
    let abilities := (joined owner.ownsFollower FollowerRow.dbId AbilityRow.dbId db.followers
      db.follower_abilities).insertionSort (·.slot ≤ ·.slot)
    let missions := (db.missions.filter owner.ownsMission).foldl (loadMission stores) (∅, ∅)
    let rewards := joined owner.ownsMission MissionRow.dbId RewardRow.dbId db.missions
      db.mission_rewards
    some
      { siteLevel := garrison.siteLevelId
        followerActivationsRemainingToday := garrison.followerActivationsRemainingToday
        followers := abilities.foldl (loadAbility stores) followers.1
        followerIds := followers.2
        missions := rewards.foldl loadReward missions.1
        missionIds := missions.2 }
  else none

def initializePlots (stores : Stores) (siteLevel : Nat) :
    AList fun _ : Nat => Option GarrisonBuildingInfo :=
  (stores.plots siteLevel).foldl (fun plots plot => plots.insert plot none) ∅

def loadBlueprint (stores : Stores) (knownBuildings : IdSet) (row : BlueprintRow) : IdSet :=
  if stores.building row.buildingId then knownBuildings.insert row.buildingId () else knownBuildings

def loadBuilding (stores : Stores) (plots : AList fun _ : Nat => Option GarrisonBuildingInfo)
    (row : BuildingRow) : AList fun _ : Nat => Option GarrisonBuildingInfo :=
  if stores.building row.buildingId then
    Assoc.modify row.plotInstanceId (fun _ => some ⟨row.buildingId, row.timeBuilt, row.active⟩)
      plots
  else plots

def WodGarrison.loadFromDB (stores : Stores) (owner : Owner) (db : Database) :
    Option WodGarrison := do
  let garrison ← Garrison.loadFromDB stores owner db
  some
    { garrison with
      knownBuildings := (db.blueprints.filter owner.ownsBlueprint).foldl (loadBlueprint stores) ∅
      plots := (db.buildings.filter owner.ownsBuilding).foldl (loadBuilding stores)
        (initializePlots stores garrison.siteLevel) }

end Ashamane.GarrisonTables
