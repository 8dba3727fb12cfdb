import Ashamane.DungeonFinding.Basic

/-! The dungeons that the finder knows, and its cache of the dungeons of a group. A float is any type
with a zero and a comparison. -/
namespace Ashamane.DungeonFinding

open Ashamane.Lib

def lfgTypeDungeon : Nat := 1
def lfgTypeRaid : Nat := 2
def lfgTypeHeroic : Nat := 5
def lfgTypeRandom : Nat := 6
def lfgFlagSeasonal : Nat := 0x4

structure LFGDungeonsEntry where
  id : Nat
  name : String
  flags : Int
  maxLevel : Nat
  mapId : Int
  minLevel : Nat
  difficultyId : Nat
  typeId : Nat
  expansionLevel : Nat
  groupId : Nat
  deriving DecidableEq, Repr

structure LFGDungeonData (φ : Type*) where
  id : Nat
  name : String
  map : Nat
  type : Nat
  expansion : Nat
  group : Nat
  minlevel : Nat
  maxlevel : Nat
  difficulty : Nat
  seasonal : Bool
  x : φ
  y : φ
  z : φ
  o : φ
  requiredItemLevel : Nat := 0
  deriving DecidableEq, Repr

structure DungeonTemplate (φ : Type*) where
  dungeonId : Nat
  positionX : φ
  positionY : φ
  positionZ : φ
  orientation : φ
  requiredItemLevel : Nat
  deriving DecidableEq, Repr

structure AreaTriggerTeleport (φ : Type*) where
  targetMapId : Nat
  targetX : φ
  targetY : φ
  targetZ : φ
  targetOrientation : φ
  deriving DecidableEq, Repr

/-- What a load reads: both tables and `GetMapEntranceTrigger`. -/
structure DungeonTables (φ : Type*) where
  dungeons : List LFGDungeonsEntry
  templates : List (DungeonTemplate φ)
  mapEntranceTrigger : Nat → Option (AreaTriggerTeleport φ)

structure DungeonStores (φ : Type*) where
  lfgDungeonStore : AList fun _ : Nat => LFGDungeonData φ := ∅
  cachedDungeonMapStore : AList fun _ : Nat => LfgDungeonSet := ∅

variable {φ : Type*} [Zero φ] [BEq φ]

def LFGDungeonsEntry.listed (dungeon : LFGDungeonsEntry) : Bool :=
  dungeon.typeId == lfgTypeDungeon || dungeon.typeId == lfgTypeHeroic ||
    dungeon.typeId == lfgTypeRaid || dungeon.typeId == lfgTypeRandom

def LFGDungeonData.ofEntry (dbc : LFGDungeonsEntry) : LFGDungeonData φ where
  id := dbc.id
  name := dbc.name
  map := (dbc.mapId % 2 ^ 32).toNat
  type := dbc.typeId % 256
  expansion := dbc.expansionLevel % 256
  group := dbc.groupId % 256
  minlevel := dbc.minLevel % 256
  maxlevel := dbc.maxLevel % 256
  difficulty := dbc.difficultyId
  seasonal := ((dbc.flags % 2 ^ 32).toNat &&& lfgFlagSeasonal) ≠ 0
  x := 0
  y := 0
  z := 0
  o := 0

def initDungeons (rows : List LFGDungeonsEntry) : AList fun _ : Nat => LFGDungeonData φ :=
  rows.foldl (fun store dungeon =>
    if dungeon.listed then store.insert dungeon.id (.ofEntry dungeon) else store) ∅

def fillTemplate (store : AList fun _ : Nat => LFGDungeonData φ) (row : DungeonTemplate φ) :
    AList fun _ : Nat => LFGDungeonData φ :=
  Assoc.modify row.dungeonId (fun data =>
    { data with
      x := row.positionX
      y := row.positionY
      z := row.positionZ
      o := row.orientation
      requiredItemLevel := row.requiredItemLevel }) store

/-- The place of a dungeon. Without coordinates it is the entrance of the map; `none` when there is
none, and the round of the loop ends. -/
def fillEntrance (tables : DungeonTables φ) (dungeon : LFGDungeonData φ) :
    Option (LFGDungeonData φ) :=
  if dungeon.type ≠ lfgTypeRandom ∧ dungeon.x == 0 ∧ dungeon.y == 0 ∧ dungeon.z == 0 then
    (tables.mapEntranceTrigger dungeon.map).map fun entrance =>
      { dungeon with
        map := entrance.targetMapId
        x := entrance.targetX
        y := entrance.targetY
        z := entrance.targetZ
        o := entrance.targetOrientation }
  else some dungeon

def insertCached (cached : AList fun _ : Nat => LfgDungeonSet) (group id : Nat) :
    AList fun _ : Nat => LfgDungeonSet :=
  cached.insert group (insert id ((cached.lookup group).getD ∅))

def cacheDungeon (cached : AList fun _ : Nat => LfgDungeonSet) (dungeon : LFGDungeonData φ) :
    AList fun _ : Nat => LfgDungeonSet :=
  let cached :=
    if dungeon.type ≠ lfgTypeRandom then insertCached cached dungeon.group dungeon.id else cached
  insertCached cached 0 dungeon.id

def cacheDungeons (tables : DungeonTables φ) (cached : AList fun _ : Nat => LfgDungeonSet)
    (store : AList fun _ : Nat => LFGDungeonData φ) : AList fun _ : Nat => LfgDungeonSet :=
  store.entries.foldl (fun cached e =>
    match fillEntrance tables e.2 with
    | some dungeon => cacheDungeon cached dungeon
    | none => cached) cached

namespace DungeonStores

/-- When there are no templates the load ends early. A reload clears the cache at last. -/
def loadLFGDungeons (tables : DungeonTables φ) (reload : Bool) (mgr : DungeonStores φ) :
    DungeonStores φ :=
  let store := initDungeons tables.dungeons
  if tables.templates.isEmpty then { mgr with lfgDungeonStore := store }
  else
    let store := tables.templates.foldl fillTemplate store
    let cached := cacheDungeons tables mgr.cachedDungeonMapStore store
    { lfgDungeonStore := Assoc.mapVal (fun _ d => (fillEntrance tables d).getD d) store
      cachedDungeonMapStore := if reload then ∅ else cached }

def getDungeonsByRandom (mgr : DungeonStores φ) (randomdungeon : Nat) :
    LfgDungeonSet × DungeonStores φ :=
  let group := ((mgr.lfgDungeonStore.lookup randomdungeon).map LFGDungeonData.group).getD 0
  match mgr.cachedDungeonMapStore.lookup group with
  | some dungeons => (dungeons, mgr)
  | none => (∅, { mgr with cachedDungeonMapStore := mgr.cachedDungeonMapStore.insert group ∅ })

def cached (mgr : DungeonStores φ) (group : Nat) : LfgDungeonSet :=
  (mgr.cachedDungeonMapStore.lookup group).getD ∅

def OfGroup (group : Nat) (dungeon : LFGDungeonData φ) : Prop :=
  group = 0 ∨ dungeon.type ≠ lfgTypeRandom ∧ dungeon.group = group

structure Reloads (tables : DungeonTables φ) (mgr : DungeonStores φ) : Prop where
  dungeons : ∀ id, (mgr.loadLFGDungeons tables true).lfgDungeonStore.lookup id =
    (loadLFGDungeons tables false {}).lfgDungeonStore.lookup id
  cache : ∀ group, (mgr.loadLFGDungeons tables true).cachedDungeonMapStore.lookup group =
    (loadLFGDungeons tables false {}).cachedDungeonMapStore.lookup group
  groups : ∀ group id, id ∈ (mgr.loadLFGDungeons tables true).cached group ↔
    ∃ dungeon, (mgr.loadLFGDungeons tables true).lfgDungeonStore.lookup id = some dungeon ∧
      OfGroup group dungeon
  answers : ∀ id, ((mgr.loadLFGDungeons tables true).getDungeonsByRandom id).1 =
    ((loadLFGDungeons tables false {}).getDungeonsByRandom id).1

end DungeonStores

omit [BEq φ] in
theorem mem_insert_if {rows : List LFGDungeonsEntry} {id : Nat}
    (store : AList fun _ : Nat => LFGDungeonData φ) :
    id ∈ rows.foldl (fun store dungeon =>
      if dungeon.listed then store.insert dungeon.id (.ofEntry dungeon) else store) store ↔
      (∃ row ∈ rows, row.listed ∧ row.id = id) ∨ id ∈ store := by
  induction rows generalizing store with
  | nil => simp
  | cons row rows ih =>
    rw [List.foldl_cons, ih]
    simp only [List.exists_mem_cons_iff]
    by_cases h : row.listed = true
    · rw [if_pos h, AList.mem_insert]
      constructor
      · rintro (hrest | rfl | hold)
        · exact .inl (.inr hrest)
        · exact .inl (.inl ⟨h, rfl⟩)
        · exact .inr hold
      · rintro ((⟨-, rfl⟩ | hrest) | hold)
        · exact .inr (.inl rfl)
        · exact .inl hrest
        · exact .inr (.inr hold)
    · rw [if_neg h]
      constructor
      · exact fun hcases => hcases.imp_left .inr
      · rintro ((⟨hlisted, -⟩ | hrest) | hold)
        · exact absurd hlisted h
        · exact .inl hrest
        · exact .inr hold

omit [BEq φ] in
theorem mem_initDungeons {rows : List LFGDungeonsEntry} {id : Nat} :
    id ∈ (initDungeons rows : AList fun _ : Nat => LFGDungeonData φ) ↔
      ∃ row ∈ rows, row.listed ∧ row.id = id := by
  rw [initDungeons, mem_insert_if, or_iff_left (AList.notMem_empty id)]

omit [Zero φ] [BEq φ] in
theorem mem_fillTemplates {rows : List (DungeonTemplate φ)} {id : Nat}
    (store : AList fun _ : Nat => LFGDungeonData φ) :
    id ∈ rows.foldl fillTemplate store ↔ id ∈ store := by
  induction rows generalizing store with
  | nil => exact Iff.rfl
  | cons row rows ih =>
    rw [List.foldl_cons, ih]
    exact Assoc.mem_mapVal

namespace DungeonStores

variable {tables : DungeonTables φ} {mgr : DungeonStores φ} {reload : Bool}

theorem mem_load {id : Nat} : id ∈ (mgr.loadLFGDungeons tables reload).lfgDungeonStore ↔
    ∃ row ∈ tables.dungeons, row.listed ∧ row.id = id := by
  rw [loadLFGDungeons, ← mem_initDungeons (φ := φ)]
  split
  · exact Iff.rfl
  · exact Assoc.mem_mapVal.trans (mem_fillTemplates _)

theorem cacheDungeons_nil {cached : AList fun _ : Nat => LfgDungeonSet}
    {store : AList fun _ : Nat => LFGDungeonData φ} (h : ∀ id, id ∉ store) :
    cacheDungeons tables cached store = cached := by
  have hnil : store.entries = [] :=
    List.eq_nil_iff_forall_not_mem.mpr fun e he => h e.1 (List.mem_keys_of_mem he)
  rw [cacheDungeons, hnil]
  rfl

theorem cache_reload (tables : DungeonTables φ) (mgr : DungeonStores φ) (group : Nat) :
    (mgr.loadLFGDungeons tables true).cachedDungeonMapStore.lookup group =
      if tables.templates.isEmpty then mgr.cachedDungeonMapStore.lookup group else none := by
  unfold loadLFGDungeons
  split <;> rfl

/-- A reload gives what a load into an empty manager gives exactly when there is no dungeon, and
nothing was cached in case there are no templates. -/
theorem reloads_iff (tables : DungeonTables φ) (mgr : DungeonStores φ) :
    Reloads tables mgr ↔ (∀ row ∈ tables.dungeons, row.listed = false) ∧
      (tables.templates = [] → ∀ group, mgr.cachedDungeonMapStore.lookup group = none) := by
  have hcache := cache_reload tables mgr
  constructor
  · intro h
    have hold : tables.templates = [] → ∀ group, mgr.cachedDungeonMapStore.lookup group = none := by
      intro hempty group
      have hsame := h.cache group
      rw [hcache, hempty] at hsame
      rw [show mgr.cachedDungeonMapStore.lookup group = _ from hsame, loadLFGDungeons, hempty]
      rfl
    refine ⟨fun row hrow => ?_, hold⟩
    by_contra hlisted
    rw [Bool.not_eq_false] at hlisted
    have hin : row.id ∈ (mgr.loadLFGDungeons tables true).lfgDungeonStore :=
      mem_load.mpr ⟨row, hrow, hlisted, rfl⟩
    obtain ⟨dungeon, hdungeon⟩ := Option.isSome_iff_exists.mp (AList.lookup_isSome.mpr hin)
    have hmem := (h.groups 0 row.id).mpr ⟨dungeon, hdungeon, .inl rfl⟩
    have hnone : (mgr.loadLFGDungeons tables true).cachedDungeonMapStore.lookup 0 = none := by
      rw [hcache]
      split
      · rename_i hempty
        exact hold (List.isEmpty_iff.mp hempty) 0
      · rfl
    rw [cached, hnone] at hmem
    exact Finset.notMem_empty _ hmem
  · rintro ⟨hrows, hold⟩
    have hno : ∀ (m : DungeonStores φ) (reload : Bool) id,
        (m.loadLFGDungeons tables reload).lfgDungeonStore.lookup id = none := by
      intro m reload id
      refine AList.lookup_eq_none.mpr fun hmem => ?_
      obtain ⟨row, hrow, hlisted, -⟩ := mem_load.mp hmem
      rw [hrows row hrow] at hlisted
      cases hlisted
    have hreload : ∀ group,
        (mgr.loadLFGDungeons tables true).cachedDungeonMapStore.lookup group = none := by
      intro group
      rw [hcache]
      split
      · rename_i hempty
        exact hold (List.isEmpty_iff.mp hempty) group
      · rfl
    have hfresh : ∀ group,
        (loadLFGDungeons tables false {}).cachedDungeonMapStore.lookup group = none := by
      intro group
      rw [loadLFGDungeons]
      split
      · rfl
      · have hnil : ∀ id, id ∉ tables.templates.foldl fillTemplate (initDungeons tables.dungeons) := by
          intro id hmem
          obtain ⟨row, hrow, hlisted, -⟩ := mem_initDungeons.mp ((mem_fillTemplates _).mp hmem)
          rw [hrows row hrow] at hlisted
          cases hlisted
        dsimp only
        rw [cacheDungeons_nil hnil]
        rfl
    refine ⟨fun id => by rw [hno, hno], fun group => by rw [hreload, hfresh], fun group id => ?_,
      fun id => ?_⟩
    · rw [cached, hreload, hno]
      simp
    · simp only [getDungeonsByRandom, hno, Option.map_none, Option.getD_none, hreload, hfresh]

/-- One dungeon with a place. -/
theorem reloads_fails_oneDungeon : ¬Reloads
    { dungeons := [⟨1, "The Deadmines", 0, 20, 36, 15, 1, lfgTypeDungeon, 0, 3⟩]
      templates := [⟨1, -16, -383, 61, 2, 0⟩]
      mapEntranceTrigger := fun _ => none } ({} : DungeonStores Int) := by
  intro h
  exact absurd (h.cache 3) (by decide)

end DungeonStores

end Ashamane.DungeonFinding
