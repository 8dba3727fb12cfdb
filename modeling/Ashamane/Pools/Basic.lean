import Mathlib.Logic.Function.Basic
import Mathlib.Data.Int.ModEq

/-! Pools of creatures, gameobjects and other pools, of which at most a number of members is
spawned at a time. -/
namespace Ashamane.Pools

inductive Kind where
  | creature
  | gameobject
  | pool
  deriving DecidableEq, Repr

structure PoolObject where
  guid : Nat
  chance : Rat
  deriving DecidableEq, Repr

structure PoolGroup where
  explicitlyChanced : List PoolObject := []
  equalChanced : List PoolObject := []
  deriving DecidableEq, Repr

def PoolGroup.isEmpty (g : PoolGroup) : Bool := g.explicitlyChanced.isEmpty && g.equalChanced.isEmpty

def PoolGroup.guids (g : PoolGroup) : List Nat :=
  (g.equalChanced ++ g.explicitlyChanced).map PoolObject.guid

/-- What is loaded: the limits of the pools, their groups and the map from a pool to its
mother pool. `depth` bounds the nesting of pools below a pool. -/
structure PoolData where
  maxLimit : Nat → Nat
  group : Kind → Nat → PoolGroup
  poolSearchMap : Nat → Option Nat
  depth : Nat → Nat

def PoolData.guids (data : PoolData) (k : Kind) (p : Nat) : List Nat := (data.group k p).guids

/-- `IsPartOfAPool` for pools: 0 stands for no mother. -/
def PoolData.motherPool (data : PoolData) (p : Nat) : Nat := (data.poolSearchMap p).getD 0

/-- A spawn or a pool is a member of one pool at most, and once; the map leads from the member
pools to their mothers; and there is no circular reference. The loader does not see to the first:
it puts a pool under every mother that a row names. -/
structure PoolData.WellFormed (data : PoolData) : Prop where
  nodup : ∀ k p, (data.guids k p).Nodup
  unique : ∀ k p q g, g ∈ data.guids k p → g ∈ data.guids k q → p = q
  mother : ∀ p m, p ∈ data.guids .pool m ↔ data.poolSearchMap p = some m
  nested : ∀ m, ∀ p ∈ data.guids .pool m, data.depth p < data.depth m

structure ActivePoolData where
  spawnedCreatures : Nat → Bool
  spawnedGameobjects : Nat → Bool
  spawnedPools : Nat → Option Nat

inductive PoolEvent where
  | activate (k : Kind) (guid : Nat)
  | remove (k : Kind) (guid : Nat)
  deriving DecidableEq, Repr

/-- The dynamic data with the number of random draws made so far and the past, last event
first. -/
structure PoolMgr where
  spawned : ActivePoolData
  draws : Nat
  log : List PoolEvent

/-- The random numbers: `rand_chance()` and an index under a size. -/
structure Dice where
  randChance : Nat → Rat
  urand : Nat → Nat

namespace ActivePoolData

def getActiveObjectCount (a : ActivePoolData) (p : Nat) : Nat := (a.spawnedPools p).getD 0

def isActiveObject (a : ActivePoolData) : Kind → Nat → Bool
  | .creature, guid => a.spawnedCreatures guid
  | .gameobject, guid => a.spawnedGameobjects guid
  | .pool, p => (a.spawnedPools p).isSome

def setCount (a : ActivePoolData) (p : Nat) (n : Nat) : ActivePoolData :=
  { a with spawnedPools := Function.update a.spawnedPools p (some n) }

def mark (a : ActivePoolData) (k : Kind) (guid : Nat) : ActivePoolData :=
  match k with
  | .creature => { a with spawnedCreatures := Function.update a.spawnedCreatures guid true }
  | .gameobject => { a with spawnedGameobjects := Function.update a.spawnedGameobjects guid true }
  | .pool => a.setCount guid 0

def unmark (a : ActivePoolData) (k : Kind) (guid : Nat) : ActivePoolData :=
  match k with
  | .creature => { a with spawnedCreatures := Function.update a.spawnedCreatures guid false }
  | .gameobject => { a with spawnedGameobjects := Function.update a.spawnedGameobjects guid false }
  | .pool => { a with spawnedPools := Function.update a.spawnedPools guid none }

def activateObject (a : ActivePoolData) (k : Kind) (guid p : Nat) : ActivePoolData :=
  let a := a.mark k guid
  a.setCount p (a.getActiveObjectCount p + 1)

def removeObject (a : ActivePoolData) (k : Kind) (guid p : Nat) : ActivePoolData :=
  let a := a.unmark k guid
  a.setCount p (a.getActiveObjectCount p - 1)

end ActivePoolData

namespace PoolMgr

def isActive (s : PoolMgr) (k : Kind) (guid : Nat) : Bool := s.spawned.isActiveObject k guid

def count (s : PoolMgr) (p : Nat) : Nat := s.spawned.getActiveObjectCount p

def activateObject (s : PoolMgr) (k : Kind) (guid p : Nat) : PoolMgr :=
  { s with spawned := s.spawned.activateObject k guid p, log := .activate k guid :: s.log }

def removeObject (s : PoolMgr) (k : Kind) (guid p : Nat) : PoolMgr :=
  { s with spawned := s.spawned.removeObject k guid p, log := .remove k guid :: s.log }

def rollExplicit (free : Nat → Bool) (roll : Rat) : List PoolObject → Option PoolObject
  | [] => none
  | obj :: l =>
    let roll := roll - obj.chance
    if roll < 0 && free obj.guid then some obj else rollExplicit free roll l

def rollOne (dice : Dice) (g : PoolGroup) (k : Kind) (triggerFrom : Nat) (s : PoolMgr) :
    Option PoolObject × PoolMgr :=
  let free := fun guid => guid == triggerFrom || ! s.isActive k guid
  let (rolled, draws) :=
    if g.explicitlyChanced.isEmpty then (none, s.draws)
    else (rollExplicit free (dice.randChance s.draws) g.explicitlyChanced, s.draws + 1)
  match rolled with
  | some obj => (some obj, { s with draws })
  | none =>
    if g.equalChanced.isEmpty then (none, { s with draws })
    else
      let index := dice.urand draws % g.equalChanced.length
      (g.equalChanced[index]?.filter fun obj => free obj.guid, { s with draws := draws + 1 })

/-- A turn of the loop of `DespawnObject`: 0 as `guid` stands for every member. -/
def despawnMember (despawnPool : Nat → PoolMgr → PoolMgr) (k : Kind) (p guid : Nat)
    (s : PoolMgr) (member : Nat) : PoolMgr :=
  if s.isActive k member && (guid == 0 || member == guid) then
    let s := if k = .pool then despawnPool member s else s
    s.removeObject k member p
  else s

def despawnObject (data : PoolData) (despawnPool : Nat → PoolMgr → PoolMgr) (k : Kind)
    (p guid : Nat) (s : PoolMgr) : PoolMgr :=
  (data.guids k p).foldl (despawnMember despawnPool k p guid) s

/-- `DespawnPool`; the number bounds the nesting of the pools under it. -/
def despawnPoolN (data : PoolData) : Nat → Nat → PoolMgr → PoolMgr
  | 0, _, s => s
  | n + 1, p, s =>
    [Kind.creature, .gameobject, .pool].foldl
      (fun s k => despawnObject data (despawnPoolN data n) k p 0 s) s

/-- The loop of `SpawnObject`, with the number of turns that are left. `lastDespawned` is a
32-bit number. -/
def spawnLoop (dice : Dice) (data : PoolData) (spawnPool despawnPool : Nat → PoolMgr → PoolMgr)
    (k : Kind) (p : Nat) : Nat → Nat → Nat → PoolMgr → PoolMgr
  | 0, _, _, s => s
  | n + 1, triggerFrom, lastDespawned, s =>
    match rollOne dice (data.group k p) k triggerFrom s with
    | (none, s) => spawnLoop dice data spawnPool despawnPool k p n triggerFrom lastDespawned s
    | (some obj, s) =>
      if obj.guid = lastDespawned then
        spawnLoop dice data spawnPool despawnPool k p n triggerFrom lastDespawned s
      else if obj.guid = triggerFrom then
        spawnLoop dice data spawnPool despawnPool k p n 0 lastDespawned s
      else
        let s := s.activateObject k obj.guid p
        let s := if k = .pool then spawnPool obj.guid s else s
        if triggerFrom ≠ 0 then
          let s := despawnObject data despawnPool k p triggerFrom s
          spawnLoop dice data spawnPool despawnPool k p n 0 (triggerFrom % 2 ^ 32) s
        else spawnLoop dice data spawnPool despawnPool k p n triggerFrom lastDespawned s

def spawnObject (dice : Dice) (data : PoolData) (spawnPool despawnPool : Nat → PoolMgr → PoolMgr)
    (k : Kind) (p triggerFrom : Nat) (s : PoolMgr) : PoolMgr :=
  let count := ((data.maxLimit p : Int) - s.count p).bmod (2 ^ 32)
  let count := if triggerFrom ≠ 0 then count + 1 else count
  spawnLoop dice data spawnPool despawnPool k p count.toNat triggerFrom 0 s

/-- `SpawnPool` for one kind of members. -/
def spawnGroup (dice : Dice) (data : PoolData) (spawnPool despawnPool : Nat → PoolMgr → PoolMgr)
    (k : Kind) (p triggerFrom : Nat) (s : PoolMgr) : PoolMgr :=
  if (data.group k p).isEmpty then s
  else spawnObject dice data spawnPool despawnPool k p triggerFrom s

def spawnPoolN (dice : Dice) (data : PoolData) : Nat → Nat → PoolMgr → PoolMgr
  | 0, _, s => s
  | n + 1, p, s =>
    [Kind.pool, .gameobject, .creature].foldl
      (fun s k => spawnGroup dice data (spawnPoolN dice data n) (despawnPoolN data n) k p 0 s) s

def spawnPool (dice : Dice) (data : PoolData) (p : Nat) (s : PoolMgr) : PoolMgr :=
  spawnPoolN dice data (data.depth p + 1) p s

def despawnPool (data : PoolData) (p : Nat) (s : PoolMgr) : PoolMgr :=
  despawnPoolN data (data.depth p + 1) p s

def updatePool (dice : Dice) (data : PoolData) (k : Kind) (p guid : Nat) (s : PoolMgr) : PoolMgr :=
  let mother := data.motherPool p
  if mother ≠ 0 then
    spawnGroup dice data (spawnPoolN dice data (data.depth mother))
      (despawnPoolN data (data.depth mother)) .pool mother p s
  else
    spawnGroup dice data (spawnPoolN dice data (data.depth p)) (despawnPoolN data (data.depth p))
      k p guid s

def start : PoolMgr := ⟨⟨fun _ => false, fun _ => false, fun _ => none⟩, 0, []⟩

end PoolMgr

inductive PoolOp where
  | spawnPool (p : Nat)
  | updatePool (k : Kind) (p guid : Nat)
  | despawnPool (p : Nat)
  deriving DecidableEq, Repr

namespace PoolMgr

def step (dice : Dice) (data : PoolData) (s : PoolMgr) : PoolOp → PoolMgr
  | .spawnPool p => s.spawnPool dice data p
  | .updatePool k p guid => s.updatePool dice data k p guid
  | .despawnPool p => s.despawnPool data p

end PoolMgr

end Ashamane.Pools
