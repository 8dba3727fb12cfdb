import Ashamane.Looting.Fill
import Ashamane.Lib.Fuel
import Mathlib.Algebra.Order.Ring.Rat
import Mathlib.Data.Finset.Basic
import Mathlib.Order.Interval.Set.Defs

/-! The templates that loot is made from: how they are loaded, and how `Process` goes through
them and through the templates that they refer to. -/
namespace Ashamane.Looting

/-- A row with all that its generation reads. A reference is followed `maxcount` times. -/
structure LootRow extends LootStoreItem where
  reference : Nat := 0
  chance : ℚ
  lootmode : BitVec 16
  groupid : Nat
  mincount : Nat
  maxcount : Nat
  deriving DecidableEq

structure LootGroup where
  explicitlyChanced : List LootRow := []
  equalChanced : List LootRow := []
  deriving DecidableEq

structure LootTemplate where
  entries : List LootRow := []
  groups : List (Option LootGroup) := []
  deriving DecidableEq

abbrev LootTemplateMap := AList fun _ : Nat => LootTemplate

/-- What the loaders and the generation look up. The rates come with the multiplication of floats:
`referencedChance` and `qualityChance` of a chance, `referencedAmount` of a count. -/
structure LootWorld where
  itemTemplate : ItemStore
  currencyTypes : Nat → Bool
  referencedChance : ℚ → ℚ
  qualityChance : Nat → ℚ → ℚ
  referencedAmount : Nat → Nat

/-! Loading. -/

def LootGroup.addEntry (group : LootGroup) (item : LootRow) : LootGroup :=
  if item.chance ≠ 0 then { group with explicitlyChanced := group.explicitlyChanced ++ [item] }
  else { group with equalChanced := group.equalChanced ++ [item] }

def LootTemplate.addEntry (t : LootTemplate) (item : LootRow) : LootTemplate :=
  if 0 < item.groupid ∧ item.reference = 0 then
    let groups := t.groups ++ List.replicate (item.groupid - t.groups.length) none
    let add := fun group : Option LootGroup => some ((group.getD {}).addEntry item)
    { t with groups := groups.modify (item.groupid - 1) add }
  else { t with entries := t.entries ++ [item] }

def LootRow.isValid (w : LootWorld) (item : LootRow) : Bool :=
  if item.mincount = 0 then false
  else if item.reference = 0 then
    (if item.currency then w.currencyTypes item.itemid else (w.itemTemplate item.itemid).isSome) &&
      !(item.chance == 0 && item.groupid == 0) &&
      !(item.chance != 0 && decide (item.chance < 1 / 1000000)) && item.mincount ≤ item.maxcount
  else item.needsQuest || item.chance != 0

/-- The loop over the result, with the number of rows that are loaded. A group id that is too
large ends it. -/
def loadLootTable (w : LootWorld) :
    List (Nat × LootRow) → LootTemplateMap × Nat → LootTemplateMap × Nat
  | [], r => r
  | (entry, item) :: rows, (templates, count) =>
    if 2 ^ 7 ≤ item.groupid then (templates, 0)
    else if item.isValid w then
      let template := (templates.lookup entry).getD {}
      loadLootTable w rows (templates.insert entry (template.addEntry item), count + 1)
    else loadLootTable w rows (templates, count)

def LootGroup.rows (group : LootGroup) : List LootRow :=
  group.explicitlyChanced ++ group.equalChanced

def LootTemplate.rows (t : LootTemplate) : List LootRow :=
  t.entries ++ t.groups.flatMap fun group => (group.map LootGroup.rows).getD []

/-- The references that are reported as missing, with the item column of their row, and the ids
that are not yet referred to. -/
def LootTemplate.checkLootRefs (refs : LootTemplateMap) (t : LootTemplate)
    (s : List (Nat × Nat) × Finset Nat) : List (Nat × Nat) × Finset Nat :=
  t.rows.foldl (fun s item =>
    if 0 < item.reference then
      if (refs.lookup item.reference).isNone then (s.1 ++ [(item.reference, item.itemid)], s.2)
      else (s.1, s.2.erase item.reference)
    else s) s

def checkLootRefs (refs templates : LootTemplateMap) (ids : Finset Nat) :
    List (Nat × Nat) × Finset Nat :=
  templates.entries.foldl (fun s template => template.2.checkLootRefs refs s) ([], ids)

/-! Generation. -/

structure Random where
  chances : Nat → Set.Ico (0 : ℚ) 100
  numbers : Nat → Nat

def Random.randChance (random : Random) : ℚ × Random :=
  (random.chances 0, { random with chances := fun n => random.chances (n + 1) })

def Random.urand (random : Random) (min max : Nat) : Nat × Random :=
  (min + random.numbers 0 % (max - min + 1),
    { random with numbers := fun n => random.numbers (n + 1) })

def LootRow.rollChance (w : LootWorld) (rate : Bool) (item : LootRow) : ℚ :=
  if rate then
    if 0 < item.reference then w.referencedChance item.chance
    else
      match w.itemTemplate item.itemid with
      | some proto => w.qualityChance proto.quality item.chance
      | none => item.chance
  else item.chance

def LootRow.roll (w : LootWorld) (rate : Bool) (item : LootRow) (random : Random) : Bool × Random :=
  if 100 ≤ item.chance then (true, random)
  else
    let (roll, random) := random.randChance
    (roll < item.rollChance w rate, random)

def addDrawn (w : LootWorld) (usable : Bool) (item : LootRow) (s : Loot × Random) : Loot × Random :=
  if item.currency || ((w.itemTemplate item.itemid).isSome && usable) then
    let (count, random) := s.2.urand item.mincount item.maxcount
    (s.1.addItem w.itemTemplate ⟨item.toLootStoreItem, count, true⟩, random)
  else s

/-- `LootGroupInvalidSelector` -/
def isInvalid (loot : Loot) (lootMode : BitVec 16) (maxDuplicates : Nat) (item : LootRow) : Bool :=
  item.lootmode &&& lootMode == 0 ||
    (0 < maxDuplicates && maxDuplicates ≤ loot.items.countP fun li => li.itemid == item.itemid)

def pickChanced (roll : ℚ) : List LootRow → Option LootRow
  | [] => none
  | item :: items =>
    if 100 ≤ item.chance then some item
    else if roll - item.chance < 0 then some item
    else pickChanced (roll - item.chance) items

def LootGroup.rollChanced (group : LootGroup) (loot : Loot) (lootMode : BitVec 16)
    (maxDuplicates : Nat) (random : Random) : Option LootRow × Random :=
  let possible := group.explicitlyChanced.filter fun item =>
    !isInvalid loot lootMode maxDuplicates item
  if possible.isEmpty then (none, random)
  else
    let (roll, random) := random.randChance
    (pickChanced roll possible, random)

def LootGroup.roll (group : LootGroup) (loot : Loot) (lootMode : BitVec 16) (maxDuplicates : Nat)
    (random : Random) : Option LootRow × Random :=
  match group.rollChanced loot lootMode maxDuplicates random with
  | (some item, random) => (some item, random)
  | (none, random) =>
    let possible := group.equalChanced.filter fun item => !isInvalid loot lootMode maxDuplicates item
    if possible.isEmpty then (none, random)
    else
      let (index, random) := random.urand 0 (possible.length - 1)
      (possible[index]?, random)

def LootGroup.process (w : LootWorld) (lootMode : BitVec 16) (maxDuplicates : Nat) (group : LootGroup)
    (s : Loot × Random) : Loot × Random :=
  match group.roll s.1 lootMode maxDuplicates s.2 with
  | (some item, random) => addDrawn w true item (s.1, random)
  | (none, random) => (s.1, random)

/-- A call of `Process`. The player is asked whether his specialization uses an item. -/
structure ProcessCall where
  template : LootTemplate
  groupId : Nat
  player : Option (Nat → Bool) := none
  specOnly : Bool := false
  loot : Loot
  random : Random

structure LootSetting where
  world : LootWorld
  refs : LootTemplateMap
  rate : Bool
  lootMode : BitVec 16
  maxDuplicates : Nat

namespace LootSetting
variable (g : LootSetting)

def processEntry (call : ProcessCall → Option (Loot × Random)) (usable : Nat → Bool)
    (s : Loot × Random) (item : LootRow) : Option (Loot × Random) :=
  if item.lootmode &&& g.lootMode = 0 then some s
  else
    match item.roll g.world g.rate s.2 with
    | (false, random) => some (s.1, random)
    | (true, random) =>
      if 0 < item.reference then
        match g.refs.lookup item.reference with
        | none => some (s.1, random)
        | some referenced =>
          -- neither the player nor the specialization is passed on
          (List.range (g.world.referencedAmount item.maxcount)).foldlM (fun s _ => call
            { template := referenced, groupId := item.groupid, loot := s.1, random := s.2 })
            (s.1, random)
      else some (addDrawn g.world (usable item.itemid) item (s.1, random))

def processGroups (groups : List (Option LootGroup)) (s : Loot × Random) : Loot × Random :=
  groups.foldl (fun s group =>
    match group with
    | some group => group.process g.world g.lootMode g.maxDuplicates s
    | none => s) s

/-- `LootTemplate::Process`, its nested calls answered by `call`. -/
def processBody (call : ProcessCall → Option (Loot × Random)) (c : ProcessCall) :
    Option (Loot × Random) :=
  if 0 < c.groupId then
    match c.template.groups[c.groupId - 1]? with
    | some (some group) =>
      some (group.process g.world g.lootMode g.maxDuplicates (c.loot, c.random))
    | _ => some (c.loot, c.random)
  else
    let usable := fun itemid => !c.specOnly || c.player.all (· itemid)
    (c.template.entries.foldlM (g.processEntry call usable) (c.loot, c.random)).map
      (g.processGroups c.template.groups)

end LootSetting
end Ashamane.Looting
