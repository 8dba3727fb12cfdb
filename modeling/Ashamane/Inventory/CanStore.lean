import Mathlib.Data.Nat.Bitwise

/-! Items, their templates, and what a player carries. -/
namespace Ashamane.Inventory

inductive InventoryResult where
  | ok
  | wrongBagType
  | wrongBagType3
  | cantStack
  | notEquippable
  | itemMaxCount
  | itemMaxLimitCategoryCountExceeded
  | bagInBag
  | destroyNonemptyBag
  | invFull
  | bagFull
  | itemNotFound
  | cantSwap
  | notOwner
  | lootGone
  deriving DecidableEq, Repr

inductive ContainerSubclass where
  | container
  | soul
  | herb
  | enchanting
  | engineering
  | gem
  | mining
  | leatherworking
  | inscription
  | tackle
  | cooking
  | other
  deriving DecidableEq, Repr

inductive QuiverSubclass where
  | quiver
  | ammoPouch
  | other
  deriving DecidableEq, Repr

/-- Class and subclass; the classes that the bags do not tell apart are one. -/
inductive ItemClass where
  | container (subclass : ContainerSubclass)
  | quiver (subclass : QuiverSubclass)
  | other
  deriving DecidableEq, Repr

inductive Bonding where
  | none
  | onAcquire
  | onEquip
  | onUse
  | quest
  deriving DecidableEq, Repr

structure ItemTemplate where
  id : Nat
  cls : ItemClass := .other
  bonding : Bonding := .none
  maxCount : Nat := 0
  stackable : Int := 1
  containerSlots : Nat := 0
  bagFamily : Nat := 0
  itemLimitCategory : Nat := 0
  isCraftingReagent : Bool := false
  gemProperties : Nat := 0
  deriving DecidableEq, Repr

def ItemTemplate.maxStackSize (t : ItemTemplate) : Nat :=
  if t.stackable = 2147483647 ∨ t.stackable ≤ 0 then 0x7FFFFFFF - 1 else t.stackable.toNat

def ItemClass.familyMask : ItemClass → Option Nat
  | .container .soul => some 0x4
  | .container .herb => some 0x20
  | .container .enchanting => some 0x40
  | .container .mining => some 0x400
  | .container .engineering => some 0x80
  | .container .gem => some 0x200
  | .container .leatherworking => some 0x8
  | .container .inscription => some 0x10
  | .container .tackle => some 0x8000
  | .container .cooking => some 0x10000
  | .quiver .quiver => some 0x1
  | .quiver .ammoPouch => some 0x2
  | _ => none

def itemCanGoIntoBag (proto bagProto : ItemTemplate) : Bool :=
  bagProto.cls == .container .container ||
    bagProto.cls.familyMask.any fun mask => proto.bagFamily &&& mask != 0

def maxBagSize : Nat := 36

/-- An item, seen by the player who stores it: `isBindedNotWith` is about him. Items are told
apart by `guid`. A bag has a size. -/
structure Item where
  guid : Nat
  entry : Nat
  count : Nat := 1
  bagSize : Option (Fin (maxBagSize + 1)) := none
  isLootGenerated : Bool := false
  isBindedNotWith : Bool := false
  isInTrade : Bool := false
  isChild : Bool := false
  hasSocket : Bool := false
  gems : List Nat := []
  deriving DecidableEq, Repr

/-- A condition of `conditions` adds to the quantity when it is met. -/
structure ItemLimitCategoryEntry where
  modeHave : Bool
  quantity : Nat
  conditions : List (Nat × Nat)
  deriving DecidableEq, Repr

structure Stores where
  itemTemplate : Nat → Option ItemTemplate
  itemLimitCategory : Nat → Option ItemLimitCategoryEntry
  id_eq : ∀ entry proto, itemTemplate entry = some proto → proto.id = entry

instance neZeroSlots : NeZero 25 := ⟨by decide⟩

/-- `bagSlots` holds the contents of the bags, by the guid of the bag. The number of slots in the
backpack is checked when it is set. -/
structure Player where
  items : Nat → Option Item
  bagSlots : Nat → Nat → Option Item
  inventorySlotCount : Fin 25
  hasUnlockedReagentBank : Bool
  meetsCondition : Nat → Bool

/-! The places: `bag` 255 stands for what is not in a bag. -/
def inventorySlotBag0 : Nat := 255
def nullBag : Nat := 0
def nullSlot : Nat := 255
def equipmentSlotEnd : Nat := 19
def inventorySlotBagStart : Nat := 19
def inventorySlotBagEnd : Nat := 23
def inventorySlotItemStart : Nat := 23
def bankSlotItemStart : Nat := 47
def bankSlotItemEnd : Nat := 75
def bankSlotBagStart : Nat := 75
def bankSlotBagEnd : Nat := 82
def buybackSlotStart : Nat := 82
def buybackSlotEnd : Nat := 94
def reagentSlotStart : Nat := 94
def reagentSlotEnd : Nat := 192
def childEquipmentSlotStart : Nat := 192
def childEquipmentSlotEnd : Nat := 195
def playerSlotEnd : Nat := 195

/-- `for (i = a; i < b; ++i)` -/
def slots (a b : Nat) : List Nat := List.range' a (b - a)

def isBagPos (bag slot : Nat) : Bool :=
  bag == inventorySlotBag0 &&
    ((inventorySlotBagStart ≤ slot && slot < inventorySlotBagEnd) ||
      (bankSlotBagStart ≤ slot && slot < bankSlotBagEnd))

def isEquipmentPos (bag slot : Nat) : Bool :=
  bag == inventorySlotBag0 &&
    (slot < equipmentSlotEnd || (inventorySlotBagStart ≤ slot && slot < inventorySlotBagEnd))

def isChildEquipmentPos (bag slot : Nat) : Bool :=
  bag == inventorySlotBag0 && childEquipmentSlotStart ≤ slot && slot < childEquipmentSlotEnd

namespace Item

def canBeMergedPartlyWith (it : Item) (proto : ItemTemplate) : InventoryResult :=
  if it.isLootGenerated then .lootGone
  else if it.entry ≠ proto.id then .cantStack
  else if it.count ≥ proto.maxStackSize then .cantStack
  else .ok

def getGemCountWithID (it : Item) (gem : Nat) : Nat := it.gems.count gem % 2 ^ 8

end Item

def same (a b : Option Item) : Bool := a.map Item.guid == b.map Item.guid

namespace Player

def inventoryEnd (p : Player) : Nat := inventorySlotItemStart + p.inventorySlotCount

def getItem (p : Player) (slot : Nat) : Option Item :=
  if slot < playerSlotEnd ∧ (slot < buybackSlotStart ∨ buybackSlotEnd ≤ slot) then p.items slot
  else none

def getBagByPos (p : Player) (bag : Nat) : Option (Item × Nat) :=
  if (inventorySlotBagStart ≤ bag ∧ bag < inventorySlotBagEnd) ∨
      (bankSlotBagStart ≤ bag ∧ bag < bankSlotBagEnd) then do
    let it ← p.getItem bag
    let size ← it.bagSize
    return (it, size)
  else none

def getItemByPos (p : Player) (bag slot : Nat) : Option Item :=
  if bag = inventorySlotBag0 then p.getItem slot
  else
    match p.getBagByPos bag with
    | some (it, size) => if slot < size then p.bagSlots it.guid slot else none
    | none => none

def isNotEmptyBag (p : Player) (it : Item) : Bool :=
  it.bagSize.any fun size => (List.range size).any fun slot => (p.bagSlots it.guid slot).isSome

/-- Sums over the items of `slots` that are not the one to skip. -/
def total (items : List (Option Item)) (skipItem : Option Item) (f : Item → Nat) : Nat :=
  (items.map fun it => if same it skipItem then 0 else (it.map f).getD 0).sum

def range (p : Player) (a b : Nat) : List (Option Item) := (slots a b).map p.getItem

def bags (p : Player) (a b : Nat) : List (Option Item) :=
  (slots a b).flatMap fun bag =>
    match p.getBagByPos bag with
    | some (it, size) => (List.range size).map (p.bagSlots it.guid)
    | none => []

/-- Everything that `GetItemCount` and `GetItemCountWithLimitCategory` go through. -/
def allItems (p : Player) : List (Option Item) :=
  p.range 0 p.inventoryEnd ++ p.bags inventorySlotBagStart inventorySlotBagEnd ++
    p.range bankSlotItemStart bankSlotBagEnd ++ p.bags bankSlotBagStart bankSlotBagEnd ++
    p.range reagentSlotStart reagentSlotEnd ++ p.range childEquipmentSlotStart childEquipmentSlotEnd

/-- Where gems are looked for: all but the bags in the bank themselves. -/
def allSocketed (p : Player) : List (Option Item) :=
  p.range 0 p.inventoryEnd ++ p.bags inventorySlotBagStart inventorySlotBagEnd ++
    p.range bankSlotItemStart bankSlotItemEnd ++ p.bags bankSlotBagStart bankSlotBagEnd ++
    p.range reagentSlotStart reagentSlotEnd ++ p.range childEquipmentSlotStart childEquipmentSlotEnd

/-- `GetItemCount` with the bank: the items of the entry, and where the item to skip is a gem
the gems in sockets. -/
def getItemCount (p : Player) (stores : Stores) (entry : Nat) (skipItem : Option Item) : Nat :=
  let isGem := (skipItem.bind fun it => stores.itemTemplate it.entry).any (·.gemProperties != 0)
  (total p.allItems skipItem (fun it => if it.entry = entry then it.count else 0) +
    if isGem then
      total p.allSocketed skipItem fun it => if it.hasSocket then it.getGemCountWithID entry else 0
    else 0) % 2 ^ 32

def getItemCountWithLimitCategory (p : Player) (stores : Stores) (limitCategory : Nat)
    (skipItem : Option Item) : Nat :=
  total p.allItems skipItem
    (fun it => match stores.itemTemplate it.entry with
      | some proto => if proto.itemLimitCategory = limitCategory then it.count else 0
      | none => 0) % 2 ^ 32

def getItemLimitCategoryQuantity (p : Player) (limit : ItemLimitCategoryEntry) : Nat :=
  limit.conditions.foldl
    (fun n c => if p.meetsCondition c.1 then (n + c.2) % 2 ^ 8 else n) limit.quantity

/-- The result and what is written to `no_space_count`. -/
def canTakeMoreSimilarItems (p : Player) (stores : Stores) (entry count : Nat)
    (pItem : Option Item) : InventoryResult × Option Nat :=
  match stores.itemTemplate entry with
  | none => (.itemMaxCount, some count)
  | some proto =>
    if pItem.any Item.isLootGenerated then (.lootGone, none)
    else if (proto.maxCount = 0 ∧ proto.itemLimitCategory = 0) ∨ proto.maxCount = 2147483647 then
      (.ok, none)
    else
      let curcount := p.getItemCount stores proto.id pItem
      if proto.maxCount > 0 ∧ (curcount + count) % 2 ^ 32 > proto.maxCount then
        (.itemMaxCount, some ((count + curcount) % 2 ^ 32 - proto.maxCount))
      else if proto.itemLimitCategory ≠ 0 then
        match stores.itemLimitCategory proto.itemLimitCategory with
        | none => (.notEquippable, some count)
        | some limit =>
          let limitQuantity := p.getItemLimitCategoryQuantity limit
          let curcount := p.getItemCountWithLimitCategory stores proto.itemLimitCategory pItem
          if limit.modeHave ∧ (curcount + count) % 2 ^ 32 > limitQuantity then
            (.itemMaxLimitCategoryCountExceeded, some ((count + curcount) % 2 ^ 32 - limitQuantity))
          else (.ok, none)
      else (.ok, none)

end Player

end Ashamane.Inventory

/-! Where an item can be stored: `CanStoreItem` with the searches it is made of. -/
namespace Ashamane.Inventory

abbrev Place := Nat × Nat

structure ItemPosCount where
  bag : Nat
  slot : Nat
  count : Nat
  deriving DecidableEq, Repr

def ItemPosCount.place (e : ItemPosCount) : Place := (e.bag, e.slot)

def ItemPosCount.isContainedIn (e : ItemPosCount) (vec : List ItemPosCount) : Bool :=
  vec.any fun e' => e'.bag == e.bag && e'.slot == e.slot

/-- `dest` and the count that is left, which the searches share. -/
structure Storing where
  dest : List ItemPosCount
  count : Nat
  deriving DecidableEq, Repr

def Storing.push (s : Storing) (bag slot needSpace : Nat) : Storing :=
  let newPosition : ItemPosCount := ⟨bag, slot, min needSpace s.count⟩
  if newPosition.isContainedIn s.dest then s
  else ⟨s.dest ++ [newPosition], s.count - newPosition.count⟩

/-- What comes back from `CanStoreItem`; `noSpaceCount` is what it writes there, if it does. -/
structure Outcome where
  result : InventoryResult
  dest : List ItemPosCount
  noSpaceCount : Option Nat
  deriving DecidableEq, Repr

namespace Player

variable (p : Player) (stores : Stores) (proto : ItemTemplate) (pSrcItem : Option Item)

def itemAt (bag slot : Nat) : Option Item :=
  let it := p.getItemByPos bag slot
  if same it pSrcItem then none else it

def canStoreItemInSpecificSlot (bag slot : Nat) (swap : Bool) (s : Storing) :
    InventoryResult × Storing :=
  if pSrcItem.any p.isNotEmptyBag && ! isBagPos bag slot then (.destroyNonemptyBag, s)
  else if pSrcItem.any (·.isChild) && ! isEquipmentPos bag slot && ! isChildEquipmentPos bag slot then
    (.wrongBagType3, s)
  else if pSrcItem.any (! ·.isChild) && isChildEquipmentPos bag slot then (.wrongBagType3, s)
  else
    match p.itemAt pSrcItem bag slot, swap with
    | some it, false =>
      -- non empty slot, check item type
      let res := it.canBeMergedPartlyWith proto
      if res ≠ .ok then (res, s) else (.ok, s.push bag slot (proto.maxStackSize - it.count))
    | _, _ =>
      -- empty specific slot, check that the item fits
      if bag = inventorySlotBag0 then
        if (buybackSlotStart ≤ slot ∧ slot < buybackSlotEnd) ∨ slot ≥ playerSlotEnd then
          (.wrongBagType, s)
        else (.ok, s.push bag slot proto.maxStackSize)
      else
        match (p.getBagByPos bag).bind fun b => stores.itemTemplate b.1.entry with
        | none => (.wrongBagType, s)
        | some bagProto =>
          if slot ≥ bagProto.containerSlots then (.wrongBagType, s)
          else if ! itemCanGoIntoBag proto bagProto then (.wrongBagType, s)
          else (.ok, s.push bag slot proto.maxStackSize)

def fillSlots (bag : Nat) (skip : Nat → Bool) (merge : Bool) : List Nat → Storing → Storing
  | [], s => s
  | j :: l, s =>
    let it := p.itemAt pSrcItem bag j
    if skip j || it.isSome != merge || it.any (·.canBeMergedPartlyWith proto != .ok) then
      fillSlots bag skip merge l s
    else
      let s' := s.push bag j (proto.maxStackSize - (it.map Item.count).getD 0)
      if s' ≠ s ∧ s'.count = 0 then s' else fillSlots bag skip merge l s'

def canStoreItemInBag (bag : Nat) (merge nonSpecialized : Bool) (skipBag skipSlot : Nat)
    (s : Storing) : InventoryResult × Storing :=
  if bag = skipBag then (.wrongBagType, s)
  else
    match p.getBagByPos bag with
    | none => (.wrongBagType, s)
    | some (pBag, size) =>
      if same (some pBag) pSrcItem then (.wrongBagType, s)
      else if pSrcItem.any p.isNotEmptyBag then (.destroyNonemptyBag, s)
      else if pSrcItem.any (·.isChild) then (.wrongBagType3, s)
      else
        match stores.itemTemplate pBag.entry with
        | none => (.wrongBagType, s)
        | some bagProto =>
          if nonSpecialized != (bagProto.cls == .container .container) then (.wrongBagType, s)
          else if ! itemCanGoIntoBag proto bagProto then (.wrongBagType, s)
          else (.ok, p.fillSlots proto pSrcItem bag (· == skipSlot) merge (List.range size) s)

def canStoreItemInInventorySlots (slotBegin slotEnd : Nat) (merge : Bool) (skipBag skipSlot : Nat)
    (s : Storing) : InventoryResult × Storing :=
  if pSrcItem.any p.isNotEmptyBag then (.destroyNonemptyBag, s)
  else
    (.ok, p.fillSlots proto pSrcItem inventorySlotBag0
      (fun j => inventorySlotBag0 == skipBag && j == skipSlot) merge (slots slotBegin slotEnd) s)

end Player

def stored (noSimilarCount : Nat) (s : Storing) : Outcome :=
  if noSimilarCount = 0 then ⟨.ok, s.dest, none⟩
  else ⟨.itemMaxCount, s.dest, some ((s.count + noSimilarCount) % 2 ^ 32)⟩

/-- What follows a search: an error or a count of 0 leaves `CanStoreItem`. -/
def attempt (noSimilarCount : Nat) (r : InventoryResult × Storing) : Except Outcome Storing :=
  if r.1 ≠ .ok then .error ⟨r.1, r.2.dest, some ((r.2.count + noSimilarCount) % 2 ^ 32)⟩
  else if r.2.count = 0 then .error (stored noSimilarCount r.2)
  else .ok r.2

def attemptBag (noSimilarCount : Nat) (r : InventoryResult × Storing) : Except Outcome Storing :=
  if r.1 ≠ .ok then .ok r.2 else attempt noSimilarCount r

def onlyIf (cond : Bool) (f : Storing → Except Outcome Storing) (s : Storing) :
    Except Outcome Storing :=
  if cond then f s else .ok s

namespace Player

/-- The arguments of `CanStoreItem`, with the template and the count that may not be stored. -/
structure Request where
  bag : Nat
  slot : Nat
  proto : ItemTemplate
  pItem : Option Item
  swap : Bool
  removeFromBank : Bool
  noSimilarCount : Nat

variable (p : Player) (stores : Stores) (q : Request)

def inventory (slotBegin slotEnd : Nat) (merge : Bool) (s : Storing) : Except Outcome Storing :=
  attempt q.noSimilarCount
    (p.canStoreItemInInventorySlots q.proto q.pItem slotBegin slotEnd merge q.bag q.slot s)

def wornBags (merge nonSpecialized : Bool) (s : Storing) : Except Outcome Storing :=
  (slots inventorySlotBagStart inventorySlotBagEnd).foldlM
    (fun s bag => attemptBag q.noSimilarCount
      (p.canStoreItemInBag stores q.proto q.pItem bag merge nonSpecialized q.bag q.slot s)) s

def thisBag (merge : Bool) (s : Storing) : Except Outcome Storing :=
  let r := p.canStoreItemInBag stores q.proto q.pItem q.bag merge false nullBag q.slot s
  attempt q.noSimilarCount
    (if r.1 ≠ .ok then
      p.canStoreItemInBag stores q.proto q.pItem q.bag merge true nullBag q.slot r.2
    else r)

def ownSlots (s : Storing) : Except Outcome Storing :=
  if q.pItem.any (·.isChild) then
    p.inventory q childEquipmentSlotStart childEquipmentSlotEnd false s
  else
    onlyIf (! q.removeFromBank && q.proto.isCraftingReagent && p.hasUnlockedReagentBank)
      (p.inventory q reagentSlotStart reagentSlotEnd false) s

def inSpecificSlot : Storing → Except Outcome Storing :=
  onlyIf (q.bag != nullBag && q.slot != nullSlot) fun s => attempt q.noSimilarCount
    (p.canStoreItemInSpecificSlot stores q.proto q.pItem q.bag q.slot q.swap s)

def inSpecificBag (s : Storing) : Except Outcome Storing :=
  if q.bag = nullBag then .ok s
  else if q.bag = inventorySlotBag0 then do
    let s ← onlyIf (q.proto.maxStackSize != 1) (fun s => do
      let s ← p.inventory q childEquipmentSlotStart childEquipmentSlotEnd true s
      let s ← p.inventory q reagentSlotStart reagentSlotEnd true s
      p.inventory q inventorySlotItemStart p.inventoryEnd true s) s
    let s ← p.ownSlots q s
    p.inventory q inventorySlotItemStart p.inventoryEnd false s
  else do
    let s ← onlyIf (q.proto.maxStackSize != 1) (p.thisBag stores q true) s
    p.thisBag stores q false s

def inStacks : Storing → Except Outcome Storing :=
  onlyIf (q.proto.maxStackSize != 1) fun s => do
    let s ← p.inventory q childEquipmentSlotStart childEquipmentSlotEnd true s
    let s ← onlyIf (! q.removeFromBank) (p.inventory q reagentSlotStart reagentSlotEnd true) s
    let s ← p.inventory q inventorySlotItemStart p.inventoryEnd true s
    let s ← onlyIf (q.proto.bagFamily != 0) (p.wornBags stores q true false) s
    p.wornBags stores q true true s

def searchSlotStart : Nat :=
  if q.pItem.isNone ∧ q.proto.cls = .container .container ∧
      (q.proto.bonding = .none ∨ q.proto.bonding = .onAcquire) then inventorySlotBagStart
  else inventorySlotItemStart

def notIntoBag (s : Storing) : Except Outcome Storing :=
  if q.pItem.any p.isNotEmptyBag then .error ⟨.bagInBag, s.dest, none⟩ else .ok s

def inFreeSlots (s : Storing) : Except Outcome Storing := do
  let s ← onlyIf (q.proto.bagFamily != 0) (p.wornBags stores q false false) s
  let s ← p.notIntoBag q s
  let s ← p.ownSlots q s
  let s ← p.inventory q (searchSlotStart q) p.inventoryEnd false s
  p.wornBags stores q false true s

def search (s : Storing) : Except Outcome Storing := do
  let s ← p.inSpecificSlot stores q s
  let s ← p.inSpecificBag stores q s
  let s ← p.inStacks stores q s
  p.inFreeSlots stores q s

def canStoreItem (bag slot : Nat) (dest : List ItemPosCount) (entry count : Nat)
    (pItem : Option Item) (swap removeFromBank : Bool) : Outcome :=
  match stores.itemTemplate entry with
  | none => ⟨if swap then .cantSwap else .itemNotFound, dest, some count⟩
  | some proto =>
    if pItem.any (·.isLootGenerated) then ⟨.lootGone, dest, some count⟩
    else if pItem.any (·.isBindedNotWith) then ⟨.notOwner, dest, some count⟩
    else
      let (res, noSpace) := p.canTakeMoreSimilarItems stores entry count pItem
      let noSimilarCount := noSpace.getD 0
      if res ≠ .ok ∧ count = noSimilarCount then ⟨res, dest, some noSimilarCount⟩
      else
        -- the subtraction of two 32-bit numbers
        let left := if res ≠ .ok then (count + 2 ^ 32 - noSimilarCount) % 2 ^ 32 else count
        let q : Request := ⟨bag, slot, proto, pItem, swap, removeFromBank, noSimilarCount⟩
        match p.search stores q ⟨dest, left⟩ with
        | .error o => o
        | .ok s => ⟨.invFull, s.dest, some ((s.count + noSimilarCount) % 2 ^ 32)⟩

end Player

end Ashamane.Inventory
