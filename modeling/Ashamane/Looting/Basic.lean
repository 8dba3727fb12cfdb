import Ashamane.Lib.Assoc
import Mathlib.Data.List.Basic

/-! A generated loot: its items, the copies of special items that each looter
carries, and the path by which a player takes a slot. -/
namespace Ashamane.Looting

open Ashamane.Lib

abbrev ObjectGuid := Nat

def maxNrLootItems : Nat := 16
def maxNrQuestItems : Nat := 32

inductive Team where
  | alliance
  | horde
  deriving DecidableEq, Repr

inductive LootMethod where
  | freeForAll
  | roundRobin
  | masterLoot
  | groupLoot
  | needBeforeGreed
  | personalLoot
  deriving DecidableEq, Repr

structure ItemTemplate where
  maxStackSize : Nat
  multiDrop : Bool
  followLootRules : Bool
  hideUnusableRecipe : Bool
  factionHorde : Bool
  factionAlliance : Bool
  ignoreQuestStatus : Bool
  isCurrencyToken : Bool
  requiredSkill : Nat
  recipeSpell : Nat
  startQuest : Nat
  quality : Nat
  deriving DecidableEq, Repr

abbrev ItemStore := Nat → Option ItemTemplate

structure Group where
  lootMethod : LootMethod
  masterLooterGuid : ObjectGuid
  deriving DecidableEq, Repr

structure Player where
  guid : ObjectGuid
  team : Team
  group : Option Group
  hasSkill : Nat → Bool
  hasSpell : Nat → Bool
  questStatusNone : Nat → Bool
  hasQuestForItem : Nat → Bool
  meetToConditions : List Nat → Bool
  /-- `CanStoreNewItem` answers `EQUIP_ERR_OK` for this item id and count. -/
  canStoreNewItem : Nat → Nat → Bool

structure LootStoreItem where
  itemid : Nat
  currency : Bool
  needsQuest : Bool
  conditions : List Nat
  deriving DecidableEq, Repr

structure LootItem where
  itemid : Nat
  conditions : List Nat
  allowedGUIDs : List ObjectGuid
  count : Nat
  currency : Bool
  isLooted : Bool
  isBlocked : Bool
  freeforall : Bool
  isUnderthreshold : Bool
  isCounted : Bool
  needsQuest : Bool
  followLootRules : Bool
  deriving DecidableEq, Repr

namespace LootItem

def new (store : ItemStore) (li : LootStoreItem) : LootItem where
  itemid := li.itemid
  conditions := li.conditions
  allowedGUIDs := []
  count := 0
  currency := li.currency
  isLooted := false
  isBlocked := false
  freeforall := !li.currency && (store li.itemid).any ItemTemplate.multiDrop
  isUnderthreshold := false
  isCounted := false
  needsQuest := !li.currency && li.needsQuest
  followLootRules := !li.currency && (store li.itemid).any ItemTemplate.followLootRules

def allowedForPlayer (store : ItemStore) (item : LootItem) (player : Player) : Bool :=
  if !(item.conditions.isEmpty || player.meetToConditions item.conditions) then false
  else if item.currency then true
  else
    match store item.itemid with
    | none => false
    | some proto =>
      if proto.hideUnusableRecipe &&
          (!player.hasSkill proto.requiredSkill || player.hasSpell proto.recipeSpell) then false
      else if proto.factionHorde && player.team != .horde then false
      else if proto.factionAlliance && player.team != .alliance then false
      else !(!proto.ignoreQuestStatus &&
        ((item.needsQuest || (proto.startQuest != 0 && !player.questStatusNone proto.startQuest)) &&
          !player.hasQuestForItem item.itemid))

def addAllowedLooter (item : LootItem) (player : Player) : LootItem :=
  { item with allowedGUIDs := item.allowedGUIDs.insert player.guid }

end LootItem

structure NotNormalLootItem where
  index : Nat
  isLooted : Bool
  deriving DecidableEq, Repr

abbrev NotNormalLootItemMap := AList fun _ : ObjectGuid => List NotNormalLootItem

/-- The four maps of own copies: `PlayerCurrencies`, `PlayerQuestItems`,
`PlayerFFAItems` and `PlayerNonQuestNonFFAConditionalItems`. -/
inductive ListKind where
  | currency
  | quest
  | ffa
  | conditional
  deriving DecidableEq, Repr

structure Loot where
  items : List LootItem
  questItems : List LootItem
  gold : Nat
  unlootedCount : BitVec 32
  lists : ListKind → NotNormalLootItemMap

structure CopyRef where
  kind : ListKind
  pos : Nat
  deriving DecidableEq, Repr

/-- What `LootItemInSlot` points its caller to: the slot of the item in `items`
followed by `quest_items`, the item, and the own copy if one was met. -/
structure SlotView where
  slot : Nat
  item : LootItem
  copy : Option CopyRef
  deriving DecidableEq, Repr

namespace Loot

def new (gold : Nat) : Loot := ⟨[], [], gold, 0, fun _ => ∅⟩

def getItemInSlot (loot : Loot) (lootSlot : Nat) : Option LootItem :=
  if lootSlot < loot.items.length then loot.items[lootSlot]?
  else loot.questItems[lootSlot - loot.items.length]?

def modifyItem (loot : Loot) (lootSlot : Nat) (f : LootItem → LootItem) : Loot :=
  if lootSlot < loot.items.length then { loot with items := loot.items.modify lootSlot f }
  else { loot with questItems := loot.questItems.modify (lootSlot - loot.items.length) f }

def copies (loot : Loot) (kind : ListKind) (guid : ObjectGuid) : List NotNormalLootItem :=
  ((loot.lists kind).lookup guid).getD []

def setCopies (loot : Loot) (kind : ListKind) (guid : ObjectGuid)
    (ql : List NotNormalLootItem) : Loot :=
  { loot with lists := fun k =>
      if k = kind then (loot.lists kind).insert guid ql else loot.lists k }

def lootCopy (loot : Loot) (guid : ObjectGuid) (c : CopyRef) : Loot :=
  { loot with lists := fun kind =>
      if kind = c.kind then
        Assoc.modify guid (·.modify c.pos ({ · with isLooted := true })) (loot.lists kind)
      else loot.lists kind }

def isLooted (loot : Loot) : Bool := loot.gold == 0 && loot.unlootedCount == 0

/-- The kind of own copies that `LootItemInSlot` searches for an item of `items`. -/
def copyKind (item : LootItem) : Option ListKind :=
  if item.currency then some .currency
  else if item.freeforall then some .ffa
  else if !item.conditions.isEmpty then some .conditional
  else none

theorem copyKind_eq_none {item : LootItem} : copyKind item = none ↔
    item.currency = false ∧ item.freeforall = false ∧ item.conditions.isEmpty = true := by
  cases hc : item.currency <;> cases hf : item.freeforall <;>
    cases he : item.conditions.isEmpty <;> simp [copyKind, hc, hf, he]

theorem copyKind_eq_conditional {item : LootItem} : copyKind item = some .conditional ↔
    item.currency = false ∧ item.freeforall = false ∧ item.conditions.isEmpty = false := by
  cases hc : item.currency <;> cases hf : item.freeforall <;>
    cases he : item.conditions.isEmpty <;> simp [copyKind, hc, hf, he]

theorem copyKind_eq_ffa {item : LootItem} : copyKind item = some .ffa ↔
    item.currency = false ∧ item.freeforall = true := by
  cases hc : item.currency <;> cases hf : item.freeforall <;>
    cases he : item.conditions.isEmpty <;> simp [copyKind, hc, hf, he]

theorem copyKind_eq_currency {item : LootItem} : copyKind item = some .currency ↔
    item.currency = true := by
  cases hc : item.currency <;> cases hf : item.freeforall <;>
    cases he : item.conditions.isEmpty <;> simp [copyKind, hc, hf, he]

theorem copyKind_ne_quest (item : LootItem) : copyKind item ≠ some .quest := by
  cases hc : item.currency <;> cases hf : item.freeforall <;>
    cases he : item.conditions.isEmpty <;> simp [copyKind, hc, hf, he]

/-- The own copy of the item in slot `lootSlot` of `items`: the first in the list. -/
def ownCopy (loot : Loot) (item : LootItem) (lootSlot : Nat) (guid : ObjectGuid) :
    Option (CopyRef × NotNormalLootItem) := do
  let kind ← copyKind item
  let pos ← (loot.copies kind guid).findIdx? (·.index == lootSlot)
  let c ← (loot.copies kind guid)[pos]?
  return (⟨kind, pos⟩, c)

def lootItemInSlot (loot : Loot) (lootSlot : Nat) (player : Player) : Option SlotView :=
  if lootSlot < loot.items.length then do
    let item ← loot.items[lootSlot]?
    match loot.ownCopy item lootSlot player.guid with
    | some (ref, c) => if c.isLooted then none else some ⟨lootSlot, item, some ref⟩
    | none => if item.isLooted then none else some ⟨lootSlot, item, none⟩
  else do
    let pos := lootSlot - loot.items.length
    let c ← (loot.copies .quest player.guid)[pos]?
    let item ← loot.questItems[c.index]?
    if c.isLooted then none
    else some ⟨loot.items.length + c.index, item, some ⟨.quest, pos⟩⟩

end Loot

namespace Loot

variable {store : ItemStore} {loot : Loot} {lootSlot : Nat} {player : Player} {v : SlotView}

theorem ownCopy_cases {item : LootItem} {guid : ObjectGuid} {ref : CopyRef}
    {c : NotNormalLootItem} (h : loot.ownCopy item lootSlot guid = some (ref, c)) :
    copyKind item = some ref.kind ∧ (loot.copies ref.kind guid)[ref.pos]? = some c ∧
      c.index = lootSlot := by
  obtain ⟨kind, hkind, h⟩ := Option.bind_eq_some_iff.mp h
  obtain ⟨pos, hpos, h⟩ := Option.bind_eq_some_iff.mp h
  obtain ⟨c', hc, h⟩ := Option.bind_eq_some_iff.mp h
  cases h
  obtain ⟨hlt, hidx, _⟩ := List.findIdx?_eq_some_iff_getElem.mp hpos
  obtain ⟨_, hget⟩ := List.getElem?_eq_some_iff.mp hc
  exact ⟨hkind, hc, by simpa [hget] using hidx⟩

theorem exists_ownCopy {item : LootItem} {kind : ListKind} {guid : ObjectGuid}
    {c : NotNormalLootItem} (hkind : copyKind item = some kind) (hc : c ∈ loot.copies kind guid)
    (hidx : c.index = lootSlot) :
    ∃ ref c', loot.ownCopy item lootSlot guid = some (ref, c') ∧ ref.kind = kind ∧
      c' ∈ loot.copies kind guid ∧ c'.index = lootSlot := by
  cases hpos : (loot.copies kind guid).findIdx? (·.index == lootSlot) with
  | none =>
    have hne := List.findIdx?_eq_none_iff.mp hpos c hc
    simp [hidx] at hne
  | some pos =>
    obtain ⟨hlt, hidx', _⟩ := List.findIdx?_eq_some_iff_getElem.mp hpos
    refine ⟨⟨kind, pos⟩, (loot.copies kind guid)[pos], ?_, rfl, List.getElem_mem hlt,
      by simpa using hidx'⟩
    simp [ownCopy, hkind, hpos, List.getElem?_eq_getElem hlt]

theorem lootItemInSlot_shared {item : LootItem} (hitem : loot.items[lootSlot]? = some item)
    (hown : loot.ownCopy item lootSlot player.guid = none) (hunlooted : item.isLooted = false) :
    loot.lootItemInSlot lootSlot player = some ⟨lootSlot, item, none⟩ := by
  obtain ⟨hl, _⟩ := List.getElem?_eq_some_iff.mp hitem
  rw [lootItemInSlot, if_pos hl, hitem]
  simp [hown, hunlooted]

theorem lootItemInSlot_own {item : LootItem} {ref : CopyRef} {c : NotNormalLootItem}
    (hitem : loot.items[lootSlot]? = some item)
    (hown : loot.ownCopy item lootSlot player.guid = some (ref, c)) (hopen : c.isLooted = false) :
    loot.lootItemInSlot lootSlot player = some ⟨lootSlot, item, some ref⟩ := by
  obtain ⟨hl, _⟩ := List.getElem?_eq_some_iff.mp hitem
  rw [lootItemInSlot, if_pos hl, hitem]
  simp [hown, hopen]

theorem lootItemInSlot_quest {pos : Nat} {item : LootItem} {c : NotNormalLootItem}
    (hc : (loot.copies .quest player.guid)[pos]? = some c)
    (hitem : loot.questItems[c.index]? = some item) (hopen : c.isLooted = false) :
    loot.lootItemInSlot (loot.items.length + pos) player =
      some ⟨loot.items.length + c.index, item, some ⟨.quest, pos⟩⟩ := by
  rw [lootItemInSlot, if_neg (Nat.not_lt.mpr (Nat.le_add_right _ _))]
  simp [hc, hitem, hopen]

/-- What `LootItemInSlot` can return: an unlooted item of `items` of which the player has
no own copy, an item of `items` of which the own copy is open, or an item of `quest_items`
through an open copy in the quest list. -/
theorem lootItemInSlot_cases (h : loot.lootItemInSlot lootSlot player = some v) :
    (∃ item, loot.items[lootSlot]? = some item ∧
      loot.ownCopy item lootSlot player.guid = none ∧ item.isLooted = false ∧
      v = ⟨lootSlot, item, none⟩) ∨
    (∃ item ref c, loot.items[lootSlot]? = some item ∧
      loot.ownCopy item lootSlot player.guid = some (ref, c) ∧ c.isLooted = false ∧
      v = ⟨lootSlot, item, some ref⟩) ∨
    (∃ item c, loot.items.length ≤ lootSlot ∧
      (loot.copies .quest player.guid)[lootSlot - loot.items.length]? = some c ∧
      loot.questItems[c.index]? = some item ∧ c.isLooted = false ∧
      v = ⟨loot.items.length + c.index, item, some ⟨.quest, lootSlot - loot.items.length⟩⟩) := by
  unfold lootItemInSlot at h
  split at h
  next hl =>
    obtain ⟨item, hitem, h⟩ := Option.bind_eq_some_iff.mp h
    split at h
    next ref c hown =>
      split at h
      · cases h
      next hc =>
        cases h
        exact .inr (.inl ⟨item, ref, c, hitem, hown, by simpa using hc, rfl⟩)
    next hown =>
      split at h
      · cases h
      next hlooted =>
        cases h
        exact .inl ⟨item, hitem, hown, by simpa using hlooted, rfl⟩
  next hl =>
    obtain ⟨c, hc, h⟩ := Option.bind_eq_some_iff.mp h
    obtain ⟨item, hitem, h⟩ := Option.bind_eq_some_iff.mp h
    split at h
    · cases h
    next hopen =>
      cases h
      exact .inr (.inr ⟨item, c, Nat.le_of_not_lt hl, hc, hitem, by simpa using hopen, rfl⟩)

/-- The item that `LootItemInSlot` returns is the item of the slot it points to. -/
theorem getItemInSlot_of_lootItemInSlot (h : loot.lootItemInSlot lootSlot player = some v) :
    loot.getItemInSlot v.slot = some v.item := by
  have hin : ∀ item, loot.items[lootSlot]? = some item →
      loot.getItemInSlot lootSlot = some item := by
    intro item hitem
    obtain ⟨hl, _⟩ := List.getElem?_eq_some_iff.mp hitem
    rw [getItemInSlot, if_pos hl, hitem]
  rcases lootItemInSlot_cases h with ⟨item, hitem, _, _, rfl⟩ | ⟨item, _, _, hitem, _, _, rfl⟩ |
    ⟨item, c, _, _, hitem, _, rfl⟩
  · exact hin item hitem
  · exact hin item hitem
  · rw [getItemInSlot, if_neg (Nat.not_lt.mpr (Nat.le_add_right _ _)), Nat.add_sub_cancel_left]
    exact hitem

end Loot

/-- How a call of `StoreLootItem` ends. -/
inductive Take where
  | refused
  | currency
  | item (slot count : Nat)
  deriving DecidableEq, Repr

namespace Loot

/-- The copy of a quest item: the item's own `is_blocked` has another use there. -/
def isQuestCopy : Option CopyRef → Bool
  | some ⟨.quest, _⟩ => true
  | _ => false

/-- The branch that stores a new item, once `CanStoreNewItem` has agreed. -/
def takeItem (loot : Loot) (v : SlotView) (guid : ObjectGuid) : Loot :=
  let marked := match v.copy with
    | some ref => loot.lootCopy guid ref
    | none => loot
  let done :=
    if v.item.freeforall then marked
    else marked.modifyItem v.slot ({ · with isLooted := true })
  { done with unlootedCount := done.unlootedCount - 1 }

/-- `Player::StoreLootItem`. A count of 0 stores nothing (`CreateItem` returns no item): the source
then reads the quality of the item that is missing, where the model goes on. -/
def storeLootItem (store : ItemStore) (loot : Loot) (lootSlot : Nat) (player : Player) :
    Loot × Take :=
  match loot.lootItemInSlot lootSlot player with
  | none => (loot, .refused)
  | some v =>
    if !v.item.allowedForPlayer store player then (loot, .refused)
    -- questitems use the blocked field for other purposes
    else if !isQuestCopy v.copy && v.item.isBlocked then (loot, .refused)
    else
      match v.copy with
      | some ⟨.currency, pos⟩ =>
        let marked := loot.lootCopy player.guid ⟨.currency, pos⟩
        ({ marked with unlootedCount := marked.unlootedCount - 1 }, .currency)
      | _ =>
        if player.canStoreNewItem v.item.itemid v.item.count then
          (loot.takeItem v player.guid, .item v.slot v.item.count)
        else (loot, .refused)

def CanTake (store : ItemStore) (loot : Loot) (player : Player) (lootSlot : Nat) : Prop :=
  ∃ v, loot.lootItemInSlot lootSlot player = some v ∧
    v.item.allowedForPlayer store player = true ∧
    (isQuestCopy v.copy = true ∨ v.item.isBlocked = false)

/-- A take is refused and changes nothing, or it pays out a currency copy, or it stores the
item of the slot. -/
theorem storeLootItem_cases (store : ItemStore) (loot : Loot) (lootSlot : Nat) (player : Player) :
    loot.storeLootItem store lootSlot player = (loot, .refused) ∨
    ∃ v, loot.lootItemInSlot lootSlot player = some v ∧
      v.item.allowedForPlayer store player = true ∧
      ((∃ pos, v.copy = some ⟨.currency, pos⟩ ∧ loot.storeLootItem store lootSlot player =
          ({ loot.lootCopy player.guid ⟨.currency, pos⟩ with
              unlootedCount := loot.unlootedCount - 1 }, .currency)) ∨
        ((∀ pos, v.copy ≠ some ⟨.currency, pos⟩) ∧
          player.canStoreNewItem v.item.itemid v.item.count = true ∧
          loot.storeLootItem store lootSlot player =
            (loot.takeItem v player.guid, .item v.slot v.item.count))) := by
  unfold storeLootItem
  cases hv : loot.lootItemInSlot lootSlot player with
  | none => exact .inl rfl
  | some v =>
    simp only
    split
    · exact .inl rfl
    next hallowed =>
    split
    · exact .inl rfl
    refine Or.imp_right (fun h => ⟨v, rfl, by simpa using hallowed, h⟩) ?_
    split
    next pos hcopy => exact .inr (.inl ⟨pos, hcopy, rfl⟩)
    next hcopy =>
      split
      next hstore => exact .inr (.inr ⟨hcopy, hstore, rfl⟩)
      · exact .inl rfl

end Loot

section Example

def plainTemplate : ItemTemplate where
  maxStackSize := 1
  multiDrop := false
  followLootRules := false
  hideUnusableRecipe := false
  factionHorde := false
  factionAlliance := false
  ignoreQuestStatus := false
  isCurrencyToken := false
  requiredSkill := 0
  recipeSpell := 0
  startQuest := 0
  quality := 1

def plainStore : ItemStore := fun _ => some plainTemplate

/-- A player of a group with this loot method, master looter 1, on every quest. -/
def questPlayer (guid : ObjectGuid) (method : LootMethod) : Player where
  guid := guid
  team := .alliance
  group := some ⟨method, 1⟩
  hasSkill := fun _ => true
  hasSpell := fun _ => false
  questStatusNone := fun _ => true
  hasQuestForItem := fun _ => true
  meetToConditions := fun _ => true
  canStoreNewItem := fun _ _ => true

end Example

end Ashamane.Looting
