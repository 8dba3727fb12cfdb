import Ashamane.Looting.Basic
import Ashamane.Lib.Run

/-! The generation of a loot and the lists of own copies that each looter gets. -/
namespace Ashamane.Looting

open Ashamane.Lib

structure Drop where
  item : LootStoreItem
  count : Nat
  usable : Bool
  deriving DecidableEq, Repr

namespace Loot

/-- The items of one drop: stacks of at most `maxStackSize`, as long as there is room. -/
def stacksOf (store : ItemStore) (item : LootStoreItem) (count maxStackSize : Nat) :
    List LootItem :=
  (List.range (count / maxStackSize + if count % maxStackSize = 0 then 0 else 1)).map fun i =>
    { LootItem.new store item with count := min (count - i * maxStackSize) maxStackSize }

def addItem (store : ItemStore) (loot : Loot) (drop : Drop) : Loot :=
  let item := drop.item
  let push (l : List LootItem) : Loot :=
    if item.needsQuest then { loot with questItems := loot.questItems ++ l }
    else { loot with items := loot.items ++ l }
  if item.currency then push [{ LootItem.new store item with count := drop.count }]
  else
    match store item.itemid with
    | none => loot
    | some proto =>
      if !drop.usable then loot
      else
        let limit := if item.needsQuest then maxNrQuestItems - loot.questItems.length
          else maxNrLootItems - loot.items.length
        let generated := (stacksOf store item drop.count proto.maxStackSize).take limit
        -- the other kinds are counted when a looter gets a copy of them
        let counted := if !item.needsQuest && item.conditions.isEmpty && !proto.multiDrop
          then generated.length else 0
        { push generated with unlootedCount := loot.unlootedCount + BitVec.ofNat 32 counted }

def process (store : ItemStore) (loot : Loot) (drops : List Drop) : Loot :=
  drops.foldl (addItem store) loot

/-- The copies of all items that meet `listed`, by their position. -/
def copiesOf (listed : LootItem → Bool) (l : List LootItem) : List NotNormalLootItem :=
  (l.zipIdx.filter fun e => listed e.1).map fun e => ⟨e.2, false⟩

def storeCopies (loot : Loot) (kind : ListKind) (guid : ObjectGuid)
    (ql : List NotNormalLootItem) : Loot :=
  if ql.isEmpty then loot else loot.setCopies kind guid ql

def fillCounted (store : ItemStore) (loot : Loot) (kind : ListKind)
    (special : LootItem → Bool) (player : Player) : Loot :=
  let ql := copiesOf (fun item =>
    !item.isLooted && special item && item.allowedForPlayer store player) loot.items
  { loot.storeCopies kind player.guid ql with
    unlootedCount := loot.unlootedCount + BitVec.ofNat 32 ql.length }

def fillCurrencyLoot (store : ItemStore) (loot : Loot) (player : Player) : Loot :=
  loot.fillCounted store .currency LootItem.currency player

def fillFFALoot (store : ItemStore) (loot : Loot) (player : Player) : Loot :=
  loot.fillCounted store .ffa LootItem.freeforall player

/-- Whether the player's quest list shows the item. Under the loot rules of a group it
is shown to those who may not have it, too. -/
def questListed (store : ItemStore) (player : Player) (item : LootItem) : Bool :=
  !item.isLooted && (item.allowedForPlayer store player || (item.followLootRules &&
    match player.group with
    | none => false
    | some group =>
      (group.lootMethod == .masterLoot && group.masterLooterGuid == player.guid) ||
        group.lootMethod != .masterLoot))

def blocksQuestItem (player : Player) : Bool :=
  match player.group with
  | none => true
  | some group => group.lootMethod != .groupLoot

/-- The loop of `FillQuestLoot` from quest item `i` on, with `n` items listed so far: the
quest items, the list, and how many of the list are counted. -/
def fillQuestFrom (store : ItemStore) (player : Player) (size : Nat) :
    List LootItem → Nat → Nat → List LootItem × List NotNormalLootItem × Nat
  | [], _, _ => ([], [], 0)
  | item :: rest, i, n =>
    if questListed store player item then
      let counted := if item.freeforall || !item.isBlocked then 1 else 0
      let item' := { item with isBlocked := item.isBlocked || blocksQuestItem player }
      if size + (n + 1) = maxNrLootItems then (item' :: rest, [⟨i, false⟩], counted)
      else
        let r := fillQuestFrom store player size rest (i + 1) (n + 1)
        (item' :: r.1, ⟨i, false⟩ :: r.2.1, counted + r.2.2)
    else
      let r := fillQuestFrom store player size rest (i + 1) n
      (item :: r.1, r.2)

def fillQuestLoot (store : ItemStore) (loot : Loot) (player : Player) : Loot :=
  if loot.items.length = maxNrLootItems then loot
  else
    let r := fillQuestFrom store player loot.items.length loot.questItems 0 0
    { { loot with questItems := r.1 }.storeCopies .quest player.guid r.2.1 with
      unlootedCount := loot.unlootedCount + BitVec.ofNat 32 r.2.2 }

/-- The items that `FillNonQuestNonFFAConditionalLoot` stops at. -/
def conditionalHit (store : ItemStore) (player : Player) (item : LootItem) : Bool :=
  !item.isLooted && !item.freeforall && item.allowedForPlayer store player

def visitConditional (store : ItemStore) (player : Player) (presentAtLooting : Bool)
    (item : LootItem) : LootItem :=
  if conditionalHit store player item then
    let item := if presentAtLooting then item.addAllowedLooter player else item
    if item.conditions.isEmpty then item else { item with isCounted := true }
  else item

def fillNonQuestNonFFAConditionalLoot (store : ItemStore) (loot : Loot) (player : Player)
    (presentAtLooting : Bool) : Loot :=
  let listed (item : LootItem) := conditionalHit store player item && !item.conditions.isEmpty
  let ql := copiesOf listed loot.items
  let visited := loot.items.map (visitConditional store player presentAtLooting)
  { { loot with items := visited }.storeCopies .conditional player.guid ql with
    unlootedCount := loot.unlootedCount +
      BitVec.ofNat 32 (loot.items.countP fun item => listed item && !item.isCounted) }

def ifMissing (loot : Loot) (kind : ListKind) (guid : ObjectGuid) (filled : Loot) : Loot :=
  if ((loot.lists kind).lookup guid).isNone then filled else loot

def fillLists (store : ItemStore) (loot : Loot) (player : Player) (presentAtLooting : Bool) :
    Loot :=
  let loot := loot.ifMissing .currency player.guid (loot.fillCurrencyLoot store player)
  let loot := loot.ifMissing .quest player.guid (loot.fillQuestLoot store player)
  let loot := loot.ifMissing .ffa player.guid (loot.fillFFALoot store player)
  loot.ifMissing .conditional player.guid
    (loot.fillNonQuestNonFFAConditionalLoot store player presentAtLooting)

def maxSlotInLootFor (loot : Loot) (guid : ObjectGuid) : Nat :=
  loot.items.length + (loot.copies .quest guid).length

/-- Whether slot `i` is taken for the player at once. -/
def autoStored (store : ItemStore) (loot : Loot) (player : Player) (i : Nat) : Bool :=
  (loot.getItemInSlot i).any fun item =>
    !item.isLooted && item.freeforall && item.allowedForPlayer store player &&
      (store item.itemid).any ItemTemplate.isCurrencyToken

/-- What the player's bags answer when slot `i` is tried. -/
def playerAt (player : Player) (canStore : Nat → Nat → Nat → Bool) (i : Nat) : Player :=
  { player with canStoreNewItem := canStore i }

def autoStore (store : ItemStore) (player : Player) (canStore : Nat → Nat → Nat → Bool) :
    List Nat → Loot → Loot
  | [], loot => loot
  | i :: rest, loot =>
    if autoStored store loot player i then
      autoStore store player canStore rest
        (loot.storeLootItem store i (playerAt player canStore i)).1
    else autoStore store player canStore rest loot

def fillNotNormalLootFor (store : ItemStore) (loot : Loot) (player : Player)
    (presentAtLooting : Bool) (canStore : Nat → Nat → Nat → Bool) : Loot :=
  let filled := loot.fillLists store player presentAtLooting
  if presentAtLooting then
    autoStore store player canStore (List.range (filled.maxSlotInLootFor player.guid)) filled
  else filled

def markUnderthreshold (store : ItemStore) (loot : Loot) (threshold : Nat) : Loot :=
  { loot with items := loot.items.map fun item =>
      if (store item.itemid).any (·.quality < threshold) then
        { item with isUnderthreshold := true }
      else item }

/-- A group member as `FillLoot` meets it. -/
structure Looter where
  player : Player
  atGroupRewardDistance : Bool
  canStore : Nat → Nat → Nat → Bool

/-- `Loot::FillLoot` with the drops chosen by the template: for the owner alone, or for
the members of the owner's group. -/
def fillLoot (store : ItemStore) (loot : Loot) (drops : List Drop) (owner : Looter)
    (group : Option (List Looter × Nat)) : Loot :=
  let loot := loot.process store drops
  match group with
  | none => loot.fillNotNormalLootFor store owner.player true owner.canStore
  | some (members, threshold) =>
    (members.foldl (fun loot (m : Looter) =>
      loot.fillNotNormalLootFor store m.player m.atGroupRewardDistance m.canStore) loot
      ).markUnderthreshold store threshold

end Loot

inductive Op where
  | fillLists (player : Player) (presentAtLooting : Bool)
  | markUnderthreshold (threshold : Nat)
  | take (player : Player) (lootSlot : Nat)

def Op.apply (store : ItemStore) (loot : Loot) : Op → Loot
  | .fillLists player presentAtLooting => loot.fillLists store player presentAtLooting
  | .markUnderthreshold threshold => loot.markUnderthreshold store threshold
  | .take player lootSlot => (loot.storeLootItem store lootSlot player).1

def Op.Step (store : ItemStore) (loot : Loot) (op : Op) (loot' : Loot) : Prop :=
  loot' = op.apply store loot

namespace Loot

variable (store : ItemStore)

theorem autoStore_run (player : Player) (canStore : Nat → Nat → Nat → Bool) (l : List Nat)
    (loot : Loot) :
    ∃ ops, Run (Op.Step store) always loot ops (autoStore store player canStore l loot) := by
  induction l generalizing loot with
  | nil => exact ⟨[], .nil loot⟩
  | cons i rest ih =>
    simp only [autoStore]
    split
    · obtain ⟨ops, hrun⟩ := ih (loot.storeLootItem store i (playerAt player canStore i)).1
      have htake : Op.Step store loot (.take (playerAt player canStore i) i)
          (loot.storeLootItem store i (playerAt player canStore i)).1 := rfl
      exact ⟨_, .cons trivial htake hrun⟩
    · exact ih loot

theorem fillNotNormalLootFor_run (loot : Loot) (player : Player) (presentAtLooting : Bool)
    (canStore : Nat → Nat → Nat → Bool) :
    ∃ ops, Run (Op.Step store) always loot ops
      (loot.fillNotNormalLootFor store player presentAtLooting canStore) := by
  have hlists : Op.Step store loot (.fillLists player presentAtLooting)
      (loot.fillLists store player presentAtLooting) := rfl
  simp only [fillNotNormalLootFor]
  split
  · obtain ⟨ops, hrun⟩ := autoStore_run store player canStore
      (List.range ((loot.fillLists store player presentAtLooting).maxSlotInLootFor player.guid))
      (loot.fillLists store player presentAtLooting)
    exact ⟨_, .cons trivial hlists hrun⟩
  · exact ⟨_, .cons trivial hlists (.nil _)⟩

theorem members_run (members : List Looter) (loot : Loot) :
    ∃ ops, Run (Op.Step store) always loot ops
      (members.foldl (fun loot (m : Looter) =>
        loot.fillNotNormalLootFor store m.player m.atGroupRewardDistance m.canStore) loot) := by
  induction members generalizing loot with
  | nil => exact ⟨[], .nil loot⟩
  | cons m rest ih =>
    obtain ⟨ops, hrun⟩ := fillNotNormalLootFor_run store loot m.player
      m.atGroupRewardDistance m.canStore
    obtain ⟨ops', hrest⟩ := ih (loot.fillNotNormalLootFor store m.player
      m.atGroupRewardDistance m.canStore)
    exact ⟨ops ++ ops', hrun.append hrest⟩

/-- `FillLoot` is the generation of the items and a run of operations on them. -/
theorem fillLoot_run (loot : Loot) (drops : List Drop) (owner : Looter)
    (group : Option (List Looter × Nat)) :
    ∃ ops, Run (Op.Step store) always (loot.process store drops) ops
      (loot.fillLoot store drops owner group) := by
  unfold fillLoot
  cases group with
  | none =>
    exact fillNotNormalLootFor_run store (loot.process store drops) owner.player true owner.canStore
  | some g =>
    obtain ⟨members, threshold⟩ := g
    obtain ⟨ops, hrun⟩ := members_run store members (loot.process store drops)
    have hmark : Op.Step store _ (.markUnderthreshold threshold)
        ((members.foldl (fun loot (m : Looter) =>
          loot.fillNotNormalLootFor store m.player m.atGroupRewardDistance m.canStore)
            (loot.process store drops)).markUnderthreshold store threshold) := rfl
    exact ⟨_, hrun.append (.cons trivial hmark (.nil _))⟩

end Loot

end Ashamane.Looting
