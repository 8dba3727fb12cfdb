import Ashamane.Looting.Fill

/-! The loop of `AddItem`, with its counters as wide as the code has them. -/
namespace Ashamane.Looting

/-- `GetMaxStackSize`, from the column `Stackable`. -/
def getMaxStackSize (stackable : Int) : Nat :=
  if stackable = 2147483647 ∨ stackable ≤ 0 then 0x7FFFFFFF - 1 else stackable.toNat

theorem getMaxStackSize_pos (stackable : Int) : 0 < getMaxStackSize stackable := by
  unfold getMaxStackSize
  split <;> omega

namespace Loot

def addStacks (store : ItemStore) (item : LootStoreItem) (proto : ItemTemplate) (limit : Nat) :
    Nat → BitVec 32 → List LootItem × BitVec 32 → List LootItem × BitVec 32
  | 0, _, r => r
  | rounds + 1, count, (lootItems, unlootedCount) =>
    if lootItems.length < limit then
      let generatedLoot :=
        { LootItem.new store item with count := min count.toNat proto.maxStackSize }
      addStacks store item proto limit rounds (count - BitVec.ofNat 32 proto.maxStackSize)
        (lootItems ++ [generatedLoot],
          if !item.needsQuest && item.conditions.isEmpty && !proto.multiDrop then
            unlootedCount + 1 else unlootedCount)
    else (lootItems, unlootedCount)

def listFor (loot : Loot) (item : LootStoreItem) : List LootItem :=
  if item.needsQuest then loot.questItems else loot.items

def limitFor (item : LootStoreItem) : Nat :=
  if item.needsQuest then maxNrQuestItems else maxNrLootItems

def setListFor (loot : Loot) (item : LootStoreItem) (lootItems : List LootItem) : Loot :=
  if item.needsQuest then { loot with questItems := lootItems } else { loot with items := lootItems }

/-- `AddItem` as its loop runs, for the count that is drawn. -/
def addItemLoop (store : ItemStore) (loot : Loot) (item : LootStoreItem) (count : BitVec 32)
    (usable : Bool) : Loot :=
  if item.currency then
    loot.setListFor item
      (loot.listFor item ++ [{ LootItem.new store item with count := count.toNat }])
  else
    match store item.itemid with
    | none => loot
    | some proto =>
      if !usable then loot
      else
        let stackCount := count.toNat / proto.maxStackSize +
          if count.toNat % proto.maxStackSize = 0 then 0 else 1
        let r := addStacks store item proto (limitFor item) stackCount count
          (loot.listFor item, loot.unlootedCount)
        { loot.setListFor item r.1 with unlootedCount := r.2 }

structure Stacked (loot loot' : Loot) (item : LootStoreItem) (count maxStackSize : Nat) : Prop where
  added : ∃ added, loot'.listFor item = loot.listFor item ++ added ∧
    (∀ s ∈ added, s.itemid = item.itemid ∧ 0 < s.count ∧ s.count ≤ maxStackSize) ∧
    ((added.map LootItem.count).sum = count ∨
      limitFor item ≤ (loot'.listFor item).length ∧ (added.map LootItem.count).sum ≤ count) ∧
    loot'.unlootedCount = loot.unlootedCount + BitVec.ofNat 32 (added.countP fun s =>
      !s.freeforall && s.conditions.isEmpty && !s.needsQuest)
  frame : loot'.setListFor item (loot.listFor item) =
    { loot with unlootedCount := loot'.unlootedCount }

/-- The number of rounds is the number of stacks that are needed. -/
theorem rounds_spec {count maxStackSize : Nat} (hmax : 0 < maxStackSize) :
    let rounds := count / maxStackSize + if count % maxStackSize = 0 then 0 else 1
    count ≤ rounds * maxStackSize ∧ (rounds ≠ 0 → (rounds - 1) * maxStackSize < count) := by
  have hsplit := Nat.div_add_mod' count maxStackSize
  have hlt := Nat.mod_lt count hmax
  dsimp only
  split
  · rename_i hzero
    rw [Nat.add_zero]
    refine ⟨by omega, fun hne => ?_⟩
    rw [Nat.sub_mul, Nat.one_mul]
    have : 0 < count / maxStackSize * maxStackSize :=
      Nat.mul_pos (Nat.pos_of_ne_zero hne) hmax
    omega
  · rw [Nat.add_sub_cancel, Nat.succ_mul]
    exact ⟨by omega, fun _ => by omega⟩

theorem toNat_sub_ofNat {count : BitVec 32} {n : Nat} (h : n < count.toNat) :
    (count - BitVec.ofNat 32 n).toNat = count.toNat - n := by
  have hcount := count.isLt
  have hn : (BitVec.ofNat 32 n).toNat = n := by
    rw [BitVec.toNat_ofNat]
    exact Nat.mod_eq_of_lt (by omega)
  rw [BitVec.toNat_sub_of_le (by rw [BitVec.le_def, hn]; omega), hn]

def stackOf (store : ItemStore) (item : LootStoreItem) (count : Nat) : LootItem :=
  { LootItem.new store item with count }

/-- The loop cuts the stacks one by one as `stacksOf` does all at once. -/
theorem addStacks_eq (store : ItemStore) (item : LootStoreItem) (proto : ItemTemplate) (limit : Nat)
    (rounds : Nat) {count : BitVec 32}
    (hlt : rounds ≠ 0 → (rounds - 1) * proto.maxStackSize < count.toNat)
    (lootItems : List LootItem) (unlootedCount : BitVec 32) :
    let added := ((List.range rounds).map fun i =>
      stackOf store item (min (count.toNat - i * proto.maxStackSize) proto.maxStackSize)).take
        (limit - lootItems.length)
    addStacks store item proto limit rounds count (lootItems, unlootedCount) =
      (lootItems ++ added, unlootedCount + BitVec.ofNat 32
        (if !item.needsQuest && item.conditions.isEmpty && !proto.multiDrop then added.length
          else 0)) := by
  induction rounds generalizing count lootItems unlootedCount with
  | zero => simp [addStacks]
  | succ rounds ih =>
    have hlt := hlt (Nat.succ_ne_zero rounds)
    rw [Nat.add_sub_cancel] at hlt
    dsimp only
    rw [addStacks]
    by_cases hroom : lootItems.length < limit
    · have hmore : rounds ≠ 0 → (count - BitVec.ofNat 32 proto.maxStackSize).toNat =
          count.toNat - proto.maxStackSize := by
        intro hne
        have := Nat.le_mul_of_pos_left proto.maxStackSize (Nat.pos_of_ne_zero hne)
        exact toNat_sub_ofNat (by omega)
      have hnext : ∀ i < rounds, (count - BitVec.ofNat 32 proto.maxStackSize).toNat -
          i * proto.maxStackSize = count.toNat - (i + 1) * proto.maxStackSize := by
        intro i hi
        rw [hmore (by omega), Nat.succ_mul]
        omega
      have hrest := @ih (count - BitVec.ofNat 32 proto.maxStackSize)
        (fun hne => by
          rw [hmore hne]
          obtain ⟨r, rfl⟩ := Nat.exists_eq_succ_of_ne_zero hne
          rw [Nat.succ_mul] at hlt
          rw [Nat.succ_sub_one]
          omega)
        (lootItems ++ [stackOf store item (min count.toNat proto.maxStackSize)])
        (if !item.needsQuest && item.conditions.isEmpty && !proto.multiDrop then
          unlootedCount + 1 else unlootedCount)
      have hmap : (List.range rounds).map (fun i => stackOf store item (min
          ((count - BitVec.ofNat 32 proto.maxStackSize).toNat - i * proto.maxStackSize)
            proto.maxStackSize)) = (List.range rounds).map fun i => stackOf store item (min
          (count.toNat - (i + 1) * proto.maxStackSize) proto.maxStackSize) :=
        List.map_congr_left fun i hi => by rw [hnext i (List.mem_range.mp hi)]
      have htake : limit - lootItems.length = limit - (lootItems.length + 1) + 1 := by omega
      rw [if_pos hroom, htake, List.range_succ_eq_map, List.map_cons, List.take_succ_cons,
        List.map_map]
      rw [hmap, List.length_append, List.length_singleton] at hrest
      refine hrest.trans (Prod.ext ?_ ?_)
      · simp [Function.comp_def]
      · dsimp only
        split
        · rw [List.length_cons, BitVec.ofNat_add, BitVec.add_assoc,
            BitVec.add_comm (BitVec.ofNat 32 (List.length _))]
          rfl
        · rfl
    · rw [if_neg hroom, Nat.sub_eq_zero_of_le (Nat.not_lt.mp hroom), List.take_zero]
      simp

theorem sum_stacks (count maxStackSize rounds : Nat) :
    ((List.range rounds).map fun i => min (count - i * maxStackSize) maxStackSize).sum =
      min count (rounds * maxStackSize) := by
  induction rounds with
  | zero => simp
  | succ rounds ih =>
    rw [List.range_succ, List.map_append, List.sum_append, ih, List.map_singleton,
      List.sum_singleton, Nat.succ_mul]
    omega

theorem addStacks_spec (store : ItemStore) (item : LootStoreItem) (proto : ItemTemplate)
    (limit : Nat) (hmax : 0 < proto.maxStackSize) (rounds : Nat) {count : BitVec 32}
    (hle : count.toNat ≤ rounds * proto.maxStackSize)
    (hlt : rounds ≠ 0 → (rounds - 1) * proto.maxStackSize < count.toNat)
    (lootItems : List LootItem) (unlootedCount : BitVec 32) :
    ∃ counts : List Nat,
      addStacks store item proto limit rounds count (lootItems, unlootedCount) =
        (lootItems ++ counts.map (stackOf store item),
          if !item.needsQuest && item.conditions.isEmpty && !proto.multiDrop then
            unlootedCount + BitVec.ofNat 32 counts.length else unlootedCount) ∧
      (∀ c ∈ counts, 0 < c ∧ c ≤ proto.maxStackSize) ∧
      (counts.sum = count.toNat ∨
        limit ≤ lootItems.length + counts.length ∧ counts.sum ≤ count.toNat) := by
  let all := (List.range rounds).map fun i =>
    min (count.toNat - i * proto.maxStackSize) proto.maxStackSize
  have hall : all.sum = count.toNat := (sum_stacks _ _ _).trans (Nat.min_eq_left hle)
  refine ⟨all.take (limit - lootItems.length), ?_, fun c hc => ?_, ?_⟩
  · refine (addStacks_eq store item proto limit rounds hlt lootItems unlootedCount).trans ?_
    rw [List.map_take, List.map_map, List.length_take, List.length_take, List.length_map,
      List.length_map]
    refine Prod.ext rfl ?_
    dsimp only
    split
    · rfl
    · exact BitVec.add_zero _
  · obtain ⟨i, hi, rfl⟩ := List.mem_map.mp (List.mem_of_mem_take hc)
    have hi := List.mem_range.mp hi
    have hbelow : i * proto.maxStackSize ≤ (rounds - 1) * proto.maxStackSize :=
      Nat.mul_le_mul_right _ (by omega)
    have := hlt (by omega)
    omega
  · rcases Nat.le_total all.length (limit - lootItems.length) with hroom | hfull
    · rw [List.take_of_length_le hroom]
      exact .inl hall
    · have hsplit := congrArg List.sum (List.take_append_drop (limit - lootItems.length) all)
      rw [List.sum_append] at hsplit
      rw [List.length_take, Nat.min_eq_left hfull]
      exact .inr ⟨by omega, by omega⟩

theorem setListFor_listFor (loot : Loot) (item : LootStoreItem) (l : List LootItem) :
    (loot.setListFor item l).listFor item = l ∧
      (loot.setListFor item l).unlootedCount = loot.unlootedCount := by
  unfold setListFor listFor
  split <;> simp_all

/-- Which stacks are counted at once is the same for all stacks of an item. -/
theorem countP_stackOf {store : ItemStore} {item : LootStoreItem} {proto : ItemTemplate}
    (hitem : item.currency = false) (hproto : store item.itemid = some proto) (counts : List Nat) :
    (counts.map (stackOf store item)).countP
        (fun s => !s.freeforall && s.conditions.isEmpty && !s.needsQuest) =
      if !item.needsQuest && item.conditions.isEmpty && !proto.multiDrop then counts.length
      else 0 := by
  have hsame : ∀ c, (!(stackOf store item c).freeforall && (stackOf store item c).conditions.isEmpty &&
      !(stackOf store item c).needsQuest) =
        (!item.needsQuest && item.conditions.isEmpty && !proto.multiDrop) := by
    intro c
    simp only [stackOf, LootItem.new, hitem, hproto, Option.any_some, Bool.not_false, Bool.true_and]
    rw [Bool.and_comm, ← Bool.and_assoc, Bool.and_right_comm]
  rw [List.countP_map]
  split
  · rename_i hcounted
    exact List.countP_eq_length.mpr fun c _ => (hsame c).trans hcounted
  · rename_i hcounted
    exact List.countP_eq_zero.mpr fun c _ hc => hcounted ((hsame c).symm.trans hc)

/-- An item with a template, for a looter who may have it. -/
theorem addItem_stacked {store : ItemStore} {loot : Loot} {item : LootStoreItem}
    {proto : ItemTemplate} {stackable : Int} (count : BitVec 32) (hitem : item.currency = false)
    (hproto : store item.itemid = some proto)
    (hstack : proto.maxStackSize = getMaxStackSize stackable) :
    Stacked loot (loot.addItemLoop store item count true) item count.toNat proto.maxStackSize := by
  have hmax : 0 < proto.maxStackSize := hstack ▸ getMaxStackSize_pos stackable
  obtain ⟨hle, hlt⟩ := @rounds_spec count.toNat _ hmax
  obtain ⟨counts, hrun, hcounts, hsum⟩ := addStacks_spec store item proto (limitFor item) hmax _ hle hlt
    (loot.listFor item) loot.unlootedCount
  have hloop : loot.addItemLoop store item count true =
      { loot.setListFor item (loot.listFor item ++ counts.map (stackOf store item)) with
        unlootedCount := if !item.needsQuest && item.conditions.isEmpty && !proto.multiDrop then
          loot.unlootedCount + BitVec.ofNat 32 counts.length else loot.unlootedCount } := by
    rw [addItemLoop, if_neg (by simp [hitem]), hproto]
    dsimp only
    rw [if_neg (by decide), hrun]
  have hlist : (loot.addItemLoop store item count true).listFor item =
      loot.listFor item ++ counts.map (stackOf store item) := by
    rw [hloop]
    exact (setListFor_listFor loot item _).1
  have hcount : (counts.map (stackOf store item)).map LootItem.count = counts := by
    rw [List.map_map]
    exact List.map_id counts
  refine ⟨⟨counts.map (stackOf store item), hlist, ?_, ?_, ?_⟩, ?_⟩
  · intro s hs
    obtain ⟨c, hc, rfl⟩ := List.mem_map.mp hs
    exact ⟨rfl, hcounts c hc⟩
  · rw [hcount, hlist, List.length_append, List.length_map]
    exact hsum
  · rw [countP_stackOf hitem hproto, hloop]
    dsimp only
    split
    · rfl
    · exact (BitVec.add_zero _).symm
  · rw [hloop]
    unfold setListFor listFor
    split <;> rfl

theorem addItem_stacked_twenty :
    Stacked (Loot.new 0) ((Loot.new 0).addItemLoop
      (fun _ => some ⟨getMaxStackSize 8, false, false, false, false, false, false, false, 0, 0, 0, 1⟩)
      ⟨25, false, false, []⟩ 20 true) ⟨25, false, false, []⟩ (20 : BitVec 32).toNat
      (getMaxStackSize 8) :=
  @addItem_stacked _ _ _
    ⟨getMaxStackSize 8, false, false, false, false, false, false, false, 0, 0, 0, 1⟩ 8 20 rfl rfl rfl

/-- A currency is one stack that is not counted here. -/
theorem addItem_fails_currency : ¬Stacked (Loot.new 0)
    ((Loot.new 0).addItemLoop (fun _ => none) ⟨25, true, false, []⟩ 20 true)
    ⟨25, true, false, []⟩ 20 100 := by
  rintro ⟨⟨added, hadded, -, -, hcounted⟩, -⟩
  have hlist : added = ((Loot.new 0).addItemLoop (fun _ => none) ⟨25, true, false, []⟩ 20 true).items :=
    hadded.symm
  rw [hlist] at hcounted
  exact absurd hcounted (by decide)

/-- The loop does what `addItem` does at once. -/
theorem addItemLoop_eq {store : ItemStore} {loot : Loot} {item : LootStoreItem} (count : BitVec 32)
    (usable : Bool) (hmax : ∀ proto, store item.itemid = some proto → 0 < proto.maxStackSize) :
    loot.addItemLoop store item count usable = loot.addItem store ⟨item, count.toNat, usable⟩ := by
  rw [addItemLoop, addItem]
  by_cases hcurrency : item.currency = true
  · rw [if_pos hcurrency, if_pos hcurrency]
    unfold setListFor listFor
    split <;> rfl
  · rw [if_neg hcurrency, if_neg hcurrency]
    cases hproto : store item.itemid with
    | none => rfl
    | some proto =>
      dsimp only
      cases usable with
      | false => rfl
      | true =>
        have husable : ¬(!true) = true := by decide
        have hloop := addStacks_eq store item proto (limitFor item) _
          (@rounds_spec count.toNat _ (hmax proto hproto)).2 (loot.listFor item)
          loot.unlootedCount
        rw [if_neg husable, if_neg husable, hloop]
        unfold setListFor listFor limitFor stacksOf stackOf
        by_cases hquest : item.needsQuest = true
        · simp only [if_pos hquest]
        · simp only [if_neg hquest]

/-- Fifty pieces in stacks of twenty. -/
theorem addItemLoop_eq_twenty :
    let store : ItemStore := fun _ =>
      some ⟨20, false, false, false, false, false, false, false, 0, 0, 0, 1⟩
    (Loot.new 0).addItemLoop store ⟨25, false, false, []⟩ 50 true =
      (Loot.new 0).addItem store ⟨⟨25, false, false, []⟩, 50, true⟩ :=
  addItemLoop_eq 50 true fun proto hproto => by
    obtain rfl := Option.some.inj hproto
    decide

end Loot

end Ashamane.Looting
