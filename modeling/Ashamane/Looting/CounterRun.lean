import Ashamane.Looting.CounterLists

/-! Takes keep the counter, and what the counter says about who has something to take. -/
namespace Ashamane.Looting

open Ashamane.Lib

def TakeFair (store : ItemStore) (s : Loot) (player : Player) (lootSlot : Nat) : Prop :=
  ∀ v, s.lootItemInSlot lootSlot player = some v →
    v.item.allowedForPlayer store player = true →
    player.canStoreNewItem v.item.itemid v.item.count = true →
    (v.copy = none → Loot.copyKind v.item = none) ∧
    ∀ pos, v.copy = some ⟨.conditional, pos⟩ → ∀ g, g ≠ player.guid →
      ∀ c ∈ s.copies .conditional g, c.index = lootSlot → c.isLooted = true

def Op.Fair (store : ItemStore) (players : List Player) (s : Loot) : Op → Prop
  | .fillLists player _ => FillFair store s player ∧ Known store players s player
  | .markUnderthreshold _ => True
  | .take player lootSlot => TakeFair store s player lootSlot

def markLooted (item : LootItem) : LootItem := { item with isLooted := true }

namespace Loot

variable {s : Loot} {v : SlotView} {guid : ObjectGuid}

theorem takeItem_lists : (s.takeItem v guid).lists =
    match v.copy with
    | some ref => (s.lootCopy guid ref).lists
    | none => s.lists := by
  unfold takeItem modifyItem
  by_cases hslot : v.slot < s.items.length <;> cases v.copy <;> cases v.item.freeforall <;>
    simp [hslot, lootCopy]

theorem takeItem_items : (s.takeItem v guid).items =
    if v.item.freeforall = false ∧ v.slot < s.items.length then s.items.modify v.slot markLooted
    else s.items := by
  unfold takeItem modifyItem
  by_cases hslot : v.slot < s.items.length <;> cases v.copy <;> cases v.item.freeforall <;>
    simp [hslot, lootCopy] <;> rfl

theorem takeItem_questItems : (s.takeItem v guid).questItems =
    if v.item.freeforall = false ∧ ¬v.slot < s.items.length then
      s.questItems.modify (v.slot - s.items.length) markLooted
    else s.questItems := by
  unfold takeItem modifyItem
  by_cases hslot : v.slot < s.items.length <;> cases v.copy <;> cases v.item.freeforall <;>
    simp [hslot, lootCopy] <;> rfl

theorem takeItem_questItems_length :
    (s.takeItem v guid).questItems.length = s.questItems.length := by
  rw [takeItem_questItems]
  split
  · exact List.length_modify ..
  · rfl

theorem takeItem_unlootedCount :
    (s.takeItem v guid).unlootedCount = s.unlootedCount - 1 := by
  unfold takeItem modifyItem
  by_cases hslot : v.slot < s.items.length <;> cases v.copy <;> cases v.item.freeforall <;>
    simp [hslot, lootCopy]

end Loot

namespace CounterInv

variable {store : ItemStore} {s s' : Loot} {player : Player} {lootSlot : Nat}

/-- What a take has to keep: the indices of all copies and the kinds of all items, and it
closes one of the open takes. -/
theorem take (h : CounterInv s)
    (hindex : ∀ k g, (s'.copies k g).map NotNormalLootItem.index =
      (s.copies k g).map NotNormalLootItem.index)
    (hitems : s'.items = s.items ∨ ∃ i, s'.items = s.items.modify i markLooted)
    (hquest : s'.questItems.length = s.questItems.length)
    (hcount : s'.unlootedCount = s.unlootedCount - 1)
    (hopen : s'.openTakes + 1 = s.openTakes)
    (hcond : ∀ g, ∀ c ∈ s'.copies .conditional g, ∀ item,
      s'.items[c.index]? = some item → c.isLooted = item.isLooted) : CounterInv s' := by
  have hback : ∀ (i : Nat) (item' : LootItem), s'.items[i]? = some item' →
      ∃ item, s.items[i]? = some item ∧ (item' = item ∨ item' = markLooted item) := by
    intro i item' hitem'
    rcases hitems with heq | ⟨j, heq⟩
    · exact ⟨item', heq ▸ hitem', .inl rfl⟩
    · rw [heq, List.getElem?_modify] at hitem'
      obtain ⟨item, hitem, hite⟩ := Option.map_eq_some_iff.mp hitem'
      split at hite
      · exact ⟨item, hitem, .inr hite.symm⟩
      · exact ⟨item, hitem, .inl hite.symm⟩
  have hforth : ∀ (i : Nat) (item : LootItem), s.items[i]? = some item →
      ∃ item', s'.items[i]? = some item' ∧ Loot.copyKind item' = Loot.copyKind item := by
    intro i item hitem
    rcases hitems with heq | ⟨j, heq⟩
    · exact ⟨item, heq ▸ hitem, rfl⟩
    · rw [heq, List.getElem?_modify, hitem]
      exact ⟨_, rfl, by split <;> rfl⟩
  have hcopy : ∀ k g, ∀ c' ∈ s'.copies k g, ∃ c ∈ s.copies k g, c.index = c'.index := by
    intro k g c' hc'
    have hmem := List.mem_map_of_mem (f := NotNormalLootItem.index) hc'
    rw [hindex] at hmem
    exact List.mem_map.mp hmem
  constructor
  case count =>
    rw [hcount, h.count, ← hopen, BitVec.ofNat_add]
    exact BitVec.add_sub_cancel _ _
  case items =>
    intro item' hitem'
    obtain ⟨i, hi⟩ := List.getElem?_of_mem hitem'
    obtain ⟨item, hitem, rfl | rfl⟩ := hback i item' hi
    · exact h.items _ (List.mem_of_getElem? hitem)
    · have hsound := h.items item (List.mem_of_getElem? hitem)
      exact ⟨hsound.currency, hsound.unblocked, hsound.isCounted⟩
  case special =>
    intro k g hk c' hc'
    obtain ⟨c, hc, hidx⟩ := hcopy k g c' hc'
    obtain ⟨item, hitem, hkind⟩ := h.special k g hk c hc
    rw [hidx] at hitem
    obtain ⟨item', hitem', hkind'⟩ := hforth _ item hitem
    exact ⟨item', hitem', hkind'.trans hkind⟩
  case conditional =>
    intro g c' hc' item' hitem'
    refine ⟨?_, hcond g c' hc' item' hitem'⟩
    obtain ⟨c, hc, hidx⟩ := hcopy .conditional g c' hc'
    obtain ⟨item, hitem, heq⟩ := hback c'.index item' hitem'
    rw [← hidx] at hitem
    have hcounted := (h.conditional g c hc item hitem).1
    rcases heq with rfl | rfl <;> exact hcounted
  case distinct =>
    intro k g hk
    rw [hindex]
    exact h.distinct k g hk
  case quest =>
    intro g c' hc'
    obtain ⟨c, hc, hidx⟩ := hcopy .quest g c' hc'
    rw [hquest, ← hidx]
    exact h.quest g c hc

theorem index_lootCopy (s : Loot) (guid : ObjectGuid) (ref : CopyRef) (k : ListKind)
    (g : ObjectGuid) :
    ((s.lootCopy guid ref).copies k g).map NotNormalLootItem.index =
      (s.copies k g).map NotNormalLootItem.index := by
  rw [Loot.copies_lootCopy]
  split
  · refine List.ext_getElem? fun i => ?_
    rw [List.getElem?_map, List.getElem?_map, List.getElem?_modify]
    cases (s.copies k g)[i]? with
    | none => rfl
    | some c => by_cases hpos : ref.pos = i <;> simp [hpos]
  · rfl

theorem copies_congr {k : ListKind} (hlists : s'.lists k = s.lists k) (g : ObjectGuid) :
    s'.copies k g = s.copies k g := by
  rw [Loot.copies, hlists, Loot.copies]

theorem openCopies_congr {k : ListKind} (hlists : s'.lists k = s.lists k) :
    s'.openCopies k = s.openCopies k := by
  rw [Loot.openCopies, hlists, Loot.openCopies]

/-- Taking through an open copy that is no conditional one closes that copy. -/
theorem take_copy {ref : CopyRef} {c : NotNormalLootItem} (h : CounterInv s)
    (hc : (s.copies ref.kind player.guid)[ref.pos]? = some c) (hopen : c.isLooted = false)
    (hkind : ref.kind ≠ .conditional)
    (hlists : s'.lists = (s.lootCopy player.guid ref).lists) (hitems : s'.items = s.items)
    (hquest : s'.questItems.length = s.questItems.length)
    (hcount : s'.unlootedCount = s.unlootedCount - 1) :
    CounterInv s' ∧ 0 < s.openTakes := by
  have hcopies : ∀ k g, s'.copies k g = (s.lootCopy player.guid ref).copies k g := fun k g =>
    copies_congr (congrFun hlists k) g
  have hclosed : ∀ k, s'.openCopies k + (if k = ref.kind then 1 else 0) = s.openCopies k := by
    intro k
    rw [openCopies_congr (congrFun hlists k)]
    exact Loot.openCopies_lootCopy hc hopen
  have htakes : s'.openTakes + 1 = s.openTakes := by
    have h₁ := hclosed .currency
    have h₂ := hclosed .quest
    have h₃ := hclosed .ffa
    rw [Loot.openTakes, Loot.openTakes, hitems]
    cases hk : ref.kind <;> simp [hk] at h₁ h₂ h₃ hkind <;> omega
  refine ⟨h.take (fun k g => ?_) (.inl hitems) hquest hcount htakes ?_, by omega⟩
  · rw [hcopies, index_lootCopy]
  · intro g c' hc' item hitem
    rw [hcopies, Loot.copies_lootCopy, if_neg (fun hand => hkind hand.1.symm)] at hc'
    rw [hitems] at hitem
    exact (h.conditional g c' hc' item hitem).2

/-- Taking an item that is for one looter marks it; no own copy may stay open for it. -/
theorem take_item {item : LootItem} (h : CounterInv s) (hitem : s.items[lootSlot]? = some item)
    (hcounted : item.counted = true) (hitems : s'.items = s.items.modify lootSlot markLooted)
    (hindex : ∀ k g, (s'.copies k g).map NotNormalLootItem.index =
      (s.copies k g).map NotNormalLootItem.index)
    (hsame : ∀ k, k ≠ .conditional → s'.lists k = s.lists k)
    (hquest : s'.questItems.length = s.questItems.length)
    (hcount : s'.unlootedCount = s.unlootedCount - 1)
    (hcond : ∀ g, ∀ c ∈ s'.copies .conditional g, if c.index = lootSlot then c.isLooted = true
      else c ∈ s.copies .conditional g) :
    CounterInv s' ∧ 0 < s.openTakes := by
  have hmodify := countP_modify LootItem.counted markLooted hitem
  have hafter : (markLooted item).counted = false := by simp [LootItem.counted, markLooted]
  rw [hcounted, hafter] at hmodify
  have htakes : s'.openTakes + 1 = s.openTakes := by
    rw [Loot.openTakes, Loot.openTakes, hitems, openCopies_congr (hsame _ (by decide)),
      openCopies_congr (hsame _ (by decide)), openCopies_congr (hsame _ (by decide))]
    simp only [Bool.toNat_true, Bool.toNat_false] at hmodify
    omega
  refine ⟨h.take hindex (.inr ⟨lootSlot, hitems⟩) hquest hcount htakes ?_, by omega⟩
  intro g c hc item' hitem'
  have hcopy := hcond g c hc
  rw [hitems, List.getElem?_modify] at hitem'
  obtain ⟨item₁, hitem₁, rfl⟩ := Option.map_eq_some_iff.mp hitem'
  split at hcopy
  next hidx => rw [hcopy, if_pos hidx.symm, markLooted]
  next hidx =>
    rw [if_neg (Ne.symm hidx)]
    exact (h.conditional g c hcopy item₁ hitem₁).2

/-- After an own copy of a conditional item is looted no copy of it is open, if nobody else
had an open one; the copies of other items are as before. -/
theorem closed_lootCopy {pos : Nat} {c : NotNormalLootItem} (h : CounterInv s)
    (hc : (s.copies .conditional player.guid)[pos]? = some c) (hidx : c.index = lootSlot)
    (hothers : ∀ g, g ≠ player.guid → ∀ c ∈ s.copies .conditional g, c.index = lootSlot →
      c.isLooted = true) (g : ObjectGuid) (c' : NotNormalLootItem)
    (hc' : c' ∈ (s.lootCopy player.guid ⟨.conditional, pos⟩).copies .conditional g) :
    if c'.index = lootSlot then c'.isLooted = true else c' ∈ s.copies .conditional g := by
  rw [Loot.copies_lootCopy] at hc'
  by_cases hg : g = player.guid
  · subst hg
    rw [if_pos ⟨rfl, rfl⟩] at hc'
    obtain ⟨i, hi⟩ := List.getElem?_of_mem hc'
    rw [List.getElem?_modify] at hi
    obtain ⟨c₁, hc₁, rfl⟩ := Option.map_eq_some_iff.mp hi
    by_cases hpos : pos = i
    · subst hpos
      cases hc.symm.trans hc₁
      simp [hidx]
    · simp only [if_neg hpos]
      split
      next hidx₁ =>
        -- two copies of one item in one list
        have hnodup := h.distinct .conditional player.guid (by decide)
        have hget := fun (j : Nat) (d : NotNormalLootItem)
            (hd : (s.copies .conditional player.guid)[j]? = some d) =>
          (List.getElem?_map (f := NotNormalLootItem.index)).trans (congrArg _ hd)
        have heq := (List.getElem?_inj (i := pos) (j := i) ?_ hnodup).mp ?_
        · exact absurd heq hpos
        · rw [List.length_map]
          exact (List.getElem?_eq_some_iff.mp hc).1
        · rw [hget pos c hc, hget i c₁ hc₁]
          simp [hidx, hidx₁]
      · exact List.mem_of_getElem? hc₁
  · rw [if_neg fun hand => hg hand.2] at hc'
    split
    next hidx₁ => exact hothers g hg c' hc' hidx₁
    · exact hc'

/-- A fair take keeps the invariant, and there is something to count down if it goes
through. -/
theorem storeLootItem (h : CounterInv s) (hfair : TakeFair store s player lootSlot) :
    CounterInv (s.storeLootItem store lootSlot player).1 ∧
      ((s.storeLootItem store lootSlot player).2 ≠ .refused → 0 < s.openTakes) := by
  rcases Loot.storeLootItem_cases store s lootSlot player with
    heq | ⟨v, hv, hallowed, ⟨pos, hcopy, heq⟩ | ⟨hcopy, hstore, heq⟩⟩
  · rw [heq]
    exact ⟨h, fun hne => absurd rfl hne⟩
  · rcases Loot.lootItemInSlot_cases hv with ⟨item, _, _, _, rfl⟩ |
      ⟨item, ref, c, hitem, hown, hopen, rfl⟩ | ⟨item, c, _, hc, _, hopen, rfl⟩
    · cases hcopy
    · cases hcopy
      obtain ⟨_, hc, _⟩ := Loot.ownCopy_cases hown
      rw [heq]
      have htake := @h.take_copy _ { s.lootCopy player.guid ⟨.currency, pos⟩ with
        unlootedCount := s.unlootedCount - 1 } _ _ _ hc hopen (by simp) rfl rfl rfl rfl
      exact ⟨htake.1, fun _ => htake.2⟩
    · cases hcopy
  · rw [heq]
    suffices hgoal : CounterInv (s.takeItem v player.guid) ∧ 0 < s.openTakes from
      ⟨hgoal.1, fun _ => hgoal.2⟩
    obtain ⟨hplain, hothers⟩ := hfair v hv hallowed hstore
    rcases Loot.lootItemInSlot_cases hv with ⟨item, hitem, _, hunlooted, rfl⟩ |
      ⟨item, ref, c, hitem, hown, hopen, rfl⟩ | ⟨item, c, hslot, hc, _, hopen, rfl⟩
    · -- a shared item
      have hkind : Loot.copyKind item = none := hplain rfl
      obtain ⟨hcur, hffa, hempty⟩ := Loot.copyKind_eq_none.mp hkind
      obtain ⟨hslot, _⟩ := List.getElem?_eq_some_iff.mp hitem
      have hlists : (s.takeItem ⟨lootSlot, item, none⟩ player.guid).lists = s.lists :=
        Loot.takeItem_lists
      have hcopies := fun k => copies_congr (congrFun hlists k)
      refine h.take_item hitem (by simp [LootItem.counted, hunlooted, hcur, hffa, hempty])
        (by rw [Loot.takeItem_items, if_pos ⟨hffa, hslot⟩]) (fun k g => by rw [hcopies])
        (fun k _ => congrFun hlists k) Loot.takeItem_questItems_length
        Loot.takeItem_unlootedCount fun g c hc => ?_
      rw [hcopies] at hc
      split
      next hidx =>
        obtain ⟨item', hitem', hkind'⟩ := h.special .conditional g (by decide) c hc
        rw [hidx, hitem] at hitem'
        cases hitem'
        cases hkind.symm.trans hkind'
      · exact hc
    · obtain ⟨hkind, hc, hidx⟩ := Loot.ownCopy_cases hown
      obtain ⟨kind, pos⟩ := ref
      cases kind with
      | currency => exact absurd rfl (hcopy pos)
      | quest => exact absurd hkind (Loot.copyKind_ne_quest item)
      | ffa =>
        refine h.take_copy hc hopen (by simp) Loot.takeItem_lists ?_
          Loot.takeItem_questItems_length Loot.takeItem_unlootedCount
        rw [Loot.takeItem_items, if_neg fun hand => ?_]
        have hffa := (Loot.copyKind_eq_ffa.mp hkind).2
        rw [hand.1] at hffa
        cases hffa
      | conditional =>
        obtain ⟨hcur, hffa, _⟩ := Loot.copyKind_eq_conditional.mp hkind
        obtain ⟨hslot, _⟩ := List.getElem?_eq_some_iff.mp hitem
        obtain ⟨hcounted, hsame⟩ := h.conditional player.guid c (List.mem_of_getElem? hc) item
          (hidx ▸ hitem)
        have hunlooted : item.isLooted = false := hsame.symm.trans hopen
        have hlists : (s.takeItem ⟨lootSlot, item, some ⟨.conditional, pos⟩⟩ player.guid).lists =
            (s.lootCopy player.guid ⟨.conditional, pos⟩).lists := Loot.takeItem_lists
        have hcopies := fun k => copies_congr (congrFun hlists k)
        refine h.take_item hitem (by simp [LootItem.counted, hunlooted, hcur, hffa, hcounted])
          (by rw [Loot.takeItem_items, if_pos ⟨hffa, hslot⟩])
          (fun k g => by rw [hcopies, index_lootCopy])
          (fun k hk => by rw [congrFun hlists k, Loot.lootCopy]; exact if_neg hk)
          Loot.takeItem_questItems_length Loot.takeItem_unlootedCount fun g c' hc' => ?_
        rw [hcopies] at hc'
        exact closed_lootCopy h hc hidx (hothers pos rfl) g c' hc'
    · -- a copy in the quest list
      refine h.take_copy hc hopen (by simp) Loot.takeItem_lists ?_
        Loot.takeItem_questItems_length Loot.takeItem_unlootedCount
      rw [Loot.takeItem_items, if_neg fun hand => ?_]
      exact absurd hand.2 (Nat.not_lt.mpr (Nat.le_add_right _ _))

theorem step {players : List Player} {op : Op} (h : CounterInv s)
    (hfair : op.Fair store players s)
    (hs : Op.Step store s op s') : CounterInv s' := by
  cases hs
  cases op with
  | fillLists player presentAtLooting => exact h.fillLists presentAtLooting hfair.1
  | markUnderthreshold threshold => exact h.markUnderthreshold store threshold
  | take player lootSlot => exact (h.storeLootItem hfair).1

end CounterInv

def Loot.outstanding (store : ItemStore) (players : List Player) (s : Loot) : Nat :=
  s.items.countP (fun item => !item.isLooted && !item.currency && !item.freeforall &&
    !item.isBlocked && players.any (item.allowedForPlayer store)) +
    s.openCopies .currency + s.openCopies .quest + s.openCopies .ffa

/-- The lists, filled at different moments, still say who may have what: the items that
count for one looter are those that some player may have, a player who may have a special
item has a copy of it, and an open copy belongs to a player who may have the item. -/
structure ListsAgree (store : ItemStore) (players : List Player) (s : Loot) : Prop where
  shared : ∀ item ∈ s.items, item.isLooted = false → item.currency = false →
    item.freeforall = false →
    ((item.conditions.isEmpty = true ∨ item.isCounted = true) ↔
      ∃ p ∈ players, item.allowedForPlayer store p = true)
  special : ∀ p ∈ players, ∀ (lootSlot : Nat) (item : LootItem) (kind : ListKind),
    s.items[lootSlot]? = some item → Loot.copyKind item = some kind → kind ≠ .conditional →
    item.isLooted = false → item.allowedForPlayer store p = true →
    s.ownCopy item lootSlot p.guid ≠ none
  owners : ∀ (kind : ListKind) (g : ObjectGuid), kind ≠ .conditional → ∀ c ∈ s.copies kind g,
    c.isLooted = false → ∃ p ∈ players, p.guid = g ∧ s.Suits store p kind c.index

structure CounterAgrees (store : ItemStore) (players : List Player) (s : Loot) : Prop where
  count : s.unlootedCount = BitVec.ofNat 32 (s.outstanding store players)
  isLooted : s.outstanding store players < 2 ^ 32 → (s.isLooted = true ↔
    s.gold = 0 ∧ ∀ p ∈ players, ∀ lootSlot, ¬ s.CanTake store p lootSlot)
  noWrap : s.outstanding store players < 2 ^ 32 → ∀ p lootSlot, TakeFair store s p lootSlot →
    (s.storeLootItem store lootSlot p).2 ≠ .refused → s.unlootedCount ≠ 0

namespace ListsAgree

variable {store : ItemStore} {players : List Player} {s : Loot}

theorem outstanding_eq (hw : ListsAgree store players s) (h : CounterInv s) :
    s.outstanding store players = s.openTakes := by
  have hitems : s.items.countP (fun item => !item.isLooted && !item.currency &&
      !item.freeforall && !item.isBlocked && players.any (item.allowedForPlayer store)) =
      s.items.countP LootItem.counted := by
    refine List.countP_congr fun item hitem => ?_
    have hshared := hw.shared item hitem
    have hblocked := (h.items item hitem).unblocked
    simp only [LootItem.counted, Bool.and_eq_true, Bool.not_eq_true', Bool.or_eq_true,
      List.any_eq_true]
    constructor
    · rintro ⟨⟨⟨⟨hl, hc⟩, hf⟩, _⟩, hany⟩
      exact ⟨⟨⟨hl, hc⟩, hf⟩, (hshared hl hc hf).mpr hany⟩
    · rintro ⟨⟨⟨hl, hc⟩, hf⟩, hor⟩
      exact ⟨⟨⟨⟨hl, hc⟩, hf⟩, hblocked⟩, (hshared hl hc hf).mp hor⟩
  rw [Loot.outstanding, Loot.openTakes, hitems]

/-- Whoever can take something has an open take that is counted. -/
theorem openTakes_pos (hw : ListsAgree store players s) (h : CounterInv s) {p : Player}
    (hp : p ∈ players) {lootSlot : Nat} (htake : s.CanTake store p lootSlot) :
    0 < s.openTakes := by
  have hcopy : ∀ {kind : ListKind} {g : ObjectGuid} {i : Nat} {c : NotNormalLootItem},
      (s.copies kind g)[i]? = some c → c.isLooted = false → 0 < s.openCopies kind :=
    fun hc hopen => Loot.openCopies_pos_iff.mpr ⟨_, _, List.mem_of_getElem? hc, hopen⟩
  have hitemPos : ∀ {i : Nat} {item : LootItem}, s.items[i]? = some item → item.counted = true →
      0 < s.items.countP LootItem.counted :=
    fun hitem hc => List.countP_pos_iff.mpr ⟨_, List.mem_of_getElem? hitem, hc⟩
  obtain ⟨v, hv, hallowed, _⟩ := htake
  rw [Loot.openTakes]
  rcases Loot.lootItemInSlot_cases hv with ⟨item, hitem, hown, hunlooted, rfl⟩ |
    ⟨item, ref, c, hitem, hown, hopen, rfl⟩ | ⟨item, c, _, hc, _, hopen, rfl⟩
  · have hcond : item.currency = false ∧ item.freeforall = false := by
      cases hkind : Loot.copyKind item with
      | none => exact ⟨(Loot.copyKind_eq_none.mp hkind).1, (Loot.copyKind_eq_none.mp hkind).2.1⟩
      | some kind =>
        by_cases hk : kind = .conditional
        · subst hk
          have hkind := Loot.copyKind_eq_conditional.mp hkind
          exact ⟨hkind.1, hkind.2.1⟩
        · exact absurd hown (hw.special p hp lootSlot item kind hitem hkind hk hunlooted hallowed)
    have hshared := (hw.shared item (List.mem_of_getElem? hitem) hunlooted hcond.1 hcond.2).mpr
      ⟨p, hp, hallowed⟩
    have hpos := hitemPos hitem (by
      simp only [LootItem.counted, hunlooted, hcond.1, hcond.2]
      simpa using hshared)
    omega
  · obtain ⟨hkind, hc, hidx⟩ := Loot.ownCopy_cases hown
    have hpos := hcopy hc hopen
    cases hk : ref.kind with
    | currency =>
      rw [hk] at hpos
      omega
    | quest => exact absurd (hk ▸ hkind) (Loot.copyKind_ne_quest item)
    | ffa =>
      rw [hk] at hpos
      omega
    | conditional =>
      rw [hk] at hc hkind
      obtain ⟨hcounted, hsame⟩ := h.conditional p.guid c (List.mem_of_getElem? hc) item
        (hidx ▸ hitem)
      obtain ⟨hcur, hffa, _⟩ := Loot.copyKind_eq_conditional.mp hkind
      have hpos := hitemPos hitem (by
        simp [LootItem.counted, ← hsame, hopen, hcur, hffa, hcounted])
      omega
  · have hpos := hcopy hc hopen
    omega

theorem exists_canTake (hw : ListsAgree store players s) (h : CounterInv s)
    (hpos : 0 < s.openTakes) : ∃ p ∈ players, ∃ lootSlot, s.CanTake store p lootSlot := by
  have hunblocked : ∀ {i : Nat} {item : LootItem}, s.items[i]? = some item →
      item.isBlocked = false := fun hitem => (h.items _ (List.mem_of_getElem? hitem)).unblocked
  have hlisted : ∀ kind, kind ≠ .conditional → kind ≠ .quest → 0 < s.openCopies kind →
      ∃ p ∈ players, ∃ lootSlot, s.CanTake store p lootSlot := by
    intro kind hcond hquest hk
    obtain ⟨g, c, hc, hopen⟩ := Loot.openCopies_pos_iff.mp hk
    obtain ⟨p, hp, rfl, item, hitem, hallowed⟩ := hw.owners kind g hcond c hc hopen
    rw [if_neg hquest] at hitem
    obtain ⟨item', hitem', hkind⟩ := h.special kind p.guid hquest c hc
    cases hitem.symm.trans hitem'
    obtain ⟨ref, c', hown, rfl, hc', hidx⟩ := Loot.exists_ownCopy hkind hc rfl
    have hsame : c' = c :=
      List.inj_on_of_nodup_map (h.distinct ref.kind p.guid hquest) hc' hc hidx
    exact ⟨p, hp, c.index, _, Loot.lootItemInSlot_own hitem hown (hsame ▸ hopen), hallowed,
      .inr (hunblocked hitem)⟩
  have hcases : 0 < s.items.countP LootItem.counted ∨ 0 < s.openCopies .currency ∨
      0 < s.openCopies .quest ∨ 0 < s.openCopies .ffa := by
    rw [Loot.openTakes] at hpos
    omega
  rcases hcases with hitems | hcur | hquest | hffa
  · obtain ⟨item, hmem, hcounted⟩ := List.countP_pos_iff.mp hitems
    simp only [LootItem.counted, Bool.and_eq_true, Bool.not_eq_true', Bool.or_eq_true] at hcounted
    obtain ⟨⟨⟨hunlooted, hcur⟩, hffa⟩, hshared⟩ := hcounted
    obtain ⟨p, hp, hallowed⟩ := (hw.shared item hmem hunlooted hcur hffa).mp hshared
    obtain ⟨i, hitem⟩ := List.getElem?_of_mem hmem
    cases hown : s.ownCopy item i p.guid with
    | none =>
      exact ⟨p, hp, i, _, Loot.lootItemInSlot_shared hitem hown hunlooted, hallowed,
        .inr (hunblocked hitem)⟩
    | some found =>
      obtain ⟨⟨kind, pos⟩, c⟩ := found
      obtain ⟨hkind, hc, hidx⟩ := Loot.ownCopy_cases hown
      have hconditional : kind = .conditional := by
        simp only [Loot.copyKind, hcur, hffa] at hkind
        split at hkind <;> simp_all
      subst hconditional
      have hsame := (h.conditional p.guid c (List.mem_of_getElem? hc) item (hidx ▸ hitem)).2
      exact ⟨p, hp, i, _, Loot.lootItemInSlot_own hitem hown (hsame.trans hunlooted), hallowed,
        .inr (hunblocked hitem)⟩
  · exact hlisted .currency (by decide) (by decide) hcur
  · obtain ⟨g, c, hc, hopen⟩ := Loot.openCopies_pos_iff.mp hquest
    obtain ⟨p, hp, rfl, item, hitem, hallowed⟩ := hw.owners .quest g (by decide) c hc hopen
    obtain ⟨pos, hget⟩ := List.getElem?_of_mem hc
    exact ⟨p, hp, _, _, Loot.lootItemInSlot_quest hget hitem hopen, hallowed, .inl rfl⟩
  · exact hlisted .ffa (by decide) (by decide) hffa

/-- In a loot whose lists agree with the players, the invariant is what the counter is for. -/
theorem counterAgrees (hw : ListsAgree store players s) (h : CounterInv s) :
    CounterAgrees store players s := by
  have heq := hw.outstanding_eq h
  have hzero : s.openTakes < 2 ^ 32 → (s.unlootedCount = 0 ↔ s.openTakes = 0) := by
    intro hlt
    rw [h.count]
    constructor
    · intro hz
      have hnat := congrArg BitVec.toNat hz
      rw [BitVec.toNat_ofNat, Nat.mod_eq_of_lt hlt] at hnat
      exact hnat
    · intro hz
      rw [hz]
      rfl
  constructor
  case count => rw [heq, h.count]
  case isLooted =>
    intro hlt
    rw [heq] at hlt
    rw [Loot.isLooted, Bool.and_eq_true, beq_iff_eq, beq_iff_eq, hzero hlt]
    refine and_congr_right fun _ => ⟨fun hz p hp lootSlot htake => ?_, fun hnone => ?_⟩
    · have hpos := hw.openTakes_pos h hp htake
      omega
    · by_contra hne
      obtain ⟨p, hp, lootSlot, htake⟩ := hw.exists_canTake h (Nat.pos_of_ne_zero hne)
      exact hnone p hp lootSlot htake
  case noWrap =>
    intro hlt p lootSlot hfair htake hz
    rw [heq] at hlt
    have hpos := (h.storeLootItem hfair).2 htake
    have hz := (hzero hlt).mp hz
    omega

end ListsAgree

theorem basis_markLooted (item : LootItem) : (markLooted item).basis = item.basis := rfl

theorem evolves_lists {store : ItemStore} {s s' : Loot} {guid : ObjectGuid}
    (hitems : s'.items = s.items ∨ ∃ i, s'.items = s.items.modify i markLooted)
    (hquest : s'.questItems = s.questItems ∨ ∃ i, s'.questItems = s.questItems.modify i markLooted)
    (hlists : s'.lists = s.lists ∨ ∃ ref, s'.lists = (s.lootCopy guid ref).lists) :
    Evolves store none s s' := by
  have hcopies : ∀ k g, s'.copies k g = s.copies k g ∨ ∃ pos, s'.copies k g =
      (s.copies k g).modify pos ({ · with isLooted := true }) := by
    intro k g
    rcases hlists with heq | ⟨ref, heq⟩
    · exact .inl (CounterInv.copies_congr (congrFun heq k) g)
    · rw [CounterInv.copies_congr (congrFun heq k) g, Loot.copies_lootCopy]
      split
      · exact .inr ⟨ref.pos, rfl⟩
      · exact .inl rfl
  have hmarked : ∀ (i : Nat) (item item' : LootItem), s.items[i]? = some item →
      s'.items[i]? = some item' → item' = item ∨ item' = markLooted item := by
    intro i item item' hitem hitem'
    rcases hitems with heq | ⟨j, heq⟩
    · rw [heq, hitem] at hitem'
      exact .inl (Option.some.inj hitem').symm
    · rw [heq, List.getElem?_modify, hitem] at hitem'
      have hite := Option.some.inj hitem'
      split at hite
      · exact .inr hite.symm
      · exact .inl hite.symm
  constructor
  case items =>
    rcases hitems with heq | ⟨i, heq⟩ <;> rw [heq]
    exact LootItem.basis_modify basis_markLooted _ i
  case questItems =>
    rcases hquest with heq | ⟨i, heq⟩ <;> rw [heq]
    exact LootItem.basis_modify basis_markLooted _ i
  case looted =>
    intro i item item' hitem hitem' hlooted
    rcases hmarked i item item' hitem hitem' with rfl | rfl
    · exact hlooted
    · rfl
  case counted =>
    intro i item item' hitem hitem'
    rcases hmarked i item item' hitem hitem' with rfl | rfl <;> exact ⟨id, .inl⟩
  case listed =>
    intro k g c hc
    rcases hcopies k g with heq | ⟨pos, heq⟩
    · exact ⟨c, heq ▸ hc, rfl⟩
    · obtain ⟨i, hi⟩ := List.getElem?_of_mem hc
      refine ⟨if pos = i then { c with isLooted := true } else c, ?_, by split <;> rfl⟩
      rw [heq]
      refine List.mem_of_getElem? (i := i) ?_
      rw [List.getElem?_modify, hi]
      split <;> rfl
  case opened =>
    intro k g _ c' hc' hopen
    rcases hcopies k g with heq | ⟨pos, heq⟩
    · exact .inl ⟨c', heq ▸ hc', hopen, rfl⟩
    · rw [heq] at hc'
      obtain ⟨i, hi⟩ := List.getElem?_of_mem hc'
      rw [List.getElem?_modify] at hi
      obtain ⟨c, hc, rfl⟩ := Option.map_eq_some_iff.mp hi
      split at hopen
      · cases hopen
      next hne =>
        rw [if_neg hne]
        exact .inl ⟨c, List.mem_of_getElem? hc, hopen, rfl⟩
  case keys =>
    intro k g hlookup
    refine .inl fun hnone => hlookup ?_
    rcases hlists with heq | ⟨ref, heq⟩
    · rw [heq, hnone]
    · rw [heq, Loot.lootCopy]
      dsimp only
      split
      · by_cases hg : g = guid
        · subst hg
          rw [Assoc.lookup_modify_self, hnone]
          rfl
        · rw [Assoc.lookup_modify_ne hg, hnone]
      · exact hnone

theorem evolves_storeLootItem (store : ItemStore) (s : Loot) (lootSlot : Nat) (player : Player) :
    Evolves store none s (s.storeLootItem store lootSlot player).1 := by
  rcases Loot.storeLootItem_cases store s lootSlot player with
    heq | ⟨v, _, _, ⟨pos, _, heq⟩ | ⟨_, _, heq⟩⟩ <;> rw [heq]
  · exact .refl store none s
  · exact evolves_lists (.inl rfl) (.inl rfl) (.inr ⟨⟨.currency, pos⟩, rfl⟩)
  · refine @evolves_lists store s _ player.guid ?_ ?_ ?_
    · rw [Loot.takeItem_items]
      split
      · exact .inr ⟨v.slot, rfl⟩
      · exact .inl rfl
    · rw [Loot.takeItem_questItems]
      split
      · exact .inr ⟨v.slot - s.items.length, rfl⟩
      · exact .inl rfl
    · rw [Loot.takeItem_lists]
      cases v.copy with
      | none => exact .inl rfl
      | some ref => exact .inr ⟨ref, rfl⟩

theorem evolves_markUnderthreshold (store : ItemStore) (s : Loot) (threshold : Nat) :
    Evolves store none s (s.markUnderthreshold store threshold) := by
  have htouch : ∀ item : LootItem, (if (store item.itemid).any (·.quality < threshold) then
      { item with isUnderthreshold := true } else item).basis = item.basis ∧
      (if (store item.itemid).any (·.quality < threshold) then
        { item with isUnderthreshold := true } else item).isLooted = item.isLooted ∧
      (if (store item.itemid).any (·.quality < threshold) then
        { item with isUnderthreshold := true } else item).isCounted = item.isCounted := by
    intro item
    split <;> exact ⟨rfl, rfl, rfl⟩
  have hmapped : ∀ (i : Nat) (item item' : LootItem), s.items[i]? = some item →
      (s.markUnderthreshold store threshold).items[i]? = some item' →
        item'.isLooted = item.isLooted ∧ item'.isCounted = item.isCounted := by
    intro i item item' hitem hitem'
    rw [Loot.markUnderthreshold, List.getElem?_map, hitem] at hitem'
    rw [← Option.some.inj hitem']
    exact (htouch item).2
  exact {
    items := by
      rw [Loot.markUnderthreshold, List.map_map]
      exact List.map_congr_left fun item _ => (htouch item).1
    questItems := rfl
    looted := fun i item item' hitem hitem' h => (hmapped i item item' hitem hitem').1.trans h
    counted := fun i item item' hitem hitem' => by
      rw [(hmapped i item item' hitem hitem').2]
      exact ⟨id, .inl⟩
    listed := fun _ _ c hc => ⟨c, hc, rfl⟩
    opened := fun _ _ _ c hc hopen => .inl ⟨c, hc, hopen, rfl⟩
    keys := fun _ _ => .inl }

/-- What a fair step does: the items and lists evolve, the invariant of the lists is kept, and the
lists of a player for whom they were filled are complete. -/
theorem ListsInv.step {store : ItemStore} {players : List Player} {s s' : Loot} {op : Op}
    (h : ListsInv store players s) (hfair : op.Fair store players s)
    (hs : Op.Step store s op s') : ListsInv store players s' ∧ ∃ who, Evolves store who s s' ∧
      ∀ player present, op = .fillLists player present → ∀ p ∈ players, p.guid = player.guid →
        ∀ kind, ListedFor store p kind s' := by
  cases hs
  cases op with
  | fillLists player presentAtLooting =>
    obtain ⟨hfair, hknown⟩ := hfair
    obtain ⟨p, hp, hguid⟩ := hknown.mem
    have hold : ∀ kind, (s.lists kind).lookup player.guid ≠ none →
        ListedFor store player kind s := by
      intro kind hlookup i item hitem hkind hunlooted hallowed
      rw [← hguid] at hlookup ⊢
      refine h.listed p hp kind hlookup i item hitem hkind hunlooted ?_
      exact (hknown.allowed p hp hguid item (.inl (List.mem_of_getElem? hitem))).trans hallowed
    obtain ⟨he, hlisted⟩ := Loot.evolves_fillLists presentAtLooting hfair hold
    refine ⟨h.evolves he fun q hq => ?_, some player, he, fun player' _ heq q hq hguid' kind => ?_⟩
    · cases hq
      exact ⟨hknown, hlisted⟩
    · cases heq
      exact ListsInv.listedFor_known hknown hq hguid' he.items (hlisted kind)
  | markUnderthreshold threshold =>
    have he := evolves_markUnderthreshold store s threshold
    exact ⟨h.evolves he fun q hq => absurd hq (by simp), none, he, fun _ _ heq => by cases heq⟩
  | take player lootSlot =>
    have he := evolves_storeLootItem store s lootSlot player
    exact ⟨h.evolves he fun q hq => absurd hq (by simp), none, he, fun _ _ heq => by cases heq⟩

def Filled (ops : List Op) (p : Player) : Prop :=
  ∃ player present, Op.fillLists player present ∈ ops ∧ player.guid = p.guid

/-- The lists are complete at the end for everyone for whom they have been filled. -/
theorem ListsInv.run {store : ItemStore} {players : List Player} {s s' : Loot} {ops : List Op}
    (h : ListsInv store players s)
    (hrun : Run (Op.Step store) (Op.Fair store players) s ops s') :
    ListsInv store players s' ∧ ∀ p ∈ players, (Filled ops p ∨ ∀ kind, ListedFor store p kind s) →
      ∀ kind, ListedFor store p kind s' := by
  induction hrun with
  | nil s =>
    refine ⟨h, fun p _ hfilled => ?_⟩
    rcases hfilled with ⟨_, _, hmem, _⟩ | hlisted
    · exact absurd hmem List.not_mem_nil
    · exact hlisted
  | cons hfair hs _ ih =>
    obtain ⟨hnext, who, he, hfilled⟩ := h.step hfair hs
    obtain ⟨hend, hlater⟩ := ih hnext
    refine ⟨hend, fun p hp hcases => hlater p hp ?_⟩
    rcases hcases with ⟨player, present, hmem, hguid⟩ | hlisted
    · rcases List.mem_cons.mp hmem with heq | hmem
      · exact .inr (hfilled player present heq.symm p hp hguid.symm)
      · exact .inl ⟨player, present, hmem, hguid⟩
    · exact .inr fun kind => he.listedFor (hlisted kind)

theorem ListsInv.agree {store : ItemStore} {players : List Player} {s : Loot}
    (h : ListsInv store players s) (hlisted : ∀ p ∈ players, ∀ kind, ListedFor store p kind s) :
    ListsAgree store players s where
  shared := fun item hitem hunlooted hcurrency hffa => by
    cases hconditions : item.conditions.isEmpty with
    | true =>
      exact iff_of_true (.inl rfl)
        (h.plain item hitem (Loot.copyKind_eq_none.mpr ⟨hcurrency, hffa, hconditions⟩))
    | false =>
      have hkind := Loot.copyKind_eq_conditional.mpr ⟨hcurrency, hffa, hconditions⟩
      refine ⟨fun hc => h.counted item hitem (hc.resolve_left Bool.false_ne_true), ?_⟩
      rintro ⟨p, hp, hallowed⟩
      obtain ⟨i, hi⟩ := List.getElem?_of_mem hitem
      have hcounted := hlisted p hp .conditional i item hi hkind hunlooted hallowed
      rw [if_pos rfl] at hcounted
      exact .inr hcounted
  special := fun p hp lootSlot item kind hitem hkind hne hunlooted hallowed hown => by
    have hcopy := hlisted p hp kind lootSlot item hitem hkind hunlooted hallowed
    rw [if_neg hne] at hcopy
    obtain ⟨c, hc, hidx⟩ := hcopy
    obtain ⟨ref, c', hsome, _⟩ := Loot.exists_ownCopy hkind hc hidx
    rw [hown] at hsome
    cases hsome
  owners := h.owners

/-- In every run on a generated loot whose steps are fair, the counter is what it is for, when the
lists have been filled for every player. -/
theorem counter_run {store : ItemStore} {gold : Nat} {drops : List Drop} {ops : List Op}
    {s : Loot} {players : List Player}
    (hplain : ∀ item ∈ ((Loot.new gold).process store drops).items, Loot.copyKind item = none →
      ∃ p ∈ players, item.allowedForPlayer store p = true)
    (hrun : Run (Op.Step store) (Op.Fair store players) ((Loot.new gold).process store drops) ops s)
    (hfilled : ∀ p ∈ players, Filled ops p) : CounterAgrees store players s := by
  have hgenerated : Generated ((Loot.new gold).process store drops) :=
    (Generated.new gold).process drops
  have hstart : ListsInv store players ((Loot.new gold).process store drops) :=
    hgenerated.listsInv hplain
  obtain ⟨hlists, hlisted⟩ := hstart.run hrun
  exact (hlists.agree fun p hp => hlisted p hp (.inl (hfilled p hp))).counterAgrees
    (hrun.invariant CounterInv hgenerated.counterInv fun _ _ _ h hfair hs => h.step hfair hs)

section Example

def plainDrop : Drop := ⟨⟨100, false, false, []⟩, 1, true⟩

def questDrop : Drop := ⟨⟨101, false, true, []⟩, 1, true⟩

def conditionalDrop : Drop := ⟨⟨102, false, false, [7]⟩, 1, true⟩

def currencyDrop : Drop := ⟨⟨103, true, false, []⟩, 5, true⟩

def partyDrops : List Drop := [plainDrop, questDrop, conditionalDrop, currencyDrop]

def party : List Player := [questPlayer 1 .groupLoot, questPlayer 2 .groupLoot]

def partyOps : List Op :=
  [.fillLists (questPlayer 1 .groupLoot) true, .fillLists (questPlayer 2 .groupLoot) true,
    .take (questPlayer 2 .groupLoot) 3]

def partyLoot : Loot :=
  partyOps.foldl (Op.apply plainStore) ((Loot.new 0).process plainStore partyDrops)

theorem party_known (s : Loot) : Known plainStore party s (questPlayer 1 .groupLoot) ∧
    Known plainStore party s (questPlayer 2 .groupLoot) := by
  refine ⟨⟨⟨_, List.mem_cons_self, rfl⟩, fun p hp hguid item _ => ?_⟩,
    ⟨⟨_, List.mem_cons_of_mem _ List.mem_cons_self, rfl⟩, fun p hp hguid item _ => ?_⟩⟩
  · rcases List.mem_cons.mp hp with rfl | hp
    · rfl
    · cases List.mem_singleton.mp hp
      cases hguid
  · rcases List.mem_cons.mp hp with rfl | hp
    · cases hguid
    · cases List.mem_singleton.mp hp
      rfl

theorem partyLoot_run : Run (Op.Step plainStore) (Op.Fair plainStore party)
    ((Loot.new 0).process plainStore partyDrops) partyOps partyLoot := by
  refine .cons ⟨⟨fun _ _ => ?_, fun _ => ?_⟩, (party_known _).1⟩ rfl
    (.cons ⟨⟨fun _ _ => ?_, fun _ => ?_⟩, (party_known _).2⟩ rfl (.cons ?_ rfl (.nil _)))
  · decide
  · decide
  · decide
  · decide
  · intro v hv _ _
    cases hv
    exact ⟨fun hcopy => (by cases hcopy), fun _ hcopy => by cases hcopy⟩

/-- The plain and the conditional item, two copies of the currency and one of the quest item are
still to be taken. -/
theorem counter_run_party :
    CounterAgrees plainStore party partyLoot ∧ partyLoot.unlootedCount = 5 := by
  refine ⟨counter_run (by decide) partyLoot_run fun p hp => ?_, rfl⟩
  rcases List.mem_cons.mp hp with rfl | hp
  · exact ⟨_, _, List.mem_cons_self, rfl⟩
  · cases List.mem_singleton.mp hp
    exact ⟨_, _, List.mem_cons_of_mem _ List.mem_cons_self, rfl⟩

/-- Two looters of a free-for-all group get a copy of one quest item; it is counted for
the first of them only. -/
theorem counter_fails_questCopies :
    ¬ ∀ (store : ItemStore) (gold : Nat) (drops : List Drop) (ops : List Op) (s : Loot)
      (players : List Player),
      Run (Op.Step store) always ((Loot.new gold).process store drops) ops s →
      (∀ p ∈ players, Filled ops p) → CounterAgrees store players s := by
  intro hall
  have hrun : Run (Op.Step plainStore) always ((Loot.new 0).process plainStore [questDrop])
      [.fillLists (questPlayer 1 .freeForAll) false, .fillLists (questPlayer 2 .freeForAll) false]
      _ := .cons trivial rfl (.cons trivial rfl (.nil _))
  have hagrees := hall plainStore 0 [questDrop] _ _
    [questPlayer 1 .freeForAll, questPlayer 2 .freeForAll] hrun (fun p hp => by
      rcases List.mem_cons.mp hp with rfl | hp
      · exact ⟨_, _, List.mem_cons_self, rfl⟩
      · cases List.mem_singleton.mp hp
        exact ⟨_, _, List.mem_cons_of_mem _ List.mem_cons_self, rfl⟩)
  exact absurd hagrees.count (by decide)

end Example

end Ashamane.Looting
