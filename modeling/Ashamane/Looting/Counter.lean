import Ashamane.Lib.Count
import Ashamane.Looting.Fill

/-! What `unlootedCount` counts, and that generating a loot and filling the lists of its
looters keeps the count. -/
namespace Ashamane.Looting

open Ashamane.Lib

def LootItem.counted (item : LootItem) : Bool :=
  !item.isLooted && !item.currency && !item.freeforall &&
    (item.conditions.isEmpty || item.isCounted)

/-- What an item of `items` looks like while no roll is made for it. -/
structure ItemSound (item : LootItem) : Prop where
  currency : item.currency = true → item.freeforall = false
  unblocked : item.isBlocked = false
  isCounted : item.isCounted = true → Loot.copyKind item = some .conditional

namespace Loot

def openCopies (loot : Loot) (kind : ListKind) : Nat :=
  Assoc.total (fun ql => ql.countP fun c => !c.isLooted) (loot.lists kind)

def openTakes (loot : Loot) : Nat :=
  loot.items.countP LootItem.counted + loot.openCopies .currency + loot.openCopies .quest +
    loot.openCopies .ffa

section Copies

variable {loot : Loot} {kind k : ListKind} {guid g : ObjectGuid}

theorem copies_setCopies (ql : List NotNormalLootItem) :
    (loot.setCopies kind guid ql).copies k g =
      if k = kind ∧ g = guid then ql else loot.copies k g := by
  by_cases hk : k = kind
  · subst hk
    by_cases hg : g = guid
    · subst hg
      simp [copies, setCopies]
    · simp [copies, setCopies, hg]
  · simp [copies, setCopies, hk]

theorem openCopies_setCopies {ql : List NotNormalLootItem}
    (hnone : (loot.lists kind).lookup guid = none) :
    (loot.setCopies kind guid ql).openCopies k =
      loot.openCopies k + if k = kind then ql.countP (fun c => !c.isLooted) else 0 := by
  by_cases hk : k = kind
  · subst hk
    simp only [openCopies, setCopies, if_true, Assoc.total_insert_of_notMem _ _ hnone]
    omega
  · simp [openCopies, setCopies, hk]

theorem copies_lootCopy (ref : CopyRef) :
    (loot.lootCopy guid ref).copies k g =
      if k = ref.kind ∧ g = guid then
        (loot.copies k g).modify ref.pos ({ · with isLooted := true })
      else loot.copies k g := by
  by_cases hk : k = ref.kind
  · subst hk
    by_cases hg : g = guid
    · subst hg
      simp only [copies, lootCopy, if_true, Assoc.lookup_modify_self, and_self]
      cases (loot.lists ref.kind).lookup g <;> simp
    · simp [copies, lootCopy, Assoc.lookup_modify_ne hg, hg]
  · simp [copies, lootCopy, hk]

theorem lookup_of_copies {i : Nat} {c : NotNormalLootItem} (h : (loot.copies kind guid)[i]? = some c) :
    (loot.lists kind).lookup guid = some (loot.copies kind guid) := by
  unfold copies at h ⊢
  cases hl : (loot.lists kind).lookup guid with
  | none => simp [hl] at h
  | some ql => simp

/-- Looting an open copy takes one from the open copies of its kind. -/
theorem openCopies_lootCopy {ref : CopyRef} {c : NotNormalLootItem}
    (hc : (loot.copies ref.kind guid)[ref.pos]? = some c) (hopen : c.isLooted = false) :
    (loot.lootCopy guid ref).openCopies k + (if k = ref.kind then 1 else 0) =
      loot.openCopies k := by
  by_cases hk : k = ref.kind
  · subst hk
    have htotal := Assoc.total_modify (fun ql => ql.countP fun c => !c.isLooted)
      (·.modify ref.pos ({ · with isLooted := true })) (lookup_of_copies hc)
    have hcount := countP_modify (fun c : NotNormalLootItem => !c.isLooted)
      ({ · with isLooted := true }) hc
    simp only [hopen, Bool.not_false, Bool.toNat_true, Bool.not_true, Bool.toNat_false] at hcount
    simp only [openCopies, lootCopy, if_true]
    omega
  · simp [openCopies, lootCopy, hk]

theorem openCopies_pos_iff :
    0 < loot.openCopies kind ↔ ∃ g, ∃ c ∈ loot.copies kind g, c.isLooted = false := by
  rw [openCopies, Assoc.total_pos_iff]
  constructor
  · rintro ⟨g, ql, hql, hpos⟩
    obtain ⟨c, hc, hopen⟩ := List.countP_pos_iff.mp hpos
    exact ⟨g, c, by simpa [copies, hql] using hc, by simpa using hopen⟩
  · rintro ⟨g, c, hc, hopen⟩
    obtain ⟨i, hi⟩ := List.getElem?_of_mem hc
    exact ⟨g, _, lookup_of_copies hi, List.countP_pos_iff.mpr ⟨c, hc, by simpa using hopen⟩⟩

end Copies

theorem mem_copiesOf {listed : LootItem → Bool} {l : List LootItem} {c : NotNormalLootItem} :
    c ∈ copiesOf listed l ↔
      c.isLooted = false ∧ ∃ item, l[c.index]? = some item ∧ listed item = true := by
  simp only [copiesOf, List.mem_map, List.mem_filter, Prod.exists]
  constructor
  · rintro ⟨item, i, ⟨hmem, hlisted⟩, rfl⟩
    exact ⟨rfl, item, List.mk_mem_zipIdx_iff_getElem?.mp hmem, hlisted⟩
  · rintro ⟨hopen, item, hitem, hlisted⟩
    obtain ⟨index, isLooted⟩ := c
    cases hopen
    exact ⟨item, index, ⟨List.mk_mem_zipIdx_iff_getElem?.mpr hitem, hlisted⟩, rfl⟩

theorem nodup_copiesOf (listed : LootItem → Bool) (l : List LootItem) :
    ((copiesOf listed l).map NotNormalLootItem.index).Nodup := by
  have hsub : ((copiesOf listed l).map NotNormalLootItem.index).Sublist
      (l.zipIdx.map Prod.snd) := by
    rw [copiesOf, List.map_map]
    exact List.filter_sublist.map Prod.snd
  refine hsub.nodup ?_
  rw [List.zipIdx_map_snd]
  exact List.nodup_range'

section StoreCopies

variable {loot : Loot} {kind k : ListKind} {guid g : ObjectGuid} {ql : List NotNormalLootItem}

theorem copies_storeCopies (hnone : (loot.lists kind).lookup guid = none) :
    (loot.storeCopies kind guid ql).copies k g =
      if k = kind ∧ g = guid then ql else loot.copies k g := by
  unfold storeCopies
  split
  next hempty =>
    rw [List.isEmpty_iff.mp hempty]
    split
    next heq => rw [heq.1, heq.2, copies, hnone, Option.getD_none]
    · rfl
  · exact copies_setCopies ql

theorem openCopies_storeCopies (hnone : (loot.lists kind).lookup guid = none) :
    (loot.storeCopies kind guid ql).openCopies k =
      loot.openCopies k + if k = kind then ql.countP (fun c => !c.isLooted) else 0 := by
  unfold storeCopies
  split
  next hempty =>
    rw [List.isEmpty_iff.mp hempty]
    simp
  · exact openCopies_setCopies hnone

theorem lists_storeCopies (hk : k ≠ kind) : (loot.storeCopies kind guid ql).lists k = loot.lists k := by
  unfold storeCopies
  split
  · rfl
  · exact if_neg hk

@[simp] theorem items_storeCopies : (loot.storeCopies kind guid ql).items = loot.items := by
  unfold storeCopies
  split <;> rfl

@[simp] theorem questItems_storeCopies :
    (loot.storeCopies kind guid ql).questItems = loot.questItems := by
  unfold storeCopies
  split <;> rfl

end StoreCopies

/-- The loop of `FillQuestLoot` keeps the number of quest items and lists positions of
the items it walks over, all of them open. -/
theorem fillQuestFrom_listed (store : ItemStore) (player : Player) (size : Nat) (l : List LootItem)
    (i n : Nat) :
    (fillQuestFrom store player size l i n).1.length = l.length ∧
      ∀ c ∈ (fillQuestFrom store player size l i n).2.1,
        c.isLooted = false ∧ i ≤ c.index ∧ c.index < i + l.length := by
  induction l generalizing i n with
  | nil => exact ⟨rfl, fun _ h => absurd h List.not_mem_nil⟩
  | cons item rest ih =>
    have hhead : ∀ c : NotNormalLootItem, c = ⟨i, false⟩ →
        c.isLooted = false ∧ i ≤ c.index ∧ c.index < i + (rest.length + 1) := by
      rintro c rfl
      exact ⟨rfl, Nat.le_refl i, by simp only; omega⟩
    have htail : ∀ m, ∀ c ∈ (fillQuestFrom store player size rest (i + 1) m).2.1,
        c.isLooted = false ∧ i ≤ c.index ∧ c.index < i + (rest.length + 1) := by
      intro m c hc
      obtain ⟨hopen, hle, hlt⟩ := (ih (i + 1) m).2 c hc
      exact ⟨hopen, by omega, by omega⟩
    simp only [fillQuestFrom]
    split
    · split
      · exact ⟨rfl, fun c hc => hhead c (List.mem_singleton.mp hc)⟩
      · refine ⟨congrArg Nat.succ (ih (i + 1) (n + 1)).1, fun c hc => ?_⟩
        rcases List.mem_cons.mp hc with rfl | hc
        · exact hhead _ rfl
        · exact htail _ c hc
    · exact ⟨congrArg Nat.succ (ih (i + 1) n).1, htail n⟩

/-- Every listed item is counted if none that is for one player only is blocked. -/
theorem fillQuestFrom_counted (store : ItemStore) (player : Player) (size : Nat)
    (l : List LootItem) (i n : Nat)
    (hfair : ∀ c ∈ (fillQuestFrom store player size l i n).2.1, ∀ item,
      l[c.index - i]? = some item → item.freeforall = false → item.isBlocked = false) :
    (fillQuestFrom store player size l i n).2.2 =
      (fillQuestFrom store player size l i n).2.1.length := by
  induction l generalizing i n with
  | nil => rfl
  | cons item rest ih =>
    have htail : ∀ m, (∀ c ∈ (fillQuestFrom store player size rest (i + 1) m).2.1, ∀ item',
        (item :: rest)[c.index - i]? = some item' → item'.freeforall = false →
          item'.isBlocked = false) →
        (fillQuestFrom store player size rest (i + 1) m).2.2 =
          (fillQuestFrom store player size rest (i + 1) m).2.1.length := by
      intro m hm
      refine ih (i + 1) m fun c hc item' hitem' => hm c hc item' ?_
      obtain ⟨_, hle, _⟩ := (fillQuestFrom_listed store player size rest (i + 1) m).2 c hc
      rw [show c.index - i = c.index - (i + 1) + 1 by omega, List.getElem?_cons_succ]
      exact hitem'
    have hone : (item.freeforall = false → item.isBlocked = false) →
        (if (item.freeforall || !item.isBlocked) = true then 1 else 0) = 1 := by
      intro hb
      cases hffa : item.freeforall
      · rw [hb hffa]
        rfl
      · rfl
    simp only [fillQuestFrom] at hfair ⊢
    split at hfair
    next hlisted =>
      rw [if_pos hlisted]
      split at hfair
      next hfull =>
        rw [if_pos hfull]
        exact hone (hfair _ (List.mem_singleton.mpr rfl) item (by simp))
      next hfull =>
        rw [if_neg hfull]
        have hhead := hone (hfair _ (List.mem_cons_self ..) item (by simp))
        have hrest := htail (n + 1) fun c hc => hfair c (List.mem_cons_of_mem _ hc)
        simp only [List.length_cons, hhead, hrest]
        omega
    next hlisted =>
      rw [if_neg hlisted]
      exact htail n hfair

end Loot

structure CounterInv (s : Loot) : Prop where
  count : s.unlootedCount = BitVec.ofNat 32 s.openTakes
  items : ∀ item ∈ s.items, ItemSound item
  special : ∀ (kind : ListKind) (g : ObjectGuid), kind ≠ .quest → ∀ c ∈ s.copies kind g,
    ∃ item, s.items[c.index]? = some item ∧ Loot.copyKind item = some kind
  conditional : ∀ (g : ObjectGuid), ∀ c ∈ s.copies .conditional g, ∀ item,
    s.items[c.index]? = some item → item.isCounted = true ∧ c.isLooted = item.isLooted
  distinct : ∀ (kind : ListKind) (g : ObjectGuid), kind ≠ .quest →
    ((s.copies kind g).map NotNormalLootItem.index).Nodup
  quest : ∀ (g : ObjectGuid), ∀ c ∈ s.copies .quest g, c.index < s.questItems.length

end Ashamane.Looting
