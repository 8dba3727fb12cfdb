import Ashamane.Looting.Counter

/-! Generating a loot and filling the lists of a looter keep the counter. -/
namespace Ashamane.Looting

open Ashamane.Lib

structure Generated (s : Loot) : Prop where
  lists : s.lists = fun _ => ∅
  count : s.unlootedCount = BitVec.ofNat 32 (s.items.countP LootItem.counted)
  items : ∀ item ∈ s.items, ItemSound item
  uncounted : ∀ item ∈ s.items, item.isCounted = false

namespace Generated

variable {store : ItemStore} {s : Loot}

theorem new (gold : Nat) : Generated (Loot.new gold) :=
  ⟨rfl, rfl, fun _ h => absurd h List.not_mem_nil, fun _ h => absurd h List.not_mem_nil⟩

theorem counterInv (h : Generated s) : CounterInv s where
  count := by
    have hopen : ∀ kind, s.openCopies kind = 0 := fun kind => by
      rw [Loot.openCopies, h.lists]
      rfl
    simp only [h.count, Loot.openTakes, hopen, Nat.add_zero]
  items := h.items
  special := fun kind g _ c hc => by
    rw [Loot.copies, h.lists] at hc
    exact absurd hc List.not_mem_nil
  conditional := fun g c hc => by
    rw [Loot.copies, h.lists] at hc
    exact absurd hc List.not_mem_nil
  distinct := fun kind g _ => by
    rw [Loot.copies, h.lists]
    exact List.nodup_nil
  quest := fun g c hc => by
    rw [Loot.copies, h.lists] at hc
    exact absurd hc List.not_mem_nil

theorem sound_new (item : LootStoreItem) (count : Nat) :
    ItemSound { LootItem.new store item with count := count } where
  currency := fun hc => by
    have hcur : item.currency = true := hc
    simp [LootItem.new, hcur]
  unblocked := rfl
  isCounted := fun hc => absurd hc Bool.false_ne_true

/-- New items go to the end of `items`; those that are counted raise the counter. -/
theorem push {l : List LootItem} {n : Nat} (h : Generated s)
    (hnew : ∀ x ∈ l, ∃ item count, x = { LootItem.new store item with count := count })
    (hn : n = l.countP LootItem.counted) :
    Generated { s with
      items := s.items ++ l
      unlootedCount := s.unlootedCount + BitVec.ofNat 32 n } where
  lists := h.lists
  count := by
    rw [h.count, hn, List.countP_append, BitVec.ofNat_add]
  items := fun x hx => by
    rcases List.mem_append.mp hx with hold | hl
    · exact h.items x hold
    · obtain ⟨item, count, rfl⟩ := hnew x hl
      exact sound_new item count
  uncounted := fun x hx => by
    rcases List.mem_append.mp hx with hold | hl
    · exact h.uncounted x hold
    · obtain ⟨item, count, rfl⟩ := hnew x hl
      rfl

theorem of_items {s' : Loot} (h : Generated s) (hlists : s'.lists = s.lists)
    (hitems : s'.items = s.items) (hcount : s'.unlootedCount = s.unlootedCount) : Generated s' :=
  ⟨hlists.trans h.lists, by rw [hcount, h.count, hitems], by rw [hitems]; exact h.items,
    by rw [hitems]; exact h.uncounted⟩

theorem stacksOf_spec {item : LootStoreItem} {count maxStackSize : Nat} {x : LootItem}
    (hx : x ∈ Loot.stacksOf store item count maxStackSize) :
    ∃ n, x = { LootItem.new store item with count := n } := by
  obtain ⟨i, _, rfl⟩ := List.mem_map.mp hx
  exact ⟨_, rfl⟩

theorem addItem (h : Generated s) (drop : Drop) : Generated (s.addItem store drop) := by
  unfold Loot.addItem
  simp only
  split
  next hcur =>
    split
    · exact h.of_items rfl rfl rfl
    · have hpush := h.push (l := [{ LootItem.new store drop.item with count := drop.count }])
        (fun x hx => ⟨drop.item, drop.count, List.mem_singleton.mp hx⟩)
        (n := 0) (by simp [LootItem.counted, LootItem.new, hcur])
      simpa using hpush
  next hcur =>
  split
  · exact h
  next proto hproto =>
  split
  · exact h
  cases hquest : drop.item.needsQuest with
  | true =>
    refine h.of_items (by simp) (by simp) ?_
    simp
  | false =>
    generalize hgen : (Loot.stacksOf store drop.item drop.count proto.maxStackSize).take
      (maxNrLootItems - s.items.length) = generated
    have hmem : ∀ x ∈ generated, ∃ n, x = { LootItem.new store drop.item with count := n } :=
      fun x hx => stacksOf_spec (List.mem_of_mem_take (hgen ▸ hx))
    have hcounted : ∀ x ∈ generated,
        x.counted = (drop.item.conditions.isEmpty && !proto.multiDrop) := by
      intro x hx
      obtain ⟨n, rfl⟩ := hmem x hx
      simp [LootItem.counted, LootItem.new, hcur, hproto, Bool.and_comm]
    have hn : (if (drop.item.conditions.isEmpty && !proto.multiDrop) = true
        then generated.length else 0) = generated.countP LootItem.counted := by
      split
      next hall => exact (List.countP_eq_length.mpr fun x hx => (hcounted x hx).trans hall).symm
      next hnone =>
        exact (List.countP_eq_zero.mpr fun x hx => by rw [hcounted x hx]; exact hnone).symm
    simpa [hgen] using h.push (fun x hx => ⟨drop.item, hmem x hx⟩) hn

theorem process (h : Generated s) (drops : List Drop) : Generated (s.process store drops) := by
  induction drops generalizing s with
  | nil => exact h
  | cons drop rest ih => exact ih (h.addItem drop)

end Generated

def questShown (store : ItemStore) (player : Player) (size : Nat) (l : List LootItem) :
    List LootItem :=
  let shown := l.filter (Loot.questListed store player)
  if size < maxNrLootItems then shown.take (maxNrLootItems - size) else shown

structure FillFair (store : ItemStore) (s : Loot) (player : Player) : Prop where
  quest : (s.lists .quest).lookup player.guid = none → s.items.length ≠ maxNrLootItems →
    ∀ item ∈ questShown store player s.items.length s.questItems,
      item.allowedForPlayer store player = true ∧
        (item.freeforall = false → item.isBlocked = false)
  conditional : (s.lists .conditional).lookup player.guid = none → ∀ item ∈ s.items,
    Loot.conditionalHit store player item = true → item.conditions.isEmpty = false →
      item.currency = false

theorem fillQuestFrom_shown (store : ItemStore) (player : Player) (size : Nat) (l : List LootItem)
    (i n : Nat) (hsize : size + n ≠ maxNrLootItems) :
    ∀ c ∈ (Loot.fillQuestFrom store player size l i n).2.1, ∀ item, l[c.index - i]? = some item →
      item ∈ questShown store player (size + n) l := by
  induction l generalizing i n with
  | nil => exact fun _ h => absurd h List.not_mem_nil
  | cons first rest ih =>
    have htail : ∀ m, size + m ≠ maxNrLootItems →
        ∀ c ∈ (Loot.fillQuestFrom store player size rest (i + 1) m).2.1, ∀ item,
          (first :: rest)[c.index - i]? = some item →
            item ∈ questShown store player (size + m) rest := by
      intro m hm c hc item hitem
      obtain ⟨_, hle, _⟩ := (Loot.fillQuestFrom_listed store player size rest (i + 1) m).2 c hc
      rw [show c.index - i = c.index - (i + 1) + 1 by omega, List.getElem?_cons_succ] at hitem
      exact ih (i + 1) m hm c hc item hitem
    simp only [Loot.fillQuestFrom]
    split
    next hlisted =>
      have hshown : questShown store player (size + n) (first :: rest) =
          first :: if size + n < maxNrLootItems then
            (rest.filter (Loot.questListed store player)).take (maxNrLootItems - (size + n) - 1)
          else rest.filter (Loot.questListed store player) := by
        unfold questShown
        rw [List.filter_cons_of_pos hlisted]
        split
        next hlt =>
          obtain ⟨k, hk⟩ := Nat.exists_eq_add_of_lt hlt
          rw [show maxNrLootItems - (size + n) = k + 1 by omega]
          rfl
        · rfl
      have hhead : ∀ item, (first :: rest)[i - i]? = some item →
          item ∈ questShown store player (size + n) (first :: rest) := by
        intro item hitem
        rw [Nat.sub_self] at hitem
        rw [hshown, ← Option.some.inj hitem]
        exact List.mem_cons_self
      split
      · intro c hc item hitem
        cases List.mem_singleton.mp hc
        exact hhead item hitem
      next hroom =>
        intro c hc item hitem
        rcases List.mem_cons.mp hc with rfl | hc
        · exact hhead item hitem
        · have hmem := htail (n + 1) hroom c hc item hitem
          rw [hshown]
          refine List.mem_cons_of_mem _ ?_
          unfold questShown at hmem
          by_cases hlt : size + n < maxNrLootItems
          · rw [if_pos (by omega)] at hmem
            rwa [if_pos hlt, Nat.sub_sub]
          · rw [if_neg (by omega)] at hmem
            rwa [if_neg hlt]
    next hlisted =>
      intro c hc item hitem
      have hmem := htail n hsize c hc item hitem
      unfold questShown at hmem ⊢
      rwa [List.filter_cons_of_neg hlisted]

theorem FillFair.listed {store : ItemStore} {s : Loot} {player : Player}
    (h : FillFair store s player) (hnone : (s.lists .quest).lookup player.guid = none)
    (hroom : s.items.length ≠ maxNrLootItems) :
    ∀ c ∈ (Loot.fillQuestFrom store player s.items.length s.questItems 0 0).2.1,
      ∃ item, s.questItems[c.index]? = some item ∧ item.allowedForPlayer store player = true ∧
        (item.freeforall = false → item.isBlocked = false) := by
  intro c hc
  obtain ⟨_, _, hlt⟩ :=
    (Loot.fillQuestFrom_listed store player s.items.length s.questItems 0 0).2 c hc
  have hitem := List.getElem?_eq_getElem (l := s.questItems) (i := c.index) (by omega)
  exact ⟨_, hitem, h.quest hnone hroom _ (fillQuestFrom_shown store player s.items.length
    s.questItems 0 0 hroom c hc _ hitem)⟩

namespace CounterInv

variable {store : ItemStore} {s : Loot} {player : Player}

/-- One list more: `ql` becomes the list of a player who had none of its kind, the items
are touched by `f`, and `n` is added to the counter. -/
theorem storeCopies {s' : Loot} {kind : ListKind} {guid : ObjectGuid}
    {ql : List NotNormalLootItem} {f : LootItem → LootItem} {n : Nat} (h : CounterInv s)
    (hnone : (s.lists kind).lookup guid = none)
    (hlists : s'.lists = (s.storeCopies kind guid ql).lists)
    (hitems : s'.items = s.items.map f)
    (hquest : s'.questItems.length = s.questItems.length)
    (hcount : s'.unlootedCount = s.unlootedCount + BitVec.ofNat 32 n)
    (hn : s.items.countP LootItem.counted + n = (s.items.map f).countP LootItem.counted +
      if kind = .conditional then 0 else ql.length)
    (hsound : ∀ item ∈ s.items, ItemSound (f item) ∧
      Loot.copyKind (f item) = Loot.copyKind item ∧ (f item).isLooted = item.isLooted ∧
      (item.isCounted = true → (f item).isCounted = true))
    (hql : ∀ c ∈ ql, c.isLooted = false ∧ (kind = .quest → c.index < s.questItems.length) ∧
      (kind ≠ .quest → ∃ item, s.items[c.index]? = some item ∧ Loot.copyKind item = some kind ∧
        (kind = .conditional → item.isLooted = false ∧ (f item).isCounted = true)))
    (hdistinct : kind ≠ .quest → (ql.map NotNormalLootItem.index).Nodup) : CounterInv s' := by
  have hcopies : ∀ k g, s'.copies k g = if k = kind ∧ g = guid then ql else s.copies k g := by
    intro k g
    rw [Loot.copies, hlists]
    exact Loot.copies_storeCopies hnone
  have hopen : ∀ k, s'.openCopies k = s.openCopies k + if k = kind then ql.length else 0 := by
    intro k
    have hall : ql.countP (fun c => !c.isLooted) = ql.length :=
      List.countP_eq_length.mpr fun c hc => by rw [(hql c hc).1]; rfl
    rw [Loot.openCopies, hlists, ← hall]
    exact Loot.openCopies_storeCopies hnone
  have hget : ∀ (i : Nat) (item' : LootItem), s'.items[i]? = some item' →
      ∃ item ∈ s.items, s.items[i]? = some item ∧ f item = item' := by
    intro i item' hitem'
    rw [hitems, List.getElem?_map] at hitem'
    obtain ⟨item, hitem, rfl⟩ := Option.map_eq_some_iff.mp hitem'
    exact ⟨item, List.mem_of_getElem? hitem, hitem, rfl⟩
  constructor
  case count =>
    rw [hcount, h.count, ← BitVec.ofNat_add, Loot.openTakes, Loot.openTakes, hopen, hopen, hopen,
      hitems]
    congr 1
    cases kind <;> simp at hn ⊢ <;> omega
  case items =>
    intro item' hitem'
    rw [hitems] at hitem'
    obtain ⟨item, hitem, rfl⟩ := List.mem_map.mp hitem'
    exact (hsound item hitem).1
  case special =>
    intro k g hk c hc
    rw [hcopies] at hc
    have hold : ∃ item, s.items[c.index]? = some item ∧ Loot.copyKind item = some k := by
      split at hc
      next heq =>
        obtain ⟨rfl, rfl⟩ := heq
        obtain ⟨item, hitem, hkind, _⟩ := (hql c hc).2.2 hk
        exact ⟨item, hitem, hkind⟩
      · exact h.special k g hk c hc
    obtain ⟨item, hitem, hkind⟩ := hold
    refine ⟨f item, by rw [hitems, List.getElem?_map, hitem]; rfl, ?_⟩
    rw [(hsound item (List.mem_of_getElem? hitem)).2.1, hkind]
  case conditional =>
    intro g c hc item' hitem'
    obtain ⟨item, hmem, hitem, rfl⟩ := hget c.index item' hitem'
    obtain ⟨_, _, hlooted, hcounted⟩ := hsound item hmem
    rw [hcopies] at hc
    split at hc
    next heq =>
      obtain ⟨rfl, rfl⟩ := heq
      obtain ⟨item₁, hitem₁, _, hnew⟩ := (hql c hc).2.2 (by decide)
      cases hitem.symm.trans hitem₁
      obtain ⟨hunlooted, hnew⟩ := hnew rfl
      exact ⟨hnew, by rw [(hql c hc).1, hlooted, hunlooted]⟩
    · obtain ⟨hc₁, hc₂⟩ := h.conditional g c hc item hitem
      exact ⟨hcounted hc₁, by rw [hlooted, hc₂]⟩
  case distinct =>
    intro k g hk
    rw [hcopies]
    split
    next heq => exact hdistinct (heq.1 ▸ hk)
    · exact h.distinct k g hk
  case quest =>
    intro g c hc
    rw [hcopies] at hc
    rw [hquest]
    split at hc
    next heq => exact (hql c hc).2.1 heq.1.symm
    · exact h.quest g c hc

theorem lists_storeCopies_eq {loot loot' : Loot} (hlists : loot'.lists = loot.lists)
    (kind : ListKind) (guid : ObjectGuid) (ql : List NotNormalLootItem) :
    (loot'.storeCopies kind guid ql).lists = (loot.storeCopies kind guid ql).lists := by
  unfold Loot.storeCopies
  split
  · exact hlists
  · simp only [Loot.setCopies, hlists]

theorem sound_id (h : CounterInv s) : ∀ item ∈ s.items, ItemSound (id item) ∧
    Loot.copyKind (id item) = Loot.copyKind item ∧ (id item).isLooted = item.isLooted ∧
    (item.isCounted = true → (id item).isCounted = true) :=
  fun item hitem => ⟨h.items item hitem, rfl, rfl, id⟩

/-- Own copies of the items that meet `special`, each of them counted. -/
theorem fillCounted {kind : ListKind} {special : LootItem → Bool} (h : CounterInv s)
    (hkind : kind ≠ .quest) (hcond : kind ≠ .conditional)
    (hnone : (s.lists kind).lookup player.guid = none)
    (hspecial : ∀ item ∈ s.items, special item = true → Loot.copyKind item = some kind) :
    CounterInv (s.fillCounted store kind special player) := by
  refine h.storeCopies hnone rfl (f := id) (by simp [Loot.fillCounted])
    (by simp [Loot.fillCounted]) rfl (by simp [hcond]) h.sound_id ?_
    fun _ => Loot.nodup_copiesOf _ _
  intro c hc
  obtain ⟨hopen, item, hitem, hlisted⟩ := Loot.mem_copiesOf.mp hc
  simp only [Bool.and_eq_true] at hlisted
  exact ⟨hopen, fun hq => absurd hq hkind, fun _ =>
    ⟨item, hitem, hspecial item (List.mem_of_getElem? hitem) hlisted.1.2,
      fun hc => absurd hc hcond⟩⟩

theorem fillCurrencyLoot (store : ItemStore) (player : Player) (h : CounterInv s)
    (hnone : (s.lists .currency).lookup player.guid = none) :
    CounterInv (s.fillCurrencyLoot store player) :=
  h.fillCounted (by decide) (by decide) hnone fun item _ hcur => by simp [Loot.copyKind, hcur]

theorem fillFFALoot (store : ItemStore) (player : Player) (h : CounterInv s)
    (hnone : (s.lists .ffa).lookup player.guid = none) :
    CounterInv (s.fillFFALoot store player) := by
  refine h.fillCounted (by decide) (by decide) hnone fun item hitem hffa => ?_
  have hcur : item.currency = false := by
    by_contra hc
    have hnot := (h.items item hitem).currency (by simpa using hc)
    rw [hnot] at hffa
    cases hffa
  simp [Loot.copyKind, hcur, hffa]

theorem fillQuestLoot (h : CounterInv s) (hnone : (s.lists .quest).lookup player.guid = none)
    (hfair : s.items.length ≠ maxNrLootItems →
      ∀ c ∈ (Loot.fillQuestFrom store player s.items.length s.questItems 0 0).2.1,
        ∀ item, s.questItems[c.index]? = some item → item.freeforall = false →
          item.isBlocked = false) :
    CounterInv (s.fillQuestLoot store player) := by
  unfold Loot.fillQuestLoot
  split
  · exact h
  next hroom =>
  obtain ⟨hlen, hlisted⟩ :=
    Loot.fillQuestFrom_listed store player s.items.length s.questItems 0 0
  have hcounted := Loot.fillQuestFrom_counted store player s.items.length s.questItems 0 0
    (hfair hroom)
  generalize Loot.fillQuestFrom store player s.items.length s.questItems 0 0 = r
    at hlen hlisted hcounted ⊢
  have hlists := @lists_storeCopies_eq s { s with questItems := r.1 } rfl .quest player.guid r.2.1
  refine h.storeCopies hnone hlists (f := id) (by simp) (by simpa) rfl
    (by simp [hcounted]) h.sound_id ?_ fun hq => absurd rfl hq
  intro c hc
  obtain ⟨hopen, _, hlt⟩ := hlisted c hc
  exact ⟨hopen, fun _ => by omega, fun hq => absurd rfl hq⟩

theorem visitConditional_spec (store : ItemStore) (player : Player) (presentAtLooting : Bool)
    (item : LootItem) :
    let visited := Loot.visitConditional store player presentAtLooting item
    visited.isLooted = item.isLooted ∧ visited.isBlocked = item.isBlocked ∧
      visited.currency = item.currency ∧ visited.freeforall = item.freeforall ∧
      visited.conditions = item.conditions ∧
      visited.isCounted = (item.isCounted ||
        (Loot.conditionalHit store player item && !item.conditions.isEmpty)) := by
  unfold Loot.visitConditional
  cases Loot.conditionalHit store player item with
  | false => simp
  | true => cases presentAtLooting <;> cases hc : item.conditions.isEmpty <;>
      simp [LootItem.addAllowedLooter, hc]

theorem counted_visitConditional (presentAtLooting : Bool) {item : LootItem}
    (hlisted : (Loot.conditionalHit store player item && !item.conditions.isEmpty) = true →
      Loot.copyKind item = some .conditional ∧ item.isLooted = false ∧ item.currency = false ∧
        item.freeforall = false) :
    (if item.counted = true then 1 else 0) +
      (if (Loot.conditionalHit store player item && !item.conditions.isEmpty &&
        !item.isCounted) = true then 1 else 0) =
      if (Loot.visitConditional store player presentAtLooting item).counted = true then 1 else 0 := by
  obtain ⟨hl, _, hcur, hffa, hcond, hcounted⟩ :=
    visitConditional_spec store player presentAtLooting item
  cases hhit : (Loot.conditionalHit store player item && !item.conditions.isEmpty) with
  | false =>
    have hsame : (Loot.visitConditional store player presentAtLooting item).counted =
        item.counted := by
      simp [LootItem.counted, hl, hcur, hffa, hcond, hcounted, hhit]
    rw [hsame]
    simp
  | true =>
    obtain ⟨_, hunlooted, hcur', hffa'⟩ := hlisted hhit
    have hne := (Bool.and_eq_true _ _ ▸ hhit).2
    rw [Bool.not_eq_true'] at hne
    have hbefore : item.counted = item.isCounted := by
      simp [LootItem.counted, hunlooted, hcur', hffa', hne]
    have hafter : (Loot.visitConditional store player presentAtLooting item).counted = true := by
      simp [LootItem.counted, hl, hcur, hffa, hcond, hcounted, hunlooted, hcur', hffa', hhit]
    rw [hbefore, hafter]
    cases item.isCounted <;> rfl

theorem fillNonQuestNonFFAConditionalLoot (presentAtLooting : Bool) (h : CounterInv s)
    (hnone : (s.lists .conditional).lookup player.guid = none)
    (hfair : ∀ item ∈ s.items, Loot.conditionalHit store player item = true →
      item.conditions.isEmpty = false → item.currency = false) :
    CounterInv (s.fillNonQuestNonFFAConditionalLoot store player presentAtLooting) := by
  have hlistedKind : ∀ item ∈ s.items, (Loot.conditionalHit store player item &&
      !item.conditions.isEmpty) = true → Loot.copyKind item = some .conditional ∧
        item.isLooted = false ∧ item.currency = false ∧ item.freeforall = false := by
    intro item hitem hlisted
    simp only [Bool.and_eq_true, Bool.not_eq_true'] at hlisted
    have hcur := hfair item hitem hlisted.1 hlisted.2
    have hhit := hlisted.1
    simp only [Loot.conditionalHit, Bool.and_eq_true, Bool.not_eq_true'] at hhit
    exact ⟨by simp [Loot.copyKind, hcur, hhit.1.2, hlisted.2], hhit.1.1, hcur, hhit.1.2⟩
  unfold Loot.fillNonQuestNonFFAConditionalLoot
  have hlists := @lists_storeCopies_eq s
    { s with items := s.items.map (Loot.visitConditional store player presentAtLooting) } rfl
    .conditional player.guid (Loot.copiesOf (fun item =>
      Loot.conditionalHit store player item && !item.conditions.isEmpty) s.items)
  refine h.storeCopies hnone hlists
    (f := Loot.visitConditional store player presentAtLooting) (by simp) (by simp) rfl ?_ ?_ ?_
    fun _ => Loot.nodup_copiesOf _ _
  · -- an item is counted after the visit if it was before, or if it is listed and was not
    simp only [if_true, Nat.add_zero, List.countP_map]
    generalize s.items = l at hlistedKind
    induction l with
    | nil => rfl
    | cons item l ih =>
      have hrec := ih fun x hx => hlistedKind x (List.mem_cons_of_mem _ hx)
      have hitem := counted_visitConditional presentAtLooting
        (hlistedKind item (List.mem_cons_self ..))
      simp only [List.countP_cons, Function.comp] at hrec ⊢
      omega
  · intro item hitem
    obtain ⟨hl, hblocked, hcur, hffa, hcond, hcounted⟩ :=
      visitConditional_spec store player presentAtLooting item
    have hsound := h.items item hitem
    have hkind : Loot.copyKind (Loot.visitConditional store player presentAtLooting item) =
        Loot.copyKind item := by
      simp only [Loot.copyKind, hcur, hffa, hcond]
    refine ⟨⟨by rw [hcur, hffa]; exact hsound.currency, by rw [hblocked]; exact hsound.unblocked,
      fun hc => ?_⟩, hkind, hl, fun hc => by rw [hcounted, hc, Bool.true_or]⟩
    rw [hcounted, Bool.or_eq_true] at hc
    rw [hkind]
    exact hc.elim hsound.isCounted fun hlisted => (hlistedKind item hitem hlisted).1
  · intro c hc
    obtain ⟨hopen, item, hitem, hlisted⟩ := Loot.mem_copiesOf.mp hc
    obtain ⟨hkind, hunlooted, _, _⟩ := hlistedKind item (List.mem_of_getElem? hitem) hlisted
    obtain ⟨_, _, _, _, _, hcounted⟩ := visitConditional_spec store player presentAtLooting item
    exact ⟨hopen, fun hq => absurd hq (by decide), fun _ =>
      ⟨item, hitem, hkind, fun _ => ⟨hunlooted, by rw [hcounted, hlisted, Bool.or_true]⟩⟩⟩

theorem ifMissing {kind : ListKind} {guid : ObjectGuid} {filled : Loot} (h : CounterInv s)
    (hfilled : (s.lists kind).lookup guid = none → CounterInv filled) :
    CounterInv (s.ifMissing kind guid filled) := by
  unfold Loot.ifMissing
  split
  next hnone => exact hfilled (Option.isNone_iff_eq_none.mp hnone)
  · exact h

structure Frame (kind : ListKind) (s s' : Loot) : Prop where
  items : s'.items = s.items
  questItems : kind ≠ .quest → s'.questItems = s.questItems
  lists : ∀ k, k ≠ kind → s'.lists k = s.lists k

theorem frame_fillCounted (store : ItemStore) (s : Loot) (kind : ListKind)
    (special : LootItem → Bool) (player : Player) :
    Frame kind s (s.fillCounted store kind special player) :=
  ⟨Loot.items_storeCopies, fun _ => Loot.questItems_storeCopies, fun _ => Loot.lists_storeCopies⟩

theorem frame_fillQuestLoot (store : ItemStore) (s : Loot) (player : Player) :
    Frame .quest s (s.fillQuestLoot store player) := by
  unfold Loot.fillQuestLoot
  split
  · exact ⟨rfl, fun _ => rfl, fun _ _ => rfl⟩
  · exact ⟨by simp, fun hq => absurd rfl hq, fun _ hk => Loot.lists_storeCopies hk⟩

theorem frame_ifMissing {kind : ListKind} (guid : ObjectGuid) {filled : Loot}
    (h : Frame kind s filled) : Frame kind s (s.ifMissing kind guid filled) := by
  unfold Loot.ifMissing
  split
  · exact h
  · exact ⟨rfl, fun _ => rfl, fun _ _ => rfl⟩

theorem fillLists (presentAtLooting : Bool) (h : CounterInv s) (hfair : FillFair store s player) :
    CounterInv (s.fillLists store player presentAtLooting) := by
  simp only [Loot.fillLists]
  have h₁ := h.ifMissing (h.fillCurrencyLoot store player)
  have f₁ := frame_ifMissing player.guid
    (frame_fillCounted store s .currency LootItem.currency player)
  change Frame .currency s (s.ifMissing .currency player.guid (s.fillCurrencyLoot store player))
    at f₁
  generalize s.ifMissing .currency player.guid (s.fillCurrencyLoot store player) = s₁ at h₁ f₁ ⊢
  have h₂ : CounterInv (s₁.ifMissing .quest player.guid (s₁.fillQuestLoot store player)) := by
    refine h₁.ifMissing fun hnone => h₁.fillQuestLoot hnone ?_
    rw [f₁.items, f₁.questItems (by decide)]
    rw [f₁.lists _ (by decide)] at hnone
    intro hroom c hc item hitem
    obtain ⟨item', hitem', _, hunblocked⟩ := hfair.listed hnone hroom c hc
    cases hitem.symm.trans hitem'
    exact hunblocked
  have f₂ := frame_ifMissing player.guid (frame_fillQuestLoot store s₁ player)
  generalize s₁.ifMissing .quest player.guid (s₁.fillQuestLoot store player) = s₂ at h₂ f₂ ⊢
  have h₃ := h₂.ifMissing (h₂.fillFFALoot store player)
  have f₃ := frame_ifMissing player.guid
    (frame_fillCounted store s₂ .ffa LootItem.freeforall player)
  change Frame .ffa s₂ (s₂.ifMissing .ffa player.guid (s₂.fillFFALoot store player)) at f₃
  generalize s₂.ifMissing .ffa player.guid (s₂.fillFFALoot store player) = s₃ at h₃ f₃ ⊢
  refine h₃.ifMissing fun hnone => h₃.fillNonQuestNonFFAConditionalLoot presentAtLooting hnone ?_
  rw [f₃.items, f₂.items, f₁.items]
  rw [f₃.lists _ (by decide), f₂.lists _ (by decide), f₁.lists _ (by decide)] at hnone
  exact hfair.conditional hnone

theorem markUnderthreshold (store : ItemStore) (threshold : Nat) (h : CounterInv s) :
    CounterInv (s.markUnderthreshold store threshold) := by
  generalize hf : (fun item : LootItem =>
    if (store item.itemid).any (·.quality < threshold) then
      { item with isUnderthreshold := true } else item) = f
  have hs' : s.markUnderthreshold store threshold = { s with items := s.items.map f } := by
    rw [Loot.markUnderthreshold, hf]
  have htouch : ∀ item, f item = item ∨ f item = { item with isUnderthreshold := true } := by
    intro item
    rw [← hf]
    exact (ite_eq_or_eq _ _ _).symm
  have hcounted : ∀ item, (f item).counted = item.counted := fun item => by
    rcases htouch item with heq | heq <;> rw [heq]
    rfl
  have hkind : ∀ item, Loot.copyKind (f item) = Loot.copyKind item := fun item => by
    rcases htouch item with heq | heq <;> rw [heq]
    rfl
  rw [hs']
  constructor
  case count =>
    have hcount : (s.items.map f).countP LootItem.counted = s.items.countP LootItem.counted := by
      rw [List.countP_map]
      exact List.countP_congr fun item _ => by rw [Function.comp, hcounted]
    rw [Loot.openTakes, hcount]
    exact h.count
  case items =>
    intro item' hitem'
    obtain ⟨item, hitem, rfl⟩ := List.mem_map.mp hitem'
    have hsound := h.items item hitem
    rcases htouch item with heq | heq <;> rw [heq]
    · exact hsound
    · exact ⟨hsound.currency, hsound.unblocked, hsound.isCounted⟩
  case special =>
    intro k g hk c hc
    obtain ⟨item, hitem, hitemKind⟩ := h.special k g hk c hc
    exact ⟨f item, by rw [List.getElem?_map, hitem]; rfl, by rw [hkind, hitemKind]⟩
  case conditional =>
    intro g c hc item' hitem'
    rw [List.getElem?_map] at hitem'
    obtain ⟨item, hitem, rfl⟩ := Option.map_eq_some_iff.mp hitem'
    have hcond := h.conditional g c hc item hitem
    rcases htouch item with heq | heq <;> rw [heq]
    · exact hcond
    · exact hcond
  case distinct => exact h.distinct
  case quest => exact h.quest

end CounterInv

end Ashamane.Looting
