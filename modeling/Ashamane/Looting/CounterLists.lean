import Ashamane.Looting.CounterFill

/-! The lists that looters get at different moments still say who may have what. -/
namespace Ashamane.Looting

open Ashamane.Lib

/-- What `AllowedForPlayer` and the kind of own copies depend on: no operation changes it. -/
def LootItem.basis (item : LootItem) : Nat × List Nat × Bool × Bool × Bool :=
  (item.itemid, item.conditions, item.currency, item.freeforall, item.needsQuest)

namespace LootItem

variable {store : ItemStore} {item item' : LootItem} {player : Player}

theorem allowedForPlayer_congr (h : item'.basis = item.basis) :
    item'.allowedForPlayer store player = item.allowedForPlayer store player := by
  simp only [basis, Prod.mk.injEq] at h
  obtain ⟨hid, hconditions, hcurrency, _, hquest⟩ := h
  simp only [allowedForPlayer, hid, hconditions, hcurrency, hquest]

theorem copyKind_congr (h : item'.basis = item.basis) : Loot.copyKind item' = Loot.copyKind item := by
  simp only [basis, Prod.mk.injEq] at h
  obtain ⟨_, hconditions, hcurrency, hffa, _⟩ := h
  simp only [Loot.copyKind, hconditions, hcurrency, hffa]

theorem exists_of_basis {l l' : List LootItem} {i : Nat} (h : l'.map basis = l.map basis)
    (hitem : l[i]? = some item) : ∃ item', l'[i]? = some item' ∧ item'.basis = item.basis := by
  have hget := congrArg (·[i]?) h
  simp only [List.getElem?_map, hitem, Option.map_some] at hget
  exact Option.map_eq_some_iff.mp hget

theorem basis_modify {f : LootItem → LootItem} (hf : ∀ item, (f item).basis = item.basis)
    (l : List LootItem) (i : Nat) : (l.modify i f).map basis = l.map basis := by
  refine List.ext_getElem? fun j => ?_
  rw [List.getElem?_map, List.getElem?_map, List.getElem?_modify]
  cases l[j]? with
  | none => rfl
  | some item => by_cases hij : i = j <;> simp [hij, hf]

end LootItem

namespace Loot

variable {store : ItemStore} {s s' : Loot} {player : Player} {kind : ListKind} {i : Nat}

def Suits (store : ItemStore) (s : Loot) (player : Player) (kind : ListKind) (i : Nat) : Prop :=
  ∃ item, (if kind = .quest then s.questItems[i]? else s.items[i]?) = some item ∧
    item.allowedForPlayer store player = true

theorem Suits.congr (h : s.Suits store player kind i)
    (hitems : s'.items.map LootItem.basis = s.items.map LootItem.basis)
    (hquest : s'.questItems.map LootItem.basis = s.questItems.map LootItem.basis) :
    s'.Suits store player kind i := by
  obtain ⟨item, hitem, hallowed⟩ := h
  unfold Suits
  by_cases hkind : kind = .quest
  · rw [if_pos hkind] at hitem
    obtain ⟨item', hitem', hbasis⟩ := LootItem.exists_of_basis hquest hitem
    exact ⟨item', by rw [if_pos hkind, hitem'],
      (LootItem.allowedForPlayer_congr hbasis).trans hallowed⟩
  · rw [if_neg hkind] at hitem
    obtain ⟨item', hitem', hbasis⟩ := LootItem.exists_of_basis hitems hitem
    exact ⟨item', by rw [if_neg hkind, hitem'],
      (LootItem.allowedForPlayer_congr hbasis).trans hallowed⟩

end Loot

structure Evolves (store : ItemStore) (who : Option Player) (s s' : Loot) : Prop where
  items : s'.items.map LootItem.basis = s.items.map LootItem.basis
  questItems : s'.questItems.map LootItem.basis = s.questItems.map LootItem.basis
  looted : ∀ (i : Nat) (item item' : LootItem), s.items[i]? = some item →
    s'.items[i]? = some item' → item.isLooted = true → item'.isLooted = true
  counted : ∀ (i : Nat) (item item' : LootItem), s.items[i]? = some item →
    s'.items[i]? = some item' → (item.isCounted = true → item'.isCounted = true) ∧
      (item'.isCounted = true → item.isCounted = true ∨
        ∃ p ∈ who, item.allowedForPlayer store p = true)
  listed : ∀ (kind : ListKind) (g : ObjectGuid), ∀ c ∈ s.copies kind g,
    ∃ c' ∈ s'.copies kind g, c'.index = c.index
  opened : ∀ (kind : ListKind) (g : ObjectGuid), kind ≠ .conditional → ∀ c' ∈ s'.copies kind g,
    c'.isLooted = false → (∃ c ∈ s.copies kind g, c.isLooted = false ∧ c.index = c'.index) ∨
      ∃ p ∈ who, p.guid = g ∧ s.Suits store p kind c'.index
  keys : ∀ (kind : ListKind) (g : ObjectGuid), (s'.lists kind).lookup g ≠ none →
    (s.lists kind).lookup g ≠ none ∨ ∃ p ∈ who, p.guid = g

def ListedFor (store : ItemStore) (player : Player) (kind : ListKind) (s : Loot) : Prop :=
  ∀ (i : Nat) (item : LootItem), s.items[i]? = some item → Loot.copyKind item = some kind →
    item.isLooted = false → item.allowedForPlayer store player = true →
      if kind = .conditional then item.isCounted = true
      else ∃ c ∈ s.copies kind player.guid, c.index = i

namespace Evolves

variable {store : ItemStore} {who : Option Player} {s t u : Loot} {player : Player}
  {kind : ListKind}

theorem refl (store : ItemStore) (who : Option Player) (s : Loot) : Evolves store who s s where
  items := rfl
  questItems := rfl
  looted := fun i item item' hitem hitem' hlooted => by
    cases hitem.symm.trans hitem'
    exact hlooted
  counted := fun i item item' hitem hitem' => by
    cases hitem.symm.trans hitem'
    exact ⟨id, .inl⟩
  listed := fun _ _ c hc => ⟨c, hc, rfl⟩
  opened := fun _ _ _ c hc hopen => .inl ⟨c, hc, hopen, rfl⟩
  keys := fun _ _ => .inl

theorem trans (h : Evolves store who s t) (h' : Evolves store who t u) : Evolves store who s u where
  items := h'.items.trans h.items
  questItems := h'.questItems.trans h.questItems
  looted := fun i item item' hitem hitem' hlooted => by
    obtain ⟨middle, hmiddle, _⟩ := LootItem.exists_of_basis h.items hitem
    exact h'.looted i middle item' hmiddle hitem' (h.looted i item middle hitem hmiddle hlooted)
  counted := fun i item item' hitem hitem' => by
    obtain ⟨middle, hmiddle, hbasis⟩ := LootItem.exists_of_basis h.items hitem
    have hfirst := h.counted i item middle hitem hmiddle
    have hsecond := h'.counted i middle item' hmiddle hitem'
    refine ⟨fun hc => hsecond.1 (hfirst.1 hc), fun hc => ?_⟩
    rcases hsecond.2 hc with hc | ⟨p, hp, hallowed⟩
    · exact hfirst.2 hc
    · exact .inr ⟨p, hp, (LootItem.allowedForPlayer_congr hbasis).symm.trans hallowed⟩
  listed := fun kind g c hc => by
    obtain ⟨c', hc', hidx⟩ := h.listed kind g c hc
    obtain ⟨c'', hc'', hidx'⟩ := h'.listed kind g c' hc'
    exact ⟨c'', hc'', hidx'.trans hidx⟩
  opened := fun kind g hkind c'' hc'' hopen => by
    rcases h'.opened kind g hkind c'' hc'' hopen with ⟨c', hc', hopen', hidx⟩ | ⟨p, hp, hg, hsuits⟩
    · rw [← hidx]
      exact h.opened kind g hkind c' hc' hopen'
    · exact .inr ⟨p, hp, hg, hsuits.congr h.items.symm h.questItems.symm⟩
  keys := fun kind g hlookup => (h'.keys kind g hlookup).elim (h.keys kind g) .inr

theorem listedFor (h : Evolves store who s t) (hl : ListedFor store player kind s) :
    ListedFor store player kind t := by
  intro i item' hitem' hkind hunlooted hallowed
  obtain ⟨item, hitem, hbasis⟩ := LootItem.exists_of_basis h.items.symm hitem'
  have hunlooted₀ : item.isLooted = false := by
    cases hlooted : item.isLooted with
    | false => rfl
    | true => exact (h.looted i item item' hitem hitem' hlooted).symm.trans hunlooted
  have hold := hl i item hitem ((LootItem.copyKind_congr hbasis).trans hkind) hunlooted₀
    ((LootItem.allowedForPlayer_congr hbasis).trans hallowed)
  split
  next hconditional =>
    rw [if_pos hconditional] at hold
    exact (h.counted i item item' hitem hitem').1 hold
  next hconditional =>
    rw [if_neg hconditional] at hold
    obtain ⟨c, hc, hidx⟩ := hold
    obtain ⟨c', hc', hidx'⟩ := h.listed kind player.guid c hc
    exact ⟨c', hc', hidx'.trans hidx⟩

/-- One list more for a player who had none of its kind, with copies of items that suit. -/
theorem storeCopies {ql : List NotNormalLootItem} {f : LootItem → LootItem}
    (hnone : (s.lists kind).lookup player.guid = none)
    (hlists : t.lists = (s.storeCopies kind player.guid ql).lists)
    (hitems : t.items = s.items.map f)
    (hquest : t.questItems.map LootItem.basis = s.questItems.map LootItem.basis)
    (hbasis : ∀ item, (f item).basis = item.basis)
    (hlooted : ∀ item, (f item).isLooted = item.isLooted)
    (hcounted : ∀ item, (item.isCounted = true → (f item).isCounted = true) ∧
      ((f item).isCounted = true → item.isCounted = true ∨
        item.allowedForPlayer store player = true))
    (hql : kind ≠ .conditional → ∀ c ∈ ql, s.Suits store player kind c.index) :
    Evolves store (some player) s t := by
  have hcopies : ∀ k g, t.copies k g = if k = kind ∧ g = player.guid then ql
      else s.copies k g := by
    intro k g
    rw [Loot.copies, hlists]
    exact Loot.copies_storeCopies hnone
  have hget : ∀ (i : Nat) (item item' : LootItem), s.items[i]? = some item →
      t.items[i]? = some item' → item' = f item := by
    intro i item item' hitem hitem'
    rw [hitems, List.getElem?_map, hitem] at hitem'
    exact (Option.some.inj hitem').symm
  constructor
  case items =>
    rw [hitems, List.map_map]
    exact List.map_congr_left fun item _ => hbasis item
  case questItems => exact hquest
  case looted =>
    intro i item item' hitem hitem' h
    rw [hget i item item' hitem hitem', hlooted, h]
  case counted =>
    intro i item item' hitem hitem'
    rw [hget i item item' hitem hitem']
    exact ⟨(hcounted item).1, fun h => ((hcounted item).2 h).imp_right fun h => ⟨player, rfl, h⟩⟩
  case listed =>
    intro k g c hc
    refine ⟨c, ?_, rfl⟩
    rw [hcopies]
    split
    next heq =>
      rw [heq.1, heq.2, Loot.copies, hnone] at hc
      exact absurd hc List.not_mem_nil
    · exact hc
  case opened =>
    intro k g hk c hc hopen
    rw [hcopies] at hc
    split at hc
    next heq =>
      obtain ⟨rfl, rfl⟩ := heq
      exact .inr ⟨player, rfl, rfl, hql hk c hc⟩
    · exact .inl ⟨c, hc, hopen, rfl⟩
  case keys =>
    intro k g hlookup
    by_cases heq : k = kind ∧ g = player.guid
    · exact .inr ⟨player, rfl, heq.2.symm⟩
    · refine .inl fun hold => hlookup ?_
      rw [hlists]
      unfold Loot.storeCopies Loot.setCopies
      split
      · exact hold
      · by_cases hk : k = kind
        · subst hk
          simp only [if_true]
          rw [AList.lookup_insert_ne fun hg => heq ⟨rfl, hg⟩]
          exact hold
        · simp only [if_neg hk]
          exact hold

end Evolves

namespace Loot

variable {store : ItemStore} {s : Loot} {player : Player} {kind : ListKind}

theorem fillQuestFrom_basis (store : ItemStore) (player : Player) (size : Nat) (l : List LootItem)
    (i n : Nat) :
    (fillQuestFrom store player size l i n).1.map LootItem.basis = l.map LootItem.basis := by
  induction l generalizing i n with
  | nil => rfl
  | cons item rest ih =>
    simp only [fillQuestFrom]
    split
    · split
      · rfl
      · exact congrArg (List.cons item.basis) (ih (i + 1) (n + 1))
    · exact congrArg (List.cons item.basis) (ih (i + 1) n)

theorem evolves_fillCounted {special : LootItem → Bool} (hkind : kind ≠ .quest)
    (hcond : kind ≠ .conditional)
    (hspecial : ∀ item, copyKind item = some kind → special item = true)
    (hnone : (s.lists kind).lookup player.guid = none) :
    Evolves store (some player) s (s.fillCounted store kind special player) ∧
      ListedFor store player kind (s.fillCounted store kind special player) := by
  have hcopies := @copies_storeCopies _ kind kind _ player.guid (copiesOf (fun item =>
    !item.isLooted && special item && item.allowedForPlayer store player) s.items) hnone
  rw [if_pos ⟨rfl, rfl⟩] at hcopies
  constructor
  · refine Evolves.storeCopies (f := id) hnone rfl (by simp [fillCounted]) (by simp [fillCounted])
      (fun _ => rfl) (fun _ => rfl) (fun _ => ⟨id, .inl⟩) fun _ c hc => ?_
    obtain ⟨_, item, hitem, hlisted⟩ := mem_copiesOf.mp hc
    exact ⟨item, by rw [if_neg hkind, hitem], (Bool.and_eq_true_iff.mp hlisted).2⟩
  · intro i item hitem hitemKind hunlooted hallowed
    rw [if_neg hcond]
    refine ⟨⟨i, false⟩, hcopies ▸ mem_copiesOf.mpr ⟨rfl, item, ?_, ?_⟩, rfl⟩
    · simpa [fillCounted] using hitem
    · simp [hunlooted, hspecial item hitemKind, hallowed]

theorem evolves_fillQuestLoot (hnone : (s.lists .quest).lookup player.guid = none)
    (hsuits : s.items.length ≠ maxNrLootItems →
      ∀ c ∈ (fillQuestFrom store player s.items.length s.questItems 0 0).2.1,
        s.Suits store player .quest c.index) :
    Evolves store (some player) s (s.fillQuestLoot store player) := by
  unfold fillQuestLoot
  split
  · exact .refl store _ s
  next hroom =>
  have hbasis := fillQuestFrom_basis store player s.items.length s.questItems 0 0
  have hql := hsuits hroom
  generalize fillQuestFrom store player s.items.length s.questItems 0 0 = r at hbasis hql ⊢
  exact Evolves.storeCopies (f := id) hnone
    (@CounterInv.lists_storeCopies_eq s { s with questItems := r.1 } rfl .quest player.guid r.2.1)
    (by simp) (by simpa) (fun _ => rfl) (fun _ => rfl) (fun _ => ⟨id, .inl⟩) fun _ => hql

theorem evolves_fillNonQuestNonFFAConditionalLoot (presentAtLooting : Bool)
    (hnone : (s.lists .conditional).lookup player.guid = none) :
    Evolves store (some player) s
        (s.fillNonQuestNonFFAConditionalLoot store player presentAtLooting) ∧
      ListedFor store player .conditional
        (s.fillNonQuestNonFFAConditionalLoot store player presentAtLooting) := by
  have hvisit := CounterInv.visitConditional_spec store player presentAtLooting
  have hbasis : ∀ item, (visitConditional store player presentAtLooting item).basis =
      item.basis := by
    intro item
    unfold visitConditional
    cases conditionalHit store player item with
    | false => rfl
    | true => cases presentAtLooting <;> cases hc : item.conditions.isEmpty <;>
        simp [LootItem.addAllowedLooter, LootItem.basis, hc]
  have hitems : (s.fillNonQuestNonFFAConditionalLoot store player presentAtLooting).items =
      s.items.map (visitConditional store player presentAtLooting) := by
    simp [fillNonQuestNonFFAConditionalLoot]
  constructor
  · refine Evolves.storeCopies hnone (@CounterInv.lists_storeCopies_eq s
      { s with items := s.items.map (visitConditional store player presentAtLooting) } rfl
      .conditional player.guid _) hitems (by simp [fillNonQuestNonFFAConditionalLoot]) hbasis
      (fun item => (hvisit item).1) (fun item => ?_) fun h => absurd rfl h
    obtain ⟨_, _, _, _, _, hcounted⟩ := hvisit item
    rw [hcounted]
    refine ⟨fun h => by rw [h, Bool.true_or], fun h => ?_⟩
    refine ((Bool.or_eq_true _ _).mp h).imp_right fun hhit => ?_
    exact (Bool.and_eq_true_iff.mp (Bool.and_eq_true_iff.mp hhit).1).2
  · intro i item' hitem' hkind hunlooted hallowed
    rw [if_pos rfl]
    rw [hitems, List.getElem?_map] at hitem'
    obtain ⟨item, _, rfl⟩ := Option.map_eq_some_iff.mp hitem'
    rw [LootItem.copyKind_congr (hbasis item)] at hkind
    obtain ⟨_, hffa, hconditions⟩ := copyKind_eq_conditional.mp hkind
    obtain ⟨hlooted, _, _, _, _, hcounted⟩ := hvisit item
    rw [LootItem.allowedForPlayer_congr (hbasis item)] at hallowed
    rw [hlooted] at hunlooted
    rw [hcounted, conditionalHit, hunlooted, hffa, hallowed, hconditions]
    exact Bool.or_true _

theorem evolves_ifMissing {filled : Loot}
    (hfilled : (s.lists kind).lookup player.guid = none →
      Evolves store (some player) s filled ∧ ListedFor store player kind filled)
    (hold : (s.lists kind).lookup player.guid ≠ none → ListedFor store player kind s) :
    Evolves store (some player) s (s.ifMissing kind player.guid filled) ∧
      ListedFor store player kind (s.ifMissing kind player.guid filled) := by
  unfold ifMissing
  split
  next hnone => exact hfilled (Option.isNone_iff_eq_none.mp hnone)
  next hsome =>
    exact ⟨.refl store _ s, hold fun hnone => hsome (Option.isNone_iff_eq_none.mpr hnone)⟩

/-- After the lists have been filled for a player they are complete. -/
theorem evolves_fillLists (presentAtLooting : Bool) (hfair : FillFair store s player)
    (hold : ∀ kind, (s.lists kind).lookup player.guid ≠ none → ListedFor store player kind s) :
    Evolves store (some player) s (s.fillLists store player presentAtLooting) ∧
      ∀ kind, ListedFor store player kind (s.fillLists store player presentAtLooting) := by
  simp only [fillLists]
  have h₁ : _ ∧ ListedFor store player .currency
      (s.ifMissing .currency player.guid (s.fillCurrencyLoot store player)) :=
    evolves_ifMissing (evolves_fillCounted (by decide) (by decide) fun item hkind =>
      copyKind_eq_currency.mp hkind) (hold .currency)
  have f₁ : CounterInv.Frame .currency s
      (s.ifMissing .currency player.guid (s.fillCurrencyLoot store player)) :=
    CounterInv.frame_ifMissing player.guid
      (CounterInv.frame_fillCounted store s .currency LootItem.currency player)
  generalize s.ifMissing .currency player.guid (s.fillCurrencyLoot store player) = s₁ at h₁ f₁ ⊢
  obtain ⟨e₁, l₁⟩ := h₁
  have h₂ : _ ∧ ListedFor store player .quest
      (s₁.ifMissing .quest player.guid (s₁.fillQuestLoot store player)) :=
    evolves_ifMissing (fun hnone => by
      rw [f₁.lists _ (by decide)] at hnone
      refine ⟨evolves_fillQuestLoot (by rw [f₁.lists _ (by decide), hnone]) ?_,
        fun i item _ hkind => absurd hkind (copyKind_ne_quest item)⟩
      rw [f₁.items, f₁.questItems (by decide)]
      intro hroom c hc
      obtain ⟨item, hitem, hallowed, _⟩ := hfair.listed hnone hroom c hc
      exact ⟨item, by rw [if_pos rfl, f₁.questItems (by decide), hitem], hallowed⟩)
    fun _ i item _ hkind => absurd hkind (copyKind_ne_quest item)
  have f₂ := CounterInv.frame_ifMissing player.guid
    (CounterInv.frame_fillQuestLoot store s₁ player)
  generalize s₁.ifMissing .quest player.guid (s₁.fillQuestLoot store player) = s₂ at h₂ f₂ ⊢
  obtain ⟨e₂, l₂⟩ := h₂
  have e₁₂ := e₁.trans e₂
  have h₃ : _ ∧ ListedFor store player .ffa
      (s₂.ifMissing .ffa player.guid (s₂.fillFFALoot store player)) :=
    evolves_ifMissing (evolves_fillCounted (by decide) (by decide) fun item hkind =>
      (copyKind_eq_ffa.mp hkind).2) fun hlookup => e₁₂.listedFor (hold .ffa (by
        rwa [f₂.lists _ (by decide), f₁.lists _ (by decide)] at hlookup))
  have f₃ : CounterInv.Frame .ffa s₂
      (s₂.ifMissing .ffa player.guid (s₂.fillFFALoot store player)) :=
    CounterInv.frame_ifMissing player.guid
      (CounterInv.frame_fillCounted store s₂ .ffa LootItem.freeforall player)
  generalize s₂.ifMissing .ffa player.guid (s₂.fillFFALoot store player) = s₃ at h₃ f₃ ⊢
  obtain ⟨e₃, l₃⟩ := h₃
  have e₁₃ := e₁₂.trans e₃
  have h₄ : _ ∧ ListedFor store player .conditional (s₃.ifMissing .conditional player.guid
      (s₃.fillNonQuestNonFFAConditionalLoot store player presentAtLooting)) :=
    evolves_ifMissing (evolves_fillNonQuestNonFFAConditionalLoot presentAtLooting)
      fun hlookup => e₁₃.listedFor (hold .conditional (by
        rwa [f₃.lists _ (by decide), f₂.lists _ (by decide), f₁.lists _ (by decide)] at hlookup))
  obtain ⟨e₄, l₄⟩ := h₄
  refine ⟨e₁₃.trans e₄, fun kind => ?_⟩
  cases kind with
  | currency => exact e₄.listedFor (e₃.listedFor (e₂.listedFor l₁))
  | quest => exact e₄.listedFor (e₃.listedFor l₂)
  | ffa => exact e₄.listedFor l₃
  | conditional => exact l₄

end Loot

/-- The player is one of `players`, and may have what is said there of the items of the loot. -/
structure Known (store : ItemStore) (players : List Player) (s : Loot) (player : Player) : Prop where
  mem : ∃ p ∈ players, p.guid = player.guid
  allowed : ∀ p ∈ players, p.guid = player.guid → ∀ item, item ∈ s.items ∨ item ∈ s.questItems →
    item.allowedForPlayer store p = item.allowedForPlayer store player

structure ListsInv (store : ItemStore) (players : List Player) (s : Loot) : Prop where
  plain : ∀ item ∈ s.items, Loot.copyKind item = none →
    ∃ p ∈ players, item.allowedForPlayer store p = true
  counted : ∀ item ∈ s.items, item.isCounted = true →
    ∃ p ∈ players, item.allowedForPlayer store p = true
  owners : ∀ (kind : ListKind) (g : ObjectGuid), kind ≠ .conditional → ∀ c ∈ s.copies kind g,
    c.isLooted = false → ∃ p ∈ players, p.guid = g ∧ s.Suits store p kind c.index
  listed : ∀ p ∈ players, ∀ kind, (s.lists kind).lookup p.guid ≠ none → ListedFor store p kind s

namespace ListsInv

variable {store : ItemStore} {players : List Player} {who : Option Player} {s s' : Loot}
  {player : Player} {kind : ListKind}

theorem listedFor_known (hknown : Known store players s player) {p : Player} (hp : p ∈ players)
    (hguid : p.guid = player.guid) (hitems : s'.items.map LootItem.basis =
      s.items.map LootItem.basis) (hl : ListedFor store player kind s') :
    ListedFor store p kind s' := by
  intro i item' hitem' hkind hunlooted hallowed
  obtain ⟨item, hitem, hbasis⟩ := LootItem.exists_of_basis hitems.symm hitem'
  have hsame := hknown.allowed p hp hguid item (.inl (List.mem_of_getElem? hitem))
  rw [LootItem.allowedForPlayer_congr hbasis, LootItem.allowedForPlayer_congr hbasis] at hsame
  rw [hguid]
  exact hl i item' hitem' hkind hunlooted (hsame.symm.trans hallowed)

theorem evolves (h : ListsInv store players s) (he : Evolves store who s s')
    (hwho : ∀ q ∈ who, Known store players s q ∧ ∀ kind, ListedFor store q kind s') :
    ListsInv store players s' := by
  have hknown : ∀ q ∈ who, ∀ item, item ∈ s.items ∨ item ∈ s.questItems →
      item.allowedForPlayer store q = true →
        ∃ p ∈ players, p.guid = q.guid ∧ item.allowedForPlayer store p = true := by
    intro q hq item hitem hallowed
    obtain ⟨p, hp, hguid⟩ := (hwho q hq).1.mem
    exact ⟨p, hp, hguid, ((hwho q hq).1.allowed p hp hguid item hitem).trans hallowed⟩
  have hback : ∀ item' ∈ s'.items, ∃ (i : Nat) (item : LootItem), s.items[i]? = some item ∧
      s'.items[i]? = some item' ∧ item.basis = item'.basis := by
    intro item' hitem'
    obtain ⟨i, hi⟩ := List.getElem?_of_mem hitem'
    obtain ⟨item, hitem, hbasis⟩ := LootItem.exists_of_basis he.items.symm hi
    exact ⟨i, item, hitem, hi, hbasis⟩
  have hforth : ∀ {item item' : LootItem}, item.basis = item'.basis →
      (∃ p ∈ players, item.allowedForPlayer store p = true) →
        ∃ p ∈ players, item'.allowedForPlayer store p = true := by
    rintro item item' hbasis ⟨p, hp, hallowed⟩
    exact ⟨p, hp, (LootItem.allowedForPlayer_congr hbasis).symm.trans hallowed⟩
  constructor
  case plain =>
    intro item' hitem' hkind
    obtain ⟨i, item, hitem, _, hbasis⟩ := hback item' hitem'
    exact hforth hbasis (h.plain item (List.mem_of_getElem? hitem)
      ((LootItem.copyKind_congr hbasis).trans hkind))
  case counted =>
    intro item' hitem' hcounted
    obtain ⟨i, item, hitem, hi, hbasis⟩ := hback item' hitem'
    refine hforth hbasis ?_
    rcases (he.counted i item item' hitem hi).2 hcounted with hold | ⟨q, hq, hallowed⟩
    · exact h.counted item (List.mem_of_getElem? hitem) hold
    · obtain ⟨p, hp, _, hallowed⟩ :=
        hknown q hq item (.inl (List.mem_of_getElem? hitem)) hallowed
      exact ⟨p, hp, hallowed⟩
  case owners =>
    intro kind g hkind c hc hopen
    rcases he.opened kind g hkind c hc hopen with ⟨c₀, hc₀, hopen₀, hidx⟩ | ⟨q, hq, rfl, hsuits⟩
    · obtain ⟨p, hp, hguid, hsuits⟩ := h.owners kind g hkind c₀ hc₀ hopen₀
      rw [hidx] at hsuits
      exact ⟨p, hp, hguid, hsuits.congr he.items he.questItems⟩
    · obtain ⟨item, hitem, hallowed⟩ := hsuits
      obtain ⟨p, hp, hguid, hallowed⟩ := hknown q hq item (by
        split at hitem
        · exact .inr (List.mem_of_getElem? hitem)
        · exact .inl (List.mem_of_getElem? hitem)) hallowed
      exact ⟨p, hp, hguid, Loot.Suits.congr ⟨item, hitem, hallowed⟩ he.items he.questItems⟩
  case listed =>
    intro p hp kind hlookup
    rcases he.keys kind p.guid hlookup with hold | ⟨q, hq, hguid⟩
    · exact he.listedFor (h.listed p hp kind hold)
    · exact listedFor_known (hwho q hq).1 hp hguid.symm he.items ((hwho q hq).2 kind)

end ListsInv

/-- In a generated loot nothing is listed or counted for anybody. -/
theorem Generated.listsInv {store : ItemStore} {players : List Player} {s : Loot}
    (h : Generated s) (hplain : ∀ item ∈ s.items, Loot.copyKind item = none →
      ∃ p ∈ players, item.allowedForPlayer store p = true) : ListsInv store players s where
  plain := hplain
  counted := fun item hitem hcounted => by
    rw [h.uncounted item hitem] at hcounted
    cases hcounted
  owners := fun kind g _ c hc => by
    rw [Loot.copies, h.lists] at hc
    exact absurd hc List.not_mem_nil
  listed := fun p _ kind hlookup => by
    rw [h.lists] at hlookup
    exact absurd rfl hlookup

end Ashamane.Looting
