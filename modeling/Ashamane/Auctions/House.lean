import Ashamane.Auctions.Basic

/-! What holds of the auction houses between operations, apart from the pending lists. -/
namespace Ashamane.Auctions

open Ashamane.Lib

namespace State

def places (s : State) (g : ItemGuid) : Nat :=
  (s.inventory.lookup g).isSome.toNat + (s.aItems.lookup g).isSome.toNat +
    s.mails.countP fun m => m.item == some g

def Live (s : State) (id : AuctionId) : Prop := (s.auctions.lookup id).isSome = true

end State

structure Parties (w : World) (a : AuctionEntry) : Prop where
  owner : w.receives a.owner = true
  bidder : a.bidder = 0 ∧ a.bid = 0 ∨ a.bidder ≠ 0 ∧ w.receives a.bidder = true
  price : a.buyout = 0 ∨ a.bid ≤ a.buyout

structure HouseSound (w : World) (s : State) : Prop where
  auction : ∀ id a, s.auctions.lookup id = some a →
    (s.aItems.lookup a.itemGuid).isSome = true ∧ id < s.nextAuction ∧ Parties w a
  unique : ∀ id a id' a', s.auctions.lookup id = some a → s.auctions.lookup id' = some a' →
    a.itemGuid = a'.itemGuid → id = id'
  held : ∀ g, (s.aItems.lookup g).isSome = true →
    ∃ id a, s.auctions.lookup id = some a ∧ a.itemGuid = g
  placed : ∀ g, s.places g ≤ 1
  fresh : ∀ g, 0 < s.places g → g < s.nextItem
  sold : ∀ g ∈ s.sold, s.inventory.lookup g = none ∧ 0 < s.places g
  table : ∀ id ∈ s.table, s.Live id

namespace HouseSound

variable {w : World} {s s' : State}

/-- Steps that change money, mails without an item and the terms of live auctions. -/
theorem touch {f : AuctionId → AuctionEntry → AuctionEntry} (h : HouseSound w s)
    (hauctions : ∀ id, s'.auctions.lookup id = (s.auctions.lookup id).map (f id))
    (hf : ∀ id a, s.auctions.lookup id = some a →
      (f id a).itemGuid = a.itemGuid ∧ Parties w (f id a))
    (hinventory : s'.inventory = s.inventory) (haItems : s'.aItems = s.aItems)
    (hmails : ∀ g, s'.mails.countP (fun m => m.item == some g) =
      s.mails.countP fun m => m.item == some g)
    (hnext : s'.nextItem = s.nextItem ∧ s'.nextAuction = s.nextAuction ∧ s'.sold = s.sold)
    (htable : ∀ id ∈ s'.table, s.Live id) : HouseSound w s' := by
  obtain ⟨hitem, hid, hsold⟩ := hnext
  have hplaces : ∀ g, s'.places g = s.places g := fun g => by
    rw [State.places, State.places, hinventory, haItems, hmails]
  have hback : ∀ id a', s'.auctions.lookup id = some a' →
      ∃ a, s.auctions.lookup id = some a ∧ f id a = a' := by
    intro id a' ha'
    rw [hauctions] at ha'
    exact Option.map_eq_some_iff.mp ha'
  constructor
  case auction =>
    intro id a' ha'
    obtain ⟨a, ha, rfl⟩ := hback id a' ha'
    obtain ⟨hheld, hlt, _⟩ := h.auction id a ha
    obtain ⟨hguid, hparties⟩ := hf id a ha
    exact ⟨by rw [haItems, hguid]; exact hheld, hid ▸ hlt, hparties⟩
  case unique =>
    intro id a' id' b' ha' hb' heq
    obtain ⟨a, ha, rfl⟩ := hback id a' ha'
    obtain ⟨b, hb, rfl⟩ := hback id' b' hb'
    rw [(hf id a ha).1, (hf id' b hb).1] at heq
    exact h.unique id a id' b ha hb heq
  case held =>
    intro g hg
    rw [haItems] at hg
    obtain ⟨id, a, ha, rfl⟩ := h.held g hg
    exact ⟨id, f id a, by rw [hauctions, ha]; rfl, (hf id a ha).1⟩
  case placed =>
    intro g
    rw [hplaces]
    exact h.placed g
  case fresh =>
    intro g hg
    rw [hplaces] at hg
    rw [hitem]
    exact h.fresh g hg
  case sold =>
    intro g hg
    rw [hsold] at hg
    rw [hinventory, hplaces]
    exact h.sold g hg
  case table =>
    intro id hid
    rw [State.Live, hauctions, Option.isSome_map]
    exact htable id hid

/-- The end of an auction: its item leaves the auction items for a mail. -/
theorem endAuction {id : AuctionId} {a : AuctionEntry} (h : HouseSound w s)
    (ha : s.auctions.lookup id = some a)
    (hauctions : s'.auctions = s.auctions.erase id)
    (hinventory : s'.inventory = s.inventory) (haItems : s'.aItems = s.aItems.erase a.itemGuid)
    (hmails : ∀ g, s'.mails.countP (fun m => m.item == some g) =
      s.mails.countP (fun m => m.item == some g) + if g = a.itemGuid then 1 else 0)
    (hnext : s'.nextItem = s.nextItem ∧ s'.nextAuction = s.nextAuction ∧ s'.sold = s.sold)
    (htable : s'.table = s.table.filter (· != id)) : HouseSound w s' := by
  obtain ⟨hitem, hid, hsold⟩ := hnext
  have hlookup : ∀ id', s'.auctions.lookup id' = if id' = id then none else s.auctions.lookup id' := by
    intro id'
    rw [hauctions]
    split
    next heq => rw [heq, AList.lookup_erase]
    next hne => exact AList.lookup_erase_ne hne
  have hheldIff : ∀ g, s'.aItems.lookup g =
      if g = a.itemGuid then none else s.aItems.lookup g := by
    intro g
    rw [haItems]
    split
    next heq => rw [heq, AList.lookup_erase]
    next hne => exact AList.lookup_erase_ne hne
  have hplaces : ∀ g, s'.places g = s.places g := by
    intro g
    have hheld := (h.auction id a ha).1
    rw [State.places, State.places, hinventory, hheldIff, hmails]
    by_cases hg : g = a.itemGuid
    · subst hg
      simp [hheld]
      omega
    · simp [hg]
  have hold : ∀ id' a', s'.auctions.lookup id' = some a' →
      id' ≠ id ∧ s.auctions.lookup id' = some a' := by
    intro id' a' ha'
    rw [hlookup] at ha'
    split at ha'
    · cases ha'
    next hne => exact ⟨hne, ha'⟩
  constructor
  case auction =>
    intro id' a' ha'
    obtain ⟨hne, hold'⟩ := hold id' a' ha'
    obtain ⟨hheld, hlt, hparties⟩ := h.auction id' a' hold'
    have hguid : a'.itemGuid ≠ a.itemGuid := fun heq => hne (h.unique id' a' id a hold' ha heq)
    exact ⟨by rw [hheldIff, if_neg hguid]; exact hheld, hid ▸ hlt, hparties⟩
  case unique =>
    intro id₁ a₁ id₂ a₂ h₁ h₂ heq
    exact h.unique id₁ a₁ id₂ a₂ (hold _ _ h₁).2 (hold _ _ h₂).2 heq
  case held =>
    intro g hg
    rw [hheldIff] at hg
    split at hg
    · cases hg
    next hne =>
      obtain ⟨id', a', ha', rfl⟩ := h.held g hg
      have hid' : id' ≠ id := by
        rintro rfl
        cases ha.symm.trans ha'
        exact hne rfl
      exact ⟨id', a', by rw [hlookup, if_neg hid']; exact ha', rfl⟩
  case placed =>
    intro g
    rw [hplaces]
    exact h.placed g
  case fresh =>
    intro g hg
    rw [hplaces] at hg
    rw [hitem]
    exact h.fresh g hg
  case sold =>
    intro g hg
    rw [hsold] at hg
    rw [hinventory, hplaces]
    exact h.sold g hg
  case table =>
    intro id' hid'
    rw [htable, List.mem_filter, bne_iff_ne] at hid'
    rw [State.Live, hlookup, if_neg hid'.2]
    exact h.table id' hid'.1

theorem list {g₀ : ItemGuid} {item : Item} {a : AuctionEntry} (h : HouseSound w s)
    (hguid : a.itemGuid = g₀) (hparties : Parties w a)
    (haItem : s.aItems.lookup g₀ = none)
    (hauctions : s'.auctions = s.auctions.insert s.nextAuction a)
    (haItems : s'.aItems = s.aItems.insert g₀ item) (hmails : s'.mails = s.mails)
    (hnoMail : s.mails.countP (fun m => m.item == some g₀) = 0)
    (hmoved : s'.inventory.lookup g₀ = none)
    (hinventory : ∀ g, g ≠ g₀ → (s'.inventory.lookup g).isSome = true →
      (s.inventory.lookup g).isSome = true)
    (hnextAuction : s'.nextAuction = s.nextAuction + 1) (hnextItem : s.nextItem ≤ s'.nextItem)
    (hfresh : g₀ < s'.nextItem) (hsold : s'.sold = g₀ :: s.sold)
    (htable : s'.table = s.nextAuction :: s.table) : HouseSound w s' := by
  have hlookup : ∀ id, s'.auctions.lookup id =
      if id = s.nextAuction then some a else s.auctions.lookup id := by
    intro id
    rw [hauctions]
    split
    next heq => rw [heq, AList.lookup_insert]
    next hne => exact AList.lookup_insert_ne hne
  have hheld : ∀ g, s'.aItems.lookup g = if g = g₀ then some item else s.aItems.lookup g := by
    intro g
    rw [haItems]
    split
    next heq => rw [heq, AList.lookup_insert]
    next hne => exact AList.lookup_insert_ne hne
  have hself : s'.places g₀ = 1 := by
    rw [State.places, hmoved, hheld, if_pos rfl, hmails, hnoMail]
    rfl
  have hother : ∀ g, g ≠ g₀ → s'.places g ≤ s.places g := by
    intro g hg
    rw [State.places, State.places, hheld, if_neg hg, hmails]
    have hinv := hinventory g hg
    cases hs' : (s'.inventory.lookup g).isSome
    · simp
    · rw [hinv hs']
  constructor
  case auction =>
    intro id a' ha'
    rw [hlookup] at ha'
    rw [hnextAuction]
    split at ha'
    next heq =>
      cases ha'
      rw [heq]
      exact ⟨by rw [hheld, if_pos hguid]; rfl, Nat.lt_succ_self _, hparties⟩
    next hne =>
      obtain ⟨hg, hlt, hp⟩ := h.auction id a' ha'
      refine ⟨?_, Nat.lt_succ_of_lt hlt, hp⟩
      rw [hheld]
      split
      · rfl
      · exact hg
  case unique =>
    intro id₁ a₁ id₂ a₂ h₁ h₂ heq
    have hnew : ∀ id b, s.auctions.lookup id = some b → b.itemGuid ≠ a.itemGuid := by
      intro id b hb hbg
      have hg := (h.auction id b hb).1
      rw [hbg, hguid, haItem] at hg
      cases hg
    rw [hlookup] at h₁ h₂
    split at h₁ <;> split at h₂
    next e₁ e₂ => rw [e₁, e₂]
    next e₁ e₂ =>
      cases h₁
      exact absurd heq.symm (hnew _ _ h₂)
    next e₁ e₂ =>
      cases h₂
      exact absurd heq (hnew _ _ h₁)
    · exact h.unique _ _ _ _ h₁ h₂ heq
  case held =>
    intro g hg
    rw [hheld] at hg
    split at hg
    next heq => exact ⟨s.nextAuction, a, by rw [hlookup, if_pos rfl], hguid.trans heq.symm⟩
    next hne =>
      obtain ⟨id, b, hb, hbg⟩ := h.held g hg
      refine ⟨id, b, ?_, hbg⟩
      have hlt := (h.auction id b hb).2.1
      rw [hlookup, if_neg (Nat.ne_of_lt hlt)]
      exact hb
  case placed =>
    intro g
    by_cases hg : g = g₀
    · rw [hg, hself]
    · exact Nat.le_trans (hother g hg) (h.placed g)
  case fresh =>
    intro g hg
    by_cases heq : g = g₀
    · rw [heq]
      exact hfresh
    · exact Nat.lt_of_lt_of_le (h.fresh g (Nat.lt_of_lt_of_le hg (hother g heq))) hnextItem
  case sold =>
    intro g hg
    by_cases heq : g = g₀
    · rw [heq, hself]
      exact ⟨hmoved, Nat.one_pos⟩
    · rw [hsold] at hg
      obtain ⟨hnone, hpos⟩ := h.sold g ((List.mem_cons.mp hg).resolve_left heq)
      have hnone' : s'.inventory.lookup g = none := by
        by_contra hne
        have hsome := hinventory g heq (Option.isSome_iff_ne_none.mpr hne)
        rw [hnone] at hsome
        cases hsome
      refine ⟨hnone', ?_⟩
      rw [State.places, hnone] at hpos
      rw [State.places, hnone', hheld, if_neg heq, hmails]
      exact hpos
  case table =>
    intro id hid
    rw [htable] at hid
    rw [State.Live, hlookup]
    split
    · rfl
    next hne => exact h.table id ((List.mem_cons.mp hid).resolve_left hne)

end HouseSound

end Ashamane.Auctions
