import Ashamane.BlackMarket.Basic

/-! The books of the black market: every bid that was accepted, what is held for it, and
what has been paid back. -/
namespace Ashamane.BlackMarket
open Ashamane.Lib

def Outbid (bids : List Bid) (b : Bid) : Prop :=
  ∃ c ∈ bids, c.object = b.object ∧ b.paid < c.paid

def Bid.refund (b : Bid) : Mail := ⟨b.object, b.bidder, b.paid⟩

structure Entered (w : World) (s : State) (marketId : MarketId) (entry : BlackMarketEntry) :
    Prop where
  key : entry.marketId = marketId
  templ : ∃ templ, w.templates.lookup marketId = some templ
  old : entry.object < s.nextObject
  unsent : ∀ item ∈ s.items, item.object ≠ entry.object
  below : entry.currentBid < BMAH_MAX_BID
  nonneg : 0 ≤ entry.numBids
  few : entry.numBids ≤ entry.currentBid ∧ entry.numBids ≤ 20 * GOLD + entry.currentBid / GOLD
  first : entry.numBids = 0 →
    entry.bidder = 0 ∧ entry.currentBid = 0 ∧ ∀ b ∈ s.bids, b.object ≠ entry.object
  held : entry.numBids ≠ 0 → entry.bidder ≠ 0 ∧
    ∃ b ∈ s.bids, b.object = entry.object ∧ b.bidder = entry.bidder ∧
      b.paid = entry.currentBid ∧ ∀ c ∈ s.bids, c.object = entry.object → c ≠ b → c.paid < b.paid

structure Refunds (s : State) : Prop where
  charged : ∀ b ∈ s.bids, b.paid = b.amount
  rising : s.bids.Pairwise fun newer older =>
    newer.object = older.object → older.paid < newer.paid
  only : ∀ mail ∈ s.mails, ∃ b ∈ s.bids, Outbid s.bids b ∧ b.refund = mail
  all : ∀ b ∈ s.bids, Outbid s.bids b → s.players.lookup b.bidder ≠ none → b.refund ∈ s.mails
  once : s.mails.Nodup

structure Books (w : World) (s : State) : Prop where
  nobody : s.players.lookup 0 = none
  entered : ∀ marketId entry, s.auctions.lookup marketId = some entry →
    Entered w s marketId entry
  distinct : ∀ i j e f, s.auctions.lookup i = some e → s.auctions.lookup j = some f →
    e.object = f.object → i = j
  bidsOld : ∀ b ∈ s.bids, b.object < s.nextObject
  itemsOld : ∀ item ∈ s.items, item.object < s.nextObject
  itemsOnce : (s.items.map WonItem.object).Nodup
  refunds : Refunds s

def State.wealth (s : State) : Nat :=
  Assoc.total id s.players + (s.mails.map Mail.money).sum +
    Assoc.total BlackMarketEntry.currentBid s.auctions

variable {w : World} {s t : State}

section Closing
variable {clock : MarketId → Int} {marketId : MarketId}

/-- A live entry stays, or is deleted with at most one item sent. -/
theorem updateEntry_cases (h : s.updateEntry w clock marketId = some t) :
    t = s ∨ ∃ entry items, s.auctions.lookup marketId = some entry ∧
      (items = s.items ∨ ∃ item : WonItem, item.object = entry.object ∧ items = item :: s.items) ∧
      t = { s with items, auctions := s.auctions.erase marketId } := by
  unfold State.updateEntry at h
  cases hentry : s.auctions.lookup marketId with
  | none =>
    rw [hentry] at h
    exact .inl (Option.some.inj h).symm
  | some entry =>
    simp only [hentry] at h
    obtain ⟨completed, -, h⟩ := Option.bind_eq_some_iff.mp h
    cases completed with
    | false => exact .inl (Option.some.inj h).symm
    | true =>
      obtain ⟨u, hu, rfl⟩ := Option.map_eq_some_iff.mp h
      refine .inr ⟨entry, u.items, rfl, ?_⟩
      by_cases hbidder : entry.bidder = 0
      · rw [if_neg (not_not.mpr hbidder)] at hu
        obtain rfl := Option.some.inj hu
        exact ⟨.inl rfl, rfl⟩
      · rw [if_pos hbidder] at hu
        unfold State.sendAuctionWonMail at hu
        split at hu
        · obtain rfl := Option.some.inj hu
          exact ⟨.inl rfl, rfl⟩
        split at hu
        · obtain rfl := Option.some.inj hu
          exact ⟨.inl rfl, rfl⟩
        obtain ⟨templ, -, rfl⟩ := Option.map_eq_some_iff.mp hu
        split
        · exact ⟨.inr ⟨_, rfl, rfl⟩, rfl⟩
        · exact ⟨.inl rfl, rfl⟩

theorem updateEntry_isSome (hbooks : Books w s) :
    (s.updateEntry w clock marketId).isSome := by
  unfold State.updateEntry
  cases hentry : s.auctions.lookup marketId with
  | none => rfl
  | some entry =>
    have hentered := hbooks.entered _ _ hentry
    obtain ⟨templ, htempl⟩ := hentered.templ
    have hget : entry.getTemplate w = some templ := by
      rw [BlackMarketEntry.getTemplate, hentered.key, htempl]
    have hcompleted : (entry.isCompleted w (clock marketId)).isSome := by
      simp only [BlackMarketEntry.isCompleted, BlackMarketEntry.getSecondsRemaining,
        BlackMarketEntry.getExpirationTime, hget, Option.map_some, Option.isSome_some]
    obtain ⟨completed, hcompleted⟩ := Option.isSome_iff_exists.mp hcompleted
    simp only [hcompleted, Option.bind_some]
    cases completed with
    | false => rfl
    | true =>
      simp only [if_true, Option.isSome_map, State.sendAuctionWonMail, hget]
      split
      · split
        · rfl
        · split <;> simp
      · rfl

theorem Books.updateEntry (hbooks : Books w s) (h : s.updateEntry w clock marketId = some t) :
    Books w t := by
  obtain rfl | ⟨entry, items, hentry, hitems, rfl⟩ := updateEntry_cases h
  · exact hbooks
  have hentered := hbooks.entered _ _ hentry
  refine ⟨hbooks.nobody, ?_, ?_, hbooks.bidsOld, ?_, ?_,
    ⟨hbooks.refunds.charged, hbooks.refunds.rising, hbooks.refunds.only, hbooks.refunds.all,
      hbooks.refunds.once⟩⟩
  · intro i e hi
    obtain ⟨hne, hlive⟩ := Assoc.lookup_erase_some hi
    have he := hbooks.entered _ _ hlive
    refine ⟨he.key, he.templ, he.old, ?_, he.below, he.nonneg, he.few, he.first, he.held⟩
    obtain rfl | ⟨item, hobject, rfl⟩ := hitems
    · exact he.unsent
    · intro sent hsent
      rcases List.mem_cons.mp hsent with rfl | hsent
      · intro hsame
        have hsame : e.object = entry.object := hsame.symm.trans hobject
        exact hne (hbooks.distinct _ _ _ _ hlive hentry hsame)
      · exact he.unsent sent hsent
  · intro i j e f hi hj
    exact hbooks.distinct i j e f (Assoc.lookup_erase_some hi).2 (Assoc.lookup_erase_some hj).2
  · obtain rfl | ⟨item, hobject, rfl⟩ := hitems
    · exact hbooks.itemsOld
    · intro sent hsent
      rcases List.mem_cons.mp hsent with rfl | hsent
      · exact hobject ▸ hentered.old
      · exact hbooks.itemsOld sent hsent
  · obtain rfl | ⟨item, hobject, rfl⟩ := hitems
    · exact hbooks.itemsOnce
    · refine List.nodup_cons.mpr ⟨?_, hbooks.itemsOnce⟩
      intro hmem
      obtain ⟨sent, hsent, hsame⟩ := List.mem_map.mp hmem
      exact hentered.unsent sent hsent (hsame.trans hobject)

theorem wealth_updateEntry (h : s.updateEntry w clock marketId = some t) :
    t.wealth ≤ s.wealth := by
  obtain rfl | ⟨entry, items, hentry, -, rfl⟩ := updateEntry_cases h
  · exact Nat.le_refl _
  · have htotal := Assoc.total_erase BlackMarketEntry.currentBid hentry
    simp only [State.wealth]
    omega

end Closing

theorem bids_updateEntry {clock : MarketId → Int} {marketId : MarketId}
    (h : s.updateEntry w clock marketId = some t) : t.bids = s.bids := by
  obtain rfl | ⟨entry, items, -, -, rfl⟩ := updateEntry_cases h <;> rfl

theorem foldlM_updateEntry {clock : MarketId → Int} {ids : List MarketId} (hbooks : Books w s)
    (h : ids.foldlM (State.updateEntry w clock) s = some t) :
    Books w t ∧ t.wealth ≤ s.wealth ∧ t.bids = s.bids := by
  induction ids generalizing s with
  | nil =>
    obtain rfl := Option.some.inj h
    exact ⟨hbooks, Nat.le_refl _, rfl⟩
  | cons marketId ids ih =>
    obtain ⟨u, hu, h⟩ := Option.bind_eq_some_iff.mp h
    obtain ⟨ht, hwealth, hbids⟩ := ih (hbooks.updateEntry hu) h
    exact ⟨ht, Nat.le_trans hwealth (wealth_updateEntry hu), hbids.trans (bids_updateEntry hu)⟩

theorem foldlM_updateEntry_isSome {clock : MarketId → Int} (ids : List MarketId)
    (hbooks : Books w s) : (ids.foldlM (State.updateEntry w clock) s).isSome := by
  induction ids generalizing s with
  | nil => rfl
  | cons marketId ids ih =>
    obtain ⟨u, hu⟩ := Option.isSome_iff_exists.mp
      (@updateEntry_isSome w s clock marketId hbooks)
    rw [List.foldlM_cons, hu]
    exact ih (hbooks.updateEntry hu)

theorem Books.update {updateTime : Bool} {now : Int} {clock : MarketId → Int}
    (hbooks : Books w s) (h : s.update w updateTime now clock = some t) :
    Books w t ∧ t.wealth ≤ s.wealth ∧ t.bids = s.bids := by
  obtain ⟨u, hu, rfl⟩ := Option.map_eq_some_iff.mp h
  obtain ⟨hu, hwealth, hbids⟩ := foldlM_updateEntry hbooks hu
  refine ⟨⟨hu.nobody, ?_, hu.distinct, hu.bidsOld, hu.itemsOld, hu.itemsOnce,
    ⟨hu.refunds.charged, hu.refunds.rising, hu.refunds.only, hu.refunds.all, hu.refunds.once⟩⟩,
    hwealth, hbids⟩
  intro marketId entry hentry
  have he := hu.entered _ _ hentry
  exact ⟨he.key, he.templ, he.old, he.unsent, he.below, he.nonneg, he.few, he.first, he.held⟩

theorem update_isSome {updateTime : Bool} {now : Int} {clock : MarketId → Int}
    (hbooks : Books w s) : (s.update w updateTime now clock).isSome := by
  rw [State.update, Option.isSome_map]
  exact foldlM_updateEntry_isSome _ hbooks

section Opening
variable {now : Int} {marketId : MarketId}

theorem Books.addAuction (hbooks : Books w s) (hnew : s.auctions.lookup marketId = none)
    (htempl : ∃ templ, w.templates.lookup marketId = some templ) :
    Books w (s.addAuction now marketId) := by
  have hlookup : ∀ {i e}, (s.addAuction now marketId).auctions.lookup i = some e →
      (i = marketId ∧ e.marketId = marketId ∧ e.object = s.nextObject ∧ e.currentBid = 0 ∧
        e.numBids = 0 ∧ e.bidder = 0) ∨ (i ≠ marketId ∧ s.auctions.lookup i = some e) := by
    intro i e h
    by_cases hi : i = marketId
    · subst hi
      rw [State.addAuction, AList.lookup_insert] at h
      obtain rfl := Option.some.inj h
      exact .inl ⟨rfl, rfl, rfl, rfl, rfl, rfl⟩
    · rw [State.addAuction, AList.lookup_insert_ne hi] at h
      exact .inr ⟨hi, h⟩
  refine ⟨hbooks.nobody, ?_, ?_, fun b hb => Nat.lt_succ_of_lt (hbooks.bidsOld b hb),
    fun item hitem => Nat.lt_succ_of_lt (hbooks.itemsOld item hitem), hbooks.itemsOnce,
    ⟨hbooks.refunds.charged, hbooks.refunds.rising, hbooks.refunds.only, hbooks.refunds.all,
      hbooks.refunds.once⟩⟩
  · intro i e h
    obtain ⟨rfl, hkey, hobject, hcurrent, hnum, hbidder⟩ | ⟨-, h⟩ := hlookup h
    · refine ⟨hkey, htempl, ?_, ?_, ?_, ?_, ?_, ?_, ?_⟩
      · rw [hobject]
        exact Nat.lt_succ_self _
      · intro item hitem hsame
        have hold := hbooks.itemsOld item hitem
        omega
      · rw [hcurrent]
        decide
      · exact hnum ▸ Int.le_refl 0
      · rw [hcurrent, hnum]
        decide
      · intro _
        refine ⟨hbidder, hcurrent, fun b hb hsame => ?_⟩
        have hold := hbooks.bidsOld b hb
        omega
      · exact fun h => (h hnum).elim
    · have he := hbooks.entered _ _ h
      exact ⟨he.key, he.templ, Nat.lt_succ_of_lt he.old, he.unsent, he.below, he.nonneg, he.few,
        he.first, he.held⟩
  · intro i j e f hi hj hsame
    obtain ⟨rfl, -, hobject, -⟩ | ⟨-, holdi⟩ := hlookup hi
    · obtain ⟨rfl, -⟩ | ⟨-, holdj⟩ := hlookup hj
      · rfl
      · have hold := (hbooks.entered _ _ holdj).old
        omega
    · obtain ⟨rfl, -, hobject, -⟩ | ⟨-, holdj⟩ := hlookup hj
      · have hold := (hbooks.entered _ _ holdi).old
        omega
      · exact hbooks.distinct _ _ _ _ holdi holdj hsame

theorem wealth_addAuction (hnew : s.auctions.lookup marketId = none) :
    (s.addAuction now marketId).wealth = s.wealth := by
  rw [State.wealth, State.addAuction, Assoc.total_insert_of_notMem _ _ hnew, Nat.zero_add]
  rfl

theorem foldl_addAuction {ids : List MarketId} (hbooks : Books w s) (hnodup : ids.Nodup)
    (hnew : ∀ i ∈ ids, s.auctions.lookup i = none)
    (htempl : ∀ i ∈ ids, ∃ templ, w.templates.lookup i = some templ) :
    Books w (ids.foldl (State.addAuction now) s) ∧
      (ids.foldl (State.addAuction now) s).wealth = s.wealth ∧
      (ids.foldl (State.addAuction now) s).bids = s.bids := by
  induction ids generalizing s with
  | nil => exact ⟨hbooks, rfl, rfl⟩
  | cons i ids ih =>
    obtain ⟨hi, hnodup⟩ := List.nodup_cons.mp hnodup
    have hadd := @Books.addAuction w s now i hbooks (hnew i List.mem_cons_self)
      (htempl i List.mem_cons_self)
    have hrest : ∀ j ∈ ids, (s.addAuction now i).auctions.lookup j = none := by
      intro j hj
      have hne : j ≠ i := fun h => hi (h ▸ hj)
      rw [State.addAuction, AList.lookup_insert_ne hne]
      exact hnew j (List.mem_cons_of_mem _ hj)
    obtain ⟨hall, hwealth, hbids⟩ := ih hadd hnodup hrest
      fun j hj => htempl j (List.mem_cons_of_mem _ hj)
    exact ⟨hall, hwealth.trans (wealth_addAuction (hnew i List.mem_cons_self)), hbids⟩

def opening (w : World) (s : State) (chosen : MarketId → Bool) (n : Nat) : List MarketId :=
  (w.templates.keys.filter fun i => (s.auctions.lookup i).isNone && chosen i).take n

theorem opened (now : Int) (hbooks : Books w s) (chosen : MarketId → Bool) (n : Nat) :
    Books w ((opening w s chosen n).foldl (State.addAuction now) s) ∧
      ((opening w s chosen n).foldl (State.addAuction now) s).wealth = s.wealth ∧
      ((opening w s chosen n).foldl (State.addAuction now) s).bids = s.bids := by
  have hmem : ∀ i ∈ opening w s chosen n,
      i ∈ w.templates.keys ∧ s.auctions.lookup i = none := by
    intro i hi
    obtain ⟨hkey, hi⟩ := List.mem_filter.mp (List.mem_of_mem_take hi)
    exact ⟨hkey, Option.isNone_iff_eq_none.mp (Bool.and_eq_true_iff.mp hi).1⟩
  refine foldl_addAuction hbooks ?_ (fun i hi => (hmem i hi).2) fun i hi => ?_
  · exact ((AList.keys_nodup _).filter _).sublist (List.take_sublist ..)
  · exact Option.isSome_iff_exists.mp
      (AList.lookup_isSome.mpr (AList.mem_keys.mpr (hmem i hi).1))

theorem Books.refreshAuctions {chosen : MarketId → Bool} {clock : MarketId → Int}
    (hbooks : Books w s) (h : s.refreshAuctions w chosen now clock = some t) :
    Books w t ∧ t.wealth ≤ s.wealth ∧ t.bids = s.bids := by
  unfold State.refreshAuctions at h
  dsimp only at h
  split at h
  · obtain rfl := Option.some.inj h
    exact ⟨hbooks, Nat.le_refl _, rfl⟩
  · obtain ⟨hopened, hwealth, hbids⟩ := opened now hbooks chosen
      (int32 (w.maxAuctions - s.auctions.entries.length)).toNat
    obtain ⟨ht, hle, hsame⟩ := hopened.update h
    exact ⟨ht, hwealth ▸ hle, hsame.trans hbids⟩

theorem refreshAuctions_isSome {chosen : MarketId → Bool} {clock : MarketId → Int}
    (hbooks : Books w s) : (s.refreshAuctions w chosen now clock).isSome := by
  unfold State.refreshAuctions
  dsimp only
  split
  · rfl
  · exact update_isSome (opened now hbooks chosen _).1

end Opening

theorem Books.deletePlayer (hbooks : Books w s) (player : PlayerGuid) :
    Books w { s with players := s.players.erase player } := by
  have hlookup : ∀ p, (s.players.erase player).lookup p ≠ none → s.players.lookup p ≠ none := by
    intro p hp
    by_cases hsame : p = player
    · rw [hsame, AList.lookup_erase] at hp
      exact (hp rfl).elim
    · rwa [AList.lookup_erase_ne hsame] at hp
  refine ⟨not_not.mp fun h => hlookup 0 h hbooks.nobody, ?_, hbooks.distinct, hbooks.bidsOld,
    hbooks.itemsOld, hbooks.itemsOnce, ⟨hbooks.refunds.charged, hbooks.refunds.rising,
    hbooks.refunds.only, fun b hb hout hp => hbooks.refunds.all b hb hout (hlookup _ hp), hbooks.refunds.once⟩⟩
  intro marketId entry hentry
  have he := hbooks.entered _ _ hentry
  exact ⟨he.key, he.templ, he.old, he.unsent, he.below, he.nonneg, he.few, he.first, he.held⟩

theorem wealth_deletePlayer (player : PlayerGuid) :
    ({ s with players := s.players.erase player } : State).wealth ≤ s.wealth := by
  have hle : Assoc.total id (s.players.erase player) ≤ Assoc.total id s.players := by
    cases hplayer : s.players.lookup player with
    | none =>
      have hsame : s.players.erase player = s.players := by
        refine AList.ext ?_
        exact List.kerase_of_notMem_keys (AList.lookup_eq_none.mp hplayer)
      rw [hsame]
    | some money =>
      have htotal := Assoc.total_erase id hplayer
      omega
  simp only [State.wealth]
  omega

end Ashamane.BlackMarket
