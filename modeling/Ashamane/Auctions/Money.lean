import Ashamane.Auctions.Wealth

/-! No operation of the auction houses creates money, as long as only auctions are sold whose
deposit has been taken. -/
namespace Ashamane.Auctions

open Ashamane.Lib

def Op.Sells (w : World) (s : State) : Op → AuctionId → AuctionEntry → Prop
  | .placeBid player auctioneer id' bidAmount ownerOnline, id, a =>
    id = id' ∧ ∃ b, s.bidAccepted w player auctioneer id' bidAmount ownerOnline = some b ∧
      State.isBuyout b bidAmount = true ∧ a = { b with bidder := player, bid := b.buyout }
  | .update house curTime, id, a =>
    s.getAuction house id = some a ∧ a.expireTime ≤ curTime + 60 ∧ ¬ (a.bidder = 0 ∧ a.bid = 0)
  | _, _, _ => False

def State.CanPayBatch (w : World) (s : State) (player : PlayerGuid) : Prop :=
  ∀ thisAH batch, s.pending.lookup player = some (thisAH, thisAH.length) →
    thisAH.mapM s.auctions.lookup = some batch → s.totalDeposit w batch ≤ s.getMoney player

def State.lostAtExpiry (w : World) (s : State) (house : House) (curTime : Nat) (id : AuctionId) : Nat :=
  match s.getAuction house id with
  | none => 0
  | some a => if curTime + 60 < a.expireTime then 0 else a.lost w

def State.recordedDeposit (s : State) (id : AuctionId) : Nat :=
  ((s.auctions.lookup id).map AuctionEntry.deposit).getD 0

def Op.lost (w : World) (s : State) : Op → Nat
  | .placeBid player auctioneer id bidAmount ownerOnline =>
    match s.bidAccepted w player auctioneer id bidAmount ownerOnline with
    | none => 0
    | some a => if State.isBuyout a bidAmount then w.auctionCut a.houseEntry a.buyout else 0
  | .removeItem player auctioneer id =>
    match s.cancelAccepted w player auctioneer id with
    | none => 0
    | some a => a.taken + if a.bidder ≠ 0 then a.auctionCut w else 0
  | .update house curTime =>
    ((s.auctions.entries.map (·.1)).map (s.lostAtExpiry w house curTime)).sum
  | _ => 0

structure Op.SellsPaid (w : World) (s : State) (op : Op) : Prop where
  ends : op.EndsNonePending w s
  sells : ∀ id a, op.Sells w s id a → id ∉ s.dropped ∧ a.ProfitFits w
  batches : ∀ connected now, op = .updatePending connected now → ∀ player,
    connected player = true → s.CanPayBatch w player

structure MoneyInv (w : World) (s : State) : Prop where
  inv : AuctionInv w s
  onList : ∀ player thisAH n, s.pending.lookup player = some (thisAH, n) → ∀ id ∈ thisAH,
    ∀ a, s.auctions.lookup id = some a → a.owner = player ∧ a.taken = 0
  paid : ∀ id a, s.auctions.lookup id = some a → s.NotPending id → id ∉ s.dropped →
    a.taken = a.deposit

namespace MoneyInv

variable {w : World} {s s' : State}

theorem keep (h : MoneyInv w s) (hinv : AuctionInv w s')
    (hauctions : ∀ id a', s'.auctions.lookup id = some a' → ∃ a,
      s.auctions.lookup id = some a ∧ a'.owner = a.owner ∧ a'.taken = a.taken ∧
        a'.deposit = a.deposit)
    (hpending : s'.pending = s.pending) (hdropped : s'.dropped = s.dropped) : MoneyInv w s' where
  inv := hinv
  onList := fun player thisAH n hl id hid a' ha' => by
    rw [hpending] at hl
    obtain ⟨a, ha, howner, htaken, _⟩ := hauctions id a' ha'
    rw [howner, htaken]
    exact h.onList player thisAH n hl id hid a ha
  paid := fun id a' ha' hnot hdrop => by
    obtain ⟨a, ha, _, htaken, hdeposit⟩ := hauctions id a' ha'
    rw [htaken, hdeposit]
    rw [hdropped] at hdrop
    exact h.paid id a ha (fun player l n hl => hnot player l n (hpending.symm ▸ hl)) hdrop

theorem sellItem {player : PlayerGuid} {auctioneer : Option Auctioneer} {packet : SellPacket}
    {now : Nat} (h : MoneyInv w s) (hplayer : w.IsPlayer player) :
    MoneyInv w (s.handleAuctionSellItem w player auctioneer packet now) ∧
      (s.handleAuctionSellItem w player auctioneer packet now).wealth = s.wealth := by
  have hinv : AuctionInv w (s.handleAuctionSellItem w player auctioneer packet now) :=
    h.inv.handleAuctionSellItem hplayer
  rcases State.handleAuctionSellItem_cases w s player auctioneer packet now with
    heq | ⟨auctioneer', deposit, guid, item, hitem, haItem, _, heq⟩
  · rw [heq]
    exact ⟨h, rfl⟩
  rw [heq] at hinv ⊢
  -- in both ways of listing, one auction without bid and taken deposit is new and pending
  have hnew : ∃ a, a.owner = player ∧ a.taken = 0 ∧ a.holds = 0 ∧
      (s.sellItems w player auctioneer' packet deposit now guid item).auctions =
        s.auctions.insert s.nextAuction a := by
    unfold State.sellItems
    split
    · exact ⟨_, rfl, rfl, rfl, rfl⟩
    · exact ⟨_, rfl, rfl, rfl, rfl⟩
  have hsame : (s.sellItems w player auctioneer' packet deposit now guid item).pending =
      (s.pendingAuctionAdd player s.nextAuction).pending ∧
      (s.sellItems w player auctioneer' packet deposit now guid item).dropped = s.dropped ∧
      (s.sellItems w player auctioneer' packet deposit now guid item).money = s.money ∧
      (s.sellItems w player auctioneer' packet deposit now guid item).mails = s.mails := by
    unfold State.sellItems
    split <;> exact ⟨rfl, rfl, rfl, rfl⟩
  generalize s.sellItems w player auctioneer' packet deposit now guid item = s' at hinv hnew hsame ⊢
  obtain ⟨a, howner, htaken, hholds, hauctions⟩ := hnew
  obtain ⟨hpending, hdropped, hmoney, hmails⟩ := hsame
  have hfresh : s.auctions.lookup s.nextAuction = none := by
    cases hl : s.auctions.lookup s.nextAuction with
    | none => rfl
    | some b => exact absurd (h.inv.house.auction _ b hl).2.1 (Nat.lt_irrefl _)
  have hlookup : ∀ id, s'.auctions.lookup id =
      if id = s.nextAuction then some a else s.auctions.lookup id := by
    intro id
    rw [hauctions]
    split
    next heq => rw [heq, AList.lookup_insert]
    next hne => exact AList.lookup_insert_ne hne
  have hlists : ∀ p, s'.pending.lookup p = if p = player then
      some (((s.pending.lookup p).getD ([], 0)).1 ++ [s.nextAuction],
        ((s.pending.lookup p).getD ([], 0)).2) else s.pending.lookup p := by
    intro p
    rw [hpending, State.pendingAuctionAdd]
    split
    next heq =>
      subst heq
      exact AList.lookup_insert _
    next hne => exact AList.lookup_insert_ne hne
  refine ⟨⟨hinv, fun p l n hl id hid b hb => ?_, fun id b hb hnot hdrop => ?_⟩, ?_⟩
  · rw [hlookup] at hb
    split at hb
    next heq =>
      cases hb
      subst heq
      refine ⟨?_, htaken⟩
      -- the new id is on the seller's list only
      by_contra hne
      rw [hlists, if_neg fun hp => hne (howner.trans hp.symm)] at hl
      obtain ⟨c, hc⟩ := Option.isSome_iff_exists.mp (h.inv.pending.live p l n hl _ hid)
      rw [hfresh] at hc
      cases hc
    next hne =>
      rw [hlists] at hl
      split at hl
      next hp =>
        subst hp
        simp only [Option.some.injEq, Prod.mk.injEq] at hl
        rw [← hl.1, List.mem_append, List.mem_singleton] at hid
        have hid := hid.resolve_right hne
        cases hold : s.pending.lookup p with
        | none =>
          rw [hold] at hid
          cases hid
        | some found =>
          rw [hold] at hid
          exact h.onList p found.1 found.2 hold id hid b hb
      · exact h.onList p l n hl id hid b hb
  · have hne : id ≠ s.nextAuction := by
      rintro rfl
      refine hnot player _ _ ((hlists player).trans (if_pos rfl)) ?_
      exact List.mem_append_right _ (List.mem_singleton.mpr rfl)
    rw [hlookup, if_neg hne] at hb
    refine h.paid id b hb (fun p l n hl hmem => ?_) (hdropped ▸ hdrop)
    by_cases hp : p = player
    · refine hnot p _ _ ((hlists p).trans (if_pos hp)) (List.mem_append_left _ ?_)
      rw [hl]
      exact hmem
    · exact hnot p l n ((hlists p).trans ((if_neg hp).trans hl)) hmem
  · rw [State.wealth, State.wealth, State.moneyOfPlayers, hmoney, State.moneyInMails, hmails,
      State.moneyInAuctions, hauctions, Assoc.total_insert_of_notMem _ _ hfresh, hholds]
    simp [State.moneyOfPlayers, State.moneyInMails, State.moneyInAuctions]

/-- The refund of an outbid bidder changes no money but in the mails. -/
theorem getMoney_sendAuctionOutbiddedMail (a : AuctionEntry) (p : PlayerGuid) :
    (s.sendAuctionOutbiddedMail w a).getMoney p = s.getMoney p := by
  unfold State.sendAuctionOutbiddedMail
  split <;> rfl

theorem wealth_payBid {player : PlayerGuid} {a : AuctionEntry} {bidAmount : Nat}
    (hparties : Parties w a) (hmore : a.bid < bidAmount) (hmoney : bidAmount ≤ s.getMoney player) :
    (s.payBid w player a bidAmount).wealth + (bidAmount - a.bid) = s.wealth := by
  rcases hparties.bidder with ⟨hnone, hbid⟩ | ⟨hbidder, hreceives⟩
  · have htake := State.wealth_takeMoney s player bidAmount
    rw [State.payBid, if_neg (not_not.mpr hnone)]
    omega
  · rw [State.payBid, if_pos hbidder]
    split
    · have htake := State.wealth_takeMoney s player (bidAmount - a.bid)
      omega
    · have hmail := State.wealth_sendAuctionOutbiddedMail (s := s) hreceives
      have htake := State.wealth_takeMoney (s.sendAuctionOutbiddedMail w a) player bidAmount
      rw [getMoney_sendAuctionOutbiddedMail] at htake
      omega

theorem wealth_payBuyout {player : PlayerGuid} {a : AuctionEntry} (hplayer : w.IsPlayer player)
    (hparties : Parties w a) (hprice : a.bid ≤ a.buyout) (hmoney : a.buyout ≤ s.getMoney player) :
    (s.payBuyout w player a).wealth + (a.buyout - a.bid) = s.wealth := by
  have htake := State.wealth_takeMoney s player a.buyout
  rcases hparties.bidder with ⟨hnone, hbid⟩ | ⟨hbidder, hreceives⟩
  · rw [State.payBuyout, if_neg (hnone ▸ hplayer.ne_zero), if_neg (not_not.mpr hnone)]
    omega
  · unfold State.payBuyout
    split
    · have htake := State.wealth_takeMoney s player (a.buyout - a.bid)
      omega
    · have hmail := State.wealth_sendAuctionOutbiddedMail (s := s.takeMoney player a.buyout) hreceives
      omega

theorem placeBid {player : PlayerGuid} {id : AuctionId} {a : AuctionEntry} {bidAmount : Nat}
    (h : MoneyInv w s) (hplayer : w.IsPlayer player) (ha : s.auctions.lookup id = some a)
    (hbid : State.isBuyout a bidAmount = false) (hmore : a.bid < bidAmount)
    (hmoney : bidAmount ≤ s.getMoney player) :
    MoneyInv w (s.placeBid w player id a bidAmount) ∧
      (s.placeBid w player id a bidAmount).wealth = s.wealth := by
  have hinv := h.inv.placeBid hplayer ha hbid
  obtain ⟨_, hauctions, hpending, hdropped⟩ := h.inv.payBid w player a bidAmount
  have hwealth := wealth_payBid (h.inv.house.auction id a ha).2.2 hmore hmoney
  unfold State.placeBid at hinv ⊢
  refine ⟨h.keep hinv (fun id' a' ha' => ?_) hpending hdropped, ?_⟩
  · simp only [State.modifyAuction, Assoc.lookup_modify, hauctions] at ha'
    split at ha'
    · obtain ⟨b, hb, rfl⟩ := Option.map_eq_some_iff.mp ha'
      exact ⟨b, hb, rfl, rfl, rfl⟩
    · exact ⟨a', ha', rfl, rfl, rfl⟩
  · have hmod := State.wealth_modifyAuction (s := s.payBid w player a bidAmount)
      (fun a : AuctionEntry => { a with bidder := player, bid := bidAmount }) (hauctions ▸ ha)
    simp only [AuctionEntry.holds] at hmod
    omega

theorem closed {id : AuctionId} (h : MoneyInv w s) (hinv : AuctionInv w s')
    (hauctions : s'.auctions = s.auctions.erase id) (hpending : s'.pending = s.pending)
    (hdropped : s'.dropped = s.dropped) : MoneyInv w s' := by
  refine h.keep hinv (fun id' a' ha' => ?_) hpending hdropped
  rw [hauctions] at ha'
  by_cases hid : id' = id
  · rw [hid, AList.lookup_erase] at ha'
    cases ha'
  · rw [AList.lookup_erase_ne hid] at ha'
    exact ⟨a', ha', rfl, rfl, rfl⟩

/-- A sale pays out what the auction holds less the cut, if its deposit has been taken. -/
theorem wealth_sell {id : AuctionId} {a : AuctionEntry} (ha : s.auctions.lookup id = some a)
    (howner : w.receives a.owner = true) (hpaid : a.taken = a.deposit) (hprofit : a.ProfitFits w) :
    (((s.sendAuctionSuccessfulMail w a).sendAuctionWonMail w a).closeAuction id a).wealth +
      a.auctionCut w = s.wealth := by
  have hmail := State.wealth_sendAuctionSuccessfulMail (s := s) howner hprofit
  have hwon := State.wealth_sendAuctionWonMail (w := w) (s := s.sendAuctionSuccessfulMail w a) a
  have hlookup : ((s.sendAuctionSuccessfulMail w a).sendAuctionWonMail w a).auctions.lookup id =
      some a := by
    unfold State.sendAuctionWonMail State.sendAuctionSuccessfulMail
    split <;> split <;> exact ha
  have hclose := State.wealth_closeAuction a hlookup
  rw [AuctionEntry.holds] at hclose
  omega

theorem sell_frame (w : World) (s : State) (id : AuctionId) (a : AuctionEntry) :
    (((s.sendAuctionSuccessfulMail w a).sendAuctionWonMail w a).closeAuction id a).auctions =
        s.auctions.erase id ∧
      (((s.sendAuctionSuccessfulMail w a).sendAuctionWonMail w a).closeAuction id a).pending =
        s.pending ∧
      (((s.sendAuctionSuccessfulMail w a).sendAuctionWonMail w a).closeAuction id a).dropped =
        s.dropped := by
  unfold State.sendAuctionWonMail State.sendAuctionSuccessfulMail
  split
  · split <;> exact ⟨rfl, rfl, rfl⟩
  · split <;> split <;> exact ⟨rfl, rfl, rfl⟩

theorem sendAuctionSalePendingMail_frame (w : World) (s : State) (a : AuctionEntry) :
    (s.sendAuctionSalePendingMail w a).auctions = s.auctions ∧
      (s.sendAuctionSalePendingMail w a).pending = s.pending ∧
      (s.sendAuctionSalePendingMail w a).dropped = s.dropped := by
  unfold State.sendAuctionSalePendingMail
  split <;> exact ⟨rfl, rfl, rfl⟩

theorem expireAuction {id : AuctionId} {a : AuctionEntry} (h : MoneyInv w s)
    (ha : s.auctions.lookup id = some a) (hnot : s.NotPending id)
    (hsell : ¬ (a.bidder = 0 ∧ a.bid = 0) → id ∉ s.dropped ∧ a.ProfitFits w) :
    MoneyInv w (s.expireAuction w id a) ∧ (s.expireAuction w id a).wealth + a.lost w = s.wealth ∧
      (s.expireAuction w id a).dropped = s.dropped := by
  have hinv := h.inv.expireAuction ha hnot
  obtain ⟨hpending, hauctions⟩ := State.expireAuction_frame w s id a
  have hdropped : (s.expireAuction w id a).dropped = s.dropped := by
    unfold State.expireAuction State.sendAuctionExpiredMail State.sendAuctionSuccessfulMail
      State.sendAuctionWonMail
    split
    · split
      · rfl
      · split <;> rfl
    · split
      · split <;> rfl
      · split <;> split <;> rfl
  refine ⟨h.closed hinv hauctions hpending hdropped, ?_, hdropped⟩
  unfold State.expireAuction AuctionEntry.lost
  split
  next hback =>
    have hmail := State.wealth_sendAuctionExpiredMail (w := w) (s := s) a
    have hlookup : (s.sendAuctionExpiredMail w a).auctions.lookup id = some a := by
      unfold State.sendAuctionExpiredMail
      split
      · exact ha
      · split <;> exact ha
    have hclose := State.wealth_closeAuction a hlookup
    rw [AuctionEntry.holds, hback.2, Nat.zero_add] at hclose
    exact hclose.trans hmail
  next hbid =>
    obtain ⟨hdrop, hprofit⟩ := hsell hbid
    exact wealth_sell ha (h.inv.house.auction id a ha).2.2.owner (h.paid id a ha hnot hdrop) hprofit

theorem buyout {player : PlayerGuid} {id : AuctionId} {a : AuctionEntry} {bidAmount : Nat}
    (h : MoneyInv w s) (hplayer : w.IsPlayer player) (ha : s.auctions.lookup id = some a)
    (hbuy : State.isBuyout a bidAmount = true) (hmoney : bidAmount ≤ s.getMoney player)
    (hnot : s.NotPending id) (hdrop : id ∉ s.dropped)
    (hprofit : { a with bidder := player, bid := a.buyout }.ProfitFits w) :
    MoneyInv w (s.buyout w player id a) ∧
      (s.buyout w player id a).wealth + w.auctionCut a.houseEntry a.buyout = s.wealth := by
  have hinv := h.inv.buyout hplayer ha hnot
  have hparties := (h.inv.house.auction id a ha).2.2
  obtain ⟨_, hauctions, hpending, hdropped⟩ := h.inv.payBuyout w player a
  simp only [State.isBuyout, Bool.not_eq_true', Bool.or_eq_false_iff, decide_eq_false_iff_not,
    beq_eq_false_iff_ne] at hbuy
  have hprice := hparties.price.resolve_left hbuy.2
  have hwealth := wealth_payBuyout hplayer hparties hprice
    (Nat.le_trans (Nat.le_of_not_lt hbuy.1) hmoney)
  have hdeposit := h.paid id a ha hnot hdrop
  obtain ⟨sold, hsold⟩ : ∃ b, b = { a with bidder := player, bid := a.buyout } := ⟨_, rfl⟩
  simp only [State.buyout, ← hsold] at hinv hprofit ⊢
  generalize s.payBuyout w player a = paid at hinv hauctions hpending hdropped hwealth ⊢
  have hmod := State.wealth_modifyAuction (s := paid) (fun _ => sold) (hauctions ▸ ha)
  obtain ⟨hmailAuctions, hmailPending, hmailDropped⟩ :=
    sendAuctionSalePendingMail_frame w (paid.modifyAuction id fun _ => sold) sold
  have hmail := State.wealth_sendAuctionSalePendingMail (w := w)
    (s := paid.modifyAuction id fun _ => sold) sold
  generalize (paid.modifyAuction id fun _ => sold).sendAuctionSalePendingMail w sold = mailed
    at hinv hmailAuctions hmailPending hmailDropped hmail ⊢
  have hlookup : ∀ id', mailed.auctions.lookup id' =
      if id' = id then some sold else s.auctions.lookup id' := fun id' => by
    rw [hmailAuctions, State.modifyAuction, Assoc.lookup_modify, hauctions]
    split
    next heq => rw [heq, ha, Option.map_some]
    · rfl
  obtain ⟨hsoldAuctions, hsoldPending, hsoldDropped⟩ := sell_frame w mailed id sold
  refine ⟨h.keep hinv (fun id' a' ha' => ?_) ?_ ?_, ?_⟩
  · rw [hsoldAuctions] at ha'
    have hne : id' ≠ id := by
      rintro rfl
      rw [AList.lookup_erase] at ha'
      cases ha'
    rw [AList.lookup_erase_ne hne, hlookup, if_neg hne] at ha'
    exact ⟨a', ha', rfl, rfl, rfl⟩
  · exact hsoldPending.trans (hmailPending.trans hpending)
  · exact hsoldDropped.trans (hmailDropped.trans hdropped)
  · have hsell := wealth_sell ((hlookup id).trans (if_pos rfl)) (by rw [hsold]; exact hparties.owner)
      (by rw [hsold]; exact hdeposit) hprofit
    have hcut : sold.auctionCut w = w.auctionCut a.houseEntry a.buyout := by
      rw [hsold, AuctionEntry.auctionCut]
    have hholds : sold.holds = a.buyout + a.taken := by rw [hsold, AuctionEntry.holds]
    rw [hholds, AuctionEntry.holds] at hmod
    omega

theorem handleAuctionRemoveItem {player : PlayerGuid} {auctioneer : Option Auctioneer}
    {id : AuctionId} (h : MoneyInv w s)
    (hok : (Op.removeItem player auctioneer id).EndsNonePending w s) :
    MoneyInv w (s.handleAuctionRemoveItem w player auctioneer id) ∧
      (s.handleAuctionRemoveItem w player auctioneer id).wealth +
        (Op.removeItem player auctioneer id).lost w s = s.wealth := by
  have hinv := h.inv.handleAuctionRemoveItem hok
  unfold State.handleAuctionRemoveItem at hinv ⊢
  unfold Op.lost
  split at hinv
  next hnone =>
    simp only [hnone]
    exact ⟨h, rfl⟩
  next a hacc =>
  obtain ⟨ha, hcut⟩ := State.lookup_of_cancelAccepted hacc
  -- before the auction is closed, the bid has gone to the bidder at the price of the cut
  obtain ⟨refunded, hrefunded⟩ : ∃ t, t = if a.bidder ≠ 0 then
      (s.sendAuctionCancelledToBidderMail w a).takeMoney player (a.auctionCut w) else s := ⟨_, rfl⟩
  have hback : refunded.auctions = s.auctions ∧ refunded.pending = s.pending ∧
      refunded.dropped = s.dropped ∧ refunded.wealth +
        (if a.bidder ≠ 0 then a.auctionCut w else 0) = s.wealth + a.bid := by
    rw [hrefunded]
    rcases (h.inv.house.auction id a ha).2.2.bidder with ⟨hnone, hbid⟩ | ⟨hbidder, hreceives⟩
    · rw [if_neg (not_not.mpr hnone), if_neg (not_not.mpr hnone), hbid]
      exact ⟨rfl, rfl, rfl, rfl⟩
    · rw [if_pos hbidder, if_pos hbidder, State.sendAuctionCancelledToBidderMail_eq]
      obtain ⟨_, hauctions, hpending, hdropped⟩ := h.inv.sendAuctionOutbiddedMail w a
      have hmail := State.wealth_sendAuctionOutbiddedMail (s := s) hreceives
      have htake := State.wealth_takeMoney (s.sendAuctionOutbiddedMail w a) player (a.auctionCut w)
      rw [getMoney_sendAuctionOutbiddedMail, Nat.min_eq_left (hcut hbidder)] at htake
      exact ⟨hauctions, hpending, hdropped, by omega⟩
  simp only [← hrefunded, hacc] at hinv ⊢
  obtain ⟨hauctions, hpending, hdropped, hwealth⟩ := hback
  have hlookup : (refunded.sendMail player (some a.itemGuid) 0).auctions.lookup id = some a :=
    (congrArg (AList.lookup id) hauctions).trans ha
  have hclose := State.wealth_closeAuction a hlookup
  rw [State.wealth_sendMail, AuctionEntry.holds] at hclose
  exact ⟨h.closed hinv (by rw [← hauctions]; rfl) hpending hdropped, by omega⟩

theorem handleAuctionPlaceBid {player : PlayerGuid} {auctioneer : Option Auctioneer}
    {id : AuctionId} {bidAmount : Nat} {ownerOnline : Bool} (h : MoneyInv w s)
    (hplayer : w.IsPlayer player)
    (hok : (Op.placeBid player auctioneer id bidAmount ownerOnline).SellsPaid w s) :
    MoneyInv w (s.handleAuctionPlaceBid w player auctioneer id bidAmount ownerOnline) ∧
      (s.handleAuctionPlaceBid w player auctioneer id bidAmount ownerOnline).wealth +
        (Op.placeBid player auctioneer id bidAmount ownerOnline).lost w s = s.wealth := by
  unfold State.handleAuctionPlaceBid
  split
  next hnone =>
    simp only [Op.lost, hnone]
    exact ⟨h, rfl⟩
  next a hacc =>
    obtain ⟨ha, hmore, hmoney⟩ := State.lookup_of_bidAccepted hacc
    simp only [Op.lost, hacc]
    split
    next hbuy =>
      obtain ⟨hdrop, hprofit⟩ := hok.sells id _ ⟨rfl, a, hacc, hbuy, rfl⟩
      exact h.buyout hplayer ha hbuy hmoney (hok.ends a hacc hbuy) hdrop hprofit
    next hbid => exact h.placeBid hplayer ha (by simpa using hbid) hmore hmoney

/-- The loop of the update: the auctions still to come are as they were before. -/
theorem updateHouse {house : House} {curTime : Nat} {l : List AuctionId} (h : MoneyInv w s)
    (hnodup : l.Nodup)
    (hok : ∀ id a, s.getAuction house id = some a → a.expireTime ≤ curTime + 60 →
      s.NotPending id ∧ (¬ (a.bidder = 0 ∧ a.bid = 0) → id ∉ s.dropped ∧ a.ProfitFits w)) :
    MoneyInv w (State.updateHouse w house curTime l s) ∧
      (State.updateHouse w house curTime l s).wealth +
        (l.map (s.lostAtExpiry w house curTime)).sum = s.wealth := by
  induction l generalizing s with
  | nil => exact ⟨h, rfl⟩
  | cons id rest ih =>
    rw [List.nodup_cons] at hnodup
    simp only [State.updateHouse, List.map_cons, List.sum_cons]
    split
    next hnone =>
      have hfree : s.lostAtExpiry w house curTime id = 0 := by simp only [State.lostAtExpiry, hnone]
      rw [hfree, Nat.zero_add]
      exact ih h hnodup.2 hok
    next a ha =>
    split
    next hrunning =>
      have hfree : s.lostAtExpiry w house curTime id = 0 := by
        simp only [State.lostAtExpiry, ha, if_pos hrunning]
      rw [hfree, Nat.zero_add]
      exact ih h hnodup.2 hok
    next hexpired =>
      have hcost : s.lostAtExpiry w house curTime id = a.lost w := by
        simp only [State.lostAtExpiry, ha, if_neg hexpired]
      obtain ⟨hnot, hsell⟩ := hok id a ha (Nat.le_of_not_lt hexpired)
      obtain ⟨hnext, hwealth, hdropped⟩ := h.expireAuction (State.getAuction_eq_some ha) hnot hsell
      obtain ⟨hpending, hauctions⟩ := State.expireAuction_frame w s id a
      have hget : ∀ id', id' ≠ id → (s.expireAuction w id a).getAuction house id' =
          s.getAuction house id' := fun id' hne => by
        rw [State.getAuction, State.getAuction, hauctions, AList.lookup_erase_ne hne]
      obtain ⟨hall, hrest⟩ := ih hnext hnodup.2 fun id' a' ha' hexpired' => by
        have hne : id' ≠ id := by
          rintro rfl
          simp [State.getAuction, hauctions] at ha'
        rw [hget id' hne] at ha'
        obtain ⟨hnot', hsell'⟩ := hok id' a' ha' hexpired'
        exact ⟨fun player thisAH n hl => hnot' player thisAH n (hpending ▸ hl), hdropped ▸ hsell'⟩
      have hlost : rest.map ((s.expireAuction w id a).lostAtExpiry w house curTime) =
          rest.map (s.lostAtExpiry w house curTime) :=
        List.map_congr_left fun id' hid' => by
          rw [State.lostAtExpiry, State.lostAtExpiry, hget id' fun heq => hnodup.1 (heq ▸ hid')]
      rw [hlost] at hrest
      exact ⟨hall, by omega⟩

theorem notOnOther {player p : PlayerGuid} {thisAH l : List AuctionId} {n m : Nat} {id : AuctionId}
    (h : MoneyInv w s) (hl : s.pending.lookup player = some (thisAH, n))
    (hp : s.pending.lookup p = some (l, m)) (hid : id ∈ l) (hne : p ≠ player) : id ∉ thisAH := by
  intro hmem
  obtain ⟨a, ha⟩ := Option.isSome_iff_exists.mp (h.inv.pending.live p l m hp id hid)
  have howner := (h.onList p l m hp id hid a ha).1
  exact hne (howner.symm.trans (h.onList player thisAH n hl id hmem a ha).1)

/-- A due batch: every auction has its share as the deposit, and what is taken is all of it
if the player has the money. -/
theorem lookup_recordDeposits_batch {player : PlayerGuid} {thisAH : List AuctionId} {n : Nat}
    {shares taken : List Nat} (h : MoneyInv w s) (hl : s.pending.lookup player = some (thisAH, n))
    (hshares : shares.length = thisAH.length) (htaken : taken.length = thisAH.length) {i : Nat}
    (hi : i < thisAH.length) : ∃ a, s.auctions.lookup thisAH[i] = some a ∧
      (s.recordDeposits (thisAH.zip (shares.zip taken))).auctions.lookup thisAH[i] =
        some { a with deposit := shares[i], taken := taken[i] } := by
  obtain ⟨a, ha⟩ := Option.isSome_iff_exists.mp
    (h.inv.pending.live player thisAH n hl _ (List.getElem_mem hi))
  have hmem : (thisAH[i], shares[i], taken[i]) ∈ thisAH.zip (shares.zip taken) :=
    List.mem_iff_getElem.mpr ⟨i, by simp [hshares, htaken, hi], by simp⟩
  have hnodup : ((thisAH.zip (shares.zip taken)).map Prod.fst).Nodup := by
    rw [List.map_fst_zip (by simp [hshares, htaken])]
    exact h.inv.pending.nodup player thisAH n hl
  refine ⟨a, ha, ?_⟩
  rw [State.lookup_recordDeposits hnodup hmem, ha, Option.map_some,
    (h.onList player thisAH n hl _ (List.getElem_mem hi) a ha).2, Nat.zero_add]

theorem lookup_recordDeposits_other {thisAH : List AuctionId} {shares taken : List Nat}
    {id : AuctionId} (hid : id ∉ thisAH) :
    (s.recordDeposits (thisAH.zip (shares.zip taken))).auctions.lookup id =
      s.auctions.lookup id := by
  refine State.lookup_recordDeposits_of_notMem (fun hmem => hid ?_) s
  obtain ⟨x, hx, rfl⟩ := List.mem_map.mp hmem
  exact (List.of_mem_zip hx).1

/-- Taking a batch off its list, when the auctions of the batch end up either paid or
dropped and the others stay as they are. -/
theorem eraseBatch {player : PlayerGuid} {thisAH : List AuctionId} {n : Nat} (h : MoneyInv w s)
    (hinv : AuctionInv w s') (hl : s.pending.lookup player = some (thisAH, n))
    (hpending : s'.pending = s.pending.erase player)
    (hother : ∀ id, id ∉ thisAH → s'.auctions.lookup id = s.auctions.lookup id)
    (hdropped : ∀ id, id ∉ s'.dropped → id ∉ s.dropped)
    (hbatch : ∀ id ∈ thisAH, ∀ a, s'.auctions.lookup id = some a → id ∉ s'.dropped →
      a.taken = a.deposit) : MoneyInv w s' := by
  have hlists : ∀ p l m, s'.pending.lookup p = some (l, m) →
      p ≠ player ∧ s.pending.lookup p = some (l, m) := by
    intro p l m hp
    rw [hpending] at hp
    have hne : p ≠ player := by
      rintro rfl
      rw [AList.lookup_erase] at hp
      cases hp
    exact ⟨hne, AList.lookup_erase_ne hne ▸ hp⟩
  constructor
  case inv => exact hinv
  case onList =>
    intro p l m hp id hid a ha
    obtain ⟨hne, hold⟩ := hlists p l m hp
    rw [hother id (h.notOnOther hl hold hid hne)] at ha
    exact h.onList p l m hold id hid a ha
  case paid =>
    intro id a ha hnot hdrop
    by_cases hid : id ∈ thisAH
    · exact hbatch id hid a ha hdrop
    · rw [hother id hid] at ha
      refine h.paid id a ha (fun p l m hp hmem => ?_) (hdropped id hdrop)
      by_cases hne : p = player
      · rw [hne, hl] at hp
        cases hp
        exact hid hmem
      · refine hnot p l m ?_ hmem
        rw [hpending, AList.lookup_erase_ne hne]
        exact hp

theorem pendingAuctionProcess {player : PlayerGuid} {thisAH : List AuctionId} (h : MoneyInv w s)
    (hl : s.pending.lookup player = some (thisAH, thisAH.length)) (hpay : s.CanPayBatch w player)
    (hs : s.pendingAuctionProcess w player = some s') :
    MoneyInv w s' ∧ s'.wealth = s.wealth := by
  have hinv := h.inv.pendingAuctionProcess hs
  simp only [State.pendingAuctionProcess, hl] at hs
  obtain ⟨batch, hbatch, hs⟩ := Option.bind_eq_some_iff.mp hs
  have hpay := hpay thisAH batch hl hbatch
  have hsum := State.sum_depositShares_batch (w := w) hbatch
  generalize s.totalDeposit w batch = totaldeposit at hpay hsum hs
  have hlen := State.length_depositShares totaldeposit thisAH.length
  generalize State.depositShares totaldeposit thisAH.length = shares at hlen hsum hs
  rw [State.takenShares_eq (hsum ▸ hpay)] at hs
  obtain ⟨hpending, hmoney, _, hdropped⟩ := s.recordDeposits_frame (thisAH.zip (shares.zip shares))
  have hwealth := s.wealth_recordDeposits (l := thisAH.zip (shares.zip shares)) fun x hx =>
    h.inv.pending.live player thisAH _ hl x.1 (List.of_mem_zip hx).1
  have htaken : (thisAH.zip (shares.zip shares)).map (fun x => x.2.2) = shares := by
    have hle : (shares.zip shares).length ≤ thisAH.length := by simp [hlen]
    have hsnd := List.map_snd_zip hle
    have htwice := congrArg (List.map Prod.snd) hsnd
    rw [List.map_map, List.map_snd_zip (Nat.le_refl _)] at htwice
    exact htwice
  rw [htaken] at hwealth
  have hlookup := fun {i} hi => h.lookup_recordDeposits_batch (i := i) hl hlen hlen hi
  have hother := fun {id} => @lookup_recordDeposits_other s thisAH shares shares id
  generalize s.recordDeposits (thisAH.zip (shares.zip shares)) = recorded at *
  cases hs
  refine ⟨h.eraseBatch hinv hl (congrArg (AList.erase player) hpending) (fun _ hid => hother hid)
    (fun id hid => hdropped ▸ hid) fun id hid a ha _ => ?_, ?_⟩
  · obtain ⟨i, hi, rfl⟩ := List.getElem_of_mem hid
    obtain ⟨b, _, hb⟩ := hlookup hi
    cases hb.symm.trans ha
    rfl
  · have htake := State.wealth_takeMoney (recorded.erasePending player) player totaldeposit
    have hhas : (recorded.erasePending player).getMoney player = s.getMoney player := by
      rw [State.getMoney, State.getMoney, ← hmoney]
      rfl
    have hsame : (recorded.erasePending player).wealth = recorded.wealth := rfl
    omega

theorem updatePendingOf {player : PlayerGuid} {connected : Bool} {now : Nat} (h : MoneyInv w s)
    (hpay : connected = true → s.CanPayBatch w player)
    (hs : s.updatePendingOf w player connected now = some s') :
    MoneyInv w s' ∧ s'.wealth = s.wealth := by
  have hinv := h.inv.updatePendingOf hs
  unfold State.updatePendingOf at hs
  split at hs
  · cases hs
    exact ⟨h, rfl⟩
  next thisAH n hl =>
  split at hs
  next hconnected =>
    split at hs
    next hdue =>
      subst hdue
      exact h.pendingAuctionProcess hl (hpay hconnected) hs
    · -- only the count of the list changes
      cases hs
      have hlists : ∀ p, ((s.pending.insert player (thisAH, thisAH.length)).lookup p).map Prod.fst =
          (s.pending.lookup p).map Prod.fst := by
        intro p
        by_cases hp : p = player
        · rw [hp, AList.lookup_insert, hl]
          rfl
        · rw [AList.lookup_insert_ne hp]
      refine ⟨⟨hinv, fun p l m hp => ?_, fun id a ha hnot => h.paid id a ha fun p l m hp => ?_⟩,
        rfl⟩
      · have hold := hlists p
        rw [hp] at hold
        obtain ⟨found, hfound, heq⟩ := Option.map_eq_some_iff.mp hold.symm
        cases heq
        exact h.onList p found.1 found.2 hfound
      · have hold := hlists p
        rw [hp] at hold
        obtain ⟨found, hfound, heq⟩ := Option.map_eq_some_iff.mp hold
        cases heq
        exact hnot p found.1 found.2 hfound
  · obtain ⟨_, _, hs⟩ := Option.bind_eq_some_iff.mp hs
    cases hs
    obtain ⟨hpending, _, _, hdropped⟩ := s.expireBatch_frame now thisAH
    have hwealth := s.wealth_expireBatch now (h.inv.pending.live player thisAH n hl)
    refine ⟨h.eraseBatch hinv hl (congrArg (AList.erase player) hpending) (fun id hid => ?_)
      (fun id hid => (hdropped id hid).2) (fun id hid _ _ hdrop => absurd hid (hdropped id hdrop).1),
      hwealth⟩
    refine (State.lookup_expireBatch now thisAH id s).trans ?_
    simp [hid]

theorem updatePendingOf_frame {player : PlayerGuid} {connected : Bool} {now : Nat}
    (h : MoneyInv w s) (hs : s.updatePendingOf w player connected now = some s') :
    s'.aItems = s.aItems ∧ ∀ p, p ≠ player → s'.pending.lookup p = s.pending.lookup p ∧
      s'.getMoney p = s.getMoney p ∧ ∀ l n, s.pending.lookup p = some (l, n) → ∀ id ∈ l,
        s'.auctions.lookup id = s.auctions.lookup id := by
  unfold State.updatePendingOf at hs
  split at hs
  · cases hs
    exact ⟨rfl, fun p _ => ⟨rfl, rfl, fun _ _ _ _ _ => rfl⟩⟩
  next thisAH n hl =>
  split at hs
  · split at hs
    · simp only [State.pendingAuctionProcess, hl] at hs
      obtain ⟨batch, _, hs⟩ := Option.bind_eq_some_iff.mp hs
      generalize State.depositShares _ _ = shares at hs
      generalize State.takenShares _ _ = taken at hs
      have hother := fun {id} => @lookup_recordDeposits_other s thisAH shares taken id
      obtain ⟨hpending, hmoney, haItems, _⟩ := s.recordDeposits_frame (thisAH.zip (shares.zip taken))
      generalize s.recordDeposits (thisAH.zip (shares.zip taken)) = recorded at *
      cases hs
      have herase := congrArg (AList.erase player) hpending
      refine ⟨haItems, fun p hp => ⟨?_, ?_, fun l m hlist id hid =>
        hother (h.notOnOther hl hlist hid hp)⟩⟩
      · exact (congrArg (AList.lookup p) herase).trans (AList.lookup_erase_ne hp)
      · rw [State.getMoney_takeMoney, if_neg hp, State.getMoney, State.getMoney, ← hmoney]
        rfl
    · cases hs
      exact ⟨rfl, fun p hp => ⟨AList.lookup_insert_ne hp, rfl, fun _ _ _ _ _ => rfl⟩⟩
  · obtain ⟨_, _, hs⟩ := Option.bind_eq_some_iff.mp hs
    cases hs
    obtain ⟨hpending, hmoney, haItems, _⟩ := s.expireBatch_frame now thisAH
    have herase := congrArg (AList.erase player) hpending
    refine ⟨haItems, fun p hp => ⟨?_, ?_, fun l m hlist id hid => ?_⟩⟩
    · exact (congrArg (AList.lookup p) herase).trans (AList.lookup_erase_ne hp)
    · rw [State.getMoney, State.getMoney, ← hmoney]
      rfl
    · refine (State.lookup_expireBatch now thisAH id s).trans ?_
      simp [h.notOnOther hl hlist hid hp]

/-- The loop over the players: a turn takes nothing that another batch is paid from. -/
theorem updatePendingAuctions {connected : PlayerGuid → Bool} {now : Nat} {l : List PlayerGuid}
    (h : MoneyInv w s) (hnodup : l.Nodup)
    (hpay : ∀ player ∈ l, connected player = true → s.CanPayBatch w player)
    (hs : State.updatePendingAuctions w connected now l s = some s') :
    MoneyInv w s' ∧ s'.wealth = s.wealth := by
  induction l generalizing s with
  | nil =>
    cases hs
    exact ⟨h, rfl⟩
  | cons player rest ih =>
    obtain ⟨u, hu, hs⟩ := Option.bind_eq_some_iff.mp hs
    obtain ⟨hnext, hwealth⟩ := h.updatePendingOf (hpay player (List.mem_cons_self ..)) hu
    obtain ⟨haItems, hframe⟩ := h.updatePendingOf_frame hu
    rw [List.nodup_cons] at hnodup
    obtain ⟨hall, hrest⟩ := ih hnext hnodup.2 (fun p hp hconnected thisAH batch hl hbatch => by
      have hne : p ≠ player := fun heq => hnodup.1 (heq ▸ hp)
      obtain ⟨hpending, hmoney, hsame⟩ := hframe p hne
      rw [hpending] at hl
      have hmap : thisAH.mapM s.auctions.lookup = some batch := by
        rw [← hbatch]
        exact Assoc.mapM_lookup_congr fun id hid => (hsame thisAH _ hl id hid).symm
      have htotal : u.totalDeposit w batch = s.totalDeposit w batch := by
        simp only [State.totalDeposit, State.getAItem, haItems]
      rw [htotal, hmoney]
      exact hpay p (List.mem_cons_of_mem _ hp) hconnected thisAH batch hl hmap) hs
    exact ⟨hall, hrest.trans hwealth⟩

/-- What the batch of a player records is what is taken from the player. -/
theorem sum_recordedDeposit {player : PlayerGuid} {thisAH : List AuctionId} (h : MoneyInv w s)
    (hl : s.pending.lookup player = some (thisAH, thisAH.length)) (hpay : s.CanPayBatch w player)
    (hs : s.pendingAuctionProcess w player = some s') :
    (thisAH.map s'.recordedDeposit).sum + s'.getMoney player = s.getMoney player := by
  simp only [State.pendingAuctionProcess, hl] at hs
  obtain ⟨batch, hbatch, hs⟩ := Option.bind_eq_some_iff.mp hs
  have hpay := hpay thisAH batch hl hbatch
  have hsum := State.sum_depositShares_batch (w := w) hbatch
  generalize s.totalDeposit w batch = totaldeposit at hpay hsum hs
  have hlen := State.length_depositShares totaldeposit thisAH.length
  generalize State.depositShares totaldeposit thisAH.length = shares at hlen hsum hs
  have htaken := State.length_takenShares (s.getMoney player) shares
  generalize State.takenShares (s.getMoney player) shares = taken at htaken hs
  have hmoney := (s.recordDeposits_frame (thisAH.zip (shares.zip taken))).2.1
  have hlookup := fun {i} hi => h.lookup_recordDeposits_batch (i := i) hl hlen (htaken.trans hlen) hi
  generalize s.recordDeposits (thisAH.zip (shares.zip taken)) = recorded at *
  cases hs
  have hshares : thisAH.map ((recorded.erasePending player).takeMoney player totaldeposit
      ).recordedDeposit = shares := by
    refine List.ext_getElem (by rw [List.length_map, hlen]) fun i hi hi' => ?_
    obtain ⟨a, _, ha⟩ := hlookup (by rwa [List.length_map] at hi)
    rw [List.getElem_map, State.recordedDeposit]
    exact congrArg (fun found : Option AuctionEntry => (found.map AuctionEntry.deposit).getD 0) ha
  have hhas : (recorded.erasePending player).getMoney player = s.getMoney player := by
    rw [State.getMoney, State.getMoney, ← hmoney]
    rfl
  rw [hshares, State.getMoney_takeMoney, if_pos rfl, hhas]
  omega

theorem step {op : Op} (h : MoneyInv w s) (hok : op.SellsPaid w s) (hs : Step w s op s') :
    MoneyInv w s' ∧ s'.wealth + op.lost w s = s.wealth := by
  cases hs with
  | sellItem auctioneer packet now hplayer => exact h.sellItem hplayer
  | placeBid auctioneer id bidAmount ownerOnline hplayer =>
    exact h.handleAuctionPlaceBid hplayer hok
  | removeItem auctioneer id hplayer => exact h.handleAuctionRemoveItem hok.ends
  | update house curTime =>
    exact h.updateHouse s.auctions.nodupKeys fun id a ha hexpired =>
      ⟨hok.ends id a ha hexpired, fun hbid => hok.sells id a ⟨ha, hexpired, hbid⟩⟩
  | @updatePending connected now _ hs =>
    exact h.updatePendingAuctions s.pending.nodupKeys
      (fun player _ hconnected => hok.batches connected now rfl player hconnected) hs

theorem taken_of_sells {op : Op} {id : AuctionId} {a : AuctionEntry} (h : MoneyInv w s)
    (hok : op.SellsPaid w s) (hsells : op.Sells w s id a) : a.taken = a.deposit := by
  have hdrop := (hok.sells id a hsells).1
  cases op with
  | placeBid player auctioneer id' bidAmount ownerOnline =>
    obtain ⟨rfl, b, hacc, hbuy, rfl⟩ := hsells
    exact h.paid id b (State.lookup_of_bidAccepted hacc).1 (hok.ends b hacc hbuy) hdrop
  | update house curTime =>
    obtain ⟨ha, hexpired, _⟩ := hsells
    exact h.paid id a (State.getAuction_eq_some ha) (hok.ends id a ha hexpired) hdrop
  | sellItem => cases hsells
  | removeItem => cases hsells
  | updatePending => cases hsells

end MoneyInv

structure OpenedPaid (w : World) (s : State) : Prop where
  opened : Opened w s
  deposits : ∀ id a, s.auctions.lookup id = some a → id ∉ s.dropped → a.taken = a.deposit

theorem OpenedPaid.moneyInv {w : World} {s : State} (h : OpenedPaid w s) : MoneyInv w s where
  inv := h.opened.auctionInv
  onList := fun player thisAH n hl => by
    rw [h.opened.pending] at hl
    cases hl
  paid := fun id a ha _ hdrop => h.deposits id a ha hdrop

structure MoneyKept (w : World) (s : State) : Prop where
  step : ∀ (op : Op) (s' : State), op.SellsPaid w s → Step w s op s' →
    s'.wealth + op.lost w s = s.wealth
  sold : ∀ op : Op, op.SellsPaid w s → ∀ id a, op.Sells w s id a → a.taken = a.deposit
  recorded : ∀ player thisAH s', s.pending.lookup player = some (thisAH, thisAH.length) →
    s.CanPayBatch w player → s.pendingAuctionProcess w player = some s' →
    (thisAH.map s'.recordedDeposit).sum + s'.getMoney player = s.getMoney player

theorem wealth_run {w : World} {s₀ s : State} {ops : List Op} (hopened : OpenedPaid w s₀)
    (hrun : Run (Step w) (fun s op => op.SellsPaid w s) s₀ ops s) :
    s.wealth ≤ s₀.wealth ∧ MoneyKept w s := by
  obtain ⟨hinv, hwealth⟩ := hrun.related (MoneyInv w) (fun s t => t.wealth ≤ s.wealth)
    hopened.moneyInv (fun s op t h hok hs => by
      obtain ⟨hnext, hcost⟩ := h.step hok hs
      exact ⟨hnext, hcost ▸ Nat.le_add_right _ _⟩)
    (fun _ => Nat.le_refl _) fun _ _ _ hab hbc => Nat.le_trans hbc hab
  exact ⟨hwealth, fun op s' hok hs => (hinv.step hok hs).2, fun op hok id a => hinv.taken_of_sells hok,
    fun player thisAH s' => hinv.sum_recordedDeposit⟩

section Example

theorem openedPaid_twoPlayers : OpenedPaid plainWorld twoPlayers where
  opened := opened_twoPlayers
  deposits := fun id a ha => by cases ha

theorem canPayBatch_plainWorld {s : State}
    (hmoney : ∀ player, (s.pending.lookup player).isSome = true → 100 ≤ s.getMoney player)
    (player : PlayerGuid) : s.CanPayBatch plainWorld player := by
  intro thisAH batch hl _
  have htotal : s.totalDeposit plainWorld batch ≤ 100 := by
    unfold State.totalDeposit
    split
    · exact Nat.zero_le _
    · split
      · exact Nat.le_refl _
      · exact Nat.zero_le _
  exact Nat.le_trans htotal (hmoney player (by rw [hl]; rfl))

/-- Player 1 lists the item, pays the deposit two updates later, and player 2 buys it: the
cut of 15 is lost. -/
theorem wealth_run_buyout :
    ∃ s ops, (s.wealth ≤ twoPlayers.wealth ∧ MoneyKept plainWorld s) ∧ ops.length = 4 ∧
      s.wealth + 15 = twoPlayers.wealth ∧ s.getMoney 1 = 900 ∧
      Run (Step plainWorld) (fun s op => op.SellsPaid plainWorld s) twoPlayers ops s := by
  have hrun : ∃ s, Run (Step plainWorld) (fun s op => op.SellsPaid plainWorld s) twoPlayers
      [sellTen, .updatePending (fun _ => true) 0, .updatePending (fun _ => true) 0,
        .placeBid 2 auctioneer 1 300 true] s ∧ s.wealth + 15 = twoPlayers.wealth ∧
      s.getMoney 1 = 900 := by
    have hpays : ∀ s : State, s.pending.entries.map (·.1) = [1] → 100 ≤ s.getMoney 1 →
        (Op.updatePending (fun _ => true) 0).SellsPaid plainWorld s := by
      intro s hkeys hmoney
      refine ⟨trivial, fun _ _ hsells => hsells.elim, fun _ _ _ player _ =>
        canPayBatch_plainWorld (fun p hp => ?_) player⟩
      obtain ⟨v, hv⟩ := Option.isSome_iff_exists.mp hp
      have hmem : p ∈ s.pending.entries.map (·.1) :=
        List.mem_map_of_mem (Assoc.mem_entries_iff.mpr hv)
      rw [hkeys, List.mem_singleton] at hmem
      exact hmem ▸ hmoney
    refine ⟨_, .cons ⟨trivial, fun _ _ hsells => hsells.elim, fun _ _ h => by cases h⟩
      (.sellItem _ _ _ isPlayer_one) (.cons (hpays _ rfl (by decide)) (.updatePending rfl)
      (.cons (hpays _ rfl (by decide)) (.updatePending rfl) (.cons ?_
      (.placeBid _ _ _ _ isPlayer_two) (.nil _)))), by decide, by decide⟩
    refine ⟨fun a _ _ player thisAH n hl => ?_, fun id a hsells => ?_, fun _ _ h => by cases h⟩
    · cases Assoc.mem_entries_iff.mpr hl
    · obtain ⟨rfl, b, hacc, _, rfl⟩ := hsells
      cases hacc
      exact ⟨by decide, by decide, by decide⟩
  obtain ⟨s, hrun, hlost, hmoney⟩ := hrun
  exact ⟨s, _, wealth_run openedPaid_twoPlayers hrun, rfl, hlost, hmoney, hrun⟩

/-- Player 2 buys before the deposit is taken, and the owner is paid a deposit of 100. -/
theorem wealth_fails_pending :
    ¬ ∀ (w : World) (s₀ s : State) (ops : List Op), OpenedPaid w s₀ →
      Run (Step w) always s₀ ops s → s.wealth ≤ s₀.wealth := by
  intro hall
  have hrun : Run (Step plainWorld) always twoPlayers
      [sellTen, .placeBid 2 auctioneer 1 300 true] _ :=
    .cons trivial (.sellItem _ _ _ isPlayer_one) (.cons trivial (.placeBid _ _ _ _ isPlayer_two)
      (.nil _))
  have hmore := hall plainWorld twoPlayers _ _ openedPaid_twoPlayers hrun
  revert hmore
  decide

end Example

end Ashamane.Auctions
