import Ashamane.Auctions.Pending

/-! All the money there is: the players', in mails, and held by auctions. -/
namespace Ashamane.Auctions

open Ashamane.Lib

namespace AuctionEntry

def holds (a : AuctionEntry) : Nat := a.bid + a.taken

/-- The profit of a sale is computed without a wrap of its `uint64`. -/
def ProfitFits (w : World) (a : AuctionEntry) : Prop :=
  a.auctionCut w ≤ a.bid + a.deposit ∧ a.bid + a.deposit < 2 ^ 64

def lost (w : World) (a : AuctionEntry) : Nat :=
  if a.bidder = 0 ∧ a.bid = 0 then a.taken else a.auctionCut w

end AuctionEntry

namespace State

def moneyOfPlayers (s : State) : Nat := Assoc.total id s.money

def moneyInMails (s : State) : Nat := (s.mails.map Mail.money).sum

def moneyInAuctions (s : State) : Nat := Assoc.total AuctionEntry.holds s.auctions

def wealth (s : State) : Nat := s.moneyOfPlayers + s.moneyInMails + s.moneyInAuctions

variable {w : World} {s : State}

theorem moneyOfPlayers_takeMoney (s : State) (guid : PlayerGuid) (amount : Nat) :
    (s.takeMoney guid amount).moneyOfPlayers + min amount (s.getMoney guid) = s.moneyOfPlayers := by
  cases hl : s.money.lookup guid with
  | none =>
    have hsame : (s.takeMoney guid amount).money.entries = s.money.entries := by
      refine (List.map_congr_left fun e he => ?_).trans (List.map_id _)
      have hne : e.1 ≠ guid := by
        rintro rfl
        rw [AList.lookup_eq_none] at hl
        exact hl (List.mem_keys_of_mem he)
      simp only [if_neg hne]
      rfl
    rw [moneyOfPlayers, Assoc.total, hsame, getMoney, hl]
    simp [moneyOfPlayers, Assoc.total]
  | some m =>
    have htotal := Assoc.total_modify id (fun money => if amount < money then money - amount else 0) hl
    rw [getMoney, hl, Option.getD_some]
    simp only [moneyOfPlayers, takeMoney, id_eq] at htotal ⊢
    split at htotal <;> omega

theorem getMoney_takeMoney (s : State) (guid p : PlayerGuid) (amount : Nat) :
    (s.takeMoney guid amount).getMoney p =
      if p = guid then s.getMoney p - amount else s.getMoney p := by
  simp only [getMoney, takeMoney, Assoc.lookup_modify]
  split
  · cases s.money.lookup p with
    | none => simp
    | some m =>
      simp only [Option.map_some, Option.getD_some]
      split <;> omega
  · rfl

@[simp] theorem wealth_sendMail (s : State) (receiver : PlayerGuid) (item : Option ItemGuid)
    (money : Nat) : (s.sendMail receiver item money).wealth = s.wealth + money := by
  simp only [wealth, moneyOfPlayers, moneyInMails, moneyInAuctions, sendMail, List.map_cons,
    List.sum_cons]
  omega

theorem wealth_takeMoney (s : State) (guid : PlayerGuid) (amount : Nat) :
    (s.takeMoney guid amount).wealth + min amount (s.getMoney guid) = s.wealth := by
  have htake := moneyOfPlayers_takeMoney s guid amount
  have hmails : (s.takeMoney guid amount).moneyInMails = s.moneyInMails := rfl
  have hauctions : (s.takeMoney guid amount).moneyInAuctions = s.moneyInAuctions := rfl
  rw [wealth, wealth, hmails, hauctions]
  omega

theorem wealth_modifyAuction {id : AuctionId} {a : AuctionEntry} (f : AuctionEntry → AuctionEntry)
    (ha : s.auctions.lookup id = some a) :
    (s.modifyAuction id f).wealth + a.holds = s.wealth + (f a).holds := by
  have htotal := Assoc.total_modify AuctionEntry.holds f ha
  have hplayers : (s.modifyAuction id f).moneyOfPlayers = s.moneyOfPlayers := rfl
  have hmails : (s.modifyAuction id f).moneyInMails = s.moneyInMails := rfl
  have hauctions : (s.modifyAuction id f).moneyInAuctions =
    Assoc.total AuctionEntry.holds (Assoc.modify id f s.auctions) := rfl
  rw [wealth, wealth, hplayers, hmails, hauctions, moneyInAuctions]
  omega

theorem wealth_closeAuction {id : AuctionId} {a : AuctionEntry} (b : AuctionEntry)
    (ha : s.auctions.lookup id = some a) : (s.closeAuction id b).wealth + a.holds = s.wealth := by
  have htotal := Assoc.total_erase AuctionEntry.holds ha
  have hplayers : (s.closeAuction id b).moneyOfPlayers = s.moneyOfPlayers := rfl
  have hmails : (s.closeAuction id b).moneyInMails = s.moneyInMails := rfl
  have hauctions : (s.closeAuction id b).moneyInAuctions =
    Assoc.total AuctionEntry.holds (s.auctions.erase id) := rfl
  rw [wealth, wealth, hplayers, hmails, hauctions, moneyInAuctions]
  omega

theorem wealth_sendAuctionWonMail (a : AuctionEntry) : (s.sendAuctionWonMail w a).wealth = s.wealth := by
  unfold sendAuctionWonMail
  split
  · rfl
  · split
    · exact wealth_sendMail ..
    · rfl

theorem wealth_sendAuctionExpiredMail (a : AuctionEntry) :
    (s.sendAuctionExpiredMail w a).wealth = s.wealth := by
  unfold sendAuctionExpiredMail
  split
  · rfl
  · split
    · exact wealth_sendMail ..
    · rfl

theorem wealth_sendAuctionSalePendingMail (a : AuctionEntry) :
    (s.sendAuctionSalePendingMail w a).wealth = s.wealth := by
  unfold sendAuctionSalePendingMail
  split
  · exact wealth_sendMail ..
  · rfl

theorem wealth_sendAuctionOutbiddedMail {a : AuctionEntry} (hbidder : w.receives a.bidder = true) :
    (s.sendAuctionOutbiddedMail w a).wealth = s.wealth + a.bid := by
  rw [sendAuctionOutbiddedMail, if_pos hbidder, wealth_sendMail]

/-- Both refunds of a bid are the same mail but for its subject. -/
theorem sendAuctionCancelledToBidderMail_eq (w : World) (s : State) (a : AuctionEntry) :
    s.sendAuctionCancelledToBidderMail w a = s.sendAuctionOutbiddedMail w a := rfl

/-- The profit is what the auction held less the cut, unless that wraps around. -/
theorem wealth_sendAuctionSuccessfulMail {a : AuctionEntry} (howner : w.receives a.owner = true)
    (hprofit : a.ProfitFits w) :
    (s.sendAuctionSuccessfulMail w a).wealth + a.auctionCut w = s.wealth + (a.bid + a.deposit) := by
  obtain ⟨hcut, hmax⟩ := hprofit
  rw [sendAuctionSuccessfulMail, if_pos howner, wealth_sendMail,
    show a.bid + a.deposit + 2 ^ 64 - a.auctionCut w =
      a.bid + a.deposit - a.auctionCut w + 2 ^ 64 by omega, Nat.add_mod_right,
    Nat.mod_eq_of_lt (by omega)]
  omega

theorem sum_depositShares (totaldeposit n : Nat) :
    (depositShares totaldeposit (n + 1)).sum = totaldeposit := by
  have hle : n * (totaldeposit / (n + 1)) ≤ totaldeposit :=
    Nat.le_trans (Nat.mul_le_mul_right _ (Nat.le_succ n)) (Nat.mul_div_le totaldeposit (n + 1))
  simp only [depositShares, List.sum_append_nat, List.sum_replicate_nat, List.sum_cons,
    List.sum_nil]
  omega

theorem sum_depositShares_batch {thisAH : List AuctionId} {batch : List AuctionEntry}
    (hbatch : thisAH.mapM s.auctions.lookup = some batch) :
    (depositShares (s.totalDeposit w batch) thisAH.length).sum = s.totalDeposit w batch := by
  cases thisAH with
  | nil =>
    cases hbatch
    rfl
  | cons id rest => exact sum_depositShares _ rest.length

theorem length_depositShares (totaldeposit n : Nat) : (depositShares totaldeposit n).length = n := by
  cases n <;> simp [depositShares]

theorem length_takenShares (available : Nat) (shares : List Nat) :
    (takenShares available shares).length = shares.length := by
  induction shares generalizing available with
  | nil => rfl
  | cons share shares ih => rw [takenShares, List.length_cons, List.length_cons, ih]

theorem takenShares_eq {available : Nat} {shares : List Nat} (h : shares.sum ≤ available) :
    takenShares available shares = shares := by
  induction shares generalizing available with
  | nil => rfl
  | cons share shares ih =>
    rw [List.sum_cons] at h
    rw [takenShares, Nat.min_eq_right (by omega), ih (by omega)]

/-- What the loop over a batch leaves alone, and what it does to the auctions. -/
theorem recordDeposits_frame (s : State) (l : List (AuctionId × Nat × Nat)) :
    (s.recordDeposits l).pending = s.pending ∧ (s.recordDeposits l).money = s.money ∧
      (s.recordDeposits l).aItems = s.aItems ∧ (s.recordDeposits l).dropped = s.dropped := by
  induction l generalizing s with
  | nil => exact ⟨rfl, rfl, rfl, rfl⟩
  | cons x rest ih => exact ih _

theorem lookup_recordDeposits_of_notMem {id : AuctionId} {l : List (AuctionId × Nat × Nat)}
    (hid : id ∉ l.map Prod.fst) (s : State) :
    (s.recordDeposits l).auctions.lookup id = s.auctions.lookup id := by
  induction l generalizing s with
  | nil => rfl
  | cons x rest ih =>
    rw [List.map_cons, List.mem_cons, not_or] at hid
    exact (ih hid.2 _).trans (Assoc.lookup_modify_ne hid.1 _ _)

theorem lookup_recordDeposits {id : AuctionId} {share taken : Nat}
    {l : List (AuctionId × Nat × Nat)} (hnodup : (l.map Prod.fst).Nodup)
    (hmem : (id, share, taken) ∈ l) (s : State) :
    (s.recordDeposits l).auctions.lookup id = (s.auctions.lookup id).map fun a =>
      { a with deposit := share, taken := a.taken + taken } := by
  induction l generalizing s with
  | nil => cases hmem
  | cons x rest ih =>
    rw [List.map_cons, List.nodup_cons] at hnodup
    rcases List.mem_cons.mp hmem with rfl | hmem
    · exact (lookup_recordDeposits_of_notMem hnodup.1 _).trans (Assoc.lookup_modify_self _ _ _)
    · have hne : id ≠ x.1 := by
        rintro rfl
        have hin := List.mem_map_of_mem (f := Prod.fst) hmem
        exact hnodup.1 hin
      refine (ih hnodup.2 hmem _).trans ?_
      congr 1
      exact Assoc.lookup_modify_ne hne _ _

theorem wealth_recordDeposits {l : List (AuctionId × Nat × Nat)} (s : State)
    (hlive : ∀ x ∈ l, s.Live x.1) :
    (s.recordDeposits l).wealth = s.wealth + (l.map fun x => x.2.2).sum := by
  induction l generalizing s with
  | nil => rfl
  | cons x rest ih =>
    obtain ⟨a, ha⟩ := Option.isSome_iff_exists.mp (hlive x (List.mem_cons_self ..))
    have hmod := wealth_modifyAuction (fun a : AuctionEntry =>
      { a with deposit := x.2.1, taken := a.taken + x.2.2 }) ha
    have hrest := ih (((s.modifyAuction x.1 fun a =>
      { a with deposit := x.2.1, taken := a.taken + x.2.2 }).deleteFromDB x.1).saveToDB x.1)
      fun y hy => (live_modifyAuction x.1 y.1 _).mpr (hlive y (List.mem_cons_of_mem _ hy))
    have hrow : (((s.modifyAuction x.1 fun a =>
      { a with deposit := x.2.1, taken := a.taken + x.2.2 }).deleteFromDB x.1).saveToDB x.1
      ).wealth = (s.modifyAuction x.1 fun a =>
        { a with deposit := x.2.1, taken := a.taken + x.2.2 }).wealth := rfl
    rw [hrow] at hrest
    simp only [AuctionEntry.holds] at hmod
    rw [List.map_cons, List.sum_cons]
    exact hrest.trans (by omega)

theorem lookup_expireBatch (now : Nat) (l : List AuctionId) (id : AuctionId) (s : State) :
    (s.expireBatch now l).auctions.lookup id = (s.auctions.lookup id).map fun a =>
      if id ∈ l then { a with expireTime := now } else a := by
  induction l generalizing s with
  | nil => simp [expireBatch]
  | cons x rest ih =>
    refine (ih _).trans ?_
    have hmod : ((({ s with dropped := x :: s.dropped }.modifyAuction x fun a =>
        { a with expireTime := now }).deleteFromDB x).saveToDB x).auctions.lookup id =
        if id = x then (s.auctions.lookup id).map fun a => { a with expireTime := now }
        else s.auctions.lookup id := Assoc.lookup_modify x id _ s.auctions
    rw [hmod]
    cases s.auctions.lookup id with
    | none => simp
    | some a =>
      by_cases hx : id = x <;> by_cases hr : id ∈ rest <;> simp [hx, hr]

theorem expireBatch_frame (now : Nat) (l : List AuctionId) (s : State) :
    (s.expireBatch now l).pending = s.pending ∧ (s.expireBatch now l).money = s.money ∧
      (s.expireBatch now l).aItems = s.aItems ∧
      (∀ id, id ∉ (s.expireBatch now l).dropped → id ∉ l ∧ id ∉ s.dropped) := by
  induction l generalizing s with
  | nil => exact ⟨rfl, rfl, rfl, fun id hid => ⟨List.not_mem_nil, hid⟩⟩
  | cons x rest ih =>
    obtain ⟨hpending, hmoney, haItems, hdropped⟩ := ih ((({ s with dropped := x :: s.dropped }.modifyAuction x
      fun a => { a with expireTime := now }).deleteFromDB x).saveToDB x)
    refine ⟨hpending, hmoney, haItems, fun id hid => ?_⟩
    obtain ⟨hrest, hold⟩ := hdropped id hid
    have hold' : id ∉ x :: s.dropped := hold
    rw [List.mem_cons, not_or] at hold'
    exact ⟨fun hmem => (List.mem_cons.mp hmem).elim hold'.1 hrest, hold'.2⟩

theorem wealth_expireBatch (now : Nat) {l : List AuctionId} (s : State) (hlive : ∀ id ∈ l, s.Live id) :
    (s.expireBatch now l).wealth = s.wealth := by
  induction l generalizing s with
  | nil => rfl
  | cons x rest ih =>
    obtain ⟨a, ha⟩ := Option.isSome_iff_exists.mp (hlive x (List.mem_cons_self ..))
    have hrest := ih ((({ s with dropped := x :: s.dropped }.modifyAuction x fun a =>
      { a with expireTime := now }).deleteFromDB x).saveToDB x)
      fun y hy => (live_modifyAuction x y _).mpr (hlive y (List.mem_cons_of_mem _ hy))
    have hmod := @wealth_modifyAuction { s with dropped := x :: s.dropped } x a
      (fun a => { a with expireTime := now }) ha
    have hrow : ((({ s with dropped := x :: s.dropped }.modifyAuction x fun a =>
      { a with expireTime := now }).deleteFromDB x).saveToDB x).wealth =
      ({ s with dropped := x :: s.dropped }.modifyAuction x fun a =>
        { a with expireTime := now }).wealth := rfl
    have hdrop : State.wealth { s with dropped := x :: s.dropped } = s.wealth := rfl
    rw [hrow] at hrest
    simp only [AuctionEntry.holds, hdrop] at hmod
    exact hrest.trans (by omega)

end State

end Ashamane.Auctions
