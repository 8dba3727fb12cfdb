import Ashamane.Auctions.House
import Mathlib.Data.List.Nodup

/-! The pending lists point to live auctions as long as no auction on such a list is ended. -/
namespace Ashamane.Auctions

open Ashamane.Lib

structure World.IsPlayer (w : World) (guid : PlayerGuid) : Prop where
  ne_zero : guid ≠ 0
  receives : w.receives guid = true

inductive Op where
  | sellItem (player : PlayerGuid) (auctioneer : Option Auctioneer) (packet : SellPacket)
      (now : Nat)
  | placeBid (player : PlayerGuid) (auctioneer : Option Auctioneer) (id : AuctionId)
      (bidAmount : Nat) (ownerOnline : Bool)
  | removeItem (player : PlayerGuid) (auctioneer : Option Auctioneer) (id : AuctionId)
  | update (house : House) (curTime : Nat)
  | updatePending (connected : PlayerGuid → Bool) (now : Nat)

inductive Step (w : World) (s : State) : Op → State → Prop
  | sellItem {player : PlayerGuid} (auctioneer : Option Auctioneer) (packet : SellPacket)
      (now : Nat) : w.IsPlayer player →
      Step w s (.sellItem player auctioneer packet now)
        (s.handleAuctionSellItem w player auctioneer packet now)
  | placeBid {player : PlayerGuid} (auctioneer : Option Auctioneer) (id : AuctionId)
      (bidAmount : Nat) (ownerOnline : Bool) : w.IsPlayer player →
      Step w s (.placeBid player auctioneer id bidAmount ownerOnline)
        (s.handleAuctionPlaceBid w player auctioneer id bidAmount ownerOnline)
  | removeItem {player : PlayerGuid} (auctioneer : Option Auctioneer) (id : AuctionId) :
      w.IsPlayer player →
      Step w s (.removeItem player auctioneer id)
        (s.handleAuctionRemoveItem w player auctioneer id)
  | update (house : House) (curTime : Nat) : Step w s (.update house curTime) (s.update w house curTime)
  | updatePending {connected : PlayerGuid → Bool} {now : Nat} {s' : State} :
      State.updatePendingAuctions w connected now (s.pending.entries.map (·.1)) s = some s' →
      Step w s (.updatePending connected now) s'

def State.NotPending (s : State) (id : AuctionId) : Prop :=
  ∀ player thisAH n, s.pending.lookup player = some (thisAH, n) → id ∉ thisAH

def Op.EndsNonePending (w : World) (s : State) : Op → Prop
  | .placeBid player auctioneer id bidAmount ownerOnline =>
    ∀ a, s.bidAccepted w player auctioneer id bidAmount ownerOnline = some a →
      State.isBuyout a bidAmount = true → s.NotPending id
  | .removeItem player auctioneer id =>
    (s.cancelAccepted w player auctioneer id).isSome = true → s.NotPending id
  | .update house curTime =>
    ∀ id a, s.getAuction house id = some a → a.expireTime ≤ curTime + 60 → s.NotPending id
  | _ => True

structure PendingSound (s : State) : Prop where
  live : ∀ player thisAH n, s.pending.lookup player = some (thisAH, n) →
    ∀ id ∈ thisAH, s.Live id
  nodup : ∀ player thisAH n, s.pending.lookup player = some (thisAH, n) → thisAH.Nodup

namespace PendingSound

variable {s s' : State}

theorem of_sub (h : PendingSound s)
    (hpending : ∀ player l n, s'.pending.lookup player = some (l, n) →
      ∃ n', s.pending.lookup player = some (l, n'))
    (hlive : ∀ id, ¬ s.NotPending id → s.Live id → s'.Live id) : PendingSound s' := by
  constructor
  case live =>
    intro player l n hl id hid
    obtain ⟨n', hold⟩ := hpending player l n hl
    exact hlive id (fun hnot => hnot player l n' hold hid) (h.live player l n' hold id hid)
  case nodup =>
    intro player l n hl
    obtain ⟨n', hold⟩ := hpending player l n hl
    exact h.nodup player l n' hold

end PendingSound

structure AuctionInv (w : World) (s : State) : Prop where
  house : HouseSound w s
  pending : PendingSound s

namespace State

variable {w : World} {s : State}

theorem getAuction_eq_some {house : House} {id : AuctionId} {a : AuctionEntry}
    (h : s.getAuction house id = some a) : s.auctions.lookup id = some a := by
  obtain ⟨h, _⟩ := Option.filter_eq_some_iff.mp h
  exact h

theorem lookup_of_bidAccepted {player : PlayerGuid} {auctioneer : Option Auctioneer}
    {id : AuctionId} {bidAmount : Nat} {ownerOnline : Bool} {a : AuctionEntry}
    (h : s.bidAccepted w player auctioneer id bidAmount ownerOnline = some a) :
    s.auctions.lookup id = some a ∧ a.bid < bidAmount ∧ bidAmount ≤ s.getMoney player := by
  unfold bidAccepted at h
  split at h
  · cases h
  obtain ⟨auctioneer, _, h⟩ := Option.bind_eq_some_iff.mp h
  obtain ⟨a', ha, h⟩ := Option.bind_eq_some_iff.mp h
  split at h
  · cases h
  split at h
  · cases h
  split at h
  · cases h
  next hbid =>
  split at h
  · cases h
  split at h
  · cases h
  next hmoney =>
    cases h
    simp only [hasEnoughMoney, Bool.not_eq_true', decide_eq_false_iff_not, not_not] at hmoney
    exact ⟨getAuction_eq_some ha, by omega, hmoney⟩

theorem lookup_of_cancelAccepted {player : PlayerGuid} {auctioneer : Option Auctioneer}
    {id : AuctionId} {a : AuctionEntry} (h : s.cancelAccepted w player auctioneer id = some a) :
    s.auctions.lookup id = some a ∧ (a.bidder ≠ 0 → a.auctionCut w ≤ s.getMoney player) := by
  obtain ⟨auctioneer, _, h⟩ := Option.bind_eq_some_iff.mp h
  obtain ⟨a', ha, h⟩ := Option.bind_eq_some_iff.mp h
  split at h
  · cases h
  split at h
  · cases h
  split at h
  · cases h
  next hmoney =>
    cases h
    refine ⟨getAuction_eq_some ha, fun hbidder => ?_⟩
    simpa [hasEnoughMoney, hbidder] using hmoney

/-- What a sell request can come to: nothing, or the listing of the first item of the
packet, which is in the inventory and no auction item, by a player who has the deposit. -/
theorem handleAuctionSellItem_cases (w : World) (s : State) (player : PlayerGuid)
    (auctioneer : Option Auctioneer) (packet : SellPacket) (now : Nat) :
    s.handleAuctionSellItem w player auctioneer packet now = s ∨
    ∃ auctioneer' deposit guid item,
      s.inventory.lookup guid = some item ∧ s.aItems.lookup guid = none ∧
      deposit ≤ s.getMoney player ∧
      s.handleAuctionSellItem w player auctioneer packet now =
        s.sellItems w player auctioneer' packet deposit now guid item := by
  unfold handleAuctionSellItem
  split
  · exact .inl rfl
  split
  · exact .inl rfl
  split
  · exact .inl rfl
  split
  · exact .inl rfl
  next auctioneer' =>
  split
  · exact .inl rfl
  split
  · exact .inl rfl
  · exact .inl rfl
  next guid useCount item rest hfound =>
  split
  · exact .inl rfl
  next hsellable =>
  split
  · exact .inl rfl
  next hmoney =>
    have haItem : s.aItems.lookup guid = none := by
      simp [packetRefused, notSellable, getAItem] at hsellable
      exact hsellable.1.1.1.1.1.1.1.1.1
    have hitem : s.inventory.lookup guid = some item := by
      cases hitems : packet.items with
      | nil =>
        rw [hitems] at hfound
        cases hfound
      | cons i l =>
        rw [hitems, List.mapM_cons] at hfound
        obtain ⟨x, hx, hfound⟩ := Option.bind_eq_some_iff.mp hfound
        obtain ⟨xs, _, hfound⟩ := Option.bind_eq_some_iff.mp hfound
        cases hfound
        obtain ⟨item', hitem', heq⟩ := Option.map_eq_some_iff.mp hx
        cases heq
        exact (Option.filter_eq_some_iff.mp hitem').1
    exact .inr ⟨auctioneer', _, guid, item, hitem, haItem,
      by simpa [hasEnoughMoney] using hmoney, rfl⟩

theorem expireAuction_frame (w : World) (s : State) (id : AuctionId) (a : AuctionEntry) :
    (s.expireAuction w id a).pending = s.pending ∧
      (s.expireAuction w id a).auctions = s.auctions.erase id := by
  unfold expireAuction sendAuctionExpiredMail sendAuctionSuccessfulMail sendAuctionWonMail
  split
  · split
    · exact ⟨rfl, rfl⟩
    · split <;> exact ⟨rfl, rfl⟩
  · split
    · split <;> exact ⟨rfl, rfl⟩
    · split <;> split <;> exact ⟨rfl, rfl⟩

theorem live_modifyAuction (id id' : AuctionId) (f : AuctionEntry → AuctionEntry) :
    (s.modifyAuction id f).Live id' ↔ s.Live id' := by
  simp only [Live, modifyAuction, Assoc.lookup_modify]
  split <;> simp

end State

namespace AuctionInv

variable {w : World} {s s' : State}

theorem endAuction {id : AuctionId} {a : AuctionEntry} (h : AuctionInv w s)
    (ha : s.auctions.lookup id = some a) (hnot : s.NotPending id)
    (hauctions : s'.auctions = s.auctions.erase id) (hpending : s'.pending = s.pending)
    (hinventory : s'.inventory = s.inventory) (haItems : s'.aItems = s.aItems.erase a.itemGuid)
    (hmails : ∀ g, s'.mails.countP (fun m => m.item == some g) =
      s.mails.countP (fun m => m.item == some g) + if g = a.itemGuid then 1 else 0)
    (hnext : s'.nextItem = s.nextItem ∧ s'.nextAuction = s.nextAuction ∧ s'.sold = s.sold)
    (htable : s'.table = s.table.filter (· != id)) : AuctionInv w s' where
  house := h.house.endAuction ha hauctions hinventory haItems hmails hnext htable
  pending := by
    refine h.pending.of_sub (fun player l n hl => ⟨n, hpending ▸ hl⟩) fun id' hid' hlive => ?_
    have hne : id' ≠ id := fun heq => hid' (heq ▸ hnot)
    rw [State.Live, hauctions, AList.lookup_erase_ne hne]
    exact hlive

theorem touch {f : AuctionId → AuctionEntry → AuctionEntry} (h : AuctionInv w s)
    (hauctions : ∀ id, s'.auctions.lookup id = (s.auctions.lookup id).map (f id))
    (hf : ∀ id a, s.auctions.lookup id = some a →
      (f id a).itemGuid = a.itemGuid ∧ Parties w (f id a))
    (hpending : ∀ player l n, s'.pending.lookup player = some (l, n) →
      ∃ n', s.pending.lookup player = some (l, n'))
    (hinventory : s'.inventory = s.inventory) (haItems : s'.aItems = s.aItems)
    (hmails : ∀ g, s'.mails.countP (fun m => m.item == some g) =
      s.mails.countP fun m => m.item == some g)
    (hnext : s'.nextItem = s.nextItem ∧ s'.nextAuction = s.nextAuction ∧ s'.sold = s.sold)
    (htable : ∀ id ∈ s'.table, s.Live id) : AuctionInv w s' where
  house := h.house.touch hauctions hf hinventory haItems hmails hnext htable
  pending := h.pending.of_sub hpending fun id _ hlive => by
    rw [State.Live, hauctions, Option.isSome_map]
    exact hlive

theorem sendMail_none {receiver : PlayerGuid} {money : Nat} (h : AuctionInv w s) :
    AuctionInv w (s.sendMail receiver none money) :=
  h.touch (f := fun _ a => a) (fun id => by simp [State.sendMail])
    (fun id a ha => ⟨rfl, (h.house.auction id a ha).2.2⟩) (fun _ _ n hl => ⟨n, hl⟩) rfl rfl
    (fun g => by simp [State.sendMail]) ⟨rfl, rfl, rfl⟩ h.house.table

theorem takeMoney {guid : PlayerGuid} {amount : Nat} (h : AuctionInv w s) :
    AuctionInv w (s.takeMoney guid amount) :=
  h.touch (f := fun _ a => a) (fun id => by simp [State.takeMoney])
    (fun id a ha => ⟨rfl, (h.house.auction id a ha).2.2⟩) (fun _ _ n hl => ⟨n, hl⟩) rfl rfl
    (fun g => rfl) ⟨rfl, rfl, rfl⟩ h.house.table

theorem modifyAuction {f : AuctionEntry → AuctionEntry} (h : AuctionInv w s) (id : AuctionId)
    (hf : ∀ a, s.auctions.lookup id = some a →
      (f a).itemGuid = a.itemGuid ∧ Parties w (f a)) : AuctionInv w (s.modifyAuction id f) := by
  refine h.touch (f := fun j a => if j = id then f a else a) (fun j => ?_) (fun j a ha => ?_)
    (fun _ _ n hl => ⟨n, hl⟩) rfl rfl (fun g => rfl) ⟨rfl, rfl, rfl⟩ h.house.table
  · simp only [State.modifyAuction, Assoc.lookup_modify]
    split <;> simp
  · by_cases hj : j = id
    · subst hj
      simpa using hf a ha
    · simp only [if_neg hj, true_and]
      exact (h.house.auction j a ha).2.2

theorem rewriteRow {id : AuctionId} (h : AuctionInv w s) (hlive : s.Live id) :
    AuctionInv w ((s.deleteFromDB id).saveToDB id) :=
  h.touch (f := fun _ a => a) (fun id => by simp [State.deleteFromDB, State.saveToDB])
    (fun id a ha => ⟨rfl, (h.house.auction id a ha).2.2⟩) (fun _ _ n hl => ⟨n, hl⟩) rfl rfl
    (fun g => rfl) ⟨rfl, rfl, rfl⟩ fun id' hid' => by
      rcases List.mem_cons.mp hid' with rfl | hid'
      · exact hlive
      · exact h.house.table id' (List.mem_of_mem_filter hid')

theorem recordDeposits {l : List (AuctionId × Nat × Nat)} (h : AuctionInv w s)
    (hlive : ∀ x ∈ l, s.Live x.1) : AuctionInv w (s.recordDeposits l) := by
  induction l generalizing s with
  | nil => exact h
  | cons x rest ih =>
    obtain ⟨id, share, taken⟩ := x
    have hmod := h.modifyAuction
      (f := fun a => { a with deposit := share, taken := a.taken + taken }) id
      fun a ha => ⟨rfl, ⟨(h.house.auction id a ha).2.2.owner, (h.house.auction id a ha).2.2.bidder,
        (h.house.auction id a ha).2.2.price⟩⟩
    refine ih (hmod.rewriteRow ((State.live_modifyAuction id id _).mpr ?_)) fun x hx => ?_
    · exact hlive _ (List.mem_cons_self ..)
    · exact (State.live_modifyAuction id x.1 _).mpr (hlive x (List.mem_cons_of_mem _ hx))

theorem expireBatch {l : List AuctionId} {now : Nat} (h : AuctionInv w s)
    (hlive : ∀ id ∈ l, s.Live id) : AuctionInv w (s.expireBatch now l) := by
  induction l generalizing s with
  | nil => exact h
  | cons id rest ih =>
    have hdrop : AuctionInv w { s with dropped := id :: s.dropped } := ⟨
      ⟨h.house.auction, h.house.unique, h.house.held, h.house.placed, h.house.fresh,
        h.house.sold, h.house.table⟩, ⟨h.pending.live, h.pending.nodup⟩⟩
    have hmod := hdrop.modifyAuction (f := fun a => { a with expireTime := now }) id
      fun a ha => ⟨rfl, ⟨(h.house.auction id a ha).2.2.owner, (h.house.auction id a ha).2.2.bidder,
        (h.house.auction id a ha).2.2.price⟩⟩
    refine ih (hmod.rewriteRow ((State.live_modifyAuction id id _).mpr ?_)) fun x hx => ?_
    · exact hlive _ (List.mem_cons_self ..)
    · exact (State.live_modifyAuction id x _).mpr (hlive x (List.mem_cons_of_mem _ hx))

theorem erasePending {player : PlayerGuid} (h : AuctionInv w s) :
    AuctionInv w (s.erasePending player) :=
  h.touch (f := fun _ a => a) (fun id => by simp [State.erasePending])
    (fun id a ha => ⟨rfl, (h.house.auction id a ha).2.2⟩) (fun p l n hl => by
      by_cases hp : p = player
      · subst hp
        simp [State.erasePending] at hl
      · rw [State.erasePending, AList.lookup_erase_ne hp] at hl
        exact ⟨n, hl⟩) rfl rfl (fun g => rfl) ⟨rfl, rfl, rfl⟩ h.house.table

theorem pendingAuctionProcess {player : PlayerGuid} (h : AuctionInv w s)
    (hs : s.pendingAuctionProcess w player = some s') : AuctionInv w s' := by
  unfold State.pendingAuctionProcess at hs
  split at hs
  · cases hs
    exact h
  next thisAH n hl =>
    obtain ⟨batch, _, hs⟩ := Option.bind_eq_some_iff.mp hs
    cases hs
    refine (AuctionInv.erasePending (h.recordDeposits fun x hx => ?_)).takeMoney
    exact h.pending.live player thisAH n hl x.1 (List.of_mem_zip hx).1

theorem updatePendingOf {player : PlayerGuid} {connected : Bool} {now : Nat} (h : AuctionInv w s)
    (hs : s.updatePendingOf w player connected now = some s') : AuctionInv w s' := by
  unfold State.updatePendingOf at hs
  split at hs
  · cases hs
    exact h
  next thisAH n hl =>
  split at hs
  · split at hs
    · exact h.pendingAuctionProcess hs
    · cases hs
      refine h.touch (f := fun _ a => a) (fun id => by simp)
        (fun id a ha => ⟨rfl, (h.house.auction id a ha).2.2⟩) (fun p l m hp => ?_) rfl rfl
        (fun g => rfl) ⟨rfl, rfl, rfl⟩ h.house.table
      by_cases heq : p = player
      · subst heq
        rw [AList.lookup_insert] at hp
        cases hp
        exact ⟨n, hl⟩
      · rw [AList.lookup_insert_ne heq] at hp
        exact ⟨m, hp⟩
  · obtain ⟨_, _, hs⟩ := Option.bind_eq_some_iff.mp hs
    cases hs
    exact AuctionInv.erasePending (h.expireBatch (h.pending.live player thisAH n hl))

theorem updatePendingAuctions {connected : PlayerGuid → Bool} {now : Nat} {l : List PlayerGuid}
    (h : AuctionInv w s) (hs : State.updatePendingAuctions w connected now l s = some s') :
    AuctionInv w s' := by
  induction l generalizing s with
  | nil =>
    cases hs
    exact h
  | cons player rest ih =>
    obtain ⟨u, hu, hs⟩ := Option.bind_eq_some_iff.mp hs
    exact ih (h.updatePendingOf hu) hs

theorem sendAuctionOutbiddedMail (w : World) (a : AuctionEntry) (h : AuctionInv w s) :
    AuctionInv w (s.sendAuctionOutbiddedMail w a) ∧
      (s.sendAuctionOutbiddedMail w a).auctions = s.auctions ∧
      (s.sendAuctionOutbiddedMail w a).pending = s.pending ∧
      (s.sendAuctionOutbiddedMail w a).dropped = s.dropped := by
  unfold State.sendAuctionOutbiddedMail
  split
  · exact ⟨h.sendMail_none, rfl, rfl, rfl⟩
  · exact ⟨h, rfl, rfl, rfl⟩

theorem payBid (w : World) (player : PlayerGuid) (a : AuctionEntry) (bidAmount : Nat)
    (h : AuctionInv w s) :
    AuctionInv w (s.payBid w player a bidAmount) ∧
      (s.payBid w player a bidAmount).auctions = s.auctions ∧
      (s.payBid w player a bidAmount).pending = s.pending ∧
      (s.payBid w player a bidAmount).dropped = s.dropped := by
  unfold State.payBid
  split
  · split
    · exact ⟨h.takeMoney, rfl, rfl, rfl⟩
    · obtain ⟨hmail, hsame⟩ := h.sendAuctionOutbiddedMail w a
      exact ⟨hmail.takeMoney, hsame⟩
  · exact ⟨h.takeMoney, rfl, rfl, rfl⟩

theorem payBuyout (w : World) (player : PlayerGuid) (a : AuctionEntry) (h : AuctionInv w s) :
    AuctionInv w (s.payBuyout w player a) ∧ (s.payBuyout w player a).auctions = s.auctions ∧
      (s.payBuyout w player a).pending = s.pending ∧
      (s.payBuyout w player a).dropped = s.dropped := by
  unfold State.payBuyout
  split
  · exact ⟨h.takeMoney, rfl, rfl, rfl⟩
  · split
    · exact h.takeMoney.sendAuctionOutbiddedMail w a
    · exact ⟨h.takeMoney, rfl, rfl, rfl⟩

theorem placeBid {player : PlayerGuid} {id : AuctionId} {a : AuctionEntry} {bidAmount : Nat}
    (h : AuctionInv w s) (hplayer : w.IsPlayer player) (ha : s.auctions.lookup id = some a)
    (hbid : State.isBuyout a bidAmount = false) :
    AuctionInv w (s.placeBid w player id a bidAmount) := by
  have hprice : a.buyout = 0 ∨ bidAmount ≤ a.buyout := by
    simp only [State.isBuyout, Bool.not_eq_false', Bool.or_eq_true, decide_eq_true_eq,
      beq_iff_eq] at hbid
    exact hbid.symm.imp_right Nat.le_of_lt
  obtain ⟨hpaid, hsame, _⟩ := h.payBid w player a bidAmount
  refine hpaid.modifyAuction id fun b hb => ?_
  rw [hsame] at hb
  cases ha.symm.trans hb
  exact ⟨rfl, (h.house.auction id a ha).2.2.owner, .inr ⟨hplayer.ne_zero, hplayer.receives⟩,
    hprice⟩

theorem close (receiver : PlayerGuid) {id : AuctionId} {a : AuctionEntry} (h : AuctionInv w s)
    (ha : s.auctions.lookup id = some a) (hnot : s.NotPending id) :
    AuctionInv w ((s.sendMail receiver (some a.itemGuid) 0).closeAuction id a) := by
  refine h.endAuction ha hnot rfl rfl rfl rfl (fun g => ?_) ⟨rfl, rfl, rfl⟩ rfl
  change List.countP _ (_ :: s.mails) = _
  rw [List.countP_cons]
  by_cases hg : g = a.itemGuid
  · simp [hg]
  · simp [hg, Ne.symm hg]

theorem sendAuctionWonMail_eq {a : AuctionEntry} (hheld : (s.aItems.lookup a.itemGuid).isSome = true)
    (hbidder : w.receives a.bidder = true) :
    s.sendAuctionWonMail w a = s.sendMail a.bidder (some a.itemGuid) 0 := by
  obtain ⟨item, hitem⟩ := Option.isSome_iff_exists.mp hheld
  simp only [State.sendAuctionWonMail, State.getAItem, hitem, hbidder, if_true]

theorem sendAuctionExpiredMail_eq {a : AuctionEntry}
    (hheld : (s.aItems.lookup a.itemGuid).isSome = true) (howner : w.receives a.owner = true) :
    s.sendAuctionExpiredMail w a = s.sendMail a.owner (some a.itemGuid) 0 := by
  obtain ⟨item, hitem⟩ := Option.isSome_iff_exists.mp hheld
  simp only [State.sendAuctionExpiredMail, State.getAItem, hitem, howner, if_true]

theorem sell {id : AuctionId} {a : AuctionEntry} (h : AuctionInv w s)
    (ha : s.auctions.lookup id = some a) (hbidder : w.receives a.bidder = true)
    (hnot : s.NotPending id) :
    AuctionInv w (((s.sendAuctionSuccessfulMail w a).sendAuctionWonMail w a).closeAuction id a) := by
  obtain ⟨hheld, _, hparties⟩ := h.house.auction id a ha
  rw [State.sendAuctionSuccessfulMail, if_pos hparties.owner,
    sendAuctionWonMail_eq (by exact hheld) hbidder]
  exact h.sendMail_none.close a.bidder ha hnot

theorem expireAuction {id : AuctionId} {a : AuctionEntry} (h : AuctionInv w s)
    (ha : s.auctions.lookup id = some a) (hnot : s.NotPending id) :
    AuctionInv w (s.expireAuction w id a) := by
  obtain ⟨hheld, _, hparties⟩ := h.house.auction id a ha
  unfold State.expireAuction
  split
  · rw [sendAuctionExpiredMail_eq hheld hparties.owner]
    exact h.close a.owner ha hnot
  next hbid =>
    exact h.sell ha (hparties.bidder.resolve_left hbid).2 hnot

theorem buyout {player : PlayerGuid} {id : AuctionId} {a : AuctionEntry} (h : AuctionInv w s)
    (hplayer : w.IsPlayer player) (ha : s.auctions.lookup id = some a) (hnot : s.NotPending id) :
    AuctionInv w (s.buyout w player id a) := by
  obtain ⟨_, _, hparties⟩ := h.house.auction id a ha
  unfold State.buyout
  obtain ⟨hinv, hauctions, hpending, _⟩ := h.payBuyout w player a
  generalize s.payBuyout w player a = paid at hinv hauctions hpending ⊢
  have hsold := hinv.modifyAuction
    (f := fun _ => { a with bidder := player, bid := a.buyout }) id fun b hb => by
      rw [hauctions] at hb
      cases ha.symm.trans hb
      exact ⟨rfl, hparties.owner, .inr ⟨hplayer.ne_zero, hplayer.receives⟩, .inr (Nat.le_refl _)⟩
  have hlookup : (paid.modifyAuction id fun _ => { a with bidder := player, bid := a.buyout }
      ).auctions.lookup id = some { a with bidder := player, bid := a.buyout } := by
    simp [State.modifyAuction, hauctions, ha]
  simp only [State.sendAuctionSalePendingMail, hparties.owner, if_true]
  exact hsold.sendMail_none.sell hlookup hplayer.receives fun p l n hl =>
    hnot p l n (hpending ▸ hl)

theorem handleAuctionPlaceBid {player : PlayerGuid} {auctioneer : Option Auctioneer}
    {id : AuctionId} {bidAmount : Nat} {ownerOnline : Bool} (h : AuctionInv w s)
    (hplayer : w.IsPlayer player)
    (hok : (Op.placeBid player auctioneer id bidAmount ownerOnline).EndsNonePending w s) :
    AuctionInv w (s.handleAuctionPlaceBid w player auctioneer id bidAmount ownerOnline) := by
  unfold State.handleAuctionPlaceBid
  split
  · exact h
  next a hacc =>
    split
    next hbuy => exact h.buyout hplayer (State.lookup_of_bidAccepted hacc).1 (hok a hacc hbuy)
    next hbid =>
      exact h.placeBid hplayer (State.lookup_of_bidAccepted hacc).1 (by simpa using hbid)

theorem handleAuctionRemoveItem {player : PlayerGuid} {auctioneer : Option Auctioneer}
    {id : AuctionId} (h : AuctionInv w s)
    (hok : (Op.removeItem player auctioneer id).EndsNonePending w s) :
    AuctionInv w (s.handleAuctionRemoveItem w player auctioneer id) := by
  unfold State.handleAuctionRemoveItem
  split
  · exact h
  next a hacc =>
    have ha := (State.lookup_of_cancelAccepted hacc).1
    have hnot := hok (by rw [hacc]; rfl)
    split
    · unfold State.sendAuctionCancelledToBidderMail
      split
      · exact h.sendMail_none.takeMoney.close player ha hnot
      · exact h.takeMoney.close player ha hnot
    · exact h.close player ha hnot

/-- The loop of the update: an expired auction that is still to come is the one it was
before. -/
theorem updateHouse {house : House} {curTime : Nat} {l : List AuctionId} (h : AuctionInv w s)
    (hok : (Op.update house curTime).EndsNonePending w s) :
    AuctionInv w (State.updateHouse w house curTime l s) := by
  induction l generalizing s with
  | nil => exact h
  | cons id rest ih =>
    simp only [State.updateHouse]
    split
    · exact ih h hok
    next a ha =>
    split
    · exact ih h hok
    next hexpired =>
      have hlookup := State.getAuction_eq_some ha
      have hnot := hok id a ha (Nat.le_of_not_lt hexpired)
      refine ih (h.expireAuction hlookup hnot) fun id' a' ha' hexpired' => ?_
      obtain ⟨hpending, hauctions⟩ := State.expireAuction_frame w s id a
      have hne : id' ≠ id := by
        rintro rfl
        simp [State.getAuction, hauctions] at ha'
      rw [State.getAuction, hauctions, AList.lookup_erase_ne hne] at ha'
      intro player thisAH n hl
      exact hok id' a' ha' hexpired' player thisAH n (hpending ▸ hl)

theorem lookup_useItems {inventory : AList fun _ : ItemGuid => Item} {l : List (ItemGuid × Nat)}
    {g : ItemGuid} (hg : ((State.useItems inventory l).lookup g).isSome = true) :
    (inventory.lookup g).isSome = true := by
  induction l generalizing inventory with
  | nil => exact hg
  | cons i rest ih =>
    obtain ⟨guid, useCount⟩ := i
    simp only [State.useItems] at hg
    split at hg
    · exact ih hg
    next item hitem =>
      have hself : g = guid → (inventory.lookup g).isSome = true := by
        rintro rfl
        rw [hitem]
        rfl
      by_cases heq : g = guid
      · exact hself heq
      · split at hg
        · have hold := ih hg
          rwa [AList.lookup_erase_ne heq] at hold
        · have hold := ih hg
          rwa [AList.lookup_insert_ne heq] at hold

/-- The lists after a new auction: its id, which is on none of them, is added to one. -/
theorem listPending (h : AuctionInv w s) (player : PlayerGuid)
    (hpending : s'.pending = (s.pendingAuctionAdd player s.nextAuction).pending)
    (hlive : ∀ id, s.Live id ∨ id = s.nextAuction → s'.Live id) : PendingSound s' := by
  have hnew : ∀ p l n, s.pending.lookup p = some (l, n) → s.nextAuction ∉ l := by
    intro p l n hl hmem
    obtain ⟨a, ha⟩ := Option.isSome_iff_exists.mp (h.pending.live p l n hl _ hmem)
    exact absurd (h.house.auction _ a ha).2.1 (Nat.lt_irrefl _)
  have hold : ∀ p l n, s'.pending.lookup p = some (l, n) →
      (s.pending.lookup p = some (l, n)) ∨ ∃ l₀, l = l₀ ++ [s.nextAuction] ∧
        (l₀ = [] ∨ ∃ n₀, s.pending.lookup p = some (l₀, n₀)) := by
    intro p l n hl
    rw [hpending, State.pendingAuctionAdd] at hl
    by_cases hp : p = player
    · subst hp
      simp only [AList.lookup_insert, Option.some.injEq, Prod.mk.injEq] at hl
      refine .inr ⟨_, hl.1.symm, ?_⟩
      cases hlookup : s.pending.lookup p with
      | none => exact .inl rfl
      | some found => exact .inr ⟨found.2, rfl⟩
    · simp only [AList.lookup_insert_ne hp] at hl
      exact .inl hl
  constructor
  case live =>
    intro p l n hl id hid
    rcases hold p l n hl with hsame | ⟨l₀, rfl, hl₀⟩
    · exact hlive id (.inl (h.pending.live p l n hsame id hid))
    · rcases List.mem_append.mp hid with hid | hid
      · rcases hl₀ with rfl | ⟨n₀, hl₀⟩
        · cases hid
        · exact hlive id (.inl (h.pending.live p l₀ n₀ hl₀ id hid))
      · exact hlive id (.inr (List.mem_singleton.mp hid))
  case nodup =>
    intro p l n hl
    rcases hold p l n hl with hsame | ⟨l₀, rfl, rfl | ⟨n₀, hl₀⟩⟩
    · exact h.pending.nodup p l n hsame
    · exact List.nodup_singleton _
    · rw [← List.concat_eq_append]
      exact (h.pending.nodup p l₀ n₀ hl₀).concat (hnew p l₀ n₀ hl₀)

/-- A new auction of an item that is in no mail and not an auction item. -/
theorem list {player : PlayerGuid} (g₀ : ItemGuid) {item : Item} {a : AuctionEntry}
    (h : AuctionInv w s) (hguid : a.itemGuid = g₀) (hparties : Parties w a)
    (haItem : s.aItems.lookup g₀ = none)
    (hnoMail : s.mails.countP (fun m => m.item == some g₀) = 0)
    (hlisted : s' = { s.listAuction player g₀ item a with
      inventory := s'.inventory, nextItem := s'.nextItem })
    (hmoved : s'.inventory.lookup g₀ = none)
    (hinventory : ∀ g, g ≠ g₀ → (s'.inventory.lookup g).isSome = true →
      (s.inventory.lookup g).isSome = true)
    (hnextItem : s.nextItem ≤ s'.nextItem) (hfresh : g₀ < s'.nextItem) : AuctionInv w s' where
  house := h.house.list hguid hparties haItem (by rw [hlisted]; rfl) (by rw [hlisted]; rfl)
    (by rw [hlisted]; rfl) hnoMail hmoved hinventory (by rw [hlisted]; rfl) hnextItem hfresh
    (by rw [hlisted]; rfl) (by rw [hlisted]; rfl)
  pending := h.listPending player (by rw [hlisted]; rfl) fun id hid => by
    have hauctions : s'.auctions = s.auctions.insert s.nextAuction a := by
      rw [hlisted]
      rfl
    rw [State.Live, hauctions]
    by_cases hid' : id = s.nextAuction
    · rw [hid', AList.lookup_insert]
      rfl
    · rw [AList.lookup_insert_ne hid']
      exact hid.resolve_right hid'

theorem sellItems {player : PlayerGuid} {auctioneer : Auctioneer} {packet : SellPacket}
    {deposit now : Nat} {guid : ItemGuid} {item : Item} (h : AuctionInv w s)
    (hplayer : w.IsPlayer player) (hitem : s.inventory.lookup guid = some item)
    (haItem : s.aItems.lookup guid = none) :
    AuctionInv w (s.sellItems w player auctioneer packet deposit now guid item) := by
  have hparties : ∀ g i, Parties w (State.newAuction w player auctioneer packet deposit now g i) :=
    fun _ _ => ⟨hplayer.receives, .inl ⟨rfl, rfl⟩, .inr (Nat.zero_le _)⟩
  unfold State.sellItems
  split
  · -- the item itself is moved
    have hplace := h.house.placed guid
    rw [State.places, hitem] at hplace
    simp only [Option.isSome_some, Bool.toNat_true] at hplace
    refine h.list guid rfl (hparties _ _) haItem (by omega) rfl (AList.lookup_erase _ _)
      (fun g hg hsome => AList.lookup_erase_ne hg ▸ hsome) (Nat.le_refl _)
      (h.house.fresh guid ?_)
    rw [State.places, hitem]
    simp only [Option.isSome_some, Bool.toNat_true]
    omega
  · -- a new item takes the counts over
    have hnone : s.places s.nextItem = 0 := by
      by_contra hne
      exact absurd (h.house.fresh _ (Nat.pos_of_ne_zero hne)) (Nat.lt_irrefl _)
    rw [State.places] at hnone
    have hinv : s.inventory.lookup s.nextItem = none := by
      cases hl : s.inventory.lookup s.nextItem with
      | none => rfl
      | some i =>
        rw [hl] at hnone
        simp at hnone
    have haIt : s.aItems.lookup s.nextItem = none := by
      cases hl : s.aItems.lookup s.nextItem with
      | none => rfl
      | some i =>
        rw [hl] at hnone
        simp at hnone
    refine h.list s.nextItem rfl (hparties _ _) haIt (by omega) rfl ?_
      (fun g _ hsome => lookup_useItems hsome) (Nat.le_succ _) (Nat.lt_succ_self _)
    by_contra hne
    have hsome := lookup_useItems (Option.isSome_iff_ne_none.mpr hne)
    change (s.inventory.lookup s.nextItem).isSome = true at hsome
    rw [hinv] at hsome
    cases hsome

theorem handleAuctionSellItem {player : PlayerGuid} {auctioneer : Option Auctioneer}
    {packet : SellPacket} {now : Nat} (h : AuctionInv w s) (hplayer : w.IsPlayer player) :
    AuctionInv w (s.handleAuctionSellItem w player auctioneer packet now) := by
  rcases State.handleAuctionSellItem_cases w s player auctioneer packet now with
    heq | ⟨auctioneer', deposit, guid, item, hitem, haItem, _, heq⟩
  · rw [heq]
    exact h
  · rw [heq]
    exact h.sellItems hplayer hitem haItem

theorem step {op : Op} (h : AuctionInv w s) (hok : op.EndsNonePending w s)
    (hs : Step w s op s') : AuctionInv w s' := by
  cases hs with
  | sellItem auctioneer packet now hplayer => exact h.handleAuctionSellItem hplayer
  | placeBid auctioneer id bidAmount ownerOnline hplayer =>
    exact h.handleAuctionPlaceBid hplayer hok
  | removeItem auctioneer id hplayer => exact h.handleAuctionRemoveItem hok
  | update house curTime => exact h.updateHouse hok
  | updatePending hs => exact h.updatePendingAuctions hs

end AuctionInv

structure Opened (w : World) (s : State) : Prop where
  house : HouseSound w s
  pending : s.pending = ∅

theorem Opened.auctionInv {w : World} {s : State} (h : Opened w s) : AuctionInv w s where
  house := h.house
  pending := by
    constructor <;>
    · intro player l n hl
      rw [h.pending] at hl
      cases hl

structure AuctionsAgree (s : State) : Prop where
  pendingLive : ∀ player thisAH n, s.pending.lookup player = some (thisAH, n) →
    ∀ id ∈ thisAH, ∃ a, s.auctions.lookup id = some a ∧ (s.aItems.lookup a.itemGuid).isSome = true
  tableLive : ∀ id ∈ s.table, s.Live id
  soldOnce : ∀ g ∈ s.sold, s.places g = 1 ∧ ((s.aItems.lookup g).isSome = true →
    ∃! id, ∃ a, s.auctions.lookup id = some a ∧ a.itemGuid = g)

theorem AuctionInv.agree {w : World} {s : State} (h : AuctionInv w s) : AuctionsAgree s where
  pendingLive := fun player thisAH n hl id hid => by
    obtain ⟨a, ha⟩ := Option.isSome_iff_exists.mp (h.pending.live player thisAH n hl id hid)
    exact ⟨a, ha, (h.house.auction id a ha).1⟩
  tableLive := h.house.table
  soldOnce := fun g hg => by
    have hpos := (h.house.sold g hg).2
    have hle := h.house.placed g
    refine ⟨by omega, fun hheld => ?_⟩
    obtain ⟨id, a, ha, hguid⟩ := h.house.held g hheld
    refine ⟨id, ⟨a, ha, hguid⟩, fun id' hid' => ?_⟩
    obtain ⟨a', ha', hguid'⟩ := hid'
    exact h.house.unique id' a' id a ha' ha (hguid'.trans hguid.symm)

/-- As long as no operation ends an auction on a pending list, the pending lists hold live
auctions, no row of an ended auction is left or comes back, and each sold item is in one
place. -/
theorem pending_run {w : World} {s₀ s : State} {ops : List Op} (hopened : Opened w s₀)
    (hrun : Run (Step w) (fun s op => op.EndsNonePending w s) s₀ ops s) : AuctionsAgree s :=
  (hrun.invariant (AuctionInv w) hopened.auctionInv fun _ _ _ h hok hs => h.step hok hs).agree

section Example

def emptyHouses (money : AList fun _ : PlayerGuid => Nat) (inventory : AList fun _ : ItemGuid => Item)
    (nextItem : ItemGuid) : State where
  money := money
  inventory := inventory
  aItems := ∅
  auctions := ∅
  pending := ∅
  table := []
  mails := []
  nextItem := nextItem
  nextAuction := 1
  sold := []
  dropped := []

theorem opened_emptyHouses (w : World) (money : AList fun _ : PlayerGuid => Nat)
    {inventory : AList fun _ : ItemGuid => Item} {nextItem : ItemGuid}
    (hfresh : ∀ g, (inventory.lookup g).isSome = true → g < nextItem) :
    Opened w (emptyHouses money inventory nextItem) where
  house := by
    have hplaces : ∀ g, (emptyHouses money inventory nextItem).places g =
        (inventory.lookup g).isSome.toNat := fun g => rfl
    constructor
    case auction => exact fun _ _ h => by cases h
    case unique => exact fun _ _ _ _ h => by cases h
    case held => exact fun _ h => by cases h
    case placed => exact fun g => hplaces g ▸ Bool.toNat_le _
    case fresh =>
      intro g hg
      rw [hplaces] at hg
      refine hfresh g ?_
      cases h : (inventory.lookup g).isSome
      · rw [h] at hg
        cases hg
      · rfl
    case sold => exact fun _ h => by cases h
    case table => exact fun _ h => by cases h
  pending := rfl

def plainWorld : World where
  auctionDeposit := fun _ _ _ _ => 100
  auctionCut := fun _ bid => bid / 20
  outBidPct := fun bid => bid / 20
  auctionTime := fun time => time
  maxStackCount := fun _ => 20
  playerAccountId := fun guid => guid
  isBotChar := fun _ => false

def twoPlayers : State :=
  let money : AList fun _ : PlayerGuid => Nat := ((∅ : AList _).insert 1 1000).insert 2 1000
  let item : Item := ⟨1, 500, 1, true, false, false, 0⟩
  emptyHouses money (AList.singleton 10 item) 11

def auctioneer : Option Auctioneer := some ⟨.neutral, 7⟩

def sellTen : Op := .sellItem 1 auctioneer ⟨[(10, 1)], 200, 300, 720⟩ 0

theorem isPlayer_one : plainWorld.IsPlayer 1 := ⟨by decide, rfl⟩

theorem isPlayer_two : plainWorld.IsPlayer 2 := ⟨by decide, rfl⟩

theorem opened_twoPlayers : Opened plainWorld twoPlayers :=
  opened_emptyHouses plainWorld _ fun g hg => by
    by_cases h : g = 10
    · rw [h]
      decide
    · exact absurd (List.mem_singleton.mp (AList.lookup_isSome.mp hg)) h

/-- Player 1 lists the item, pays the deposit two updates later, and player 2 buys it. -/
theorem pending_run_buyout :
    ∃ s ops, AuctionsAgree s ∧ ops.length = 4 ∧ s.sold = [10] ∧ s.places 10 = 1 ∧
      (s.auctions.lookup 1).isNone = true ∧
      Run (Step plainWorld) (fun s op => op.EndsNonePending plainWorld s) twoPlayers ops s := by
  have hrun : ∃ s, Run (Step plainWorld) (fun s op => op.EndsNonePending plainWorld s) twoPlayers
      [sellTen, .updatePending (fun _ => true) 0, .updatePending (fun _ => true) 0,
        .placeBid 2 auctioneer 1 300 true] s ∧ s.sold = [10] ∧ s.places 10 = 1 ∧
      (s.auctions.lookup 1).isNone = true := by
    refine ⟨_, .cons trivial (.sellItem _ _ _ isPlayer_one) (.cons trivial (.updatePending rfl)
      (.cons trivial (.updatePending rfl) (.cons ?_ (.placeBid _ _ _ _ isPlayer_two) (.nil _)))),
      by decide, by decide, by decide⟩
    intro a _ _ player thisAH n hl
    cases Assoc.mem_entries_iff.mpr hl
  obtain ⟨s, hrun, hsold, hplaces, hended⟩ := hrun
  exact ⟨s, _, pending_run opened_twoPlayers hrun, rfl, hsold, hplaces, hended, hrun⟩

/-- Player 1 lists the item and takes the auction back before the deposit is taken. -/
theorem pending_fails_cancel :
    ¬ ∀ (w : World) (s₀ s : State) (ops : List Op), Opened w s₀ → Run (Step w) always s₀ ops s →
      AuctionsAgree s := by
  intro hall
  have hrun : Run (Step plainWorld) always twoPlayers
      [sellTen, .removeItem 1 auctioneer 1] _ :=
    .cons trivial (.sellItem _ _ _ isPlayer_one) (.cons trivial (.removeItem _ _ isPlayer_one)
      (.nil _))
  have hagree := hall plainWorld twoPlayers _ _ opened_twoPlayers hrun
  obtain ⟨a, ha, _⟩ := hagree.pendingLive 1 [1] 0 rfl 1 (List.mem_singleton.mpr rfl)
  cases ha

end Example

end Ashamane.Auctions
