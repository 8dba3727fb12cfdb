import Ashamane.BlackMarket.Books

/-! A bid is charged, the bid before it is paid back, and the books stay right. The minimum
of the template is announced but not asked for. -/
namespace Ashamane.BlackMarket
open Ashamane.Lib

variable {w : World} {s t : State}

theorem BlackMarketEntry.validateBid_iff {entry : BlackMarketEntry} {bid : Nat} :
    entry.validateBid bid = true ↔ entry.currentBid < bid ∧
      entry.currentBid + entry.getMinIncrement ≤ bid ∧ bid < BMAH_MAX_BID := by
  unfold validateBid
  split
  · constructor <;> intro h
    · cases h
    · omega
  split
  · constructor <;> intro h
    · cases h
    · omega
  split
  · constructor <;> intro h
    · cases h
    · omega
  · exact ⟨fun _ => by omega, fun _ => rfl⟩

/-- A current bid of twenty gold or more is raised by a gold or more. -/
theorem BlackMarketEntry.le_getMinIncrement {entry : BlackMarketEntry}
    (h : 20 * GOLD ≤ entry.currentBid) : GOLD ≤ entry.getMinIncrement := by
  unfold getMinIncrement
  simp only [GOLD] at h ⊢
  omega

structure Accepted (w : World) (s : State) (packet : BidOnItem) (now : Int)
    (entry : BlackMarketEntry) : Prop where
  enabled : w.enabled = true
  unit : packet.unit = true
  live : s.getAuctionByID packet.marketID = some entry
  other : entry.bidder ≠ packet.player
  valid : entry.validateBid packet.bidAmount = true
  affords : packet.bidAmount ≤ s.getMoney packet.player
  running : ∃ seconds, entry.getSecondsRemaining w now = some seconds ∧ seconds ≠ 0

def announced (templ : BlackMarketTemplate) (entry : BlackMarketEntry) : Nat :=
  if entry.numBids = 0 then templ.minBid else entry.currentBid + entry.getMinIncrement

def placed (s : State) (entry : BlackMarketEntry) (player : PlayerGuid) (bid minBid : Nat) :
    State :=
  { (s.sendAuctionOutbidMail entry).payMoney player bid with
    auctions := Assoc.modify entry.marketId
      (fun entry => { entry with
        currentBid := bid
        numBids := int32 (entry.numBids + 1)
        bidder := player }) s.auctions
    bids := ⟨entry.object, player, bid, bid, minBid⟩ :: s.bids }

theorem players_sendAuctionOutbidMail (s : State) (entry : BlackMarketEntry) :
    (s.sendAuctionOutbidMail entry).players = s.players := by
  unfold State.sendAuctionOutbidMail
  split <;> rfl

theorem auctions_sendAuctionOutbidMail (s : State) (entry : BlackMarketEntry) :
    (s.sendAuctionOutbidMail entry).auctions = s.auctions := by
  unfold State.sendAuctionOutbidMail
  split <;> rfl

theorem bids_sendAuctionOutbidMail (s : State) (entry : BlackMarketEntry) :
    (s.sendAuctionOutbidMail entry).bids = s.bids := by
  unfold State.sendAuctionOutbidMail
  split <;> rfl

theorem getMoney_payMoney {player : PlayerGuid} {amount : Nat}
    (h : amount ≤ s.getMoney player) :
    (s.payMoney player amount).getMoney player = s.getMoney player - amount := by
  simp only [State.getMoney, State.payMoney, Assoc.lookup_modify_self] at h ⊢
  cases hmoney : s.players.lookup player with
  | none =>
    simp only [hmoney, Option.getD_none] at h
    simp
  | some money =>
    simp only [hmoney, Option.getD_some, Option.map_some] at h ⊢
    split <;> omega

theorem placeBid_eq {entry : BlackMarketEntry} {later : Int} {clock : MarketId → Int}
    {player : PlayerGuid} {bid minBid : Nat} (hbid : entry.currentBid < bid)
    (haffords : bid ≤ s.getMoney player) :
    (s.sendAuctionOutbidMail entry).placeBid w later clock bid player minBid entry =
      (placed s entry player bid minBid).update w true later clock := by
  have hsame : (s.sendAuctionOutbidMail entry).getMoney player = s.getMoney player := by
    rw [State.getMoney, players_sendAuctionOutbidMail, State.getMoney]
  have hpaid : (s.sendAuctionOutbidMail entry).getMoney player -
      ((s.sendAuctionOutbidMail entry).payMoney player bid).getMoney player = bid := by
    rw [getMoney_payMoney (hsame ▸ haffords)]
    omega
  unfold State.placeBid
  rw [if_neg (by omega)]
  simp only [hpaid, auctions_sendAuctionOutbidMail, bids_sendAuctionOutbidMail]
  rfl

theorem buildItem_minBid {entry : BlackMarketEntry} {templ : BlackMarketTemplate} {now : Int}
    {player : PlayerGuid} {seconds : Nat} (htempl : entry.getTemplate w = some templ)
    (hseconds : entry.getSecondsRemaining w now = some seconds) :
    ∃ item, buildItem w now player entry = some item ∧ item.minBid = announced templ entry := by
  unfold buildItem
  simp only [htempl, hseconds, Option.bind_eq_bind, Option.bind_some]
  refine ⟨_, rfl, ?_⟩
  unfold announced
  split <;> rfl

/-- A bid is refused and nothing changes, or it is placed and the market updated. -/
theorem bidOnItem_cases {packet : BidOnItem} {now later : Int} {clock : MarketId → Int}
    (h : step w s (.bidOnItem packet now later clock) = some t) :
    (t = s ∧ ∀ entry, ¬Accepted w s packet now entry) ∨
      ∃ entry templ, Accepted w s packet now entry ∧ entry.getTemplate w = some templ ∧
        (placed s entry packet.player packet.bidAmount (announced templ entry)).update w true
          later clock = some t := by
  simp only [step] at h
  split at h
  · rename_i hplayer
    refine .inl ⟨(Option.some.inj h).symm, fun entry haccepted => ?_⟩
    have haffords := haccepted.affords
    have hbid := (BlackMarketEntry.validateBid_iff.mp haccepted.valid).1
    rw [State.getMoney, hplayer, Option.getD_none] at haffords
    omega
  obtain ⟨⟨u, result⟩, hhandle, rfl⟩ := Option.map_eq_some_iff.mp h
  clear h
  have h := hhandle
  simp only [handleBlackMarketBidOnItem] at h
  have hrefused : ∀ {error : Option BlackMarketError}, some (s, error) = some (u, result) →
      u = s := fun h => (congrArg Prod.fst (Option.some.inj h)).symm
  split at h
  · rename_i henabled
    exact .inl ⟨hrefused h, fun _ ha => absurd ha.enabled (by rw [henabled]; decide)⟩
  split at h
  · rename_i hunit
    exact .inl ⟨hrefused h, fun _ ha => absurd ha.unit (by rw [hunit]; decide)⟩
  rename_i henabled hunit
  cases hlive : s.getAuctionByID packet.marketID with
  | none =>
    simp only [hlive] at h
    refine .inl ⟨hrefused h, fun _ ha => ?_⟩
    have hsome := ha.live
    rw [hlive] at hsome
    cases hsome
  | some entry =>
    have hentry : ∀ {e}, Accepted w s packet now e → e = entry := by
      intro e ha
      have hsome := ha.live
      rw [hlive] at hsome
      exact (Option.some.inj hsome).symm
    simp only [hlive] at h
    split at h
    · rename_i hown
      exact .inl ⟨hrefused h, fun _ ha => ha.other (hentry ha ▸ hown)⟩
    split at h
    · rename_i hinvalid
      refine .inl ⟨hrefused h, fun _ ha => ?_⟩
      have hvalid := ha.valid
      rw [hentry ha, hinvalid] at hvalid
      cases hvalid
    split at h
    · rename_i hpoor
      exact .inl ⟨hrefused h, fun _ ha => Nat.not_lt.mpr ha.affords hpoor⟩
    rename_i hother hvalid haffords
    obtain ⟨seconds, hseconds, h⟩ := Option.bind_eq_some_iff.mp h
    split at h
    · rename_i hover
      refine .inl ⟨hrefused h, fun _ ha => ?_⟩
      obtain ⟨left, hleft, hne⟩ := ha.running
      rw [hentry ha, hseconds] at hleft
      exact hne ((Option.some.inj hleft).symm.trans hover)
    · rename_i hrunning
      obtain ⟨item, hitem, h⟩ := Option.bind_eq_some_iff.mp h
      obtain ⟨v, hv, h⟩ := Option.bind_eq_some_iff.mp h
      obtain rfl : v = u := congrArg Prod.fst (Option.some.inj h)
      have haccepted : Accepted w s packet now entry :=
        ⟨eq_true_of_ne_false henabled, eq_true_of_ne_false hunit, hlive,
          hother, eq_true_of_ne_false hvalid, Nat.not_lt.mp haffords, seconds,
          hseconds, hrunning⟩
      obtain ⟨expires, hexpires, -⟩ := Option.map_eq_some_iff.mp hseconds
      obtain ⟨templ, htempl, -⟩ := Option.map_eq_some_iff.mp hexpires
      obtain ⟨announced, hannounced, hminBid⟩ :=
        @buildItem_minBid w entry templ now packet.player seconds htempl hseconds
      obtain rfl : item = announced := Option.some.inj (hitem.symm.trans hannounced)
      have hbid := (BlackMarketEntry.validateBid_iff.mp haccepted.valid).1
      rw [placeBid_eq hbid haccepted.affords, hminBid] at hv
      exact .inr ⟨entry, templ, haccepted, htempl, hv⟩

theorem Entered.paid_le {marketId : MarketId} {entry : BlackMarketEntry}
    (hentry : Entered w s marketId entry) {b : Bid} (hb : b ∈ s.bids)
    (hobject : b.object = entry.object) : b.paid ≤ entry.currentBid := by
  by_cases hnum : entry.numBids = 0
  · exact absurd hobject ((hentry.first hnum).2.2 b hb)
  · obtain ⟨-, held, -, -, -, hpaid, hothers⟩ := hentry.held hnum
    by_cases hsame : b = held
    · exact hsame ▸ Nat.le_of_eq hpaid
    · have hlt := hothers b hb hobject hsame
      omega

theorem Outbid.cons {bids : List Bid} {b c : Bid} (h : Outbid bids b) : Outbid (c :: bids) b := by
  obtain ⟨d, hd, hd'⟩ := h
  exact ⟨d, List.mem_cons_of_mem _ hd, hd'⟩

section Placing
variable {entry : BlackMarketEntry} {player : PlayerGuid} {bid minBid : Nat}

theorem mails_placed (hnobody : s.players.lookup 0 = none) :
    (placed s entry player bid minBid).mails = s.mails ∧ s.players.lookup entry.bidder = none ∨
      (placed s entry player bid minBid).mails =
        ⟨entry.object, entry.bidder, entry.currentBid⟩ :: s.mails ∧ entry.bidder ≠ 0 := by
  simp only [placed, State.payMoney, State.sendAuctionOutbidMail]
  cases hbidder : s.players.lookup entry.bidder with
  | none => exact .inl ⟨rfl, rfl⟩
  | some money =>
    refine .inr ⟨rfl, fun hzero => ?_⟩
    rw [hzero, hnobody] at hbidder
    cases hbidder

theorem players_placed (s : State) (entry : BlackMarketEntry) (player : PlayerGuid)
    (bid minBid : Nat) : (placed s entry player bid minBid).players = Assoc.modify player
      (fun money => if bid < money then money - bid else 0) s.players := by
  simp only [placed, State.payMoney, players_sendAuctionOutbidMail]

theorem players_placed_eq_none {p : PlayerGuid} :
    (placed s entry player bid minBid).players.lookup p = none ↔ s.players.lookup p = none := by
  rw [players_placed, Assoc.lookup_modify]
  split
  · rw [Option.map_eq_none_iff]
  · rfl

theorem fields_placed (s : State) (entry : BlackMarketEntry) (player : PlayerGuid)
    (bid minBid : Nat) : (placed s entry player bid minBid).items = s.items ∧
      (placed s entry player bid minBid).nextObject = s.nextObject := by
  simp only [placed, State.payMoney, State.sendAuctionOutbidMail]
  split <;> exact ⟨rfl, rfl⟩

variable {marketId : MarketId} (hbooks : Books w s)
  (hlive : s.auctions.lookup marketId = some entry)
  (hvalid : entry.validateBid bid = true) (haffords : bid ≤ s.getMoney player)
include hbooks hlive hvalid

theorem refunds_placed : Refunds (placed s entry player bid minBid) := by
  obtain ⟨hhigher, -, -⟩ := BlackMarketEntry.validateBid_iff.mp hvalid
  have hentered := hbooks.entered _ _ hlive
  have hbelow : ∀ b ∈ s.bids, b.object = entry.object → b.paid < bid := fun b hb hobject =>
    Nat.lt_of_le_of_lt (hentered.paid_le hb hobject) hhigher
  refine ⟨?_, ?_, ?_, ?_, ?_⟩
  · exact List.forall_mem_cons.mpr ⟨rfl, hbooks.refunds.charged⟩
  · exact List.pairwise_cons.mpr
      ⟨fun b hb hobject => hbelow b hb hobject.symm, hbooks.refunds.rising⟩
  · intro mail hmail
    have hold : mail ∈ s.mails → ∃ b ∈ (placed s entry player bid minBid).bids,
        Outbid (placed s entry player bid minBid).bids b ∧ b.refund = mail := by
      intro hmail
      obtain ⟨b, hb, hout, hrefund⟩ := hbooks.refunds.only mail hmail
      exact ⟨b, List.mem_cons_of_mem _ hb, hout.cons, hrefund⟩
    obtain ⟨hmails, -⟩ | ⟨hmails, hbidder⟩ :=
      @mails_placed s entry player bid minBid hbooks.nobody
    · exact hold (hmails ▸ hmail)
    · rw [hmails] at hmail
      rcases List.mem_cons.mp hmail with rfl | hmail
      · -- the bid that the entry held until now
        have hnum : entry.numBids ≠ 0 := fun hnum => hbidder (hentered.first hnum).1
        obtain ⟨-, b, hb, hobject, hwho, hpaid, -⟩ := hentered.held hnum
        refine ⟨b, List.mem_cons_of_mem _ hb,
          ⟨_, List.mem_cons_self, hobject.symm, hbelow b hb hobject⟩, ?_⟩
        rw [Bid.refund, hobject, hwho, hpaid]
      · exact hold hmail
  · intro b hb hout hexists
    rw [Ne, players_placed_eq_none] at hexists
    have hmem : b.refund ∈ s.mails → b.refund ∈ (placed s entry player bid minBid).mails := by
      intro hmem
      obtain ⟨hmails, -⟩ | ⟨hmails, -⟩ := @mails_placed s entry player bid minBid hbooks.nobody
      · exact hmails ▸ hmem
      · exact hmails ▸ List.mem_cons_of_mem _ hmem
    obtain ⟨c, hc, hobject, hlt⟩ := hout
    rcases List.mem_cons.mp hb with rfl | hb
    · rcases List.mem_cons.mp hc with rfl | hc
      · exact absurd hlt (Nat.lt_irrefl _)
      · exact absurd (hbelow c hc hobject) (Nat.lt_asymm hlt)
    · rcases List.mem_cons.mp hc with rfl | hc
      · -- either `b` was outbid before, or it is the bid given back now
        have hnum : entry.numBids ≠ 0 := fun hnum =>
          (hentered.first hnum).2.2 b hb hobject.symm
        obtain ⟨-, d, hd, hdobject, hwho, hpaid, hothers⟩ := hentered.held hnum
        by_cases hsame : b = d
        · subst hsame
          obtain ⟨-, hnone⟩ | ⟨hmails, -⟩ :=
            @mails_placed s entry player bid minBid hbooks.nobody
          · rw [← hwho] at hnone
            exact absurd hnone hexists
          · rw [hmails, ← hdobject, ← hwho, ← hpaid]
            exact List.mem_cons_self
        · have houtbid : Outbid s.bids b :=
            ⟨d, hd, hdobject.trans hobject, hothers b hb hobject.symm hsame⟩
          exact hmem (hbooks.refunds.all b hb houtbid hexists)
      · exact hmem (hbooks.refunds.all b hb ⟨c, hc, hobject, hlt⟩ hexists)
  · obtain ⟨hmails, -⟩ | ⟨hmails, -⟩ := @mails_placed s entry player bid minBid hbooks.nobody
    · exact hmails ▸ hbooks.refunds.once
    · rw [hmails]
      refine List.nodup_cons.mpr ⟨fun hsent => ?_, hbooks.refunds.once⟩
      obtain ⟨b, -, ⟨c, hc, hsame, hlt⟩, hrefund⟩ := hbooks.refunds.only _ hsent
      obtain ⟨hobject, -, hpaid⟩ := Mail.mk.inj hrefund
      have hle := hentered.paid_le hc (hsame.trans hobject)
      omega

include haffords in
theorem books_placed : Books w (placed s entry player bid minBid) := by
  obtain ⟨hhigher, hincrement, hmax⟩ := BlackMarketEntry.validateBid_iff.mp hvalid
  have hentered := hbooks.entered _ _ hlive
  obtain ⟨hitems, hnext⟩ := fields_placed s entry player bid minBid
  have hplayer : player ≠ 0 := by
    rintro rfl
    rw [State.getMoney, hbooks.nobody, Option.getD_none] at haffords
    omega
  have hlookup : ∀ {i e}, (placed s entry player bid minBid).auctions.lookup i =
      some e → (i = marketId ∧ e = { entry with
          currentBid := bid
          numBids := int32 (entry.numBids + 1)
          bidder := player }) ∨ (i ≠ marketId ∧ s.auctions.lookup i = some e) := by
    intro i e h
    simp only [placed, hentered.key, Assoc.lookup_modify] at h
    by_cases hi : i = marketId
    · rw [if_pos hi, hi, hlive, Option.map_some] at h
      exact .inl ⟨hi, (Option.some.inj h).symm⟩
    · rw [if_neg hi] at h
      exact .inr ⟨hi, h⟩
  have hobjects : ∀ {i e}, (placed s entry player bid minBid).auctions.lookup i =
      some e → ∃ e', s.auctions.lookup i = some e' ∧ e'.object = e.object := by
    intro i e h
    obtain ⟨rfl, rfl⟩ | ⟨-, h⟩ := hlookup h
    · exact ⟨entry, hlive, rfl⟩
    · exact ⟨e, h, rfl⟩
  refine ⟨players_placed_eq_none.mpr hbooks.nobody, ?_, ?_, ?_, ?_, hitems ▸ hbooks.itemsOnce,
    refunds_placed hbooks hlive hvalid⟩
  · intro i e h
    obtain ⟨rfl, rfl⟩ | ⟨hne, h⟩ := hlookup h
    · have hfew := hentered.few
      have hincr := @BlackMarketEntry.le_getMinIncrement entry
      have hnonneg := hentered.nonneg
      simp only [GOLD, BMAH_MAX_BID] at hfew hincr hmax
      have hnum : int32 (entry.numBids + 1) = entry.numBids + 1 := by
        rw [int32, Int.bmod_eq_of_le] <;> omega
      refine ⟨hentered.key, hentered.templ, hnext ▸ hentered.old, hitems ▸ hentered.unsent,
        by simpa only [GOLD, BMAH_MAX_BID] using hmax, ?_, ?_, ?_, ?_⟩
      · simp only [hnum]
        omega
      · simp only [hnum, GOLD]
        omega
      · simp only [hnum]
        omega
      · intro _
        refine ⟨hplayer, _, List.mem_cons_self, rfl, rfl, rfl, fun c hc hobject hne => ?_⟩
        rcases List.mem_cons.mp hc with rfl | hc
        · exact (hne rfl).elim
        · exact Nat.lt_of_le_of_lt (hentered.paid_le hc hobject) hhigher
    · have he := hbooks.entered _ _ h
      have hother : entry.object ≠ e.object := fun hsame =>
        hne (hbooks.distinct _ _ _ _ h hlive hsame.symm)
      refine ⟨he.key, he.templ, hnext ▸ he.old, hitems ▸ he.unsent, he.below, he.nonneg, he.few,
        ?_, ?_⟩
      · intro hnum
        obtain ⟨hbidder, hcurrent, hnone⟩ := he.first hnum
        exact ⟨hbidder, hcurrent, List.forall_mem_cons.mpr ⟨hother, hnone⟩⟩
      · intro hnum
        obtain ⟨hbidder, b, hb, hobject, hwho, hpaid, hothers⟩ := he.held hnum
        refine ⟨hbidder, b, List.mem_cons_of_mem _ hb, hobject, hwho, hpaid, ?_⟩
        exact List.forall_mem_cons.mpr ⟨fun hsame => absurd hsame hother, hothers⟩
  · intro i j e f hi hj hsame
    obtain ⟨e', he', heq⟩ := hobjects hi
    obtain ⟨f', hf', hfeq⟩ := hobjects hj
    exact hbooks.distinct i j e' f' he' hf' (heq.trans (hsame.trans hfeq.symm))
  · rw [hnext]
    exact List.forall_mem_cons.mpr ⟨hentered.old, hbooks.bidsOld⟩
  · rw [hitems, hnext]
    exact hbooks.itemsOld

include haffords in
theorem wealth_placed : (placed s entry player bid minBid).wealth ≤ s.wealth := by
  obtain ⟨hhigher, -, -⟩ := BlackMarketEntry.validateBid_iff.mp hvalid
  cases hmoney : s.players.lookup player with
  | none =>
    rw [State.getMoney, hmoney, Option.getD_none] at haffords
    omega
  | some money =>
    rw [State.getMoney, hmoney, Option.getD_some] at haffords
    have hplayers := Assoc.total_modify id
      (fun money => if bid < money then money - bid else 0) hmoney
    have hentry := Assoc.total_modify BlackMarketEntry.currentBid
      (fun entry => { entry with
        currentBid := bid
        numBids := int32 (entry.numBids + 1)
        bidder := player }) hlive
    rw [← players_placed s entry player bid minBid] at hplayers
    rw [← (hbooks.entered _ _ hlive).key] at hentry
    have hmails : ((placed s entry player bid minBid).mails.map Mail.money).sum ≤
        entry.currentBid + (s.mails.map Mail.money).sum := by
      obtain ⟨hmails, -⟩ | ⟨hmails, -⟩ := @mails_placed s entry player bid minBid hbooks.nobody
      · rw [hmails]
        omega
      · rw [hmails, List.map_cons, List.sum_cons]
    simp only [id_eq] at hplayers
    have hpaid : (if bid < money then money - bid else 0) = money - bid := by
      split <;> omega
    rw [hpaid] at hplayers
    have hauctions : Assoc.total BlackMarketEntry.currentBid
        (placed s entry player bid minBid).auctions + entry.currentBid =
        Assoc.total BlackMarketEntry.currentBid s.auctions + bid := hentry
    simp only [State.wealth]
    omega

end Placing

def Fits (w : World) (s : State) : Op → Prop
  | .bidOnItem packet now _ _ => ∀ entry templ, Accepted w s packet now entry →
    entry.numBids = 0 → entry.getTemplate w = some templ → templ.minBid ≤ packet.bidAmount
  | _ => True

def Bid.Met (b : Bid) : Prop := b.announced ≤ b.amount

instance (b : Bid) : Decidable b.Met := inferInstanceAs (Decidable (b.announced ≤ b.amount))

theorem fits_iff {packet : BidOnItem} {now later : Int} {clock : MarketId → Int}
    {entry : BlackMarketEntry} {templ : BlackMarketTemplate}
    (haccepted : Accepted w s packet now entry) (htempl : entry.getTemplate w = some templ) :
    Fits w s (.bidOnItem packet now later clock) ↔ announced templ entry ≤ packet.bidAmount := by
  obtain ⟨-, hincrement, -⟩ := BlackMarketEntry.validateBid_iff.mp haccepted.valid
  unfold announced
  constructor
  · intro hfits
    split
    · rename_i hnum
      exact hfits entry templ haccepted hnum htempl
    · exact hincrement
  · intro hmin e templ' he hnum htempl'
    obtain rfl : e = entry := Option.some.inj (he.live.symm.trans haccepted.live)
    obtain rfl : templ' = templ := Option.some.inj (htempl'.symm.trans htempl)
    rwa [if_pos hnum] at hmin

/-- One operation keeps the books, and writes a bid of the minimum or more exactly when it
fits. -/
theorem step_spec {op : Op} (hbooks : Books w s) (h : step w s op = some t) :
    Books w t ∧ t.wealth ≤ s.wealth ∧
      (t.bids = s.bids ∧ Fits w s op ∨ ∃ b, t.bids = b :: s.bids ∧ (Fits w s op ↔ b.Met)) := by
  cases op with
  | bidOnItem packet now later clock =>
    obtain ⟨rfl, hrefused⟩ | ⟨entry, templ, haccepted, htempl, h⟩ := bidOnItem_cases h
    · refine ⟨hbooks, Nat.le_refl _, .inl ⟨rfl, fun entry _ haccepted => ?_⟩⟩
      exact absurd haccepted (hrefused entry)
    · have hplaced := @books_placed w s entry packet.player packet.bidAmount
        (announced templ entry) _ hbooks haccepted.live haccepted.valid haccepted.affords
      have hwealth := @wealth_placed w s entry packet.player packet.bidAmount
        (announced templ entry) _ hbooks haccepted.live haccepted.valid haccepted.affords
      obtain ⟨ht, hle, hbids⟩ := hplaced.update h
      exact ⟨ht, Nat.le_trans hle hwealth, .inr ⟨_, hbids, fits_iff haccepted htempl⟩⟩
  | update updateTime now clock =>
    obtain ⟨ht, hle, hbids⟩ := hbooks.update h
    exact ⟨ht, hle, .inl ⟨hbids, trivial⟩⟩
  | refreshAuctions chosen now clock =>
    obtain ⟨ht, hle, hbids⟩ := hbooks.refreshAuctions h
    exact ⟨ht, hle, .inl ⟨hbids, trivial⟩⟩
  | deletePlayer player =>
    obtain rfl := Option.some.inj h
    exact ⟨hbooks.deletePlayer player, wealth_deletePlayer player, .inl ⟨rfl, trivial⟩⟩

def Steps (w : World) (s : State) (op : Op) (t : State) : Prop := step w s op = some t

theorem books_run {ops : List Op} {ok : State → Op → Prop} (hbooks : Books w s)
    (hrun : Run (Steps w) ok s ops t) : Books w t :=
  hrun.invariant (Books w) hbooks fun _ _ _ hs _ h => (step_spec hs h).1

/-- A run fits if and only if all bids that it writes meet the announced minimum. -/
theorem run_fits_iff {ops : List Op} (hbooks : Books w s) (hmet : ∀ b ∈ s.bids, b.Met)
    (hrun : Run (Steps w) always s ops t) :
    Run (Steps w) (Fits w) s ops t ↔ ∀ b ∈ t.bids, b.Met := by
  constructor
  · intro hfits
    refine (hfits.invariant (fun s => Books w s ∧ ∀ b ∈ s.bids, b.Met) ⟨hbooks, hmet⟩ ?_).2
    rintro u op v ⟨hu, hmet⟩ hok h
    obtain ⟨hv, -, ⟨hbids, -⟩ | ⟨b, hbids, hb⟩⟩ := step_spec hu h
    · exact ⟨hv, hbids ▸ hmet⟩
    · rw [hbids]
      exact ⟨hv, List.forall_mem_cons.mpr ⟨hb.mp hok, hmet⟩⟩
  · have hgrows : ∀ {u ops}, Books w u → Run (Steps w) always u ops t → u.bids ⊆ t.bids := by
      intro u ops hu hrun
      refine (hrun.related (Books w) (fun u v => u.bids ⊆ v.bids) hu ?_
        (fun _ => List.Subset.refl _) fun _ _ _ => List.Subset.trans).2
      intro u op v hu _ h
      obtain ⟨hv, -, ⟨hbids, -⟩ | ⟨b, hbids, -⟩⟩ := step_spec hu h
      · exact ⟨hv, hbids ▸ List.Subset.refl _⟩
      · exact ⟨hv, hbids ▸ List.subset_cons_self _ _⟩
    intro hall
    induction hrun with
    | nil s => exact .nil s
    | cons _ h hrest ih =>
      obtain ⟨hu, -, ⟨hbids, hfits⟩ | ⟨b, hbids, hb⟩⟩ := step_spec hbooks h
      · exact .cons hfits h (ih hu (hbids ▸ hmet) hgrows hall)
      · have hnew := hall b (hgrows hu hrest (hbids ▸ List.mem_cons_self))
        have hmet := List.forall_mem_cons.mpr ⟨hnew, hmet⟩
        exact .cons (hb.mpr hnew) h (ih hu (hbids ▸ hmet) hgrows hall)

def State.opening (players : AList fun _ : PlayerGuid => Nat) : State where
  auctions := ∅
  players
  lastUpdate := 0
  nextObject := 0
  bids := []
  mails := []
  items := []

theorem books_opening {players : AList fun _ : PlayerGuid => Nat}
    (hnobody : players.lookup 0 = none) : Books w (State.opening players) := by
  have hnone : ∀ {i e}, (State.opening players).auctions.lookup i ≠ some e := by
    intro i e h
    rw [State.opening, AList.lookup_empty] at h
    cases h
  refine ⟨hnobody, fun _ _ h => absurd h hnone, fun _ _ _ _ h => absurd h hnone, ?_, ?_,
    List.nodup_nil, ?_⟩
  · exact fun _ hb => absurd hb List.not_mem_nil
  · exact fun _ hitem => absurd hitem List.not_mem_nil
  · exact ⟨fun _ hb => absurd hb List.not_mem_nil, List.Pairwise.nil,
      fun _ hmail => absurd hmail List.not_mem_nil, fun _ hb => absurd hb List.not_mem_nil,
      List.nodup_nil⟩

theorem Entered.buildItem {marketId : MarketId} {entry : BlackMarketEntry}
    (h : Entered w s marketId entry) (now : Int) (player : PlayerGuid) :
    ∃ seconds item, entry.getSecondsRemaining w now = some seconds ∧
      BlackMarket.buildItem w now player entry = some item ∧ item.marketID = marketId := by
  obtain ⟨templ, htempl⟩ := h.templ
  have hget : entry.getTemplate w = some templ := by
    rw [BlackMarketEntry.getTemplate, h.key, htempl]
  obtain ⟨seconds, hseconds⟩ : ∃ seconds, entry.getSecondsRemaining w now = some seconds := by
    rw [BlackMarketEntry.getSecondsRemaining, BlackMarketEntry.getExpirationTime, hget]
    exact ⟨_, rfl⟩
  simp only [BlackMarket.buildItem, hget, hseconds, Option.bind_eq_bind, Option.bind_some]
  exact ⟨seconds, _, rfl, rfl, h.key⟩

theorem mapM_buildItem (now : Int) (player : PlayerGuid) (l : List (Sigma fun _ : MarketId =>
    BlackMarketEntry)) (h : ∀ e ∈ l, Entered w s e.1 e.2) :
    ∃ items, (l.mapM fun e => buildItem w now player e.2) = some items ∧
      items.map BlackMarketItem.marketID = l.map Sigma.fst := by
  induction l with
  | nil => exact ⟨[], rfl, rfl⟩
  | cons e l ih =>
    obtain ⟨_, item, -, hitem, hid⟩ := (h e List.mem_cons_self).buildItem now player
    obtain ⟨items, hitems, hids⟩ := ih fun e he => h e (List.mem_cons_of_mem _ he)
    exact ⟨item :: items, by simp [List.mapM_cons, hitem, hitems], by simp [hid, hids]⟩

theorem step_isSome (hbooks : Books w s) (op : Op) : (step w s op).isSome := by
  cases op with
  | update updateTime now clock => exact update_isSome hbooks
  | refreshAuctions chosen now clock => exact refreshAuctions_isSome hbooks
  | deletePlayer player => rfl
  | bidOnItem packet now later clock =>
    simp only [step]
    split
    · rfl
    simp only [handleBlackMarketBidOnItem, Option.isSome_map]
    split
    · rfl
    split
    · rfl
    cases hlive : s.getAuctionByID packet.marketID with
    | none => rfl
    | some entry =>
      dsimp only
      split
      · rfl
      split
      · rfl
      split
      · rfl
      rename_i hvalid haffords
      have hvalid := eq_true_of_ne_false hvalid
      have haffords := Nat.not_lt.mp haffords
      obtain ⟨seconds, item, hseconds, hitem, -⟩ :=
        (hbooks.entered _ _ hlive).buildItem now packet.player
      have hbid := (BlackMarketEntry.validateBid_iff.mp hvalid).1
      have hplaced := @books_placed w s entry packet.player packet.bidAmount item.minBid _ hbooks
        hlive hvalid haffords
      obtain ⟨v, hv⟩ := Option.isSome_iff_exists.mp
        (@update_isSome w _ true later clock hplaced)
      simp only [hseconds, hitem, placeBid_eq hbid haffords, hv, Option.bind_eq_bind,
        Option.bind_some]
      split <;> rfl

/-- In every run a live entry with a bidder holds what that bidder paid, the highest bid on
it, and every other bid was paid back once to a bidder that still exists; no operation makes
money, and an entry sends one item at most. Every bid meets the announced minimum if and only
if each first bid offers the minimum of the template. -/
theorem bids_settled {players : AList fun _ : PlayerGuid => Nat} {ops : List Op}
    (hnobody : players.lookup 0 = none)
    (hrun : Run (Steps w) always (State.opening players) ops t) :
    (∀ marketId entry, t.auctions.lookup marketId = some entry → entry.bidder ≠ 0 →
      ∃ b ∈ t.bids, b.object = entry.object ∧ b.bidder = entry.bidder ∧
        b.paid = entry.currentBid ∧
        ∀ c ∈ t.bids, c.object = entry.object → c ≠ b → c.paid < b.paid) ∧
    (t.bids.Pairwise fun newer older => newer.object = older.object → older.paid < newer.paid) ∧
    (∀ b ∈ t.bids, b.paid = b.amount) ∧
    (∀ b ∈ t.bids, Outbid t.bids b → t.players.lookup b.bidder ≠ none →
      t.mails.count b.refund = 1) ∧
    (∀ mail ∈ t.mails, ∃ b ∈ t.bids, Outbid t.bids b ∧ b.refund = mail) ∧
    (∀ op u, step w t op = some u → u.wealth ≤ t.wealth) ∧
    (∀ object, (t.items.map WonItem.object).count object ≤ 1) ∧
    (Run (Steps w) (Fits w) (State.opening players) ops t ↔ ∀ b ∈ t.bids, b.Met) := by
  have hopening := @books_opening w players hnobody
  have hbooks := books_run hopening hrun
  refine ⟨?_, hbooks.refunds.rising, hbooks.refunds.charged, ?_, hbooks.refunds.only, ?_, ?_, ?_⟩
  · intro marketId entry hentry hbidder
    have hentered := hbooks.entered _ _ hentry
    exact (hentered.held fun hnum => hbidder (hentered.first hnum).1).2
  · intro b hb hout hexists
    exact List.count_eq_one_of_mem hbooks.refunds.once (hbooks.refunds.all b hb hout hexists)
  · exact fun op u h => (step_spec hbooks h).2.1
  · exact fun object => List.nodup_iff_count_le_one.mp hbooks.itemsOnce object
  · exact run_fits_iff hopening (fun _ hb => absurd hb List.not_mem_nil) hrun

def oneTemplate : World where
  templates := (∅ : AList fun _ : MarketId => BlackMarketTemplate).insert 1
    ⟨1, 64151, 2447, 1, 100 * GOLD, 3600⟩
  enabled := true
  maxAuctions := 1
  createItem := fun _ _ => true

def twoPlayers : AList fun _ : PlayerGuid => Nat :=
  ((∅ : AList fun _ : PlayerGuid => Nat).insert 7 (500 * GOLD)).insert 8 (500 * GOLD)

def openAll : Op := .refreshAuctions (fun _ => true) 0 fun _ => 0

def bidOf (player amount : Nat) : Op := .bidOnItem ⟨player, true, 1, amount⟩ 1 1 fun _ => 1

/-- The second bidder's bid gives the first his hundred gold back. -/
theorem bids_settled_outbid : ∃ t,
    Run (Steps oneTemplate) always (State.opening twoPlayers)
      [openAll, bidOf 7 (100 * GOLD), bidOf 8 (105 * GOLD)] t ∧
    t.mails.count ⟨0, 7, 100 * GOLD⟩ = 1 := by
  obtain ⟨t, ht⟩ : ∃ t, [openAll, bidOf 7 (100 * GOLD), bidOf 8 (105 * GOLD)].foldlM
      (step oneTemplate) (State.opening twoPlayers) = some t := ⟨_, rfl⟩
  have hrun : Run (Steps oneTemplate) always (State.opening twoPlayers)
      [openAll, bidOf 7 (100 * GOLD), bidOf 8 (105 * GOLD)] t := Run.of_foldlM ht
  have hsettled := bids_settled (by decide) hrun
  obtain rfl := Option.some.inj ht
  exact ⟨_, hrun, hsettled.2.2.2.1 ⟨0, 7, 100 * GOLD, 100 * GOLD, 100 * GOLD⟩
    (by decide) ⟨⟨0, 8, 105 * GOLD, 105 * GOLD, 105 * GOLD⟩, by decide⟩ (by decide)⟩

/-- A first bid of one copper is accepted where a hundred gold are announced. -/
theorem bids_settled_fails : ∃ t,
    Run (Steps oneTemplate) always (State.opening twoPlayers) [openAll, bidOf 7 1] t ∧
      ∃ b ∈ t.bids, b.amount = 1 ∧ b.announced = 100 * GOLD ∧ ¬b.Met := by
  obtain ⟨t, ht⟩ : ∃ t, [openAll, bidOf 7 1].foldlM (step oneTemplate)
      (State.opening twoPlayers) = some t := ⟨_, rfl⟩
  have hrun : Run (Steps oneTemplate) always (State.opening twoPlayers) [openAll, bidOf 7 1] t :=
    Run.of_foldlM ht
  obtain rfl := Option.some.inj ht
  exact ⟨_, hrun, ⟨0, 7, 1, 1, 100 * GOLD⟩, by decide, rfl, rfl, by decide⟩

/-- Every sequence of operations goes through, without making money, and after it the live entries
can be listed for everybody: no template is missing. -/
theorem run_lists {players : AList fun _ : PlayerGuid => Nat}
    (hnobody : players.lookup 0 = none) (ops : List Op) :
    ∃ t, ops.foldlM (step w) (State.opening players) = some t ∧
      t.wealth ≤ (State.opening players).wealth ∧
      ∀ now player, ∃ items, t.buildItemsResponse w now player = some (t.lastUpdate, items) ∧
        items.map BlackMarketItem.marketID = t.auctions.keys := by
  have hgoes : ∀ {s : State}, Books w s →
      ∃ t, ops.foldlM (step w) s = some t ∧ Books w t ∧ t.wealth ≤ s.wealth := by
    induction ops with
    | nil => exact fun h => ⟨_, rfl, h, Nat.le_refl _⟩
    | cons op ops ih =>
      intro s hbooks
      obtain ⟨u, hu⟩ := Option.isSome_iff_exists.mp (step_isSome hbooks op)
      obtain ⟨hafter, hless, -⟩ := step_spec hbooks hu
      obtain ⟨t, ht, hend, hle⟩ := ih hafter
      rw [List.foldlM_cons, hu]
      exact ⟨t, ht, hend, Nat.le_trans hle hless⟩
  obtain ⟨t, ht, hbooks, hle⟩ := hgoes (books_opening hnobody)
  refine ⟨t, ht, hle, fun now player => ?_⟩
  obtain ⟨items, hitems, hkeys⟩ := mapM_buildItem now player t.auctions.entries
    fun e he => hbooks.entered e.1 e.2 (AList.mem_lookup_iff.mpr he)
  exact ⟨items, by rw [State.buildItemsResponse, hitems]; rfl, hkeys⟩

/-- A bid on an entry that is not there, and one on the entry that is. -/
theorem run_lists_bids : ∃ t, [bidOf 7 1, openAll, bidOf 7 (100 * GOLD)].foldlM (step oneTemplate)
    (State.opening twoPlayers) = some t ∧ t.wealth ≤ (State.opening twoPlayers).wealth ∧
    ∀ now player, ∃ items,
      t.buildItemsResponse oneTemplate now player = some (t.lastUpdate, items) ∧
        items.map BlackMarketItem.marketID = t.auctions.keys :=
  run_lists (by decide) _

end Ashamane.BlackMarket
