import Ashamane.BlackMarket.Basic

/-! An entry of the black market and its row in `blackmarket_auctions`: the time that is written is
the expiration, and it is read back as the start. -/
namespace Ashamane.BlackMarket
open Ashamane.Lib

structure AuctionRow where
  marketId : BitVec 32
  currentBid : BitVec 64
  time : BitVec 32
  numBids : BitVec 32
  bidder : BitVec 64
  deriving DecidableEq, Repr

namespace BlackMarketEntry

def initializeEntry (object : Nat) (marketId : BitVec 32) (now : Int) : BlackMarketEntry where
  object := object
  marketId := marketId.toInt
  currentBid := 0
  numBids := 0
  bidder := 0
  startTime := (now % 2 ^ 32).toNat
  mailSent := false

def saveToDB (w : World) (entry : BlackMarketEntry) : Option AuctionRow :=
  (entry.getExpirationTime w).map fun expires =>
    { marketId := BitVec.ofInt 32 entry.marketId
      currentBid := BitVec.ofNat 64 entry.currentBid
      time := BitVec.ofInt 32 expires
      numBids := BitVec.ofInt 32 entry.numBids
      bidder := BitVec.ofNat 64 entry.bidder }

/-- `LoadFromDB`. A row without a template is refused. -/
def loadFromDB (w : World) (object : Nat) (row : AuctionRow) : Option BlackMarketEntry :=
  (w.templates.lookup row.marketId.toInt).map fun _ =>
    { object := object
      marketId := row.marketId.toInt
      currentBid := row.currentBid.toNat
      numBids := row.numBids.toInt
      bidder := row.bidder.toNat
      -- the cast to `time_t` is followed by one to `uint32`
      startTime := (row.time.toInt % 2 ^ 32).toNat
      mailSent := false }

def placed (entry : BlackMarketEntry) (bid bidder : Nat) : BlackMarketEntry :=
  { entry with
    currentBid := bid
    numBids := int32 (entry.numBids + 1)
    bidder := bidder }

end BlackMarketEntry

structure Saved where
  entry : BlackMarketEntry
  row : AuctionRow
  deriving DecidableEq, Repr

inductive RowOp where
  | placeBid (bid bidder : BitVec 64)
  | restart (object : Nat)
  deriving DecidableEq, Repr

namespace Saved

def opened (w : World) (object : Nat) (marketId : BitVec 32) (now : Int) : Option Saved :=
  let entry := BlackMarketEntry.initializeEntry object marketId now
  (entry.saveToDB w).map fun row => { entry, row }

/-- The statement of `PlaceBid` sets the columns of the row with the market id. -/
def placeBid (w : World) (s : Saved) (bid bidder : BitVec 64) : Option Saved :=
  if bid.toNat < s.entry.currentBid then some s
  else
    let entry := s.entry.placed bid.toNat bidder.toNat
    (entry.getExpirationTime w).map fun expires =>
      { entry
        row := if s.row.marketId = BitVec.ofInt 32 entry.marketId then
            { s.row with
              currentBid := BitVec.ofNat 64 entry.currentBid
              time := BitVec.ofInt 32 expires
              numBids := BitVec.ofInt 32 entry.numBids
              bidder := BitVec.ofNat 64 entry.bidder }
          else s.row }

def step (w : World) (s : Saved) : RowOp → Option Saved
  | .placeBid bid bidder => s.placeBid w bid bidder
  | .restart object => (BlackMarketEntry.loadFromDB w object s.row).map fun entry =>
    { s with entry }

def run (w : World) (s : Saved) (ops : List RowOp) : Option Saved := ops.foldlM (step w) s

end Saved

variable {w : World} {entry : BlackMarketEntry} {row : AuctionRow} {templ : BlackMarketTemplate}
  {s t : Saved}

namespace BlackMarketEntry

structure Fits (entry : BlackMarketEntry) : Prop where
  marketId : (BitVec.ofInt 32 entry.marketId).toInt = entry.marketId
  currentBid : entry.currentBid < 2 ^ 64
  numBids : (BitVec.ofInt 32 entry.numBids).toInt = entry.numBids
  bidder : entry.bidder < 2 ^ 64
  startTime : entry.startTime < 2 ^ 32

theorem fits_initializeEntry (object : Nat) (marketId : BitVec 32) (now : Int) :
    (initializeEntry object marketId now).Fits where
  marketId := by simp [initializeEntry]
  currentBid := Nat.two_pow_pos 64
  numBids := rfl
  bidder := Nat.two_pow_pos 64
  startTime := by
    show (now % 2 ^ 32).toNat < 2 ^ 32
    omega

theorem Fits.placed (h : entry.Fits) (bid bidder : BitVec 64) :
    (entry.placed bid.toNat bidder.toNat).Fits where
  marketId := h.marketId
  currentBid := bid.isLt
  numBids := by simp [BlackMarketEntry.placed, int32, BitVec.toInt_ofInt]
  bidder := bidder.isLt
  startTime := h.startTime

theorem fits_loadFromDB {object : Nat} (h : loadFromDB w object row = some entry) :
    entry.Fits := by
  obtain ⟨templ, _, rfl⟩ := Option.map_eq_some_iff.mp h
  exact
    { marketId := by simp
      currentBid := row.currentBid.isLt
      numBids := by simp
      bidder := row.bidder.isLt
      startTime := by
        show (row.time.toInt % 2 ^ 32).toNat < 2 ^ 32
        omega }

theorem getExpirationTime_some (h : w.templates.lookup entry.marketId = some templ) :
    entry.getExpirationTime w = some ((entry.startTime : Int) + templ.duration) := by
  rw [getExpirationTime, getTemplate, h]
  rfl

theorem loadFromDB_saveToDB (hfits : entry.Fits)
    (h : w.templates.lookup entry.marketId = some templ) (hsave : entry.saveToDB w = some row)
    (object : Nat) : loadFromDB w object row = some
      { entry with
        object := object
        startTime := (entry.startTime + templ.duration) % 2 ^ 32
        mailSent := false } := by
  rw [saveToDB, getExpirationTime_some h, Option.map_some, Option.some.injEq] at hsave
  subst hsave
  have hlookup : w.templates.lookup (BitVec.ofInt 32 entry.marketId).toInt = some templ := by
    rw [hfits.marketId]
    exact h
  have htime : ((BitVec.ofInt 32 ((entry.startTime : Int) + templ.duration)).toInt % 2 ^ 32).toNat =
      (entry.startTime + templ.duration) % 2 ^ 32 := by
    have hmod : ((entry.startTime : Int) + templ.duration).bmod (2 ^ 32) % 2 ^ 32 =
        ((entry.startTime : Int) + templ.duration) % 2 ^ 32 := Int.bmod_emod
    rw [BitVec.toInt_ofInt, hmod]
    omega
  simp only [loadFromDB, hlookup, Option.map_some, hfits.marketId, hfits.numBids, htime,
    BitVec.toNat_ofNat, Nat.mod_eq_of_lt hfits.currentBid, Nat.mod_eq_of_lt hfits.bidder]

def ReadBack (w : World) (entry : BlackMarketEntry) (row : AuctionRow) : Prop :=
  ∃ loaded, loadFromDB w entry.object row = some loaded ∧ loaded.marketId = entry.marketId ∧
    loaded.currentBid = entry.currentBid ∧ loaded.numBids = entry.numBids ∧
    loaded.bidder = entry.bidder ∧ loaded.getExpirationTime w = entry.getExpirationTime w

theorem readBack_iff (hfits : entry.Fits) (h : w.templates.lookup entry.marketId = some templ)
    (hsave : entry.saveToDB w = some row) : ReadBack w entry row ↔ templ.duration % 2 ^ 32 = 0 := by
  have hload := loadFromDB_saveToDB hfits h hsave entry.object
  have hstart := hfits.startTime
  have hexpires : ∀ start object mailSent, ({ entry with
      object := object, startTime := start, mailSent := mailSent } :
        BlackMarketEntry).getExpirationTime w = some ((start : Int) + templ.duration) :=
    fun start object mailSent => getExpirationTime_some h
  constructor
  · intro ⟨loaded, hloaded, _, _, _, _, htime⟩
    rw [hload, Option.some.injEq] at hloaded
    rw [← hloaded, hexpires, getExpirationTime_some h, Option.some.injEq] at htime
    omega
  · intro hzero
    refine ⟨_, hload, rfl, rfl, rfl, rfl, ?_⟩
    rw [hexpires, getExpirationTime_some h, Option.some.injEq]
    omega

end BlackMarketEntry

namespace Saved
open BlackMarketEntry

/-- The row is what `SaveToDB` would write now. -/
structure Current (w : World) (s : Saved) : Prop where
  fits : s.entry.Fits
  row : s.entry.saveToDB w = some s.row

theorem Current.row_marketId (h : Current w s) : s.row.marketId = BitVec.ofInt 32 s.entry.marketId := by
  obtain ⟨expires, _, hrow⟩ := Option.map_eq_some_iff.mp h.row
  rw [← hrow]

theorem opened_spec {object : Nat} {marketId : BitVec 32} {now : Int}
    (h : w.templates.lookup marketId.toInt = some templ) :
    ∃ s, opened w object marketId now = some s ∧ Current w s ∧
      s.entry.marketId = marketId.toInt := by
  have hexpires := @getExpirationTime_some w (initializeEntry object marketId now) templ h
  have hsave : ∃ row, (initializeEntry object marketId now).saveToDB w = some row := by
    rw [saveToDB, hexpires]
    exact ⟨_, rfl⟩
  obtain ⟨row, hrow⟩ := hsave
  refine ⟨⟨initializeEntry object marketId now, row⟩, ?_, ⟨fits_initializeEntry .., hrow⟩, rfl⟩
  rw [opened, hrow]
  rfl

/-- The statement of a bid leaves the row that `SaveToDB` would write. -/
theorem placeBid_spec (hs : Current w s) (h : w.templates.lookup s.entry.marketId = some templ)
    (bid bidder : BitVec 64) :
    ∃ t, s.placeBid w bid bidder = some t ∧ Current w t ∧ t.entry.marketId = s.entry.marketId ∧
      t.entry.startTime = s.entry.startTime := by
  rw [placeBid]
  split
  · exact ⟨s, rfl, hs, rfl, rfl⟩
  · have hexpires := @getExpirationTime_some w (s.entry.placed bid.toNat bidder.toNat) templ h
    have hwhere : s.row.marketId =
        BitVec.ofInt 32 (s.entry.placed bid.toNat bidder.toNat).marketId := hs.row_marketId
    simp only [hexpires, Option.map_some, hwhere, if_true]
    refine ⟨_, rfl, ⟨hs.fits.placed bid bidder, ?_⟩, rfl, rfl⟩
    rw [saveToDB, hexpires]
    rfl

theorem run_bids (hs : Current w s) (h : w.templates.lookup s.entry.marketId = some templ)
    (bids : List (BitVec 64 × BitVec 64)) :
    ∃ t, run w s (bids.map fun b => .placeBid b.1 b.2) = some t ∧ Current w t ∧
      t.entry.marketId = s.entry.marketId := by
  induction bids generalizing s with
  | nil => exact ⟨s, rfl, hs, rfl⟩
  | cons b rest ih =>
    obtain ⟨next, hnext, hcur, hid, _⟩ := placeBid_spec hs h b.1 b.2
    obtain ⟨t, ht, htcur, htid⟩ := ih hcur (hid ▸ h)
    refine ⟨t, ?_, htcur, htid.trans hid⟩
    rw [run, List.map_cons, List.foldlM_cons, step, hnext]
    exact ht

/-- Without a duration a restart brings the entry back as it was. -/
theorem restart_spec (hs : Current w s) (h : w.templates.lookup s.entry.marketId = some templ)
    (hzero : templ.duration % 2 ^ 32 = 0) (object : Nat) :
    ∃ t, step w s (.restart object) = some t ∧ Current w t ∧
      t.entry.marketId = s.entry.marketId ∧ t.entry.startTime = s.entry.startTime := by
  have hload := loadFromDB_saveToDB hs.fits h hs.row object
  have hstart := hs.fits.startTime
  rw [show (s.entry.startTime + templ.duration) % 2 ^ 32 = s.entry.startTime by omega] at hload
  have hloaded : ∃ loaded, loadFromDB w object s.row = some loaded ∧
      loaded.saveToDB w = some s.row ∧ loaded.marketId = s.entry.marketId ∧
      loaded.startTime = s.entry.startTime := ⟨_, hload, hs.row, rfl, rfl⟩
  obtain ⟨loaded, heq, hrow, hid, hsame⟩ := hloaded
  refine ⟨⟨loaded, s.row⟩, ?_, ⟨fits_loadFromDB heq, hrow⟩, hid, hsame⟩
  rw [step, heq]
  rfl

theorem run_expires (hs : Current w s) (h : w.templates.lookup s.entry.marketId = some templ)
    (hzero : templ.duration % 2 ^ 32 = 0) (ops : List RowOp) (hrun : run w s ops = some t) :
    t.entry.getExpirationTime w = s.entry.getExpirationTime w := by
  induction ops generalizing s with
  | nil =>
    rw [run, List.foldlM_nil] at hrun
    cases hrun
    rfl
  | cons op rest ih =>
    have hstep : ∃ next, step w s op = some next ∧ Current w next ∧
        next.entry.marketId = s.entry.marketId ∧ next.entry.startTime = s.entry.startTime := by
      cases op with
      | placeBid bid bidder => exact placeBid_spec hs h bid bidder
      | restart object => exact restart_spec hs h hzero object
    obtain ⟨next, hnext, hcur, hid, hstart⟩ := hstep
    rw [run, List.foldlM_cons, hnext] at hrun
    have hlookup : w.templates.lookup next.entry.marketId = some templ := hid ▸ h
    rw [ih hcur hlookup hrun, getExpirationTime_some hlookup, getExpirationTime_some h, hstart]

structure Kept (w : World) (s : Saved) : Prop where
  stored : ReadBack w s.entry s.row
  saved : ∃ row, s.entry.saveToDB w = some row ∧ ReadBack w s.entry row
  restarts : ∀ ops t, run w s ops = some t →
    t.entry.getExpirationTime w = s.entry.getExpirationTime w

/-- An auction is kept through restarts only if it has no duration. -/
theorem kept_iff_duration (w : World) (object : Nat) (marketId : BitVec 32) (now : Int)
    (templ : BlackMarketTemplate) (bids : List (BitVec 64 × BitVec 64))
    (h : w.templates.lookup marketId.toInt = some templ) :
    ∃ s, (opened w object marketId now).bind
        (run w · (bids.map fun b => .placeBid b.1 b.2)) = some s ∧
      (Kept w s ↔ templ.duration % 2 ^ 32 = 0) := by
  obtain ⟨s₀, hopened, hcur₀, hid₀⟩ := @opened_spec w templ object marketId now h
  obtain ⟨s, hrun, hcur, hid⟩ := run_bids hcur₀ (hid₀ ▸ h) bids
  have hlookup : w.templates.lookup s.entry.marketId = some templ := by
    rw [hid, hid₀]
    exact h
  have hread := readBack_iff hcur.fits hlookup hcur.row
  refine ⟨s, by rw [hopened]; exact hrun, fun hkept => hread.mp hkept.stored, fun hzero => ?_⟩
  exact
    { stored := hread.mpr hzero
      saved := ⟨s.row, hcur.row, hread.mpr hzero⟩
      restarts := fun ops t ht => run_expires hcur hlookup hzero ops ht }

def marketFor (duration : Nat) : World where
  templates := (∅ : AList fun _ : MarketId => BlackMarketTemplate).insert 1
    ⟨1, 64151, 2447, 1, 100 * GOLD, duration⟩
  enabled := true
  maxAuctions := 1
  createItem := fun _ _ => true

/-- An auction of an hour, opened at 1000, with two bids. -/
theorem kept_iff_hour : ∃ s, (opened (marketFor 3600) 0 1 1000).bind
    (run (marketFor 3600) · ([(2000000, 7), (3000000, 8)].map fun b => .placeBid b.1 b.2)) =
      some s ∧ (Kept (marketFor 3600) s ↔ 3600 % 2 ^ 32 = 0) :=
  kept_iff_duration (marketFor 3600) 0 1 1000 ⟨1, 64151, 2447, 1, 100 * GOLD, 3600⟩
    [(2000000, 7), (3000000, 8)] (by decide)

/-- It ends at 4600, and an hour later when the server has been restarted. -/
theorem restart_prolongs :
    ((opened (marketFor 3600) 0 1 1000).bind (·.entry.getExpirationTime (marketFor 3600)) =
      some 4600) ∧
    ((opened (marketFor 3600) 0 1 1000).bind (run (marketFor 3600) · [.restart 1])).bind
      (·.entry.getExpirationTime (marketFor 3600)) = some 8200 := by
  decide

end Saved

end Ashamane.BlackMarket
