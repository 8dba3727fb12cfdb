import Ashamane.Lib.Assoc
import Ashamane.Lib.Run

/-! The black market: its live entries, the bids on them, and the mails it sends. -/
namespace Ashamane.BlackMarket
open Ashamane.Lib

abbrev MarketId := Int
abbrev PlayerGuid := Nat

def GOLD : Nat := 10000

def BMAH_MAX_BID : Nat := 1000000 * GOLD

inductive BlackMarketError where
  | ok
  | itemNotFound
  | alreadyBid
  | higherBid
  | databaseError
  | notEnoughMoney
  deriving DecidableEq, Repr

def int32 (n : Int) : Int := n.bmod (2 ^ 32)

structure BlackMarketTemplate where
  marketID : MarketId
  sellerNPC : Int
  itemID : Nat
  quantity : Int
  minBid : Nat
  duration : Nat
  deriving DecidableEq, Repr

/-- `object` tells one entry from a later one of the same market id. -/
structure BlackMarketEntry where
  object : Nat
  marketId : MarketId
  currentBid : Nat
  numBids : Int
  bidder : PlayerGuid
  startTime : Nat
  mailSent : Bool
  deriving DecidableEq, Repr

structure Bid where
  object : Nat
  bidder : PlayerGuid
  amount : Nat
  paid : Nat
  announced : Nat
  deriving DecidableEq, Repr

structure Mail where
  object : Nat
  receiver : PlayerGuid
  money : Nat
  deriving DecidableEq, Repr

structure WonItem where
  object : Nat
  receiver : PlayerGuid
  itemID : Nat
  quantity : Int
  deriving DecidableEq, Repr

structure World where
  templates : AList fun _ : MarketId => BlackMarketTemplate
  enabled : Bool
  maxAuctions : Nat
  createItem : Nat → Int → Bool

structure State where
  auctions : AList fun _ : MarketId => BlackMarketEntry
  players : AList fun _ : PlayerGuid => Nat
  lastUpdate : Int
  nextObject : Nat
  bids : List Bid
  mails : List Mail
  items : List WonItem
  deriving DecidableEq

namespace BlackMarketEntry

def getTemplate (w : World) (entry : BlackMarketEntry) : Option BlackMarketTemplate :=
  w.templates.lookup entry.marketId

def getExpirationTime (w : World) (entry : BlackMarketEntry) : Option Int :=
  (entry.getTemplate w).map fun templ => (entry.startTime : Int) + templ.duration

def getSecondsRemaining (w : World) (now : Int) (entry : BlackMarketEntry) : Option Nat :=
  (entry.getExpirationTime w).map fun expires => (int32 (int32 expires - int32 now)).toNat

def isCompleted (w : World) (now : Int) (entry : BlackMarketEntry) : Option Bool :=
  (entry.getSecondsRemaining w now).map fun seconds => seconds = 0

def getMinIncrement (entry : BlackMarketEntry) : Nat :=
  entry.currentBid / 20 - entry.currentBid / 20 % GOLD

def validateBid (entry : BlackMarketEntry) (bid : Nat) : Bool :=
  if bid ≤ entry.currentBid then false
  else if bid < entry.currentBid + entry.getMinIncrement then false
  else if BMAH_MAX_BID ≤ bid then false
  else true

end BlackMarketEntry

structure BlackMarketItem where
  marketID : MarketId
  sellerNPC : Int
  itemID : Nat
  quantity : Int
  minBid : Nat
  minIncrement : Nat
  currentBid : Nat
  secondsRemaining : Nat
  highBid : Bool
  numBids : Int
  deriving DecidableEq, Repr

def buildItem (w : World) (now : Int) (player : PlayerGuid) (entry : BlackMarketEntry) :
    Option BlackMarketItem := do
  let templ ← entry.getTemplate w
  let secondsRemaining ← entry.getSecondsRemaining w now
  let minIncrement := if entry.numBids = 0 then 1 else entry.getMinIncrement
  some {
    marketID := entry.marketId
    sellerNPC := templ.sellerNPC
    itemID := templ.itemID
    quantity := templ.quantity
    minBid := if entry.numBids = 0 then templ.minBid else entry.currentBid + minIncrement
    minIncrement
    currentBid := entry.currentBid
    secondsRemaining
    highBid := entry.bidder = player
    numBids := entry.numBids }

namespace State

def getAuctionByID (s : State) (marketId : MarketId) : Option BlackMarketEntry :=
  s.auctions.lookup marketId

def buildItemsResponse (w : World) (now : Int) (player : PlayerGuid) (s : State) :
    Option (Int × List BlackMarketItem) := do
  let items ← s.auctions.entries.mapM fun e => buildItem w now player e.2
  some (s.lastUpdate, items)

def sendAuctionOutbidMail (s : State) (entry : BlackMarketEntry) : State :=
  match s.players.lookup entry.bidder with
  | none => s
  | some _ => { s with mails := ⟨entry.object, entry.bidder, entry.currentBid⟩ :: s.mails }

/-- The entry that is passed is deleted by the caller, so its flag is not kept. -/
def sendAuctionWonMail (w : World) (s : State) (entry : BlackMarketEntry) : Option State :=
  if entry.mailSent then some s
  else match s.players.lookup entry.bidder with
    | none => some s
    | some _ => (entry.getTemplate w).map fun templ =>
      if w.createItem templ.itemID templ.quantity then
        { s with items := ⟨entry.object, entry.bidder, templ.itemID, templ.quantity⟩ :: s.items }
      else s

def updateEntry (w : World) (clock : MarketId → Int) (s : State) (marketId : MarketId) :
    Option State :=
  match s.auctions.lookup marketId with
  | none => some s
  | some entry => (entry.isCompleted w (clock marketId)).bind fun completed =>
    if completed then
      (if entry.bidder ≠ 0 then s.sendAuctionWonMail w entry else some s).map fun s =>
        { s with auctions := s.auctions.erase marketId }
    else some s

def update (w : World) (updateTime : Bool) (now : Int) (clock : MarketId → Int) (s : State) :
    Option State :=
  (s.auctions.keys.foldlM (updateEntry w clock) s).map fun s =>
    { s with lastUpdate := if updateTime then now else s.lastUpdate }

def addAuction (now : Int) (s : State) (marketId : MarketId) : State :=
  { s with
    auctions := s.auctions.insert marketId
      { object := s.nextObject
        marketId
        currentBid := 0
        numBids := 0
        bidder := 0
        startTime := (now % 2 ^ 32).toNat
        mailSent := false }
    nextObject := s.nextObject + 1 }

/-- `chosen` is what the dice leave of the templates without a live entry, after
`RandomResize` if they are too many. -/
def refreshAuctions (w : World) (chosen : MarketId → Bool) (now : Int)
    (clock : MarketId → Int) (s : State) : Option State :=
  let auctionDiff := int32 (w.maxAuctions - s.auctions.entries.length)
  if auctionDiff ≤ 0 then some s
  else
    let templates := w.templates.keys.filter fun marketId =>
      (s.auctions.lookup marketId).isNone && chosen marketId
    ((templates.take auctionDiff.toNat).foldl (addAuction now) s).update w true now clock

def payMoney (s : State) (player : PlayerGuid) (amount : Nat) : State :=
  { s with
    players := Assoc.modify player
      (fun money => if amount < money then money - amount else 0) s.players }

def getMoney (s : State) (player : PlayerGuid) : Nat := (s.players.lookup player).getD 0

/-- The bid is noted with what it cost and with the minimum announced before it. -/
def placeBid (w : World) (now : Int) (clock : MarketId → Int) (bid : Nat)
    (player : PlayerGuid) (announced : Nat) (entry : BlackMarketEntry) (s : State) :
    Option State :=
  if bid < entry.currentBid then some s
  else
    let paid := s.payMoney player bid
    update w true now clock
      { paid with
        auctions := Assoc.modify entry.marketId
          (fun entry => { entry with
            currentBid := bid
            numBids := int32 (entry.numBids + 1)
            bidder := player }) s.auctions
        bids :=
          ⟨entry.object, player, bid, s.getMoney player - paid.getMoney player, announced⟩ ::
            s.bids }

end State

structure BidOnItem where
  player : PlayerGuid
  unit : Bool
  marketID : MarketId
  bidAmount : Nat
  deriving DecidableEq, Repr

open State BlackMarketEntry in
/-- `now` is when the bid is checked, `later` and `clock` when the market is updated. -/
def handleBlackMarketBidOnItem (w : World) (s : State) (packet : BidOnItem) (now later : Int)
    (clock : MarketId → Int) : Option (State × Option BlackMarketError) :=
  if w.enabled = false then some (s, none)
  else if packet.unit = false then some (s, none)
  else match s.getAuctionByID packet.marketID with
    | none => some (s, some .itemNotFound)
    | some entry =>
      if entry.bidder = packet.player then some (s, some .alreadyBid)
      else if entry.validateBid packet.bidAmount = false then some (s, some .higherBid)
      else if s.getMoney packet.player < packet.bidAmount then some (s, some .notEnoughMoney)
      else do
        let seconds ← entry.getSecondsRemaining w now
        if seconds = 0 then some (s, some .databaseError)
        else
          let item ← buildItem w now packet.player entry
          let s ← (s.sendAuctionOutbidMail entry).placeBid w later clock packet.bidAmount
            packet.player item.minBid entry
          some (s, some .ok)

inductive Op where
  | bidOnItem (packet : BidOnItem) (now later : Int) (clock : MarketId → Int)
  | update (updateTime : Bool) (now : Int) (clock : MarketId → Int)
  | refreshAuctions (chosen : MarketId → Bool) (now : Int) (clock : MarketId → Int)
  | deletePlayer (player : PlayerGuid)

def step (w : World) (s : State) : Op → Option State
  | .bidOnItem packet now later clock =>
    if s.players.lookup packet.player = none then some s
    else (handleBlackMarketBidOnItem w s packet now later clock).map Prod.fst
  | .update updateTime now clock => s.update w updateTime now clock
  | .refreshAuctions chosen now clock => s.refreshAuctions w chosen now clock
  | .deletePlayer player => some { s with players := s.players.erase player }

end Ashamane.BlackMarket
