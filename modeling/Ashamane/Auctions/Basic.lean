import Ashamane.Lib.Assoc
import Ashamane.Lib.Run
import Mathlib.Data.List.Basic

/-! The auction houses: live auctions, the items they hold, the lists of auctions whose
deposit has not been taken yet, and the operations of players and of the world update. -/
namespace Ashamane.Auctions

open Ashamane.Lib

abbrev PlayerGuid := Nat
abbrev ItemGuid := Nat
abbrev AuctionId := Nat

def maxMoneyAmount : Nat := 99999999999
def minute : Nat := 60
def minAuctionTime : Nat := 12 * 60 * minute

inductive House where
  | neutral
  | alliance
  | horde
  deriving DecidableEq, Repr

structure Auctioneer where
  house : House
  houseEntry : Nat
  deriving DecidableEq, Repr

/-- What the rest of the server answers. Deposits, cuts and outbids are computed with the
configured rates. -/
structure World where
  /-- `GetAuctionDeposit` by house row, run time, item entry and count. -/
  auctionDeposit : Nat → Nat → Nat → Nat → Nat
  /-- `GetAuctionCut` by house row and bid. -/
  auctionCut : Nat → Nat → Nat
  /-- `CalculatePct` of a bid and 5, in floats. -/
  outBidPct : Nat → Nat
  auctionTime : Nat → Nat
  maxStackCount : Nat → Nat
  playerAccountId : PlayerGuid → Nat
  isBotChar : PlayerGuid → Bool

def World.receives (w : World) (guid : PlayerGuid) : Bool :=
  w.playerAccountId guid != 0 && !w.isBotChar guid

structure Item where
  owner : PlayerGuid
  entry : Nat
  count : Nat
  canBeTraded : Bool
  isNotEmptyBag : Bool
  conjured : Bool
  duration : Nat
  deriving DecidableEq, Repr

structure AuctionEntry where
  house : House
  houseEntry : Nat
  itemGuid : ItemGuid
  itemEntry : Nat
  itemCount : Nat
  owner : PlayerGuid
  startbid : Nat
  bid : Nat
  buyout : Nat
  expireTime : Nat
  bidder : PlayerGuid
  deposit : Nat
  etime : Nat
  /-- Not in the server: how much of the owner's money has been taken as the deposit. -/
  taken : Nat
  deriving DecidableEq, Repr

namespace AuctionEntry

def auctionCut (w : World) (a : AuctionEntry) : Nat := w.auctionCut a.houseEntry a.bid

def auctionOutBid (w : World) (a : AuctionEntry) : Nat :=
  if w.outBidPct a.bid = 0 then 1 else w.outBidPct a.bid

end AuctionEntry

structure Mail where
  receiver : PlayerGuid
  item : Option ItemGuid
  money : Nat
  deriving DecidableEq, Repr

/-- `pending` holds the pointers of `pendingAuctionMap`, as the ids of the auctions they
were made for; `table` the ids of the rows of the auctionhouse table. -/
structure State where
  money : AList fun _ : PlayerGuid => Nat
  inventory : AList fun _ : ItemGuid => Item
  aItems : AList fun _ : ItemGuid => Item
  auctions : AList fun _ : AuctionId => AuctionEntry
  pending : AList fun _ : PlayerGuid => List AuctionId × Nat
  table : List AuctionId
  mails : List Mail
  nextItem : ItemGuid
  nextAuction : AuctionId
  /-- Not in the server: the items that were put up for sale. -/
  sold : List ItemGuid
  /-- Not in the server: the auctions taken off a pending list while the owner was away. -/
  dropped : List AuctionId

namespace State

def getMoney (s : State) (guid : PlayerGuid) : Nat := (s.money.lookup guid).getD 0

def hasEnoughMoney (s : State) (guid : PlayerGuid) (amount : Nat) : Bool :=
  decide (amount ≤ s.getMoney guid)

/-- `ModifyMoney` by a negative amount: what is not there is not taken. -/
def takeMoney (s : State) (guid : PlayerGuid) (amount : Nat) : State :=
  let take (money : Nat) : Nat := if amount < money then money - amount else 0
  { s with money := Assoc.modify guid take s.money }

def getAuction (s : State) (house : House) (id : AuctionId) : Option AuctionEntry :=
  (s.auctions.lookup id).filter (·.house == house)

def getAItem (s : State) (guid : ItemGuid) : Option Item := s.aItems.lookup guid

def addAItem (s : State) (guid : ItemGuid) (item : Item) : State :=
  { s with aItems := s.aItems.insert guid item }

def removeAItem (s : State) (guid : ItemGuid) : State :=
  { s with aItems := s.aItems.erase guid }

def addAuction (s : State) (id : AuctionId) (a : AuctionEntry) : State :=
  { s with auctions := s.auctions.insert id a }

def removeAuction (s : State) (id : AuctionId) : State :=
  { s with auctions := s.auctions.erase id }

def modifyAuction (s : State) (id : AuctionId) (f : AuctionEntry → AuctionEntry) : State :=
  { s with auctions := Assoc.modify id f s.auctions }

def deleteFromDB (s : State) (id : AuctionId) : State :=
  { s with table := s.table.filter (· != id) }

def saveToDB (s : State) (id : AuctionId) : State := { s with table := id :: s.table }

def sendMail (s : State) (receiver : PlayerGuid) (item : Option ItemGuid) (money : Nat) : State :=
  { s with mails := ⟨receiver, item, money⟩ :: s.mails }

def sendAuctionWonMail (w : World) (s : State) (a : AuctionEntry) : State :=
  match s.getAItem a.itemGuid with
  | none => s
  | some _ =>
    if w.receives a.bidder then s.sendMail a.bidder (some a.itemGuid) 0
    else s.removeAItem a.itemGuid

def sendAuctionSalePendingMail (w : World) (s : State) (a : AuctionEntry) : State :=
  if w.receives a.owner then s.sendMail a.owner none 0 else s

/-- The profit is a `uint64`. -/
def sendAuctionSuccessfulMail (w : World) (s : State) (a : AuctionEntry) : State :=
  if w.receives a.owner then
    s.sendMail a.owner none ((a.bid + a.deposit + 2 ^ 64 - a.auctionCut w) % 2 ^ 64)
  else s

def sendAuctionExpiredMail (w : World) (s : State) (a : AuctionEntry) : State :=
  match s.getAItem a.itemGuid with
  | none => s
  | some _ =>
    if w.receives a.owner then s.sendMail a.owner (some a.itemGuid) 0
    else s.removeAItem a.itemGuid

def sendAuctionOutbiddedMail (w : World) (s : State) (a : AuctionEntry) : State :=
  if w.receives a.bidder then s.sendMail a.bidder none a.bid else s

def sendAuctionCancelledToBidderMail (w : World) (s : State) (a : AuctionEntry) : State :=
  if w.receives a.bidder then s.sendMail a.bidder none a.bid else s

def pendingAuctionAdd (s : State) (player : PlayerGuid) (id : AuctionId) : State :=
  let thisAH := (s.pending.lookup player).getD ([], 0)
  { s with pending := s.pending.insert player (thisAH.1 ++ [id], thisAH.2) }

def erasePending (s : State) (player : PlayerGuid) : State :=
  { s with pending := s.pending.erase player }

def depositShares (totaldeposit : Nat) : Nat → List Nat
  | 0 => []
  | n + 1 => List.replicate n (totaldeposit / (n + 1)) ++
      [totaldeposit - n * (totaldeposit / (n + 1))]

/-- What of `available` goes to each of the shares, in their order. -/
def takenShares : Nat → List Nat → List Nat
  | _, [] => []
  | available, share :: shares =>
    min available share :: takenShares (available - share) shares

/-- The loop of `PendingAuctionProcess`: each auction gets its share as the deposit, and
its row is written again. -/
def recordDeposits (s : State) : List (AuctionId × Nat × Nat) → State
  | [] => s
  | (id, share, taken) :: rest =>
    (((s.modifyAuction id fun a => { a with deposit := share, taken := a.taken + taken }
      ).deleteFromDB id).saveToDB id).recordDeposits rest

/-- `totaldeposit` of a batch, by its first auction. -/
def totalDeposit (w : World) (s : State) (batch : List AuctionEntry) : Nat :=
  match batch with
  | [] => 0
  | first :: _ =>
    match s.getAItem first.itemGuid with
    | some item => w.auctionDeposit first.houseEntry first.etime item.entry
        (batch.map AuctionEntry.itemCount).sum
    | none => 0

/-- `AuctionHouseMgr::PendingAuctionProcess`. No result when a pointer of the list is to an
entry that has been deleted. -/
def pendingAuctionProcess (w : World) (s : State) (player : PlayerGuid) : Option State :=
  match s.pending.lookup player with
  | none => some s
  | some (thisAH, _) => do
    let batch ← thisAH.mapM s.auctions.lookup
    let totaldeposit := s.totalDeposit w batch
    let shares := depositShares totaldeposit thisAH.length
    let taken := takenShares (s.getMoney player) shares
    let recorded := s.recordDeposits (thisAH.zip (shares.zip taken))
    return (recorded.erasePending player).takeMoney player totaldeposit

def expireBatch (s : State) (now : Nat) : List AuctionId → State
  | [] => s
  | id :: rest =>
    ((({ s with dropped := id :: s.dropped }.modifyAuction id fun a => { a with expireTime := now }
      ).deleteFromDB id).saveToDB id).expireBatch now rest

/-- One player's turn in `UpdatePendingAuctions`. -/
def updatePendingOf (w : World) (s : State) (player : PlayerGuid) (connected : Bool) (now : Nat) :
    Option State :=
  match s.pending.lookup player with
  | none => some s
  | some (thisAH, n) =>
    if connected then
      if thisAH.length = n then s.pendingAuctionProcess w player
      else some { s with pending := s.pending.insert player (thisAH, thisAH.length) }
    else do
      let _ ← thisAH.mapM s.auctions.lookup
      return (s.expireBatch now thisAH).erasePending player

/-- `AuctionHouseMgr::UpdatePendingAuctions`, for the players that have a pending list. -/
def updatePendingAuctions (w : World) (connected : PlayerGuid → Bool) (now : Nat) :
    List PlayerGuid → State → Option State
  | [], s => some s
  | player :: rest, s => do
    updatePendingAuctions w connected now rest (← s.updatePendingOf w player (connected player) now)

def closeAuction (s : State) (id : AuctionId) (a : AuctionEntry) : State :=
  ((s.deleteFromDB id).removeAItem a.itemGuid).removeAuction id

def expireAuction (w : World) (s : State) (id : AuctionId) (a : AuctionEntry) : State :=
  let mailed :=
    if a.bidder = 0 ∧ a.bid = 0 then s.sendAuctionExpiredMail w a
    else (s.sendAuctionSuccessfulMail w a).sendAuctionWonMail w a
  mailed.closeAuction id a

/-- The loop of `AuctionHouseObject::Update` over the auctions of one house. -/
def updateHouse (w : World) (house : House) (curTime : Nat) : List AuctionId → State → State
  | [], s => s
  | id :: rest, s =>
    match s.getAuction house id with
    | none => updateHouse w house curTime rest s
    | some a =>
      if curTime + 60 < a.expireTime then updateHouse w house curTime rest s
      else updateHouse w house curTime rest (s.expireAuction w id a)

def update (w : World) (s : State) (house : House) (curTime : Nat) : State :=
  updateHouse w house curTime (s.auctions.entries.map (·.1)) s

end State

structure SellPacket where
  items : List (ItemGuid × Nat)
  minBid : Nat
  buyoutPrice : Nat
  runTime : Nat
  deriving DecidableEq, Repr

namespace SellPacket

/-- `packet.RunTime *= MINUTE` on a `uint32`. -/
def seconds (packet : SellPacket) : Nat := packet.runTime * minute % 2 ^ 32

def finalCount (packet : SellPacket) : Nat := (packet.items.map Prod.snd).sum

end SellPacket

namespace State

def getItemByGuid (s : State) (player : PlayerGuid) (guid : ItemGuid) : Option Item :=
  (s.inventory.lookup guid).filter (·.owner == player)

def packetItem (s : State) (player : PlayerGuid) (i : ItemGuid × Nat) :
    Option ((ItemGuid × Nat) × Item) :=
  (s.getItemByGuid player i.1).map fun item => (i, item)

def notSellable (s : State) (guid : ItemGuid) (item : Item) (useCount : Nat) : Bool :=
  (s.getAItem guid).isSome || !item.canBeTraded || item.isNotEmptyBag || item.conjured ||
    item.duration != 0 || decide (item.count < useCount)

def packetRefused (w : World) (s : State) (packet : SellPacket) (item : Item)
    (found : List ((ItemGuid × Nat) × Item)) : Bool :=
  (found.any fun i => s.notSellable i.1.1 i.2 i.1.2) ||
    !decide (packet.items.map Prod.fst).Nodup ||
    (found.any fun i => i.2.entry != item.entry) ||
    found.any fun i => decide (w.maxStackCount i.2.entry < packet.finalCount)

def useItems (inventory : AList fun _ : ItemGuid => Item) :
    List (ItemGuid × Nat) → AList fun _ : ItemGuid => Item
  | [] => inventory
  | (guid, useCount) :: rest =>
    match inventory.lookup guid with
    | none => useItems inventory rest
    | some item =>
      if item.count = useCount then useItems (inventory.erase guid) rest
      else
        useItems (inventory.insert guid { item with count := item.count - useCount }) rest

def newAuction (w : World) (player : PlayerGuid) (auctioneer : Auctioneer) (packet : SellPacket)
    (deposit now : Nat) (guid : ItemGuid) (item : Item) : AuctionEntry where
  house := auctioneer.house
  houseEntry := auctioneer.houseEntry
  itemGuid := guid
  itemEntry := item.entry
  itemCount := item.count
  owner := player
  startbid := packet.minBid
  bid := 0
  buyout := packet.buyoutPrice
  expireTime := now + w.auctionTime packet.seconds
  bidder := 0
  deposit := deposit
  etime := packet.seconds
  taken := 0

/-- `AddAItem`, `AddAuction`, `PendingAuctionAdd` and the row of a new auction. -/
def listAuction (s : State) (player : PlayerGuid) (guid : ItemGuid) (item : Item)
    (a : AuctionEntry) : State :=
  let listed := ((s.addAItem guid item).addAuction s.nextAuction a).pendingAuctionAdd player
    s.nextAuction
  { listed.saveToDB s.nextAuction with
    nextAuction := s.nextAuction + 1
    sold := guid :: s.sold }

def sellItems (w : World) (s : State) (player : PlayerGuid) (auctioneer : Auctioneer)
    (packet : SellPacket) (deposit now : Nat) (guid : ItemGuid) (item : Item) : State :=
  if packet.items = [(guid, item.count)] then
    let a := newAuction w player auctioneer packet deposit now guid item
    let listed := s.listAuction player guid item a
    { listed with inventory := listed.inventory.erase guid }
  else
    let newItem := { item with count := packet.finalCount }
    let a := newAuction w player auctioneer packet deposit now s.nextItem newItem
    let listed := { s with nextItem := s.nextItem + 1 }.listAuction player s.nextItem newItem a
    { listed with inventory := useItems listed.inventory packet.items }

def handleAuctionSellItem (w : World) (s : State) (player : PlayerGuid)
    (auctioneer : Option Auctioneer) (packet : SellPacket) (now : Nat) : State :=
  if packet.items.any fun i => i.1 == 0 || i.2 == 0 || decide (1000 < i.2) then s
  else if packet.minBid = 0 ∨ packet.runTime = 0 then s
  else if maxMoneyAmount < packet.minBid ∨ maxMoneyAmount < packet.buyoutPrice then s
  else
    match auctioneer with
    | none => s
    | some auctioneer =>
      if ¬ (packet.seconds = 1 * minAuctionTime ∨ packet.seconds = 2 * minAuctionTime ∨
          packet.seconds = 4 * minAuctionTime) then s
      else
        match packet.items.mapM (s.packetItem player) with
        | none => s
        | some [] => s
        | some (((guid, useCount), item) :: rest) =>
          if s.packetRefused w packet item (((guid, useCount), item) :: rest) then s
          else if !s.hasEnoughMoney player (w.auctionDeposit auctioneer.houseEntry packet.seconds
              item.entry packet.finalCount) then s
          else
            s.sellItems w player auctioneer packet (w.auctionDeposit auctioneer.houseEntry
              packet.seconds item.entry packet.finalCount) now guid item

def payBid (w : World) (s : State) (player : PlayerGuid) (a : AuctionEntry) (bidAmount : Nat) :
    State :=
  if a.bidder ≠ 0 then
    if a.bidder = player then s.takeMoney player (bidAmount - a.bid)
    else (s.sendAuctionOutbiddedMail w a).takeMoney player bidAmount
  else s.takeMoney player bidAmount

def placeBid (w : World) (s : State) (player : PlayerGuid) (id : AuctionId) (a : AuctionEntry)
    (bidAmount : Nat) : State :=
  (s.payBid w player a bidAmount).modifyAuction id fun a =>
    { a with bidder := player, bid := bidAmount }

def payBuyout (w : World) (s : State) (player : PlayerGuid) (a : AuctionEntry) : State :=
  if player = a.bidder then s.takeMoney player (a.buyout - a.bid)
  else if a.bidder ≠ 0 then (s.takeMoney player a.buyout).sendAuctionOutbiddedMail w a
  else s.takeMoney player a.buyout

def buyout (w : World) (s : State) (player : PlayerGuid) (id : AuctionId) (a : AuctionEntry) :
    State :=
  let sold := { a with bidder := player, bid := a.buyout }
  (((((s.payBuyout w player a).modifyAuction id fun _ => sold).sendAuctionSalePendingMail w sold
    ).sendAuctionSuccessfulMail w sold).sendAuctionWonMail w sold).closeAuction id sold

def isBuyout (a : AuctionEntry) (bidAmount : Nat) : Bool :=
  !(decide (bidAmount < a.buyout) || a.buyout == 0)

/-- The auction that a bid passing all checks is for; `ownerOnline` tells whether the owner
is found among the players. -/
def bidAccepted (w : World) (s : State) (player : PlayerGuid) (auctioneer : Option Auctioneer)
    (id : AuctionId) (bidAmount : Nat) (ownerOnline : Bool) : Option AuctionEntry :=
  if id = 0 ∨ bidAmount = 0 then none
  else do
    let auctioneer ← auctioneer
    let a ← s.getAuction auctioneer.house id
    if a.owner = player then none
    else if !ownerOnline && w.playerAccountId a.owner == w.playerAccountId player then none
    else if bidAmount ≤ a.bid ∨ bidAmount < a.startbid then none
    else if !isBuyout a bidAmount && decide (bidAmount < a.bid + a.auctionOutBid w) then none
    else if !s.hasEnoughMoney player bidAmount then none
    else some a

def handleAuctionPlaceBid (w : World) (s : State) (player : PlayerGuid)
    (auctioneer : Option Auctioneer) (id : AuctionId) (bidAmount : Nat) (ownerOnline : Bool) :
    State :=
  match s.bidAccepted w player auctioneer id bidAmount ownerOnline with
  | none => s
  | some a =>
    if isBuyout a bidAmount then s.buyout w player id a
    else s.placeBid w player id a bidAmount

def cancelAccepted (w : World) (s : State) (player : PlayerGuid)
    (auctioneer : Option Auctioneer) (id : AuctionId) : Option AuctionEntry := do
  let auctioneer ← auctioneer
  let a ← s.getAuction auctioneer.house id
  if a.owner ≠ player then none
  else if (s.getAItem a.itemGuid).isNone then none
  else if a.bidder ≠ 0 ∧ !s.hasEnoughMoney player (a.auctionCut w) then none
  else some a

def handleAuctionRemoveItem (w : World) (s : State) (player : PlayerGuid)
    (auctioneer : Option Auctioneer) (id : AuctionId) : State :=
  match s.cancelAccepted w player auctioneer id with
  | none => s
  | some a =>
    let refunded :=
      if a.bidder ≠ 0 then
        (s.sendAuctionCancelledToBidderMail w a).takeMoney player (a.auctionCut w)
      else s
    (refunded.sendMail player (some a.itemGuid) 0).closeAuction id a

end State

end Ashamane.Auctions
