import Ashamane.Lib.Run
import Mathlib.Algebra.Ring.Int.Defs
import Mathlib.Algebra.Ring.Nat
import Mathlib.Data.List.AList
import Mathlib.Data.List.FinRange
import Mathlib.Logic.Function.Basic

/-! A trade of two players: their offers, their accepts, and the requests of both. -/
namespace Ashamane.Trading

abbrev ItemGuid := Nat

abbrev TRADE_SLOT_COUNT : Nat := 7
abbrev TRADE_SLOT_TRADED_COUNT : Nat := 6

def TRADE_SLOT_NONTRADED : Fin TRADE_SLOT_COUNT := 6

def MAX_MONEY_AMOUNT : Nat := 99999999999

inductive Side where
  | player
  | trader
  deriving DecidableEq, Repr

def Side.other : Side → Side
  | .player => .trader
  | .trader => .player

structure TradeData where
  accepted : Bool
  money : Nat
  spell : Nat
  spellCastItem : Option ItemGuid
  items : Fin TRADE_SLOT_COUNT → Option ItemGuid
  clientStateIndex : Nat
  serverStateIndex : Nat

namespace TradeData

def new : TradeData where
  accepted := false
  money := 0
  spell := 0
  spellCastItem := none
  items := fun _ => none
  clientStateIndex := 1
  serverStateIndex := 1

def hasItem (d : TradeData) (itemGuid : ItemGuid) : Bool :=
  (List.finRange TRADE_SLOT_COUNT).any fun slot => d.items slot = some itemGuid

def getTradeSlotForItem (d : TradeData) (itemGuid : ItemGuid) : Option (Fin TRADE_SLOT_COUNT) :=
  (List.finRange TRADE_SLOT_COUNT).find? fun slot => d.items slot = some itemGuid

end TradeData

structure Trade where
  data : Side → TradeData
  drawn : Nat

namespace Trade

def new : Trade := ⟨fun _ => .new, 0⟩

def modify (side : Side) (f : TradeData → TradeData) (t : Trade) : Trade :=
  { t with data := Function.update t.data side (f (t.data side)) }

def setAccepted (side : Side) (state : Bool) (t : Trade) : Trade :=
  t.modify side fun d => { d with accepted := state }

def updateClientStateIndex (side : Side) (t : Trade) : Trade :=
  t.modify side fun d => { d with clientStateIndex := (d.clientStateIndex + 1) % 2 ^ 32 }

/-- `rand32 n` is the random number drawn as the `n`-th of the trade. -/
def updateServerStateIndex (rand32 : Nat → Nat) (side : Side) (t : Trade) : Trade :=
  { t.modify side fun d => { d with serverStateIndex := rand32 t.drawn } with
    drawn := t.drawn + 1 }

def changed (rand32 : Nat → Nat) (side : Side) (t : Trade) : Trade :=
  ((t.setAccepted side false).setAccepted side.other false).updateServerStateIndex rand32 side

def setSpell (rand32 : Nat → Nat) (side : Side) (spell : Nat) (castItem : Option ItemGuid)
    (t : Trade) : Trade :=
  if (t.data side).spell = spell ∧ (t.data side).spellCastItem = castItem then t
  else (t.modify side fun d => { d with spell, spellCastItem := castItem }).changed rand32 side

def setItem (rand32 : Nat → Nat) (side : Side) (slot : Fin TRADE_SLOT_COUNT)
    (item : Option ItemGuid) (update : Bool) (t : Trade) : Trade :=
  if (t.data side).items slot = item ∧ update = false then t
  else
    let t := (t.modify side fun d =>
      { d with items := Function.update d.items slot item }).changed rand32 side
    let t := if slot = TRADE_SLOT_NONTRADED then t.setSpell rand32 side.other 0 none else t
    t.setSpell rand32 side 0 none

def setMoney (rand32 : Nat → Nat) (side : Side) (money : Nat) (hasEnoughMoney : Bool)
    (t : Trade) : Trade :=
  if (t.data side).money = money then t
  else if hasEnoughMoney = false then t
  else (t.modify side fun d => { d with money }).changed rand32 side

end Trade

structure Offer where
  items : Fin TRADE_SLOT_TRADED_COUNT → Option (ItemGuid × Nat)
  money : Nat

abbrev Offers := Side → Offer

structure Execution where
  offers : Offers
  accepted : Side → Bool
  agreed : Side → Option Offers

structure State where
  inventory : Side → AList fun _ : ItemGuid => Nat
  money : Side → Nat
  trade : Option Trade
  agreed : Side → Option Offers
  executed : List Execution

structure Circumstances where
  isWithinDistInMap : Bool
  canBeTraded : ItemGuid → Bool
  isBindedNotWith : ItemGuid → Bool
  checkCast : Side → Bool
  canStoreItems : Side → Bool

/-- `MAX_MONEY_AMOUNT - money` on words of 64 bits. -/
def moneySpace (money : Nat) : Nat := (MAX_MONEY_AMOUNT + 2 ^ 64 - money) % 2 ^ 64

namespace State

def getItem (s : State) (t : Trade) (side : Side) (slot : Fin TRADE_SLOT_COUNT) :
    Option (ItemGuid × Nat) :=
  ((t.data side).items slot).bind fun itemGuid =>
    ((s.inventory side).lookup itemGuid).map fun count => (itemGuid, count)

def offers (s : State) (t : Trade) : Offers := fun side =>
  ⟨fun slot => s.getItem t side slot.castSucc, (t.data side).money⟩

def refused (s : State) (t : Trade) (c : Circumstances) (me : Side) : Bool :=
  (List.finRange TRADE_SLOT_TRADED_COUNT).any fun slot =>
    (match s.getItem t me slot.castSucc with
      | some (item, _) => !c.canBeTraded item || c.isBindedNotWith item
      | none => false) ||
    match s.getItem t me.other slot.castSucc with
      | some (item, _) => !c.canBeTraded item
      | none => false

def castable (s : State) (t : Trade) (c : Circumstances) (side : Side) : Bool :=
  c.checkCast side && (s.getItem t side.other TRADE_SLOT_NONTRADED).isSome &&
    match (t.data side).spellCastItem with
    | some item => ((s.inventory side).lookup item).isSome
    | none => true

def takeItems (offer : Offer) (inventory : AList fun _ : ItemGuid => Nat) :
    AList fun _ : ItemGuid => Nat :=
  (List.finRange TRADE_SLOT_TRADED_COUNT).foldl (fun inventory slot =>
    match offer.items slot with
    | some (item, _) => inventory.erase item
    | none => inventory) inventory

def storeItems (offer : Offer) (inventory : AList fun _ : ItemGuid => Nat) :
    AList fun _ : ItemGuid => Nat :=
  (List.finRange TRADE_SLOT_TRADED_COUNT).foldl (fun inventory slot =>
    match offer.items slot with
    | some (item, count) => inventory.insert item count
    | none => inventory) inventory

/-- `ModifyMoney` of what is given, then of what is got. -/
def modifyMoney (money given got : Nat) : Nat :=
  let rest := if given < money then money - given else 0
  if rest ≤ moneySpace got then rest + got else rest

def execute (s : State) (t : Trade) : State where
  inventory := fun side =>
    storeItems (s.offers t side.other) (takeItems (s.offers t side) (s.inventory side))
  money := fun side =>
    modifyMoney (s.money side) (t.data side).money (t.data side.other).money
  trade := none
  agreed := s.agreed
  executed := ⟨s.offers t, fun side => (t.data side).accepted, s.agreed⟩ :: s.executed

def setTrade (s : State) (t : Trade) : State := { s with trade := some t }

def noted (s : State) (t : Trade) (me : Side) : State :=
  { s with agreed := Function.update s.agreed me (some (s.offers t)) }

def handleAcceptTradeOpcode (rand32 : Nat → Nat) (me : Side) (stateIndex : Nat)
    (c : Circumstances) (s : State) : State :=
  match s.trade with
  | none => s
  | some trade =>
    let s := s.noted trade me
    let t := trade.setAccepted me true
    let my := trade.data me
    let his := trade.data me.other
    if his.serverStateIndex ≠ stateIndex then s.setTrade (t.setAccepted me false)
    else if c.isWithinDistInMap = false then s.setTrade (t.setAccepted me false)
    else if s.money me < my.money then s.setTrade (t.setAccepted me false)
    else if s.money me.other < his.money then s.setTrade (t.setAccepted me.other false)
    else if moneySpace his.money < s.money me then s.setTrade (t.setAccepted me false)
    else if moneySpace my.money < s.money me.other then
      s.setTrade (t.setAccepted me.other false)
    else if s.refused t c me then s.setTrade t
    else if his.accepted = false then s.setTrade t
    else if my.spell ≠ 0 ∧ s.castable t c me = false then s.setTrade (t.setSpell rand32 me 0 none)
    else if his.spell ≠ 0 ∧ s.castable t c me.other = false then
      s.setTrade (t.setSpell rand32 me.other 0 none)
    else if c.canStoreItems me = false ∨ c.canStoreItems me.other = false then
      s.setTrade ((t.setAccepted me false).setAccepted me.other false)
    else s.execute t

def handleUnacceptTradeOpcode (me : Side) (s : State) : State :=
  match s.trade with
  | none => s
  | some trade => s.setTrade (trade.setAccepted me false)

def handleSetTradeGoldOpcode (rand32 : Nat → Nat) (me : Side) (coinage : Nat) (s : State) :
    State :=
  match s.trade with
  | none => s
  | some trade =>
    s.setTrade ((trade.updateClientStateIndex me).setMoney rand32 me coinage
      (coinage ≤ s.money me))

/-- `item` is what lies at the position that the packet names. -/
def handleSetTradeItemOpcode (rand32 : Nat → Nat) (me : Side) (tradeSlot : Nat)
    (item : Option ItemGuid) (c : Circumstances) (s : State) : State :=
  match s.trade, item with
  | none, _ => s
  | some _, none => s
  | some trade, some item =>
    if hslot : tradeSlot < TRADE_SLOT_COUNT then
      let slot : Fin TRADE_SLOT_COUNT := ⟨tradeSlot, hslot⟩
      if (s.inventory me).lookup item = none then s
      else if slot ≠ TRADE_SLOT_NONTRADED ∧ c.canBeTraded item = false then s
      else if (trade.data me).hasItem item then s
      else
        let trade := trade.updateClientStateIndex me
        if slot ≠ TRADE_SLOT_NONTRADED ∧ c.isBindedNotWith item then s.setTrade trade
        else s.setTrade (trade.setItem rand32 me slot (some item) false)
    else s

def handleClearTradeItemOpcode (rand32 : Nat → Nat) (me : Side) (tradeSlot : Nat) (s : State) :
    State :=
  match s.trade with
  | none => s
  | some trade =>
    let trade := trade.updateClientStateIndex me
    if hslot : tradeSlot < TRADE_SLOT_COUNT then
      s.setTrade (trade.setItem rand32 me ⟨tradeSlot, hslot⟩ none false)
    else s.setTrade trade

def setInventory (s : State) (side : Side) (inventory : AList fun _ : ItemGuid => Nat) : State :=
  { s with inventory := Function.update s.inventory side inventory }

def takeOut (side : Side) (item : ItemGuid) (s : State) : State :=
  s.setInventory side ((s.inventory side).erase item)

def putIn (side : Side) (item : ItemGuid) (count : Nat) (s : State) : State :=
  if (s.inventory side).lookup item = none then
    s.setInventory side ((s.inventory side).insert item count)
  else s

/-- `Item::SetCount`, which offers a traded item anew. -/
def setCount (rand32 : Nat → Nat) (side : Side) (item : ItemGuid) (count : Nat) (s : State) :
    State :=
  if (s.inventory side).lookup item = none then s
  else
    let s := s.setInventory side ((s.inventory side).insert item count)
    match s.trade with
    | none => s
    | some trade =>
      match (trade.data side).getTradeSlotForItem item with
      | none => s
      | some slot => s.setTrade (trade.setItem rand32 side slot (some item) true)

def rememberSpell (rand32 : Nat → Nat) (side : Side) (spell : Nat) (castItem : Option ItemGuid)
    (s : State) : State :=
  match s.trade with
  | none => s
  | some trade => s.setTrade (trade.setSpell rand32 side spell castItem)

end State

inductive Op where
  | acceptTrade (me : Side) (stateIndex : Nat) (c : Circumstances)
  | unacceptTrade (me : Side)
  | setTradeGold (me : Side) (coinage : Nat)
  | setTradeItem (me : Side) (tradeSlot : Nat) (item : Option ItemGuid) (c : Circumstances)
  | clearTradeItem (me : Side) (tradeSlot : Nat)
  | cancelTrade
  | rememberSpell (me : Side) (spell : Nat) (castItem : Option ItemGuid)
  | takeOut (side : Side) (item : ItemGuid)
  | putIn (side : Side) (item : ItemGuid) (count : Nat)
  | setCount (side : Side) (item : ItemGuid) (count : Nat)
  | haveMoney (side : Side) (money : Nat)

open State in
def step (rand32 : Nat → Nat) (s : State) : Op → State
  | .acceptTrade me stateIndex c => s.handleAcceptTradeOpcode rand32 me stateIndex c
  | .unacceptTrade me => s.handleUnacceptTradeOpcode me
  | .setTradeGold me coinage => s.handleSetTradeGoldOpcode rand32 me coinage
  | .setTradeItem me tradeSlot item c => s.handleSetTradeItemOpcode rand32 me tradeSlot item c
  | .clearTradeItem me tradeSlot => s.handleClearTradeItemOpcode rand32 me tradeSlot
  | .cancelTrade => { s with trade := none }
  | .rememberSpell me spell castItem => s.rememberSpell rand32 me spell castItem
  | .takeOut side item => s.takeOut side item
  | .putIn side item count => s.putIn side item count
  | .setCount side item count => s.setCount rand32 side item count
  | .haveMoney side money => { s with money := Function.update s.money side money }

/-- `new TradeData` for both players. -/
def State.opening (inventory : Side → AList fun _ : ItemGuid => Nat) (money : Side → Nat) :
    State where
  inventory
  money
  trade := some .new
  agreed := fun _ => none
  executed := []

end Ashamane.Trading
