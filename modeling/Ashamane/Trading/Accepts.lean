import Ashamane.Trading.Basic

/-! A standing accept is an accept of the offers in force, as long as no offered item leaves
or comes back. -/
namespace Ashamane.Trading
open Ashamane.Lib

variable {rand32 : Nat → Nat} {s : State} {t t' t'' : Trade}

@[simp] theorem Side.other_ne (side : Side) : side.other ≠ side := by cases side <;> decide

theorem Side.eq_or (a b : Side) : b = a ∨ b = a.other := by cases a <;> cases b <;> decide

namespace Trade

theorem modify_data (t : Trade) (side x : Side) (f : TradeData → TradeData) :
    (t.modify side f).data x = if x = side then f (t.data side) else t.data x :=
  Function.update_apply ..

def raw (t : Trade) (side : Side) : (Fin TRADE_SLOT_COUNT → Option ItemGuid) × Nat :=
  ((t.data side).items, (t.data side).money)

/-- From `t` to `t'` an offer keeps its index, or gets one drawn in between. -/
structure Draws (rand32 : Nat → Nat) (t t' : Trade) : Prop where
  drawn : t.drawn ≤ t'.drawn
  index : ∀ side, (t'.raw side = t.raw side ∧
      (t'.data side).serverStateIndex = (t.data side).serverStateIndex) ∨
    ∃ n, t.drawn ≤ n ∧ n < t'.drawn ∧ (t'.data side).serverStateIndex = rand32 n

structure Follows (rand32 : Nat → Nat) (t t' : Trade) : Prop extends Draws rand32 t t' where
  accepts : (∀ side, t'.raw side = t.raw side ∧
      ((t'.data side).accepted = true → (t.data side).accepted = true)) ∨
    ∀ side, (t'.data side).accepted = false

theorem Draws.trans (h : Draws rand32 t t') (h' : Draws rand32 t' t'') : Draws rand32 t t'' := by
  refine ⟨Nat.le_trans h.drawn h'.drawn, fun side => ?_⟩
  rcases h'.index side with ⟨hraw', hindex'⟩ | ⟨n, hn, hlt, hindex'⟩
  · rcases h.index side with ⟨hraw, hindex⟩ | ⟨n, hn, hlt, hindex⟩
    · exact .inl ⟨hraw'.trans hraw, hindex'.trans hindex⟩
    · exact .inr ⟨n, hn, Nat.lt_of_lt_of_le hlt h'.drawn, hindex'.trans hindex⟩
  · exact .inr ⟨n, Nat.le_trans h.drawn hn, hlt, hindex'⟩

namespace Follows

theorem refl (t : Trade) : Follows rand32 t t :=
  ⟨⟨Nat.le_refl _, fun _ => .inl ⟨rfl, rfl⟩⟩, .inl fun _ => ⟨rfl, id⟩⟩

theorem none_accepted (h : Follows rand32 t t') (hnone : ∀ side, (t.data side).accepted = false)
    (side : Side) : (t'.data side).accepted = false := by
  rcases h.accepts with hkeep | hnone'
  · exact Bool.eq_false_iff.mpr fun ha =>
      absurd ((hkeep side).2 ha) (by rw [hnone side]; decide)
  · exact hnone' side

theorem trans (h : Follows rand32 t t') (h' : Follows rand32 t' t'') : Follows rand32 t t'' := by
  refine ⟨h.toDraws.trans h'.toDraws, ?_⟩
  rcases h.accepts with hkeep | hnone
  · rcases h'.accepts with hkeep' | hnone'
    · exact .inl fun side =>
        ⟨(hkeep' side).1.trans (hkeep side).1, fun ha => (hkeep side).2 ((hkeep' side).2 ha)⟩
    · exact .inr hnone'
  · exact .inr (h'.none_accepted hnone)

end Follows

theorem follows_modify (side : Side) (f : TradeData → TradeData)
    (hitems : (f (t.data side)).items = (t.data side).items)
    (hmoney : (f (t.data side)).money = (t.data side).money)
    (hindex : (f (t.data side)).serverStateIndex = (t.data side).serverStateIndex)
    (haccepted : (f (t.data side)).accepted = true → (t.data side).accepted = true) :
    Follows rand32 t (t.modify side f) := by
  have hraw : ∀ x, (t.modify side f).raw x = t.raw x := by
    intro x
    rw [raw, raw, modify_data]
    split
    · rename_i hx
      rw [hx, hitems, hmoney]
    · rfl
  refine ⟨⟨Nat.le_refl _, fun x => .inl ⟨hraw x, ?_⟩⟩, .inl fun x => ⟨hraw x, ?_⟩⟩
  · rw [modify_data]
    split
    · rename_i hx
      rw [hx, hindex]
    · rfl
  · rw [modify_data]
    split
    · rename_i hx
      rw [hx]
      exact haccepted
    · exact id

theorem follows_unaccept (side : Side) : Follows rand32 t (t.setAccepted side false) :=
  follows_modify side _ rfl rfl rfl fun h => Bool.noConfusion h

/-- A change of one side's data, with what every setter does after it. -/
theorem follows_changed (side : Side) (f : TradeData → TradeData) :
    Follows rand32 t ((t.modify side f).changed rand32 side) := by
  refine ⟨⟨Nat.le_succ _, fun x => ?_⟩, .inr fun x => ?_⟩
  · rcases Side.eq_or side x with rfl | rfl
    · refine .inr ⟨t.drawn, Nat.le_refl _, Nat.lt_succ_self _, ?_⟩
      simp only [changed, updateServerStateIndex, setAccepted, modify_data, if_true]
      rfl
    · refine .inl ⟨?_, ?_⟩ <;>
        simp only [raw, changed, updateServerStateIndex, setAccepted, modify_data,
          Side.other_ne, if_true, if_false]
  · rcases Side.eq_or side x with rfl | rfl <;>
      simp only [changed, updateServerStateIndex, setAccepted, modify_data, Side.other_ne,
        (Side.other_ne _).symm, if_true, if_false]

theorem follows_setSpell (side : Side) (spell : Nat) (castItem : Option ItemGuid) :
    Follows rand32 t (t.setSpell rand32 side spell castItem) := by
  unfold setSpell
  split
  · exact .refl t
  · exact follows_changed ..

theorem follows_setItem (side : Side) (slot : Fin TRADE_SLOT_COUNT) (item : Option ItemGuid)
    (update : Bool) : Follows rand32 t (t.setItem rand32 side slot item update) := by
  unfold setItem
  split
  · exact .refl t
  · refine (follows_changed side fun d =>
      { d with items := Function.update d.items slot item }).trans ?_
    dsimp only
    split
    · exact (follows_setSpell ..).trans (follows_setSpell ..)
    · exact follows_setSpell ..

theorem accepted_setItem (side : Side) (slot : Fin TRADE_SLOT_COUNT) (item : Option ItemGuid)
    (x : Side) : ((t.setItem rand32 side slot item true).data x).accepted = false := by
  have hchanged : ∀ x, (((t.modify side fun d =>
      { d with items := Function.update d.items slot item }).changed rand32 side).data
        x).accepted = false := by
    intro x
    rcases Side.eq_or side x with rfl | rfl <;>
      simp only [changed, updateServerStateIndex, setAccepted, modify_data, Side.other_ne,
        (Side.other_ne _).symm, if_true, if_false]
  unfold setItem
  rw [if_neg fun h => Bool.noConfusion h.2]
  refine (follows_setSpell ..).none_accepted (fun x => ?_) x
  split
  · exact (follows_setSpell ..).none_accepted hchanged x
  · exact hchanged x

theorem follows_setMoney (side : Side) (money : Nat) (enough : Bool) :
    Follows rand32 t (t.setMoney rand32 side money enough) := by
  unfold setMoney
  split
  · exact .refl t
  split
  · exact .refl t
  · exact follows_changed ..

theorem follows_updateClientStateIndex (side : Side) :
    Follows rand32 t (t.updateClientStateIndex side) :=
  follows_modify side _ rfl rfl rfl id

end Trade

namespace State

def pair (s : State) : Option Offers := s.trade.map s.offers

def accepted (s : State) (side : Side) : Bool :=
  match s.trade with
  | none => false
  | some trade => (trade.data side).accepted

def Offered (s : State) (side : Side) (item : ItemGuid) : Prop :=
  ∃ trade, s.trade = some trade ∧ ∃ slot : Fin TRADE_SLOT_TRADED_COUNT,
    (trade.data side).items slot.castSucc = some item

def Kept (s s' : State) : Prop := s'.pair = s.pair ∨ ∀ side, s'.accepted side = false

theorem offers_congr {s' : State} (hinventory : s'.inventory = s.inventory)
    (hraw : ∀ side, t'.raw side = t.raw side) : s'.offers t' = s.offers t := by
  funext side
  obtain ⟨hitems, hmoney⟩ := Prod.ext_iff.mp (hraw side)
  simp only [offers, getItem, hinventory]
  have hitems : (t'.data side).items = (t.data side).items := hitems
  have hmoney : (t'.data side).money = (t.data side).money := hmoney
  rw [hitems, hmoney]

theorem pair_setInventory {side : Side} {inventory : AList fun _ : ItemGuid => Nat}
    (h : ∀ g, inventory.lookup g = (s.inventory side).lookup g ∨ ¬s.Offered side g) :
    (s.setInventory side inventory).pair = s.pair := by
  cases htrade : s.trade with
  | none => simp only [pair, setInventory, htrade, Option.map_none]
  | some trade =>
    have hsame : (s.setInventory side inventory).offers trade = s.offers trade := by
      funext x
      simp only [offers, getItem, setInventory, Function.update_apply]
      congr 1
      funext slot
      cases hitem : (trade.data x).items slot.castSucc with
      | none => rfl
      | some g =>
        split
        · rename_i hx
          subst hx
          rcases h g with hlookup | hnot
          · simp only [Option.bind_some, hlookup]
          · exact absurd ⟨trade, htrade, slot, hitem⟩ hnot
        · rfl
    have htrade' : (s.setInventory side inventory).trade = some trade := htrade
    rw [pair, pair, htrade', htrade, Option.map_some, Option.map_some, hsame]

end State

def Fits (s : State) : Op → Prop
  | .takeOut side item => (s.inventory side).lookup item ≠ none →
    (∃ x, s.accepted x = true) → ¬s.Offered side item
  | .putIn side item _ => (s.inventory side).lookup item = none →
    (∃ x, s.accepted x = true) → ¬s.Offered side item
  | _ => True

structure Quiet (rand32 : Nat → Nat) (s s' : State) : Prop where
  draws : ∀ t', s'.trade = some t' → ∃ t, s.trade = some t ∧ t.Draws rand32 t'
  agreed : s'.agreed = s.agreed
  executed : s'.executed = s.executed
  accepted : ∀ side, s'.accepted side = true → s.accepted side = true
  kept : s.Kept s'

structure Standing (s : State) : Prop where
  agreed : ∀ trade, s.trade = some trade → ∀ side, (trade.data side).accepted = true →
    s.agreed side = some (s.offers trade)
  executed : ∀ x ∈ s.executed, ∀ side, x.accepted side = true ∧ x.agreed side = some x.offers

theorem accepted_eq {trade : Trade} (h : s.trade = some trade) (side : Side) :
    s.accepted side = (trade.data side).accepted := by
  rw [State.accepted, h]

theorem Quiet.refl (s : State) : Quiet rand32 s s :=
  ⟨fun t ht => ⟨t, ht, (Trade.Follows.refl t).toDraws⟩, rfl, rfl, fun _ => id, .inl rfl⟩

theorem Standing.quiet {s' : State} (hs : Standing s) (h : Quiet rand32 s s') : Standing s' := by
  refine ⟨fun trade' htrade' side ha => ?_, h.executed ▸ hs.executed⟩
  rw [← accepted_eq htrade'] at ha
  rcases h.kept with hpair | hnone
  · have hbefore := h.accepted side ha
    cases htrade : s.trade with
    | none =>
      rw [State.accepted, htrade] at hbefore
      cases hbefore
    | some trade =>
      rw [State.pair, State.pair, htrade', htrade] at hpair
      rw [accepted_eq htrade] at hbefore
      rw [h.agreed, hs.agreed trade htrade side hbefore]
      exact hpair.symm
  · rw [hnone side] at ha
    cases ha

theorem quiet_setTrade {trade trade' : Trade} (htrade : s.trade = some trade)
    (h : trade.Follows rand32 trade') : Quiet rand32 s (s.setTrade trade') := by
  refine ⟨fun t ht => ⟨trade, htrade, ?_⟩, rfl, rfl, fun side ha => ?_, ?_⟩
  · obtain rfl : trade' = t := Option.some.inj ht
    exact h.toDraws
  · rw [accepted_eq htrade]
    rcases h.accepts with hkeep | hnone
    · exact (hkeep side).2 ha
    · exact absurd ha (by rw [accepted_eq rfl, hnone side]; decide)
  · rcases h.accepts with hkeep | hnone
    · left
      rw [State.pair, State.pair, htrade]
      exact congrArg some (State.offers_congr rfl fun side => (hkeep side).1)
    · exact .inr hnone

end Ashamane.Trading
