import Ashamane.Trading.Accepts

/-! A trade is executed with the offers that both players accepted. -/
namespace Ashamane.Trading
open Ashamane.Lib

variable {rand32 : Nat → Nat} {s : State}

section Inventory
variable {side : Side} {item : ItemGuid} {inventory : AList fun _ : ItemGuid => Nat}

/-- A change of an inventory that leaves the offers alone if an accept stands. -/
theorem quiet_setInventory (h : (∃ x, s.accepted x = true) →
    ∀ g, inventory.lookup g = (s.inventory side).lookup g ∨ ¬s.Offered side g) :
    Quiet rand32 s (s.setInventory side inventory) := by
  refine ⟨fun t ht => ⟨t, ht, (Trade.Follows.refl t).toDraws⟩, rfl, rfl, fun _ => id, ?_⟩
  by_cases haccepted : ∃ x, s.accepted x = true
  · exact .inl (State.pair_setInventory (h haccepted))
  · exact .inr fun x => Bool.eq_false_iff.mpr fun hx => haccepted ⟨x, hx⟩

theorem quiet_takeOut (h : Fits s (.takeOut side item)) : Quiet rand32 s (s.takeOut side item) := by
  refine quiet_setInventory fun haccepted g => ?_
  by_cases hg : g = item
  · subst hg
    rw [AList.lookup_erase]
    by_cases hlookup : (s.inventory side).lookup g = none
    · exact .inl hlookup.symm
    · exact .inr (h hlookup haccepted)
  · exact .inl (AList.lookup_erase_ne hg)

theorem quiet_putIn {count : Nat} (h : Fits s (.putIn side item count)) :
    Quiet rand32 s (s.putIn side item count) := by
  unfold State.putIn
  split
  · rename_i hlookup
    refine quiet_setInventory fun haccepted g => ?_
    by_cases hg : g = item
    · subst hg
      exact .inr (h hlookup haccepted)
    · exact .inl (AList.lookup_insert_ne hg)
  · exact .refl s

theorem getTradeSlotForItem_eq_none {d : TradeData} :
    d.getTradeSlotForItem item = none ↔ ∀ slot, d.items slot ≠ some item := by
  simp only [TradeData.getTradeSlotForItem, List.find?_eq_none, List.mem_finRange,
    decide_eq_true_eq, forall_const, ne_eq]

theorem quiet_setCount {count : Nat} : Quiet rand32 s (s.setCount rand32 side item count) := by
  unfold State.setCount
  split
  · exact .refl s
  dsimp only
  cases htrade : s.trade with
  | none =>
    have htrade' : (s.setInventory side ((s.inventory side).insert item count)).trade = none :=
      htrade
    simp only [htrade']
    refine quiet_setInventory fun ⟨x, hx⟩ => ?_
    rw [State.accepted, htrade] at hx
    cases hx
  | some trade =>
    have htrade' : (s.setInventory side ((s.inventory side).insert item count)).trade =
      some trade := htrade
    simp only [htrade']
    cases hslot : (trade.data side).getTradeSlotForItem item with
    | none =>
      refine quiet_setInventory fun _ g => ?_
      by_cases hg : g = item
      · subst hg
        refine .inr ?_
        rintro ⟨t, ht, slot, hitem⟩
        obtain rfl := Option.some.inj (htrade.symm.trans ht)
        exact getTradeSlotForItem_eq_none.mp hslot _ hitem
      · exact .inl (AList.lookup_insert_ne hg)
    | some slot =>
      have hnone : ∀ x, ((s.setInventory side ((s.inventory side).insert item count)).setTrade
          (trade.setItem rand32 side slot (some item) true)).accepted x = false :=
        fun x => Trade.accepted_setItem side slot (some item) x
      have hquiet := @quiet_setTrade rand32
        (s.setInventory side ((s.inventory side).insert item count)) trade _ htrade'
        (Trade.follows_setItem side slot (some item) true)
      refine ⟨fun t ht => ?_, rfl, rfl, fun x hx => absurd hx (by rw [hnone x]; decide),
        .inr hnone⟩
      obtain ⟨u, hu, hdraws⟩ := hquiet.draws t ht
      exact ⟨u, htrade ▸ htrade'.symm.trans hu, hdraws⟩

end Inventory

theorem quiet_step {op : Op} (hfits : Fits s op)
    (hop : ∀ me stateIndex c, op ≠ .acceptTrade me stateIndex c) :
    Quiet rand32 s (step rand32 s op) := by
  cases op with
  | acceptTrade me stateIndex c => exact absurd rfl (hop me stateIndex c)
  | unacceptTrade me =>
    simp only [step, State.handleUnacceptTradeOpcode]
    split
    · exact .refl s
    · rename_i trade htrade
      exact @quiet_setTrade rand32 s _ _ htrade (Trade.follows_unaccept me)
  | setTradeGold me coinage =>
    simp only [step, State.handleSetTradeGoldOpcode]
    split
    · exact .refl s
    · rename_i trade htrade
      exact quiet_setTrade htrade
        ((Trade.follows_updateClientStateIndex me).trans (Trade.follows_setMoney ..))
  | setTradeItem me tradeSlot item c =>
    simp only [step, State.handleSetTradeItemOpcode]
    split
    · exact .refl s
    · exact .refl s
    · rename_i trade item htrade
      have hclient := @Trade.follows_updateClientStateIndex rand32 trade me
      split
      · split
        · exact .refl s
        split
        · exact .refl s
        split
        · exact .refl s
        split
        · exact quiet_setTrade htrade hclient
        · exact quiet_setTrade htrade (hclient.trans (Trade.follows_setItem ..))
      · exact .refl s
  | clearTradeItem me tradeSlot =>
    simp only [step, State.handleClearTradeItemOpcode]
    split
    · exact .refl s
    · rename_i trade htrade
      have hclient := @Trade.follows_updateClientStateIndex rand32 trade me
      split
      · exact quiet_setTrade htrade (hclient.trans (Trade.follows_setItem ..))
      · exact quiet_setTrade htrade hclient
  | cancelTrade =>
    exact ⟨fun t ht => (by cases ht), rfl, rfl, fun _ h => Bool.noConfusion h,
      .inr fun _ => rfl⟩
  | rememberSpell me spell castItem =>
    simp only [step, State.rememberSpell]
    split
    · exact .refl s
    · rename_i trade htrade
      exact quiet_setTrade htrade (Trade.follows_setSpell ..)
  | takeOut side item => exact quiet_takeOut hfits
  | putIn side item count => exact quiet_putIn hfits
  | setCount side item count => exact quiet_setCount
  | haveMoney side money =>
    exact ⟨fun t ht => ⟨t, ht, (Trade.Follows.refl t).toDraws⟩, rfl, rfl, fun _ => id, .inl rfl⟩

section Accepting
variable {trade : Trade} {me : Side} {stateIndex : Nat} {c : Circumstances}

theorem acceptTrade_cases {s' : State} (htrade : s.trade = some trade)
    (h : s.handleAcceptTradeOpcode rand32 me stateIndex c = s') :
    (∃ trade', (trade.setAccepted me true).Follows rand32 trade' ∧
      s' = (s.noted trade me).setTrade trade') ∨
    ((trade.data me.other).accepted = true ∧
      s' = (s.noted trade me).execute (trade.setAccepted me true)) := by
  have hmine := @Trade.follows_unaccept rand32 (trade.setAccepted me true) me
  have hhis := @Trade.follows_unaccept rand32 (trade.setAccepted me true) me.other
  unfold State.handleAcceptTradeOpcode at h
  rw [htrade] at h
  dsimp only at h
  obtain ⟨-, h⟩ | ⟨-, h⟩ := ite_eq_iff.mp h
  · exact .inl ⟨_, hmine, h.symm⟩
  obtain ⟨-, h⟩ | ⟨-, h⟩ := ite_eq_iff.mp h
  · exact .inl ⟨_, hmine, h.symm⟩
  obtain ⟨-, h⟩ | ⟨-, h⟩ := ite_eq_iff.mp h
  · exact .inl ⟨_, hmine, h.symm⟩
  obtain ⟨-, h⟩ | ⟨-, h⟩ := ite_eq_iff.mp h
  · exact .inl ⟨_, hhis, h.symm⟩
  obtain ⟨-, h⟩ | ⟨-, h⟩ := ite_eq_iff.mp h
  · exact .inl ⟨_, hmine, h.symm⟩
  obtain ⟨-, h⟩ | ⟨-, h⟩ := ite_eq_iff.mp h
  · exact .inl ⟨_, hhis, h.symm⟩
  obtain ⟨-, h⟩ | ⟨-, h⟩ := ite_eq_iff.mp h
  · exact .inl ⟨_, .refl _, h.symm⟩
  obtain ⟨-, h⟩ | ⟨haccepted, h⟩ := ite_eq_iff.mp h
  · exact .inl ⟨_, .refl _, h.symm⟩
  obtain ⟨-, h⟩ | ⟨-, h⟩ := ite_eq_iff.mp h
  · exact .inl ⟨_, Trade.follows_setSpell .., h.symm⟩
  obtain ⟨-, h⟩ | ⟨-, h⟩ := ite_eq_iff.mp h
  · exact .inl ⟨_, Trade.follows_setSpell .., h.symm⟩
  obtain ⟨-, h⟩ | ⟨-, h⟩ := ite_eq_iff.mp h
  · exact .inl ⟨_, hmine.trans (Trade.follows_unaccept _), h.symm⟩
  · exact .inr ⟨eq_true_of_ne_false haccepted, h.symm⟩

theorem raw_setAccepted (state : Bool) (side : Side) :
    (trade.setAccepted me state).raw side = trade.raw side := by
  rw [Trade.raw, Trade.raw, Trade.setAccepted, Trade.modify_data]
  split
  · rename_i hside
    rw [hside]
  · rfl

theorem offers_noted : (s.noted trade me).offers (trade.setAccepted me true) = s.offers trade :=
  State.offers_congr rfl fun side => raw_setAccepted true side

/-- Both sides accepted the offers in force, if the other side's accept stands. -/
theorem agreed_noted (hs : Standing s) (htrade : s.trade = some trade) (side : Side)
    (h : ((trade.setAccepted me true).data side).accepted = true) :
    (s.noted trade me).agreed side = some (s.offers trade) := by
  rcases Side.eq_or me side with rfl | rfl
  · exact Function.update_self ..
  · refine (Function.update_of_ne (Side.other_ne me) _ _).trans ?_
    rw [Trade.setAccepted, Trade.modify_data, if_neg (Side.other_ne me)] at h
    exact hs.agreed trade htrade _ h

theorem Standing.acceptTrade (hs : Standing s) :
    Standing (s.handleAcceptTradeOpcode rand32 me stateIndex c) := by
  cases htrade : s.trade with
  | none =>
    have hsame : s.handleAcceptTradeOpcode rand32 me stateIndex c = s := by
      simp only [State.handleAcceptTradeOpcode, htrade]
    rwa [hsame]
  | some trade =>
    obtain ⟨trade', hfollows, heq⟩ | ⟨hhis, heq⟩ := @acceptTrade_cases rand32 s trade me
      stateIndex c _ htrade rfl
    · rw [heq]
      refine ⟨fun t ht side ha => ?_, hs.executed⟩
      obtain rfl : trade' = t := Option.some.inj ht
      rcases hfollows.accepts with hkeep | hnone
      · have hoffers : ((s.noted trade me).setTrade trade').offers trade' = s.offers trade :=
          State.offers_congr rfl fun x => (hkeep x).1.trans (raw_setAccepted true x)
        rw [hoffers]
        exact agreed_noted hs htrade side ((hkeep side).2 ha)
      · rw [hnone side] at ha
        cases ha
    · rw [heq]
      refine ⟨fun t ht => (by cases ht), ?_⟩
      refine List.forall_mem_cons.mpr ⟨fun side => ?_, hs.executed⟩
      have haccepted : ((trade.setAccepted me true).data side).accepted = true := by
        rw [Trade.setAccepted, Trade.modify_data]
        split
        · rfl
        · rename_i hne
          rcases Side.eq_or me side with rfl | rfl
          · exact absurd rfl hne
          · exact hhis
      dsimp only
      rw [offers_noted]
      exact ⟨haccepted, agreed_noted hs htrade side haccepted⟩

theorem kept_acceptTrade : s.Kept (s.handleAcceptTradeOpcode rand32 me stateIndex c) := by
  cases htrade : s.trade with
  | none =>
    left
    simp only [State.handleAcceptTradeOpcode, htrade]
  | some trade =>
    obtain ⟨trade', hfollows, heq⟩ | ⟨hhis, heq⟩ := @acceptTrade_cases rand32 s trade me
      stateIndex c _ htrade rfl
    · rw [heq]
      rcases hfollows.accepts with hkeep | hnone
      · left
        rw [State.pair, State.pair, htrade]
        exact congrArg some
          (State.offers_congr rfl fun x => (hkeep x).1.trans (raw_setAccepted true x))
      · exact .inr hnone
    · rw [heq]
      exact .inr fun _ => rfl

theorem acceptTrade_index (htrade : s.trade = some trade)
    (hindex : (trade.data me.other).serverStateIndex ≠ stateIndex) :
    (s.handleAcceptTradeOpcode rand32 me stateIndex c).accepted me = false ∧
      (s.handleAcceptTradeOpcode rand32 me stateIndex c).executed = s.executed := by
  unfold State.handleAcceptTradeOpcode
  rw [htrade]
  dsimp only
  rw [if_pos hindex]
  refine ⟨?_, rfl⟩
  simp only [State.accepted, State.setTrade, Trade.setAccepted, Trade.modify_data, if_true]

end Accepting

def Steps (rand32 : Nat → Nat) (s : State) (op : Op) (s' : State) : Prop := step rand32 s op = s'

theorem Standing.step {op : Op} (hs : Standing s) (hfits : Fits s op) :
    Standing (step rand32 s op) := by
  by_cases hop : ∃ me stateIndex c, op = .acceptTrade me stateIndex c
  · obtain ⟨me, stateIndex, c, rfl⟩ := hop
    exact hs.acceptTrade
  · exact hs.quiet (@quiet_step rand32 s op hfits fun me stateIndex c h =>
      hop ⟨me, stateIndex, c, h⟩)

theorem pair_takeOut {side : Side} {item : ItemGuid}
    (hlookup : (s.inventory side).lookup item ≠ none) (hoffered : s.Offered side item) :
    (s.takeOut side item).pair ≠ s.pair := by
  intro hpair
  obtain ⟨trade, htrade, slot, hslot⟩ := hoffered
  have htrade' : (s.takeOut side item).trade = some trade := htrade
  rw [State.pair, State.pair, htrade', htrade] at hpair
  have hitems := congrFun (congrArg Offer.items (congrFun (Option.some.inj hpair) side)) slot
  simp only [State.offers, State.getItem, hslot, Option.bind_some, State.takeOut,
    State.setInventory, Function.update_self, AList.lookup_erase, Option.map_none] at hitems
  exact hlookup (Option.map_eq_none_iff.mp hitems.symm)

theorem pair_putIn {side : Side} {item : ItemGuid} {count : Nat}
    (hlookup : (s.inventory side).lookup item = none) (hoffered : s.Offered side item) :
    (s.putIn side item count).pair ≠ s.pair := by
  intro hpair
  obtain ⟨trade, htrade, slot, hslot⟩ := hoffered
  rw [State.putIn, if_pos hlookup] at hpair
  have htrade' : (s.setInventory side ((s.inventory side).insert item count)).trade =
    some trade := htrade
  rw [State.pair, State.pair, htrade', htrade] at hpair
  have hitems := congrFun (congrArg Offer.items (congrFun (Option.some.inj hpair) side)) slot
  simp only [State.offers, State.getItem, hslot, Option.bind_some, State.setInventory,
    Function.update_self, AList.lookup_insert, Option.map_some, hlookup, Option.map_none] at hitems
  cases hitems

/-- A step fits exactly when it leaves both offers as they are or takes both accepts away. -/
theorem fits_iff_kept {op : Op} : Fits s op ↔ s.Kept (step rand32 s op) := by
  constructor
  · intro hfits
    by_cases hop : ∃ me stateIndex c, op = .acceptTrade me stateIndex c
    · obtain ⟨me, stateIndex, c, rfl⟩ := hop
      exact kept_acceptTrade
    · exact (@quiet_step rand32 s op hfits fun me stateIndex c h =>
        hop ⟨me, stateIndex, c, h⟩).kept
  · intro hkept
    cases op with
    | takeOut side item =>
      rintro hlookup ⟨x, hx⟩ hoffered
      rcases hkept with hpair | hnone
      · exact pair_takeOut hlookup hoffered hpair
      · exact absurd (hnone x) (ne_false_of_eq_true hx)
    | putIn side item count =>
      rintro hlookup ⟨x, hx⟩ hoffered
      rcases hkept with hpair | hnone
      · exact pair_putIn hlookup hoffered hpair
      · have hsame : (step rand32 s (.putIn side item count)).accepted x = s.accepted x := by
          simp only [step, State.putIn, if_pos hlookup]
          rfl
        exact absurd (hsame.symm.trans (hnone x)) (ne_false_of_eq_true hx)
    | _ => trivial

theorem draws_step {op : Op} {t' : Trade} (h : (step rand32 s op).trade = some t') :
    ∃ t, s.trade = some t ∧ t.Draws rand32 t' := by
  by_cases hop : ∃ me stateIndex c, op = .acceptTrade me stateIndex c
  · obtain ⟨me, stateIndex, c, rfl⟩ := hop
    cases htrade : s.trade with
    | none =>
      have hsame : (step rand32 s (.acceptTrade me stateIndex c)).trade = none := by
        simp only [step, State.handleAcceptTradeOpcode, htrade]
      rw [hsame] at h
      cases h
    | some trade =>
      refine ⟨trade, rfl, ?_⟩
      have haccept : trade.Draws rand32 (trade.setAccepted me true) := by
        refine ⟨Nat.le_refl _, fun side => .inl ⟨raw_setAccepted true side, ?_⟩⟩
        rw [Trade.setAccepted, Trade.modify_data]
        split
        · rename_i hside
          rw [hside]
        · rfl
      obtain ⟨trade', hfollows, heq⟩ | ⟨-, heq⟩ := @acceptTrade_cases rand32 s trade me
        stateIndex c _ htrade rfl
      · rw [step, heq] at h
        obtain rfl : trade' = t' := Option.some.inj h
        exact haccept.trans hfollows.toDraws
      · rw [step, heq] at h
        cases h
  · by_cases hinventory : (step rand32 s op).trade = s.trade
    · exact ⟨t', hinventory.symm.trans h, (Trade.Follows.refl t').toDraws⟩
    · have hfits : Fits s op := by
        cases op with
        | takeOut side item => exact absurd rfl hinventory
        | putIn side item count =>
          refine absurd ?_ hinventory
          simp only [step, State.putIn]
          split <;> rfl
        | _ => trivial
      exact (@quiet_step rand32 s op hfits fun me stateIndex c h =>
        hop ⟨me, stateIndex, c, h⟩).draws t' h

def Drawn (rand32 : Nat → Nat) (s : State) : Prop :=
  ∀ t, s.trade = some t → ∀ side, (t.data side).serverStateIndex = 1 ∨
    ∃ n, n < t.drawn ∧ (t.data side).serverStateIndex = rand32 n

theorem Drawn.step {op : Op} (hs : Drawn rand32 s) : Drawn rand32 (step rand32 s op) := by
  intro t' ht' side
  obtain ⟨t, ht, hdraws⟩ := draws_step ht'
  rcases hdraws.index side with ⟨-, hindex⟩ | ⟨n, -, hn, hindex⟩
  · rw [hindex]
    rcases hs t ht side with hone | ⟨n, hn, hindex⟩
    · exact .inl hone
    · exact .inr ⟨n, Nat.lt_of_lt_of_le hn hdraws.drawn, hindex⟩
  · exact .inr ⟨n, hn, hindex⟩

theorem draws_run {ops : List Op} {u : State} (hrun : Run (Steps rand32) always s ops u) :
    ∀ t', u.trade = some t' → ∃ t, s.trade = some t ∧ t.Draws rand32 t' := by
  induction hrun with
  | nil s => exact fun t ht => ⟨t, ht, (Trade.Follows.refl t).toDraws⟩
  | cons _ h _ ih =>
    intro t' ht'
    obtain ⟨t, ht, hdraws⟩ := ih t' ht'
    obtain ⟨t₀, ht₀, hdraws₀⟩ := draws_step (h ▸ ht)
    exact ⟨t₀, ht₀, hdraws₀.trans hdraws⟩

theorem raw_of_index {t t' : Trade} (hrand : Function.Injective rand32) (hnew : ∀ n, rand32 n ≠ 1)
    (hs : Drawn rand32 s) (ht : s.trade = some t) (hdraws : t.Draws rand32 t') (side : Side)
    (hindex : (t.data side).serverStateIndex = (t'.data side).serverStateIndex) :
    t'.raw side = t.raw side := by
  rcases hdraws.index side with ⟨hraw, -⟩ | ⟨n, hn, -, hdrawn⟩
  · exact hraw
  · rcases hs t ht side with hone | ⟨m, hm, hm'⟩
    · exact absurd (hdrawn.symm.trans (hindex.symm.trans hone)) (hnew n)
    · have hsame : m = n := hrand (hm'.symm.trans (hindex.trans hdrawn))
      omega

/-- As long as no offered item leaves or comes back while an accept stands, a trade is
executed only with the offers that were in force when each player sent his last accept, and
a change of either offer takes both accepts away. An accept with another index than that of
the partner's offer is undone, and one index stands for one offer. -/
theorem trade_agreed (hrand : Function.Injective rand32) (hnew : ∀ n, rand32 n ≠ 1)
    {inventory : Side → AList fun _ : ItemGuid => Nat} {money : Side → Nat} {ops : List Op}
    (hrun : Run (Steps rand32) Fits (State.opening inventory money) ops s) :
    (∀ x ∈ s.executed, ∀ side, x.accepted side = true ∧ x.agreed side = some x.offers) ∧
    (∀ t, s.trade = some t → ∀ side, (t.data side).accepted = true →
      s.agreed side = some (s.offers t)) ∧
    (∀ op, Fits s op ↔ s.Kept (step rand32 s op)) ∧
    (∀ t me stateIndex c, s.trade = some t →
      (t.data me.other).serverStateIndex ≠ stateIndex →
      (step rand32 s (.acceptTrade me stateIndex c)).accepted me = false ∧
        (step rand32 s (.acceptTrade me stateIndex c)).executed = s.executed) ∧
    (∀ ops' u t t', Run (Steps rand32) always s ops' u → s.trade = some t → u.trade = some t' →
      ∀ side, (t.data side).serverStateIndex = (t'.data side).serverStateIndex →
        t'.raw side = t.raw side) := by
  have hopening : Standing (State.opening inventory money) ∧
      Drawn rand32 (State.opening inventory money) := by
    refine ⟨⟨fun t ht side ha => ?_, fun _ hx => absurd hx List.not_mem_nil⟩,
      fun t ht side => .inl ?_⟩
    · obtain rfl : Trade.new = t := Option.some.inj ht
      cases ha
    · obtain rfl : Trade.new = t := Option.some.inj ht
      rfl
  obtain ⟨hstanding, hdrawn⟩ := hrun.invariant (fun s => Standing s ∧ Drawn rand32 s) hopening
    (by
      rintro s op u ⟨hs, hd⟩ hfits rfl
      exact ⟨hs.step hfits, hd.step⟩)
  refine ⟨hstanding.executed, hstanding.agreed, fun _ => fits_iff_kept,
    fun t me stateIndex c ht hindex => acceptTrade_index ht hindex, ?_⟩
  intro ops' u t t' hrun' ht ht' side hindex
  obtain ⟨t₀, ht₀, hdraws⟩ := draws_run hrun' t' ht'
  obtain rfl : t₀ = t := Option.some.inj (ht₀.symm.trans ht)
  exact raw_of_index hrand hnew hdrawn ht₀ hdraws side hindex

def fairly : Circumstances := ⟨true, fun _ => true, fun _ => false, fun _ => true, fun _ => true⟩

def bargain : List Op :=
  [.setTradeItem .player 0 (some 5) fairly, .setTradeGold .trader 100000,
    .acceptTrade .trader 2 fairly]

def itemFive : Side → AList fun _ : ItemGuid => Nat
  | .player => (∅ : AList fun _ : ItemGuid => Nat).insert 5 1
  | .trader => ∅

def tenGold : Side → Nat
  | .player => 0
  | .trader => 100000

theorem run_foldl (ops : List Op) (s : State) :
    Run (Steps rand32) always s ops (ops.foldl (step rand32) s) := by
  induction ops generalizing s with
  | nil => exact .nil s
  | cons op ops ih => exact .cons trivial rfl (ih _)

/-- The trade of an item for money. -/
theorem trade_agreed_bargain :
    ∃ x ∈ ((bargain ++ [Op.acceptTrade .player 3 fairly]).foldl (step (· + 2))
      (State.opening itemFive tenGold)).executed, x.agreed .trader = some x.offers := by
  have hfits : Run (Steps (· + 2)) Fits (State.opening itemFive tenGold)
      (bargain ++ [Op.acceptTrade .player 3 fairly])
      ((bargain ++ [Op.acceptTrade .player 3 fairly]).foldl (step (· + 2))
        (State.opening itemFive tenGold)) :=
    .cons trivial rfl (.cons trivial rfl (.cons trivial rfl (.cons trivial rfl (.nil _))))
  exact ⟨_, List.mem_cons_self, ((trade_agreed (fun _ _ h => Nat.add_right_cancel h) (by omega)
    hfits).1 _ List.mem_cons_self .trader).2⟩

/-- The player sells the item after the trader's accept, and gets the ten gold as well. -/
theorem trade_agreed_fails :
    ∃ s, Run (Steps (· + 2)) always (State.opening itemFive tenGold)
        (bargain ++ [Op.takeOut .player 5, Op.acceptTrade .player 3 fairly]) s ∧
      s.money .player = 100000 ∧
      ∃ x ∈ s.executed, x.accepted .trader = true ∧ x.agreed .trader ≠ some x.offers := by
  refine ⟨_, run_foldl _ _, rfl, _, List.mem_cons_self, rfl, fun h => ?_⟩
  have hitem := congrArg (Option.map fun o : Offers => (o .player).items 0) h
  cases hitem

end Ashamane.Trading
