import Ashamane.Spells.Lookups
import Mathlib.Algebra.Order.Ring.Int
import Mathlib.Data.List.Pairwise

/-! The charges of a category: each recharges when the one before it is there again, and all
operations keep this order. -/
namespace Ashamane.Spells
open Ashamane.Lib

/-- The charges of the categories in the store, and what the auras of the owner add. -/
structure ChargeWorld where
  MaxCharges : Nat → Option (BitVec 8)
  modMaxCharges : Nat → Int

/-- `GetMaxCharges`, with 32 bits. -/
def ChargeWorld.getMaxCharges (w : ChargeWorld) (categoryId : Nat) : Int :=
  match w.MaxCharges categoryId with
  | none => 0
  | some charges => (charges.toInt + w.modMaxCharges categoryId).bmod (2 ^ 32)

namespace SpellHistory

def charges (s : SpellHistory) (categoryId : Nat) : List ChargeEntry :=
  (s.categoryCharges.lookup categoryId).getD []

def setCharges (s : SpellHistory) (categoryId : Nat) (charges : List ChargeEntry) :
    SpellHistory :=
  { s with categoryCharges := s.categoryCharges.insert categoryId charges }

def hasCharge (w : ChargeWorld) (s : SpellHistory) (categoryId : Nat) : Bool :=
  match w.MaxCharges categoryId with
  | none => true
  | some _ =>
    if w.getMaxCharges categoryId ≤ 0 then true
    else match s.categoryCharges.lookup categoryId with
      | none => true
      | some charges => (charges.length : Int).bmod (2 ^ 32) < w.getMaxCharges categoryId

def getChargeCount (w : ChargeWorld) (s : SpellHistory) (categoryId : Nat) : Int :=
  match w.MaxCharges categoryId with
  | none => 0
  | some _ =>
    if w.getMaxCharges categoryId ≤ 0 then 0
    else match s.categoryCharges.lookup categoryId with
      | none => w.getMaxCharges categoryId
      | some charges => max (w.getMaxCharges categoryId - (charges.length : Int).bmod (2 ^ 32)) 0

/-- `chargeRecovery` is what `GetChargeRecoveryTime` gives at this call, in milliseconds. -/
def consumeCharge (w : ChargeWorld) (s : SpellHistory) (categoryId : Nat) (chargeRecovery : Int)
    (now : Int) : SpellHistory :=
  match w.MaxCharges categoryId with
  | none => s
  | some _ =>
    if chargeRecovery > 0 ∧ w.getMaxCharges categoryId > 0 then
      let recoveryStart := match (s.charges categoryId).getLast? with
        | none => now
        | some last => last.RechargeEnd
      s.setCharges categoryId (s.charges categoryId ++
        [⟨recoveryStart, recoveryStart + chargeRecovery * nanosecondsPerMillisecond⟩])
    else s

def popExpired (now : Int) (charges : List ChargeEntry) : List ChargeEntry :=
  charges.dropWhile fun charge => charge.RechargeEnd ≤ now

/-- Only for the history of a player or of one who belongs to a player. -/
def updateCharges (s : SpellHistory) (playerOwner : Bool) (now : Int) : SpellHistory :=
  if playerOwner then
    { s with
      categoryCharges := Assoc.mapVal (fun _ charges => popExpired now charges) s.categoryCharges }
  else s

def updateCharge (s : SpellHistory) (categoryId : Nat) (now : Int) : SpellHistory :=
  s.setCharges categoryId (popExpired now (s.charges categoryId))

def ChargeEntry.sooner (charge : ChargeEntry) (reductionTime : Nat) : ChargeEntry where
  RechargeStart := charge.RechargeStart - reductionTime * nanosecondsPerMillisecond
  RechargeEnd := charge.RechargeEnd - reductionTime * nanosecondsPerMillisecond

def reduceChargeCooldown (w : ChargeWorld) (s : SpellHistory) (categoryId reductionTime : Nat)
    (now : Int) : SpellHistory :=
  match w.MaxCharges categoryId with
  | none => s
  | some _ =>
    (s.setCharges categoryId
      ((s.charges categoryId).map (ChargeEntry.sooner · reductionTime))).updateCharge categoryId now

def restoreCharge (s : SpellHistory) (categoryId : Nat) : SpellHistory :=
  match s.categoryCharges.lookup categoryId with
  | none => s
  | some charges =>
    if charges.isEmpty then s else s.setCharges categoryId charges.dropLast

end SpellHistory

inductive ChargeOp where
  | consumeCharge (categoryId : Nat) (chargeRecovery now : Int)
  | reduceChargeCooldown (categoryId reductionTime : Nat) (now : Int)
  | restoreCharge (categoryId : Nat)
  | update (now : Int)
  | updateCharge (categoryId : Nat) (now : Int)
  | updateCharges (playerOwner : Bool) (now : Int)
  deriving DecidableEq, Repr

namespace SpellHistory

def chargeStep (w : ChargeWorld) (s : SpellHistory) : ChargeOp → Option SpellHistory
  | .consumeCharge categoryId chargeRecovery now =>
    some (s.consumeCharge w categoryId chargeRecovery now)
  | .reduceChargeCooldown categoryId reductionTime now =>
    some (s.reduceChargeCooldown w categoryId reductionTime now)
  | .restoreCharge categoryId => some (s.restoreCharge categoryId)
  | .update now => s.update now
  | .updateCharge categoryId now => some (s.updateCharge categoryId now)
  | .updateCharges playerOwner now => some (s.updateCharges playerOwner now)

def ChargeAllowed (w : ChargeWorld) (s : SpellHistory) : ChargeOp → Prop
  | .consumeCharge categoryId _ _ => s.hasCharge w categoryId = true
  | _ => True

end SpellHistory

structure Queued (charges : List ChargeEntry) : Prop where
  each : ∀ charge ∈ charges, charge.RechargeStart ≤ charge.RechargeEnd
  order : charges.Pairwise fun a b => a.RechargeEnd ≤ b.RechargeStart

namespace Queued

variable {charges : List ChargeEntry}

theorem nil : Queued [] := ⟨by simp, List.Pairwise.nil⟩

theorem sublist (h : Queued charges) {l : List ChargeEntry} (hl : l.Sublist charges) : Queued l :=
  ⟨fun charge hcharge => h.each charge (hl.subset hcharge), h.order.sublist hl⟩

theorem sooner (h : Queued charges) (reductionTime : Nat) :
    Queued (charges.map (SpellHistory.ChargeEntry.sooner · reductionTime)) where
  each charge hcharge := by
    obtain ⟨old, hold, rfl⟩ := List.mem_map.mp hcharge
    exact Int.sub_le_sub_right (h.each old hold) _
  order := by
    refine List.pairwise_map.mpr (h.order.imp fun hab => ?_)
    exact Int.sub_le_sub_right hab _

theorem push (h : Queued charges) {charge : ChargeEntry}
    (hself : charge.RechargeStart ≤ charge.RechargeEnd)
    (hlast : ∀ last, charges.getLast? = some last → last.RechargeEnd ≤ charge.RechargeStart) :
    Queued (charges ++ [charge]) where
  each x hx := by
    cases List.mem_append.mp hx with
    | inl hold => exact h.each x hold
    | inr hnew => exact List.mem_singleton.mp hnew ▸ hself
  order := by
    refine List.pairwise_append.mpr ⟨h.order, List.pairwise_singleton _ _, ?_⟩
    intro x hx y hy
    rw [List.mem_singleton.mp hy]
    cases hend : charges.getLast? with
    | none =>
      rw [List.getLast?_eq_none_iff.mp hend] at hx
      cases hx
    | some last =>
      have hle := hlast last hend
      obtain ⟨init, rfl⟩ := List.getLast?_eq_some_iff.mp hend
      cases List.mem_append.mp hx with
      | inl hinit =>
        have hbefore := (List.pairwise_append.mp h.order).2.2 x hinit last List.mem_cons_self
        have hlastSelf := h.each last (List.mem_append_right _ List.mem_cons_self)
        omega
      | inr heq => exact List.mem_singleton.mp heq ▸ hle

theorem ends (h : Queued charges) :
    charges.Pairwise fun a b => a.RechargeEnd ≤ b.RechargeEnd := by
  refine h.order.imp_of_mem fun _ hb hab => ?_
  exact Int.le_trans hab (h.each _ hb)

theorem popExpired_eq (h : Queued charges) (now : Int) :
    SpellHistory.popExpired now charges =
      charges.filter fun charge => decide (now < charge.RechargeEnd) := by
  have hends := h.ends
  clear h
  induction charges with
  | nil => rfl
  | cons charge rest ih =>
    obtain ⟨hfirst, hrest⟩ := List.pairwise_cons.mp hends
    rw [SpellHistory.popExpired, List.dropWhile_cons, List.filter_cons]
    by_cases hexp : charge.RechargeEnd ≤ now
    · rw [if_pos (decide_eq_true hexp), if_neg (by simpa using hexp)]
      exact ih hrest
    · rw [if_neg (by simpa using hexp), if_pos (by simpa using hexp)]
      congr 1
      refine (List.filter_eq_self.mpr fun x hx => ?_).symm
      have hle := hfirst x hx
      exact decide_eq_true (by omega)

end Queued

namespace SpellHistory

variable {w : ChargeWorld} {s t : SpellHistory} {c : Nat}

inductive Requeued (w : ChargeWorld) (op : ChargeOp) (c : Nat) (l : List ChargeEntry) :
    List ChargeEntry → Prop
  | gone {l' : List ChargeEntry} (hsub : l'.Sublist l) : Requeued w op c l l'
  | sooner {l' : List ChargeEntry} (reductionTime : Nat)
      (hsub : l'.Sublist (l.map (ChargeEntry.sooner · reductionTime))) : Requeued w op c l l'
  | pushed {charge : ChargeEntry} (chargeRecovery now : Int)
      (hop : op = .consumeCharge c chargeRecovery now) (hpos : 0 < w.getMaxCharges c)
      (hself : charge.RechargeStart ≤ charge.RechargeEnd)
      (hlast : ∀ last, l.getLast? = some last → last.RechargeEnd ≤ charge.RechargeStart) :
      Requeued w op c l (l ++ [charge])

@[simp] theorem charges_setCharges_self (s : SpellHistory) (c : Nat) (l : List ChargeEntry) :
    (s.setCharges c l).charges c = l := by
  rw [charges, setCharges, AList.lookup_insert]
  rfl

@[simp] theorem charges_setCharges_ne (s : SpellHistory) {c d : Nat} (l : List ChargeEntry)
    (h : d ≠ c) : (s.setCharges c l).charges d = s.charges d := by
  rw [charges, setCharges, AList.lookup_insert_ne h, charges]

theorem charges_popAll (s : SpellHistory) (now : Int) (d : Nat) :
    ({ s with
      categoryCharges := Assoc.mapVal (fun _ charges => popExpired now charges)
        s.categoryCharges } : SpellHistory).charges d = popExpired now (s.charges d) := by
  have hlookup := Assoc.lookup_mapVal (fun _ charges => popExpired now charges) s.categoryCharges d
  simp only [charges, hlookup]
  cases s.categoryCharges.lookup d <;> rfl

theorem charges_update {now : Int} (h : s.update now = some t) (d : Nat) :
    t.charges d = popExpired now (s.charges d) := by
  obtain ⟨u, hu, rfl⟩ := update_frame (fun x => x.categoryCharges) (fun _ _ => rfl)
    (fun _ _ _ => rfl) h
  refine (charges_popAll u now d).trans ?_
  rw [charges, hu, charges]

theorem requeued_setCharges {op : ChargeOp} {l : List ChargeEntry} (c : Nat)
    (h : Requeued w op c (s.charges c) l) (d : Nat) :
    Requeued w op d (s.charges d) ((s.setCharges c l).charges d) := by
  by_cases hd : d = c
  · rw [hd, charges_setCharges_self]
    exact h
  · rw [charges_setCharges_ne s l hd]
    exact .gone (List.Sublist.refl _)

theorem chargeStep_requeued {op : ChargeOp} (h : s.chargeStep w op = some t) (d : Nat) :
    Requeued w op d (s.charges d) (t.charges d) := by
  have hpop : ∀ (now : Int) (l : List ChargeEntry), (popExpired now l).Sublist l := fun _ _ =>
    List.dropWhile_sublist _
  cases op with
  | consumeCharge c chargeRecovery now =>
    obtain rfl := Option.some.inj h
    unfold consumeCharge
    cases w.MaxCharges c with
    | none => exact .gone (List.Sublist.refl _)
    | some _ =>
      simp only
      split
      next hpos =>
        have htime : 0 < chargeRecovery * nanosecondsPerMillisecond :=
          Int.mul_pos hpos.1 (by decide)
        refine requeued_setCharges c (.pushed chargeRecovery now rfl hpos.2 ?_ fun l hl => ?_) d
        · simp only
          omega
        · simp only [hl, le_refl]
      · exact .gone (List.Sublist.refl _)
  | reduceChargeCooldown c reductionTime now =>
    obtain rfl := Option.some.inj h
    unfold reduceChargeCooldown
    cases w.MaxCharges c with
    | none => exact .gone (List.Sublist.refl _)
    | some _ =>
      simp only [updateCharge, charges_setCharges_self]
      by_cases hd : d = c
      · rw [hd, charges_setCharges_self]
        exact .sooner reductionTime (hpop now _)
      · rw [charges_setCharges_ne _ _ hd, charges_setCharges_ne _ _ hd]
        exact .gone (List.Sublist.refl _)
  | restoreCharge c =>
    obtain rfl := Option.some.inj h
    unfold restoreCharge
    cases hlookup : s.categoryCharges.lookup c with
    | none => exact .gone (List.Sublist.refl _)
    | some l =>
      have hcharges : s.charges c = l := by rw [charges, hlookup, Option.getD_some]
      simp only
      split
      · exact .gone (List.Sublist.refl _)
      · refine requeued_setCharges c (.gone ?_) d
        rw [hcharges]
        exact List.dropLast_sublist l
  | update now =>
    rw [charges_update h]
    exact .gone (hpop now _)
  | updateCharge c now =>
    obtain rfl := Option.some.inj h
    exact requeued_setCharges c (.gone (hpop now _)) d
  | updateCharges playerOwner now =>
    obtain rfl := Option.some.inj h
    unfold updateCharges
    split
    · rw [charges_popAll]
      exact .gone (hpop now _)
    · exact .gone (List.Sublist.refl _)

theorem Requeued.queued {op : ChargeOp} {l l' : List ChargeEntry} (h : Requeued w op c l l')
    (hl : Queued l) : Queued l' := by
  cases h with
  | gone hsub => exact hl.sublist hsub
  | sooner reductionTime hsub => exact (hl.sooner reductionTime).sublist hsub
  | pushed chargeRecovery now hop hpos hself hlast => exact hl.push hself hlast

/-- Whatever the maximum is at each call, the queues stay in order. -/
theorem queued_run {ops : List (ChargeWorld × ChargeOp)}
    {ok : SpellHistory → ChargeWorld × ChargeOp → Prop} (h : ∀ c, Queued (s.charges c))
    (hrun : Run (fun s op t => s.chargeStep op.1 op.2 = some t) ok s ops t) (c : Nat) :
    Queued (t.charges c) := by
  refine hrun.invariant (fun s => ∀ c, Queued (s.charges c)) h (fun s op t hs _ hstep d => ?_) c
  exact (chargeStep_requeued hstep d).queued (hs d)

def NoneTooLong (w : ChargeWorld) (s : SpellHistory) : Prop :=
  ∀ c, ((s.charges c).length : Int) ≤ max (w.getMaxCharges c) 0

theorem NoneTooLong.length_bmod (h : NoneTooLong w s) (c : Nat) :
    ((s.charges c).length : Int).bmod (2 ^ 32) = (s.charges c).length := by
  have hle := h c
  have hmax : w.getMaxCharges c < 2 ^ 31 := by
    unfold ChargeWorld.getMaxCharges
    cases w.MaxCharges c with
    | none => exact (by decide : (0 : Int) < 2 ^ 31)
    | some charges =>
      have hlt := Int.bmod_lt (x := charges.toInt + w.modMaxCharges c) (m := 2 ^ 32) (by decide)
      simpa using hlt
  exact Int.bmod_eq_of_le (by omega) (by omega)

/-- Where a charge can be consumed, there is room for one more in the queue. -/
theorem NoneTooLong.room (h : NoneTooLong w s) (hpos : 0 < w.getMaxCharges c)
    (hhas : s.hasCharge w c = true) : ((s.charges c).length : Int) < w.getMaxCharges c := by
  have hmod := h.length_bmod c
  unfold hasCharge at hhas
  cases hentry : w.MaxCharges c with
  | none =>
    rw [ChargeWorld.getMaxCharges, hentry] at hpos
    exact absurd hpos (Int.lt_irrefl 0)
  | some max =>
    simp only [hentry, if_neg (show ¬ w.getMaxCharges c ≤ 0 by omega)] at hhas
    cases hlookup : s.categoryCharges.lookup c with
    | none =>
      rw [charges, hlookup]
      exact hpos
    | some l =>
      rw [charges, hlookup, Option.getD_some] at hmod ⊢
      simp only [hlookup, hmod, decide_eq_true_eq] at hhas
      exact hhas

theorem Requeued.length_le {op : ChargeOp} {l l' : List ChargeEntry} (h : Requeued w op c l l') :
    l'.length ≤ l.length ∨ l'.length = l.length + 1 ∧ 0 < w.getMaxCharges c ∧
      ∃ chargeRecovery now, op = .consumeCharge c chargeRecovery now := by
  cases h with
  | gone hsub => exact .inl hsub.length_le
  | sooner reductionTime hsub => exact .inl (hsub.length_le.trans_eq (List.length_map _))
  | pushed chargeRecovery now hop hpos hself hlast =>
    exact .inr ⟨List.length_append, hpos, chargeRecovery, now, hop⟩

theorem NoneTooLong.step {op : ChargeOp} (h : NoneTooLong w s) (hok : s.ChargeAllowed w op)
    (hstep : s.chargeStep w op = some t) : NoneTooLong w t := by
  intro c
  have hold := h c
  obtain hle | ⟨hmore, hpos, chargeRecovery, now, rfl⟩ := (chargeStep_requeued hstep c).length_le
  · omega
  · have hroom := h.room hpos hok
    omega

theorem noneTooLong_run {ops : List (ChargeWorld × ChargeOp)} (h : NoneTooLong w s)
    (hrun : Run (fun s op t => s.chargeStep op.1 op.2 = some t)
      (fun s op => s.ChargeAllowed op.1 op.2) s ops t) (hops : ∀ op ∈ ops, op.1 = w) :
    NoneTooLong w t := by
  induction hrun with
  | nil s => exact h
  | cons hok hs _ ih =>
    obtain ⟨rfl, hrest⟩ := List.forall_mem_cons.mp hops
    exact ih (h.step hok hs) hrest

/-- The charges in the queue and those that are left are all the charges of the category. -/
theorem NoneTooLong.count (h : NoneTooLong w s) (c : Nat) :
    ((s.charges c).length : Int) + s.getChargeCount w c = max (w.getMaxCharges c) 0 := by
  have hle := h c
  have hmod := h.length_bmod c
  unfold getChargeCount
  cases hentry : w.MaxCharges c with
  | none =>
    have hzero : w.getMaxCharges c = 0 := by rw [ChargeWorld.getMaxCharges, hentry]
    simp only
    omega
  | some max =>
    simp only
    by_cases hpos : w.getMaxCharges c ≤ 0
    · rw [if_pos hpos]
      omega
    · rw [if_neg hpos]
      cases hlookup : s.categoryCharges.lookup c with
      | none =>
        rw [charges, hlookup]
        simp only [Option.getD_none, List.length_nil]
        omega
      | some l =>
        rw [charges, hlookup, Option.getD_some] at hle hmod ⊢
        simp only [hmod]
        omega

/-- In every run in which charges are consumed only while there are some, the queue of a category
is in order, whatever the maximum is at each call, and popping from its front leaves nothing
expired. While the maximum stays, the queue makes it up with the charges that are left (none where
auras leave a negative maximum). -/
theorem charges_in_order {s t : SpellHistory} {ops : List (ChargeWorld × ChargeOp)}
    (h : ∀ c, Queued (s.charges c)) (hrun : Run (fun s op t => s.chargeStep op.1 op.2 = some t)
      (fun s op => s.ChargeAllowed op.1 op.2) s ops t) (c : Nat) :
    ((t.charges c).Pairwise fun a b => a.RechargeEnd ≤ b.RechargeEnd) ∧
    ((t.charges c).Pairwise fun a b => a.RechargeEnd ≤ b.RechargeStart) ∧
    (∀ now, popExpired now (t.charges c) =
      (t.charges c).filter fun charge => decide (now < charge.RechargeEnd)) ∧
    ∀ w, NoneTooLong w s → (∀ op ∈ ops, op.1 = w) →
      ((t.charges c).length : Int) + t.getChargeCount w c = max (w.getMaxCharges c) 0 := by
  have hqueued := queued_run h hrun c
  exact ⟨hqueued.ends, hqueued.order, hqueued.popExpired_eq, fun w hstart hops =>
    (noneTooLong_run hstart hrun hops).count c⟩

def oneCategory (maxCharges : BitVec 8) : ChargeWorld where
  MaxCharges c := if c = 1 then some maxCharges else none
  modMaxCharges _ := 0

/-- Two charges are consumed, and the first is there again after six seconds. -/
theorem charges_in_order_two :
    ∃ t, Run (fun s op t => SpellHistory.chargeStep op.1 s op.2 = some t)
        (fun s op => SpellHistory.ChargeAllowed op.1 s op.2) {}
        [(oneCategory 2, .consumeCharge 1 6000 0),
          (oneCategory 2, .consumeCharge 1 9000 1000000000),
          (oneCategory 2, .update 6000000000)] t ∧
      t.charges 1 = [⟨6000000000, 15000000000⟩] ∧
      ((t.charges 1).length : Int) + t.getChargeCount (oneCategory 2) 1 =
        max ((oneCategory 2).getMaxCharges 1) 0 := by
  have hrun : Run (fun s (op : ChargeWorld × ChargeOp) t =>
        SpellHistory.chargeStep op.1 s op.2 = some t)
      (fun s op => SpellHistory.ChargeAllowed op.1 s op.2) {}
      [(oneCategory 2, .consumeCharge 1 6000 0), (oneCategory 2, .consumeCharge 1 9000 1000000000),
        (oneCategory 2, .update 6000000000)] _ :=
    .cons rfl rfl (.cons rfl rfl (.cons trivial rfl (.nil _)))
  refine ⟨_, hrun, by decide, ?_⟩
  exact (@charges_in_order {} _ _ (fun _ => Queued.nil) hrun 1).2.2.2 (oneCategory 2)
    (fun c => Int.le_max_right _ _) (by simp)

/-- A negative maximum is not the number of any charges. -/
theorem charges_negative :
    ∃ t, Run (fun s op t => SpellHistory.chargeStep (oneCategory (-1)) s op = some t)
        (fun s op => s.ChargeAllowed (oneCategory (-1)) op) {} [.consumeCharge 1 6000 0] t ∧
      ((t.charges 1).length : Int) + t.getChargeCount (oneCategory (-1)) 1 ≠
        (oneCategory (-1)).getMaxCharges 1 := by
  refine ⟨_, .cons rfl rfl (.nil _), by decide⟩

end SpellHistory

end Ashamane.Spells
