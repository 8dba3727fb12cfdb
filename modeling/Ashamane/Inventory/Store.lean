import Ashamane.Inventory.CanStore
import Mathlib.Logic.Function.Basic

/-! Placing an item, and what is in the places. -/
namespace Ashamane.Inventory
namespace Player

/-- A slot of the player where there is no bag, as in `_StoreItem`. -/
def setItemByPos (p : Player) (bag slot : Nat) (it : Option Item) : Player :=
  match (if bag = inventorySlotBag0 then none else p.getBagByPos bag) with
  | none => { p with items := Function.update p.items slot it }
  | some (b, _) =>
    { p with bagSlots :=
        Function.update p.bagSlots b.guid (Function.update (p.bagSlots b.guid) slot it) }

/-! The places of the backpack and of the bags that are worn. -/

def backpack (p : Player) : List Place :=
  (slots inventorySlotItemStart p.inventoryEnd).map fun slot => (inventorySlotBag0, slot)

def bagPlaces (p : Player) (stores : Stores) (which : Option ItemTemplate → Bool) (bag : Nat) :
    List Place :=
  match p.getBagByPos bag with
  | some (b, size) =>
    if which (stores.itemTemplate b.entry) then (List.range size).map fun j => (bag, j) else []
  | none => []

def wornPlaces (p : Player) (stores : Stores) (which : Option ItemTemplate → Bool) : List Place :=
  (slots inventorySlotBagStart inventorySlotBagEnd).flatMap (p.bagPlaces stores which)

def isPlain (bagProto : ItemTemplate) : Bool := bagProto.cls == .container .container

end Player
end Ashamane.Inventory

/-! Places and what is in them: putting an item into one place changes no other place. -/
namespace Ashamane.Inventory
namespace Player

variable {p p' : Player} {place : Place}

def itemOn (p : Player) (place : Place) : Option Item := p.getItemByPos place.1 place.2

def DistinctBags (p : Player) : Prop :=
  ∀ bag bag' b b' size size', p.getBagByPos bag = some (b, size) →
    p.getBagByPos bag' = some (b', size') → b.guid = b'.guid → bag = bag'

def IsBagSlot (slot : Nat) : Prop :=
  (inventorySlotBagStart ≤ slot ∧ slot < inventorySlotBagEnd) ∨
    (bankSlotBagStart ≤ slot ∧ slot < bankSlotBagEnd)

theorem getBagByPos_some {bag size : Nat} {b : Item} (h : p.getBagByPos bag = some (b, size)) :
    p.itemOn (inventorySlotBag0, bag) = some b ∧ size ≤ maxBagSize ∧ IsBagSlot bag := by
  unfold getBagByPos at h
  split at h
  · next hslot =>
    unfold itemOn getItemByPos
    rw [if_pos rfl]
    cases hi : p.getItem bag with
    | none =>
      rw [hi] at h
      cases h
    | some i =>
      cases hn : i.bagSize with
      | none =>
        rw [hi] at h
        simp [hn] at h
      | some n =>
        rw [hi] at h
        simp only [Option.bind_eq_bind, Option.bind_some, hn, Option.pure_def, Option.some.injEq,
          Prod.mk.injEq] at h
        obtain ⟨rfl, rfl⟩ := h
        exact ⟨rfl, Nat.lt_succ_iff.mp n.isLt, hslot⟩
  · cases h

theorem getBagByPos_of_items (h : ∀ slot, IsBagSlot slot → p'.items slot = p.items slot)
    (bag : Nat) : p'.getBagByPos bag = p.getBagByPos bag := by
  unfold getBagByPos getItem
  split
  · next hbag => rw [h bag hbag]
  · rfl

theorem set_of_bag0 (h : place.1 = inventorySlotBag0) (it : Option Item) :
    p.setItemByPos place.1 place.2 it = { p with items := Function.update p.items place.2 it } := by
  unfold setItemByPos
  rw [if_pos h]

theorem set_of_bag (h : place.1 ≠ inventorySlotBag0) {b : Item} {size : Nat}
    (hb : p.getBagByPos place.1 = some (b, size)) (it : Option Item) :
    p.setItemByPos place.1 place.2 it = { p with
      bagSlots :=
        Function.update p.bagSlots b.guid (Function.update (p.bagSlots b.guid) place.2 it) } := by
  unfold setItemByPos
  rw [if_neg h, hb]

def IsPlace (p : Player) (place : Place) : Prop :=
  (place.1 = inventorySlotBag0 ∧ place.2 < playerSlotEnd ∧
    (place.2 < buybackSlotStart ∨ buybackSlotEnd ≤ place.2)) ∨
  (place.1 ≠ inventorySlotBag0 ∧ ∃ b size, p.getBagByPos place.1 = some (b, size) ∧ place.2 < size)

/-- The frame of a store that leaves the bags where they are: one place changes. -/
theorem itemOn_set_of (hbags : p.DistinctBags) (h : p.IsPlace place) {it : Option Item}
    (hkept : ∀ bag, (p.setItemByPos place.1 place.2 it).getBagByPos bag = p.getBagByPos bag)
    (other : Place) :
    (p.setItemByPos place.1 place.2 it).itemOn other = if other = place then it else p.itemOn other := by
  obtain ⟨ob, os⟩ := other
  unfold itemOn getItemByPos
  simp only [hkept ob]
  obtain ⟨hbag, hrange⟩ | ⟨hbag, b, size, hb, hsize⟩ := h
  · rw [set_of_bag0 hbag]
    by_cases ho : ob = inventorySlotBag0
    · rw [if_pos ho, if_pos ho]
      unfold getItem
      dsimp only
      by_cases hs : os = place.2
      · have heq : (ob, os) = place := Prod.ext (ho.trans hbag.symm) hs
        rw [if_pos heq, if_pos (hs ▸ hrange), hs, Function.update_self]
      · have hne : (ob, os) ≠ place := fun heq => hs (congr_arg Prod.snd heq)
        rw [if_neg hne, Function.update_of_ne hs]
    · have hne : (ob, os) ≠ place := fun heq => ho ((congr_arg Prod.fst heq).trans hbag)
      rw [if_neg ho, if_neg ho, if_neg hne]
  · rw [set_of_bag hbag hb]
    by_cases ho : ob = inventorySlotBag0
    · have hne : (ob, os) ≠ place := fun heq => hbag ((congr_arg Prod.fst heq).symm.trans ho)
      rw [if_pos ho, if_pos ho, if_neg hne]
      rfl
    · rw [if_neg ho, if_neg ho]
      cases hob : p.getBagByPos ob with
      | none =>
        have hne : (ob, os) ≠ place := by
          rintro heq
          rw [show ob = place.1 from congr_arg Prod.fst heq, hb] at hob
          cases hob
        rw [if_neg hne]
      | some r =>
        obtain ⟨b', size'⟩ := r
        simp only
        by_cases hb' : ob = place.1
        · have hsame : (b', size') = (b, size) := by
            rw [hb', hb] at hob
            exact (Option.some.inj hob).symm
          cases hsame
          rw [Function.update_self]
          by_cases hs : os = place.2
          · rw [if_pos (hs ▸ hsize), if_pos (Prod.ext hb' hs), hs, Function.update_self]
          · have hne : (ob, os) ≠ place := fun heq => hs (congr_arg Prod.snd heq)
            rw [if_neg hne, Function.update_of_ne hs]
        · have hne : (ob, os) ≠ place := fun heq => hb' (congr_arg Prod.fst heq)
          have hguid : b'.guid ≠ b.guid := fun heq => hb' (hbags _ _ _ _ _ _ hob hb heq)
          rw [if_neg hne, Function.update_of_ne hguid]

end Player
end Ashamane.Inventory
