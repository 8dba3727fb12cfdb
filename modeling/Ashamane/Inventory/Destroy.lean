import Ashamane.Inventory.Search
import Ashamane.Lib.Count
import Mathlib.Algebra.BigOperators.Group.List.Basic

/-! How many items of an entry a player carries, and taking some of them away. -/
namespace Ashamane.Inventory

def Item.isCounted (it : Item) (entry : Nat) : Bool := it.entry == entry && !it.isInTrade

namespace Player

/-- The loops of `HasItemCount`, which return as soon as the count is reached. -/
def hasItemCountFrom (entry : Nat) (count : BitVec 32) : List (Option Item) → BitVec 32 → Bool
  | [], _ => false
  | it :: items, tempcount =>
    match it.filter (·.isCounted entry) with
    | none => hasItemCountFrom entry count items tempcount
    | some it =>
      let tempcount := tempcount + BitVec.ofNat 32 it.count
      if count ≤ tempcount then true else hasItemCountFrom entry count items tempcount

def hasItemCount (p : Player) (entry : Nat) (count : BitVec 32) (inBankAlso : Bool) : Bool :=
  hasItemCountFrom entry count
    (p.range 0 p.inventoryEnd ++ p.bags inventorySlotBagStart inventorySlotBagEnd ++
      (if inBankAlso then
        p.range bankSlotItemStart bankSlotBagEnd ++ p.bags bankSlotBagStart bankSlotBagEnd
      else []) ++
      p.range reagentSlotStart reagentSlotEnd ++
      p.range childEquipmentSlotStart childEquipmentSlotEnd) 0

/-- The slot of the player, or `RemoveItem` of the bag if there is one. -/
def clearPos (p : Player) (bag slot : Nat) : Player :=
  if bag = inventorySlotBag0 then { p with items := Function.update p.items slot none }
  else
    match p.getBagByPos bag with
    | some (b, _) =>
      { p with bagSlots :=
          Function.update p.bagSlots b.guid (Function.update (p.bagSlots b.guid) slot none) }
    | none => p

/-- The first number is the depth to which bags that are not empty are followed. -/
def destroyItem : Nat → Nat → Nat → Player → Player
  | 0, bag, slot, p => if (p.getItemByPos bag slot).isSome then p.clearPos bag slot else p
  | nested + 1, bag, slot, p =>
    match p.getItemByPos bag slot with
    | none => p
    | some it =>
      let p :=
        if p.isNotEmptyBag it then
          -- the slot is the bag of what is in it, also when it is itself in a bag
          (List.range maxBagSize).foldl (fun p i => destroyItem nested slot i p) p
        else p
      p.clearPos bag slot

/-- `DestroyItemCount` on its way: what it took, and whether it has returned. -/
structure Taking where
  player : Player
  remcount : BitVec 32 := 0
  done : Bool := false

variable (nested entry : Nat) (count : BitVec 32)

/-- The body of the loops. An item may be kept where the unequip check fails. -/
def takeAt (mayTake : Player → Nat → Bool) (bag : Nat) (s : Taking) (slot : Nat) : Taking :=
  if s.done then s
  else
    match s.player.getItemByPos bag slot with
    | none => s
    | some it =>
      if it.isCounted entry then
        if BitVec.ofNat 32 it.count + s.remcount ≤ count then
          if mayTake s.player slot then
            let remcount := s.remcount + BitVec.ofNat 32 it.count
            ⟨destroyItem nested bag slot s.player, remcount, count ≤ remcount⟩
          else s
        else
          let left := BitVec.ofNat 32 it.count - count + s.remcount
          { s with
            player := s.player.setItemByPos bag slot (some { it with count := left.toNat })
            done := true }
      else s

def takeSlots (mayTake : Player → Nat → Bool) (a b : Nat) (s : Taking) : Taking :=
  (slots a b).foldl (takeAt nested entry count mayTake inventorySlotBag0) s

def takeBag (s : Taking) (bag : Nat) : Taking :=
  match s.player.getBagByPos bag with
  | some (_, size) =>
    (List.range size).foldl (takeAt nested entry count (fun _ _ => true) bag) s
  | none => s

def takeBags (a b : Nat) (s : Taking) : Taking := (slots a b).foldl (takeBag nested entry count) s

/-- `canUnequip` is the answer of `CanUnequipItem` for a slot of the player. -/
def destroyItemCount (unequipCheck : Bool) (canUnequip : Player → Nat → Bool) (p : Player) : Player :=
  let always := fun _ _ => true
  let worn := fun p slot => !unequipCheck || canUnequip p slot
  let s := takeSlots nested entry count always inventorySlotItemStart p.inventoryEnd { player := p }
  let s := takeBags nested entry count inventorySlotBagStart inventorySlotBagEnd s
  let s := takeSlots nested entry count worn 0 inventorySlotBagEnd s
  let s := takeSlots nested entry count always bankSlotItemStart bankSlotItemEnd s
  let s := takeBags nested entry count bankSlotBagStart bankSlotBagEnd s
  let s := takeSlots nested entry count worn bankSlotBagStart bankSlotBagEnd s
  let s := takeSlots nested entry count always reagentSlotStart reagentSlotEnd s
  (takeSlots nested entry count always childEquipmentSlotStart childEquipmentSlotEnd s).player

/-! What a player carries, and what may change. -/

def amountOf (it : Option Item) : Nat := ((it.filter (·.isCounted entry)).map Item.count).getD 0

def carried (p : Player) : Nat := (p.allItems.map (amountOf entry)).sum

def NoBags (p : Player) : Prop :=
  ∀ place it, p.itemOn place = some it → it.entry = entry → it.bagSize = none

def Fits (p : Player) : Prop :=
  p.carried entry < 0x100000000 ∨
    ∀ it ∈ p.allItems, count.toNat + amountOf entry it ≤ 0x100000000

def Lowered (old new : Option Item) : Prop :=
  new = old ∨ ∃ it, old = some it ∧ it.isCounted entry = true ∧
    (new = none ∨ ∃ c, 0 < c ∧ c < it.count ∧ new = some { it with count := c })

structure Spares (p p' : Player) : Prop where
  items : ∀ slot, Lowered entry (p.items slot) (p'.items slot)
  bagSlots : ∀ guid slot, Lowered entry (p.bagSlots guid slot) (p'.bagSlots guid slot)
  rest : p' = { p with items := p'.items, bagSlots := p'.bagSlots }

variable {nested entry : Nat} {count : BitVec 32} {p p' : Player} {place : Place} {it : Item}

theorem Lowered.trans {old mid new : Option Item} (h : Lowered entry old mid)
    (h' : Lowered entry mid new) : Lowered entry old new := by
  obtain rfl | ⟨it, rfl, hcounted, rfl | ⟨c, hpos, hlt, rfl⟩⟩ := h
  · exact h'
  · obtain rfl | ⟨_, hnone, -⟩ := h'
    · exact .inr ⟨it, rfl, hcounted, .inl rfl⟩
    · cases hnone
  · refine .inr ⟨it, rfl, hcounted, ?_⟩
    obtain rfl | ⟨_, hsome, -, rfl | ⟨c', hpos', hlt', rfl⟩⟩ := h'
    · exact .inr ⟨c, hpos, hlt, rfl⟩
    · exact .inl rfl
    · cases hsome
      exact .inr ⟨c', hpos', Nat.lt_trans hlt' hlt, rfl⟩

theorem amountOf_counted (h : it.isCounted entry = true) : amountOf entry (some it) = it.count := by
  rw [amountOf, Option.filter_some, if_pos h]
  rfl

theorem amountOf_not_counted {it : Option Item} (h : it.filter (·.isCounted entry) = none) :
    amountOf entry it = 0 := by
  rw [amountOf, h]
  rfl

theorem NoBags.bagSize (h : p.NoBags entry) (hitem : p.itemOn place = some it)
    (hcounted : it.isCounted entry = true) : it.bagSize = none := by
  unfold Item.isCounted at hcounted
  rw [Bool.and_eq_true, beq_iff_eq] at hcounted
  exact h place it hitem hcounted.1

/-! One place is emptied, or its stack gets smaller. -/

theorem isPlace_of_itemOn (h : p.itemOn place = some it) : p.IsPlace place := by
  unfold itemOn getItemByPos at h
  split at h
  · rename_i hbag
    unfold getItem at h
    split at h
    · rename_i hslot
      exact .inl ⟨hbag, hslot⟩
    · cases h
  · rename_i hbag
    split at h
    · rename_i b size hb
      split at h
      · rename_i hslot
        exact .inr ⟨hbag, b, size, hb, hslot⟩
      · cases h
    · cases h

theorem getBagByPos_replace (hitem : p.itemOn place = some it) (hit : it.bagSize = none)
    {new : Option Item} (hnew : ∀ n, new = some n → n.bagSize = none) (bag : Nat) :
    (p.setItemByPos place.1 place.2 new).getBagByPos bag = p.getBagByPos bag := by
  obtain ⟨hbag, hslot⟩ | ⟨hbag, b, size, hb, -⟩ := isPlace_of_itemOn hitem
  · rw [set_of_bag0 hbag]
    unfold itemOn getItemByPos getItem at hitem
    rw [if_pos hbag, if_pos hslot] at hitem
    unfold getBagByPos getItem
    dsimp only
    by_cases heq : bag = place.2
    · rw [heq, Function.update_self, hitem, if_pos hslot, if_pos hslot]
      cases new with
      | none => simp [hit]
      | some n => simp [hit, hnew n rfl]
    · rw [Function.update_of_ne heq]
  · rw [set_of_bag hbag hb]
    exact getBagByPos_of_items (fun _ _ => rfl) bag

theorem destroyItem_eq (hitem : p.itemOn place = some it) (hit : it.bagSize = none) :
    destroyItem nested place.1 place.2 p = p.setItemByPos place.1 place.2 none := by
  have hclear : p.clearPos place.1 place.2 = p.setItemByPos place.1 place.2 none := by
    obtain ⟨hbag, -⟩ | ⟨hbag, b, size, hb, -⟩ := isPlace_of_itemOn hitem
    · rw [clearPos, if_pos hbag, set_of_bag0 hbag]
    · rw [clearPos, if_neg hbag, hb, set_of_bag hbag hb]
  have hempty : p.isNotEmptyBag it = false := by
    rw [isNotEmptyBag, hit]
    rfl
  rw [← hclear]
  unfold itemOn at hitem
  cases nested with
  | zero => rw [destroyItem, hitem, Option.isSome_some, if_pos rfl]
  | succ nested =>
    rw [destroyItem, hitem]
    simp only [hempty, Bool.false_eq_true, if_false]

theorem spares_set (hitem : p.itemOn place = some it) {new : Option Item}
    (hnew : Lowered entry (some it) new) :
    Spares entry p (p.setItemByPos place.1 place.2 new) := by
  obtain ⟨hbag, hslot⟩ | ⟨hbag, b, size, hb, hslot⟩ := isPlace_of_itemOn hitem
  · rw [set_of_bag0 hbag]
    unfold itemOn getItemByPos getItem at hitem
    rw [if_pos hbag, if_pos hslot] at hitem
    refine ⟨fun slot => ?_, fun _ _ => .inl rfl, rfl⟩
    dsimp only
    by_cases heq : slot = place.2
    · rw [heq, hitem, Function.update_self]
      exact hnew
    · rw [Function.update_of_ne heq]
      exact .inl rfl
  · rw [set_of_bag hbag hb]
    unfold itemOn getItemByPos at hitem
    rw [if_neg hbag, hb] at hitem
    simp only [if_pos hslot] at hitem
    refine ⟨fun _ => .inl rfl, fun guid slot => ?_, rfl⟩
    dsimp only
    by_cases heq : guid = b.guid
    · rw [heq, Function.update_self]
      by_cases heq' : slot = place.2
      · rw [heq', hitem, Function.update_self]
        exact hnew
      · rw [Function.update_of_ne heq']
        exact .inl rfl
    · rw [Function.update_of_ne heq]
      exact .inl rfl

theorem Spares.refl (p : Player) : Spares entry p p := ⟨fun _ => .inl rfl, fun _ _ => .inl rfl, rfl⟩

theorem Spares.trans {q : Player} (h : Spares entry p q) (h' : Spares entry q p') :
    Spares entry p p' := by
  refine ⟨fun slot => (h.items slot).trans (h'.items slot),
    fun guid slot => (h.bagSlots guid slot).trans (h'.bagSlots guid slot), ?_⟩
  rw [h'.rest, h.rest]

/-! The places in the order in which they are visited. -/

def contents (p : Player) (bag : Nat) : List Place :=
  match p.getBagByPos bag with
  | some (_, size) => (List.range size).map fun slot => (bag, slot)
  | none => []

def inBags (p : Player) (a b : Nat) : List Place := (slots a b).flatMap p.contents

def visited (p : Player) : List Place :=
  slotPlaces inventorySlotItemStart p.inventoryEnd ++
    p.inBags inventorySlotBagStart inventorySlotBagEnd ++ slotPlaces 0 inventorySlotBagEnd ++
    slotPlaces bankSlotItemStart bankSlotItemEnd ++ p.inBags bankSlotBagStart bankSlotBagEnd ++
    slotPlaces bankSlotBagStart bankSlotBagEnd ++ slotPlaces reagentSlotStart reagentSlotEnd ++
    slotPlaces childEquipmentSlotStart childEquipmentSlotEnd

theorem mem_contents {bag : Nat} : place ∈ p.contents bag ↔
    place.1 = bag ∧ ∃ b size, p.getBagByPos bag = some (b, size) ∧ place.2 < size := by
  unfold contents
  cases hb : p.getBagByPos bag with
  | none => simp
  | some r =>
    obtain ⟨b, size⟩ := r
    simp only [List.mem_map, List.mem_range, Option.some.injEq, Prod.mk.injEq]
    constructor
    · rintro ⟨slot, hslot, rfl⟩
      exact ⟨rfl, b, size, ⟨rfl, rfl⟩, hslot⟩
    · rintro ⟨hbag, _, _, ⟨rfl, rfl⟩, hslot⟩
      exact ⟨place.2, hslot, Prod.ext hbag.symm rfl⟩

theorem mem_inBags {a b : Nat} : place ∈ p.inBags a b ↔ (a ≤ place.1 ∧ place.1 < b) ∧
    ∃ bag size, p.getBagByPos place.1 = some (bag, size) ∧ place.2 < size := by
  unfold inBags
  simp only [List.mem_flatMap, mem_slots, mem_contents]
  constructor
  · rintro ⟨bag, hbag, rfl, hrest⟩
    exact ⟨hbag, hrest⟩
  · rintro ⟨hbag, hrest⟩
    exact ⟨place.1, hbag, rfl, hrest⟩

theorem nodup_inBags (a b : Nat) : (p.inBags a b).Nodup := by
  unfold inBags
  rw [List.nodup_flatMap]
  constructor
  · intro bag _
    unfold contents
    split
    · exact List.Nodup.map (fun _ _ h => congr_arg Prod.snd h) List.nodup_range
    · exact List.nodup_nil
  · refine List.Pairwise.imp ?_ (List.nodup_iff_pairwise_ne.mp List.nodup_range')
    intro bag bag' hne place h h'
    exact hne ((mem_contents.mp h).1.symm.trans (mem_contents.mp h').1)

theorem slotPlaces_append {a b c : Nat} (hab : a ≤ b) (hbc : b ≤ c) :
    slotPlaces a c = slotPlaces a b ++ slotPlaces b c := by
  have hlen : c - a = b - a + (c - b) := by omega
  have hsplit := @List.range'_append_1 a (b - a) (c - b)
  rw [Nat.add_sub_cancel' hab] at hsplit
  unfold slotPlaces slots
  rw [hlen, ← hsplit, List.map_append]

theorem range_eq (a b : Nat) : p.range a b = (slotPlaces a b).map p.itemOn := by
  rw [range, slotPlaces, List.map_map]
  rfl

theorem bags_eq {a b : Nat} (h : b ≤ inventorySlotBag0) :
    p.bags a b = (p.inBags a b).map p.itemOn := by
  rw [bags, inBags, List.map_flatMap]
  refine List.flatMap_congr fun bag hbag => ?_
  have hne : bag ≠ inventorySlotBag0 := Nat.ne_of_lt (Nat.lt_of_lt_of_le (mem_slots.mp hbag).2 h)
  unfold contents
  cases hb : p.getBagByPos bag with
  | none => rfl
  | some r =>
    obtain ⟨b, size⟩ := r
    simp only [List.map_map]
    refine List.map_congr_left fun slot hslot => ?_
    simp only [Function.comp, itemOn, getItemByPos, if_neg hne, hb,
      if_pos (List.mem_range.mp hslot)]

theorem visited_perm (p : Player) : (p.visited.map p.itemOn).Perm p.allItems := by
  have hinventory : slotPlaces 0 p.inventoryEnd =
      slotPlaces 0 inventorySlotBagEnd ++ slotPlaces inventorySlotItemStart p.inventoryEnd :=
    slotPlaces_append (Nat.zero_le _) (Nat.le_add_right _ _)
  have hbank : slotPlaces bankSlotItemStart bankSlotBagEnd =
      slotPlaces bankSlotItemStart bankSlotItemEnd ++ slotPlaces bankSlotBagStart bankSlotBagEnd :=
    slotPlaces_append (by decide) (by decide)
  unfold visited allItems
  rw [range_eq, range_eq, range_eq, range_eq, bags_eq (by decide), bags_eq (by decide), hinventory,
    hbank]
  refine List.perm_iff_count.mpr fun it => ?_
  simp only [List.map_append, List.count_append]
  omega

theorem nodup_visited (p : Player) : p.visited.Nodup := by
  have hinventory : p.inventoryEnd ≤ bankSlotItemStart := by
    have := p.inventorySlotCount.isLt
    unfold inventoryEnd inventorySlotItemStart bankSlotItemStart
    omega
  unfold visited
  simp only [List.nodup_append', List.disjoint_append_left, nodup_slotPlaces, nodup_inBags, true_and]
  have hown : ∀ a b c d, b ≤ c ∨ d ≤ a → List.Disjoint (slotPlaces a b) (slotPlaces c d) := by
    intro a b c d hapart place h h'
    rw [mem_slotPlaces] at h h'
    omega
  have hbag : ∀ a b c d, b ≤ inventorySlotBag0 → List.Disjoint (p.inBags a b) (slotPlaces c d) := by
    intro a b c d hlt place h h'
    rw [mem_inBags] at h
    rw [mem_slotPlaces] at h'
    omega
  have hbag' : ∀ a b c d, b ≤ inventorySlotBag0 → List.Disjoint (slotPlaces c d) (p.inBags a b) :=
    fun a b c d hlt => (hbag a b c d hlt).symm
  have hbags : ∀ a b c d, b ≤ c → List.Disjoint (p.inBags a b) (p.inBags c d) := by
    intro a b c d hlt place h h'
    rw [mem_inBags] at h h'
    omega
  unfold inventorySlotItemStart inventorySlotBagStart inventorySlotBagEnd bankSlotItemStart
    bankSlotItemEnd bankSlotBagStart bankSlotBagEnd reagentSlotStart reagentSlotEnd
    childEquipmentSlotStart childEquipmentSlotEnd inventorySlotBag0 at *
  simp (disch := omega) only [hown, hbag, hbag', hbags, and_self]

/-! What the loops have done after the places of a list. -/

def amounts (entry : Nat) (p : Player) (l : List Place) : Nat :=
  (l.map fun place => amountOf entry (p.itemOn place)).sum

@[simp] theorem amounts_append (l l' : List Place) :
    p.amounts entry (l ++ l') = p.amounts entry l + p.amounts entry l' := by
  simp [amounts]

@[simp] theorem amounts_singleton (place : Place) :
    p.amounts entry [place] = amountOf entry (p.itemOn place) := by
  simp [amounts]

def FitsAt (entry : Nat) (count : BitVec 32) (p : Player) (l : List Place) : Prop :=
  p.amounts entry l < 0x100000000 ∨
    ∀ place ∈ l, count.toNat + amountOf entry (p.itemOn place) ≤ 0x100000000

theorem FitsAt.left {l l' : List Place} (h : FitsAt entry count p (l ++ l')) :
    FitsAt entry count p l := by
  obtain h | h := h
  · rw [amounts_append] at h
    exact .inl (by omega)
  · exact .inr fun place hplace => h place (List.mem_append_left _ hplace)

/-- From `p` on the places of the list were visited. -/
structure Took (entry : Nat) (count : BitVec 32) (p : Player) (l : List Place) (s : Taking) :
    Prop where
  spares : Spares entry p s.player
  bags : ∀ bag, s.player.getBagByPos bag = p.getBagByPos bag
  outside : ∀ place, place ∉ l → s.player.itemOn place = p.itemOn place
  going : s.done = false → s.remcount.toNat = p.amounts entry l ∧
    p.amounts entry l < count.toNat ∧ s.player.amounts entry l = 0
  returned : s.done = true → s.player.amounts entry l + count.toNat = p.amounts entry l

variable {l : List Place} {s t : Taking}

theorem Took.init (hcount : count ≠ 0) : Took entry count p [] { player := p } := by
  refine ⟨Spares.refl p, fun _ => rfl, fun _ _ => rfl, fun _ => ⟨rfl, ?_, rfl⟩, nofun⟩
  exact Nat.pos_of_ne_zero fun h => hcount (BitVec.eq_of_toNat_eq h)

theorem Took.skip (h : Took entry count p l s) (hplace : place ∉ l)
    (hskip : s.done = true ∨ amountOf entry (p.itemOn place) = 0) :
    Took entry count p (l ++ [place]) s := by
  refine ⟨h.spares, h.bags, fun other hother => ?_, fun hgo => ?_, fun hdone => ?_⟩
  · exact h.outside other fun hin => hother (List.mem_append_left _ hin)
  · obtain hdone | hzero := hskip
    · rw [hdone] at hgo
      cases hgo
    · rw [amounts_append, amounts_append, amounts_singleton, amounts_singleton,
        h.outside place hplace, hzero]
      exact h.going hgo
  · rw [amounts_append, amounts_append, amounts_singleton, amounts_singleton,
      h.outside place hplace, ← h.returned hdone]
    omega

theorem Took.replace (hbags : p.DistinctBags) (hentry : p.NoBags entry) (h : Took entry count p l s)
    (hplace : place ∉ l) (hgoing : s.done = false) (hitem : p.itemOn place = some it)
    (hcounted : it.isCounted entry = true) {new : Option Item}
    (hnew : new = none ∨ ∃ c, 0 < c ∧ c < it.count ∧ new = some { it with count := c })
    (hplayer : t.player = s.player.setItemByPos place.1 place.2 new)
    (hgo : t.done = false → new = none ∧ t.remcount.toNat = p.amounts entry l + it.count ∧
      p.amounts entry l + it.count < count.toNat)
    (hstop : t.done = true → amountOf entry new + count.toNat = p.amounts entry l + it.count) :
    Took entry count p (l ++ [place]) t := by
  have hit := hentry.bagSize hitem hcounted
  have hhere : s.player.itemOn place = some it := (h.outside place hplace).trans hitem
  have hnobag : ∀ n, new = some n → n.bagSize = none := by
    rintro n rfl
    obtain hnone | ⟨c, -, -, hsome⟩ := hnew
    · cases hnone
    · cases hsome
      exact hit
  have hkept := getBagByPos_replace hhere hit hnobag
  have hdistinct : s.player.DistinctBags := by
    intro bag bag' b b' size size' hb hb'
    rw [h.bags] at hb hb'
    exact hbags bag bag' b b' size size' hb hb'
  have hon := itemOn_set_of hdistinct (isPlace_of_itemOn hhere) hkept
  rw [← hplayer] at hon hkept
  have hbefore : t.player.amounts entry l = s.player.amounts entry l := by
    refine congrArg List.sum (List.map_congr_left fun other hother => ?_)
    rw [hon, if_neg (ne_of_mem_of_not_mem hother hplace)]
  have hzero := (h.going hgoing).2.2
  refine ⟨h.spares.trans ?_, fun bag => (hkept bag).trans (h.bags bag), fun other hother => ?_,
    fun hdone => ?_, fun hdone => ?_⟩
  · rw [hplayer]
    exact spares_set hhere (.inr ⟨it, rfl, hcounted, hnew⟩)
  · rw [List.mem_append, List.mem_singleton, not_or] at hother
    rw [hon, if_neg hother.2, h.outside other hother.1]
  · obtain ⟨rfl, hrem, hlt⟩ := hgo hdone
    rw [amounts_append, amounts_append, amounts_singleton, amounts_singleton, hitem,
      amountOf_counted hcounted, hon, if_pos rfl, hbefore, hzero]
    exact ⟨hrem, hlt, rfl⟩
  · rw [amounts_append, amounts_append, amounts_singleton, amounts_singleton, hitem,
      amountOf_counted hcounted, hon, if_pos rfl, hbefore, hzero, Nat.zero_add]
    exact hstop hdone

theorem Took.takeAt (hbags : p.DistinctBags) (hentry : p.NoBags entry)
    (h : Took entry count p l s) (hplace : place ∉ l)
    (hfits : FitsAt entry count p (l ++ [place])) :
    Took entry count p (l ++ [place])
      (takeAt nested entry count (fun _ _ => true) place.1 s place.2) := by
  unfold Player.takeAt
  cases hgoing : s.done with
  | true => exact h.skip hplace (.inl hgoing)
  | false =>
    have hhere : s.player.getItemByPos place.1 place.2 = p.itemOn place := h.outside place hplace
    rw [if_neg Bool.false_ne_true, hhere]
    cases hitem : p.itemOn place with
    | none => exact h.skip hplace (.inr (by rw [hitem]; rfl))
    | some it =>
      dsimp only
      by_cases hcounted : it.isCounted entry = true
      · obtain ⟨hrem, hlt, -⟩ := h.going hgoing
        have hsum : p.amounts entry l + it.count < 0x100000000 := by
          obtain hfits | hfits := hfits
          · rwa [amounts_append, amounts_singleton, hitem, amountOf_counted hcounted] at hfits
          · have := hfits place (List.mem_append_right _ List.mem_cons_self)
            rw [hitem, amountOf_counted hcounted] at this
            omega
        have hcount : (BitVec.ofNat 32 it.count).toNat = it.count := by
          rw [BitVec.toNat_ofNat]
          omega
        have hadd : (s.remcount + BitVec.ofNat 32 it.count).toNat =
            p.amounts entry l + it.count := by
          rw [BitVec.toNat_add, hcount, hrem]
          omega
        rw [if_pos hcounted, BitVec.add_comm (BitVec.ofNat 32 it.count)]
        by_cases hle : s.remcount + BitVec.ofNat 32 it.count ≤ count
        · rw [if_pos hle, if_pos rfl]
          rw [BitVec.le_def, hadd] at hle
          have hit := hentry.bagSize hitem hcounted
          refine h.replace hbags hentry hplace hgoing hitem hcounted (.inl rfl)
            (destroyItem_eq (h.outside place hplace ▸ hitem) hit) (fun hgo => ?_) fun hstop => ?_
          · have hmore := of_decide_eq_false hgo
            rw [BitVec.le_def, hadd] at hmore
            exact ⟨rfl, hadd, Nat.not_le.mp hmore⟩
          · have hall := of_decide_eq_true hstop
            rw [BitVec.le_def, hadd] at hall
            rw [amountOf, Option.filter_none]
            exact (Nat.zero_add _).trans (Nat.le_antisymm hall hle)
        · rw [if_neg hle]
          rw [BitVec.le_def, hadd] at hle
          have hleft : (BitVec.ofNat 32 it.count - count + s.remcount).toNat =
              p.amounts entry l + it.count - count.toNat := by
            rw [BitVec.toNat_add, BitVec.toNat_sub, hcount, hrem]
            omega
          refine h.replace hbags hentry hplace hgoing hitem hcounted
            (.inr ⟨_, ?_, ?_, rfl⟩) rfl nofun fun _ => ?_
          · omega
          · omega
          · refine (congrArg (· + count.toNat) (amountOf_counted ?_)).trans ?_
            · exact hcounted
            · dsimp only
              omega
      · rw [if_neg hcounted]
        refine h.skip hplace (.inr (amountOf_not_counted ?_))
        rw [hitem, Option.filter_some, if_neg hcounted]

def Visits (entry : Nat) (count : BitVec 32) (p : Player) (run : Taking → Taking)
    (places : List Place) : Prop :=
  ∀ l s, Took entry count p l s → (l ++ places).Nodup → FitsAt entry count p (l ++ places) →
    Took entry count p (l ++ places) (run s)

theorem Visits.append {run run' : Taking → Taking} {places places' : List Place}
    (h : Visits entry count p run places) (h' : Visits entry count p run' places') :
    Visits entry count p (fun s => run' (run s)) (places ++ places') := by
  intro l s hs hnodup hfits
  rw [← List.append_assoc] at hnodup hfits ⊢
  exact h' _ _ (h l s hs hnodup.of_append_left hfits.left) hnodup hfits

theorem visits_foldl {α : Type*} {f : Taking → α → Taking} {places : α → List Place}
    (h : ∀ a, Visits entry count p (f · a) (places a)) (as : List α) :
    Visits entry count p (as.foldl f) (as.flatMap places) := by
  induction as with
  | nil =>
    intro l s hs _ _
    rw [List.flatMap_nil, List.append_nil]
    exact hs
  | cons a as ih => exact (h a).append ih

section
variable (hbags : p.DistinctBags) (hentry : p.NoBags entry)
include hbags hentry

theorem visits_takeAt (bag : Nat) (l : List Nat) :
    Visits entry count p (l.foldl (takeAt nested entry count (fun _ _ => true) bag))
      (l.map fun slot => (bag, slot)) := by
  rw [List.map_eq_flatMap]
  refine visits_foldl (fun slot l s hs hnodup hfits => ?_) l
  exact hs.takeAt hbags hentry
    (fun hin => List.disjoint_of_nodup_append hnodup hin List.mem_cons_self) hfits

theorem visits_takeBags (a b : Nat) :
    Visits entry count p (takeBags nested entry count a b) (p.inBags a b) := by
  refine visits_foldl (fun bag l s hs => ?_) (slots a b)
  unfold contents takeBag
  dsimp only
  rw [hs.bags bag]
  cases p.getBagByPos bag with
  | none =>
    intro _ _
    rw [List.append_nil]
    exact hs
  | some r => exact visits_takeAt hbags hentry bag (List.range r.2) l s hs

end

theorem took_destroyItemCount (nested : Nat) (hbags : p.DistinctBags) (hentry : p.NoBags entry)
    (hcount : count ≠ 0) (hfits : FitsAt entry count p p.visited) (canUnequip : Player → Nat → Bool) :
    ∃ s, Took entry count p p.visited s ∧
      s.player = destroyItemCount nested entry count false canUnequip p := by
  have hslots : ∀ a b, Visits entry count p (takeSlots nested entry count (fun _ _ => true) a b)
      (slotPlaces a b) := fun a b => visits_takeAt hbags hentry inventorySlotBag0 (slots a b)
  have hcontents : ∀ a b, Visits entry count p (takeBags nested entry count a b) (p.inBags a b) :=
    visits_takeBags hbags hentry
  have hrun := (((((((hslots inventorySlotItemStart p.inventoryEnd).append
    (hcontents inventorySlotBagStart inventorySlotBagEnd)).append
    (hslots 0 inventorySlotBagEnd)).append (hslots bankSlotItemStart bankSlotItemEnd)).append
    (hcontents bankSlotBagStart bankSlotBagEnd)).append
    (hslots bankSlotBagStart bankSlotBagEnd)).append
    (hslots reagentSlotStart reagentSlotEnd)).append
    (hslots childEquipmentSlotStart childEquipmentSlotEnd)
  have htook := hrun [] _ (Took.init hcount)
  rw [List.nil_append, ← visited] at htook
  refine ⟨_, htook (nodup_visited p) hfits, ?_⟩
  unfold destroyItemCount
  simp only [Bool.not_false, Bool.true_or]

theorem carried_eq (p : Player) : p.carried entry = p.amounts entry p.visited := by
  have hsum := ((visited_perm p).map (amountOf entry)).sum_eq
  rw [List.map_map] at hsum
  exact hsum.symm

theorem Fits.visited (h : p.Fits entry count) : FitsAt entry count p p.visited := by
  obtain h | h := h
  · exact .inl (carried_eq p ▸ h)
  · exact .inr fun place hplace =>
      h _ ((visited_perm p).subset (List.mem_map_of_mem hplace))

theorem visited_of_bags (hbags : ∀ bag, p'.getBagByPos bag = p.getBagByPos bag)
    (hcount : p'.inventorySlotCount = p.inventorySlotCount) : p'.visited = p.visited := by
  have hcontents : p'.contents = p.contents := by
    funext bag
    unfold contents
    rw [hbags]
  unfold visited inBags inventoryEnd
  rw [hcontents, hcount]

theorem hasItemCountFrom_iff (items : List (Option Item)) {tempcount : BitVec 32}
    (hlt : tempcount.toNat < count.toNat)
    (hfits : tempcount.toNat + (items.map (amountOf entry)).sum < 0x100000000 ∨
      ∀ it ∈ items, count.toNat + amountOf entry it ≤ 0x100000000) :
    hasItemCountFrom entry count items tempcount = true ↔
      count.toNat ≤ tempcount.toNat + (items.map (amountOf entry)).sum := by
  induction items generalizing tempcount with
  | nil => simpa [hasItemCountFrom] using hlt
  | cons it items ih =>
    rw [List.map_cons, List.sum_cons] at hfits ⊢
    rw [hasItemCountFrom]
    cases hfilter : it.filter (·.isCounted entry) with
    | none =>
      rw [amountOf_not_counted hfilter, Nat.zero_add] at hfits ⊢
      exact ih hlt (hfits.imp_right fun h other hother => h other (List.mem_cons_of_mem _ hother))
    | some it' =>
      have hamount : amountOf entry it = it'.count := by
        rw [amountOf, hfilter]
        rfl
      rw [hamount] at hfits ⊢
      have hsum : tempcount.toNat + it'.count < 0x100000000 := by
        obtain hfits | hfits := hfits
        · omega
        · have := hfits it List.mem_cons_self
          omega
      have hadd : (tempcount + BitVec.ofNat 32 it'.count).toNat = tempcount.toNat + it'.count := by
        rw [BitVec.toNat_add, BitVec.toNat_ofNat]
        omega
      dsimp only
      by_cases hle : count ≤ tempcount + BitVec.ofNat 32 it'.count
      · rw [if_pos hle]
        rw [BitVec.le_def, hadd] at hle
        exact ⟨fun _ => by omega, fun _ => rfl⟩
      · rw [if_neg hle]
        rw [BitVec.le_def, hadd] at hle
        rw [ih (hadd ▸ Nat.not_le.mp hle), hadd, Nat.add_assoc]
        refine hfits.imp (fun h => by omega) fun h other hother =>
          h other (List.mem_cons_of_mem _ hother)

/-- The count is found when it is carried, and as much of it as there is, is taken. -/
theorem hasItemCount_destroyItemCount (nested : Nat) (canUnequip : Player → Nat → Bool)
    (hbags : p.DistinctBags) (hentry : p.NoBags entry) (hcount : count ≠ 0)
    (hfits : p.Fits entry count) :
    (p.hasItemCount entry count true = true ↔ count.toNat ≤ p.carried entry) ∧
    (destroyItemCount nested entry count false canUnequip p).carried entry =
      p.carried entry - count.toNat ∧
    Spares entry p (destroyItemCount nested entry count false canUnequip p) := by
  have hpos : 0 < count.toNat := Nat.pos_of_ne_zero fun h => hcount (BitVec.eq_of_toNat_eq h)
  refine ⟨?_, ?_⟩
  · have hall := @hasItemCountFrom_iff entry count p.allItems 0 hpos
      (hfits.imp_left fun h => (Nat.zero_add _).symm ▸ h)
    rw [show (0 : BitVec 32).toNat = 0 from rfl, Nat.zero_add] at hall
    rw [hasItemCount, if_pos rfl, ← List.append_assoc]
    exact hall
  · obtain ⟨s, htook, hs⟩ := took_destroyItemCount nested hbags hentry hcount hfits.visited
      canUnequip
    rw [← hs]
    refine ⟨?_, htook.spares⟩
    have hplaces : s.player.visited = p.visited :=
      visited_of_bags htook.bags (htook.spares.rest ▸ rfl)
    rw [carried_eq, carried_eq, hplaces]
    cases hdone : s.done with
    | true =>
      have := htook.returned hdone
      omega
    | false =>
      obtain ⟨-, hlt, hzero⟩ := htook.going hdone
      rw [hzero, Nat.sub_eq_zero_of_le (Nat.le_of_lt hlt)]

def backpackOf (held : List Nat) : Player where
  items slot :=
    if inventorySlotItemStart ≤ slot then
      held[slot - inventorySlotItemStart]?.map fun count => { guid := slot, entry := 2589, count }
    else none
  bagSlots _ _ := none
  inventorySlotCount := 16
  hasUnlockedReagentBank := false
  meetsCondition _ := false

theorem getBagByPos_backpackOf (held : List Nat) (bag : Nat) :
    (backpackOf held).getBagByPos bag = none := by
  unfold getBagByPos getItem backpackOf
  dsimp only
  split
  · split
    · split
      · cases held[bag - inventorySlotItemStart]? <;> rfl
      · rfl
    · rfl
  · rfl

theorem distinctBags_backpackOf (held : List Nat) : (backpackOf held).DistinctBags := by
  intro bag _ b _ size _ hb
  rw [getBagByPos_backpackOf] at hb
  cases hb

theorem noBags_backpackOf (held : List Nat) (entry : Nat) : (backpackOf held).NoBags entry := by
  intro place it hitem _
  unfold itemOn getItemByPos at hitem
  rw [getBagByPos_backpackOf] at hitem
  split at hitem
  · unfold getItem backpackOf at hitem
    dsimp only at hitem
    split at hitem
    · split at hitem
      · obtain ⟨count, -, rfl⟩ := Option.map_eq_some_iff.mp hitem
        rfl
      · cases hitem
    · cases hitem
  · cases hitem

theorem hasItemCount_destroyItemCount_two :
    ((backpackOf [20, 20]).hasItemCount 2589 25 true = true ↔
      (25 : BitVec 32).toNat ≤ (backpackOf [20, 20]).carried 2589) ∧
    (destroyItemCount 0 2589 25 false (fun _ _ => true) (backpackOf [20, 20])).carried 2589 =
      (backpackOf [20, 20]).carried 2589 - (25 : BitVec 32).toNat ∧
    Spares 2589 (backpackOf [20, 20])
      (destroyItemCount 0 2589 25 false (fun _ _ => true) (backpackOf [20, 20])) :=
  hasItemCount_destroyItemCount 0 (fun _ _ => true) (distinctBags_backpackOf _)
    (noBags_backpackOf _ _) (by decide) (.inl (by decide +kernel))

/-- The third stack takes the sum past 32 bits. -/
theorem hasItemCount_fails_wrapped :
    (backpackOf [2147483646, 2147483646, 10]).DistinctBags ∧
    (backpackOf [2147483646, 2147483646, 10]).NoBags 2589 ∧
    ¬((backpackOf [2147483646, 2147483646, 10]).hasItemCount 2589 4294967295 true = true ↔
      (4294967295 : BitVec 32).toNat ≤ (backpackOf [2147483646, 2147483646, 10]).carried 2589) :=
  ⟨distinctBags_backpackOf _, noBags_backpackOf _ _, by decide +kernel⟩

end Player
end Ashamane.Inventory
