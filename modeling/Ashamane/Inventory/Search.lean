import Ashamane.Inventory.CanStoreSound
import Ashamane.Inventory.Store
import Mathlib.Data.List.Nodup

/-! Filling a list of places from the front, and searches that come to that. -/
namespace Ashamane.Inventory

def fillPlaces (cap : Place → Nat) : List Place → Storing → Except Outcome Storing
  | [], s => .ok s
  | place :: l, s =>
    let s' : Storing := ⟨s.dest ++ [⟨place.1, place.2, min (cap place) s.count⟩],
      s.count - min (cap place) s.count⟩
    if s'.count = 0 then .error ⟨.ok, s'.dest, none⟩ else fillPlaces cap l s'

def taken (s : Storing) : List Place := s.dest.map ItemPosCount.place

theorem fillPlaces_ok {cap : Place → Nat} {l : List Place} {s s' : Storing} (hs : 0 < s.count)
    (h : fillPlaces cap l s = .ok s') :
    taken s' = taken s ++ l ∧ 0 < s'.count ∧ s'.count + (l.map cap).sum = s.count := by
  induction l generalizing s with
  | nil =>
    cases h
    exact ⟨(List.append_nil _).symm, hs, rfl⟩
  | cons place l ih =>
    unfold fillPlaces at h
    simp only at h
    split at h
    · cases h
    · next hleft =>
      obtain ⟨htaken, hpos, hsum⟩ := ih (Nat.pos_of_ne_zero hleft) h
      refine ⟨?_, hpos, ?_⟩
      · rw [htaken]
        simp [taken, ItemPosCount.place]
      · rw [List.map_cons, List.sum_cons]
        simp only at hsum
        omega

/-- Where a fill ends: the last place takes no more than it can, and those before it are full. -/
theorem fillPlaces_error {cap : Place → Nat} {l : List Place} {s : Storing} {o : Outcome}
    (hs : 0 < s.count) (h : fillPlaces cap l s = .error o) :
    ∃ full place rest r, l = full ++ place :: rest ∧ r ≤ cap place ∧ 0 < r ∧
      (full.map cap).sum + r = s.count ∧
      o = ⟨.ok, s.dest ++ (full.map fun x => ⟨x.1, x.2, cap x⟩) ++ [⟨place.1, place.2, r⟩], none⟩ := by
  induction l generalizing s with
  | nil => cases h
  | cons place l ih =>
    unfold fillPlaces at h
    simp only at h
    split at h
    · next hleft =>
      have hr : min (cap place) s.count = s.count := by omega
      refine ⟨[], place, l, s.count, rfl, by omega, hs, by simp, ?_⟩
      rw [hr] at h
      cases h
      simp
    · next hleft =>
      obtain ⟨full, last, rest, r, rfl, hcap, hpos, hsum, rfl⟩ := ih (Nat.pos_of_ne_zero hleft) h
      have hfull : min (cap place) s.count = cap place := by omega
      refine ⟨place :: full, last, rest, r, rfl, hcap, hpos, ?_, ?_⟩
      · rw [List.map_cons, List.sum_cons]
        simp only at hsum
        omega
      · simp [hfull]

/-- A search that comes to filling `l`, as long as no place is taken twice. -/
def Stage (cap : Place → Nat) (m : Storing → Except Outcome Storing) (l : List Place) : Prop :=
  ∀ s, 0 < s.count → (taken s ++ l).Nodup → m s = fillPlaces cap l s

namespace Stage

variable {cap : Place → Nat} {m m' : Storing → Except Outcome Storing} {l l' : List Place}

theorem fillPlaces_append (l l' : List Place) (s : Storing) :
    fillPlaces cap (l ++ l') s = (fillPlaces cap l s >>= fillPlaces cap l') := by
  induction l generalizing s with
  | nil => rfl
  | cons place l ih =>
    rw [List.cons_append]
    unfold fillPlaces
    simp only
    split
    · rfl
    · exact ih _

theorem nil : Stage cap .ok [] := fun _ _ _ => rfl

theorem bind (h : Stage cap m l) (h' : Stage cap m' l') :
    Stage cap (fun s => m s >>= m') (l ++ l') := by
  intro s hs hnodup
  rw [← List.append_assoc] at hnodup
  rw [fillPlaces_append]
  show m s >>= m' = _
  rw [h s hs hnodup.of_append_left]
  cases hfill : fillPlaces cap l s with
  | error o => rfl
  | ok s' =>
    obtain ⟨htaken, hpos, -⟩ := fillPlaces_ok hs hfill
    exact h' s' hpos (htaken ▸ hnodup)

theorem onlyIf (h : Stage cap m l) (cond : Bool) :
    Stage cap (Inventory.onlyIf cond m) (if cond then l else []) := by
  cases cond with
  | true => exact h
  | false => exact nil

end Stage

end Ashamane.Inventory

/-! Without a wish for a place `CanStoreItem` fills stacks first, wherever they are, and then the
free places of the bags for such items, of the reagent bank, of the backpack and of the bags. -/
namespace Ashamane.Inventory
namespace Player

variable {p : Player} {stores : Stores} {q : Request} {it : Item}

structure AnyPlace (p : Player) (q : Request) (it : Item) : Prop where
  bag : q.bag = nullBag
  slot : q.slot = nullSlot
  item : q.pItem = some it
  limits : q.noSimilarCount = 0
  bank : q.removeFromBank = false
  notChild : it.isChild = false
  empty : p.isNotEmptyBag it = false
  fresh : ∀ place i, p.itemOn place = some i → i.guid ≠ it.guid

def capacity (p : Player) (proto : ItemTemplate) (place : Place) : Nat :=
  proto.maxStackSize - ((p.itemOn place).map Item.count).getD 0

def canTake (p : Player) (proto : ItemTemplate) (merge : Bool) (place : Place) : Bool :=
  (p.itemOn place).isSome == merge &&
    (p.itemOn place).all fun i => i.canBeMergedPartlyWith proto == .ok

theorem AnyPlace.itemAt (h : AnyPlace p q it) (bag slot : Nat) :
    p.itemAt q.pItem bag slot = p.itemOn (bag, slot) := by
  unfold Player.itemAt
  simp only
  cases hi : p.getItemByPos bag slot with
  | none =>
    rw [h.item]
    exact hi.symm
  | some i =>
    have hne := h.fresh (bag, slot) i hi
    rw [h.item, if_neg]
    · exact hi.symm
    · simpa [same] using hne

theorem push_of_new {s : Storing} {bag j : Nat} (needSpace : Nat) (h : (bag, j) ∉ taken s) :
    s.push bag j needSpace =
      ⟨s.dest ++ [⟨bag, j, min needSpace s.count⟩], s.count - min needSpace s.count⟩ := by
  unfold Storing.push
  simp only
  rw [if_neg]
  intro hin
  unfold ItemPosCount.isContainedIn at hin
  simp only [List.any_eq_true, Bool.and_eq_true, beq_iff_eq] at hin
  obtain ⟨e, he, hb, hj⟩ := hin
  exact h (List.mem_map.mpr ⟨e, he, Prod.ext hb hj⟩)

theorem taken_push {s : Storing} (bag j n m : Nat) :
    taken ⟨s.dest ++ [⟨bag, j, n⟩], m⟩ = taken s ++ [(bag, j)] := by
  simp [taken, ItemPosCount.place]

theorem passed_eq (p : Player) (proto : ItemTemplate) (merge : Bool) (place : Place) :
    ((p.itemOn place).isSome != merge ||
      (p.itemOn place).any fun i => i.canBeMergedPartlyWith proto != .ok) =
      !p.canTake proto merge place := by
  unfold canTake
  cases p.itemOn place with
  | none => cases merge <;> rfl
  | some i => cases merge <;> simp [bne]

theorem stage_fillSlots (h : AnyPlace p q it) (bag : Nat) (skip : Nat → Bool) (merge : Bool)
    (l : List Nat) (hskip : ∀ j ∈ l, skip j = false) :
    Stage (p.capacity q.proto)
      (fun s => attempt q.noSimilarCount
        (.ok, p.fillSlots q.proto q.pItem bag skip merge l s))
      ((l.map fun j => (bag, j)).filter (p.canTake q.proto merge)) := by
  induction l with
  | nil =>
    intro s hs _
    exact if_neg (Nat.ne_of_gt hs)
  | cons j l ih =>
    have ih := ih fun j hj => hskip j (List.mem_cons_of_mem _ hj)
    intro s hs hnodup
    rw [List.map_cons, List.filter_cons] at hnodup ⊢
    unfold Player.fillSlots
    simp only [h.itemAt, hskip j List.mem_cons_self, Bool.false_or, passed_eq]
    by_cases htake : p.canTake q.proto merge (bag, j) = true
    · rw [if_pos htake] at hnodup ⊢
      rw [htake]
      have hnew : (bag, j) ∉ taken s := by
        intro hmem
        exact (List.nodup_append.mp hnodup).2.2 _ hmem _ List.mem_cons_self rfl
      have hpush := push_of_new (p.capacity q.proto (bag, j)) hnew
      have hne : s.push bag j (p.capacity q.proto (bag, j)) ≠ s := by
        rw [hpush]
        intro heq
        have hlen := congr_arg (fun s => s.dest.length) heq
        simp at hlen
      show attempt _ (_, if s.push bag j (p.capacity q.proto (bag, j)) ≠ s ∧
        (s.push bag j (p.capacity q.proto (bag, j))).count = 0 then
          s.push bag j (p.capacity q.proto (bag, j))
        else p.fillSlots q.proto q.pItem bag skip merge l
          (s.push bag j (p.capacity q.proto (bag, j)))) = _
      unfold fillPlaces
      simp only
      by_cases hzero : (s.push bag j (p.capacity q.proto (bag, j))).count = 0
      · -- the place takes the rest
        rw [if_pos ⟨hne, hzero⟩]
        rw [hpush] at hzero ⊢
        rw [if_pos hzero, h.limits]
        unfold attempt stored
        rw [if_neg (fun hok => hok rfl), if_pos hzero, if_pos rfl]
      · rw [if_neg fun hboth => hzero hboth.2]
        rw [hpush] at hzero ⊢
        rw [if_neg hzero]
        refine ih _ (Nat.pos_of_ne_zero hzero) ?_
        rw [taken_push, List.append_assoc]
        exact hnodup
    · rw [if_neg htake] at hnodup ⊢
      rw [Bool.eq_false_iff.mpr htake]
      exact ih s hs hnodup

def slotPlaces (a b : Nat) : List Place := (slots a b).map fun slot => (inventorySlotBag0, slot)

def takes (proto : ItemTemplate) (plain : Bool) (t : Option ItemTemplate) : Bool :=
  t.any fun b => (plain == isPlain b) && itemCanGoIntoBag proto b

theorem mem_slots {a b slot : Nat} : slot ∈ slots a b ↔ a ≤ slot ∧ slot < b := by
  unfold slots
  rw [List.mem_range'_1]
  omega

theorem mem_slotPlaces {place : Place} {a b : Nat} :
    place ∈ slotPlaces a b ↔ place.1 = inventorySlotBag0 ∧ a ≤ place.2 ∧ place.2 < b := by
  unfold slotPlaces
  simp only [List.mem_map, mem_slots]
  constructor
  · rintro ⟨slot, hslot, rfl⟩
    exact ⟨rfl, hslot⟩
  · rintro ⟨hbag, hslot⟩
    exact ⟨place.2, hslot, Prod.ext hbag.symm rfl⟩

theorem nodup_slotPlaces (a b : Nat) : (slotPlaces a b).Nodup :=
  List.Nodup.map (fun _ _ h => congr_arg Prod.snd h) List.nodup_range'

theorem stage_inventory (h : AnyPlace p q it) (a b : Nat) (merge : Bool) :
    Stage (p.capacity q.proto) (p.inventory q a b merge)
      ((slotPlaces a b).filter (p.canTake q.proto merge)) := by
  have hskip : ∀ j ∈ slots a b, (inventorySlotBag0 == q.bag && j == q.slot) = false := by
    intro j _
    rw [h.bag]
    rfl
  have hstage := stage_fillSlots h inventorySlotBag0 _ merge _ hskip
  intro s hs hnodup
  refine Eq.trans ?_ (hstage s hs hnodup)
  unfold inventory canStoreItemInInventorySlots
  rw [if_neg]
  rw [h.item, Option.any_some, h.empty]
  exact Bool.false_ne_true

theorem stage_foldlM {cap : Place → Nat} {f : Storing → Nat → Except Outcome Storing}
    {places : Nat → List Place} (l : List Nat) (h : ∀ bag ∈ l, Stage cap (f · bag) (places bag)) :
    Stage cap (fun s => l.foldlM f s) (l.flatMap places) := by
  induction l with
  | nil => exact .nil
  | cons bag l ih =>
    rw [List.flatMap_cons]
    simp only [List.foldlM_cons]
    exact (h bag List.mem_cons_self).bind (ih fun bag hbag => h bag (List.mem_cons_of_mem _ hbag))

theorem canStoreItemInBag_cases (h : AnyPlace p q it) {bag : Nat} (hbag : bag ≠ q.bag)
    (merge plain : Bool) (s : Storing) :
    let r := p.canStoreItemInBag stores q.proto q.pItem bag merge plain q.bag q.slot s
    let places := p.bagPlaces stores (takes q.proto plain) bag
    (r.1 ≠ .ok ∧ r.2 = s ∧ places = []) ∨
      ∃ size, size ≤ maxBagSize ∧ places = (List.range size).map (fun j => (bag, j)) ∧
        r = (.ok, p.fillSlots q.proto q.pItem bag (· == q.slot) merge (List.range size) s) := by
  unfold canStoreItemInBag bagPlaces takes
  rw [if_neg hbag]
  cases hb : p.getBagByPos bag with
  | none => exact .inl ⟨nofun, rfl, rfl⟩
  | some r =>
    obtain ⟨b, size⟩ := r
    obtain ⟨hon, hsize, -⟩ := getBagByPos_some hb
    have hother : same (some b) q.pItem = false := by
      rw [h.item]
      simpa [same] using h.fresh _ _ hon
    have hempty : q.pItem.any p.isNotEmptyBag = false := by
      rw [h.item]
      exact h.empty
    have hchild : (q.pItem.any fun i => i.isChild) = false := by
      rw [h.item]
      exact h.notChild
    simp only [hother, hempty, hchild, Bool.false_eq_true, if_false]
    cases ht : stores.itemTemplate b.entry with
    | none => exact .inl ⟨nofun, rfl, rfl⟩
    | some t =>
      simp only [Option.any_some]
      by_cases hplain : (plain == isPlain t) = true
      · by_cases htakes : itemCanGoIntoBag q.proto t = true
        · refine .inr ⟨size, hsize, by simp [hplain, htakes], ?_⟩
          have hkind : (plain != (t.cls == .container .container)) = false := by
            simpa [bne, isPlain] using hplain
          simp [hkind, htakes]
        · refine .inl ⟨?_, ?_, by simp [htakes]⟩
          · split <;> simp [htakes]
          · split <;> simp [htakes]
      · have hkind : (plain != (t.cls == .container .container)) = true := by
          simpa [bne, isPlain] using hplain
        refine .inl ⟨?_, ?_, by simp [hplain]⟩
        · rw [if_pos hkind]
          nofun
        · rw [if_pos hkind]

theorem stage_wornBags (h : AnyPlace p q it) (merge plain : Bool) :
    Stage (p.capacity q.proto) (p.wornBags stores q merge plain)
      ((p.wornPlaces stores (takes q.proto plain)).filter (p.canTake q.proto merge)) := by
  unfold wornPlaces
  rw [List.filter_flatMap]
  refine stage_foldlM _ fun bag hbag => ?_
  have hskip : bag ≠ q.bag := by
    rw [mem_slots] at hbag
    rw [h.bag]
    unfold inventorySlotBagStart nullBag at *
    omega
  intro s hs hnodup
  obtain ⟨hres, hsame, hplaces⟩ | ⟨size, hsize, hplaces, hr⟩ :=
    @canStoreItemInBag_cases p stores q it h bag hskip merge plain s
  · simp only [hplaces]
    exact (if_pos hres).trans (congr_arg Except.ok hsame)
  · simp only [hplaces] at hnodup ⊢
    rw [hr]
    have hslot : ∀ j ∈ List.range size, (j == q.slot) = false := by
      intro j hj
      rw [List.mem_range] at hj
      rw [h.slot, beq_eq_false_iff_ne]
      unfold nullSlot
      unfold maxBagSize at hsize
      omega
    exact (if_neg fun hne => hne rfl).trans (stage_fillSlots h bag _ merge _ hslot s hs hnodup)

def stackPlaces (p : Player) (stores : Stores) (proto : ItemTemplate) : List Place :=
  slotPlaces childEquipmentSlotStart childEquipmentSlotEnd ++
    (slotPlaces reagentSlotStart reagentSlotEnd ++
      (p.backpack ++ (p.wornPlaces stores (takes proto false) ++
        p.wornPlaces stores (takes proto true))))

def openPlaces (p : Player) (stores : Stores) (proto : ItemTemplate) : List Place :=
  p.wornPlaces stores (takes proto false) ++
    ((if proto.isCraftingReagent && p.hasUnlockedReagentBank then
        slotPlaces reagentSlotStart reagentSlotEnd else []) ++
      (p.backpack ++ p.wornPlaces stores (takes proto true)))

def targets (p : Player) (stores : Stores) (proto : ItemTemplate) : List Place :=
  (if proto.maxStackSize != 1 then (p.stackPlaces stores proto).filter (p.canTake proto true)
    else []) ++ (p.openPlaces stores proto).filter (p.canTake proto false)

theorem wornPlaces_of_noFamily {proto : ItemTemplate} (h : proto.bagFamily = 0) :
    p.wornPlaces stores (takes proto false) = [] := by
  have htakes : ∀ t, takes proto false t = false := by
    intro t
    unfold takes itemCanGoIntoBag isPlain
    cases t with
    | none => rfl
    | some b =>
      rw [h]
      cases b.cls == ItemClass.container .container <;> simp
  unfold wornPlaces
  rw [List.flatMap_eq_nil_iff]
  intro bag _
  unfold bagPlaces
  cases p.getBagByPos bag with
  | none => rfl
  | some r => exact if_neg (by rw [htakes]; exact Bool.false_ne_true)

theorem stage_special (h : AnyPlace p q it) (merge : Bool) :
    Stage (p.capacity q.proto)
      (Inventory.onlyIf (q.proto.bagFamily != 0) (p.wornBags stores q merge false))
      ((p.wornPlaces stores (takes q.proto false)).filter (p.canTake q.proto merge)) := by
  have hstage := (@stage_wornBags p stores q it h merge false).onlyIf (q.proto.bagFamily != 0)
  by_cases hfamily : q.proto.bagFamily = 0
  · rw [wornPlaces_of_noFamily hfamily, hfamily] at hstage ⊢
    exact hstage
  · rwa [if_pos (by simpa using hfamily)] at hstage

theorem stage_ownSlots (h : AnyPlace p q it) :
    Stage (p.capacity q.proto) (p.ownSlots q)
      ((if q.proto.isCraftingReagent && p.hasUnlockedReagentBank then
        slotPlaces reagentSlotStart reagentSlotEnd else []).filter (p.canTake q.proto false)) := by
  have hstage := (stage_inventory h reagentSlotStart reagentSlotEnd false).onlyIf
    (! q.removeFromBank && q.proto.isCraftingReagent && p.hasUnlockedReagentBank)
  have hown : p.ownSlots q = Inventory.onlyIf
      (! q.removeFromBank && q.proto.isCraftingReagent && p.hasUnlockedReagentBank)
      (p.inventory q reagentSlotStart reagentSlotEnd false) := by
    funext s
    unfold ownSlots
    rw [if_neg]
    rw [h.item, Option.any_some, h.notChild]
    exact Bool.false_ne_true
  rw [hown]
  rw [h.bank, Bool.not_false, Bool.true_and] at hstage ⊢
  split at hstage
  · next hcond =>
    rw [if_pos hcond]
    exact hstage
  · next hcond =>
    rw [if_neg hcond]
    exact hstage

theorem stage_inStacks (h : AnyPlace p q it) :
    Stage (p.capacity q.proto) (p.inStacks stores q)
      (if q.proto.maxStackSize != 1 then
        (p.stackPlaces stores q.proto).filter (p.canTake q.proto true) else []) := by
  unfold inStacks
  refine Stage.onlyIf ?_ _
  unfold stackPlaces
  rw [List.filter_append, List.filter_append, List.filter_append, List.filter_append]
  refine (stage_inventory h _ _ true).bind ?_
  have hreagent := stage_inventory h reagentSlotStart reagentSlotEnd true
  have hbank := hreagent.onlyIf (! q.removeFromBank)
  rw [h.bank, Bool.not_false, if_pos rfl] at hbank
  rw [h.bank, Bool.not_false]
  exact hbank.bind ((stage_inventory h _ _ true).bind
    ((stage_special h true).bind (stage_wornBags h true true)))

theorem stage_inFreeSlots (h : AnyPlace p q it) :
    Stage (p.capacity q.proto) (p.inFreeSlots stores q)
      ((p.openPlaces stores q.proto).filter (p.canTake q.proto false)) := by
  have hbag : p.notIntoBag q = .ok := by
    funext s
    unfold notIntoBag
    rw [if_neg]
    rw [h.item, Option.any_some, h.empty]
    exact Bool.false_ne_true
  have hstart : searchSlotStart q = inventorySlotItemStart := by
    unfold searchSlotStart
    rw [if_neg]
    rw [h.item]
    rintro ⟨hnone, -⟩
    cases hnone
  unfold inFreeSlots openPlaces
  rw [hbag, hstart, List.filter_append, List.filter_append, List.filter_append]
  exact (stage_special h false).bind ((stage_ownSlots h).bind
    ((stage_inventory h _ _ false).bind (stage_wornBags h false true)))

theorem stage_search (h : AnyPlace p q it) :
    Stage (p.capacity q.proto) (p.search stores q) (p.targets stores q.proto) := by
  have hslot : p.inSpecificSlot stores q = .ok := by
    funext s
    unfold inSpecificSlot Inventory.onlyIf
    rw [h.bag]
    rfl
  have hbag : p.inSpecificBag stores q = .ok := by
    funext s
    exact if_pos h.bag
  unfold search
  rw [hslot, hbag]
  exact (stage_inStacks h).bind (stage_inFreeSlots h)

section Targets

variable {proto : ItemTemplate} {place : Place}

theorem mem_wornPlaces {which : Option ItemTemplate → Bool} (h : place ∈ p.wornPlaces stores which) :
    place.1 < inventorySlotBagEnd ∧ ∃ b size, p.getBagByPos place.1 = some (b, size) ∧
      which (stores.itemTemplate b.entry) = true := by
  obtain ⟨bag, hbag, hplace⟩ := List.mem_flatMap.mp h
  unfold bagPlaces at hplace
  split at hplace
  next b size hb =>
    split at hplace
    next hwhich =>
      obtain ⟨j, _, rfl⟩ := List.mem_map.mp hplace
      exact ⟨(mem_slots.mp hbag).2, b, size, hb, hwhich⟩
    next => cases hplace
  next => cases hplace

theorem nodup_wornPlaces (which : Option ItemTemplate → Bool) :
    (p.wornPlaces stores which).Nodup := by
  have hbag : ∀ bag place, place ∈ p.bagPlaces stores which bag → place.1 = bag := by
    intro bag place hplace
    unfold bagPlaces at hplace
    split at hplace
    · split at hplace
      · obtain ⟨j, _, rfl⟩ := List.mem_map.mp hplace
        rfl
      · cases hplace
    · cases hplace
  refine List.nodup_flatMap.mpr ⟨fun bag _ => ?_, ?_⟩
  · unfold bagPlaces
    split
    · split
      · exact List.Nodup.map (fun _ _ h => congr_arg Prod.snd h) List.nodup_range
      · exact List.nodup_nil
    · exact List.nodup_nil
  · refine List.Pairwise.imp (fun hne place h h' => hne ?_) List.nodup_range'
    exact (hbag _ place h).symm.trans (hbag _ place h')

theorem disjoint_wornPlaces (which : Option ItemTemplate → Bool) (a b : Nat) :
    (slotPlaces a b).Disjoint (p.wornPlaces stores which) := by
  intro place hslot hworn
  have hlt := (mem_wornPlaces hworn).1
  rw [(mem_slotPlaces.mp hslot).1] at hlt
  exact absurd hlt (by decide)

theorem disjoint_takes :
    (p.wornPlaces stores (takes proto false)).Disjoint (p.wornPlaces stores (takes proto true)) := by
  intro place hspecial hplain
  obtain ⟨-, b, size, hb, htakes⟩ := mem_wornPlaces hspecial
  obtain ⟨-, b', size', hb', htakes'⟩ := mem_wornPlaces hplain
  obtain ⟨rfl, -⟩ := Prod.mk.inj (Option.some.inj (hb.symm.trans hb'))
  unfold takes at htakes htakes'
  cases ht : stores.itemTemplate b.entry with
  | none =>
    rw [ht] at htakes
    cases htakes
  | some t =>
    rw [ht] at htakes htakes'
    simp only [Option.any_some, Bool.and_eq_true, beq_iff_eq] at htakes htakes'
    exact Bool.false_ne_true (htakes.1.trans htakes'.1.symm)

theorem disjoint_slotPlaces {a b a' b' : Nat} (h : b ≤ a' ∨ b' ≤ a) :
    (slotPlaces a b).Disjoint (slotPlaces a' b') := by
  intro place hslot hslot'
  have hslot := (mem_slotPlaces.mp hslot).2
  have hslot' := (mem_slotPlaces.mp hslot').2
  omega

theorem nodup_targets : (p.targets stores proto).Nodup := by
  have hback : p.inventoryEnd ≤ reagentSlotStart := by
    have hcount := p.inventorySlotCount.isLt
    unfold inventoryEnd inventorySlotItemStart reagentSlotStart
    omega
  have hchild : reagentSlotEnd ≤ childEquipmentSlotStart := by decide
  have hlow : reagentSlotStart ≤ childEquipmentSlotStart := by decide
  have hslots : p.backpack = slotPlaces inventorySlotItemStart p.inventoryEnd := rfl
  have hworn : ∀ which a b, (p.wornPlaces stores which).Disjoint (slotPlaces a b) :=
    fun which a b _ hworn hslot => disjoint_wornPlaces which a b hslot hworn
  have hstacks : (p.stackPlaces stores proto).Nodup := by
    simp only [stackPlaces, hslots, List.nodup_append', List.disjoint_append_right,
      nodup_slotPlaces, nodup_wornPlaces, disjoint_wornPlaces, disjoint_takes, true_and, and_true]
    exact ⟨disjoint_slotPlaces (.inr hback), disjoint_slotPlaces (.inr hchild),
      disjoint_slotPlaces (.inr (Nat.le_trans hback hlow))⟩
  have hfree : (p.openPlaces stores proto).Nodup := by
    unfold openPlaces
    split <;>
      simp only [hslots, List.nodup_append', List.disjoint_append_right, List.nil_append,
        nodup_slotPlaces, nodup_wornPlaces, disjoint_wornPlaces, disjoint_takes,
        hworn, true_and, and_true]
    exact disjoint_slotPlaces (.inr hback)
  refine List.nodup_append'.mpr ⟨?_, hfree.filter _, fun place hstack hopen => ?_⟩
  · split
    · exact hstacks.filter _
    · exact List.nodup_nil
  · have hfree := (List.mem_filter.mp hopen).2
    split at hstack
    · have htaken := (List.mem_filter.mp hstack).2
      simp only [canTake, Bool.and_eq_true, beq_iff_eq] at hfree htaken
      exact Bool.false_ne_true (hfree.1.symm.trans htaken.1)
    · cases hstack

/-- For an item from outside, under the limits, `CanStoreItem` allows as much as the stacks and the
free places hold together, fills them in turn, and reports what is left over. -/
theorem canStoreItem_anyPlace {entry count : Nat} (hproto : stores.itemTemplate entry = some proto)
    (hcount : 0 < count) (hword : count < 2 ^ 32) (hloot : it.isLootGenerated = false)
    (hbound : it.isBindedNotWith = false) (hchild : it.isChild = false)
    (hempty : p.isNotEmptyBag it = false)
    (hfresh : ∀ place i, p.itemOn place = some i → i.guid ≠ it.guid)
    (hlimits : p.canTakeMoreSimilarItems stores entry count (some it) = (.ok, none)) :
    let o := p.canStoreItem stores nullBag nullSlot [] entry count (some it) false false
    let room := ((p.targets stores proto).map (p.capacity proto)).sum
    (o.result = .ok ↔ count ≤ room) ∧
      o.dest.map ItemPosCount.place <+: p.targets stores proto ∧
      (room < count → o.result = .invFull ∧ o.noSpaceCount = some (count - room)) := by
  intro o room
  let q : Request := ⟨nullBag, nullSlot, proto, some it, false, false, 0⟩
  have hsearch : Stage (p.capacity proto) (p.search stores q) (p.targets stores proto) :=
    stage_search (q := q) ⟨rfl, rfl, rfl, rfl, rfl, hchild, hempty, hfresh⟩
  have hstage := hsearch ⟨[], count⟩ hcount nodup_targets
  have herror : ∀ r, p.search stores q ⟨[], count⟩ = .error r → o = r := by
    intro r hr
    simp [o, canStoreItem, hproto, hloot, hbound, hlimits, q, hr]
  have hok : ∀ s, p.search stores q ⟨[], count⟩ = .ok s →
      o = ⟨.invFull, s.dest, some (s.count % 2 ^ 32)⟩ := by
    intro s hs
    simp [o, canStoreItem, hproto, hloot, hbound, hlimits, q, hs]
  cases hfill : fillPlaces (p.capacity proto) (p.targets stores proto) ⟨[], count⟩ with
  | error r =>
    obtain ⟨full, place, rest, n, htargets, hcap, hpos, hsum, rfl⟩ := fillPlaces_error hcount hfill
    have hroom : count ≤ room := by
      simp only [room, htargets, List.map_append, List.map_cons, List.sum_append, List.sum_cons]
      simp only at hsum
      omega
    rw [herror _ (hstage.trans hfill)]
    refine ⟨iff_of_true rfl hroom, ⟨rest, ?_⟩, fun h => absurd hroom (Nat.not_le.mpr h)⟩
    rw [htargets]
    simp [Function.comp_def, ItemPosCount.place]
  | ok s =>
    obtain ⟨htaken, hpos, hsum⟩ := fillPlaces_ok hcount hfill
    have hroom : s.count + room = count := hsum
    rw [hok _ (hstage.trans hfill)]
    refine ⟨iff_of_false (fun h => by cases h) (by omega), ⟨[], ?_⟩, fun _ => ⟨rfl, ?_⟩⟩
    · rw [List.append_nil]
      exact htaken
    · have hlow : s.count % 2 ^ 32 = count - room := by omega
      exact congr_arg some hlow

end Targets

end Player

/-- Thirty pieces of ore are five more on the stack, and two new stacks. -/
theorem canStoreItem_anyPlace_miner :
    let o := miner.canStoreItem shop nullBag nullSlot [] 10 30 (some { guid := 9, entry := 10 })
      false false
    o.result = .ok ∧ o.dest.map ItemPosCount.place <+:
      miner.targets shop { id := 10, stackable := 20 } := by
  have h := @Player.canStoreItem_anyPlace miner shop { guid := 9, entry := 10 } _ 10 30 rfl
    (by decide) (by decide) rfl rfl rfl (by decide +kernel) ?_ rfl
  · exact ⟨h.1.mpr (by decide +kernel), h.2.1⟩
  · intro place i hi
    unfold Player.itemOn Player.getItemByPos at hi
    split at hi
    · unfold Player.getItem miner at hi
      split at hi
      · simp only at hi
        split at hi
        · cases hi
          decide
        split at hi
        · cases hi
          decide
        · cases hi
      · cases hi
    · split at hi
      · simp [miner] at hi
      · cases hi

end Ashamane.Inventory
