import Ashamane.Inventory.CanStore
import Ashamane.Lib.Exits
import Mathlib.Algebra.BigOperators.Group.List.Basic
import Mathlib.Algebra.Ring.Int.Defs
import Mathlib.Algebra.Ring.Nat
import Mathlib.Data.List.Nodup

/-! What `CanStoreItem` hands out are places, each once, with room for what is put there, and
together they take what is not reported as left over. -/
namespace Ashamane.Inventory

open Lib

def sumOf (dest : List ItemPosCount) : Nat := (dest.map ItemPosCount.count).sum

def HasRoom (p : Player) (proto : ItemTemplate) (pItem : Option Item) (e : ItemPosCount) : Prop :=
  e.count ≤ proto.maxStackSize ∧
    ∀ it, p.getItemByPos e.bag e.slot = some it → same (some it) pItem = true ∨
      (it.entry = proto.id ∧ it.count + e.count ≤ proto.maxStackSize)

namespace Player

variable {p : Player} {stores : Stores} {q : Request} {c : Nat} {s : Storing}

def Target (p : Player) (q : Request) (e : ItemPosCount) : Prop :=
  HasRoom p q.proto q.pItem e ∨ (q.swap = true ∧ e.place = (q.bag, q.slot))

structure Sound (p : Player) (q : Request) (c : Nat) (s : Storing) : Prop where
  nodup : (s.dest.map ItemPosCount.place).Nodup
  sum : sumOf s.dest + s.count = c
  targets : ∀ e ∈ s.dest, Target p q e

/-- What holds of the outcome of a request for `c` items. -/
structure SoundOutcome (p : Player) (q : Request) (c : Nat) (o : Outcome) : Prop where
  ok : o.result = .ok → q.noSimilarCount = 0 ∧ Sound p q c ⟨o.dest, 0⟩
  error : o.result ≠ .ok → o.result ≠ .bagInBag →
    ∃ rest, o.noSpaceCount = some ((rest + q.noSimilarCount) % 2 ^ 32) ∧ sumOf o.dest + rest = c

theorem contained_iff (e : ItemPosCount) (vec : List ItemPosCount) :
    e.isContainedIn vec = true ↔ e.place ∈ vec.map ItemPosCount.place := by
  unfold ItemPosCount.isContainedIn ItemPosCount.place
  simp [List.any_eq_true]

theorem Sound.push (h : Sound p q c s) {bag slot needSpace : Nat}
    (htarget : Target p q ⟨bag, slot, min needSpace s.count⟩) :
    Sound p q c (s.push bag slot needSpace) := by
  unfold Storing.push
  simp only
  split
  · exact h
  · next hnew =>
    rw [contained_iff] at hnew
    refine ⟨?_, ?_, fun e he => ?_⟩
    · rw [List.map_append, List.map_singleton, ← List.concat_eq_append]
      exact h.nodup.concat hnew
    · have hsum := h.sum
      have happ : ∀ n, sumOf (s.dest ++ [⟨bag, slot, n⟩]) = sumOf s.dest + n := by
        intro n
        simp [sumOf]
      rw [happ]
      simp only
      omega
    · rw [List.mem_append, List.mem_singleton] at he
      obtain he | rfl := he
      · exact h.targets e he
      · exact htarget

theorem hasRoom_empty {bag slot : Nat} (n : Nat) (h : p.itemAt q.pItem bag slot = none) :
    HasRoom p q.proto q.pItem ⟨bag, slot, min q.proto.maxStackSize n⟩ := by
  refine ⟨Nat.min_le_left _ _, fun it hit => ?_⟩
  unfold itemAt at h
  simp only at h
  rw [hit] at h
  split at h
  · next hsame => exact .inl hsame
  · cases h

theorem hasRoom_stack {bag slot : Nat} (n : Nat) {it : Item}
    (h : p.itemAt q.pItem bag slot = some it)
    (hmerge : it.canBeMergedPartlyWith q.proto = .ok) :
    HasRoom p q.proto q.pItem ⟨bag, slot, min (q.proto.maxStackSize - it.count) n⟩ := by
  have hroom : it.entry = q.proto.id ∧ it.count < q.proto.maxStackSize := by
    unfold Item.canBeMergedPartlyWith at hmerge
    split at hmerge
    · cases hmerge
    · split at hmerge
      · cases hmerge
      · next hentry =>
        split at hmerge
        · cases hmerge
        · next hcount => exact ⟨of_not_not hentry, Nat.lt_of_not_le hcount⟩
  refine ⟨?_, fun it' hit => .inr ?_⟩
  · exact Nat.le_trans (Nat.min_le_left _ _) (Nat.sub_le _ _)
  · unfold itemAt at h
    simp only at h
    split at h
    · cases h
    · have heq : it' = it := by
        rw [hit] at h
        exact Option.some.inj h
      subst heq
      exact ⟨hroom.1, by show it'.count + min _ _ ≤ _; omega⟩

theorem Sound.fillSlots (bag : Nat) (skip : Nat → Bool) (merge : Bool) (l : List Nat)
    (h : Sound p q c s) : Sound p q c (p.fillSlots q.proto q.pItem bag skip merge l s) := by
  induction l generalizing s with
  | nil => exact h
  | cons j l ih =>
    unfold Player.fillSlots
    simp only
    split
    · exact ih h
    · next hturn =>
      simp only [Bool.or_eq_true, not_or] at hturn
      have hpush : Sound p q c (s.push bag j
          (q.proto.maxStackSize - ((p.itemAt q.pItem bag j).map Item.count).getD 0)) := by
        refine h.push (.inl ?_)
        cases hit : p.itemAt q.pItem bag j with
        | none => exact hasRoom_empty _ hit
        | some it =>
          refine hasRoom_stack _ hit ?_
          have hmerge := hturn.2
          rw [hit] at hmerge
          simpa using hmerge
      split
      · exact hpush
      · exact ih hpush

theorem Sound.inSlots (h : Sound p q c s) (a b : Nat) (merge : Bool) (skipBag skipSlot : Nat) :
    Sound p q c
      (p.canStoreItemInInventorySlots q.proto q.pItem a b merge skipBag skipSlot s).2 := by
  unfold canStoreItemInInventorySlots
  split
  · exact h
  · exact h.fillSlots _ _ _ _

theorem Sound.inBag (h : Sound p q c s) (bag : Nat) (merge nonSpecialized : Bool)
    (skipBag skipSlot : Nat) :
    Sound p q c (p.canStoreItemInBag stores q.proto q.pItem bag merge nonSpecialized skipBag
      skipSlot s).2 := by
  unfold canStoreItemInBag
  split
  · exact h
  · split
    · exact h
    · split
      · exact h
      · split
        · exact h
        · split
          · exact h
          · split
            · exact h
            · split
              · exact h
              · split
                · exact h
                · exact h.fillSlots _ _ _ _

theorem Sound.inPlace (h : Sound p q c s) :
    Sound p q c
      (p.canStoreItemInSpecificSlot stores q.proto q.pItem q.bag q.slot q.swap s).2 := by
  unfold canStoreItemInSpecificSlot
  split
  · exact h
  · split
    · exact h
    · split
      · exact h
      · split
        · next it hit hswap =>
          simp only
          split
          · exact h
          · next hmerge => exact h.push (.inl (hasRoom_stack _ hit (of_not_not hmerge)))
        · next hother =>
          have hfree : Sound p q c (s.push q.bag q.slot q.proto.maxStackSize) := by
            refine h.push ?_
            cases hit : p.itemAt q.pItem q.bag q.slot with
            | none => exact .inl (hasRoom_empty _ hit)
            | some it =>
              cases hswap : q.swap with
              | true => exact .inr ⟨hswap, rfl⟩
              | false => exact absurd hswap (hother it hit)
          split
          · split
            · exact h
            · exact hfree
          · split
            · exact h
            · split
              · exact h
              · split
                · exact h
                · exact hfree

theorem exits_attempt {r : InventoryResult × Storing} (h : Sound p q c r.2) :
    Exits (Sound p q c) (SoundOutcome p q c) (attempt q.noSimilarCount r) := by
  unfold attempt
  split
  · next hres =>
    exact SoundOutcome.mk (fun hok => absurd hok hres) fun _ _ => ⟨r.2.count, rfl, h.sum⟩
  · split
    · next hzero =>
      unfold stored
      split
      · next hnone =>
        refine SoundOutcome.mk (fun _ => ⟨hnone, h.nodup, ?_, h.targets⟩) fun hok _ => absurd rfl hok
        rw [← h.sum, hzero]
      · exact ⟨fun hok => (by cases hok), fun _ _ => ⟨r.2.count, rfl, h.sum⟩⟩
    · exact h

theorem exits_attemptBag {r : InventoryResult × Storing} (h : Sound p q c r.2) :
    Exits (Sound p q c) (SoundOutcome p q c) (attemptBag q.noSimilarCount r) :=
  .ite (fun _ => h) fun _ => exits_attempt h

theorem exits_onlyIf {f : Storing → Except Outcome Storing} (h : Sound p q c s)
    (hf : ∀ s, Sound p q c s → Exits (Sound p q c) (SoundOutcome p q c) (f s)) (cond : Bool) :
    Exits (Sound p q c) (SoundOutcome p q c) (onlyIf cond f s) :=
  .ite (fun _ => hf s h) fun _ => h

theorem exits_inventory (a b : Nat) (merge : Bool) (s : Storing) (h : Sound p q c s) :
    Exits (Sound p q c) (SoundOutcome p q c) (p.inventory q a b merge s) :=
  exits_attempt (h.inSlots a b merge _ _)

theorem exits_wornBags (merge nonSpecialized : Bool) (s : Storing) (h : Sound p q c s) :
    Exits (Sound p q c) (SoundOutcome p q c) (p.wornBags stores q merge nonSpecialized s) :=
  .foldlM (fun _ _ hs => exits_attemptBag (hs.inBag _ merge nonSpecialized _ _)) _ h

theorem exits_thisBag (merge : Bool) (s : Storing) (h : Sound p q c s) :
    Exits (Sound p q c) (SoundOutcome p q c) (p.thisBag stores q merge s) := by
  refine exits_attempt ?_
  split
  · exact (h.inBag _ merge false _ _).inBag _ merge true _ _
  · exact h.inBag _ merge false _ _

theorem exits_ownSlots (s : Storing) (h : Sound p q c s) :
    Exits (Sound p q c) (SoundOutcome p q c) (p.ownSlots q s) :=
  .ite (fun _ => exits_inventory _ _ _ s h) fun _ => exits_onlyIf h (exits_inventory _ _ _) _

theorem exits_inSpecificSlot (s : Storing) (h : Sound p q c s) :
    Exits (Sound p q c) (SoundOutcome p q c) (p.inSpecificSlot stores q s) :=
  exits_onlyIf h (fun _ hs => exits_attempt hs.inPlace) _

theorem exits_inSpecificBag (s : Storing) (h : Sound p q c s) :
    Exits (Sound p q c) (SoundOutcome p q c) (p.inSpecificBag stores q s) := by
  refine .ite (fun _ => h) fun _ => .ite (fun _ => ?_) fun _ => ?_
  · refine (exits_onlyIf h (fun s h => ?_) _).bind fun s h =>
      (exits_ownSlots s h).bind (exits_inventory _ _ _)
    exact (exits_inventory _ _ _ s h).bind fun s h =>
      (exits_inventory _ _ _ s h).bind (exits_inventory _ _ _)
  · exact (exits_onlyIf h (exits_thisBag true) _).bind (exits_thisBag false)

theorem exits_inStacks (s : Storing) (h : Sound p q c s) :
    Exits (Sound p q c) (SoundOutcome p q c) (p.inStacks stores q s) := by
  refine exits_onlyIf h (fun s h => (exits_inventory _ _ _ s h).bind fun s h => ?_) _
  refine (exits_onlyIf h (exits_inventory _ _ _) _).bind fun s h =>
    (exits_inventory _ _ _ s h).bind fun s h => ?_
  exact (exits_onlyIf h (exits_wornBags true false) _).bind (exits_wornBags true true)

theorem exits_notIntoBag (s : Storing) (h : Sound p q c s) :
    Exits (Sound p q c) (SoundOutcome p q c) (p.notIntoBag q s) :=
  .ite (fun _ => ⟨fun hok => (by cases hok), fun _ hbag => absurd rfl hbag⟩) fun _ => h

theorem exits_inFreeSlots (s : Storing) (h : Sound p q c s) :
    Exits (Sound p q c) (SoundOutcome p q c) (p.inFreeSlots stores q s) := by
  refine (exits_onlyIf h (exits_wornBags false false) _).bind fun s h =>
    (exits_notIntoBag s h).bind fun s h => (exits_ownSlots s h).bind fun s h => ?_
  exact (exits_inventory _ _ _ s h).bind (exits_wornBags false true)

theorem exits_search (s : Storing) (h : Sound p q c s) :
    Exits (Sound p q c) (SoundOutcome p q c) (p.search stores q s) :=
  (exits_inSpecificSlot s h).bind fun s h => (exits_inSpecificBag s h).bind fun s h =>
    (exits_inStacks s h).bind exits_inFreeSlots

def KeepsLimits (p : Player) (stores : Stores) (proto : ItemTemplate) (pItem : Option Item) :
    Prop :=
  proto.maxCount ≠ 2147483647 →
    (0 < proto.maxCount → p.getItemCount stores proto.id pItem ≤ proto.maxCount) ∧
    ∀ limit, stores.itemLimitCategory proto.itemLimitCategory = some limit → limit.modeHave = true →
      p.getItemCountWithLimitCategory stores proto.itemLimitCategory pItem ≤
        p.getItemLimitCategoryQuantity limit

/-- What is over the limit is all of it, or some of it when the limit was kept before. -/
theorem canTakeMoreSimilarItems_spec {entry count : Nat} {pItem : Option Item}
    {proto : ItemTemplate} (hproto : stores.itemTemplate entry = some proto)
    (hloot : pItem.any Item.isLootGenerated = false) :
    let r := p.canTakeMoreSimilarItems stores entry count pItem
    (r.1 = .ok ∧ r.2 = none) ∨ (r.1 ≠ .ok ∧ ∃ n, r.2 = some n ∧ (n = count ∨ 0 < n) ∧
      (KeepsLimits p stores proto pItem → count < 2 ^ 32 → n ≤ count)) := by
  have hover : ∀ cur limit, cur < 2 ^ 32 → (cur + count) % 2 ^ 32 > limit →
      (count + cur) % 2 ^ 32 - limit = count ∨ 0 < (count + cur) % 2 ^ 32 - limit := by
    intro cur limit _ hgt
    right
    omega
  have hless : ∀ cur limit, cur < 2 ^ 32 → cur ≤ limit → count < 2 ^ 32 →
      (count + cur) % 2 ^ 32 - limit ≤ count := by
    intro cur limit _ _ _
    omega
  unfold canTakeMoreSimilarItems
  rw [hproto]
  simp only [hloot, Bool.false_eq_true, if_false]
  split
  · exact .inl ⟨rfl, rfl⟩
  · next hlimited =>
    have hmax : proto.maxCount ≠ 2147483647 := fun heq => hlimited (.inr heq)
    have hcur : p.getItemCount stores proto.id pItem < 2 ^ 32 := Nat.mod_lt _ (by decide)
    have hcat : p.getItemCountWithLimitCategory stores proto.itemLimitCategory pItem < 2 ^ 32 :=
      Nat.mod_lt _ (by decide)
    split
    · next hgt =>
      refine .inr ⟨nofun, _, rfl, hover _ _ hcur hgt.2, fun hkeeps => hless _ _ hcur ?_⟩
      exact (hkeeps hmax).1 hgt.1
    · split
      · split
        · exact .inr ⟨nofun, _, rfl, .inl rfl, fun _ _ => Nat.le_refl _⟩
        · next limit hlimit =>
          split
          · next hgt =>
            refine .inr ⟨nofun, _, rfl, hover _ _ hcat hgt.2, fun hkeeps => hless _ _ hcat ?_⟩
            exact (hkeeps hmax).2 limit hlimit hgt.1
          · exact .inl ⟨rfl, rfl⟩
      · exact .inl ⟨rfl, rfl⟩

/-- An outcome that conserves the count of the items: what it allows goes to distinct places with
room for it, to the last item; of what it does not allow the places take a part, and the rest is
reported, as long as the limits were kept before. -/
structure Conserves (p : Player) (stores : Stores) (bag slot entry count : Nat)
    (pItem : Option Item) (swap : Bool) (o : Outcome) : Prop where
  ok : o.result = .ok → (o.dest.map ItemPosCount.place).Nodup ∧ sumOf o.dest = count ∧
    ∃ proto, stores.itemTemplate entry = some proto ∧ ∀ e ∈ o.dest,
      HasRoom p proto pItem e ∨ (swap = true ∧ e.place = (bag, slot))
  error : o.result ≠ .ok → o.result ≠ .bagInBag →
    (∀ proto, stores.itemTemplate entry = some proto → KeepsLimits p stores proto pItem) →
    ∃ n, o.noSpaceCount = some n ∧ sumOf o.dest ≤ count ∧ sumOf o.dest + n = count

theorem Conserves.refused {bag slot entry count : Nat} {pItem : Option Item} {swap : Bool}
    {res : InventoryResult} (hres : res ≠ .ok) :
    Conserves p stores bag slot entry count pItem swap ⟨res, [], some count⟩ :=
  ⟨fun hok => absurd hok hres, fun _ _ _ => ⟨count, rfl, Nat.zero_le _, Nat.zero_add _⟩⟩

/-- From the search for what is left of the count under the limits. -/
theorem SoundOutcome.conserves {count n : Nat} {o : Outcome} (h : SoundOutcome p q c o)
    {entry : Nat} (hproto : stores.itemTemplate entry = some q.proto) (hcount : count < 2 ^ 32)
    (hn : q.noSimilarCount = n) (hc : n = 0 → c = count)
    (hkeeps : KeepsLimits p stores q.proto q.pItem → n ≤ count ∧ c = count - n) :
    Conserves p stores q.bag q.slot entry count q.pItem q.swap o := by
  constructor
  · intro hok
    obtain ⟨hzero, hsound⟩ := h.ok hok
    have hsum := hsound.sum
    exact ⟨hsound.nodup, hsum.trans (hc (hn ▸ hzero)), q.proto, hproto, hsound.targets⟩
  · intro herr hbag hlimits
    obtain ⟨rest, hrest, hsum⟩ := h.error herr hbag
    obtain ⟨hle, hless⟩ := hkeeps (hlimits _ hproto)
    have hall : (rest + q.noSimilarCount) % 2 ^ 32 = rest + n := by omega
    exact ⟨rest + n, hrest.trans (congr_arg some hall), by omega, by omega⟩

theorem canStoreItem_conserves (p : Player) (stores : Stores) (bag slot entry count : Nat)
    (pItem : Option Item) (swap removeFromBank : Bool) (hcount : count < 2 ^ 32) :
    Conserves p stores bag slot entry count pItem swap
      (p.canStoreItem stores bag slot [] entry count pItem swap removeFromBank) := by
  unfold canStoreItem
  cases hproto : stores.itemTemplate entry with
  | none => exact .refused (by cases swap <;> decide)
  | some proto =>
    simp only
    split
    · exact .refused (by decide)
    · next hloot =>
      split
      · exact .refused (by decide)
      · have htake := @canTakeMoreSimilarItems_spec p stores entry count pItem _ hproto
          (Bool.eq_false_iff.mpr hloot)
        simp only at htake
        generalize p.canTakeMoreSimilarItems stores entry count pItem = r at htake
        obtain ⟨res, noSpace⟩ := r
        simp only at htake ⊢
        split
        · next hall =>
          rw [← hall.2]
          exact .refused hall.1
        · next hsome =>
          generalize hleft : (if res ≠ .ok then (count + 2 ^ 32 - noSpace.getD 0) % 2 ^ 32
            else count) = left
          have hzero : noSpace.getD 0 = 0 → left = count := by
            intro hz
            obtain ⟨hok, -⟩ | ⟨herr, n, rfl, hn, -⟩ := htake
            · rw [← hleft, if_neg (not_not_intro hok)]
            · obtain rfl | hpos := hn
              · exact absurd ⟨herr, rfl⟩ hsome
              · exact absurd hz (Nat.ne_of_gt hpos)
          have hkeeps : KeepsLimits p stores proto pItem →
              noSpace.getD 0 ≤ count ∧ left = count - noSpace.getD 0 := by
            intro hlimits
            obtain ⟨hok, rfl⟩ | ⟨herr, n, rfl, -, hle⟩ := htake
            · rw [← hleft, if_neg (not_not_intro hok)]
              exact ⟨Nat.zero_le _, rfl⟩
            · have hn := hle hlimits hcount
              rw [← hleft, if_pos herr]
              simp only [Option.getD_some]
              omega
          have hsearch := @exits_search p stores
            ⟨bag, slot, proto, pItem, swap, removeFromBank, noSpace.getD 0⟩ left ⟨[], left⟩
            ⟨List.nodup_nil, Nat.zero_add _, fun e he => absurd he List.not_mem_nil⟩
          generalize p.search stores ⟨bag, slot, proto, pItem, swap, removeFromBank, noSpace.getD 0⟩
            ⟨[], left⟩ = m at hsearch
          cases m with
          | error o => exact hsearch.conserves hproto hcount rfl hzero hkeeps
          | ok s =>
            have hfull : SoundOutcome p ⟨bag, slot, proto, pItem, swap, removeFromBank,
                noSpace.getD 0⟩ left
                ⟨.invFull, s.dest, some ((s.count + noSpace.getD 0) % 2 ^ 32)⟩ :=
              ⟨nofun, fun _ _ => ⟨s.count, rfl, hsearch.sum⟩⟩
            exact hfull.conserves hproto hcount rfl hzero hkeeps

end Player

def shop : Stores where
  itemTemplate entry :=
    if entry = 10 then some { id := 10, stackable := 20 }
    else if entry = 11 then some { id := 11, maxCount := 1 }
    else if entry = 12 then some { id := 12, cls := .container .container, containerSlots := 4 }
    else none
  itemLimitCategory _ := none
  id_eq entry proto h := by
    split at h
    · next he => cases h; exact he.symm
    · split at h
      · next he => cases h; exact he.symm
      · split at h
        · next he => cases h; exact he.symm
        · cases h

def miner : Player where
  items slot :=
    if slot = 23 then some { guid := 1, entry := 10, count := 15 }
    else if slot = 24 then some { guid := 2, entry := 11 }
    else none
  bagSlots _ _ := none
  inventorySlotCount := 16
  hasUnlockedReagentBank := false
  meetsCondition _ := false

theorem canStoreItem_conserves_miner :
    let o := miner.canStoreItem shop nullBag nullSlot [] 10 30 none false false
    o.dest = [⟨255, 23, 5⟩, ⟨255, 25, 20⟩, ⟨255, 26, 5⟩] ∧
      (o.dest.map ItemPosCount.place).Nodup ∧ sumOf o.dest = 30 := by
  have h := (Player.canStoreItem_conserves miner shop nullBag nullSlot 10 30 none false false
    (by decide)).ok (by decide +kernel)
  exact ⟨by decide +kernel, h.1, h.2.1⟩

/-- The ore is to go where the sword is, and the sword to where the ore was. -/
theorem target_fails_swap :
    let ore : Item := { guid := 1, entry := 10, count := 15 }
    let o := miner.canStoreItem shop 255 24 [] 10 15 (some ore) true false
    o.result = .ok ∧ o.dest = [⟨255, 24, 15⟩] ∧
      ¬ HasRoom miner { id := 10, stackable := 20 } (some ore) ⟨255, 24, 15⟩ := by
  refine ⟨by decide +kernel, by decide +kernel, fun h => ?_⟩
  obtain hsame | hstack := h.2 { guid := 2, entry := 11 } (by decide)
  · exact absurd hsame (by decide)
  · exact absurd hstack.1 (by decide)

end Ashamane.Inventory
