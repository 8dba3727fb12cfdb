import Ashamane.Pools.Basic
import Mathlib.Data.List.Induction
import Mathlib.Logic.Relation

/-! How the pools of pools are loaded, with the search for circular references. -/
namespace Ashamane.Pools

open Relation

structure PoolPoolRow where
  poolId : Nat
  motherPool : Nat
  chance : Rat
  deriving DecidableEq, Repr

/-- `mPoolTemplate`: the limit of a pool, from the last row with its id. -/
def poolTemplate (rows : List (Nat × Nat)) : Nat → Option Nat :=
  rows.foldl (fun template row => Function.update template row.1 (some row.2)) fun _ => none

/-- `mPoolPoolGroups` and `mPoolSearchMap`. -/
structure PoolLoad where
  groups : Nat → PoolGroup := fun _ => {}
  poolSearchMap : Nat → Option Nat := fun _ => none

section Rows

variable (template : Nat → Option Nat)

def PoolPoolRow.accepted (row : PoolPoolRow) : Bool :=
  (template row.motherPool).isSome && (template row.poolId).isSome &&
    row.motherPool != row.poolId && !(decide (row.chance < 0) || decide (100 < row.chance))

def PoolPoolRow.isExplicit (row : PoolPoolRow) : Bool :=
  row.chance != 0 && (template row.motherPool).getD 0 == 1

def PoolPoolRow.object (row : PoolPoolRow) : PoolObject := ⟨row.poolId, row.chance⟩

def PoolGroup.addEntry (g : PoolGroup) (object : PoolObject) (isExplicit : Bool) : PoolGroup :=
  if isExplicit then { g with explicitlyChanced := g.explicitlyChanced ++ [object] }
  else { g with equalChanced := g.equalChanced ++ [object] }

def loadRow (l : PoolLoad) (row : PoolPoolRow) : PoolLoad :=
  if row.accepted template then
    { groups := Function.update l.groups row.motherPool
        ((l.groups row.motherPool).addEntry row.object (row.isExplicit template))
      poolSearchMap := if (l.poolSearchMap row.poolId).isSome then l.poolSearchMap
        else Function.update l.poolSearchMap row.poolId (some row.motherPool) }
  else l

def loadRows (rows : List PoolPoolRow) : PoolLoad := rows.foldl (loadRow template) {}

end Rows

def PoolGroup.removeOneRelation (g : PoolGroup) (child : Nat) : PoolGroup where
  explicitlyChanced := g.explicitlyChanced.eraseP fun obj => obj.guid == child
  equalChanced := g.equalChanced.eraseP fun obj => obj.guid == child

def walk (searchMap : Nat → Option Nat) : Nat → List Nat → Nat → Option (Option Nat)
  | 0, _, _ => none
  | n + 1, checkedPools, p =>
    match searchMap p with
    | none => some none
    | some mother =>
      if mother ∈ p :: checkedPools then some (some p)
      else walk searchMap n (p :: checkedPools) mother

def PoolLoad.removeLink (l : PoolLoad) (child : Nat) : PoolLoad :=
  match l.poolSearchMap child with
  | none => l
  | some mother =>
    { groups := Function.update l.groups mother ((l.groups mother).removeOneRelation child)
      poolSearchMap := Function.update l.poolSearchMap child none }

def PoolLoad.checkPool (fuel : Nat) (l : PoolLoad) (p : Nat) : Option PoolLoad :=
  (walk l.poolSearchMap fuel [] p).map fun
    | none => l
    | some child => l.removeLink child

def PoolLoad.check (fuel : Nat) (order : List Nat) (l : PoolLoad) : Option PoolLoad :=
  order.foldlM (PoolLoad.checkPool fuel) l

def PoolLoad.Under (l : PoolLoad) (child mother : Nat) : Prop := child ∈ (l.groups mother).guids

def Link (searchMap : Nat → Option Nat) (child mother : Nat) : Prop := searchMap child = some mother

variable {template : Nat → Option Nat} {rows : List PoolPoolRow} {l l' : PoolLoad}

theorem countP_eraseP {α : Type} (p : α → Bool) (l : List α) :
    (l.eraseP p).countP p = l.countP p - 1 := by
  induction l with
  | nil => rfl
  | cons x l ih =>
    cases hx : p x with
    | true => rw [List.eraseP_cons_of_pos hx, List.countP_cons_of_pos hx, Nat.add_sub_cancel]
    | false =>
      rw [List.eraseP_cons_of_neg (by simp [hx]), List.countP_cons_of_neg (by simp [hx]),
        List.countP_cons_of_neg (by simp [hx]), ih]

theorem loadRows_append (row : PoolPoolRow) :
    loadRows template (rows ++ [row]) = loadRow template (loadRows template rows) row := by
  unfold loadRows
  rw [List.foldl_append]
  rfl

/-- The search map gives the mother of the first accepted row of a pool. -/
theorem loadRows_searchMap (c : Nat) : (loadRows template rows).poolSearchMap c =
    ((rows.filter (PoolPoolRow.accepted template)).find? fun row => row.poolId == c).map
      PoolPoolRow.motherPool := by
  induction rows using List.reverseRecOn with
  | nil => rfl
  | append_singleton rows row ih =>
    rw [loadRows_append, List.filter_append, List.find?_append]
    unfold loadRow
    split
    · rename_i haccepted
      rw [List.filter_cons_of_pos haccepted, List.filter_nil]
      dsimp only
      by_cases hc : row.poolId = c
      · subst hc
        rw [List.find?_cons_of_pos (by simp), ih]
        cases hfirst : (rows.filter (PoolPoolRow.accepted template)).find?
            fun r => r.poolId == row.poolId with
        | none => simp
        | some first =>
          rw [hfirst] at ih
          simp [ih]
      · rw [List.find?_cons_of_neg (by simp [hc]), List.find?_nil, Option.or_none, ← ih]
        split
        · rfl
        · exact Function.update_of_ne (Ne.symm hc) ..
    · rename_i haccepted
      rw [List.filter_cons_of_neg haccepted, List.filter_nil, List.find?_nil, Option.or_none]
      exact ih

def rowsOf (template : Nat → Option Nat) (rows : List PoolPoolRow) (mother : Nat)
    (isExplicit : Bool) : List PoolPoolRow :=
  rows.filter fun row => row.accepted template && row.motherPool == mother &&
    row.isExplicit template == isExplicit

theorem loadRows_groups (m : Nat) : (loadRows template rows).groups m =
    ⟨(rowsOf template rows m true).map PoolPoolRow.object,
      (rowsOf template rows m false).map PoolPoolRow.object⟩ := by
  induction rows using List.reverseRecOn with
  | nil => rfl
  | append_singleton rows row ih =>
    rw [loadRows_append]
    unfold rowsOf loadRow at *
    rw [List.filter_append, List.filter_append, List.map_append, List.map_append]
    split
    · rename_i haccepted
      dsimp only
      by_cases hm : row.motherPool = m
      · subst hm
        rw [Function.update_self, ih]
        unfold PoolGroup.addEntry
        cases hexplicit : row.isExplicit template <;> simp [haccepted, hexplicit]
      · rw [Function.update_of_ne (Ne.symm hm), ih]
        simp [hm]
    · rename_i haccepted
      rw [ih]
      simp [haccepted]

def Listed (template : Nat → Option Nat) (rows : List PoolPoolRow) (child mother : Nat) : Prop :=
  ∃ row ∈ rows, row.accepted template ∧ row.poolId = child ∧ row.motherPool = mother

def FirstOnCircles (template : Nat → Option Nat) (rows : List PoolPoolRow) : Prop :=
  ∀ child mother, Listed template rows child mother →
    ReflTransGen (Listed template rows) mother child →
    (∀ row, (rows.filter (PoolPoolRow.accepted template)).find? (fun row => row.poolId == child) =
      some row → row.motherPool = mother) ∧
    ∀ isExplicit, (rowsOf template rows mother isExplicit).countP (fun row => row.poolId == child) ≤ 1

theorem under_loadRows {child mother : Nat} :
    (loadRows template rows).Under child mother ↔ Listed template rows child mother := by
  unfold PoolLoad.Under PoolGroup.guids Listed
  rw [loadRows_groups]
  simp only [List.map_append, List.map_map, List.mem_append, List.mem_map, rowsOf, List.mem_filter,
    Function.comp, PoolPoolRow.object, Bool.and_eq_true, beq_iff_eq]
  constructor
  · rintro (⟨row, ⟨hrow, ⟨haccepted, hmother⟩, -⟩, hchild⟩ | ⟨row, ⟨hrow, ⟨haccepted, hmother⟩, -⟩, hchild⟩) <;>
      exact ⟨row, hrow, haccepted, hchild, hmother⟩
  · rintro ⟨row, hrow, haccepted, hchild, hmother⟩
    cases hexplicit : row.isExplicit template with
    | true => exact .inr ⟨row, ⟨hrow, ⟨haccepted, hmother⟩, hexplicit⟩, hchild⟩
    | false => exact .inl ⟨row, ⟨hrow, ⟨haccepted, hmother⟩, hexplicit⟩, hchild⟩

def PoolGroup.copies (g : PoolGroup) (isExplicit : Bool) (child : Nat) : Nat :=
  (if isExplicit then g.explicitlyChanced else g.equalChanced).countP fun obj => obj.guid == child

theorem PoolGroup.mem_guids_iff {g : PoolGroup} {child : Nat} :
    child ∈ g.guids ↔ ∃ isExplicit, 0 < g.copies isExplicit child := by
  unfold PoolGroup.guids PoolGroup.copies
  simp only [List.map_append, List.mem_append, List.mem_map, List.countP_pos_iff, beq_iff_eq]
  constructor
  · rintro (h | h)
    · exact ⟨false, h⟩
    · exact ⟨true, h⟩
  · rintro ⟨isExplicit, h⟩
    cases isExplicit with
    | false => exact .inl h
    | true => exact .inr h

theorem copies_loadRows (mother : Nat) (isExplicit : Bool) (child : Nat) :
    ((loadRows template rows).groups mother).copies isExplicit child =
      (rowsOf template rows mother isExplicit).countP fun row => row.poolId == child := by
  unfold PoolGroup.copies
  rw [loadRows_groups]
  cases isExplicit <;> exact List.countP_map ..

structure Reduced (l₀ l : PoolLoad) : Prop where
  copies : ∀ m b c, (l.groups m).copies b c ≤ (l₀.groups m).copies b c
  searchMap : ∀ c m, l.poolSearchMap c = some m → l₀.poolSearchMap c = some m
  removed : ∀ c m, l₀.poolSearchMap c = some m → l.poolSearchMap c = none →
    ∀ b, (l.groups m).copies b c ≤ (l₀.groups m).copies b c - 1

theorem Reduced.refl (l : PoolLoad) : Reduced l l where
  copies _ _ _ := Nat.le_refl _
  searchMap _ _ h := h
  removed _ _ h hnone := nomatch h.symm.trans hnone

theorem copies_removeOneRelation (g : PoolGroup) (child : Nat) (b : Bool) (c : Nat) :
    (g.removeOneRelation child).copies b c ≤ g.copies b c ∧
      (g.removeOneRelation child).copies b child = g.copies b child - 1 := by
  unfold PoolGroup.removeOneRelation PoolGroup.copies
  cases b with
  | false => exact ⟨List.eraseP_sublist.countP_le, countP_eraseP ..⟩
  | true => exact ⟨List.eraseP_sublist.countP_le, countP_eraseP ..⟩

theorem Reduced.removeLink {l₀ : PoolLoad} (h : Reduced l₀ l) (child : Nat) :
    Reduced l₀ (l.removeLink child) := by
  unfold PoolLoad.removeLink
  split
  · exact h
  rename_i mother hmother
  have hcopies : ∀ m b c, ((Function.update l.groups mother
      ((l.groups mother).removeOneRelation child)) m).copies b c ≤ (l.groups m).copies b c := by
    intro m b c
    by_cases hm : m = mother
    · subst hm
      rw [Function.update_self]
      exact (copies_removeOneRelation ..).1
    · rw [Function.update_of_ne hm]
  refine ⟨fun m b c => Nat.le_trans (hcopies m b c) (h.copies m b c), fun c m hc => ?_,
    fun c m hc hnone b => ?_⟩
  · dsimp only at hc
    by_cases heq : c = child
    · subst heq
      rw [Function.update_self] at hc
      exact nomatch hc
    · rw [Function.update_of_ne heq] at hc
      exact h.searchMap c m hc
  · dsimp only at hnone ⊢
    by_cases heq : c = child
    · subst heq
      have hm : mother = m := Option.some.inj ((h.searchMap c mother hmother).symm.trans hc)
      subst hm
      rw [Function.update_self, (copies_removeOneRelation _ c b c).2]
      exact Nat.sub_le_sub_right (h.copies mother b c) 1
    · rw [Function.update_of_ne heq] at hnone
      exact Nat.le_trans (hcopies m b c) (h.removed c m hc hnone b)

end Ashamane.Pools

/-! The search for circular references follows the first mothers only. When the circles lie on
them, it leaves none. -/
namespace Ashamane.Pools

open Relation

variable {template : Nat → Option Nat} {rows : List PoolPoolRow} {l₀ l l' : PoolLoad}
  {searchMap : Nat → Option Nat} {p q c : Nat}

def PoolLoad.NoCircle (l : PoolLoad) : Prop := ∀ p, ¬TransGen l.Under p p

theorem not_circle_of_end (h : ReflTransGen (Link searchMap) p q) (hq : searchMap q = none) :
    ¬TransGen (Link searchMap) p p := by
  induction h using ReflTransGen.head_induction_on with
  | refl =>
    intro hcircle
    obtain ⟨m, hm, -⟩ := TransGen.head'_iff.mp hcircle
    exact nomatch hm.symm.trans hq
  | @head a b hlink _ ih =>
    intro hcircle
    obtain ⟨m, hm, hback⟩ := TransGen.head'_iff.mp hcircle
    obtain rfl := Option.some.inj (hlink.symm.trans hm)
    exact ih (TransGen.tail'_iff.mpr ⟨a, hback, hlink⟩)

theorem links_update (h : ReflTransGen (Link searchMap) p c) :
    ReflTransGen (Link (Function.update searchMap c none)) p c := by
  induction h using ReflTransGen.head_induction_on with
  | refl => exact .refl
  | @head a b hlink _ ih =>
    by_cases ha : a = c
    · exact ha ▸ .refl
    · refine ReflTransGen.head ?_ ih
      unfold Link
      rw [Function.update_of_ne ha]
      exact hlink

theorem walk_spec {fuel : Nat} {checkedPools : List Nat} {r : Option Nat}
    (h : walk searchMap fuel checkedPools p = some r) :
    ∃ q, ReflTransGen (Link searchMap) p q ∧ ((r = none ∧ searchMap q = none) ∨ r = some q) := by
  induction fuel generalizing p checkedPools with
  | zero => exact nomatch h
  | succ fuel ih =>
    unfold walk at h
    split at h
    · rename_i hnone
      exact ⟨p, .refl, .inl ⟨(Option.some.inj h).symm, hnone⟩⟩
    rename_i mother hmother
    split at h
    · exact ⟨p, .refl, .inr (Option.some.inj h).symm⟩
    · obtain ⟨q, hq, hr⟩ := ih h
      exact ⟨q, .head hmother hq, hr⟩

theorem removeLink_searchMap (l : PoolLoad) (c : Nat) :
    (l.removeLink c).poolSearchMap = Function.update l.poolSearchMap c none := by
  unfold PoolLoad.removeLink
  split
  · rename_i hnone
    rw [← hnone, Function.update_eq_self]
  · rfl

/-- The search removes links, and none of the pools it has begun at is on a circle of the others. -/
theorem checkPool_spec {fuel : Nat} (h : Reduced l₀ l) (hcheck : l.checkPool fuel p = some l') :
    Reduced l₀ l' ∧ ¬TransGen (Link l'.poolSearchMap) p p ∧
      ∀ a b, Link l'.poolSearchMap a b → Link l.poolSearchMap a b := by
  obtain ⟨r, hwalk, rfl⟩ := Option.map_eq_some_iff.mp hcheck
  obtain ⟨q, hlinks, ⟨rfl, hend⟩ | rfl⟩ := walk_spec hwalk
  · exact ⟨h, not_circle_of_end hlinks hend, fun _ _ hlink => hlink⟩
  · dsimp only
    refine ⟨h.removeLink q, ?_, ?_⟩
    · rw [removeLink_searchMap]
      exact not_circle_of_end (links_update hlinks) (Function.update_self ..)
    · intro a b hlink
      unfold Link at hlink
      rw [removeLink_searchMap] at hlink
      by_cases ha : a = q
      · rw [ha, Function.update_self] at hlink
        exact nomatch hlink
      · rw [Function.update_of_ne ha] at hlink
        exact hlink

theorem check_spec {fuel : Nat} {order : List Nat} (h : Reduced l₀ l)
    (hcheck : l.check fuel order = some l') :
    Reduced l₀ l' ∧ (∀ p ∈ order, ¬TransGen (Link l'.poolSearchMap) p p) ∧
      ∀ a b, Link l'.poolSearchMap a b → Link l.poolSearchMap a b := by
  unfold PoolLoad.check at hcheck
  induction order generalizing l with
  | nil =>
    obtain rfl := Option.some.inj hcheck
    exact ⟨h, nofun, fun _ _ hlink => hlink⟩
  | cons p order ih =>
    obtain ⟨u, hu, hrest⟩ := Option.bind_eq_some_iff.mp hcheck
    obtain ⟨hreduced, hp, hlinks⟩ := checkPool_spec h hu
    obtain ⟨hreduced', horder, hlinks'⟩ := ih hreduced hrest
    refine ⟨hreduced', ?_, fun a b hlink => hlinks a b (hlinks' a b hlink)⟩
    intro q hq
    rcases List.mem_cons.mp hq with rfl | hq
    · exact fun hcircle => hp (TransGen.mono hlinks' _ _ hcircle)
    · exact horder q hq

theorem Reduced.under (h : Reduced l₀ l) {child mother : Nat} (hunder : l.Under child mother) :
    l₀.Under child mother := by
  obtain ⟨isExplicit, hpos⟩ := PoolGroup.mem_guids_iff.mp hunder
  exact PoolGroup.mem_guids_iff.mpr ⟨isExplicit, Nat.lt_of_lt_of_le hpos (h.copies ..)⟩

theorem Listed.inTemplate {child mother : Nat} (h : Listed template rows child mother) :
    (template child).isSome := by
  obtain ⟨row, -, haccepted, rfl, -⟩ := h
  simp only [PoolPoolRow.accepted, Bool.and_eq_true] at haccepted
  exact haccepted.1.1.2

/-- The search leaves no circle, when those of the rows lie on the first mothers. -/
theorem check_noCircle {fuel : Nat} {order : List Nat} (hfirst : FirstOnCircles template rows)
    (horder : ∀ p, p ∈ order ↔ (template p).isSome)
    (hcheck : (loadRows template rows).check fuel order = some l) : l.NoCircle := by
  obtain ⟨hreduced, hended, -⟩ := check_spec (Reduced.refl _) hcheck
  have hlisted : ∀ a b, l.Under a b → Listed template rows a b :=
    fun a b hunder => under_loadRows.mp (hreduced.under hunder)
  -- a link that is left on a circle is one of the search map
  have hlink : ∀ a b, l.Under a b → ReflTransGen l.Under b a → Link l.poolSearchMap a b := by
    intro a b hunder hback
    obtain ⟨hmother, honce⟩ := hfirst a b (hlisted a b hunder) (ReflTransGen.mono hlisted _ _ hback)
    have hmap : (loadRows template rows).poolSearchMap a = some b := by
      rw [loadRows_searchMap]
      obtain ⟨row, hrow, haccepted, hpool, -⟩ := hlisted a b hunder
      cases hfind : (rows.filter (PoolPoolRow.accepted template)).find?
          fun row => row.poolId == a with
      | none =>
        have := List.find?_eq_none.mp hfind row (List.mem_filter.mpr ⟨hrow, haccepted⟩)
        exact absurd (beq_iff_eq.mpr hpool) this
      | some first => exact congr_arg some (hmother first hfind)
    cases hleft : l.poolSearchMap a with
    | none =>
      obtain ⟨isExplicit, hpos⟩ := PoolGroup.mem_guids_iff.mp hunder
      have hle := hreduced.removed a b hmap hleft isExplicit
      rw [copies_loadRows] at hle
      have := honce isExplicit
      omega
    | some m => exact hleft.trans (((hreduced.searchMap a m hleft).symm.trans hmap) ▸ rfl)
  intro p hcircle
  refine hended p ?_ ?_
  · obtain ⟨m, hm, -⟩ := TransGen.head'_iff.mp hcircle
    exact (horder p).mpr (Listed.inTemplate (hlisted p m hm))
  · have hall : ∀ {a b}, TransGen l.Under a b → ReflTransGen l.Under b a →
        TransGen (Link l.poolSearchMap) a b := by
      intro a b hab
      induction hab with
      | single hunder => exact fun hback => .single (hlink _ _ hunder hback)
      | tail hab hunder ih =>
        intro hback
        exact .tail (ih (.head hunder hback)) (hlink _ _ hunder (hback.trans hab.to_reflTransGen))
    exact hall hcircle .refl

end Ashamane.Pools
