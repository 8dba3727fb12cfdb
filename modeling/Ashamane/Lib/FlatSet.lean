import Mathlib.Algebra.Order.BigOperators.Group.List
import Mathlib.Algebra.Order.Group.Int
import Mathlib.Algebra.Ring.Int.Defs
import Mathlib.Algebra.Ring.Nat
import Mathlib.Data.List.Nodup
import Mathlib.Order.Defs.LinearOrder
import Mathlib.Tactic.TypeStar

/-! Sets kept as a list in the order of a key, and the walk over two of them side by side. -/
namespace Ashamane.Lib

variable {α β κ : Type*} [LinearOrder κ]

structure FlatSet (key : α → κ) where
  elems : List α
  ordered : elems.Pairwise fun a b => key a < key b

namespace FlatSet

section Lists
variable (key : α → κ)

def insertList (a : α) : List α → List α
  | [] => [a]
  | b :: l =>
    if key a < key b then a :: b :: l
    else if key b < key a then b :: insertList a l
    else b :: l

variable {key}

theorem mem_insertList {a c : α} {l : List α} (h : c ∈ insertList key a l) : c = a ∨ c ∈ l := by
  induction l with
  | nil => exact .inl (List.mem_singleton.mp h)
  | cons b l ih =>
    unfold insertList at h
    split_ifs at h
    · exact List.mem_cons.mp h
    · obtain rfl | h := List.mem_cons.mp h
      · exact .inr List.mem_cons_self
      · exact (ih h).imp_right (List.mem_cons_of_mem _)
    · exact .inr h

theorem pairwise_insertList {a : α} {l : List α} (hl : l.Pairwise fun a b => key a < key b) :
    (insertList key a l).Pairwise fun a b => key a < key b := by
  induction l with
  | nil => exact List.pairwise_singleton _ _
  | cons b l ih =>
    obtain ⟨hb, hl'⟩ := List.pairwise_cons.mp hl
    unfold insertList
    split_ifs with hlt hgt
    · refine List.pairwise_cons.mpr ⟨fun c hc => ?_, hl⟩
      obtain rfl | hc := List.mem_cons.mp hc
      · exact hlt
      · exact hlt.trans (hb c hc)
    · refine List.pairwise_cons.mpr ⟨fun c hc => ?_, ih hl'⟩
      obtain rfl | hc := mem_insertList hc
      · exact hgt
      · exact hb c hc
    · exact hl

theorem find?_insertList {a : α} {l : List α} (hl : l.Pairwise fun a b => key a < key b)
    (k : κ) : (insertList key a l).find? (key · = k) =
      (l.find? (key · = k)).or (if key a = k then some a else none) := by
  induction l with
  | nil => by_cases h : key a = k <;> simp [insertList, h]
  | cons b l ih =>
    obtain ⟨hb, hl'⟩ := List.pairwise_cons.mp hl
    unfold insertList
    by_cases hlt : key a < key b
    · rw [if_pos hlt, List.find?_cons]
      by_cases hak : key a = k
      · -- the new key is not found further on
        have hnone : (b :: l).find? (key · = k) = none := by
          refine List.find?_eq_none.mpr fun c hc hck => ?_
          have hac := hak.trans (of_decide_eq_true hck).symm
          obtain rfl | hc := List.mem_cons.mp hc
          · exact hlt.ne hac
          · exact (hlt.trans (hb c hc)).ne hac
        simp [hnone, hak]
      · simp [hak]
    · rw [if_neg hlt]
      by_cases hgt : key b < key a
      · rw [if_pos hgt, List.find?_cons, List.find?_cons, ih hl']
        by_cases hbk : key b = k <;> simp [hbk]
      · have hab : key a = key b := le_antisymm (not_lt.mp hgt) (not_lt.mp hlt)
        rw [if_neg hgt, hab, List.find?_cons]
        by_cases hbk : key b = k <;> simp [hbk]

end Lists

variable {key : α → κ}

def empty : FlatSet key := ⟨[], List.Pairwise.nil⟩

def find? (s : FlatSet key) (k : κ) : Option α := s.elems.find? (key · = k)

def keys (s : FlatSet key) : List κ := s.elems.map key

def insert (a : α) (s : FlatSet key) : FlatSet key :=
  ⟨insertList key a s.elems, pairwise_insertList s.ordered⟩

def modify (k : κ) (f : α → α) (hf : ∀ a, key (f a) = key a) (s : FlatSet key) :
    FlatSet key where
  elems := s.elems.map fun a => if key a = k then f a else a
  ordered := by
    refine List.pairwise_map.mpr (s.ordered.imp fun {a b} hab => ?_)
    have hkey : ∀ c, key (if key c = k then f c else c) = key c := fun c => by
      split_ifs
      · exact hf c
      · rfl
    rwa [hkey, hkey]

def erase (k : κ) (s : FlatSet key) : FlatSet key :=
  ⟨s.elems.filter (key · ≠ k), s.ordered.filter _⟩

theorem nodup_keys (s : FlatSet key) : s.keys.Nodup :=
  List.pairwise_map.mpr (s.ordered.imp fun h => h.ne)

theorem find?_eq_none {s : FlatSet key} {k : κ} (h : k ∉ s.keys) : s.find? k = none :=
  List.find?_eq_none.mpr fun a ha heq =>
    h (List.mem_map.mpr ⟨a, ha, of_decide_eq_true heq⟩)

theorem find?_eq_some {s : FlatSet key} {k : κ} {a : α} :
    s.find? k = some a ↔ a ∈ s.elems ∧ key a = k := by
  constructor
  · intro h
    exact ⟨List.mem_of_find?_eq_some h, of_decide_eq_true (List.find?_some (p := (key · = k)) h)⟩
  · intro ⟨ha, hk⟩
    obtain ⟨b, hb⟩ := Option.isSome_iff_exists.mp
      (List.find?_isSome (p := (key · = k)).mpr ⟨a, ha, decide_eq_true hk⟩)
    have hbk := of_decide_eq_true (List.find?_some (p := (key · = k)) hb)
    rw [List.inj_on_of_nodup_map s.nodup_keys ha (List.mem_of_find?_eq_some hb) (hk.trans hbk.symm)]
    exact hb

theorem forall_mem_iff {s : FlatSet key} {P : α → Prop} :
    (∀ a ∈ s.elems, P a) ↔ ∀ k a, s.find? k = some a → P a :=
  ⟨fun h _ a ha => h a (find?_eq_some.mp ha).1, fun h a ha => h _ a (find?_eq_some.mpr ⟨ha, rfl⟩)⟩

theorem split {s : FlatSet key} {k : κ} {a : α} (h : s.find? k = some a) :
    ∃ l r, s.elems = l ++ a :: r ∧ (∀ b ∈ l, key b ≠ k) ∧ ∀ b ∈ r, key b ≠ k := by
  obtain ⟨ha, rfl⟩ := find?_eq_some.mp h
  obtain ⟨l, r, hlr⟩ := List.append_of_mem ha
  have hord := s.ordered
  rw [hlr] at hord
  obtain ⟨-, har, hla⟩ := List.pairwise_append.mp hord
  exact ⟨l, r, hlr, fun b hb => (hla b hb a List.mem_cons_self).ne,
    fun b hb => ((List.pairwise_cons.mp har).1 b hb).ne'⟩

theorem find?_insert (a : α) (s : FlatSet key) (k : κ) :
    (s.insert a).find? k = (s.find? k).or (if key a = k then some a else none) :=
  find?_insertList s.ordered k

theorem find?_modify (k : κ) (f : α → α) {hf : ∀ a, key (f a) = key a} (s : FlatSet key)
    (j : κ) : (s.modify k f hf).find? j = (s.find? j).map fun a => if j = k then f a else a := by
  have hkey : ∀ c, key (if key c = k then f c else c) = key c := fun c => by
    split_ifs
    · exact hf c
    · rfl
  unfold find? modify
  rw [List.find?_map]
  simp only [Function.comp_def, hkey]
  cases hfound : s.elems.find? (key · = j) with
  | none => rfl
  | some a =>
    have ha := of_decide_eq_true (List.find?_some (p := (key · = j)) hfound)
    simp only [Option.map_some, ha]

theorem find?_erase (k : κ) (s : FlatSet key) (j : κ) :
    (s.erase k).find? j = if j = k then none else s.find? j := by
  unfold find? erase
  rw [List.find?_filter]
  split_ifs with h
  · subst h
    refine List.find?_eq_none.mpr fun a _ => by simp
  · congr 1
    funext a
    by_cases ha : key a = j
    · simp [ha, h]
    · simp [ha]

def total (w : α → Int) (s : FlatSet key) : Int := (s.elems.map w).sum

theorem total_insert {w : α → Int} {a : α} (ha : w a = 0) (s : FlatSet key) :
    (s.insert a).total w = s.total w := by
  unfold total insert
  dsimp only
  generalize s.elems = l
  induction l with
  | nil => simp [insertList, ha]
  | cons b l ih =>
    unfold insertList
    split_ifs
    · rw [List.map_cons, List.sum_cons, ha, zero_add]
    · rw [List.map_cons, List.map_cons, List.sum_cons, List.sum_cons, ih]
    · rfl

theorem total_modify {k : κ} {f : α → α} {hf : ∀ a, key (f a) = key a} {s : FlatSet key} {a : α}
    (h : s.find? k = some a) (w : α → Int) :
    (s.modify k f hf).total w = s.total w + (w (f a) - w a) := by
  obtain ⟨l, r, hlr, hl, hr⟩ := split h
  have hkeep : ∀ m : List α, (∀ b ∈ m, key b ≠ k) →
      m.map (fun b => if key b = k then f b else b) = m := fun m hm =>
    (List.map_congr_left fun b hb => if_neg (hm b hb)).trans (List.map_id' m)
  unfold total modify
  dsimp only
  rw [hlr, List.map_append, List.map_cons, hkeep l hl, hkeep r hr,
    if_pos (find?_eq_some.mp h).2]
  simp only [List.map_append, List.map_cons, List.sum_append, List.sum_cons]
  omega

theorem total_modify_same {k : κ} {f : α → α} {hf : ∀ a, key (f a) = key a} {w : α → Int}
    (hw : ∀ a, w (f a) = w a) (s : FlatSet key) : (s.modify k f hf).total w = s.total w := by
  unfold total modify
  dsimp only
  rw [List.map_map]
  congr 1
  refine List.map_congr_left fun a _ => ?_
  rw [Function.comp_apply]
  split_ifs
  · exact hw a
  · rfl

theorem total_erase {k : κ} {s : FlatSet key} {a : α} (h : s.find? k = some a)
    (w : α → Int) : (s.erase k).total w = s.total w - w a := by
  obtain ⟨l, r, hlr, hl, hr⟩ := split h
  have hkeep : ∀ m : List α, (∀ b ∈ m, key b ≠ k) → m.filter (key · ≠ k) = m := fun m hm =>
    List.filter_eq_self.mpr fun b hb => decide_eq_true (hm b hb)
  unfold total erase
  dsimp only
  rw [hlr, List.filter_append, List.filter_cons_of_neg (by simp [(find?_eq_some.mp h).2]),
    hkeep l hl, hkeep r hr]
  simp only [List.map_append, List.map_cons, List.sum_append, List.sum_cons]
  omega

/-- Weights that are not negative add up to zero only if they are all zero. -/
theorem total_eq_zero_iff {s : FlatSet key} {w : α → Int} (hw : ∀ a ∈ s.elems, 0 ≤ w a) :
    s.total w = 0 ↔ ∀ a ∈ s.elems, w a = 0 := by
  unfold total
  generalize s.elems = l at hw ⊢
  induction l with
  | nil => simp
  | cons a l ih =>
    have hrest := ih fun b hb => hw b (List.mem_cons_of_mem _ hb)
    have hnonneg : 0 ≤ (l.map w).sum := by
      refine List.sum_nonneg fun x hx => ?_
      obtain ⟨b, hb, rfl⟩ := List.mem_map.mp hx
      exact hw b (List.mem_cons_of_mem _ hb)
    have ha := hw a List.mem_cons_self
    rw [List.map_cons, List.sum_cons, List.forall_mem_cons, ← hrest]
    omega

section Intersects
variable {key₂ : β → κ}

/-- The walk over two lists side by side: is there a common key for which `p` holds? -/
def intersectsList (key : α → κ) (key₂ : β → κ) (p : α → β → Bool) : List α → List β → Bool
  | a :: l, b :: m =>
    if key a < key₂ b then intersectsList key key₂ p l (b :: m)
    else if key₂ b < key a then intersectsList key key₂ p (a :: l) m
    else if !p a b then intersectsList key key₂ p l m
    else true
  | _, _ => false
termination_by l m => l.length + m.length

def intersects (p : α → β → Bool) (s : FlatSet key) (t : FlatSet key₂) : Bool :=
  intersectsList key key₂ p s.elems t.elems

theorem intersectsList_iff {p : α → β → Bool} {l : List α} {m : List β}
    (hl : l.Pairwise fun a b => key a < key b) (hm : m.Pairwise fun a b => key₂ a < key₂ b) :
    intersectsList key key₂ p l m = true ↔
      ∃ a ∈ l, ∃ b ∈ m, key a = key₂ b ∧ p a b = true := by
  fun_induction intersectsList key key₂ p l m with
  | case1 a l b m hlt ih =>
    obtain ⟨-, hl'⟩ := List.pairwise_cons.mp hl
    obtain ⟨hb, -⟩ := List.pairwise_cons.mp hm
    rw [ih hl' hm]
    constructor
    · intro ⟨c, hc, h⟩
      exact ⟨c, List.mem_cons_of_mem _ hc, h⟩
    · intro ⟨c, hc, d, hd, hkey, hp⟩
      obtain rfl | hc := List.mem_cons.mp hc
      · obtain rfl | hd := List.mem_cons.mp hd
        · exact absurd hkey hlt.ne
        · exact absurd hkey (hlt.trans (hb d hd)).ne
      · exact ⟨c, hc, d, hd, hkey, hp⟩
  | case2 a l b m hlt hgt ih =>
    obtain ⟨ha, -⟩ := List.pairwise_cons.mp hl
    obtain ⟨-, hm'⟩ := List.pairwise_cons.mp hm
    rw [ih hl hm']
    constructor
    · intro ⟨c, hc, d, hd, h⟩
      exact ⟨c, hc, d, List.mem_cons_of_mem _ hd, h⟩
    · intro ⟨c, hc, d, hd, hkey, hp⟩
      obtain rfl | hd := List.mem_cons.mp hd
      · obtain rfl | hc := List.mem_cons.mp hc
        · exact absurd hkey hgt.ne'
        · exact absurd hkey (hgt.trans (ha c hc)).ne'
      · exact ⟨c, hc, d, hd, hkey, hp⟩
  | case3 a l b m hlt hgt hp ih =>
    obtain ⟨ha, hl'⟩ := List.pairwise_cons.mp hl
    obtain ⟨hb, hm'⟩ := List.pairwise_cons.mp hm
    have hab : key a = key₂ b := le_antisymm (not_lt.mp hgt) (not_lt.mp hlt)
    rw [ih hl' hm']
    constructor
    · intro ⟨c, hc, d, hd, h⟩
      exact ⟨c, List.mem_cons_of_mem _ hc, d, List.mem_cons_of_mem _ hd, h⟩
    · intro ⟨c, hc, d, hd, hkey, hpcd⟩
      obtain rfl | hc := List.mem_cons.mp hc
      · obtain rfl | hd := List.mem_cons.mp hd
        · rw [hpcd] at hp
          cases hp
        · exact absurd (hab.symm.trans hkey) (hb d hd).ne
      · obtain rfl | hd := List.mem_cons.mp hd
        · exact absurd (hab.trans hkey.symm) (ha c hc).ne
        · exact ⟨c, hc, d, hd, hkey, hpcd⟩
  | case4 a l b m hlt hgt hp =>
    have hab : key a = key₂ b := le_antisymm (not_lt.mp hgt) (not_lt.mp hlt)
    exact iff_of_true rfl
      ⟨a, List.mem_cons_self, b, List.mem_cons_self, hab, by simpa using hp⟩
  | case5 l m hnot =>
    refine iff_of_false Bool.false_ne_true fun ⟨c, hc, d, hd, _⟩ => ?_
    obtain ⟨a, l, rfl⟩ := List.exists_cons_of_ne_nil (List.ne_nil_of_mem hc)
    obtain ⟨b, m, rfl⟩ := List.exists_cons_of_ne_nil (List.ne_nil_of_mem hd)
    exact hnot a l b m rfl rfl

theorem intersects_iff {p : α → β → Bool} {s : FlatSet key} {t : FlatSet key₂} :
    s.intersects p t = true ↔
      ∃ a ∈ s.elems, ∃ b ∈ t.elems, key a = key₂ b ∧ p a b = true :=
  intersectsList_iff s.ordered t.ordered

end Intersects

end FlatSet
end Ashamane.Lib
