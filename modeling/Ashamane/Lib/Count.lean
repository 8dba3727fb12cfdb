import Mathlib.Algebra.BigOperators.Group.Finset.Piecewise
import Mathlib.Algebra.Order.BigOperators.Group.Finset
import Mathlib.Algebra.Ring.Int.Defs
import Mathlib.Algebra.Ring.Nat
import Mathlib.Data.Nat.Cast.Basic

/-! How many elements of a list meet a condition, when one of them is changed or erased. -/
namespace Ashamane.Lib

variable {α : Type}

theorem countP_modify (p : α → Bool) (f : α → α) {l : List α} {i : Nat} {x : α}
    (h : l[i]? = some x) : (l.modify i f).countP p + (p x).toNat = l.countP p + (p (f x)).toNat := by
  induction l generalizing i with
  | nil => cases h
  | cons y l ih =>
    cases i with
    | zero =>
      cases h
      rw [List.modify_zero_cons, List.countP_cons, List.countP_cons]
      cases p x <;> cases p (f x) <;> simp [Nat.add_assoc]
    | succ i =>
      have hrec := ih h
      rw [List.modify_succ_cons, List.countP_cons, List.countP_cons]
      omega

theorem countP_eraseIdx (p : α → Bool) {l : List α} {i : Nat} {x : α} (h : l[i]? = some x) :
    (l.eraseIdx i).countP p + (p x).toNat = l.countP p := by
  induction l generalizing i with
  | nil => cases h
  | cons y l ih =>
    cases i with
    | zero =>
      cases h
      rw [List.eraseIdx_cons_zero, List.countP_cons]
      cases p x <;> simp
    | succ i =>
      have hrec := ih h
      rw [List.eraseIdx_cons_succ, List.countP_cons, List.countP_cons]
      omega

/-- A sum over distinct elements, when the summand of one of them changes. -/
theorem sum_map_change {f g : α → Nat} {l : List α} {x : α} (hl : l.Nodup) (hx : x ∈ l)
    (h : ∀ y ∈ l, y ≠ x → g y = f y) : (l.map g).sum + f x = (l.map f).sum + g x := by
  induction l with
  | nil => cases hx
  | cons y l ih =>
    obtain ⟨hnew, hl⟩ := List.nodup_cons.mp hl
    simp only [List.map_cons, List.sum_cons]
    obtain rfl | hx := List.mem_cons.mp hx
    · have hrest : l.map g = l.map f := by
        refine List.map_congr_left fun z hz => h z (List.mem_cons_of_mem _ hz) ?_
        rintro rfl
        exact hnew hz
      rw [hrest]
      omega
    · have hy : g y = f y := by
        refine h y List.mem_cons_self ?_
        rintro rfl
        exact hnew hx
      have hrec := ih hl hx fun z hz => h z (List.mem_cons_of_mem _ hz)
      omega

theorem countP_eq_sum (p : α → Bool) (l : List α) :
    l.countP p = (l.map fun x => (p x).toNat).sum := by
  induction l with
  | nil => rfl
  | cons x l ih =>
    rw [List.countP_cons, List.map_cons, List.sum_cons, ih]
    cases p x <;> simp [Nat.add_comm]

theorem countP_change {p p' : α → Bool} {l : List α} {x : α} (hl : l.Nodup) (hx : x ∈ l)
    (h : ∀ y ∈ l, y ≠ x → p' y = p y) :
    l.countP p' + (p x).toNat = l.countP p + (p' x).toNat := by
  rw [countP_eq_sum, countP_eq_sum]
  exact sum_map_change hl hx fun y hy hne => congr_arg Bool.toNat (h y hy hne)

/-- A list whose elements fall into `n` classes. -/
theorem length_eq_sum_countP (f : α → Nat) {n : Nat} {l : List α} (h : ∀ x ∈ l, f x < n) :
    l.length = ∑ i ∈ Finset.range n, l.countP fun x => f x == i := by
  induction l with
  | nil => simp
  | cons x l ih =>
    have hrest := ih fun y hy => h y (List.mem_cons_of_mem _ hy)
    have hx := h x (List.mem_cons_self ..)
    simp only [List.countP_cons, beq_iff_eq, Finset.sum_add_distrib, Finset.sum_ite_eq,
      Finset.mem_range, if_pos hx, List.length_cons, ← hrest]

theorem length_le_of_countP_le (f : α → Nat) {n k : Nat} {l : List α} (h : ∀ x ∈ l, f x < n)
    (hcount : ∀ i < n, l.countP (fun x => f x == i) ≤ k) : l.length ≤ n * k := by
  rw [length_eq_sum_countP f h]
  have hsum := Finset.sum_le_card_nsmul (Finset.range n) (fun i => l.countP fun x => f x == i) k
    fun i hi => hcount i (Finset.mem_range.mp hi)
  simpa using hsum

end Ashamane.Lib
