import Mathlib.Data.List.Nodup
import Mathlib.Tactic.TypeStar

/-! Loops whose turns each touch one place of the state: what a place holds in the end. -/
namespace Ashamane.Lib

variable {σ α β κ : Type*} [DecidableEq κ] {f : σ → α → σ} {key : α → κ} {view : κ → σ → β}
  {g : β → α → β}

theorem view_foldl (hself : ∀ s a, view (key a) (f s a) = g (view (key a) s) a)
    (hother : ∀ s a j, j ≠ key a → view j (f s a) = view j s) (j : κ) (l : List α) (s : σ) :
    view j (l.foldl f s) = (l.filter fun a => key a = j).foldl g (view j s) := by
  induction l generalizing s with
  | nil => rfl
  | cons a l ih =>
    rw [List.foldl_cons, ih]
    by_cases h : key a = j
    · subst h
      have hhit : decide (key a = key a) = true := decide_eq_true rfl
      rw [List.filter_cons, if_pos hhit, List.foldl_cons, hself]
    · have hmiss : ¬decide (key a = j) = true := fun hkey => h (of_decide_eq_true hkey)
      rw [List.filter_cons, if_neg hmiss, hother s a j (Ne.symm h)]

theorem view_foldl_nodup {f : σ → κ → σ} {g : κ → β → β}
    (hself : ∀ s k, view k (f s k) = g k (view k s))
    (hother : ∀ s k j, j ≠ k → view j (f s k) = view j s) (j : κ) {l : List κ} (hl : l.Nodup)
    (s : σ) : view j (l.foldl f s) = if j ∈ l then g j (view j s) else view j s := by
  induction l generalizing s with
  | nil => rfl
  | cons k l ih =>
    obtain ⟨hk, hl⟩ := List.nodup_cons.mp hl
    rw [List.foldl_cons, ih hl]
    by_cases h : j = k
    · subst h
      rw [if_neg hk, if_pos List.mem_cons_self, hself]
    · rw [hother s k j h]
      simp only [List.mem_cons, h, false_or]

end Ashamane.Lib
