import Mathlib.Logic.Basic

/-! Computations that may be left early, with one property of the states on the way and
another one of the results they are left with. -/
namespace Ashamane.Lib

universe u v w

variable {σ τ : Type u} {ε : Type v} {α : Type w}

def Exits (I : σ → Prop) (E : ε → Prop) : Except ε σ → Prop
  | .ok s => I s
  | .error e => E e

namespace Exits

variable {I : σ → Prop} {J : τ → Prop} {E : ε → Prop}

theorem bind {m : Except ε σ} {f : σ → Except ε τ} (h : Exits I E m)
    (hf : ∀ s, I s → Exits J E (f s)) : Exits J E (m >>= f) := by
  cases m with
  | ok s => exact hf s h
  | error e => exact h

theorem ite {c : Prop} [Decidable c] {m m' : Except ε σ} (h : c → Exits I E m)
    (h' : ¬ c → Exits I E m') : Exits I E (if c then m else m') := by
  split
  · next hc => exact h hc
  · next hc => exact h' hc

theorem foldlM {f : σ → α → Except ε σ} (hf : ∀ s a, I s → Exits I E (f s a)) (l : List α)
    {s : σ} (h : I s) : Exits I E (l.foldlM f s) := by
  induction l generalizing s with
  | nil => exact h
  | cons a l ih =>
    rw [List.foldlM_cons]
    exact (hf s a h).bind fun s hs => ih hs

end Exits

end Ashamane.Lib
