import Mathlib.Data.Multiset.DershowitzManna
import Mathlib.Order.WellFounded

/-! Multisets that get smaller: what is large may only become rarer. -/
namespace Ashamane.Lib

variable {α : Type*} [PartialOrder α]

theorem isDershowitzMannaLT_of_count [DecidableEq α] {N M : Multiset α} {b : α} (hb : N.count b < M.count b)
    (h : ∀ v, ¬v < b → N.count v ≤ M.count v) : N.IsDershowitzMannaLT M := by
  refine ⟨N ∩ M, N - M, M - N, ?_, ?_, ?_, ?_⟩
  · intro hzero
    have hcount := congr_arg (Multiset.count b) hzero
    rw [Multiset.count_sub, Multiset.empty_eq_zero, Multiset.count_zero] at hcount
    omega
  · ext v
    rw [Multiset.count_add, Multiset.count_inter, Multiset.count_sub]
    omega
  · ext v
    rw [Multiset.count_add, Multiset.count_inter, Multiset.count_sub]
    omega
  · intro v hv
    refine ⟨b, ?_, ?_⟩
    · rw [← Multiset.count_pos, Multiset.count_sub]
      omega
    · by_contra hle
      have hcount := Multiset.count_pos.mpr hv
      rw [Multiset.count_sub] at hcount
      have := h v hle
      omega

theorem no_infinite_shrinking [WellFoundedLT α] {σ : Type*} {step : σ → σ → Prop}
    (measure : σ → Multiset α)
    (h : ∀ s t, step s t → (measure t).IsDershowitzMannaLT (measure s)) (f : ℕ → σ) :
    ¬∀ n, step (f n) (f (n + 1)) := by
  intro hsteps
  have hwf := Multiset.wellFounded_isDershowitzMannaLT (α := α)
  exact (wellFounded_iff_isEmpty_descending_chain.mp hwf).false
    ⟨fun n => measure (f n), fun n => h _ _ (hsteps n)⟩

end Ashamane.Lib
