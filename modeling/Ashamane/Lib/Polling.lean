import Mathlib.Algebra.Order.Ring.Int

/-! A signal over time that is looked at at some second `t`, and again at `t + d + 1`: what was
seen at the first look stands for the signal until the second one. -/
namespace Ashamane.Lib
variable {β : Type*} {signal : Int → β} {on : β} {t d : Int}

/-- The signal is on from `a` to `b`, and neither right before nor right after. -/
structure Window (signal : Int → β) (on : β) (a b : Int) : Prop where
  le : a ≤ b
  inside : ∀ s, a ≤ s → s ≤ b → signal s = on
  before : signal (a - 1) ≠ on
  after : signal (b + 1) ≠ on

structure Safe (signal : Int → β) (on : β) (t d : Int) : Prop where
  steady : ∀ s, t ≤ s → s ≤ t + d - 1 → signal s = signal t
  seen : ∀ a b, Window signal on a b → ¬(t < a ∧ b < t + d + 1)

namespace Safe

/-- What was seen at the first look is wrong only in the last second before the second one. -/
theorem late (h : Safe signal on t d) {s : Int} (hs : t ≤ s) (hlt : s < t + d + 1)
    (hne : signal s ≠ signal t) : s = t + d := by
  by_contra hsd
  exact hne (h.steady s hs (by omega))

theorem mono (h : Safe signal on t d) {d' : Int} (hd : d' ≤ d) : Safe signal on t d' where
  steady s hs hsd := h.steady s hs (by omega)
  seen a b w := fun ⟨ha, hb⟩ => h.seen a b w ⟨ha, by omega⟩

theorem of_off (off : β) (hoff : off ≠ on) (h : ∀ s, t ≤ s → s ≤ t + d → signal s = off) :
    Safe signal on t d where
  steady s hs hsd := by rw [h s hs (by omega), h t le_rfl (by omega)]
  seen a b w := by
    intro ⟨ha, hb⟩
    have hle := w.le
    exact hoff ((h a (by omega) (by omega)).symm.trans (w.inside a le_rfl hle))

theorem of_on (h : ∀ s, t ≤ s → s ≤ t + d - 1 → signal s = on) : Safe signal on t d where
  steady s hs hsd := by rw [h s hs hsd, h t le_rfl (by omega)]
  seen a b w := by
    intro ⟨ha, hb⟩
    have hle := w.le
    exact w.before (h (a - 1) (by omega) (by omega))

/-- A signal that goes on in the last second is missed only if it goes off at once. -/
theorem iff_of_rise (off : β) (hoff : off ≠ on) (hd : 0 < d)
    (h : ∀ s, t ≤ s → s ≤ t + d - 1 → signal s = off) (hon : signal (t + d) = on) :
    Safe signal on t d ↔ signal (t + d + 1) = on := by
  constructor
  · intro hsafe
    by_contra hafter
    refine hsafe.seen (t + d) (t + d) ⟨le_rfl, ?_, ?_, hafter⟩ ⟨by omega, by omega⟩
    · intro s h₁ h₂
      rw [show s = t + d by omega]
      exact hon
    · rw [h _ (by omega) (by omega)]
      exact hoff
  · intro hnext
    refine ⟨fun s hs hsd => by rw [h s hs hsd, h t le_rfl (by omega)], ?_⟩
    intro a b w ⟨ha, hb⟩
    have hle := w.le
    have hlast : ¬ a ≤ t + d - 1 := by
      intro hcon
      exact hoff ((h a ha.le hcon).symm.trans (w.inside a le_rfl hle))
    have hb' : b = t + d := by omega
    exact w.after (hb' ▸ hnext)

/-- A signal that goes on in the second after the first look is never safe with a longer delay. -/
theorem not_of_next (off : β) (hoff : off ≠ on) (hd : 2 ≤ d) (h : signal t = off)
    (hon : signal (t + 1) = on) : ¬ Safe signal on t d := by
  intro hsafe
  have hsame := hsafe.steady (t + 1) (by omega) (by omega)
  exact hoff ((hon.symm.trans (hsame.trans h)).symm)

end Safe

end Ashamane.Lib
