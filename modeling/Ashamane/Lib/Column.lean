import Mathlib.Order.Defs.PartialOrder

/-! Columns of a table that hold a text of a bounded number of characters. -/
namespace Ashamane.Lib

/-- A text that a `varchar(width)` of the character set `utf8` holds: it has no characters of four
bytes. -/
def TextFits (width : Nat) (text : String) : Prop :=
  text.toList.length ≤ width ∧ ∀ c ∈ text.toList, c.toNat < 65536

instance (width : Nat) (text : String) : Decidable (TextFits width text) :=
  @instDecidableAnd _ _ _ (List.decidableBAll _ _)

/-- What a column makes of a text that is written: `none` if the statement fails. -/
structure TextColumn (width : Nat) where
  write : String → Option String
  write_of_fits : ∀ text, TextFits width text → write text = some text
  fits_of_write : ∀ text written, write text = some written → TextFits width written

def TextColumn.strict (width : Nat) : TextColumn width where
  write text := if TextFits width text then some text else none
  write_of_fits _ h := if_pos h
  fits_of_write text written h := by
    obtain ⟨hfits, heq⟩ := Option.ite_none_right_eq_some.mp h
    exact Option.some.inj heq ▸ hfits

structure Stored {α ρ : Type} (width : Nat) (text : α → String) (rowOf : α → ρ)
    (rowText : ρ → String) (value : Option α) (row : Option ρ) : Prop where
  absent : value = none → row = none
  fits : ∀ r, row = some r → TextFits width (rowText r)
  kept : ∀ a, value = some a → TextFits width (text a) → row = some (rowOf a)

namespace Stored

variable {α ρ : Type} {width : Nat} {text : α → String} {rowOf : α → ρ} {rowText : ρ → String}
  {value : Option α} {row : Option ρ}

theorem empty : Stored width text rowOf rowText none none :=
  ⟨fun _ => rfl, fun _ h => (by cases h), fun _ h => (by cases h)⟩

theorem write (column : TextColumn width) (h : Stored width text rowOf rowText value row) (a : α)
    (withText : String → ρ) (hown : withText (text a) = rowOf a)
    (htext : ∀ t, rowText (withText t) = t) :
    Stored width text rowOf rowText (some a)
      ((column.write (text a)).elim row fun t => some (withText t)) where
  absent := fun hnone => by cases hnone
  fits := fun r hr => by
    cases hwrite : column.write (text a) with
    | none =>
      rw [hwrite] at hr
      exact h.fits r hr
    | some t =>
      rw [hwrite] at hr
      rw [← Option.some.inj hr, htext]
      exact column.fits_of_write _ _ hwrite
  kept := fun b hb hfits => by
    obtain rfl := Option.some.inj hb
    rw [column.write_of_fits _ hfits, Option.elim_some, hown]

theorem eq_of_text (h : Stored width text rowOf rowText value row) {a : α} (ha : value = some a)
    {r : ρ} (hr : row = some r) (htext : rowText r = text a) :
    TextFits width (text a) ∧ r = rowOf a := by
  have hfits := htext ▸ h.fits r hr
  exact ⟨hfits, Option.some.inj (hr.symm.trans (h.kept a ha hfits))⟩

end Stored

end Ashamane.Lib
