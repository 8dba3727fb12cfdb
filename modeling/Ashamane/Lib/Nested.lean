import Ashamane.Lib.Assoc

/-! Maps of maps, of which the inner ones go when they get empty. -/
namespace Ashamane.Lib

variable {α β ν : Type*} [DecidableEq α] [DecidableEq β]

abbrev Nested (α β ν : Type*) := AList fun _ : α => AList fun _ : β => ν

namespace Nested

def get (m : Nested α β ν) (a : α) (b : β) : Option ν := (m.lookup a).bind (·.lookup b)

def insert (a : α) (b : β) (v : ν) (m : Nested α β ν) : Nested α β ν :=
  AList.insert a (((m.lookup a).getD ∅).insert b v) m

def erase (a : α) (b : β) (m : Nested α β ν) : Nested α β ν :=
  match m.lookup a with
  | none => m
  | some inner =>
    if (inner.erase b).entries.isEmpty then AList.erase a m
    else AList.insert a (inner.erase b) m

def Tidy (m : Nested α β ν) : Prop := ∀ a inner, m.lookup a = some inner → inner ≠ ∅

omit [DecidableEq α] in
theorem lookup_of_isEmpty {s : AList fun _ : α => ν} (h : s.entries.isEmpty = true) (a : α)
    [DecidableEq α] : s.lookup a = none := by
  rw [AList.lookup, List.isEmpty_iff.mp h]
  rfl

@[simp] theorem get_empty (a : α) (b : β) : (∅ : Nested α β ν).get a b = none := rfl

omit [DecidableEq β] in
theorem tidy_empty : (∅ : Nested α β ν).Tidy := fun _ _ h => nomatch h

theorem get_insert (m : Nested α β ν) (a : α) (b : β) (v : ν) (a' : α) (b' : β) :
    (m.insert a b v).get a' b' = if a' = a ∧ b' = b then some v else m.get a' b' := by
  unfold get insert
  rw [Assoc.lookup_insert]
  by_cases ha : a' = a
  · subst ha
    rw [if_pos rfl, Option.bind_some, Assoc.lookup_insert]
    by_cases hb : b' = b
    · rw [if_pos hb, if_pos ⟨rfl, hb⟩]
    · rw [if_neg hb, if_neg fun h => hb h.2]
      cases m.lookup a' <;> rfl
  · rw [if_neg ha, if_neg fun h => ha h.1]

theorem Tidy.insert {m : Nested α β ν} (h : m.Tidy) (a : α) (b : β) (v : ν) :
    (m.insert a b v).Tidy := by
  intro a' inner hinner
  obtain ⟨-, rfl⟩ | ⟨-, hold⟩ := Assoc.lookup_insert_some hinner
  · intro hempty
    have hlookup : (((m.lookup a).getD ∅).insert b v).lookup b = some v := AList.lookup_insert _
    rw [hempty] at hlookup
    cases hlookup
  · exact h a' inner hold

theorem get_erase (m : Nested α β ν) (a : α) (b : β) (a' : α) (b' : β) :
    (m.erase a b).get a' b' = if a' = a ∧ b' = b then none else m.get a' b' := by
  unfold get erase
  cases hinner : m.lookup a with
  | none =>
    by_cases h : a' = a ∧ b' = b
    · rw [if_pos h, h.1, hinner]
      rfl
    · rw [if_neg h]
  | some inner =>
    dsimp only
    have herased := Assoc.lookup_erase inner b b'
    by_cases ha : a' = a
    · subst ha
      rw [hinner, Option.bind_some]
      simp only [true_and]
      rw [← herased]
      split_ifs with hempty
      · rw [AList.lookup_erase, lookup_of_isEmpty hempty]
        rfl
      · rw [AList.lookup_insert]
        rfl
    · have hne : ¬(a' = a ∧ b' = b) := fun h => ha h.1
      simp only [if_neg hne]
      split_ifs
      · rw [AList.lookup_erase_ne ha]
      · rw [AList.lookup_insert_ne ha]

theorem Tidy.erase {m : Nested α β ν} (h : m.Tidy) (a : α) (b : β) : (m.erase a b).Tidy := by
  unfold Nested.erase
  cases hinner : m.lookup a with
  | none => exact h
  | some inner =>
    intro a' inner' hfound
    dsimp only at hfound
    split_ifs at hfound with hempty
    · exact h a' inner' (Assoc.lookup_erase_some hfound).2
    · obtain ⟨-, rfl⟩ | ⟨-, hold⟩ := Assoc.lookup_insert_some hfound
      · intro hnone
        rw [hnone] at hempty
        exact hempty rfl
      · exact h a' inner' hold

theorem get_eraseOuter (m : Nested α β ν) (a a' : α) (b' : β) :
    get (AList.erase a m) a' b' = if a' = a then none else m.get a' b' := by
  unfold get
  rw [Assoc.lookup_erase]
  split_ifs <;> rfl

omit [DecidableEq β] in
theorem Tidy.eraseOuter {m : Nested α β ν} (h : m.Tidy) (a : α) : Tidy (AList.erase a m) :=
  fun a' inner hfound => h a' inner (Assoc.lookup_erase_some hfound).2

theorem get_foldl_erase (as : List α) (b : β) (m : Nested α β ν) (a' : α) (b' : β) :
    (as.foldl (fun m a => m.erase a b) m).get a' b' =
      if a' ∈ as ∧ b' = b then none else m.get a' b' := by
  induction as generalizing m with
  | nil => simp
  | cons a as ih =>
    rw [List.foldl_cons, ih, get_erase]
    simp only [List.mem_cons]
    split_ifs <;> simp_all

theorem Tidy.foldl_erase {m : Nested α β ν} (h : m.Tidy) (as : List α) (b : β) :
    (as.foldl (fun m a => m.erase a b) m).Tidy := by
  induction as generalizing m with
  | nil => exact h
  | cons a as ih => exact ih (h.erase a b)

def Transposed (m : Nested α β ν) (n : Nested β α ν) : Prop := ∀ a b, m.get a b = n.get b a

end Nested
end Ashamane.Lib
