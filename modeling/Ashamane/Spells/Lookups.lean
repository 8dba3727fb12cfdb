import Ashamane.Spells.Pointers

/-! What the operations leave of the entries and of the categories: each is told by what is found
under a spell or a category. -/
namespace Ashamane.Spells
open Ashamane.Lib

variable (A : Allocator)

namespace SpellHistory

def eraseLoop (predicate : Nat → CooldownEntry → Bool) (l : List (Sigma fun _ : Nat => Node))
    (s : SpellHistory) : SpellHistory :=
  l.foldl (fun s e => if predicate e.1 e.2.entry then s.eraseCooldown e.1 e.2.entry else s) s

theorem eraseWhere_eq (s : SpellHistory) (predicate : Nat → CooldownEntry → Bool) :
    s.eraseWhere predicate = eraseLoop predicate s.spellCooldowns.entries s := rfl

theorem lookup_eraseLoop (predicate : Nat → CooldownEntry → Bool) (k : Nat)
    (l : List (Sigma fun _ : Nat => Node)) (hnodup : l.NodupKeys) (s : SpellHistory) :
    (eraseLoop predicate l s).spellCooldowns.lookup k =
      if (l.dlookup k).any fun node => predicate k node.entry then none
      else s.spellCooldowns.lookup k := by
  induction l generalizing s with
  | nil => rfl
  | cons e l ih =>
    obtain ⟨hnotin, hnodup⟩ := List.nodupKeys_cons.mp hnodup
    rw [eraseLoop, List.foldl_cons]
    refine (ih hnodup _).trans ?_
    by_cases hk : e.1 = k
    · subst hk
      have hhead : List.dlookup e.1 (e :: l) = some e.2 := List.dlookup_cons_eq l e.1 e.2
      rw [List.dlookup_eq_none.mpr hnotin, hhead]
      simp only [Option.any_none, Bool.false_eq_true, if_false, Option.any_some]
      by_cases hp : predicate e.1 e.2.entry = true
      · rw [if_pos hp, if_pos hp]
        exact AList.lookup_erase _ _
      · rw [if_neg hp, if_neg hp]
    · have hlookup : (if predicate e.1 e.2.entry then s.eraseCooldown e.1 e.2.entry
          else s).spellCooldowns.lookup k = s.spellCooldowns.lookup k := by
        split
        · exact AList.lookup_erase_ne (Ne.symm hk)
        · rfl
      rw [hlookup, List.dlookup_cons_ne _ _ (Ne.symm hk)]

theorem lookup_eraseWhere (s : SpellHistory) (predicate : Nat → CooldownEntry → Bool) (k : Nat) :
    (s.eraseWhere predicate).spellCooldowns.lookup k =
      (s.spellCooldowns.lookup k).filter fun node => !predicate k node.entry := by
  rw [eraseWhere_eq, lookup_eraseLoop predicate k _ s.spellCooldowns.nodupKeys s]
  change (if (s.spellCooldowns.lookup k).any _ then none else _) = _
  cases s.spellCooldowns.lookup k with
  | none => rfl
  | some node => cases h : predicate k node.entry <;> simp [Option.filter, h]

theorem lookup_category_eraseLoop (predicate : Nat → CooldownEntry → Bool) {c : Nat}
    (l : List (Sigma fun _ : Nat => Node)) (s : SpellHistory)
    (h : ∀ e ∈ l, predicate e.1 e.2.entry = true → e.2.entry.CategoryId ≠ c) :
    (eraseLoop predicate l s).categoryCooldowns.lookup c = s.categoryCooldowns.lookup c := by
  induction l generalizing s with
  | nil => rfl
  | cons e l ih =>
    rw [eraseLoop, List.foldl_cons]
    refine (ih _ fun e' he' => h e' (List.mem_cons_of_mem _ he')).trans ?_
    split
    · exact AList.lookup_erase_ne (h e List.mem_cons_self ‹_›).symm
    · rfl

theorem lookup_category_eraseWhere (s : SpellHistory) (predicate : Nat → CooldownEntry → Bool)
    {c : Nat} (h : ∀ k node, s.spellCooldowns.lookup k = some node →
      predicate k node.entry = true → node.entry.CategoryId ≠ c) :
    (s.eraseWhere predicate).categoryCooldowns.lookup c = s.categoryCooldowns.lookup c :=
  lookup_category_eraseLoop predicate _ s fun e he =>
    h e.1 e.2 (Assoc.mem_entries_iff.mp he)

theorem eraseWhere_frame {β : Type} (view : SpellHistory → β)
    (herase : ∀ s k entry, view (s.eraseCooldown k entry) = view s) (s : SpellHistory)
    (predicate : Nat → CooldownEntry → Bool) : view (s.eraseWhere predicate) = view s := by
  rw [eraseWhere_eq]
  generalize s.spellCooldowns.entries = l
  induction l generalizing s with
  | nil => rfl
  | cons e l ih =>
    rw [eraseLoop, List.foldl_cons]
    refine (ih _).trans ?_
    split
    · exact herase ..
    · rfl

/-- An update pops charges from a history in which, beside cooldowns, nothing has changed. -/
theorem update_frame {β : Type} (view : SpellHistory → β)
    (hcategory : ∀ s c, view { s with categoryCooldowns := s.categoryCooldowns.erase c } = view s)
    (herase : ∀ s k entry, view (s.eraseCooldown k entry) = view s) {s t : SpellHistory}
    {now : Int} (h : s.update now = some t) :
    ∃ u, view u = view s ∧ t = { u with
      categoryCharges := Assoc.mapVal
        (fun _ charges => charges.dropWhile fun charge => charge.RechargeEnd ≤ now)
        u.categoryCharges } := by
  unfold update at h
  cases hrun : s.categoryCooldowns.entries.foldlM (updateCategory now) s with
  | none =>
    rw [hrun] at h
    cases h
  | some u =>
    rw [hrun] at h
    refine ⟨_, (eraseWhere_frame view herase u _).trans ?_, (Option.some.inj h).symm⟩
    refine (Run.of_foldlM hrun).invariant (fun x => view x = view s) rfl ?_
    intro x e y hx _ hy
    unfold updateCategory at hy
    cases hentry : x.deref e.2 with
    | none =>
      rw [hentry] at hy
      cases hy
    | some entry =>
      rw [hentry] at hy
      obtain rfl := Option.some.inj hy
      split
      · exact (hcategory x e.1).trans hx
      · exact hx

theorem lookup_assign_ne (s : SpellHistory) {k j : Nat} (entry : CooldownEntry) (h : j ≠ k) :
    (s.assign A k entry).spellCooldowns.lookup j = s.spellCooldowns.lookup j := by
  unfold assign
  cases s.spellCooldowns.lookup k with
  | none => exact AList.lookup_insert_ne h
  | some node => exact AList.lookup_insert_ne h

theorem categoryCooldowns_assign (s : SpellHistory) (k : Nat) (entry : CooldownEntry) :
    (s.assign A k entry).categoryCooldowns = s.categoryCooldowns := by
  unfold assign
  cases s.spellCooldowns.lookup k <;> rfl

theorem lookup_assign_some {s : SpellHistory} {k : Nat} {node : Node} (entry : CooldownEntry)
    (h : s.spellCooldowns.lookup k = some node) :
    (s.assign A k entry).spellCooldowns.lookup k = some { node with entry } := by
  simp only [assign, h]
  exact AList.lookup_insert _

@[simp] theorem spellCooldowns_pointCategory (s : SpellHistory) (k c : Nat) :
    (s.pointCategory k c).spellCooldowns = s.spellCooldowns := by
  unfold pointCategory
  split
  · cases s.spellCooldowns.lookup k <;> rfl
  · rfl

theorem lookup_pointCategory {s : SpellHistory} {k c : Nat} {node : Node} (hc : c ≠ 0)
    (hk : s.spellCooldowns.lookup k = some node) :
    (s.pointCategory k c).categoryCooldowns.lookup c = some node.addr := by
  simp only [pointCategory, if_pos hc, hk]
  exact AList.lookup_insert _

theorem lookup_pointCategory_ne (s : SpellHistory) {k c d : Nat} (h : d ≠ c) :
    (s.pointCategory k c).categoryCooldowns.lookup d = s.categoryCooldowns.lookup d := by
  unfold pointCategory
  split
  · cases s.spellCooldowns.lookup k with
    | none => rfl
    | some node => exact AList.lookup_insert_ne h
  · rfl

end SpellHistory

end Ashamane.Spells
