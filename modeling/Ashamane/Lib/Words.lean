import Mathlib.Data.List.Infix

/-! Words of one width, joined with a separator: a word occurs in the joined text only as
one of the words. -/
namespace Ashamane.Lib.Words

variable {α : Type}

def join (sep : α) : List (List α) → List α
  | [] => []
  | [w] => w
  | w :: v :: words => w ++ sep :: join sep (v :: words)

theorem infix_around {sep : α} {w l r : List α} (hsep : sep ∉ w) (h : w <:+: l ++ sep :: r) :
    w <:+: l ∨ w <:+: r := by
  obtain ⟨before, after, heq⟩ := h
  rw [List.append_assoc] at heq
  obtain ⟨m, hbefore, hrest⟩ | ⟨m, hl, hrest⟩ := List.append_eq_append_iff.mp heq
  · -- the word begins in the left part
    obtain ⟨n, hm, hafter⟩ | ⟨n, hw, hafter⟩ := List.append_eq_append_iff.mp hrest
    · refine .inl ⟨before, n, ?_⟩
      rw [hbefore, hm, List.append_assoc]
    · cases n with
      | nil =>
        refine .inl ⟨before, [], ?_⟩
        rw [hbefore, hw, List.append_nil, List.append_nil]
      | cons x n =>
        obtain ⟨rfl, _⟩ := List.cons.inj hafter
        exact absurd (hw ▸ List.mem_append_right m (List.mem_cons_self ..)) hsep
  · cases m with
    | nil =>
      rw [List.nil_append] at hrest
      cases w with
      | nil => exact .inl (List.nil_infix)
      | cons x w =>
        obtain ⟨rfl, _⟩ := List.cons.inj hrest
        exact absurd (List.mem_cons_self ..) hsep
    | cons x m =>
      obtain ⟨_, hr⟩ := List.cons.inj hrest
      refine .inr ⟨m, after, ?_⟩
      rw [List.append_assoc]
      exact hr.symm

/-- Words of width `k` that do not hold the separator. -/
theorem infix_join_iff {sep : α} {k : Nat} (hk : 0 < k) {w : List α} (hw : w.length = k)
    (hsep : sep ∉ w) {words : List (List α)} (hwords : ∀ v ∈ words, v.length = k) :
    w <:+: join sep words ↔ w ∈ words := by
  have hself : ∀ v : List α, v.length = k → w <:+: v → w = v := fun v hv hinfix =>
    hinfix.eq_of_length (hw.trans hv.symm)
  induction words with
  | nil =>
    refine ⟨fun h => ?_, fun h => (List.not_mem_nil h).elim⟩
    have hnil : w = [] := List.infix_nil.mp h
    rw [hnil, List.length_nil] at hw
    omega
  | cons v words ih =>
    have hv := hwords v (List.mem_cons_self ..)
    have hrest := ih fun u hu => hwords u (List.mem_cons_of_mem _ hu)
    cases words with
    | nil =>
      refine ⟨fun h => List.mem_singleton.mpr (hself v hv h), fun h => ?_⟩
      rw [List.mem_singleton.mp h]
      exact List.infix_refl v
    | cons u words =>
      rw [join]
      constructor
      · intro h
        exact List.mem_cons.mpr ((infix_around hsep h).imp (hself v hv) hrest.mp)
      · intro h
        obtain rfl | hmem := List.mem_cons.mp h
        · exact ⟨[], sep :: join sep (u :: words), rfl⟩
        · have htail := List.suffix_append v (sep :: join sep (u :: words))
          exact (hrest.mpr hmem).trans ((List.suffix_cons sep _).trans htail).isInfix

end Ashamane.Lib.Words
