import Mathlib.Data.Finset.Sort
import Mathlib.Data.Prod.Lex
import Mathlib.Logic.Relation
import Mathlib.Order.WellFounded

/-! A worklist: nodes are taken from a set one by one, and what a known one links to is added. -/
namespace Ashamane.Lib.Worklist

structure Graph (α : Type*) where
  links : α → Option (Finset α)
  known : Finset α
  mem_known : ∀ a, (links a).isSome → a ∈ known

variable {α : Type*} {g : Graph α} {start toCheck done l : Finset α} {a b : α}

namespace Graph

def Link (g : Graph α) (a b : α) : Prop := (∃ l, g.links a = some l ∧ b ∈ l) ∧ (g.links b).isSome

def Reached (g : Graph α) (start : Finset α) (a : α) : Prop :=
  ∃ b ∈ start, (g.links b).isSome ∧ Relation.ReflTransGen g.Link b a

theorem Reached.of_mem (ha : a ∈ start) (hknown : (g.links a).isSome) : g.Reached start a :=
  ⟨a, ha, hknown, .refl⟩

theorem Reached.link (h : g.Reached start a) (hlink : g.Link a b) : g.Reached start b := by
  obtain ⟨c, hc, hknown, hway⟩ := h
  exact ⟨c, hc, hknown, hway.tail hlink⟩

theorem not_reached_empty : ¬g.Reached ∅ a := by
  rintro ⟨b, hb, -⟩
  exact absurd hb (Finset.notMem_empty b)

end Graph

structure Explores (g : Graph α) (start toCheck done : Finset α) : Prop where
  done_reached : ∀ a ∈ done, g.Reached start a
  toCheck_reached : ∀ a ∈ toCheck, (g.links a).isSome → g.Reached start a
  start_covered : ∀ a ∈ start, (g.links a).isSome → a ∈ done ∨ a ∈ toCheck
  link_covered : ∀ a ∈ done, ∀ b, g.Link a b → b ∈ done ∨ b ∈ toCheck

namespace Explores

theorem begin : Explores g start start ∅ where
  done_reached a ha := absurd ha (Finset.notMem_empty a)
  toCheck_reached _ ha hknown := .of_mem ha hknown
  start_covered _ ha _ := .inr ha
  link_covered a ha := absurd ha (Finset.notMem_empty a)

/-- When nothing is left to check, exactly the nodes that are reached are done. -/
theorem mem_done_iff (h : Explores g start ∅ done) (a : α) : a ∈ done ↔ g.Reached start a := by
  constructor
  · exact h.done_reached a
  · rintro ⟨b, hb, hknown, hway⟩
    induction hway with
    | refl => exact (h.start_covered b hb hknown).resolve_right (Finset.notMem_empty b)
    | tail _ hlink ih => exact (h.link_covered _ ih _ hlink).resolve_right (Finset.notMem_empty _)

variable [DecidableEq α]

theorem drop (h : Explores g start toCheck done) (ha : g.links a = none) :
    Explores g start (toCheck.erase a) done := by
  have hother : ∀ b, (g.links b).isSome → b ∈ toCheck → b ∈ toCheck.erase a := by
    intro b hb hmem
    refine Finset.mem_erase.2 ⟨?_, hmem⟩
    rintro rfl
    rw [ha] at hb
    cases hb
  exact
    { done_reached := h.done_reached
      toCheck_reached := fun b hb => h.toCheck_reached b (Finset.mem_of_mem_erase hb)
      start_covered := fun b hb hknown => (h.start_covered b hb hknown).imp_right (hother b hknown)
      link_covered := fun b hb c hlink =>
        (h.link_covered b hb c hlink).imp_right (hother c hlink.2) }

theorem take (h : Explores g start toCheck done) (hmem : a ∈ toCheck) (ha : g.links a = some l) :
    Explores g start (toCheck.erase a ∪ l.filter (· ∉ insert a done)) (insert a done) := by
  have hreached : g.Reached start a := h.toCheck_reached a hmem (by rw [ha]; rfl)
  have hcovered : ∀ b, b ∈ done ∨ b ∈ toCheck →
      b ∈ insert a done ∨ b ∈ toCheck.erase a ∪ l.filter (· ∉ insert a done) := by
    intro b hb
    by_cases hba : b = a
    · exact .inl (Finset.mem_insert.2 (.inl hba))
    · exact hb.imp Finset.mem_insert_of_mem fun hb =>
        Finset.mem_union_left _ (Finset.mem_erase.2 ⟨hba, hb⟩)
  refine ⟨?_, ?_, fun b hb hknown => hcovered b (h.start_covered b hb hknown), ?_⟩
  · intro b hb
    rcases Finset.mem_insert.1 hb with rfl | hb
    · exact hreached
    · exact h.done_reached b hb
  · intro b hb hknown
    rcases Finset.mem_union.1 hb with hb | hb
    · exact h.toCheck_reached b (Finset.mem_of_mem_erase hb) hknown
    · exact hreached.link ⟨⟨l, ha, (Finset.mem_filter.1 hb).1⟩, hknown⟩
  · intro b hb c hlink
    rcases Finset.mem_insert.1 hb with rfl | hb
    · obtain ⟨⟨l', hl', hc⟩, -⟩ := hlink
      obtain rfl := Option.some.inj (hl'.symm.trans ha)
      by_cases hdone : c ∈ insert b done
      · exact .inl hdone
      · exact .inr (Finset.mem_union_right _ (Finset.mem_filter.2 ⟨hc, hdone⟩))
    · exact hcovered c (h.link_covered b hb c hlink)

end Explores

/-! Every node that is taken makes the rest smaller. -/

def size [DecidableEq α] (g : Graph α) (toCheck done : Finset α) : ℕ ×ₗ ℕ ×ₗ ℕ :=
  toLex ((g.known \ done).card, toLex ((toCheck ∩ done).card, toCheck.card))

variable [DecidableEq α]

theorem size_drop_lt (ha : a ∈ toCheck) : size g (toCheck.erase a) done < size g toCheck done := by
  have hagain : ((toCheck.erase a) ∩ done).card ≤ (toCheck ∩ done).card :=
    Finset.card_le_card (Finset.inter_subset_inter_right (Finset.erase_subset a toCheck))
  have hfewer : (toCheck.erase a).card < toCheck.card := Finset.card_erase_lt_of_mem ha
  rw [size, size, Prod.Lex.toLex_lt_toLex]
  refine .inr ⟨rfl, ?_⟩
  rw [Prod.Lex.toLex_lt_toLex]
  exact hagain.lt_or_eq.imp_right fun heq => ⟨heq, hfewer⟩

theorem size_take_lt (hmem : a ∈ toCheck) (ha : g.links a = some l) :
    size g (toCheck.erase a ∪ l.filter (· ∉ insert a done)) (insert a done) <
      size g toCheck done := by
  rw [size, size, Prod.Lex.toLex_lt_toLex]
  by_cases hdone : a ∈ done
  · refine .inr ⟨by rw [Finset.insert_eq_of_mem hdone], ?_⟩
    rw [Prod.Lex.toLex_lt_toLex, Finset.insert_eq_of_mem hdone]
    refine .inl (Finset.card_lt_card (Finset.ssubset_iff_of_subset ?_ |>.2 ⟨a, ?_, ?_⟩))
    · intro b hb
      obtain ⟨hb, hbdone⟩ := Finset.mem_inter.1 hb
      rcases Finset.mem_union.1 hb with hb | hb
      · exact Finset.mem_inter.2 ⟨Finset.mem_of_mem_erase hb, hbdone⟩
      · exact absurd hbdone (Finset.mem_filter.1 hb).2
    · exact Finset.mem_inter.2 ⟨hmem, hdone⟩
    · simp [hdone]
  · have hknown : a ∈ g.known := g.mem_known a (by rw [ha]; rfl)
    refine .inl (Finset.card_lt_card (Finset.ssubset_iff_of_subset ?_ |>.2 ⟨a, ?_, ?_⟩))
    · exact Finset.sdiff_subset_sdiff (Finset.Subset.refl _) (Finset.subset_insert a done)
    · exact Finset.mem_sdiff.2 ⟨hknown, hdone⟩
    · exact fun hmem => (Finset.mem_sdiff.1 hmem).2 (Finset.mem_insert_self a done)

end Ashamane.Lib.Worklist
