import Mathlib.Data.Fintype.Pigeonhole
import Mathlib.Data.List.Chain
import Mathlib.Dynamics.PeriodicPts.Lemmas
import Mathlib.Logic.Relation

/-! Links from each thing to at most one other, and the circles of these links. -/
namespace Ashamane.Lib

open Relation

variable {α : Type*} {f g : α → Option α} {a b c : α}

def Leads (f : α → Option α) (a b : α) : Prop := f a = some b

def OnCircle (f : α → Option α) (a : α) : Prop := TransGen (Leads f) a a

theorem Leads.iterate (h : TransGen (Leads f) a b) :
    ∃ n, 0 < n ∧ (fun x : Option α => x.bind f)^[n] (some a) = some b := by
  induction h using TransGen.head_induction_on with
  | single hlink => exact ⟨1, Nat.one_pos, hlink⟩
  | head hlink _ ih =>
    obtain ⟨n, -, hn⟩ := ih
    refine ⟨n + 1, Nat.succ_pos n, ?_⟩
    rw [Function.iterate_succ_apply, Option.bind_some, hlink]
    exact hn

theorem OnCircle.eq_of_leads (ha : OnCircle f a) (hb : OnCircle f b) (hac : f a = some c)
    (hbc : f b = some c) : a = b := by
  have hperiodic : ∀ {x}, OnCircle f x →
      some x ∈ Function.periodicPts (fun x : Option α => x.bind f) := by
    intro x hx
    obtain ⟨n, hpos, hn⟩ := Leads.iterate hx
    exact Function.mk_mem_periodicPts hpos hn
  refine Option.some.inj ((Function.bijOn_periodicPts _).injOn (hperiodic ha) (hperiodic hb) ?_)
  exact hac.trans hbc.symm

theorem OnCircle.next (ha : OnCircle f a) (hab : f a = some b) : OnCircle f b := by
  obtain ⟨x, hax, hback⟩ := TransGen.head'_iff.mp ha
  obtain rfl := Option.some.inj (hab.symm.trans hax)
  exact TransGen.tail'_iff.mpr ⟨a, hback, hab⟩

theorem OnCircle.of_le (hle : ∀ x y, g x = some y → f x = some y) (ha : OnCircle g a)
    (hab : ReflTransGen (Leads f) a b) : OnCircle g b := by
  induction hab with
  | refl => exact ha
  | @tail x y _ hxy ih =>
    obtain ⟨z, hz, -⟩ := TransGen.head'_iff.mp ih
    obtain rfl := Option.some.inj (hxy.symm.trans (hle x z hz))
    exact ih.next hz

theorem OnCircle.mono (hle : ∀ x y, g x = some y → f x = some y) (ha : OnCircle g a) :
    OnCircle f a := TransGen.mono hle _ _ ha

def Acyclic (r : α → α → Prop) : Prop := ∀ a, ¬ TransGen r a a

/-- Following links from finitely many things comes to an end when no way leads back. -/
theorem Acyclic.wellFounded {r : α → α → Prop} (h : Acyclic r) (S : Finset α)
    (hS : ∀ a b, r a b → a ∈ S) : WellFounded fun b a => r a b := by
  refine wellFounded_iff_isEmpty_descending_chain.mpr ⟨fun ⟨f, hf⟩ => ?_⟩
  have hway : ∀ i j, i < j → TransGen r (f i) (f j) := by
    intro i j hij
    induction j, hij using Nat.le_induction with
    | base => exact .single (hf i)
    | succ j _ ih => exact ih.tail (hf j)
  obtain ⟨i, j, hne, heq⟩ := Finite.exists_ne_map_eq_of_infinite
    fun n => (⟨f n, hS _ _ (hf n)⟩ : S)
  have heq : f i = f j := congrArg Subtype.val heq
  cases Nat.lt_or_gt_of_ne hne with
  | inl hij => exact h (f i) (heq ▸ hway i j hij)
  | inr hji => exact h (f i) (heq ▸ hway j i hji)

/-- A rank that goes down along one of the ways to `c`. -/
theorem exists_nearer (r : α → α → Prop) (c : α) : ∃ rank : α → ℕ, ∀ a, a ≠ c →
    ReflTransGen r a c → ∃ b, r a b ∧ ReflTransGen r b c ∧ rank b < rank a := by
  let lengths (a : α) : Set ℕ :=
    {n | ∃ l : List α, l.length = n ∧ List.IsChain r (a :: l) ∧
      (a :: l).getLast (List.cons_ne_nil a l) = c}
  refine ⟨fun a => sInf (lengths a), fun a hne hac => ?_⟩
  obtain ⟨l, hchain, hlast⟩ := List.exists_isChain_cons_of_relationReflTransGen hac
  obtain ⟨way, hlength, hway, hend⟩ := Nat.sInf_mem (s := lengths a) ⟨_, l, rfl, hchain, hlast⟩
  cases way with
  | nil => exact absurd hend hne
  | cons b way =>
    rw [List.isChain_cons_cons] at hway
    rw [List.getLast_cons_cons] at hend
    refine ⟨b, hway.1, List.relationReflTransGen_of_exists_isChain_cons way hway.2 hend, ?_⟩
    have hle := Nat.sInf_le (s := lengths b) ⟨way, rfl, hway.2, hend⟩
    rw [List.length_cons] at hlength
    dsimp only
    omega

end Ashamane.Lib
