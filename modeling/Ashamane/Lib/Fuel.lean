import Mathlib.Order.WellFounded

/-! Recursive functions given by their bodies: the calls a body makes are answered with fuel. -/
namespace Ashamane.Lib.Fuel

variable {α β σ τ : Type*} {F : (α → Option β) → α → Option β} {a : α} {b b' : β} {m n : Nat}

/-- The function with the body `F`, its calls nested less deep than the fuel. -/
def run (F : (α → Option β) → α → Option β) : Nat → α → Option β
  | 0, _ => none
  | fuel + 1, a => F (run F fuel) a

def Returns (F : (α → Option β) → α → Option β) (a : α) (b : β) : Prop :=
  ∃ fuel, run F fuel a = some b

/-- Every answer of `f` is one of `g`. -/
def Extends (f g : α → Option β) : Prop := ∀ a b, f a = some b → g a = some b

def Steady (F : (α → Option β) → α → Option β) : Prop :=
  ∀ f g, Extends f g → Extends (F f) (F g)

theorem Steady.extends_run (h : Steady F) (hle : m ≤ n) : Extends (run F m) (run F n) := by
  induction m generalizing n with
  | zero => intro _ _ hrun; cases hrun
  | succ m ih =>
    cases n with
    | zero => omega
    | succ n => exact h _ _ (ih (by omega))

theorem Steady.unique (h : Steady F) (hb : Returns F a b) (hb' : Returns F a b') : b = b' := by
  obtain ⟨m, hm⟩ := hb
  obtain ⟨n, hn⟩ := hb'
  have hmax := h.extends_run (Nat.le_max_left m n) a b hm
  have hmax' := h.extends_run (Nat.le_max_right m n) a b' hn
  exact Option.some.inj (hmax.symm.trans hmax')

theorem Steady.common_fuel (h : Steady F) {P : α → β → Prop} {l : List α}
    (hl : ∀ x ∈ l, ∃ b, Returns F x b ∧ P x b) :
    ∃ fuel, ∀ x ∈ l, ∃ b, run F fuel x = some b ∧ P x b := by
  induction l with
  | nil => exact ⟨0, by simp⟩
  | cons x l ih =>
    obtain ⟨m, hm⟩ := ih fun y hy => hl y (List.mem_cons_of_mem _ hy)
    obtain ⟨b, ⟨n, hn⟩, hP⟩ := hl x List.mem_cons_self
    refine ⟨max m n, fun y hy => ?_⟩
    cases List.mem_cons.mp hy with
    | inl hyx => exact ⟨b, h.extends_run (Nat.le_max_right m n) y b (hyx ▸ hn), hyx ▸ hP⟩
    | inr hyl =>
      obtain ⟨c, hc, hPc⟩ := hm y hyl
      exact ⟨c, h.extends_run (Nat.le_max_left m n) y c hc, hPc⟩

/-- A body that answers once its calls are answered returns on every argument from which the
calls go down. -/
theorem Steady.returns_of_acc (h : Steady F) {P : α → β → Prop} {calls : α → List α}
    (hF : ∀ f a, (∀ x ∈ calls a, ∃ b, f x = some b ∧ P x b) → ∃ b, F f a = some b ∧ P a b)
    (ha : Acc (fun x a => x ∈ calls a) a) : ∃ b, Returns F a b ∧ P a b := by
  induction ha with
  | intro a _ ih =>
    obtain ⟨fuel, hfuel⟩ := h.common_fuel ih
    obtain ⟨b, hb, hP⟩ := hF (run F fuel) a hfuel
    exact ⟨b, ⟨fuel + 1, hb⟩, hP⟩

/-- The calls are sorted by keys, and go down from key to key: one fuel is enough for all calls of
a key, whatever else they carry. -/
theorem Steady.returns_of_key {κ : Type*} (h : Steady F) {I : κ → α → Prop} {calls : κ → List κ}
    (hF : ∀ f k, (∀ k' ∈ calls k, ∀ a, I k' a → ∃ b, f a = some b) →
      ∀ a, I k a → ∃ b, F f a = some b)
    {k : κ} (hk : Acc (fun k' k => k' ∈ calls k) k) :
    ∃ fuel, ∀ a, I k a → ∃ b, run F fuel a = some b := by
  induction hk with
  | intro k _ ih =>
    have hcommon : ∀ l : List κ, (∀ k' ∈ l, k' ∈ calls k) →
        ∃ fuel, ∀ k' ∈ l, ∀ a, I k' a → ∃ b, run F fuel a = some b := by
      intro l
      induction l with
      | nil => exact fun _ => ⟨0, by simp⟩
      | cons k' l ihl =>
        intro hl
        obtain ⟨m, hm⟩ := ih k' (hl k' List.mem_cons_self)
        obtain ⟨n, hn⟩ := ihl fun x hx => hl x (List.mem_cons_of_mem _ hx)
        refine ⟨max m n, fun x hx a ha => ?_⟩
        cases List.mem_cons.mp hx with
        | inl heq =>
          obtain ⟨b, hb⟩ := hm a (heq ▸ ha)
          exact ⟨b, h.extends_run (Nat.le_max_left m n) a b hb⟩
        | inr hmem =>
          obtain ⟨b, hb⟩ := hn x hmem a ha
          exact ⟨b, h.extends_run (Nat.le_max_right m n) a b hb⟩
    obtain ⟨fuel, hfuel⟩ := hcommon (calls k) fun _ hk' => hk'
    exact ⟨fuel + 1, hF (run F fuel) k hfuel⟩

theorem Returns.of_answer (h : ∀ f, F f a = some b) : Returns F a b := ⟨1, h _⟩

theorem Returns.of_call {a' : α} (h : ∀ f, F f a = f a') (hcall : Returns F a' b) :
    Returns F a b := by
  obtain ⟨fuel, hrun⟩ := hcall
  exact ⟨fuel + 1, (h _).trans hrun⟩

theorem Returns.call {a' : α} (h : ∀ f, F f a = f a') (hb : Returns F a b) : Returns F a' b := by
  obtain ⟨fuel, hrun⟩ := hb
  cases fuel with
  | zero => cases hrun
  | succ fuel => exact ⟨fuel, (h _).symm.trans hrun⟩

theorem Returns.of_map {a' : α} {g : β → β} (h : ∀ f, F f a = (f a').map g)
    (hcall : Returns F a' b) : Returns F a (g b) := by
  obtain ⟨fuel, hrun⟩ := hcall
  exact ⟨fuel + 1, (h _).trans (by rw [hrun, Option.map_some])⟩

/-- A body that answers at once, or hands the answer of one call on, is steady. -/
theorem Steady.of_tail (h : ∀ a, (∃ b, ∀ f, F f a = b) ∨ ∃ a', ∀ f, F f a = f a') : Steady F := by
  intro f g hfg a b hb
  rcases h a with ⟨b', hanswer⟩ | ⟨a', hcall⟩
  · rw [hanswer] at hb ⊢
    exact hb
  · rw [hcall] at hb ⊢
    exact hfg a' b hb

/-- What holds of the answers of a body when it holds of those of its calls. -/
theorem Returns.induct {P : α → β → Prop}
    (hF : ∀ f, (∀ a b, f a = some b → P a b) → ∀ a b, F f a = some b → P a b)
    (h : Returns F a b) : P a b := by
  obtain ⟨fuel, hrun⟩ := h
  induction fuel generalizing a b with
  | zero => cases hrun
  | succ fuel ih => exact hF (run F fuel) (fun _ _ => ih) a b hrun

theorem foldlM_extends {f g : τ → σ → Option τ} {l : List σ} {s t : τ}
    (hfg : ∀ s x t, f s x = some t → g s x = some t) (h : l.foldlM f s = some t) :
    l.foldlM g s = some t := by
  induction l generalizing s with
  | nil => exact h
  | cons x l ih =>
    rw [List.foldlM_cons] at h ⊢
    obtain ⟨u, hu, hrest⟩ := Option.bind_eq_some_iff.mp h
    exact Option.bind_eq_some_iff.mpr ⟨u, hfg s x u hu, ih hrest⟩

theorem foldlM_ends {f : τ → σ → Option τ} {l : List σ} {s : τ} {I : τ → Prop} (hs : I s)
    (hf : ∀ s, I s → ∀ x ∈ l, ∃ t, f s x = some t ∧ I t) : ∃ t, l.foldlM f s = some t ∧ I t := by
  induction l generalizing s with
  | nil => exact ⟨s, rfl, hs⟩
  | cons x l ih =>
    obtain ⟨u, hu, hI⟩ := hf s hs x List.mem_cons_self
    obtain ⟨t, ht, hI'⟩ := ih hI fun s hs y hy => hf s hs y (List.mem_cons_of_mem _ hy)
    exact ⟨t, by rw [List.foldlM_cons, hu]; exact ht, hI'⟩

/-- What the steps of a walk that ends keep, and that it takes a step at each place. -/
theorem foldlM_passes {f : τ → σ → Option τ} {l : List σ} {s t : τ} {I : τ → Prop} (hs : I s)
    (hf : ∀ s, ∀ x ∈ l, ∀ t, I s → f s x = some t → I t) (h : l.foldlM f s = some t) :
    I t ∧ ∀ x ∈ l, ∃ s t, I s ∧ f s x = some t := by
  induction l generalizing s with
  | nil =>
    obtain rfl := Option.some.inj h
    exact ⟨hs, by simp⟩
  | cons x l ih =>
    rw [List.foldlM_cons] at h
    obtain ⟨u, hu, hrest⟩ := Option.bind_eq_some_iff.mp h
    obtain ⟨hI, hsteps⟩ := ih (hf s x List.mem_cons_self u hs hu)
      (fun s y hy => hf s y (List.mem_cons_of_mem _ hy)) hrest
    refine ⟨hI, fun y hy => ?_⟩
    cases List.mem_cons.mp hy with
    | inl heq => exact ⟨s, u, hs, heq ▸ hu⟩
    | inr hmem => exact hsteps y hmem

end Ashamane.Lib.Fuel
