import Mathlib.Data.List.Chain
import Mathlib.Data.List.Nodup
import Mathlib.Data.List.Infix
import Mathlib.Data.Nat.Find
import Mathlib.Logic.Function.Basic

/-! Walks over weighted edges, and the predecessors that a search for shortest paths leaves. -/
namespace Ashamane.Lib.Routes

variable {V : Type*}

/-- The vertices of a walk from `s`, with the weight of its edges. -/
inductive Walk (E : V → V → Nat → Prop) (s : V) : V → Nat → List V → Prop
  | start : Walk E s s 0 [s]
  | step {u v : V} {w c : Nat} {l : List V} :
      Walk E s u w l → E u v c → Walk E s v (w + c) (l ++ [v])

inductive Chain (p : V → V) : V → List V → Prop
  | stop {v : V} : p v = v → Chain p v [v]
  | back {v : V} {l : List V} : p v ≠ v → Chain p (p v) l → Chain p v (l ++ [v])

/-- The way back from `t` is a walk from `s`, and no other is lighter. -/
def MinimalChain (E : V → V → Nat → Prop) (p : V → V) (s t : V) : Prop :=
  ((∀ w l, ¬Walk E s t w l) ∧ p t = t) ∨
    ∃ w l, Chain p t l ∧ Walk E s t w l ∧ ∀ w' l', Walk E s t w' l' → w ≤ w'

variable {E : V → V → Nat → Prop} {s t u v : V} {w : Nat} {l l' : List V} {p q : V → V}

namespace Walk

theorem head? (h : Walk E s v w l) : l.head? = some s := by
  induction h with
  | start => rfl
  | step hwalk _ ih => rw [List.head?_append, ih, Option.some_or]

theorem getLast? (h : Walk E s v w l) : l.getLast? = some v := by
  cases h with
  | start => rfl
  | step => exact List.getLast?_concat

theorem isChain (h : Walk E s v w l) : l.IsChain fun a b => ∃ c, E a b c := by
  induction h with
  | start => exact List.isChain_singleton s
  | @step u v w c l hwalk hedge ih =>
    refine List.isChain_append.2 ⟨ih, List.isChain_singleton v, fun x hx y hy => ?_⟩
    obtain rfl := Option.some.inj (hwalk.getLast?.symm.trans hx)
    obtain rfl := Option.some.inj hy
    exact ⟨c, hedge⟩

theorem last_mem (h : Walk E s v w l) : v ∈ l := List.mem_of_getLast? h.getLast?

/-- A walk up to a vertex on it. What costs something is kept, unless it gets lighter. -/
theorem upto {Bad : V → Prop} (hbad : ∀ u v c, E u v c → Bad v → 0 < c) (h : Walk E s v w l)
    (hu : u ∈ l) :
    ∃ w' l', Walk E s u w' l' ∧ w' ≤ w ∧ l' <+: l ∧ (w' = w → ∀ x ∈ l, Bad x → x ∈ l') := by
  induction h with
  | start =>
    obtain rfl := List.mem_singleton.1 hu
    exact ⟨0, [u], .start, Nat.le_refl 0, List.prefix_rfl, fun _ x hx _ => hx⟩
  | @step y v w c l hwalk hedge ih =>
    by_cases huv : u = v
    · subst huv
      exact ⟨w + c, l ++ [u], hwalk.step hedge, Nat.le_refl _, List.prefix_rfl, fun _ x hx _ => hx⟩
    · have hul : u ∈ l := by
        rcases List.mem_append.1 hu with hul | hlast
        · exact hul
        · exact absurd (List.mem_singleton.1 hlast) huv
      obtain ⟨w', l', hto, hle, hpre, hkept⟩ := ih hul
      refine ⟨w', l', hto, by omega, hpre.trans (List.prefix_append l [v]), ?_⟩
      intro heq x hx hbadx
      rcases List.mem_append.1 hx with hxl | hlast
      · exact hkept (by omega) x hxl hbadx
      · obtain rfl := List.mem_singleton.1 hlast
        have hcost := hbad _ _ _ hedge hbadx
        omega

theorem simple {Bad : V → Prop} (hbad : ∀ u v c, E u v c → Bad v → 0 < c) (h : Walk E s v w l) :
    ∃ w' l', Walk E s v w' l' ∧ w' ≤ w ∧ l'.Nodup ∧ (w' = w → ∀ x ∈ l, Bad x → x ∈ l') := by
  induction h with
  | start => exact ⟨0, [s], .start, Nat.le_refl 0, List.nodup_singleton s, fun _ x hx _ => hx⟩
  | @step y v w c l hwalk hedge ih =>
    obtain ⟨w', l', hsimple, hle, hnodup, hkept⟩ := ih
    by_cases hv : v ∈ l'
    · obtain ⟨w'', l'', hto, hle', hpre, hkept'⟩ := hsimple.upto hbad hv
      refine ⟨w'', l'', hto, by omega, hnodup.sublist hpre.sublist, fun heq x hx hbadx => ?_⟩
      rcases List.mem_append.1 hx with hxl | hlast
      · exact hkept' (by omega) x (hkept (by omega) x hxl hbadx) hbadx
      · obtain rfl := List.mem_singleton.1 hlast
        exact hto.last_mem
    · refine ⟨w' + c, l' ++ [v], hsimple.step hedge, by omega,
        List.nodup_append.2 ⟨hnodup, List.nodup_singleton v, ?_⟩, fun heq x hx hbadx => ?_⟩
      · intro x hx y hy hxy
        obtain rfl := List.mem_singleton.1 hy
        exact hv (hxy ▸ hx)
      · rcases List.mem_append.1 hx with hxl | hlast
        · exact List.mem_append_left _ (hkept (by omega) x hxl hbadx)
        · exact List.mem_append_right _ hlast

theorem le_weight {d : V → Nat} (hd : ∀ u v c, E u v c → d v ≤ d u + c) (h : Walk E s v w l) :
    d v ≤ d s + w := by
  induction h with
  | start => exact Nat.le_add_right _ _
  | step _ hedge ih =>
    have hlast := hd _ _ _ hedge
    omega

theorem exists_minimal (h : Walk E s v w l) :
    ∃ w l, Walk E s v w l ∧ ∀ w' l', Walk E s v w' l' → w ≤ w' := by
  classical
  have hsome : ∃ w l, Walk E s v w l := ⟨w, l, h⟩
  obtain ⟨l, hl⟩ := Nat.find_spec hsome
  exact ⟨Nat.find hsome, l, hl, fun w' l' hl' => Nat.find_min' hsome ⟨l', hl'⟩⟩

end Walk

namespace Chain

theorem unique (h : Chain p v l) (h' : Chain p v l') : l = l' := by
  induction h generalizing l' with
  | stop hstop =>
    cases h' with
    | stop => rfl
    | back hback => exact absurd hstop hback
  | back hback _ ih =>
    cases h' with
    | stop hstop => exact absurd hstop hback
    | back _ hrest => rw [ih hrest]

theorem of_mem (h : Chain p v l) (hu : u ∈ l) : ∃ l', Chain p u l' ∧ l' <+: l := by
  induction h with
  | @stop v hstop =>
    obtain rfl := List.mem_singleton.1 hu
    exact ⟨[u], .stop hstop, List.prefix_rfl⟩
  | @back v l hback hrest ih =>
    rcases List.mem_append.1 hu with hul | hlast
    · obtain ⟨l', hl', hpre⟩ := ih hul
      exact ⟨l', hl', hpre.trans (List.prefix_append l [v])⟩
    · obtain rfl := List.mem_singleton.1 hlast
      exact ⟨l ++ [u], .back hback hrest, List.prefix_rfl⟩

theorem nodup (h : Chain p v l) : l.Nodup := by
  induction h with
  | stop => exact List.nodup_singleton _
  | @back v l hback hrest ih =>
    refine List.nodup_append.2 ⟨ih, List.nodup_singleton v, fun x hx y hy hxy => ?_⟩
    obtain rfl := List.mem_singleton.1 hy
    subst hxy
    obtain ⟨l', hl', hpre⟩ := hrest.of_mem hx
    have hlength := hpre.length_le
    rw [hl'.unique (.back hback hrest), List.length_append, List.length_singleton] at hlength
    omega

theorem congr (h : Chain p v l) (hpq : ∀ x ∈ l, p x = q x) : Chain q v l := by
  induction h with
  | @stop v hstop => exact .stop ((hpq v List.mem_cons_self).symm.trans hstop)
  | @back v l hback hrest ih =>
    have hv := hpq v (List.mem_append_right _ List.mem_cons_self)
    have hrest' := ih fun x hx => hpq x (List.mem_append_left _ hx)
    rw [hv] at hback hrest'
    exact .back hback hrest'

end Chain

theorem Walk.exists_chain [DecidableEq V] (h : Walk E s v w l) (hnodup : l.Nodup) :
    ∃ p, Chain p v l := by
  induction h with
  | start => exact ⟨id, .stop rfl⟩
  | @step u v w c l hwalk _ ih =>
    obtain ⟨hl, -, hne⟩ := List.nodup_append.1 hnodup
    obtain ⟨p, hp⟩ := ih hl
    have huv : u ≠ v := hne u hwalk.last_mem v List.mem_cons_self
    refine ⟨Function.update p v u, .back ?_ ?_⟩
    · rw [Function.update_self]
      exact huv
    · rw [Function.update_self]
      exact hp.congr fun x hx => (Function.update_of_ne (hne x hx v List.mem_cons_self) _ _).symm

theorem exists_minimalChain [DecidableEq V] (E : V → V → Nat → Prop) (s t : V) :
    ∃ p, MinimalChain E p s t := by
  by_cases h : ∃ w l, Walk E s t w l
  · obtain ⟨w, l, hwalk⟩ := h
    obtain ⟨w, l, hwalk, hmin⟩ := hwalk.exists_minimal
    have hnone : ∀ u v c, E u v c → (fun _ : V => False) v → 0 < c := fun _ _ _ _ h => h.elim
    obtain ⟨w', l', hsimple, hle, hnodup, -⟩ := hwalk.simple hnone
    obtain ⟨p, hp⟩ := hsimple.exists_chain hnodup
    exact ⟨p, .inr ⟨w', l', hp, hsimple, fun w'' l'' h => hle.trans (hmin w'' l'' h)⟩⟩
  · exact ⟨id, .inl ⟨fun w l hwalk => h ⟨w, l, hwalk⟩, rfl⟩⟩

end Ashamane.Lib.Routes
