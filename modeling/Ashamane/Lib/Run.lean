import Mathlib.Data.List.Induction
import Mathlib.Tactic.TypeStar

/-! Finite runs of a transition system whose actions are guarded by a condition
on the state they are taken in. -/
namespace Ashamane.Lib

variable {σ α : Type*}

/-- `Run step ok s as t`: the actions `as` lead from `s` to `t`, and each of them
meets `ok` in the state in which it is taken. -/
inductive Run (step : σ → α → σ → Prop) (ok : σ → α → Prop) : σ → List α → σ → Prop
  | nil (s : σ) : Run step ok s [] s
  | cons {s u t : σ} {a : α} {as : List α} :
      ok s a → step s a u → Run step ok u as t → Run step ok s (a :: as) t

def always (_ : σ) (_ : α) : Prop := True

namespace Run

variable {step : σ → α → σ → Prop} {ok : σ → α → Prop} {s t : σ} {as : List α}

/-- A property kept by every allowed step holds at the end of every run. -/
theorem invariant (Inv : σ → Prop) (hrun : Run step ok s as t) (h0 : Inv s)
    (hstep : ∀ s a u, Inv s → ok s a → step s a u → Inv u) : Inv t := by
  induction hrun with
  | nil s => exact h0
  | cons hok hs _ ih => exact ih (hstep _ _ _ h0 hok hs)

/-- A reflexive and transitive relation kept by every allowed step, under an
invariant, relates the two ends of every run. -/
theorem related (Inv : σ → Prop) (R : σ → σ → Prop) (hrun : Run step ok s as t) (h0 : Inv s)
    (hstep : ∀ s a u, Inv s → ok s a → step s a u → Inv u ∧ R s u)
    (hrefl : ∀ s, R s s) (htrans : ∀ s u t, R s u → R u t → R s t) : Inv t ∧ R s t := by
  induction hrun with
  | nil s => exact ⟨h0, hrefl s⟩
  | cons hok hs _ ih =>
    obtain ⟨hu, hr⟩ := hstep _ _ _ h0 hok hs
    obtain ⟨ht, hrt⟩ := ih hu
    exact ⟨ht, htrans _ _ _ hr hrt⟩

theorem append {u : σ} {bs : List α} (hrun : Run step ok s as t) (hnext : Run step ok t bs u) :
    Run step ok s (as ++ bs) u := by
  induction hrun with
  | nil s => exact hnext
  | cons hok hs _ ih => exact .cons hok hs (ih hnext)

theorem split {as bs : List α} (hrun : Run step ok s (as ++ bs) t) :
    ∃ u, Run step ok s as u ∧ Run step ok u bs t := by
  induction as generalizing s with
  | nil => exact ⟨s, .nil s, hrun⟩
  | cons a as ih =>
    cases hrun with
    | cons hok hs hrest =>
      obtain ⟨u, hbefore, hafter⟩ := ih hrest
      exact ⟨u, .cons hok hs hbefore, hafter⟩

theorem of_foldlM {f : σ → α → Option σ} (h : as.foldlM f s = some t) :
    Run (fun s a t => f s a = some t) always s as t := by
  induction as generalizing s with
  | nil =>
    obtain rfl := Option.some.inj h
    exact .nil s
  | cons a as ih =>
    obtain ⟨u, hu, h⟩ := Option.bind_eq_some_iff.1 h
    exact .cons trivial hu (ih h)

/-- The run of a step function whose actions all meet a condition. -/
theorem of_foldlM_all {f : σ → α → Option σ} {ok : α → Prop} (h : as.foldlM f s = some t)
    (hok : ∀ a ∈ as, ok a) : Run (fun s a t => f s a = some t) (fun _ a => ok a) s as t := by
  induction as generalizing s with
  | nil =>
    obtain rfl := Option.some.inj h
    exact .nil s
  | cons a as ih =>
    obtain ⟨u, hu, h⟩ := Option.bind_eq_some_iff.1 h
    exact .cons (hok a List.mem_cons_self) hu (ih h fun b hb => hok b (List.mem_cons_of_mem _ hb))

end Run

/-- What the steps of a run do and what they ask for is the same, step by step, as long as an
invariant holds that the steps keep. -/
theorem forall_steps_iff {step : σ → α → σ} {P Q : σ → α → Prop} (Inv : σ → Prop) {s : σ}
    (h0 : Inv s) (hiff : ∀ s a, Inv s → (P s a ↔ Q s a))
    (hstep : ∀ s a, Inv s → Q s a → Inv (step s a)) (as : List α) :
    (∀ before a later, as = before ++ a :: later → P (before.foldl step s) a) ↔
      ∀ before a later, as = before ++ a :: later → Q (before.foldl step s) a := by
  induction as generalizing s with
  | nil => simp
  | cons a as ih =>
    have hsplit : ∀ R : σ → α → Prop, (∀ before b later, a :: as = before ++ b :: later →
        R (before.foldl step s) b) ↔ R s a ∧ ∀ before b later, as = before ++ b :: later →
          R (before.foldl step (step s a)) b := by
      intro R
      constructor
      · intro h
        refine ⟨h [] a as rfl, fun before b later has => ?_⟩
        exact h (a :: before) b later (by rw [has]; rfl)
      · rintro ⟨hfirst, hrest⟩ before b later has
        cases before with
        | nil =>
          obtain ⟨rfl, -⟩ := List.cons.inj has
          exact hfirst
        | cons c before =>
          obtain ⟨rfl, htail⟩ := List.cons.inj has
          exact hrest before b later htail
    rw [hsplit P, hsplit Q, hiff s a h0]
    exact and_congr_right fun hQ => ih (hstep s a h0 hQ)

/-- What holds before a run, and is kept by each of its steps, holds after all of its beginnings. -/
theorem of_beginnings {P : List α → Prop} {as : List α} (hnil : P [])
    (hstep : ∀ before a later, as = before ++ a :: later → P before → P (before ++ [a])) :
    ∀ before later, as = before ++ later → P before := by
  intro before
  induction before using List.reverseRecOn with
  | nil => exact fun _ _ => hnil
  | append_singleton before a ih =>
    intro later has
    rw [List.append_assoc, List.singleton_append] at has
    exact hstep before a later has (ih _ has)

end Ashamane.Lib
