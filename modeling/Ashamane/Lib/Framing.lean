import Mathlib.Data.List.Basic

/-! Frames on a stream: a header of fixed length, whose reading may change a state (a
cipher), says how long the payload behind it is. -/
namespace Ashamane.Lib.Framing

/-- How one side reads its frames. `deliver` answers whether the stream is read on. -/
structure Protocol (σ β δ π : Type*) where
  headerSize : Nat
  decode : σ → List β → σ × δ
  valid : δ → Bool
  size : δ → Nat
  packet : δ → List β → π
  deliver : σ → π → σ × Bool

inductive Ending (σ β δ : Type*)
  | waiting (s : σ) (header : Option δ) (held : List β)
  | closed (s : σ)

variable {σ β δ π : Type*}

/-- `Frames P s phase l ps e`: read from state `s`, behind the header in `phase` if there is
one, the stream `l` holds the packets `ps` and ends as `e`. Every rule takes its bytes off
the front of the stream. -/
inductive Frames (P : Protocol σ β δ π) : σ → Option δ → List β → List π → Ending σ β δ → Prop
  | partialHeader {s : σ} {l : List β} : l.length < P.headerSize →
      Frames P s none l [] (.waiting s none l)
  | rejected {s s' : σ} {h l : List β} {d : δ} : h.length = P.headerSize →
      P.decode s h = (s', d) → P.valid d = false → Frames P s none (h ++ l) [] (.closed s')
  | accepted {s s' : σ} {h l : List β} {d : δ} {ps : List π} {e : Ending σ β δ} :
      h.length = P.headerSize → P.decode s h = (s', d) → P.valid d = true →
      Frames P s' (some d) l ps e → Frames P s none (h ++ l) ps e
  | partialPayload {s : σ} {d : δ} {l : List β} : l.length < P.size d →
      Frames P s (some d) l [] (.waiting s (some d) l)
  | failed {s s' : σ} {d : δ} {p l : List β} : p.length = P.size d →
      P.deliver s (P.packet d p) = (s', false) →
      Frames P s (some d) (p ++ l) [P.packet d p] (.closed s')
  | delivered {s s' : σ} {d : δ} {p l : List β} {ps : List π} {e : Ending σ β δ} :
      p.length = P.size d → P.deliver s (P.packet d p) = (s', true) →
      Frames P s' none l ps e → Frames P s (some d) (p ++ l) (P.packet d p :: ps) e

namespace Frames

variable {P : Protocol σ β δ π} {s s' : σ} {phase phase' : Option δ} {l r x : List β}
  {ps qs : List π} {e e' : Ending σ β δ}

theorem append (h : Frames P s phase l ps (.waiting s' phase' r))
    (hnext : Frames P s' phase' (r ++ x) qs e) : Frames P s phase (l ++ x) (ps ++ qs) e := by
  generalize hend : Ending.waiting s' phase' r = w at h
  induction h with
  | partialHeader hl =>
    cases hend
    exact hnext
  | rejected => cases hend
  | accepted hh hd hv _ ih =>
    rw [List.append_assoc]
    exact .accepted hh hd hv (ih hend)
  | partialPayload hl =>
    cases hend
    exact hnext
  | failed => cases hend
  | delivered hp hd _ ih =>
    rw [List.append_assoc]
    exact .delivered hp hd (ih hend)

theorem closed_append (h : Frames P s phase l ps (.closed s')) (x : List β) :
    Frames P s phase (l ++ x) ps (.closed s') := by
  generalize hend : Ending.closed s' = w at h
  induction h with
  | partialHeader => cases hend
  | rejected hh hd hv =>
    rw [List.append_assoc]
    exact .rejected hh hd hv
  | accepted hh hd hv _ ih =>
    rw [List.append_assoc]
    exact .accepted hh hd hv (ih hend)
  | partialPayload => cases hend
  | failed hp hd =>
    rw [List.append_assoc]
    exact .failed hp hd
  | delivered hp hd _ ih =>
    rw [List.append_assoc]
    exact .delivered hp hd (ih hend)

theorem unique (h : Frames P s phase l ps e) (h' : Frames P s phase l qs e') :
    ps = qs ∧ e = e' := by
  induction h generalizing qs e' with
  | partialHeader hl =>
    cases h' with
    | partialHeader => exact ⟨rfl, rfl⟩
    | rejected hh => rw [List.length_append] at hl; omega
    | accepted hh => rw [List.length_append] at hl; omega
  | @rejected s s' k l d hk hd hv =>
    generalize hkl : k ++ l = m at h'
    cases h' with
    | partialHeader hl => rw [← hkl, List.length_append] at hl; omega
    | rejected hk' hd' _ =>
      obtain ⟨rfl, rfl⟩ := List.append_inj hkl (hk.trans hk'.symm)
      obtain ⟨rfl, rfl⟩ := Prod.mk.inj (hd.symm.trans hd')
      exact ⟨rfl, rfl⟩
    | accepted hk' hd' hv' _ =>
      obtain ⟨rfl, rfl⟩ := List.append_inj hkl (hk.trans hk'.symm)
      obtain ⟨rfl, rfl⟩ := Prod.mk.inj (hd.symm.trans hd')
      rw [hv] at hv'
      cases hv'
  | @accepted s s' k l d ps e hk hd hv hrest ih =>
    generalize hkl : k ++ l = m at h'
    cases h' with
    | partialHeader hl => rw [← hkl, List.length_append] at hl; omega
    | rejected hk' hd' hv' =>
      obtain ⟨rfl, rfl⟩ := List.append_inj hkl (hk.trans hk'.symm)
      obtain ⟨rfl, rfl⟩ := Prod.mk.inj (hd.symm.trans hd')
      rw [hv] at hv'
      cases hv'
    | accepted hk' hd' _ hrest' =>
      obtain ⟨rfl, rfl⟩ := List.append_inj hkl (hk.trans hk'.symm)
      obtain ⟨rfl, rfl⟩ := Prod.mk.inj (hd.symm.trans hd')
      exact ih hrest'
  | partialPayload hl =>
    cases h' with
    | partialPayload => exact ⟨rfl, rfl⟩
    | failed hp => rw [List.length_append] at hl; omega
    | delivered hp => rw [List.length_append] at hl; omega
  | @failed s s' d p l hp hd =>
    generalize hpl : p ++ l = m at h'
    cases h' with
    | partialPayload hl => rw [← hpl, List.length_append] at hl; omega
    | failed hp' hd' =>
      obtain ⟨rfl, rfl⟩ := List.append_inj hpl (hp.trans hp'.symm)
      obtain ⟨rfl, _⟩ := Prod.mk.inj (hd.symm.trans hd')
      exact ⟨rfl, rfl⟩
    | delivered hp' hd' _ =>
      obtain ⟨rfl, rfl⟩ := List.append_inj hpl (hp.trans hp'.symm)
      cases (Prod.mk.inj (hd.symm.trans hd')).2
  | @delivered s s' d p l ps e hp hd hrest ih =>
    generalize hpl : p ++ l = m at h'
    cases h' with
    | partialPayload hl => rw [← hpl, List.length_append] at hl; omega
    | failed hp' hd' =>
      obtain ⟨rfl, rfl⟩ := List.append_inj hpl (hp.trans hp'.symm)
      cases (Prod.mk.inj (hd.symm.trans hd')).2
    | delivered hp' hd' hrest' =>
      obtain ⟨rfl, rfl⟩ := List.append_inj hpl (hp.trans hp'.symm)
      obtain ⟨rfl, _⟩ := Prod.mk.inj (hd.symm.trans hd')
      obtain ⟨rfl, rfl⟩ := ih hrest'
      exact ⟨rfl, rfl⟩

end Frames

end Ashamane.Lib.Framing
