import Ashamane.Phasing.Phases

/-! A phase that no aura gives stands or falls with one remembered condition list. -/
namespace Ashamane.Phasing
open Ashamane.Lib

variable {κ : Type} {L : List κ} {n : Nat} {v v' : Valuation κ}
  {active suppressed : Option (PhaseRef κ)}

def listedFor (listed : List (Nat × κ)) (j : PhaseId) : List κ :=
  (listed.filter fun e => UInt16.ofNat e.1 = j).map Prod.snd

/-- What the two shifts hold of a phase listed under `L` that `n` aura effects give. -/
inductive Settled (L : List κ) (n : Nat) (v : Valuation κ) :
    Option (PhaseRef κ) → Option (PhaseRef κ) → Prop
  | given {ref : PhaseRef κ} {suppressed : Option (PhaseRef κ)} (hn : 0 < n)
      (hactive : (n : Int) ≤ ref.references)
      (hsuppressed : ∀ r, suppressed = some r → 0 ≤ r.references ∧ r.areaConditions ≠ none) :
      Settled L n v (some ref) suppressed
  | unlisted (hn : n = 0) (hL : L = []) : Settled L n v none none
  | shown {c : κ} (references : Int) (hn : n = 0) (hc : c ∈ L)
      (hv : v.isObjectMeetToConditions c = true) : Settled L n v (some ⟨references, some c⟩) none
  | hidden {c : κ} (references : Int) (hn : n = 0) (hc : c ∈ L)
      (hv : v.isObjectMeetToConditions c = false) : Settled L n v none (some ⟨references, some c⟩)

/-- The references of all effects go back from the new suppressions to the phase. -/
theorem repair_iterate {cell : Cell κ} {ref : PhaseRef κ} (hnew : cell.new = some ref)
    (hpos : 0 < ref.references) (k : Nat) (hk : (k : Int) ≤ ref.references) :
    (Cell.repair^[k] cell).suppressed = cell.suppressed ∧
      (0 < k → ∃ r, (Cell.repair^[k] cell).active = some r ∧
        r.references = (cell.active.map PhaseRef.references).getD 0 + k) ∧
      (k = 0 → (Cell.repair^[k] cell).active = cell.active) ∧
      (Cell.repair^[k] cell).new = if ref.references - k = 0 then none
        else some { ref with references := ref.references - k } := by
  induction k with
  | zero =>
    refine ⟨rfl, fun h => absurd h (Nat.lt_irrefl 0), fun _ => rfl, ?_⟩
    rw [if_neg (by omega)]
    simp only [Function.iterate_zero, id_eq, hnew, Nat.cast_zero, sub_zero]
  | succ k ih =>
    obtain ⟨hsuppressed, hactive, hzero, hleft⟩ := ih (by omega)
    rw [if_neg (by omega)] at hleft
    rw [Function.iterate_succ_apply']
    generalize Cell.repair^[k] cell = before at hsuppressed hactive hzero hleft
    unfold Cell.repair
    simp only [hleft]
    refine ⟨hsuppressed, fun _ => ⟨_, rfl, ?_⟩, fun h => absurd h (Nat.succ_ne_zero k), ?_⟩
    · simp only [PhaseRef.plus]
      by_cases hk : k = 0
      · rw [hzero hk, hk]
        omega
      · obtain ⟨r, hr, hreferences⟩ := hactive (Nat.pos_of_ne_zero hk)
        rw [hr, Option.map_some, Option.getD_some, hreferences]
        omega
    · have hsub : ref.references - (k : Int) - 1 = ref.references - ((k + 1 : Nat) : Int) := by
        omega
      rw [hsub]

theorem repair_of_none {cell : Cell κ} (h : cell.new = none) (k : Nat) :
    Cell.repair^[k] cell = cell := by
  refine Function.iterate_fixed ?_ k
  unfold Cell.repair
  rw [h]

/-- Without new suppressions there is nothing to repair or to keep. -/
theorem change_of_none {cell : Cell κ} (hcell : ((⟨active, suppressed, none⟩ :
    Cell κ).suppress v).restore v = cell) (hnew : cell.new = none) :
    Cell.change v n active suppressed = cell := by
  rw [Cell.change, hcell, repair_of_none hnew, keep_of_none hnew]

theorem restore_new (cell : Cell κ) : (cell.restore v).new = cell.new := by
  unfold Cell.restore
  split
  · split <;> rfl
  · rfl

theorem restore_spec {cell : Cell κ} (hsuppressed : ∀ r, cell.suppressed = some r →
    0 ≤ r.references ∧ r.areaConditions ≠ none) :
    (cell.active.map PhaseRef.references).getD 0 ≤
        ((cell.restore v).active.map PhaseRef.references).getD 0 ∧
      (cell.active ≠ none → (cell.restore v).active ≠ none) ∧
      ∀ r, (cell.restore v).suppressed = some r → 0 ≤ r.references ∧ r.areaConditions ≠ none := by
  rcases href : cell.suppressed with _ | ⟨references, _ | c⟩
  · rw [restore_of_none v href]
    exact ⟨Int.le_refl _, id, hsuppressed⟩
  · exact absurd rfl (hsuppressed _ href).2
  · have hnonneg := (hsuppressed _ href).1
    unfold Cell.restore
    simp only [href]
    split
    · refine ⟨?_, (fun _ h => nomatch h), fun r h => nomatch h⟩
      simp only [PhaseRef.plus, Option.map_some, Option.getD_some] at hnonneg ⊢
      omega
    · refine ⟨Int.le_refl _, id, fun r h => ?_⟩
      exact hsuppressed r (href.trans (href.symm.trans h))

/-- A change of conditions keeps a phase settled, under whatever valuation. -/
theorem Settled.change (h : Settled L n v active suppressed) :
    Settled L n v' (Cell.change v' n active suppressed).active
      (Cell.change v' n active suppressed).suppressed := by
  cases h with
  | @given ref suppressed hn hactive hsuppressed =>
    rcases ref with ⟨references, _ | c⟩
    · have hkept : (⟨some ⟨references, none⟩, suppressed, none⟩ : Cell κ).suppress v' =
          ⟨some ⟨references, none⟩, suppressed, none⟩ := rfl
      obtain ⟨hle, hsome, hrest⟩ := @restore_spec κ v'
        ⟨some ⟨references, none⟩, suppressed, none⟩ hsuppressed
      rw [change_of_none (congrArg (Cell.restore v') hkept) (restore_new _)]
      obtain ⟨r, hr⟩ := Option.ne_none_iff_exists'.mp (hsome fun h => by cases h)
      rw [hr] at hle ⊢
      exact .given hn (Int.le_trans hactive hle) hrest
    · by_cases hv : v'.isObjectMeetToConditions c = true
      · have hkept : (⟨some ⟨references, some c⟩, suppressed, none⟩ : Cell κ).suppress v' =
            ⟨some ⟨references, some c⟩, suppressed, none⟩ := by
          simp only [Cell.suppress, hv, if_true]
        obtain ⟨hle, hsome, hrest⟩ := @restore_spec κ v'
          ⟨some ⟨references, some c⟩, suppressed, none⟩ hsuppressed
        rw [change_of_none (congrArg (Cell.restore v') hkept) (restore_new _)]
        obtain ⟨r, hr⟩ := Option.ne_none_iff_exists'.mp (hsome fun h => by cases h)
        rw [hr] at hle ⊢
        exact .given hn (Int.le_trans hactive hle) hrest
      · -- the phase goes, and the auras bring it back
        have hmoved : (⟨some ⟨references, some c⟩, suppressed, none⟩ : Cell κ).suppress v' =
            ⟨none, suppressed, some ⟨0 + references, some c⟩⟩ := by
          simp only [Cell.suppress, if_neg hv]
          rfl
        obtain ⟨hle, -, hrest⟩ := @restore_spec κ v'
          ⟨none, suppressed, some ⟨0 + references, some c⟩⟩ hsuppressed
        have hnew : (Cell.restore v' ⟨none, suppressed, some ⟨0 + references, some c⟩⟩).new =
          some ⟨0 + references, some c⟩ := restore_new _
        unfold Cell.change
        rw [hmoved]
        generalize Cell.restore v' ⟨none, suppressed, some ⟨0 + references, some c⟩⟩ = cell at *
        obtain ⟨hkept, hback, -, hleft⟩ := repair_iterate hnew
          (show (0 : Int) < 0 + references by dsimp only at hactive; omega) n
          (show (n : Int) ≤ 0 + references by dsimp only at hactive; omega)
        obtain ⟨r, hr, hreferences⟩ := hback hn
        generalize Cell.repair^[n] cell = repaired at *
        have hr' : repaired.keep.active = some r := by
          unfold Cell.keep
          split <;> exact hr
        rw [hr']
        refine .given hn ?_ ?_
        · simp only [Option.map_none, Option.getD_none] at hle
          omega
        · intro q hq
          unfold Cell.keep at hq
          split at hleft
          · rw [hleft] at hq
            exact hrest q (hkept ▸ hq)
          · rename_i hne
            simp only [hleft] at hq
            obtain rfl := Option.some.inj hq
            refine ⟨?_, fun h => by cases h⟩
            have hold : 0 ≤ (repaired.suppressed.map PhaseRef.references).getD 0 := by
              cases hs : repaired.suppressed with
              | none => exact Int.le_refl 0
              | some q => exact (hrest q (hkept ▸ hs)).1
            simp only [PhaseRef.plus]
            dsimp only at hactive
            omega
  | unlisted hn hL =>
    rw [change_of_none rfl rfl]
    exact .unlisted hn hL
  | @shown c references hn hc hv =>
    subst hn
    by_cases hv' : v'.isObjectMeetToConditions c = true
    · have hcell : ((⟨some ⟨references, some c⟩, none, none⟩ : Cell κ).suppress v').restore v' =
          ⟨some ⟨references, some c⟩, none, none⟩ := by
        simp only [Cell.suppress, hv', if_true, Cell.restore]
      rw [change_of_none hcell rfl]
      exact .shown references rfl hc hv'
    · have hcell : (Cell.change v' 0 (some ⟨references, some c⟩) none) =
          ⟨none, some ⟨0 + (0 + references), some c⟩, some ⟨0 + references, some c⟩⟩ := by
        simp only [Cell.change, Cell.suppress, if_neg hv', Cell.restore, Function.iterate_zero,
          id_eq, Cell.keep]
        rfl
      rw [hcell]
      exact .hidden _ rfl hc (Bool.eq_false_iff.mpr hv')
  | @hidden c references hn hc hv =>
    subst hn
    by_cases hv' : v'.isObjectMeetToConditions c = true
    · have hcell : ((⟨none, some ⟨references, some c⟩, none⟩ : Cell κ).suppress v').restore v' =
          ⟨some ⟨0 + references, some c⟩, none, none⟩ := by
        simp only [Cell.suppress, Cell.restore, hv', if_true]
        rfl
      rw [change_of_none hcell rfl]
      exact .shown _ rfl hc hv'
    · have hcell : ((⟨none, some ⟨references, some c⟩, none⟩ : Cell κ).suppress v').restore v' =
          ⟨none, some ⟨references, some c⟩, none⟩ := by
        simp only [Cell.suppress, Cell.restore, if_neg hv']
      rw [change_of_none hcell rfl]
      exact .hidden references rfl hc (Bool.eq_false_iff.mpr hv')

section Scratch

def addTo (v : Valuation κ) (p : Option (PhaseRef κ) × Option (PhaseRef κ)) (c : κ) :
    Option (PhaseRef κ) × Option (PhaseRef κ) :=
  if v.isObjectMeetToConditions c then (some (.plus p.1 (some c) 1), p.2)
  else (p.1, some (.plus p.2 (some c) 1))

def give (ref : Option (PhaseRef κ)) : Option (PhaseRef κ) := some (.plus ref none 1)

theorem give_iterate (ref : Option (PhaseRef κ)) (hn : 0 < n) : ∃ r, give^[n] ref = some r ∧
    r.references = (ref.map PhaseRef.references).getD 0 + n := by
  induction n with
  | zero => exact absurd hn (Nat.lt_irrefl 0)
  | succ n ih =>
    rw [Function.iterate_succ_apply']
    refine ⟨_, rfl, ?_⟩
    simp only [PhaseRef.plus]
    by_cases hn : n = 0
    · subst hn
      rfl
    · obtain ⟨r, hr, hreferences⟩ := ih (Nat.pos_of_ne_zero hn)
      rw [hr, Option.map_some, Option.getD_some, hreferences]
      omega

theorem onAreaChange_phases {w : World κ} {object : WorldObject} {s t : Shifts κ}
    {listed : List (Nat × κ)} (hlisted : w.phaseAreas object = some listed)
    (h : s.onAreaChange w v object = some t) (j : PhaseId) :
    t.phaseShift.phases.lookup j = give^[auraCount w object j]
        ((listedFor listed j).foldl (addTo v) (none, none)).1 ∧
      t.suppressed.phases.lookup j = ((listedFor listed j).foldl (addTo v) (none, none)).2 := by
  unfold Shifts.onAreaChange at h
  rw [hlisted, Option.map_some] at h
  obtain rfl := Option.some.inj h
  have hself : ∀ (s : Shifts κ) (e : Nat × κ),
      ((Shifts.addListed v s e).phaseShift.phases.lookup (UInt16.ofNat e.1),
        (Shifts.addListed v s e).suppressed.phases.lookup (UInt16.ofNat e.1)) =
      addTo v (s.phaseShift.phases.lookup (UInt16.ofNat e.1),
        s.suppressed.phases.lookup (UInt16.ofNat e.1)) e.2 := by
    intro s e
    unfold Shifts.addListed addTo
    split <;> simp only [lookup_addPhase, if_true]
  have hother : ∀ (s : Shifts κ) (e : Nat × κ) (j : PhaseId), j ≠ UInt16.ofNat e.1 →
      ((Shifts.addListed v s e).phaseShift.phases.lookup j,
        (Shifts.addListed v s e).suppressed.phases.lookup j) =
      (s.phaseShift.phases.lookup j, s.suppressed.phases.lookup j) := by
    intro s e j hj
    unfold Shifts.addListed
    split <;> simp only [lookup_addPhase, if_neg hj]
  generalize hstart : (⟨{ s.phaseShift with phases := ∅ },
    { s.suppressed with phases := ∅ }⟩ : Shifts κ) = start
  have hempty : (start.phaseShift.phases.lookup j, start.suppressed.phases.lookup j) =
      (none, none) := by
    rw [← hstart]
    rfl
  have hfold := @view_foldl (Shifts κ) (Nat × κ) _ PhaseId _ (Shifts.addListed v)
    (fun e => UInt16.ofNat e.1)
    (fun j s => (s.phaseShift.phases.lookup j, s.suppressed.phases.lookup j))
    (fun p e => addTo v p e.2) hself hother j listed start
  have haura : ∀ shift : PhaseShift κ, ((object.auraPhases w).foldl
      (fun shift phaseId => shift.addPhase phaseId none 1) shift).phases.lookup j =
      give^[auraCount w object j] (shift.phases.lookup j) := by
    intro shift
    have hview := @view_foldl (PhaseShift κ) Nat _ PhaseId _
      (fun shift phaseId => shift.addPhase phaseId none 1) UInt16.ofNat
      (fun j shift => shift.phases.lookup j) (fun ref _ => give ref)
      (fun shift phaseId => by rw [lookup_addPhase, if_pos rfl]; rfl)
      (fun shift phaseId j hj => by rw [lookup_addPhase, if_neg hj]) j
      (object.auraPhases w) shift
    rw [auraCount, ← List.foldl_const]
    exact hview
  rw [hempty] at hfold
  have hpair : (listedFor listed j).foldl (addTo v) (none, none) =
      ((listed.foldl (Shifts.addListed v) start).phaseShift.phases.lookup j,
        (listed.foldl (Shifts.addListed v) start).suppressed.phases.lookup j) := by
    rw [listedFor, List.foldl_map]
    exact hfold.symm
  rw [hpair]
  exact ⟨haura _, rfl⟩

/-- What is shown of the listings has met its conditions, and the last of them counts. -/
theorem foldl_addTo (v : Valuation κ) (L : List κ) :
    (∀ r, (L.foldl (addTo v) (none, none)).1 = some r → 0 ≤ r.references ∧
      ∃ c ∈ L, v.isObjectMeetToConditions c = true ∧ r.areaConditions = some c) ∧
    (∀ r, (L.foldl (addTo v) (none, none)).2 = some r → 0 ≤ r.references ∧
      ∃ c ∈ L, v.isObjectMeetToConditions c = false ∧ r.areaConditions = some c) ∧
    (∀ c ∈ L, v.isObjectMeetToConditions c = true →
      (L.foldl (addTo v) (none, none)).1 ≠ none) ∧
    (∀ c ∈ L, v.isObjectMeetToConditions c = false →
      (L.foldl (addTo v) (none, none)).2 ≠ none) := by
  induction L using List.reverseRecOn with
  | nil =>
    exact ⟨(fun _ h => nomatch h), (fun _ h => nomatch h), (fun _ h => nomatch h),
      fun _ h => nomatch h⟩
  | append_singleton L d ih =>
    obtain ⟨hshown, hhidden, hsome, hrest⟩ := ih
    have hnonneg : ∀ {ref : Option (PhaseRef κ)}, (∀ r, ref = some r → 0 ≤ r.references) →
        0 ≤ (ref.map PhaseRef.references).getD 0 := by
      intro ref href
      cases ref with
      | none => exact Int.le_refl 0
      | some r => exact href r rfl
    rw [List.foldl_append, List.foldl_cons, List.foldl_nil]
    generalize L.foldl (addTo v) (none, none) = p at hshown hhidden hsome hrest
    unfold addTo
    by_cases hd : v.isObjectMeetToConditions d = true
    · rw [if_pos hd]
      refine ⟨fun r hr => ?_, fun r hr => ?_, (fun _ _ _ h => nomatch h), fun c hc hv => ?_⟩
      · obtain rfl := Option.some.inj hr
        have hold := hnonneg fun r hr => (hshown r hr).1
        exact ⟨Int.add_nonneg hold (by decide), d, List.mem_append_right L List.mem_cons_self,
          hd, rfl⟩
      · obtain ⟨hpos, c, hc, hv⟩ := hhidden r hr
        exact ⟨hpos, c, List.mem_append_left _ hc, hv⟩
      · rcases List.mem_append.mp hc with hc | hc
        · exact hrest c hc hv
        · rw [List.mem_singleton.mp hc, hd] at hv
          cases hv
    · rw [if_neg hd]
      have hd : v.isObjectMeetToConditions d = false := Bool.eq_false_iff.mpr hd
      refine ⟨fun r hr => ?_, fun r hr => ?_, fun c hc hv => ?_, fun _ _ _ h => nomatch h⟩
      · obtain ⟨hpos, c, hc, hv⟩ := hshown r hr
        exact ⟨hpos, c, List.mem_append_left _ hc, hv⟩
      · obtain rfl := Option.some.inj hr
        have hold := hnonneg fun r hr => (hhidden r hr).1
        exact ⟨Int.add_nonneg hold (by decide), d, List.mem_append_right L List.mem_cons_self,
          hd, rfl⟩
      · rcases List.mem_append.mp hc with hc | hc
        · exact hsome c hc hv
        · rw [List.mem_singleton.mp hc, hd] at hv
          cases hv

theorem settled_scratch (hagree : n = 0 → ∀ c ∈ L, ∀ d ∈ L,
    v.isObjectMeetToConditions c = v.isObjectMeetToConditions d) :
    Settled L n v (give^[n] (L.foldl (addTo v) (none, none)).1)
      (L.foldl (addTo v) (none, none)).2 := by
  obtain ⟨hshown, hhidden, hsome, hrest⟩ := foldl_addTo v L
  generalize L.foldl (addTo v) (none, none) = p at hshown hhidden hsome hrest
  obtain ⟨active, suppressed⟩ := p
  dsimp only at hshown hhidden hsome hrest ⊢
  by_cases hn : n = 0
  · subst hn
    have hagree := hagree rfl
    rw [Function.iterate_zero, id_eq]
    cases active with
    | some ref =>
      obtain ⟨-, c, hc, hv, hconditions⟩ := hshown ref rfl
      obtain ⟨references, conditions⟩ := ref
      obtain rfl : conditions = some c := hconditions
      cases suppressed with
      | none => exact .shown references rfl hc hv
      | some r =>
        obtain ⟨-, d, hd, hv', -⟩ := hhidden r rfl
        rw [hagree d hd c hc, hv] at hv'
        cases hv'
    | none =>
      cases suppressed with
      | some r =>
        obtain ⟨-, c, hc, hv, hconditions⟩ := hhidden r rfl
        obtain ⟨references, conditions⟩ := r
        obtain rfl : conditions = some c := hconditions
        exact .hidden references rfl hc hv
      | none =>
        refine .unlisted rfl (List.eq_nil_iff_forall_not_mem.mpr fun c hc => ?_)
        cases hv : v.isObjectMeetToConditions c with
        | true => exact hsome c hc hv rfl
        | false => exact hrest c hc hv rfl
  · have hn : 0 < n := Nat.pos_of_ne_zero hn
    obtain ⟨r, hr, hreferences⟩ := give_iterate active hn
    rw [hr]
    refine .given hn ?_ fun r hr => ?_
    · have hold : 0 ≤ (active.map PhaseRef.references).getD 0 := by
        cases active with
        | none => exact Int.le_refl 0
        | some r => exact (hshown r rfl).1
      omega
    · obtain ⟨hpos, c, -, -, hconditions⟩ := hhidden r hr
      exact ⟨hpos, by rw [hconditions]; exact fun h => nomatch h⟩

/-- From scratch a phase is shown if an aura gives it or some listing meets its conditions. -/
theorem shown_scratch : give^[n] (L.foldl (addTo v) (none, none)).1 ≠ none ↔
    0 < n ∨ ∃ c ∈ L, v.isObjectMeetToConditions c = true := by
  obtain ⟨hshown, -, hsome, -⟩ := foldl_addTo v L
  by_cases hn : 0 < n
  · obtain ⟨r, hr, -⟩ := give_iterate (L.foldl (addTo v) (none, none)).1 hn
    rw [hr]
    exact iff_of_true (fun h => nomatch h) (.inl hn)
  · obtain rfl : n = 0 := Nat.eq_zero_of_not_pos hn
    rw [Function.iterate_zero, id_eq]
    constructor
    · intro h
      obtain ⟨r, hr⟩ := Option.ne_none_iff_exists'.mp h
      obtain ⟨-, c, hc, hv, -⟩ := hshown r hr
      exact .inr ⟨c, hc, hv⟩
    · rintro (h | ⟨c, hc, hv⟩)
      · exact absurd h hn
      · exact hsome c hc hv

/-- A settled phase is shown as it would be from scratch, if its listings agree. -/
theorem Settled.shown_iff (h : Settled L n v active suppressed) (hagree : n = 0 →
    ∀ c ∈ L, ∀ d ∈ L, v.isObjectMeetToConditions c = v.isObjectMeetToConditions d) :
    active ≠ none ↔ 0 < n ∨ ∃ c ∈ L, v.isObjectMeetToConditions c = true := by
  cases h with
  | given hn _ _ => exact iff_of_true (fun h => nomatch h) (.inl hn)
  | unlisted hn hL =>
    subst hn hL
    exact iff_of_false (fun h => h rfl) (by rintro (h | ⟨_, h, -⟩) <;> cases h)
  | shown _ hn hc hv => exact iff_of_true (fun h => nomatch h) (.inr ⟨_, hc, hv⟩)
  | hidden _ hn hc hv =>
    refine iff_of_false (fun h => h rfl) ?_
    rintro (h | ⟨d, hd, hd'⟩)
    · omega
    · rw [hagree hn d hd _ hc, hv] at hd'
      cases hd'

theorem Settled.conditions (h : Settled L n v active suppressed) {ref : PhaseRef κ}
    (href : suppressed = some ref) : ref.areaConditions ≠ none := by
  cases h with
  | given hn _ hsuppressed => exact (hsuppressed ref href).2
  | unlisted hn hL => cases href
  | shown _ hn hc hv => cases href
  | hidden _ hn hc hv =>
    obtain rfl := Option.some.inj href
    exact fun h => nomatch h

end Scratch

end Ashamane.Phasing
