import Ashamane.Events.EventMap

/-! Phases of events: which event of the schedule a script gets to see. -/
namespace Ashamane.Events

/-- An event of this phase may occur while `active` is the mask of active phases. -/
def Occurs (active phase : BitVec 16) : Prop :=
  phase = 0 ∨ active = 0 ∨ (phase ≤ 16 ∧ active &&& EventMap.activeBit phase ≠ 0)

instance (active phase : BitVec 16) : Decidable (Occurs active phase) :=
  inferInstanceAs (Decidable (_ ∨ _ ∨ _))

namespace EventMap

def due (m : EventMap) : EventStore := m.eventMap.takeWhile fun e => e.time ≤ m.time

def skipped (m : EventMap) : EventStore :=
  m.due.takeWhile fun e => ¬ Occurs m.phase e.origin.phase

/-- `ExecuteEvent` is called in this state, and `later` are the calls after it. The event it
returns may occur in the active phases; the first due event that may occur is the one
returned, so that one of phase 0 is, whatever the mask; and a skipped event is dropped from
the schedule and never returned by a later call. -/
structure PhasesHonoured (m : EventMap) (later : List Op) : Prop where
  returned : ∀ e, m.executed = some e → Occurs m.phase e.origin.phase
  found : ∀ e, (m.due.find? fun e => Occurs m.phase e.origin.phase) = some e → m.executed = some e
  dropped : m.eventMap = m.skipped ++ m.executed.toList ++ m.executeEvent.2.eventMap
  neverLater : ∀ e ∈ m.skipped, ∀ calls, calls <+: later →
    ∀ x, (m.executeEvent.2.run calls).executed = some x → x.origin.serial ≠ e.origin.serial

def FirstDueOccurs (m : EventMap) : Prop :=
  ∀ e, m.due.head? = some e → Occurs m.phase e.origin.phase

variable {m : EventMap}

theorem phaseMask_low : ∀ i < 32, phaseMask.getLsbD i = false := by
  have hall : ∀ i : Fin 32, phaseMask.getLsbD i = false := by decide
  exact fun i hi => hall ⟨i, hi⟩

/-- In a map that was filled by calls the loop stops at the first entry. -/
theorem BareIds.executed_eq (h : BareIds m) : m.executed = m.due.head? ∧
    m.eventMap = m.executed.toList ++ m.executeEvent.2.eventMap := by
  unfold executed executeEvent due
  cases hstore : m.eventMap with
  | nil => exact ⟨rfl, rfl⟩
  | cons e store =>
    have hbare := h.high_eq_zero (hstore ▸ List.mem_cons_self ..) phaseMask_low
    by_cases hdue : m.time < e.time
    · have hlate : ¬ e.time ≤ m.time := BitVec.not_le.mpr hdue
      simp [nextEvent, hdue, hlate]
    · have hnow : e.time ≤ m.time := BitVec.not_lt.mp hdue
      simp [nextEvent, hdue, hnow, hbare]

/-- Phases are honoured exactly where the first due event may occur. -/
theorem BareIds.phasesHonoured_iff (h : BareIds m) (later : List Op) :
    PhasesHonoured m later ↔ FirstDueOccurs m := by
  obtain ⟨hexecuted, hstore⟩ := h.executed_eq
  constructor
  · intro honoured e he
    exact honoured.returned e (hexecuted.trans he)
  · intro hfirst
    have hnone : m.skipped = [] := by
      rw [skipped]
      cases hdue : m.due with
      | nil => rfl
      | cons e store =>
        have hoccurs := hfirst e (by rw [hdue]; rfl)
        simp [hoccurs]
    refine ⟨fun e he => hfirst e (hexecuted.symm.trans he), fun e he => ?_, ?_, fun e he => ?_⟩
    · cases hdue : m.due with
      | nil =>
        rw [hdue] at he
        cases he
      | cons x store =>
        have hoccurs := hfirst x (by rw [hdue]; rfl)
        rw [hdue, List.find?_cons_of_pos (by simpa using hoccurs)] at he
        rw [hexecuted, hdue]
        exact he
    · rw [hnone, List.nil_append]
      exact hstore
    · rw [hnone] at he
      exact (List.not_mem_nil he).elim

end EventMap

open EventMap in
/-- Phases are honoured by every `ExecuteEvent` of a run if and only if at each of them the
first event of the schedule, when it is due, may occur in the active phases. -/
theorem phases_run_iff (ops : List Op) :
    (∀ before later, ops = before ++ .executeEvent :: later →
      PhasesHonoured (new.run before) later) ↔
    (∀ before later, ops = before ++ .executeEvent :: later → FirstDueOccurs (new.run before)) := by
  constructor
  · intro hall before later hsplit
    exact ((bareIds_new.run before).phasesHonoured_iff later).mp (hall before later hsplit)
  · intro hall before later hsplit
    exact ((bareIds_new.run before).phasesHonoured_iff later).mpr (hall before later hsplit)

/-- An event of phase 1 is returned while only phase 2 is active. -/
theorem phases_fail_otherPhase :
    ¬ ∀ before later : List Op, (EventMap.new.run before).PhasesHonoured later := by
  intro hall
  have hreturned := (hall [.setPhase 2, .scheduleEvent 7 0 0 1] []).returned
    ⟨0, 7, ⟨1, 7, 0, 1⟩⟩ (by decide)
  exact absurd hreturned (by decide)

def EventStore.Ordered (store : EventStore) : Prop :=
  store.Pairwise fun e later => e.time ≤ later.time

namespace EventStore

theorem Ordered.insert {store : EventStore} (h : store.Ordered) (e : Entry) :
    (store.insert e).Ordered := by
  induction store with
  | nil => exact List.pairwise_singleton _ _
  | cons x store ih =>
    obtain ⟨hx, hstore⟩ := List.pairwise_cons.mp h
    unfold EventStore.insert
    split
    · rename_i hlt
      refine List.pairwise_cons.mpr ⟨fun y hy => ?_, h⟩
      rcases List.mem_cons.mp hy with rfl | hy
      · exact BitVec.le_of_lt hlt
      · exact BitVec.le_trans (BitVec.le_of_lt hlt) (hx y hy)
    · rename_i hlt
      refine List.pairwise_cons.mpr ⟨fun y hy => ?_, ih hstore⟩
      rcases List.mem_cons.mp ((insert_perm e store).mem_iff.mp hy) with rfl | hy
      · exact BitVec.not_lt.mp hlt
      · exact hx y hy

theorem Ordered.insertAll {store : EventStore} (h : store.Ordered) (entries : EventStore) :
    (insertAll entries store).Ordered := by
  induction entries generalizing store with
  | nil => exact h
  | cons e entries ih => exact ih (h.insert e)

end EventStore

namespace EventMap
variable {m : EventMap}

theorem ordered_apply (h : m.eventMap.Ordered) (op : Op) : (m.apply op).eventMap.Ordered := by
  have hdelayed : ∀ (p : Entry → Bool) delay, (delayStore p delay m.eventMap).Ordered :=
    fun p delay => EventStore.Ordered.insertAll (h.filter _) _
  cases op with
  | reset => exact List.Pairwise.nil
  | scheduleEvent => exact h.insert _
  | rescheduleEvent => exact EventStore.Ordered.insert (h.filter _) _
  | repeatEvent => exact h.insert _
  | executeEvent =>
    have hsuffix := (nextEvent_suffix m.time m.phase m.eventMap).1
    simp only [apply, executeEvent]
    split
    all_goals
      rename_i hnext
      rw [hnext] at hsuffix
      exact h.sublist hsuffix.sublist
  | delayEvent => exact hdelayed _ _
  | delayEvents delay group =>
    simp only [apply, delayEvents]
    split
    · exact h
    · exact hdelayed _ _
  | cancelEvent => exact h.filter _
  | cancelEventGroup group =>
    simp only [apply, cancelEventGroup]
    split
    · exact h
    · exact h.filter _
  | setPhase phase =>
    simp only [apply, setPhase]
    repeat' split
    all_goals exact h
  | addPhase phase => simp only [apply, addPhase]; split <;> exact h
  | removePhase phase => simp only [apply, removePhase]; split <;> exact h
  | update | delayTimer => exact h

/-- After every run of calls the event that is executed is the earliest one and due, and there is
one unless all events are yet to come. -/
theorem executed_earliest (ops : List Op) :
    (∀ e, (new.run ops).executed = some e → e ∈ (new.run ops).eventMap ∧
      e.time ≤ (new.run ops).time ∧ ∀ x ∈ (new.run ops).eventMap, e.time ≤ x.time) ∧
    ((new.run ops).executed = none → ∀ x ∈ (new.run ops).eventMap, (new.run ops).time < x.time) := by
  have hordered : (new.run ops).eventMap.Ordered := by
    have hrun : ∀ m : EventMap, m.eventMap.Ordered → (m.run ops).eventMap.Ordered := by
      induction ops with
      | nil => exact fun m h => h
      | cons op ops ih => exact fun m h => ih _ (ordered_apply h op)
    exact hrun new List.Pairwise.nil
  have hexecuted := (bareIds_new.run ops).executed_eq.1
  generalize new.run ops = m at hordered hexecuted ⊢
  rw [hexecuted, due]
  cases hstore : m.eventMap with
  | nil => simp
  | cons x store =>
    rw [hstore] at hordered
    have hx := (List.pairwise_cons.mp hordered).1
    by_cases hdue : x.time ≤ m.time
    · rw [List.takeWhile_cons_of_pos (by simpa using hdue)]
      refine ⟨fun e he => ?_, fun hnone => by cases hnone⟩
      obtain rfl := Option.some.inj he
      exact ⟨List.mem_cons_self, hdue, List.forall_mem_cons.mpr ⟨BitVec.le_refl _, hx⟩⟩
    · rw [List.takeWhile_cons_of_neg (by simpa using hdue)]
      refine ⟨fun e he => (by cases he), fun _ => ?_⟩
      have hlate := BitVec.not_le.mp hdue
      exact List.forall_mem_cons.mpr ⟨hlate, fun y hy => Nat.lt_of_lt_of_le hlate (hx y hy)⟩

end EventMap

end Ashamane.Events
