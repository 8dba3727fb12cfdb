import Ashamane.Events.EventMap

/-! The damage event map of a script: events by the health percentage below which they occur,
each packed into one word with its group and its phase. -/
namespace Ashamane.DamageEvents
open Ashamane.Events (Origin eventIdMask phaseMask groupBit)
open Ashamane.Events.EventMap (activeBit packed)

/-- The watched unit: its health, and what `CountPctFromMaxHealth` gives for a percentage. -/
structure Target where
  health : BitVec 64
  countPctFromMaxHealth : BitVec 8 → BitVec 64

namespace Target

def healthBelowPct (target : Target) (pct : BitVec 8) : Bool :=
  target.health < target.countPctFromMaxHealth pct

def healthBelowPctDamaged (target : Target) (pct : BitVec 8) (damage : BitVec 32) : Bool :=
  target.health.toInt - damage.toNat < (target.countPctFromMaxHealth pct).toInt

def healthWillBeBelowPctDamaged (target : Target) (pct : BitVec 8) (damage : BitVec 32) : Bool :=
  !target.healthBelowPct pct && target.healthBelowPctDamaged pct damage

end Target

/-- As in the event map, `origin` says how the event was scheduled. -/
structure Entry where
  healthPct : BitVec 8
  data : BitVec 64
  origin : Origin
  deriving DecidableEq, Repr

def Entry.eventId (e : Entry) : BitVec 32 := (e.data &&& eventIdMask).setWidth 32

/-- The entries in the order of the multimap: by ascending percentage, and events of one
percentage in the order in which they were inserted. -/
abbrev DamageEventStore := List Entry

namespace DamageEventStore

def insert (e : Entry) : DamageEventStore → DamageEventStore
  | [] => [e]
  | x :: store => if e.healthPct < x.healthPct then e :: x :: store else x :: insert e store

theorem insert_perm (e : Entry) (store : DamageEventStore) :
    (insert e store).Perm (e :: store) := by
  induction store with
  | nil => rfl
  | cons x store ih =>
    rw [insert]
    split
    · rfl
    · exact (ih.cons x).trans (List.Perm.swap e x store)

end DamageEventStore

structure DamageEventMap where
  phase : BitVec 16
  lastEvent : BitVec 64
  eventMap : DamageEventStore
  scheduled : Nat
  deriving DecidableEq, Repr

namespace DamageEventMap

def new : DamageEventMap := ⟨0, 0, [], 1⟩

def reset (m : DamageEventMap) : DamageEventMap := { m with eventMap := [], phase := 0 }

def setPhase (m : DamageEventMap) (phase : BitVec 16) : DamageEventMap :=
  if phase = 0 then { m with phase := 0 }
  else if phase ≤ 16 then { m with phase := activeBit phase }
  else m

def addPhase (m : DamageEventMap) (phase : BitVec 16) : DamageEventMap :=
  if phase ≠ 0 ∧ phase ≤ 16 then { m with phase := m.phase ||| activeBit phase } else m

def removePhase (m : DamageEventMap) (phase : BitVec 16) : DamageEventMap :=
  if phase ≠ 0 ∧ phase ≤ 16 then { m with phase := m.phase &&& ~~~ activeBit phase } else m

/-- The word is put together as `EventMap::ScheduleEvent` does it, in the 32 bits of the id. -/
def scheduleEventBelowHealthPct (m : DamageEventMap) (eventId : BitVec 32) (healthPct : BitVec 8)
    (group phase : BitVec 16) : DamageEventMap :=
  let origin : Origin := ⟨m.scheduled, eventId, group, phase⟩
  { m with
    eventMap := m.eventMap.insert ⟨healthPct, packed eventId group phase, origin⟩
    scheduled := m.scheduled + 1 }

def cancelEvent (m : DamageEventMap) (eventId : BitVec 32) : DamageEventMap :=
  { m with eventMap := m.eventMap.filter fun e => eventId ≠ e.eventId }

def rescheduleEvent (m : DamageEventMap) (eventId : BitVec 32) (healthPct : BitVec 8)
    (group phase : BitVec 16) : DamageEventMap :=
  (m.cancelEvent eventId).scheduleEventBelowHealthPct eventId healthPct group phase

def cancelEventGroup (m : DamageEventMap) (group : BitVec 16) : DamageEventMap :=
  if group = 0 ∨ 16 < group ∨ m.eventMap = [] then m
  else { m with eventMap := m.eventMap.filter fun e => ¬ (e.data &&& groupBit group != 0) }

/-- The loop of `OnDamageTaken`: only the first entry is looked at, and thrown away if it does
not occur in the active phases. -/
def nextEvent (target : Target) (damageTaken : BitVec 32) (phase : BitVec 16) :
    DamageEventStore → Option Entry × DamageEventStore
  | [] => (none, [])
  | e :: store =>
    if !target.healthWillBeBelowPctDamaged e.healthPct damageTaken then (none, e :: store)
    else if phase ≠ 0 ∧ e.data &&& phaseMask ≠ 0 ∧
        (e.data >>> 48) &&& phase.setWidth 64 = 0 then nextEvent target damageTaken phase store
    else (some e, store)

def found (m : DamageEventMap) (target : Target) (damageTaken : BitVec 32) : Option Entry :=
  (nextEvent target damageTaken m.phase m.eventMap).1

def onDamageTaken (m : DamageEventMap) (target : Target) (damageTaken : BitVec 32) :
    BitVec 32 × DamageEventMap :=
  match nextEvent target damageTaken m.phase m.eventMap with
  | (some e, store) => (e.eventId, { m with lastEvent := e.data, eventMap := store })
  | (none, store) => (0, { m with eventMap := store })

end DamageEventMap

inductive Op where
  | reset
  | setPhase (phase : BitVec 16)
  | addPhase (phase : BitVec 16)
  | removePhase (phase : BitVec 16)
  | scheduleEventBelowHealthPct (eventId : BitVec 32) (healthPct : BitVec 8)
      (group phase : BitVec 16)
  | rescheduleEvent (eventId : BitVec 32) (healthPct : BitVec 8) (group phase : BitVec 16)
  | cancelEvent (eventId : BitVec 32)
  | cancelEventGroup (group : BitVec 16)
  | onDamageTaken (target : Target) (damageTaken : BitVec 32)

namespace DamageEventMap

def apply (m : DamageEventMap) : Op → DamageEventMap
  | .reset => m.reset
  | .setPhase phase => m.setPhase phase
  | .addPhase phase => m.addPhase phase
  | .removePhase phase => m.removePhase phase
  | .scheduleEventBelowHealthPct eventId healthPct group phase =>
    m.scheduleEventBelowHealthPct eventId healthPct group phase
  | .rescheduleEvent eventId healthPct group phase => m.rescheduleEvent eventId healthPct group phase
  | .cancelEvent eventId => m.cancelEvent eventId
  | .cancelEventGroup group => m.cancelEventGroup group
  | .onDamageTaken target damageTaken => (m.onDamageTaken target damageTaken).2

def run (m : DamageEventMap) (ops : List Op) : DamageEventMap := ops.foldl apply m

variable {m : DamageEventMap} {target : Target} {damageTaken : BitVec 32}

theorem onDamageTaken_cases :
    (∃ e, m.found target damageTaken = some e ∧
      m.onDamageTaken target damageTaken = (e.eventId, { m with
        lastEvent := e.data
        eventMap := (nextEvent target damageTaken m.phase m.eventMap).2 })) ∨
    (m.found target damageTaken = none ∧
      m.onDamageTaken target damageTaken =
        (0, { m with eventMap := (nextEvent target damageTaken m.phase m.eventMap).2 })) := by
  unfold onDamageTaken found
  generalize nextEvent target damageTaken m.phase m.eventMap = next
  obtain ⟨e | e, store⟩ := next
  · exact .inr ⟨rfl, rfl⟩
  · exact .inl ⟨e, rfl, rfl⟩

theorem nextEvent_suffix (phase : BitVec 16) (store : DamageEventStore) :
    (nextEvent target damageTaken phase store).2 <:+ store := by
  induction store with
  | nil => exact List.suffix_refl _
  | cons x store ih =>
    rw [nextEvent]
    split
    · exact List.suffix_refl _
    · split
      · exact ih.trans (List.suffix_cons x store)
      · exact List.suffix_cons x store

theorem onDamageTaken_eventMap : (m.onDamageTaken target damageTaken).2.eventMap =
    (nextEvent target damageTaken m.phase m.eventMap).2 := by
  obtain ⟨e, -, h⟩ | ⟨-, h⟩ := @onDamageTaken_cases m target damageTaken <;> rw [h]

theorem onDamageTaken_scheduled :
    (m.onDamageTaken target damageTaken).2.scheduled = m.scheduled := by
  obtain ⟨e, -, h⟩ | ⟨-, h⟩ := @onDamageTaken_cases m target damageTaken <;> rw [h]

/-- A call inserts at most the event it schedules, under the next serial number, and takes
the others in their order. -/
theorem apply_cases (op : Op) :
    ((m.apply op).eventMap.Sublist m.eventMap ∧ (m.apply op).scheduled = m.scheduled) ∨
    ∃ eventId healthPct group phase, ∃ store : DamageEventStore, store.Sublist m.eventMap ∧
      (op = .scheduleEventBelowHealthPct eventId healthPct group phase ∨
        op = .rescheduleEvent eventId healthPct group phase) ∧
      (m.apply op).eventMap = store.insert ⟨healthPct, packed eventId group phase,
        ⟨m.scheduled, eventId, group, phase⟩⟩ ∧
      (m.apply op).scheduled = m.scheduled + 1 := by
  cases op with
  | reset => exact .inl ⟨List.nil_sublist _, rfl⟩
  | setPhase phase =>
    left
    simp only [apply, setPhase]
    split
    · exact ⟨List.Sublist.refl _, rfl⟩
    · split <;> exact ⟨List.Sublist.refl _, rfl⟩
  | addPhase phase =>
    left
    simp only [apply, addPhase]
    split <;> exact ⟨List.Sublist.refl _, rfl⟩
  | removePhase phase =>
    left
    simp only [apply, removePhase]
    split <;> exact ⟨List.Sublist.refl _, rfl⟩
  | scheduleEventBelowHealthPct eventId healthPct group phase =>
    exact .inr ⟨eventId, healthPct, group, phase, _, List.Sublist.refl _, .inl rfl, rfl, rfl⟩
  | rescheduleEvent eventId healthPct group phase =>
    exact .inr ⟨eventId, healthPct, group, phase, _, List.filter_sublist, .inr rfl, rfl, rfl⟩
  | cancelEvent eventId => exact .inl ⟨List.filter_sublist, rfl⟩
  | cancelEventGroup group =>
    left
    simp only [apply, cancelEventGroup]
    split
    · exact ⟨List.Sublist.refl _, rfl⟩
    · exact ⟨List.filter_sublist, rfl⟩
  | onDamageTaken target damageTaken =>
    refine .inl ⟨?_, onDamageTaken_scheduled⟩
    rw [apply, onDamageTaken_eventMap]
    exact (nextEvent_suffix m.phase m.eventMap).sublist

structure BareIds (m : DamageEventMap) : Prop where
  data : ∀ e ∈ m.eventMap, e.data = e.origin.eventId.setWidth 64
  serial : ∀ e ∈ m.eventMap, e.origin.serial < m.scheduled
  distinct : (m.eventMap.map fun e => e.origin.serial).Nodup

theorem bareIds_new : BareIds new :=
  ⟨fun _ he => (List.not_mem_nil he).elim, fun _ he => (List.not_mem_nil he).elim, List.nodup_nil⟩

theorem BareIds.apply (h : BareIds m) (op : Op) : BareIds (m.apply op) := by
  obtain ⟨hsub, hscheduled⟩ | ⟨eventId, healthPct, group, phase, store, hsub, -, hstore,
    hscheduled⟩ := m.apply_cases op
  · exact ⟨fun e he => h.data e (hsub.subset he),
      fun e he => hscheduled ▸ h.serial e (hsub.subset he), h.distinct.sublist (hsub.map _)⟩
  · have hperm := DamageEventStore.insert_perm ⟨healthPct, packed eventId group phase,
      ⟨m.scheduled, eventId, group, phase⟩⟩ store
    rw [← hstore] at hperm
    refine ⟨fun e he => ?_, fun e he => ?_, ?_⟩
    · obtain rfl | he := List.mem_cons.mp (hperm.mem_iff.mp he)
      · exact Events.EventMap.packed_eq eventId group phase
      · exact h.data e (hsub.subset he)
    · rw [hscheduled]
      obtain rfl | he := List.mem_cons.mp (hperm.mem_iff.mp he)
      · exact Nat.lt_succ_self _
      · exact Nat.lt_succ_of_lt (h.serial e (hsub.subset he))
    · refine ((hperm.map fun e : Entry => e.origin.serial).nodup_iff).mpr
        (List.nodup_cons.mpr ⟨fun hmem => ?_, h.distinct.sublist (hsub.map _)⟩)
      obtain ⟨e, he, hserial⟩ := List.mem_map.mp hmem
      exact absurd (h.serial e (hsub.subset he)) (by rw [hserial]; exact Nat.lt_irrefl _)

theorem BareIds.run (h : BareIds m) (ops : List Op) : BareIds (m.run ops) := by
  induction ops generalizing m with
  | nil => exact h
  | cons op ops ih => exact ih (h.apply op)

theorem BareIds.eventId (h : BareIds m) {e : Entry} (he : e ∈ m.eventMap) :
    e.eventId = e.origin.eventId := by
  rw [Entry.eventId, h.data e he, Events.setWidth_and_eventIdMask]

theorem BareIds.and_eq_zero (h : BareIds m) {e : Entry} (he : e ∈ m.eventMap) {mask : BitVec 64}
    (hmask : ∀ i < 32, mask.getLsbD i = false) : e.data &&& mask = 0 := by
  rw [h.data e he, Events.setWidth_and_high _ hmask]

end DamageEventMap

end Ashamane.DamageEvents
