import Mathlib.Data.List.Perm.Basic

/-! The event map of a script: events by the time at which they occur, each packed
into one word with its group and its phase. -/
namespace Ashamane.Events

/-- How an event was scheduled, and the how manieth it was. The map itself keeps only
the packed word. -/
structure Origin where
  serial : Nat
  eventId : BitVec 32
  group : BitVec 16
  phase : BitVec 16
  deriving DecidableEq, Repr

structure Entry where
  time : BitVec 32
  data : BitVec 64
  origin : Origin
  deriving DecidableEq, Repr

/-- The entries in the order of the multimap: by time, and events of one time in the
order in which they were inserted. -/
abbrev EventStore := List Entry

namespace EventStore

def insert (e : Entry) : EventStore → EventStore
  | [] => [e]
  | x :: store => if e.time < x.time then e :: x :: store else x :: insert e store

def insertAll (entries store : EventStore) : EventStore :=
  entries.foldl (fun store e => insert e store) store

theorem insert_perm (e : Entry) (store : EventStore) : (insert e store).Perm (e :: store) := by
  induction store with
  | nil => rfl
  | cons x store ih =>
    rw [insert]
    split
    · rfl
    · exact (ih.cons x).trans (List.Perm.swap e x store)

theorem insertAll_perm (entries store : EventStore) :
    (insertAll entries store).Perm (entries ++ store) := by
  induction entries generalizing store with
  | nil => rfl
  | cons e entries ih =>
    have hnext := ih (insert e store)
    have hins := (insert_perm e store).append_left entries
    exact (hnext.trans hins).trans List.perm_middle

end EventStore

def eventIdMask : BitVec 64 := 0x00000000FFFFFFFF
def phaseMask : BitVec 64 := 0xFFFF000000000000

theorem setWidth_and_high (eventId : BitVec 32) {mask : BitVec 64}
    (hmask : ∀ i < 32, mask.getLsbD i = false) : eventId.setWidth 64 &&& mask = 0 := by
  ext i hi
  by_cases hlow : i < 32
  · have hbit : mask[i] = false := (BitVec.getLsbD_eq_getElem hi).symm.trans (hmask i hlow)
    simp [hbit]
  · have hbit : eventId.getLsbD i = false := BitVec.getLsbD_of_ge _ _ (by omega)
    simp [hbit]

theorem setWidth_and_eventIdMask (eventId : BitVec 32) :
    (eventId.setWidth 64 &&& eventIdMask).setWidth 32 = eventId := by
  ext i hi
  have hmask : eventIdMask.getLsbD i = true := by
    have hall : ∀ j : Fin 32, eventIdMask.getLsbD j = true := by decide
    exact hall ⟨i, hi⟩
  simp [hmask]

def Entry.eventId (e : Entry) : BitVec 32 := (e.data &&& eventIdMask).setWidth 32

def groupBit (group : BitVec 16) : BitVec 64 := (1 : BitVec 64) <<< (group.toNat + 31)

def phaseBit (phase : BitVec 16) : BitVec 64 := (1 : BitVec 64) <<< (phase.toNat + 47)

/-- `lastOrigin` goes with `lastEvent` as `Entry.origin` goes with the word; `scheduled` counts
the events that were inserted so far. -/
structure EventMap where
  time : BitVec 32
  phase : BitVec 16
  lastEvent : BitVec 64
  lastOrigin : Origin
  eventMap : EventStore
  scheduled : Nat
  deriving DecidableEq, Repr

namespace EventMap

def new : EventMap := ⟨0, 0, 0, ⟨0, 0, 0, 0⟩, [], 1⟩

def reset (m : EventMap) : EventMap := { m with eventMap := [], time := 0, phase := 0 }

def update (m : EventMap) (time : BitVec 32) : EventMap := { m with time := m.time + time }

def activeBit (phase : BitVec 16) : BitVec 16 := (1 : BitVec 16) <<< (phase.toNat - 1)

def setPhase (m : EventMap) (phase : BitVec 16) : EventMap :=
  if phase = 0 then { m with phase := 0 }
  else if phase ≤ 16 then { m with phase := activeBit phase }
  else m

def addPhase (m : EventMap) (phase : BitVec 16) : EventMap :=
  if phase ≠ 0 ∧ phase ≤ 16 then { m with phase := m.phase ||| activeBit phase } else m

def removePhase (m : EventMap) (phase : BitVec 16) : EventMap :=
  if phase ≠ 0 ∧ phase ≤ 16 then { m with phase := m.phase &&& ~~~ activeBit phase } else m

/-- The word of an event. The bits are computed in 64 bits and stored back into the
32 bits of `eventId`. -/
def packed (eventId : BitVec 32) (group phase : BitVec 16) : BitVec 64 :=
  let eventId := if group ≠ 0 ∧ group < 16 then
    (eventId.setWidth 64 ||| groupBit group).setWidth 32 else eventId
  let eventId := if phase ≠ 0 ∧ phase < 16 then
    (eventId.setWidth 64 ||| phaseBit phase).setWidth 32 else eventId
  eventId.setWidth 64

def scheduleEvent (m : EventMap) (eventId time : BitVec 32) (group phase : BitVec 16) : EventMap :=
  let origin : Origin := ⟨m.scheduled, eventId, group, phase⟩
  { m with
    eventMap := m.eventMap.insert ⟨m.time + time, packed eventId group phase, origin⟩
    scheduled := m.scheduled + 1 }

def cancelEvent (m : EventMap) (eventId : BitVec 32) : EventMap :=
  { m with eventMap := m.eventMap.filter fun e => eventId ≠ e.eventId }

def rescheduleEvent (m : EventMap) (eventId time : BitVec 32) (group phase : BitVec 16) :
    EventMap :=
  (m.cancelEvent eventId).scheduleEvent eventId time group phase

def repeatEvent (m : EventMap) (time : BitVec 32) : EventMap :=
  let origin : Origin := { m.lastOrigin with serial := m.scheduled }
  { m with
    eventMap := m.eventMap.insert ⟨m.time + time, m.lastEvent, origin⟩
    scheduled := m.scheduled + 1 }

/-- The loop of `ExecuteEvent`: events that do not occur in the active phases are
thrown away until one is found. -/
def nextEvent (time : BitVec 32) (phase : BitVec 16) : EventStore → Option Entry × EventStore
  | [] => (none, [])
  | e :: store =>
    if time < e.time then (none, e :: store)
    else if phase ≠ 0 ∧ e.data &&& phaseMask ≠ 0 ∧
        (e.data >>> 48) &&& phase.setWidth 64 = 0 then nextEvent time phase store
    else (some e, store)

def executed (m : EventMap) : Option Entry := (nextEvent m.time m.phase m.eventMap).1

def executeEvent (m : EventMap) : BitVec 32 × EventMap :=
  match nextEvent m.time m.phase m.eventMap with
  | (some e, store) =>
    (e.eventId, { m with lastEvent := e.data, lastOrigin := e.origin, eventMap := store })
  | (none, store) => (0, { m with eventMap := store })

/-- Move the events that meet `p` back by `delay`, through a second multimap. -/
def delayStore (p : Entry → Bool) (delay : BitVec 32) (store : EventStore) : EventStore :=
  let moved := (store.filter p).map fun e => { e with time := e.time + delay }
  EventStore.insertAll (EventStore.insertAll moved []) (store.filter fun e => ¬ p e)

def delayEvent (m : EventMap) (eventId delay : BitVec 32) : EventMap :=
  { m with eventMap := delayStore (fun e => e.eventId == eventId) delay m.eventMap }

/-- `DelayEvents` without a group sets the timer back. -/
def delayTimer (m : EventMap) (delay : BitVec 32) : EventMap :=
  { m with time := if delay < m.time then m.time - delay else 0 }

def delayEvents (m : EventMap) (delay : BitVec 32) (group : BitVec 16) : EventMap :=
  if group = 0 ∨ 16 < group ∨ m.eventMap = [] then m
  else
    { m with eventMap := delayStore (fun e => e.data &&& groupBit group != 0) delay m.eventMap }

def cancelEventGroup (m : EventMap) (group : BitVec 16) : EventMap :=
  if group = 0 ∨ 16 < group ∨ m.eventMap = [] then m
  else { m with eventMap := m.eventMap.filter fun e => ¬ (e.data &&& groupBit group != 0) }

end EventMap

inductive Op where
  | reset
  | update (time : BitVec 32)
  | setPhase (phase : BitVec 16)
  | addPhase (phase : BitVec 16)
  | removePhase (phase : BitVec 16)
  | scheduleEvent (eventId time : BitVec 32) (group phase : BitVec 16)
  | rescheduleEvent (eventId time : BitVec 32) (group phase : BitVec 16)
  | repeatEvent (time : BitVec 32)
  | executeEvent
  | delayEvent (eventId delay : BitVec 32)
  | delayTimer (delay : BitVec 32)
  | delayEvents (delay : BitVec 32) (group : BitVec 16)
  | cancelEvent (eventId : BitVec 32)
  | cancelEventGroup (group : BitVec 16)
  deriving DecidableEq, Repr

namespace EventMap

def apply (m : EventMap) : Op → EventMap
  | .reset => m.reset
  | .update time => m.update time
  | .setPhase phase => m.setPhase phase
  | .addPhase phase => m.addPhase phase
  | .removePhase phase => m.removePhase phase
  | .scheduleEvent eventId time group phase => m.scheduleEvent eventId time group phase
  | .rescheduleEvent eventId time group phase => m.rescheduleEvent eventId time group phase
  | .repeatEvent time => m.repeatEvent time
  | .executeEvent => m.executeEvent.2
  | .delayEvent eventId delay => m.delayEvent eventId delay
  | .delayTimer delay => m.delayTimer delay
  | .delayEvents delay group => m.delayEvents delay group
  | .cancelEvent eventId => m.cancelEvent eventId
  | .cancelEventGroup group => m.cancelEventGroup group

def run (m : EventMap) (ops : List Op) : EventMap := ops.foldl apply m

/-- A bit above the id is lost on the way back into `eventId`. -/
theorem setWidth_or_high (eventId : BitVec 32) {n : Nat} (hn : 32 ≤ n) :
    (eventId.setWidth 64 ||| (1 : BitVec 64) <<< n).setWidth 32 = eventId := by
  ext i hi
  simp only [BitVec.getElem_setWidth, BitVec.getLsbD_or, BitVec.getLsbD_setWidth,
    BitVec.getLsbD_shiftLeft]
  have hbelow : i < n := by omega
  have hinside : i < 64 := by omega
  simp [hbelow, hinside, hi]

theorem packed_eq (eventId : BitVec 32) (group phase : BitVec 16) :
    packed eventId group phase = eventId.setWidth 64 := by
  have hgroup : (if group ≠ 0 ∧ group < 16 then
      (eventId.setWidth 64 ||| groupBit group).setWidth 32 else eventId) = eventId := by
    split
    next h =>
      have hpos : 0 < group.toNat := by
        have hne := h.1
        bv_omega
      exact setWidth_or_high eventId (by omega)
    · rfl
  have hphase : (if phase ≠ 0 ∧ phase < 16 then
      (eventId.setWidth 64 ||| phaseBit phase).setWidth 32 else eventId) = eventId := by
    split
    · exact setWidth_or_high eventId (by omega)
    · rfl
  simp only [packed, hgroup, hphase]

structure BareIds (m : EventMap) : Prop where
  entry : ∀ e ∈ m.eventMap, e.data = e.origin.eventId.setWidth 64
  last : m.lastEvent = m.lastOrigin.eventId.setWidth 64

variable {m : EventMap}

theorem bareIds_new : BareIds new := ⟨fun _ he => (List.not_mem_nil he).elim, rfl⟩

theorem nextEvent_suffix (time : BitVec 32) (phase : BitVec 16) (store : EventStore) :
    (nextEvent time phase store).2 <:+ store ∧
      ∀ e, (nextEvent time phase store).1 = some e → e ∈ store := by
  induction store with
  | nil => exact ⟨List.suffix_refl _, fun e he => by cases he⟩
  | cons x store ih =>
    rw [nextEvent]
    split
    · exact ⟨List.suffix_refl _, fun e he => by cases he⟩
    · split
      · exact ⟨ih.1.trans (List.suffix_cons x store), fun e he => List.mem_cons_of_mem _ (ih.2 e he)⟩
      · refine ⟨List.suffix_cons x store, fun e he => ?_⟩
        cases he
        exact List.mem_cons_self ..

theorem mem_delayStore {p : Entry → Bool} {delay : BitVec 32} {store : EventStore} {e : Entry}
    (he : e ∈ delayStore p delay store) :
    ∃ x ∈ store, e.data = x.data ∧ e.origin = x.origin := by
  have hall := (EventStore.insertAll_perm _ _).mem_iff.mp he
  obtain hmoved | hstay := List.mem_append.mp hall
  · have hmem := (EventStore.insertAll_perm _ _).mem_iff.mp hmoved
    rw [List.append_nil] at hmem
    obtain ⟨x, hx, rfl⟩ := List.mem_map.mp hmem
    exact ⟨x, (List.mem_filter.mp hx).1, rfl, rfl⟩
  · exact ⟨e, (List.mem_filter.mp hstay).1, rfl, rfl⟩

theorem mem_apply {op : Op} {e : Entry} (he : e ∈ (m.apply op).eventMap) :
    (∃ x ∈ m.eventMap, e.data = x.data ∧ e.origin = x.origin) ∨
    (∃ eventId time group phase,
      (op = .scheduleEvent eventId time group phase ∨
        op = .rescheduleEvent eventId time group phase) ∧
      e.data = packed eventId group phase ∧
      e.origin = ⟨m.scheduled, eventId, group, phase⟩) ∨
    (∃ time, op = .repeatEvent time ∧ e.data = m.lastEvent ∧
      e.origin = { m.lastOrigin with serial := m.scheduled }) := by
  have hold : ∀ x ∈ m.eventMap, e = x →
      ∃ x ∈ m.eventMap, e.data = x.data ∧ e.origin = x.origin := fun x hx heq =>
    ⟨x, hx, heq ▸ rfl, heq ▸ rfl⟩
  cases op with
  | reset => exact (List.not_mem_nil he).elim
  | update => exact .inl (hold e he rfl)
  | setPhase phase =>
    left
    simp only [apply, setPhase] at he
    split at he
    · exact hold e he rfl
    · split at he <;> exact hold e he rfl
  | addPhase phase =>
    left
    simp only [apply, addPhase] at he
    split at he <;> exact hold e he rfl
  | removePhase phase =>
    left
    simp only [apply, removePhase] at he
    split at he <;> exact hold e he rfl
  | scheduleEvent eventId time group phase =>
    obtain heq | hmem := List.mem_cons.mp ((EventStore.insert_perm _ _).mem_iff.mp he)
    · exact .inr (.inl ⟨eventId, time, group, phase, .inl rfl, heq ▸ rfl, heq ▸ rfl⟩)
    · exact .inl (hold e hmem rfl)
  | rescheduleEvent eventId time group phase =>
    obtain heq | hmem := List.mem_cons.mp ((EventStore.insert_perm _ _).mem_iff.mp he)
    · exact .inr (.inl ⟨eventId, time, group, phase, .inr rfl, heq ▸ rfl, heq ▸ rfl⟩)
    · exact .inl (hold e (List.mem_filter.mp hmem).1 rfl)
  | repeatEvent time =>
    obtain heq | hmem := List.mem_cons.mp ((EventStore.insert_perm _ _).mem_iff.mp he)
    · exact .inr (.inr ⟨time, rfl, heq ▸ rfl, heq ▸ rfl⟩)
    · exact .inl (hold e hmem rfl)
  | executeEvent =>
    left
    have hsuffix := (nextEvent_suffix m.time m.phase m.eventMap).1
    have hstore : m.executeEvent.2.eventMap = (nextEvent m.time m.phase m.eventMap).2 := by
      unfold executeEvent
      split <;> simp [*]
    rw [apply, hstore] at he
    exact hold e (hsuffix.subset he) rfl
  | delayEvent eventId delay => exact .inl (mem_delayStore he)
  | delayTimer => exact .inl (hold e he rfl)
  | delayEvents delay group =>
    left
    simp only [apply, delayEvents] at he
    split at he
    · exact hold e he rfl
    · exact mem_delayStore he
  | cancelEvent => exact .inl (hold e (List.mem_filter.mp he).1 rfl)
  | cancelEventGroup group =>
    left
    simp only [apply, cancelEventGroup] at he
    split at he
    · exact hold e he rfl
    · exact hold e (List.mem_filter.mp he).1 rfl

theorem last_apply (op : Op) :
    ((m.apply op).lastEvent = m.lastEvent ∧ (m.apply op).lastOrigin = m.lastOrigin) ∨
    ∃ e ∈ m.eventMap, (m.apply op).lastEvent = e.data ∧ (m.apply op).lastOrigin = e.origin := by
  cases op with
  | executeEvent =>
    have hmem := (nextEvent_suffix m.time m.phase m.eventMap).2
    simp only [apply, executeEvent]
    split
    next e store hnext =>
      rw [hnext] at hmem
      exact .inr ⟨e, hmem e rfl, rfl, rfl⟩
    · exact .inl ⟨rfl, rfl⟩
  | setPhase phase =>
    left
    simp only [apply, setPhase]
    split
    · exact ⟨rfl, rfl⟩
    · split <;> exact ⟨rfl, rfl⟩
  | addPhase phase => simp only [apply, addPhase]; split <;> exact .inl ⟨rfl, rfl⟩
  | removePhase phase => simp only [apply, removePhase]; split <;> exact .inl ⟨rfl, rfl⟩
  | delayEvents delay group => simp only [apply, delayEvents]; split <;> exact .inl ⟨rfl, rfl⟩
  | cancelEventGroup group => simp only [apply, cancelEventGroup]; split <;> exact .inl ⟨rfl, rfl⟩
  | _ => exact .inl ⟨rfl, rfl⟩

theorem BareIds.apply (h : BareIds m) (op : Op) : BareIds (m.apply op) where
  entry e he := by
    obtain ⟨x, hx, hdata, horigin⟩ | ⟨eventId, time, group, phase, _, hdata, horigin⟩ |
      ⟨time, _, hdata, horigin⟩ := mem_apply he
    · rw [hdata, horigin]
      exact h.entry x hx
    · rw [hdata, horigin, packed_eq]
    · rw [hdata, horigin]
      exact h.last
  last := by
    obtain ⟨hlast, horigin⟩ | ⟨e, he, hlast, horigin⟩ := m.last_apply op
    · rw [hlast, horigin]
      exact h.last
    · rw [hlast, horigin]
      exact h.entry e he

theorem BareIds.run (h : BareIds m) (ops : List Op) : BareIds (m.run ops) := by
  induction ops generalizing m with
  | nil => exact h
  | cons op ops ih => exact ih (h.apply op)

/-- The word of an event in a map that was filled by calls has no bit above the id. -/
theorem BareIds.high_eq_zero (h : BareIds m) {e : Entry} (he : e ∈ m.eventMap) {mask : BitVec 64}
    (hmask : ∀ i < 32, mask.getLsbD i = false) : e.data &&& mask = 0 := by
  rw [h.entry e he, setWidth_and_high _ hmask]

theorem BareIds.eventId (h : BareIds m) {e : Entry} (he : e ∈ m.eventMap) :
    e.eventId = e.origin.eventId := by
  rw [Entry.eventId, h.entry e he, setWidth_and_eventIdMask]

end EventMap

end Ashamane.Events
