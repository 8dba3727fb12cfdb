import Ashamane.Events.EventMap

/-! Groups of events: what cancelling or delaying a group does to the schedule. -/
namespace Ashamane.Events

def IsGroup (group : BitVec 16) : Prop := group ≠ 0 ∧ group ≤ 16

instance (group : BitVec 16) : Decidable (IsGroup group) := inferInstanceAs (Decidable (_ ∧ _))

def Op.SchedulesGroup : Op → Prop
  | .scheduleEvent _ _ group _ | .rescheduleEvent _ _ group _ => IsGroup group
  | _ => False

namespace EventMap

structure GroupsHonoured (m : EventMap) : Prop where
  cancelled : ∀ group, IsGroup group →
    (m.cancelEventGroup group).eventMap = m.eventMap.filter fun e => e.origin.group ≠ group
  delayed : ∀ group delay, IsGroup group →
    (m.delayEvents delay group).eventMap.Perm (m.eventMap.map fun e =>
      if e.origin.group = group then { e with time := e.time + delay } else e)
  executed : ∀ e, m.executed = some e → m.executeEvent.1 = e.origin.eventId

def Ungrouped (m : EventMap) : Prop := ∀ e ∈ m.eventMap, ¬ IsGroup e.origin.group

variable {m : EventMap}

theorem groupBit_low {group : BitVec 16} (h : IsGroup group) : ∀ i < 32,
    (groupBit group).getLsbD i = false := by
  intro i hi
  have hpos : 0 < group.toNat := by
    have hne := h.1
    bv_omega
  have hbelow : i < group.toNat + 31 := by omega
  rw [groupBit, BitVec.getLsbD_shiftLeft]
  simp [hbelow]

theorem BareIds.cancelEventGroup_eq (h : BareIds m) {group : BitVec 16} (hgroup : IsGroup group) :
    (m.cancelEventGroup group).eventMap = m.eventMap := by
  unfold cancelEventGroup
  split
  · rfl
  · refine List.filter_eq_self.mpr fun e he => ?_
    simp [h.high_eq_zero he (groupBit_low hgroup)]

theorem delayStore_of_none {p : Entry → Bool} {store : EventStore} (hnone : ∀ e ∈ store, p e = false)
    (delay : BitVec 32) : delayStore p delay store = store := by
  have hmoved : store.filter p = [] := List.filter_eq_nil_iff.mpr fun e he => by simp [hnone e he]
  have hstay : (store.filter fun e => ¬ p e) = store :=
    List.filter_eq_self.mpr fun e he => by simp [hnone e he]
  rw [delayStore, hmoved, hstay]
  rfl

theorem BareIds.delayEvents_eq (h : BareIds m) {group : BitVec 16} (hgroup : IsGroup group)
    (delay : BitVec 32) : (m.delayEvents delay group).eventMap = m.eventMap := by
  unfold delayEvents
  split
  · rfl
  · refine delayStore_of_none (fun e he => ?_) delay
    simp [h.high_eq_zero he (groupBit_low hgroup)]

theorem BareIds.executeEvent_id (h : BareIds m) {e : Entry} (he : m.executed = some e) :
    m.executeEvent.1 = e.origin.eventId := by
  have hmem := (nextEvent_suffix m.time m.phase m.eventMap).2 e he
  rw [← h.eventId hmem]
  unfold executeEvent
  unfold executed at he
  generalize nextEvent m.time m.phase m.eventMap = next at he ⊢
  obtain ⟨found, store⟩ := next
  obtain rfl : found = some e := he
  rfl

/-- In a map that was filled by calls, groups are honoured only where there are none. -/
theorem BareIds.groupsHonoured_iff (h : BareIds m) : GroupsHonoured m ↔ Ungrouped m := by
  constructor
  · intro honoured e he hgroup
    have hkept := (honoured.cancelled _ hgroup).symm.trans (h.cancelEventGroup_eq hgroup)
    have hne := List.filter_eq_self.mp hkept e he
    simp at hne
  · intro hnone
    refine ⟨fun group hgroup => ?_, fun group delay hgroup => ?_, fun e he => h.executeEvent_id he⟩
    · rw [h.cancelEventGroup_eq hgroup]
      refine (List.filter_eq_self.mpr fun e he => ?_).symm
      have hne : e.origin.group ≠ group := fun heq => hnone e he (heq ▸ hgroup)
      simp [hne]
    · rw [h.delayEvents_eq hgroup]
      have hsame : (m.eventMap.map fun e =>
          if e.origin.group = group then { e with time := e.time + delay } else e) =
          m.eventMap := by
        refine (List.map_congr_left fun e he => ?_).trans (List.map_id _)
        have hne : e.origin.group ≠ group := fun heq => hnone e he (heq ▸ hgroup)
        exact if_neg hne
      rw [hsame]

structure NoGroups (m : EventMap) : Prop where
  entry : Ungrouped m
  last : ¬ IsGroup m.lastOrigin.group

theorem noGroups_new : NoGroups new :=
  ⟨fun _ he => (List.not_mem_nil he).elim, by decide⟩

theorem NoGroups.apply (h : NoGroups m) {op : Op} (hop : ¬ op.SchedulesGroup) :
    NoGroups (m.apply op) where
  entry e he := by
    obtain ⟨x, hx, _, horigin⟩ | ⟨eventId, time, group, phase, hcall, _, horigin⟩ |
      ⟨time, _, _, horigin⟩ := mem_apply he
    · rw [horigin]
      exact h.entry x hx
    · rw [horigin]
      obtain rfl | rfl := hcall
      · exact hop
      · exact hop
    · rw [horigin]
      exact h.last
  last := by
    obtain ⟨_, horigin⟩ | ⟨e, he, _, horigin⟩ := m.last_apply op
    · rw [horigin]
      exact h.last
    · rw [horigin]
      exact h.entry e he

theorem NoGroups.run (h : NoGroups m) {ops : List Op} (hops : ∀ op ∈ ops, ¬ op.SchedulesGroup) :
    NoGroups (m.run ops) := by
  induction ops generalizing m with
  | nil => exact h
  | cons op ops ih =>
    exact ih (h.apply (hops op (List.mem_cons_self ..))) fun op' hop' =>
      hops op' (List.mem_cons_of_mem _ hop')

/-- An event of a group is in the schedule right after the call that schedules it. -/
theorem not_ungrouped_apply {op : Op} (hop : op.SchedulesGroup) : ¬ Ungrouped (m.apply op) := by
  intro hnone
  cases op with
  | scheduleEvent eventId time group phase =>
    have hmem := (EventStore.insert_perm ⟨m.time + time, packed eventId group phase,
      ⟨m.scheduled, eventId, group, phase⟩⟩ m.eventMap).mem_iff.mpr (List.mem_cons_self ..)
    exact hnone _ hmem hop
  | rescheduleEvent eventId time group phase =>
    have hmem := (EventStore.insert_perm ⟨m.time + time, packed eventId group phase,
      ⟨m.scheduled, eventId, group, phase⟩⟩ (m.cancelEvent eventId).eventMap).mem_iff.mpr (List.mem_cons_self ..)
    exact hnone _ hmem hop
  | _ => exact hop

end EventMap

open EventMap in
/-- Groups are honoured in every state of a run if and only if the run schedules no event of
a group. -/
theorem groups_run_iff (ops : List Op) :
    (∀ calls, calls <+: ops → GroupsHonoured (new.run calls)) ↔
      ∀ op ∈ ops, ¬ op.SchedulesGroup := by
  constructor
  · intro hall op hop hgroup
    obtain ⟨before, after, rfl⟩ := List.append_of_mem hop
    have hprefix : before ++ [op] <+: before ++ op :: after :=
      ⟨after, by rw [List.append_assoc, List.singleton_append]⟩
    have hbare := bareIds_new.run (before ++ [op])
    have hnone := hbare.groupsHonoured_iff.mp (hall _ hprefix)
    rw [run, List.foldl_append] at hnone
    exact not_ungrouped_apply hgroup hnone
  · intro hops calls hcalls
    have hfree := noGroups_new.run fun op hop => hops op (hcalls.subset hop)
    exact (bareIds_new.run calls).groupsHonoured_iff.mpr hfree.entry

/-- One event of group 1 is scheduled; cancelling the group leaves it. -/
theorem groups_fail_scheduled :
    ¬ ∀ ops : List Op, (EventMap.new.run ops).GroupsHonoured := by
  intro hall
  have hkept := (hall [.scheduleEvent 7 100 1 0]).cancelled 1 (by decide)
  exact absurd hkept (by decide)

end Ashamane.Events
