import Ashamane.Calendar.Basic

/-! No two events and no two invites that are alive share an id, as long as no announcement
is added: the invite that is sent with it releases the id 0, which was never handed out. -/
namespace Ashamane.Calendar
open Ashamane.Lib

namespace CalendarMgr

structure Healthy (s : CalendarMgr) : Prop where
  events : s.eventIds.Healthy idLimit s.liveEventIds
  invites : s.inviteIds.Healthy idLimit s.liveInviteIds

structure DistinctIds (s : CalendarMgr) : Prop where
  events : s.eventIds.Distinct s.liveEventIds
  invites : s.inviteIds.Distinct s.liveInviteIds

theorem Healthy.distinctIds {s : CalendarMgr} (h : s.Healthy) : s.DistinctIds :=
  ⟨h.events.toDistinct, h.invites.toDistinct⟩

theorem loadFromDB_healthy (guildOf : Nat → Nat) {events : List CalendarEvent}
    {invites : List CalendarInvite} (hevents : (events.map (·.eventId)).Nodup)
    (hinvites : (invites.map (·.inviteId)).Nodup)
    (heventIds : ∀ event ∈ events, 1 ≤ event.eventId ∧ event.eventId < idLimit)
    (hinviteIds : ∀ invite ∈ invites, 1 ≤ invite.inviteId ∧ invite.inviteId < idLimit) :
    (loadFromDB guildOf events invites).Healthy where
  events := by
    have hlive : (loadFromDB guildOf events invites).liveEventIds = events.map (·.eventId) := by
      simp only [liveEventIds, loadFromDB, List.map_map, Function.comp_def]
    rw [hlive]
    exact IdPool.healthy_ofUsed hevents (List.forall_mem_map.mpr heventIds) (by decide)
  invites := by
    have hlive : (loadFromDB guildOf events invites).liveInviteIds =
        invites.map (·.inviteId) := by
      simp only [liveInviteIds, loadFromDB, List.append_nil]
    rw [hlive]
    exact IdPool.healthy_ofUsed hinvites (List.forall_mem_map.mpr hinviteIds) (by decide)

theorem map_zipWith_inviteId (invites : List CalendarInvite) (ids : List Nat)
    (hlen : ids.length = invites.length) :
    (invites.zipWith (fun invite inviteId => { invite with inviteId }) ids).map
      (·.inviteId) = ids := by
  induction invites generalizing ids with
  | nil => rw [List.length_eq_zero_iff.mp hlen]; rfl
  | cons invite invites ih =>
    obtain ⟨id, ids, rfl⟩ := List.exists_cons_of_length_eq_add_one hlen
    exact congrArg (id :: ·) (ih ids (Nat.succ.inj hlen))

theorem Healthy.addInvites {s : CalendarMgr} (h : s.Healthy) (event : CalendarEvent)
    {invites : List CalendarInvite} (hroom : invites.length ≤ s.inviteIds.room idLimit) :
    (s.addInvites event invites).Healthy := by
  have hmany := h.invites.getMany hroom
  have hlen := @IdPool.length_getMany idLimit s.inviteIds invites.length
  generalize hget : s.inviteIds.getMany idLimit invites.length = got at hmany hlen
  obtain ⟨ids, inviteIds⟩ := got
  have hids := map_zipWith_inviteId invites ids hlen
  generalize hcreated : invites.zipWith (fun invite inviteId => { invite with inviteId }) ids =
    created at hids
  have hlive : (ids ++ s.liveInviteIds).Perm
      ((s.invites ++ created ++ s.lost).map (·.inviteId)) := by
    rw [liveInviteIds, ← hids, ← List.map_append]
    refine List.Perm.map _ ?_
    rw [← List.append_assoc]
    exact List.perm_append_comm.append_right _
  simp only [CalendarMgr.addInvites, hget, hcreated]
  split
  · refine ⟨h.events, hmany.perm (hlive.trans (List.Perm.map _ ?_))⟩
    show (s.invites ++ created ++ s.lost).Perm (s.invites ++ (s.lost ++ created))
    rw [List.append_assoc]
    exact List.perm_append_comm.append_left _
  · exact ⟨h.events, hmany.perm hlive⟩

theorem Healthy.addEvent {s : CalendarMgr} (h : s.Healthy) {event : CalendarEvent}
    (hroom : 0 < s.eventIds.room idLimit)
    (hid : event.eventId = (s.eventIds.get idLimit).1) :
    ({ s with eventIds := (s.eventIds.get idLimit).2 }.addEvent event).Healthy where
  events := by
    have hget := h.events.get hroom
    rw [← hid] at hget
    refine hget.perm ?_
    show (event.eventId :: s.events.map (·.eventId)).Perm ((s.events ++ [event]).map (·.eventId))
    rw [List.map_append]
    exact (List.perm_append_singleton _ _).symm
  invites := h.invites

theorem Healthy.removeInvite {s : CalendarMgr} (h : s.Healthy) (inviteId eventId : Nat) :
    (s.removeInvite inviteId eventId).Healthy := by
  unfold CalendarMgr.removeInvite
  split
  · exact h
  · split
    · exact h
    · rename_i invite hfind
      have hmem : invite ∈ s.invites :=
        List.mem_of_mem_filter (List.mem_of_find?_eq_some hfind)
      refine ⟨h.events, IdPool.Healthy.release (h.invites.perm ?_)⟩
      show ((s.invites ++ s.lost).map (·.inviteId)).Perm
        ((invite :: (s.invites.erase invite ++ s.lost)).map (·.inviteId))
      exact ((List.perm_cons_erase hmem).append_right s.lost).map _

theorem Healthy.removeEvent {s : CalendarMgr} (h : s.Healthy) (eventId : Nat) :
    (s.removeEvent eventId).Healthy := by
  unfold CalendarMgr.removeEvent
  split
  · exact h
  · rename_i event hfind
    have hmem : event ∈ s.events := List.mem_of_find?_eq_some hfind
    refine ⟨IdPool.Healthy.release (h.events.perm ?_), IdPool.Healthy.releaseMany (h.invites.perm ?_)⟩
    · exact (List.perm_cons_erase hmem).map _
    · show ((s.invites ++ s.lost).map (·.inviteId)).Perm
        ((s.getEventInvites eventId).map (·.inviteId) ++
          ((s.invites.filter fun invite => invite.eventId ≠ eventId) ++ s.lost).map (·.inviteId))
      rw [← List.map_append, ← List.append_assoc]
      refine ((List.Perm.append_right s.lost ?_).map _)
      have hsplit := List.filter_append_perm (fun invite => decide (invite.eventId = eventId))
        s.invites
      simp only [← decide_not] at hsplit
      exact hsplit.symm

theorem map_replace_eventId {event event' : CalendarEvent} (hid : event'.eventId = event.eventId)
    (l : List CalendarEvent) :
    (l.replace event event').map (·.eventId) = l.map (·.eventId) := by
  induction l with
  | nil => rfl
  | cons e l ih =>
    rw [List.replace_cons]
    split
    · rename_i heq
      rw [List.map_cons, hid, ← beq_iff_eq.mp heq]
      rfl
    · rw [List.map_cons, ih]
      rfl

theorem liveEventIds_updateEvent (s : CalendarMgr) (eventId : Nat) (info : EventInfo) (now : Int) :
    (s.handleCalendarUpdateEvent eventId info now).liveEventIds = s.liveEventIds := by
  unfold handleCalendarUpdateEvent
  split
  · rfl
  split
  · rfl
  · exact map_replace_eventId (by rfl) s.events

theorem Healthy.updateEvent {s : CalendarMgr} (h : s.Healthy) (eventId : Nat) (info : EventInfo)
    (now : Int) : (s.handleCalendarUpdateEvent eventId info now).Healthy := by
  have hids := liveEventIds_updateEvent s eventId info now
  revert hids
  unfold handleCalendarUpdateEvent
  split
  · exact fun _ => h
  split
  · exact fun _ => h
  · exact fun hids => ⟨hids.symm ▸ h.events, h.invites⟩

def idsNeeded (s : CalendarMgr) : Op → Nat × Nat
  | .addEvent _ info _ _ => (1, info.invites.length)
  | .copyEvent eventId _ _ => (1, (s.getEventInvites eventId).length)
  | .eventInvite .. => (0, 1)
  | .eventSignup .. => (0, 1)
  | _ => (0, 0)

/-- The condition of a request: it adds no announcement, and the ids are not used up. -/
def Fits (s : CalendarMgr) (op : Op) : Prop :=
  (∀ player info now found, op = .addEvent player info now found →
    info.flags &&& CALENDAR_FLAG_WITHOUT_INVITES = 0) ∧
  (s.idsNeeded op).1 ≤ s.eventIds.room idLimit ∧ (s.idsNeeded op).2 ≤ s.inviteIds.room idLimit

theorem newEvent_eventId (player : Requester) (info : EventInfo) (creatorFound : Bool)
    (eventId : Nat) : (newEvent player info creatorFound eventId).eventId = eventId := by
  unfold newEvent
  dsimp only
  split <;> rfl

theorem newEvent_flags (player : Requester) (info : EventInfo) (creatorFound : Bool)
    (eventId : Nat) : (newEvent player info creatorFound eventId).flags = info.flags := by
  unfold newEvent
  dsimp only
  split <;> rfl

theorem addEvent_addInvites (s : CalendarMgr) (event event' : CalendarEvent)
    (invites : List CalendarInvite) :
    (s.addInvites event' invites).addEvent event = (s.addEvent event).addInvites event' invites := by
  unfold CalendarMgr.addInvites
  dsimp only
  split <;> rfl

theorem Healthy.step {s : CalendarMgr} (h : s.Healthy) {op : Op} (hfits : s.Fits op) :
    (s.step op).Healthy := by
  obtain ⟨hflags, hevents, hinvites⟩ := hfits
  cases op with
  | addEvent player info now creatorFound =>
    show (s.handleCalendarAddEvent player info now creatorFound).Healthy
    unfold handleCalendarAddEvent
    split
    · exact h
    · dsimp only
      have hno : ¬(newEvent player info creatorFound
          (s.eventIds.get idLimit).1).isGuildAnnouncement = true := by
        rw [CalendarEvent.isGuildAnnouncement, newEvent_flags, hflags player info now creatorFound rfl]
        decide
      rw [if_neg hno, addEvent_addInvites]
      refine (h.addEvent hevents (newEvent_eventId ..)).addInvites _ ?_
      rw [List.length_map]
      exact hinvites
  | updateEvent eventId info now => exact h.updateEvent eventId info now
  | copyEvent eventId date now =>
    show (s.handleCalendarCopyEvent eventId date now).Healthy
    unfold handleCalendarCopyEvent
    split
    · exact h
    · split
      · exact h
      · dsimp only
        refine Healthy.addInvites (h.addEvent hevents rfl) _ ?_
        rw [List.length_map]
        exact hinvites
  | eventInvite player eventId invitee creating isSignUp allowTwoSide =>
    show (s.handleCalendarEventInvite player eventId invitee creating isSignUp allowTwoSide).Healthy
    unfold handleCalendarEventInvite
    split
    · exact h
    · split
      · exact h
      · split
        · exact h
        · split
          · split
            · exact h
            · split
              · exact h
              · exact h.addInvites _ hinvites
          · split
            · exact h
            · exact ⟨h.events, (h.invites.get hinvites).release⟩
  | eventSignup player eventId tentative now =>
    show (s.handleCalendarEventSignup player eventId tentative now).Healthy
    unfold handleCalendarEventSignup
    split
    · exact h
    · split
      · exact h
      · exact h.addInvites _ hinvites
  | eventRemoveInvite guid inviteId eventId =>
    show (s.handleCalendarEventRemoveInvite guid inviteId eventId).Healthy
    unfold handleCalendarEventRemoveInvite
    split
    · exact h
    · split
      · exact h
      · exact h.removeInvite inviteId eventId
  | removeEvent eventId => exact h.removeEvent eventId

/-- A request that adds an announcement releases the id 0: it is handed out as soon as the
released ids before it are. -/
theorem Healthy.announcement {s : CalendarMgr} (h : s.Healthy) (player : Requester)
    (info : EventInfo) (now : Int) (creatorFound : Bool) (hnow : ¬info.time < now - daySeconds)
    (hflags : info.flags &&& CALENDAR_FLAG_WITHOUT_INVITES ≠ 0) :
    0 ∈ ((s.step (.addEvent player info now creatorFound)).inviteIds.getMany idLimit
      (s.inviteIds.free.length + 1)).1 := by
  have hann : (newEvent player info creatorFound
      (s.eventIds.get idLimit).1).isGuildAnnouncement = true := by
    rw [CalendarEvent.isGuildAnnouncement, newEvent_flags]
    exact decide_eq_true hflags
  have hids : (s.step (.addEvent player info now creatorFound)).inviteIds =
      s.inviteIds.release idLimit 0 := by
    show (s.handleCalendarAddEvent player info now creatorFound).inviteIds = _
    rw [handleCalendarAddEvent, if_neg hnow]
    dsimp only
    rw [if_pos hann]
    rfl
  rw [hids]
  by_cases hmax : 0 = s.inviteIds.max
  · -- no id has been handed out: the highest one falls below 0
    have hfree : s.inviteIds.free = [] := by
      refine List.eq_nil_iff_forall_not_mem.mpr fun id hid => ?_
      have hlow := h.invites.free_pos id hid
      have hhigh := h.invites.free_le_max id hid
      omega
    rw [IdPool.release, if_pos hmax, hfree, ← hmax]
    decide
  · rw [IdPool.release, if_neg hmax]
    exact IdPool.mem_getMany_free (l := s.inviteIds.free) rfl

/-- In a run of which each request fits, from any calendar that can be loaded, the ids of
what is alive are distinct, in range and not free, and the next ones to be handed out are
not in use. An announcement ends this. -/
theorem ids_distinct (guildOf : Nat → Nat) {events : List CalendarEvent}
    {invites : List CalendarInvite} (hevents : (events.map (·.eventId)).Nodup)
    (hinvites : (invites.map (·.inviteId)).Nodup)
    (heventIds : ∀ event ∈ events, 1 ≤ event.eventId ∧ event.eventId < idLimit)
    (hinviteIds : ∀ invite ∈ invites, 1 ≤ invite.inviteId ∧ invite.inviteId < idLimit)
    {ops : List Op} {s : CalendarMgr}
    (hrun : Run (fun s op t => s.step op = t) Fits (loadFromDB guildOf events invites) ops s) :
    s.DistinctIds ∧
      (0 < s.eventIds.room idLimit → (s.eventIds.get idLimit).1 ∉ s.liveEventIds) ∧
      (0 < s.inviteIds.room idLimit → (s.inviteIds.get idLimit).1 ∉ s.liveInviteIds) ∧
      ∀ player info now creatorFound, ¬info.time < now - daySeconds →
        info.flags &&& CALENDAR_FLAG_WITHOUT_INVITES ≠ 0 →
        0 ∈ ((s.step (.addEvent player info now creatorFound)).inviteIds.getMany idLimit
          (s.inviteIds.free.length + 1)).1 := by
  have hloaded := loadFromDB_healthy guildOf hevents hinvites heventIds hinviteIds
  have hhealthy : s.Healthy := hrun.invariant Healthy hloaded fun s op t h hfits ht => by
    rw [← ht]
    exact h.step hfits
  refine ⟨hhealthy.distinctIds, fun hroom => ?_, fun hroom => ?_, hhealthy.announcement⟩
  · exact (List.nodup_cons.mp (hhealthy.events.get hroom).nodup).1
  · exact (List.nodup_cons.mp (hhealthy.invites.get hroom).nodup).1

def raid : EventInfo := ⟨0, 0, 0, 0, "Raid", "", [(7, 0, 0)]⟩

/-- A calendar with one event gets a second one; a player signs up to the first, which is copied
and removed. -/
theorem ids_distinct_signup : ∃ s : CalendarMgr, s.DistinctIds ∧ s.liveEventIds = [2, 3] ∧
    s.liveInviteIds = [1, 3] := by
  have hrun : ∃ s, Run (fun s op t => step s op = t) Fits
      (loadFromDB (fun _ => 0) [⟨1, 7, 0, 0, 0, 0, 0, "Raid", "", 0⟩] [])
      [.addEvent ⟨8, 0, 0⟩ raid 0 true, .eventSignup ⟨8, 0, 0⟩ 1 false 0, .copyEvent 1 0 0,
        .removeEvent 1] s ∧ s.liveEventIds = [2, 3] ∧ s.liveInviteIds = [1, 3] := by
    refine ⟨_, .cons ⟨?_, by decide, by decide⟩ rfl (.cons ⟨?_, by decide, by decide⟩ rfl
      (.cons ⟨?_, by decide, by decide⟩ rfl (.cons ⟨?_, by decide, by decide⟩ rfl (.nil _)))),
      by decide, by decide⟩
    · rintro _ _ _ _ ⟨⟩
      rfl
    all_goals exact fun _ _ _ _ h => by cases h
  obtain ⟨s, hrun, hlive⟩ := hrun
  exact ⟨s, (ids_distinct (fun _ => 0) (by decide) (by decide) (by decide) (by decide) hrun).1, hlive⟩

/-- One invite is alive when two announcements are added: they release the id 0 twice, and
the next two invites get it. -/
theorem ids_distinct_fails :
    ∃ s, Run (fun s op t => step s op = t) always (loadFromDB (fun _ => 0) [] [])
        [.addEvent ⟨8, 0, 0⟩ raid 0 true,
          .addEvent ⟨8, 0, 0⟩ ⟨0, 0, 0, 0x40, "", "", []⟩ 0 true,
          .addEvent ⟨8, 0, 0⟩ ⟨0, 0, 0, 0x40, "", "", []⟩ 0 true,
          .addEvent ⟨8, 0, 0⟩ raid 0 true, .addEvent ⟨8, 0, 0⟩ raid 0 true] s ∧
      s.liveInviteIds = [1, 0, 0] ∧ ¬s.DistinctIds := by
  refine ⟨_, .cons trivial rfl (.cons trivial rfl (.cons trivial rfl (.cons trivial rfl
    (.cons trivial rfl (.nil _))))), by decide, fun h => ?_⟩
  have hnodup := h.invites.nodup
  revert hnodup
  decide

section Attached

variable {s : CalendarMgr}

def Attached (s : CalendarMgr) : Prop :=
  ∀ invite ∈ s.invites, invite.eventId ∈ s.liveEventIds

theorem mem_of_getEvent {eventId : Nat} {event : CalendarEvent}
    (h : s.getEvent eventId = some event) : event ∈ s.events ∧ event.eventId = eventId :=
  ⟨List.mem_of_find?_eq_some h, by simpa using List.find?_some h⟩

theorem Attached.addInvites (h : s.Attached) {event : CalendarEvent}
    {invites : List CalendarInvite}
    (hinvites : ∀ invite ∈ invites, invite.eventId ∈ s.liveEventIds) :
    (s.addInvites event invites).Attached := by
  unfold CalendarMgr.addInvites
  dsimp only
  split
  · exact h
  · intro invite hinvite
    rcases List.mem_append.mp hinvite with hold | hnew
    · exact h invite hold
    · rw [← List.map_uncurry_zip_eq_zipWith, List.mem_map] at hnew
      obtain ⟨⟨old, id⟩, hold, rfl⟩ := hnew
      exact hinvites old (List.of_mem_zip hold).1

theorem mem_addEvent {eventId : Nat} {event : CalendarEvent} :
    eventId ∈ (s.addEvent event).liveEventIds ↔ eventId ∈ s.liveEventIds ∨ eventId = event.eventId := by
  unfold liveEventIds CalendarMgr.addEvent
  rw [List.map_append, List.mem_append, List.map_cons, List.map_nil, List.mem_singleton]

theorem Attached.addEvent (h : s.Attached) (event : CalendarEvent) :
    (s.addEvent event).Attached :=
  fun invite hinvite => mem_addEvent.mpr (.inl (h invite hinvite))

theorem Attached.step (h : s.Attached) (op : Op) : (s.step op).Attached := by
  have hids : ({ s with eventIds := (s.eventIds.get idLimit).2 } : CalendarMgr).Attached := h
  cases op with
  | addEvent player info now creatorFound =>
    change (s.handleCalendarAddEvent player info now creatorFound).Attached
    unfold handleCalendarAddEvent
    split
    · exact h
    dsimp only
    split
    · exact Attached.addEvent h _
    · rw [addEvent_addInvites]
      refine (hids.addEvent _).addInvites fun invite hinvite => mem_addEvent.mpr (.inr ?_)
      obtain ⟨_, _, rfl⟩ := List.mem_map.mp hinvite
      exact (newEvent_eventId ..).symm
  | updateEvent eventId info now =>
    change (s.handleCalendarUpdateEvent eventId info now).Attached
    have hlive := liveEventIds_updateEvent s eventId info now
    revert hlive
    unfold handleCalendarUpdateEvent
    split
    · exact fun _ => h
    split
    · exact fun _ => h
    · exact fun hlive invite hinvite => hlive.symm ▸ h invite hinvite
  | copyEvent eventId date now =>
    change (s.handleCalendarCopyEvent eventId date now).Attached
    unfold handleCalendarCopyEvent
    split
    · exact h
    split
    · exact h
    · dsimp only
      refine (hids.addEvent _).addInvites fun invite hinvite => mem_addEvent.mpr (.inr ?_)
      obtain ⟨_, _, rfl⟩ := List.mem_map.mp hinvite
      rfl
  | eventInvite player eventId invitee creating isSignUp allowTwoSide =>
    change (s.handleCalendarEventInvite player eventId invitee creating isSignUp
      allowTwoSide).Attached
    unfold handleCalendarEventInvite
    repeat' split
    all_goals first | exact h | skip
    next hevent _ =>
      obtain ⟨hmem, hid⟩ := mem_of_getEvent hevent
      refine h.addInvites fun invite hinvite => ?_
      rw [List.mem_singleton.mp hinvite]
      exact List.mem_map.mpr ⟨_, hmem, hid⟩
  | eventSignup player eventId tentative now =>
    change (s.handleCalendarEventSignup player eventId tentative now).Attached
    unfold handleCalendarEventSignup
    split
    · exact h
    split
    · exact h
    next hevent _ =>
      obtain ⟨hmem, hid⟩ := mem_of_getEvent hevent
      refine h.addInvites fun invite hinvite => ?_
      rw [List.mem_singleton.mp hinvite]
      exact List.mem_map.mpr ⟨_, hmem, hid⟩
  | eventRemoveInvite guid inviteId eventId =>
    change (s.handleCalendarEventRemoveInvite guid inviteId eventId).Attached
    unfold handleCalendarEventRemoveInvite CalendarMgr.removeInvite
    repeat' split
    all_goals first | exact h | exact fun invite hinvite => h invite (List.mem_of_mem_erase hinvite)
  | removeEvent eventId =>
    change (s.removeEvent eventId).Attached
    unfold CalendarMgr.removeEvent
    split
    · exact h
    next event hevent =>
      intro invite hinvite
      obtain ⟨hinvite, hother⟩ := List.mem_filter.mp hinvite
      obtain ⟨e, he, heq⟩ := List.mem_map.mp (h invite hinvite)
      refine List.mem_map.mpr ⟨e, (List.mem_erase_of_ne fun hsame => ?_).mpr he, heq⟩
      rw [← heq, hsame, (mem_of_getEvent hevent).2] at hother
      simp at hother

end Attached

/-- In every run, also of requests that do not fit, an invite that is listed is one of an event. -/
theorem invites_attached (guildOf : Nat → Nat) {events : List CalendarEvent}
    {invites : List CalendarInvite} (hrows : (loadFromDB guildOf events invites).Attached)
    {ops : List Op} {s : CalendarMgr}
    (hrun : Run (fun s op t => s.step op = t) always (loadFromDB guildOf events invites) ops s) :
    s.Attached ∧ ∀ eventId, s.getEvent eventId = none → s.getEventInvites eventId = [] := by
  have h : s.Attached := hrun.invariant Attached hrows fun _ op _ h _ ht => ht ▸ h.step op
  refine ⟨h, fun eventId hnone => List.filter_eq_nil_iff.mpr fun invite hinvite hid => ?_⟩
  obtain ⟨e, he, heq⟩ := List.mem_map.mp (h invite hinvite)
  have hother := List.find?_eq_none.mp hnone e he
  simp only [decide_eq_true_eq] at hid hother
  exact hother (heq.trans hid)

/-- A second event becomes an announcement, and the first one is removed. -/
theorem invites_attached_removed : ∃ s : CalendarMgr, s.Attached ∧ s.invites.map (·.eventId) = [2] := by
  have hrun : Run (fun s op t => step s op = t) always (loadFromDB (fun _ => 0)
      [⟨1, 7, 0, 0, 0, 0, 0, "Raid", "", 0⟩] [⟨1, 1, 8, 7, 0, 0, 0, ""⟩])
      [.addEvent ⟨8, 0, 0⟩ raid 0 true, .updateEvent 2 { raid with flags := 0x40 } 0,
        .removeEvent 1] _ :=
    .cons trivial rfl (.cons trivial rfl (.cons trivial rfl (.nil _)))
  exact ⟨_, (invites_attached (fun _ => 0) (by unfold Attached; decide) hrun).1, by decide⟩

end CalendarMgr

end Ashamane.Calendar
