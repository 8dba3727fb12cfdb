import Ashamane.Lib.IdPool
import Ashamane.Lib.Run
import Mathlib.Algebra.Ring.Int.Defs
import Mathlib.Algebra.Ring.Nat

/-! The calendar: events and invites that are alive, and the ids handed out to them. -/
namespace Ashamane.Calendar
open Ashamane.Lib

def idLimit : Nat := 2 ^ 64

def CALENDAR_FLAG_WITHOUT_INVITES : Nat := 0x040
def CALENDAR_FLAG_GUILD_EVENT : Nat := 0x400

def CALENDAR_DEFAULT_RESPONSE_TIME : Nat := 946684800

def CALENDAR_STATUS_INVITED : Nat := 0
def CALENDAR_STATUS_SIGNED_UP : Nat := 6
def CALENDAR_STATUS_TENTATIVE : Nat := 8

def CALENDAR_RANK_PLAYER : Nat := 0

def daySeconds : Int := 86400

structure CalendarInvite where
  inviteId : Nat
  eventId : Nat
  invitee : Nat
  senderGUID : Nat
  responseTime : Nat
  status : Nat
  rank : Nat
  note : String
  deriving DecidableEq, Repr

structure CalendarEvent where
  eventId : Nat
  ownerGUID : Nat
  eventGuildId : Nat
  eventType : Nat
  textureId : Int
  date : Int
  flags : Nat
  title : String
  description : String
  lockDate : Int
  deriving DecidableEq, Repr

namespace CalendarEvent

def isGuildEvent (event : CalendarEvent) : Bool := event.flags &&& CALENDAR_FLAG_GUILD_EVENT ≠ 0

def isGuildAnnouncement (event : CalendarEvent) : Bool :=
  event.flags &&& CALENDAR_FLAG_WITHOUT_INVITES ≠ 0

end CalendarEvent

/-- The invites of all events are one list: those of an event are the ones that name it, in
the order they were added. `lost` are the invites created for announcements, which nothing
refers to and nothing deletes. -/
structure CalendarMgr where
  events : List CalendarEvent
  invites : List CalendarInvite
  lost : List CalendarInvite
  eventIds : IdPool
  inviteIds : IdPool
  deriving DecidableEq, Repr

namespace CalendarMgr

/-- The rows of `calendar_events` and `calendar_invites`; the guild of an owner is looked up
in the table of guild members. -/
def loadFromDB (guildOf : Nat → Nat) (events : List CalendarEvent)
    (invites : List CalendarInvite) : CalendarMgr where
  events := events.map fun event =>
    { event with
      eventGuildId :=
        if event.isGuildEvent || event.isGuildAnnouncement then guildOf event.ownerGUID else 0 }
  invites
  lost := []
  eventIds := .ofUsed (events.map (·.eventId))
  inviteIds := .ofUsed (invites.map (·.inviteId))

def getEvent (s : CalendarMgr) (eventId : Nat) : Option CalendarEvent :=
  s.events.find? fun event => event.eventId = eventId

def getEventInvites (s : CalendarMgr) (eventId : Nat) : List CalendarInvite :=
  s.invites.filter fun invite => invite.eventId = eventId

def addEvent (s : CalendarMgr) (event : CalendarEvent) : CalendarMgr :=
  { s with events := s.events ++ [event] }

def addInvites (s : CalendarMgr) (event : CalendarEvent) (invites : List CalendarInvite) :
    CalendarMgr :=
  let (ids, inviteIds) := s.inviteIds.getMany idLimit invites.length
  let created := invites.zipWith (fun invite inviteId => { invite with inviteId }) ids
  if event.isGuildAnnouncement then { s with lost := s.lost ++ created, inviteIds }
  else { s with invites := s.invites ++ created, inviteIds }

def removeEvent (s : CalendarMgr) (eventId : Nat) : CalendarMgr :=
  match s.getEvent eventId with
  | none => s
  | some event =>
    { s with
      inviteIds := s.inviteIds.releaseMany idLimit ((s.getEventInvites eventId).map (·.inviteId))
      invites := s.invites.filter fun invite => invite.eventId ≠ eventId
      eventIds := s.eventIds.release idLimit event.eventId
      events := s.events.erase event }

def removeInvite (s : CalendarMgr) (inviteId eventId : Nat) : CalendarMgr :=
  match s.getEvent eventId with
  | none => s
  | some _ =>
    match (s.getEventInvites eventId).find? fun invite => invite.inviteId = inviteId with
    | none => s
    | some invite =>
      { s with
        inviteIds := s.inviteIds.release idLimit invite.inviteId
        invites := s.invites.erase invite }

end CalendarMgr

structure EventInfo where
  eventType : Nat
  textureId : Int
  time : Int
  flags : Nat
  title : String
  description : String
  invites : List (Nat × Nat × Nat)
  deriving DecidableEq, Repr

structure Requester where
  guid : Nat
  guildId : Nat
  team : Nat
  deriving DecidableEq, Repr

structure Invitee where
  guid : Nat
  team : Nat
  guildId : Nat
  ignores : Bool
  deriving DecidableEq, Repr

inductive Op
  | addEvent (player : Requester) (info : EventInfo) (now : Int) (creatorFound : Bool)
  | updateEvent (eventId : Nat) (info : EventInfo) (now : Int)
  | copyEvent (eventId : Nat) (date : Int) (now : Int)
  | eventInvite (player : Requester) (eventId : Nat) (invitee : Option Invitee)
      (creating isSignUp allowTwoSide : Bool)
  | eventSignup (player : Requester) (eventId : Nat) (tentative : Bool) (now : Nat)
  | eventRemoveInvite (guid inviteId eventId : Nat)
  | removeEvent (eventId : Nat)
  deriving DecidableEq, Repr

namespace CalendarMgr

def newEvent (player : Requester) (info : EventInfo) (creatorFound : Bool) (eventId : Nat) :
    CalendarEvent :=
  let event : CalendarEvent :=
    { eventId, ownerGUID := player.guid, eventGuildId := 0, eventType := info.eventType
      textureId := info.textureId, date := info.time, flags := info.flags, title := info.title
      description := info.description, lockDate := 0 }
  if (event.isGuildEvent || event.isGuildAnnouncement) && creatorFound then
    { event with eventGuildId := player.guildId }
  else event

/-- The announcement itself needs an invite to send: one with the id 0, gone at the end of
its block. -/
def handleCalendarAddEvent (s : CalendarMgr) (player : Requester) (info : EventInfo) (now : Int)
    (creatorFound : Bool) : CalendarMgr :=
  if info.time < now - daySeconds then s
  else
    let (eventId, eventIds) := s.eventIds.get idLimit
    let s := { s with eventIds }
    let event := newEvent player info creatorFound eventId
    let s :=
      if event.isGuildAnnouncement then
        { s with inviteIds := s.inviteIds.release idLimit 0 }
      else s.addInvites event (info.invites.map fun (guid, status, moderator) =>
        { inviteId := 0, eventId, invitee := guid, senderGUID := player.guid
          responseTime := CALENDAR_DEFAULT_RESPONSE_TIME, status, rank := moderator, note := "" })
    s.addEvent event

/-- The flags are those that the client sends: an event with invites may become an announcement. -/
def handleCalendarUpdateEvent (s : CalendarMgr) (eventId : Nat) (info : EventInfo) (now : Int) :
    CalendarMgr :=
  if info.time < now - daySeconds then s
  else
    match s.getEvent eventId with
    | none => s
    | some event =>
      { s with
        events := s.events.replace event
          { event with
            eventType := info.eventType, flags := info.flags, date := info.time
            textureId := info.textureId, title := info.title, description := info.description } }

def handleCalendarCopyEvent (s : CalendarMgr) (eventId : Nat) (date now : Int) : CalendarMgr :=
  if date < now - daySeconds then s
  else
    match s.getEvent eventId with
    | none => s
    | some oldEvent =>
      let (newId, eventIds) := s.eventIds.get idLimit
      let event := { oldEvent with eventId := newId, date }
      let s := { s with eventIds }.addEvent event
      s.addInvites event ((s.getEventInvites eventId).map fun invite =>
        { invite with eventId := newId })

/-- While an event is being created its invites are only sent: the invite is gone at once. -/
def handleCalendarEventInvite (s : CalendarMgr) (player : Requester) (eventId : Nat)
    (invitee : Option Invitee) (creating isSignUp allowTwoSide : Bool) : CalendarMgr :=
  match invitee with
  | none => s
  | some invitee =>
    if player.team ≠ invitee.team && !allowTwoSide then s
    else if invitee.ignores then s
    else if !creating then
      match s.getEvent eventId with
      | none => s
      | some event =>
        if event.isGuildEvent && event.eventGuildId = invitee.guildId then s
        else s.addInvites event [
          { inviteId := 0, eventId, invitee := invitee.guid, senderGUID := player.guid
            responseTime := CALENDAR_DEFAULT_RESPONSE_TIME, status := CALENDAR_STATUS_INVITED
            rank := CALENDAR_RANK_PLAYER, note := "" }]
    else if isSignUp && invitee.guildId = player.guildId then s
    else
      let (inviteId, inviteIds) := s.inviteIds.get idLimit
      { s with inviteIds := inviteIds.release idLimit inviteId }

def handleCalendarEventSignup (s : CalendarMgr) (player : Requester) (eventId : Nat)
    (tentative : Bool) (now : Nat) : CalendarMgr :=
  match s.getEvent eventId with
  | none => s
  | some event =>
    if event.isGuildEvent && event.eventGuildId ≠ player.guildId then s
    else s.addInvites event [
      { inviteId := 0, eventId, invitee := player.guid, senderGUID := player.guid
        responseTime := now
        status := if tentative then CALENDAR_STATUS_TENTATIVE else CALENDAR_STATUS_SIGNED_UP
        rank := CALENDAR_RANK_PLAYER, note := "" }]

def handleCalendarEventRemoveInvite (s : CalendarMgr) (guid inviteId eventId : Nat) :
    CalendarMgr :=
  match s.getEvent eventId with
  | none => s
  | some event => if event.ownerGUID = guid then s else s.removeInvite inviteId eventId

def step (s : CalendarMgr) : Op → CalendarMgr
  | .addEvent player info now creatorFound =>
    s.handleCalendarAddEvent player info now creatorFound
  | .updateEvent eventId info now => s.handleCalendarUpdateEvent eventId info now
  | .copyEvent eventId date now => s.handleCalendarCopyEvent eventId date now
  | .eventInvite player eventId invitee creating isSignUp allowTwoSide =>
    s.handleCalendarEventInvite player eventId invitee creating isSignUp allowTwoSide
  | .eventSignup player eventId tentative now =>
    s.handleCalendarEventSignup player eventId tentative now
  | .eventRemoveInvite guid inviteId eventId =>
    s.handleCalendarEventRemoveInvite guid inviteId eventId
  | .removeEvent eventId => s.removeEvent eventId

def liveEventIds (s : CalendarMgr) : List Nat := s.events.map (·.eventId)

def liveInviteIds (s : CalendarMgr) : List Nat := (s.invites ++ s.lost).map (·.inviteId)

end CalendarMgr

end Ashamane.Calendar
