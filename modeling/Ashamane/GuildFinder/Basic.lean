import Ashamane.Lib.Column
import Ashamane.Lib.Nested

/-! The guild finder: settings of guilds and requests of players, by guild and by player, with
the two tables that keep them over a restart. -/
namespace Ashamane.GuildFinder
open Ashamane.Lib

abbrev GuildId := Nat
abbrev PlayerGuid := Nat

inductive TeamId
  | alliance
  | horde
  | neutral
  deriving DecidableEq, Repr

/-- The time is a `time_t`. -/
structure MembershipRequest where
  comment : String
  guildId : GuildId
  playerGUID : PlayerGuid
  availability : UInt8
  classRoles : UInt8
  interests : UInt8
  time : Nat
  deriving DecidableEq, Repr

structure LFGuildSettings where
  comment : String
  guid : GuildId
  roles : UInt8
  availability : UInt8
  interests : UInt8
  level : UInt8
  listed : Bool
  team : TeamId
  deriving DecidableEq, Repr

/-- A row of `guild_finder_applicant`, whose key is the guild with the player. -/
structure ApplicantRow where
  availability : UInt8
  classRole : UInt8
  interests : UInt8
  comment : String
  submitTime : Nat
  deriving DecidableEq, Repr

/-- A row of `guild_finder_guild_settings`, whose key is the guild. -/
structure SettingsRow where
  availability : UInt8
  classRoles : UInt8
  interests : UInt8
  level : UInt8
  listed : UInt8
  comment : String
  deriving DecidableEq, Repr

structure CharacterDatabase where
  applicants : AList fun _ : GuildId × PlayerGuid => ApplicantRow
  settings : AList fun _ : GuildId => SettingsRow

structure GuildFinderMgr where
  guildSettings : AList fun _ : GuildId => LFGuildSettings
  membershipRequestsByGuild : Nested GuildId PlayerGuid MembershipRequest
  membershipRequestsByPlayer : Nested PlayerGuid GuildId MembershipRequest

structure State where
  mgr : GuildFinderMgr
  db : CharacterDatabase

def State.empty : State := ⟨⟨∅, ∅, ∅⟩, ⟨∅, ∅⟩⟩

def MembershipRequest.row (request : MembershipRequest) : ApplicantRow where
  availability := request.availability
  classRole := request.classRoles
  interests := request.interests
  comment := request.comment
  submitTime := request.time % 2 ^ 32

def LFGuildSettings.row (settings : LFGuildSettings) : SettingsRow where
  availability := settings.availability
  classRoles := settings.roles
  interests := settings.interests
  level := settings.level
  listed := if settings.listed then 1 else 0
  comment := settings.comment

/-- The column `comment` of both tables. -/
abbrev CommentColumn := TextColumn 255

variable (column : CommentColumn)

def addMembershipRequest (guildGuid : GuildId) (request : MembershipRequest) (s : State) :
    State where
  mgr := { s.mgr with
    membershipRequestsByGuild :=
      s.mgr.membershipRequestsByGuild.insert guildGuid request.playerGUID request
    membershipRequestsByPlayer :=
      s.mgr.membershipRequestsByPlayer.insert request.playerGUID guildGuid request }
  db := { s.db with
    applicants := (column.write request.comment).elim s.db.applicants fun comment =>
      s.db.applicants.insert (request.guildId, request.playerGUID) { request.row with comment } }

def removeAllMembershipRequestsFromPlayer (playerId : PlayerGuid) (s : State) : State :=
  match s.mgr.membershipRequestsByPlayer.lookup playerId with
  | none => s
  | some requests =>
    { mgr := { s.mgr with
        membershipRequestsByGuild := requests.keys.foldl
          (fun byGuild guildId => byGuild.erase guildId playerId) s.mgr.membershipRequestsByGuild
        membershipRequestsByPlayer := AList.erase playerId s.mgr.membershipRequestsByPlayer }
      db := { s.db with
        applicants := requests.keys.foldl
          (fun rows guildId => rows.erase (guildId, playerId)) s.db.applicants } }

def removeMembershipRequest (playerId : PlayerGuid) (guildId : GuildId) (s : State) : State where
  mgr := { s.mgr with
    membershipRequestsByGuild := s.mgr.membershipRequestsByGuild.erase guildId playerId
    membershipRequestsByPlayer := s.mgr.membershipRequestsByPlayer.erase playerId guildId }
  db := { s.db with applicants := s.db.applicants.erase (guildId, playerId) }

def setGuildSettings (guildGuid : GuildId) (settings : LFGuildSettings) (s : State) : State where
  mgr := { s.mgr with guildSettings := s.mgr.guildSettings.insert guildGuid settings }
  db := { s.db with
    settings := (column.write settings.comment).elim s.db.settings fun comment =>
      s.db.settings.insert settings.guid { settings.row with comment } }

def deleteGuild (guildId : GuildId) (s : State) : State :=
  let players :=
    ((s.mgr.membershipRequestsByGuild.lookup guildId).map (·.keys)).getD []
  { mgr := {
      guildSettings := s.mgr.guildSettings.erase guildId
      membershipRequestsByGuild := AList.erase guildId s.mgr.membershipRequestsByGuild
      membershipRequestsByPlayer := players.foldl
        (fun byPlayer playerId => byPlayer.erase playerId guildId)
        s.mgr.membershipRequestsByPlayer }
    db := {
      applicants := players.foldl
        (fun rows playerId => rows.erase (guildId, playerId)) s.db.applicants
      settings := s.db.settings.erase guildId } }

structure World where
  memberRaces : GuildId → List UInt8
  chrRaces : UInt8 → Option TeamId

def settingsJoined (w : World) (db : CharacterDatabase) : List (GuildId × SettingsRow × UInt8) :=
  db.settings.entries.flatMap fun e =>
    match w.memberRaces e.1 with
    | [] => [(e.1, e.2, 0)]
    | races => races.map fun race => (e.1, e.2, race)

/-- The rows of `LoadGuildSettings`: one at most, and any of them. -/
def SettingsFetched (w : World) (db : CharacterDatabase)
    (rows : List (GuildId × SettingsRow × UInt8)) : Prop :=
  ∃ joined : List (GuildId × SettingsRow × UInt8),
    joined.Perm (settingsJoined w db) ∧ rows = joined.take 1

def loadedSettings (w : World) (guildId : GuildId) (row : SettingsRow) (race : UInt8) :
    LFGuildSettings where
  comment := row.comment
  guid := guildId
  roles := row.classRoles
  availability := row.availability
  interests := row.interests
  level := row.level
  listed := row.listed != 0
  team := (w.chrRaces race).getD .neutral

def loadGuildSettings (w : World) (rows : List (GuildId × SettingsRow × UInt8))
    (mgr : GuildFinderMgr) : GuildFinderMgr :=
  rows.foldl (fun mgr row => { mgr with
    guildSettings := mgr.guildSettings.insert row.1 (loadedSettings w row.1 row.2.1 row.2.2) }) mgr

def loadedRequest (key : GuildId × PlayerGuid) (row : ApplicantRow) : MembershipRequest where
  comment := row.comment
  guildId := key.1
  playerGUID := key.2
  availability := row.availability
  classRoles := row.classRole
  interests := row.interests
  time := row.submitTime

def loadMembershipRequests (rows : List (Sigma fun _ : GuildId × PlayerGuid => ApplicantRow))
    (mgr : GuildFinderMgr) : GuildFinderMgr :=
  rows.foldl (fun mgr row => { mgr with
    membershipRequestsByGuild :=
      mgr.membershipRequestsByGuild.insert row.1.1 row.1.2 (loadedRequest row.1 row.2)
    membershipRequestsByPlayer :=
      mgr.membershipRequestsByPlayer.insert row.1.2 row.1.1 (loadedRequest row.1 row.2) }) mgr

def loadFromDB (w : World) (settings : List (GuildId × SettingsRow × UInt8))
    (applicants : List (Sigma fun _ : GuildId × PlayerGuid => ApplicantRow)) : GuildFinderMgr :=
  loadMembershipRequests applicants (loadGuildSettings w settings State.empty.mgr)

inductive Op
  | addMembershipRequest (guildGuid : GuildId) (request : MembershipRequest)
  | removeMembershipRequest (playerId : PlayerGuid) (guildId : GuildId)
  | removeAllMembershipRequestsFromPlayer (playerId : PlayerGuid)
  | setGuildSettings (guildGuid : GuildId) (settings : LFGuildSettings)
  | deleteGuild (guildId : GuildId)

def step (s : State) : Op → State
  | .addMembershipRequest guildGuid request => addMembershipRequest column guildGuid request s
  | .removeMembershipRequest playerId guildId => removeMembershipRequest playerId guildId s
  | .removeAllMembershipRequestsFromPlayer playerId =>
    removeAllMembershipRequestsFromPlayer playerId s
  | .setGuildSettings guildGuid settings => setGuildSettings column guildGuid settings s
  | .deleteGuild guildId => deleteGuild guildId s

def Op.Allowed : Op → Prop
  | .addMembershipRequest guildGuid request => request.guildId = guildGuid
  | .setGuildSettings guildGuid settings => settings.guid = guildGuid
  | _ => True

end Ashamane.GuildFinder
