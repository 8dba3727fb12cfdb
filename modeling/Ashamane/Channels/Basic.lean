import Ashamane.Lib.Assoc

/-! Custom chat channels: members with their flags, the owner, the password and the banned. -/
namespace Ashamane.Channels
open Ashamane.Lib

abbrev ObjectGuid := Nat

structure World where
  name : ObjectGuid → String
  team : ObjectGuid → Nat
  gmVisible : ObjectGuid → Bool
  /-- `RBAC_PERM_CHANGE_CHANNEL_NOT_MODERATOR` -/
  changeChannelNotModerator : ObjectGuid → Bool
  /-- `RBAC_PERM_TWO_SIDE_INTERACTION_CHANNEL` -/
  twoSideInteraction : ObjectGuid → Bool
  /-- `FindConnectedPlayerByName`, of a name that `normalizePlayerName` has been through. -/
  findConnectedPlayerByName : String → Option ObjectGuid
  find_name : ∀ n guid, findConnectedPlayerByName n = some guid → name guid = n

structure PlayerInfo where
  isOwner : Bool
  isModerator : Bool
  isMuted : Bool
  isInvisible : Bool
deriving DecidableEq

def PlayerInfo.joined (isInvisible : Bool) : PlayerInfo where
  isOwner := false
  isModerator := false
  isMuted := false
  isInvisible := isInvisible

structure Channel where
  ownershipEnabled : Bool
  isOwnerInvisible : Bool
  ownerGuid : Option ObjectGuid
  channelPassword : String
  playersStore : AList fun _ : ObjectGuid => PlayerInfo
  bannedStore : List ObjectGuid

namespace Channel

def new (channelPassword : String) (bannedStore : List ObjectGuid) : Channel where
  ownershipEnabled := true
  isOwnerInvisible := false
  ownerGuid := none
  channelPassword := channelPassword
  playersStore := ∅
  bannedStore := bannedStore

def isOn (c : Channel) (guid : ObjectGuid) : Bool := guid ∈ c.playersStore

def isBanned (c : Channel) (guid : ObjectGuid) : Bool := guid ∈ c.bannedStore

/-- `SetFlag` and `RemoveFlag` on the entry of a member. -/
def modifyPlayer (c : Channel) (guid : ObjectGuid) (f : PlayerInfo → PlayerInfo) : Channel :=
  { c with playersStore := Assoc.modify guid f c.playersStore }

def removePlayer (c : Channel) (guid : ObjectGuid) : Channel :=
  { c with playersStore := c.playersStore.erase guid }

def setOwner (c : Channel) (guid : ObjectGuid) : Channel :=
  let c := match c.ownerGuid with
    | some owner => c.modifyPlayer owner fun info => { info with isOwner := false }
    | none => c
  { c with ownerGuid := some guid }.modifyPlayer guid fun info =>
    { info with isModerator := true, isOwner := true }

def joinChannel (w : World) (c : Channel) (guid : ObjectGuid) (pass : String) : Channel :=
  if c.isOn guid then c
  else if c.isBanned guid then c
  else if c.channelPassword ≠ "" ∧ pass ≠ c.channelPassword then c
  else
    let newChannel := c.playersStore.entries.isEmpty
    let isInvisible := !w.gmVisible guid
    let joined := { c with playersStore := c.playersStore.insert guid (.joined isInvisible) }
    -- the owner is new, or was a GM with .gm visible off
    if joined.ownershipEnabled && (newChannel || !isInvisible) &&
        (joined.ownerGuid.isNone || joined.isOwnerInvisible) then
      ({ joined with isOwnerInvisible := isInvisible }.setOwner guid).modifyPlayer guid
        fun info => { info with isModerator := true }
    else joined

def nextOwner (c : Channel) : Option ObjectGuid :=
  let visible := c.playersStore.keys.filter fun guid =>
    (c.playersStore.lookup guid).all fun info => !info.isInvisible
  visible.min?.or c.playersStore.keys.min?

def leaveChannel (c : Channel) (guid : ObjectGuid) : Channel :=
  match c.playersStore.lookup guid with
  | none => c
  | some info =>
    let left := c.removePlayer guid
    if info.isOwner && left.ownershipEnabled then
      match left.nextOwner with
      | none => left
      | some newowner =>
        let named := (left.modifyPlayer newowner fun info =>
          { info with isModerator := true }).setOwner newowner
        if (named.playersStore.lookup newowner).any (·.isInvisible) then
          { named with isOwnerInvisible := true }
        else named
    else left

def mayModerate (w : World) (c : Channel) (guid : ObjectGuid) : Bool :=
  (c.playersStore.lookup guid).any fun info =>
    info.isModerator || w.changeChannelNotModerator guid

/-- After a kick of oneself `info` is gone; what is written there changes no member. -/
def kickOrBan (w : World) (c : Channel) (good : ObjectGuid) (badname : String) (ban : Bool) :
    Channel :=
  if !c.mayModerate w good then c
  else
    match w.findConnectedPlayerByName badname with
    | none => c
    | some victim =>
      if !c.isOn victim then c
      else
        let changeowner := c.ownerGuid == some victim
        if !w.changeChannelNotModerator good ∧ changeowner ∧ c.ownerGuid ≠ some good then c
        else
          let banned := if ban && !c.isBanned victim then victim :: c.bannedStore
            else c.bannedStore
          let c := { c with bannedStore := banned }.removePlayer victim
          if changeowner ∧ c.ownershipEnabled ∧ !c.playersStore.entries.isEmpty then
            (c.modifyPlayer good fun info => { info with isModerator := true }).setOwner good
          else c

def unBan (w : World) (c : Channel) (good : ObjectGuid) (badname : String) : Channel :=
  if !c.mayModerate w good then c
  else
    match w.findConnectedPlayerByName badname with
    | none => c
    | some victim => { c with bannedStore := c.bannedStore.filter (· ≠ victim) }

def password (w : World) (c : Channel) (guid : ObjectGuid) (pass : String) : Channel :=
  if !c.mayModerate w guid then c else { c with channelPassword := pass }

def teamsApart (w : World) (guid victim : ObjectGuid) : Bool :=
  w.team guid != w.team victim && !(w.twoSideInteraction guid && w.twoSideInteraction victim)

def setMode (w : World) (c : Channel) (guid : ObjectGuid) (p2n : String) (mod set : Bool) :
    Channel :=
  if !c.mayModerate w guid then c
  else if c.ownerGuid = some guid ∧ p2n = w.name guid ∧ mod then c
  else
    match w.findConnectedPlayerByName p2n with
    | none => c
    | some victim =>
      if !c.isOn victim || teamsApart w guid victim then c
      else if c.ownerGuid = some victim ∧ c.ownerGuid ≠ some guid then c
      else if mod then c.modifyPlayer victim fun info => { info with isModerator := set }
      else c.modifyPlayer victim fun info => { info with isMuted := set }

def setInvisible (c : Channel) (guid : ObjectGuid) (on : Bool) : Channel :=
  if c.isOn guid then
    let c := c.modifyPlayer guid fun info => { info with isInvisible := on }
    if c.ownerGuid = some guid then { c with isOwnerInvisible := on } else c
  else c

/-- `SetOwner` by a player, with a name. -/
def setOwnerByName (w : World) (c : Channel) (guid : ObjectGuid) (newname : String) : Channel :=
  if !c.isOn guid then c
  else if !w.changeChannelNotModerator guid ∧ c.ownerGuid ≠ some guid then c
  else
    match w.findConnectedPlayerByName newname with
    | none => c
    | some victim =>
      if !c.isOn victim || teamsApart w guid victim then c
      else (c.modifyPlayer victim fun info => { info with isModerator := true }).setOwner victim

end Channel

inductive Request where
  /-- With the password and the banned of the database, should the channel be made now. -/
  | joinChannel (pass : String) (storedPassword : String) (storedBanned : List ObjectGuid)
  | leaveChannel
  | kick (badname : String)
  | ban (badname : String)
  | unBan (badname : String)
  | password (pass : String)
  | setMode (p2n : String) (mod set : Bool)
  | setInvisible (on : Bool)
  | setOwner (newname : String)

def leftChannel (c : Channel) : Option Channel :=
  if c.playersStore.entries.isEmpty then none else some c

/-- A request of `guid` about the channel, which `ChannelMgr` makes for the first to join it. -/
def handle (w : World) (guid : ObjectGuid) (channel : Option Channel) :
    Request → Option Channel
  | .joinChannel pass storedPassword storedBanned =>
    some ((channel.getD (.new storedPassword storedBanned)).joinChannel w guid pass)
  | .leaveChannel => channel.bind fun c => leftChannel (c.leaveChannel guid)
  | .kick badname => channel.map (·.kickOrBan w guid badname false)
  | .ban badname => channel.map (·.kickOrBan w guid badname true)
  | .unBan badname => channel.map (·.unBan w guid badname)
  | .password pass => channel.map (·.password w guid pass)
  | .setMode p2n mod set => channel.map (·.setMode w guid p2n mod set)
  | .setInvisible on => channel.map (·.setInvisible guid on)
  | .setOwner newname => channel.map (·.setOwnerByName w guid newname)

structure Call where
  world : World
  guid : ObjectGuid
  request : Request

def Call.apply (channel : Option Channel) (call : Call) : Option Channel :=
  handle call.world call.guid channel call.request

def run (calls : List Call) : Option Channel := calls.foldl Call.apply none

end Ashamane.Channels
