import Ashamane.Guilds.Basic
import Ashamane.Lib.Run
import Mathlib.Data.List.Perm.Basic

/-! The requests that touch ranks, members and the leader of a guild, and the
machine whose steps they are. -/
namespace Ashamane.Guilds

open Ashamane.Lib

/-- One turn of the loop of `DeleteMember` over the members: the first member of
the best rank so far is kept, and `guid` itself is passed over. -/
def pickStep (guid : ObjectGuid) (newLeader : Option (Σ _ : ObjectGuid, Member))
    (i : Σ _ : ObjectGuid, Member) : Option (Σ _ : ObjectGuid, Member) :=
  if i.1 = guid then newLeader
  else
    match newLeader with
    | none => some i
    | some l => if i.2.rankId < l.2.rankId then some i else some l

def pickLeader (guid : ObjectGuid) (l : List (Σ _ : ObjectGuid, Member)) :
    Option (Σ _ : ObjectGuid, Member) :=
  l.foldl (pickStep guid) none

theorem foldl_pickStep_mem {guid : ObjectGuid} {l : List (Σ _ : ObjectGuid, Member)}
    {acc : Option (Σ _ : ObjectGuid, Member)} {e : Σ _ : ObjectGuid, Member}
    (h : l.foldl (pickStep guid) acc = some e) : acc = some e ∨ (e ∈ l ∧ e.1 ≠ guid) := by
  induction l generalizing acc with
  | nil => exact .inl h
  | cons i l ih =>
    rw [List.foldl_cons] at h
    rcases ih h with hacc | ⟨hmem, hne⟩
    · unfold pickStep at hacc
      split at hacc
      · exact .inl hacc
      next hi =>
        split at hacc
        · cases hacc
          exact .inr ⟨List.mem_cons_self, hi⟩
        · split at hacc
          · cases hacc
            exact .inr ⟨List.mem_cons_self, hi⟩
          · exact .inl hacc
    · exact .inr ⟨List.mem_cons_of_mem _ hmem, hne⟩

theorem pickLeader_mem {guid : ObjectGuid} {l : List (Σ _ : ObjectGuid, Member)}
    {e : Σ _ : ObjectGuid, Member} (h : pickLeader guid l = some e) : e ∈ l ∧ e.1 ≠ guid := by
  rcases foldl_pickStep_mem h with hnone | hmem
  · cases hnone
  · exact hmem

namespace Guild

def eraseMember (g : Guild) (guid : ObjectGuid) : Guild :=
  { g with members := g.members.erase guid }

/-- `DeleteMember` outside of a disband, the only way the requests call it. -/
def deleteMember (g : Guild) (guid : ObjectGuid) : Except Gone Guild :=
  if g.leaderGuid = guid then
    match pickLeader guid g.members.entries with
    | none => .error .disbanded
    | some newLeader => .ok ((g.setLeader newLeader.1).eraseMember guid)
  else .ok (g.eraseMember guid)

def changeMemberRank (g : Guild) (guid : ObjectGuid) (newRank : Nat) : Guild :=
  if newRank ≤ g.lowestRankId then
    match g.getMember guid with
    | some _ => g.changeRank guid newRank
    | none => g
  else g

/-- `candidate` is the name of the character, or `none` for one that is in a guild
already, does not exist or has broken stats. -/
def addMember (g : Guild) (guid : ObjectGuid) (rankId : Nat) (candidate : Option String) :
    Guild :=
  match candidate with
  | none => g
  | some name =>
    let rankId := if rankId = guildRankNone then g.lowestRankId else rankId
    { g with members := g.members.insert guid (Member.new name rankId) }

def handleAddNewRank (g : Guild) (player : ObjectGuid) (name : String) : Guild :=
  if guildRanksMaxCount ≤ g.ranksSize then g
  else if g.isLeader player then
    (g.createRank name (grRightGchatlisten ||| grRightGchatspeak)).getD g
  else g

def handleRemoveRank (g : Guild) (player : ObjectGuid) (rankId : Nat) : Guild :=
  if g.ranksSize ≤ guildRanksMinCount ∨ g.ranksSize ≤ rankId ∨ ¬ g.isLeader player then g
  else { g with ranks := g.ranks.eraseIdx rankId }

def handleSetRankInfo (g : Guild) (player : ObjectGuid) (rankId : Nat) (name : String)
    (rights : BitVec 32) (moneyPerDay : Nat) : Guild :=
  if ¬ g.isLeader player then g
  else
    match g.getRankInfo rankId with
    | some rankInfo =>
      let rankInfo := ((rankInfo.setName name).setRights rights).setBankMoneyPerDay
        (moneyPerDay * gold % 2 ^ 32)
      { g with ranks := g.ranks.set rankId rankInfo }
    | none => g

def handleLeaveMember (g : Guild) (player : ObjectGuid) : Except Gone Guild :=
  if g.isLeader player then
    -- only the last member may leave as leader, and takes the guild with him
    if 1 < g.members.entries.length then .ok g else .error .disbanded
  else
    match g.getMember player with
    | none => .error .nullPointer
    | some _ => g.deleteMember player

def handleRemoveMember (g : Guild) (player guid : ObjectGuid) : Except Gone Guild :=
  if ¬ g.hasRankRight player grRightRemove then .ok g
  else
    match g.getMember guid with
    | none => .ok g
    | some member =>
      if member.isRank grGuildmaster then .ok g
      else
        match g.getMember player with
        | none => .ok g
        | some memberMe =>
          if member.isRankNotLower memberMe.rankId then .ok g else g.deleteMember guid

def handleUpdateMemberRank (g : Guild) (player guid : ObjectGuid) (demote : Bool) :
    Except Gone Guild :=
  if ¬ g.hasRankRight player (if demote then grRightDemote else grRightPromote) then .ok g
  else
    match g.getMember guid with
    | none => .ok g
    | some member =>
      if guid = player then .ok g
      else
        match g.getMember player with
        | none => .error .assertFailed
        | some memberMe =>
          let rankId := memberMe.rankId
          if demote then
            if member.isRankNotLower rankId then .ok g
            else if g.lowestRankId ≤ member.rankId then .ok g
            else .ok (g.changeRank guid (member.rankId + 1))
          else
            if member.isRankNotLower (rankId + 1) then .ok g
            else .ok (g.changeRank guid (member.rankId + (2 ^ 32 - 1)))

/-- Whom `HandleSetNewGuildMaster` is about to promote, if it gets that far.
`inactiveDays` is the time the present leader has been offline. -/
def newGuildMaster (g : Guild) (player : ObjectGuid) (name : String) (isSelfPromote : Bool)
    (inactiveDays : Nat) : Option ObjectGuid :=
  if isSelfPromote then
    match g.getMember player with
    | none => none
    | some m =>
      if ¬ m.isRankNotLower grMember ∨ inactiveDays < guildMasterDethroneInactiveDays then none
      else some player
  else if ¬ g.isLeader player then none
  else g.getMemberByName name

def handleSetNewGuildMaster (g : Guild) (player : ObjectGuid) (name : String)
    (isSelfPromote : Bool) (inactiveDays : Nat) : Except Gone Guild :=
  match g.getMember g.leaderGuid with
  | none => .error .assertFailed
  | some _ =>
    match g.newGuildMaster player name isSelfPromote inactiveDays with
    | none => .ok g
    | some new => .ok ((g.setLeader new).changeRank g.leaderGuid grInitiate)

def brokenRanks (g : Guild) : Bool :=
  if g.ranksSize < guildRanksMinCount ∨ guildRanksMaxCount < g.ranksSize then true
  else
    (List.range g.ranksSize).any fun rankId =>
      (g.getRankInfo rankId).any fun rankInfo => rankInfo.rankId != rankId

def repairRanks (w : World) (g : Guild) : Guild :=
  if g.brokenRanks then { g with ranks := [] }.createDefaultGuildRanks w else g

def repairMembers (g : Guild) : Guild :=
  let repair (_ : ObjectGuid) (m : Member) : Member :=
    if g.ranksSize < m.rankId then m.changeRank g.lowestRankId else m
  { g with members := Assoc.mapVal repair g.members }

def repairLeader (g : Guild) : Except Gone Guild :=
  match g.getMember g.leaderGuid with
  | none =>
    match g.deleteMember g.leaderGuid with
    | .error e => .error e
    | .ok g => if g.members.entries.isEmpty then .error .disbanded else .ok g
  | some leader => if leader.isRank grGuildmaster then .ok g else .ok (g.setLeader g.leaderGuid)

def repairMasters (w : World) (g : Guild) : Guild :=
  if w.allowMultipleGuildMaster then g
  else
    let repair (guid : ObjectGuid) (m : Member) : Member :=
      if m.rankId = grGuildmaster ∧ guid ≠ g.leaderGuid then m.changeRank grOfficer else m
    { g with members := Assoc.mapVal repair g.members }

def validate (w : World) (g : Guild) : Except Gone Guild :=
  match ((g.repairRanks w).repairMembers).repairLeader with
  | .error e => .error e
  | .ok g => .ok (g.repairMasters w)

def create (w : World) (leader : ObjectGuid) (candidate : Option String) : Option Guild :=
  match candidate with
  | none => none
  | some _ =>
    some (((⟨leader, [], ∅⟩ : Guild).createDefaultGuildRanks w).addMember leader grGuildmaster
      candidate)

variable {g g' : Guild}

@[simp] theorem eraseMember_ranks (guid : ObjectGuid) :
    (g.eraseMember guid).ranks = g.ranks := rfl

@[simp] theorem eraseMember_leaderGuid (guid : ObjectGuid) :
    (g.eraseMember guid).leaderGuid = g.leaderGuid := rfl

theorem getMember_eraseMember (guid other : ObjectGuid) :
    (g.eraseMember guid).getMember other = if other = guid then none else g.getMember other := by
  unfold eraseMember getMember
  by_cases h : other = guid
  · subst h
    rw [if_pos rfl]
    exact AList.lookup_erase other g.members
  · rw [if_neg h]
    exact AList.lookup_erase_ne h

/-- Without its leader a member is deleted alone; the leader first hands over. -/
theorem deleteMember_cases {guid : ObjectGuid} (h : g.deleteMember guid = .ok g') :
    (g.leaderGuid ≠ guid ∧ g' = g.eraseMember guid) ∨
    (g.leaderGuid = guid ∧ ∃ new m, new ≠ guid ∧ g.getMember new = some m ∧
      g' = (g.setLeader new).eraseMember guid) := by
  unfold deleteMember at h
  split at h
  next hl =>
    split at h
    next => cases h
    next new hnew =>
      obtain ⟨hmem, hne⟩ := pickLeader_mem hnew
      cases h
      exact .inr ⟨hl, new.1, new.2, hne, Assoc.mem_entries_iff.mp hmem, rfl⟩
  next hl =>
    cases h
    exact .inl ⟨hl, rfl⟩

theorem handleLeaveMember_cases {player : ObjectGuid} (h : g.handleLeaveMember player = .ok g') :
    (g.isLeader player ∧ g' = g) ∨
    (¬ g.isLeader player ∧ g.deleteMember player = .ok g') := by
  unfold handleLeaveMember at h
  split at h
  next hl =>
    split at h
    · cases h
      exact .inl ⟨hl, rfl⟩
    · cases h
  next hl =>
    split at h
    · cases h
    · exact .inr ⟨hl, h⟩

theorem handleRemoveMember_cases {player guid : ObjectGuid}
    (h : g.handleRemoveMember player guid = .ok g') :
    g' = g ∨ ∃ member memberMe, g.getMember guid = some member ∧
      g.getMember player = some memberMe ∧ member.rankId ≠ grGuildmaster ∧
      g.deleteMember guid = .ok g' := by
  unfold handleRemoveMember at h
  split at h
  · cases h
    exact .inl rfl
  · split at h
    · cases h
      exact .inl rfl
    next member hmember =>
      split at h
      · cases h
        exact .inl rfl
      next hrank =>
        split at h
        · cases h
          exact .inl rfl
        next memberMe hme =>
          split at h
          · cases h
            exact .inl rfl
          · refine .inr ⟨member, memberMe, hmember, hme, ?_, h⟩
            simpa [Member.isRank] using hrank

/-- A rank is only changed below the requester's own, one step up or down. -/
theorem handleUpdateMemberRank_cases {player guid : ObjectGuid} {demote : Bool}
    (h : g.handleUpdateMemberRank player guid demote = .ok g') :
    g' = g ∨ ∃ member memberMe, g.getMember guid = some member ∧
      g.getMember player = some memberMe ∧
      g.hasRankRight player (if demote then grRightDemote else grRightPromote) ∧
      ((memberMe.rankId % 2 ^ 8 < member.rankId ∧ member.rankId < g.lowestRankId ∧
          g' = g.changeRank guid (member.rankId + 1)) ∨
        ((memberMe.rankId + 1) % 2 ^ 8 < member.rankId ∧
          g' = g.changeRank guid (member.rankId + (2 ^ 32 - 1)))) := by
  unfold handleUpdateMemberRank at h
  by_cases hr : g.hasRankRight player (if demote then grRightDemote else grRightPromote) = true
  · rw [if_neg (not_not.mpr hr)] at h
    split at h
    · cases h
      exact .inl rfl
    next member hmember =>
      split at h
      · cases h
        exact .inl rfl
      · split at h
        · cases h
        next memberMe hme =>
          dsimp only at h
          split at h
          · split at h
            · cases h
              exact .inl rfl
            next hlow =>
              split at h
              · cases h
                exact .inl rfl
              next hlast =>
                cases h
                refine .inr ⟨member, memberMe, hmember, hme, hr, .inl ⟨?_, by omega, rfl⟩⟩
                simpa [Member.isRankNotLower] using hlow
          · split at h
            · cases h
              exact .inl rfl
            next hlow =>
              cases h
              refine .inr ⟨member, memberMe, hmember, hme, hr, .inr ⟨?_, rfl⟩⟩
              simpa [Member.isRankNotLower] using hlow
  · rw [if_pos hr] at h
    cases h
    exact .inl rfl

theorem newGuildMaster_member {player new : ObjectGuid} {name : String} {isSelfPromote : Bool}
    {inactiveDays : Nat} (h : g.newGuildMaster player name isSelfPromote inactiveDays = some new) :
    ∃ m, g.getMember new = some m := by
  unfold newGuildMaster at h
  split at h
  · split at h
    · cases h
    next m hm =>
      split at h
      · cases h
      · cases h
        exact ⟨m, hm⟩
  · split at h
    · cases h
    · unfold getMemberByName at h
      obtain ⟨e, he, rfl⟩ := Option.map_eq_some_iff.mp h
      exact ⟨e.2, Assoc.mem_entries_iff.mp (List.mem_of_find?_eq_some he)⟩

theorem handleSetNewGuildMaster_cases {player : ObjectGuid} {name : String}
    {isSelfPromote : Bool} {inactiveDays : Nat}
    (h : g.handleSetNewGuildMaster player name isSelfPromote inactiveDays = .ok g') :
    g' = g ∨ ∃ new m, g.newGuildMaster player name isSelfPromote inactiveDays = some new ∧
      g.getMember new = some m ∧
      g' = (g.setLeader new).changeRank g.leaderGuid grInitiate := by
  unfold handleSetNewGuildMaster at h
  split at h
  · cases h
  · split at h
    · cases h
      exact .inl rfl
    next new hnew =>
      cases h
      obtain ⟨m, hm⟩ := newGuildMaster_member hnew
      exact .inr ⟨new, m, hnew, hm, rfl⟩

/-- The leader is kept, given his rank, or replaced by another member. -/
theorem repairLeader_cases (h : g.repairLeader = .ok g') :
    (∃ leader, g.getMember g.leaderGuid = some leader ∧
      ((leader.rankId = grGuildmaster ∧ g' = g) ∨ g' = g.setLeader g.leaderGuid)) ∨
    (g.getMember g.leaderGuid = none ∧ ∃ new m, new ≠ g.leaderGuid ∧ g.getMember new = some m ∧
      g' = (g.setLeader new).eraseMember g.leaderGuid) := by
  unfold repairLeader at h
  split at h
  next hnone =>
    split at h
    · cases h
    next d hd =>
      split at h
      · cases h
      · cases h
        rcases deleteMember_cases hd with ⟨hne, _⟩ | ⟨_, hnew⟩
        · exact absurd rfl hne
        · exact .inr ⟨hnone, hnew⟩
  next leader hleader =>
    split at h
    next hrank =>
      cases h
      exact .inl ⟨leader, hleader, .inl ⟨by simpa [Member.isRank] using hrank, rfl⟩⟩
    · cases h
      exact .inl ⟨leader, hleader, .inr rfl⟩

theorem validate_cases {w : World} (h : g.validate w = .ok g') :
    ∃ g₁, ((g.repairRanks w).repairMembers).repairLeader = .ok g₁ ∧ g' = g₁.repairMasters w := by
  unfold validate at h
  split at h
  · cases h
  next g₁ hg₁ =>
    cases h
    exact ⟨g₁, hg₁, rfl⟩

end Guild

/-- What the tables hold of a guild. The rank rows come ordered by their id, which
is a byte and unique in the table. -/
structure SavedGuild where
  leaderGuid : ObjectGuid
  ranks : List RankInfo
  members : Members
  ranks_sorted : (ranks.map RankInfo.rankId).Pairwise (· < ·)
  ranks_byte : ∀ r ∈ ranks, r.rankId < 2 ^ 8

def SavedGuild.load (d : SavedGuild) : Guild :=
  ⟨d.leaderGuid, d.ranks.map RankInfo.loadFromDB, d.members⟩

/-- The operations on a guild. `walk` is not one of the guild's own: the hash map of
the members may be walked in another order from one operation to the next. -/
inductive Op where
  | addNewRank (player : ObjectGuid) (name : String)
  | removeRank (player : ObjectGuid) (rankId : Nat)
  | setRankInfo (player : ObjectGuid) (rankId : Nat) (name : String) (rights : BitVec 32)
      (moneyPerDay : Nat)
  | updateMemberRank (player guid : ObjectGuid) (demote : Bool)
  | changeMemberRank (guid : ObjectGuid) (newRank : Nat)
  | addMember (guid : ObjectGuid) (rankId : Nat) (candidate : Option String)
  | deleteMember (guid : ObjectGuid)
  | leaveMember (player : ObjectGuid)
  | removeMember (player guid : ObjectGuid)
  | setNewGuildMaster (player : ObjectGuid) (name : String) (isSelfPromote : Bool)
      (inactiveDays : Nat)
  | validate
  | reload (saved : SavedGuild)
  | walk (members : Members)

def step (w : World) (g : Guild) : Op → Except Gone Guild
  | .addNewRank player name => .ok (g.handleAddNewRank player name)
  | .removeRank player rankId => .ok (g.handleRemoveRank player rankId)
  | .setRankInfo player rankId name rights moneyPerDay =>
    .ok (g.handleSetRankInfo player rankId name rights moneyPerDay)
  | .updateMemberRank player guid demote => g.handleUpdateMemberRank player guid demote
  | .changeMemberRank guid newRank => .ok (g.changeMemberRank guid newRank)
  | .addMember guid rankId candidate => .ok (g.addMember guid rankId candidate)
  | .deleteMember guid => g.deleteMember guid
  | .leaveMember player => g.handleLeaveMember player
  | .removeMember player guid => g.handleRemoveMember player guid
  | .setNewGuildMaster player name isSelfPromote inactiveDays =>
    g.handleSetNewGuildMaster player name isSelfPromote inactiveDays
  | .validate => g.validate w
  | .reload saved => saved.load.validate w
  | .walk members => .ok (if members.entries.Perm g.members.entries then { g with members } else g)

def plainWorld : World := ⟨fun _ => "", false⟩

def Step (w : World) (g : Guild) (op : Op) (g' : Guild) : Prop := step w g op = .ok g'

end Ashamane.Guilds
