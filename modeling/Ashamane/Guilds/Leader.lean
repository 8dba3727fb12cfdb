import Ashamane.Guilds.RankTable

/-! The leader over runs: the guid and the rank agree after every operation on
members and leadership, except when the leader hands the guild to himself. -/
namespace Ashamane.Guilds

open Ashamane.Lib

/-- `_leaderGuid` is the guid of a member with the master's rank. -/
def LeaderValid (g : Guild) : Prop :=
  ∃ m, g.getMember g.leaderGuid = some m ∧ m.rankId = grGuildmaster

def NoNewMaster (g g' : Guild) : Prop :=
  ∀ guid m', guid ≠ g'.leaderGuid → g'.getMember guid = some m' → m'.rankId = grGuildmaster →
    guid ≠ g.leaderGuid ∧ ∃ m, g.getMember guid = some m ∧ m.rankId = grGuildmaster

theorem NoNewMaster.refl (g : Guild) : NoNewMaster g g :=
  fun _ m' hne hm' hr => ⟨hne, m', hm', hr⟩

theorem NoNewMaster.trans {g₁ g₂ g₃ : Guild} (h₁ : NoNewMaster g₁ g₂) (h₂ : NoNewMaster g₂ g₃) :
    NoNewMaster g₁ g₃ := by
  intro guid m' hne hm' hr
  obtain ⟨hne₂, m, hm, hrank⟩ := h₂ guid m' hne hm' hr
  exact h₁ guid m hne₂ hm hrank

def Op.OnMembers : Op → Prop
  | .setNewGuildMaster .. | .deleteMember .. | .leaveMember .. | .removeMember .. => True
  | .updateMemberRank .. | .validate | .walk .. => True
  | _ => False

def KeepsLeader (g : Guild) (op : Op) : Prop :=
  op.OnMembers ∧
    match op with
    | .setNewGuildMaster player name isSelfPromote inactiveDays =>
      g.newGuildMaster player name isSelfPromote inactiveDays ≠ some g.leaderGuid
    | _ => True

variable {g g' : Guild}

theorem setLeader_leaderValid {new : ObjectGuid} {m : Member} (hm : g.getMember new = some m) :
    LeaderValid (g.setLeader new) := by
  refine ⟨m.changeRank grGuildmaster, ?_, rfl⟩
  rw [Guild.setLeader_leaderGuid, Guild.getMember_setLeader, if_pos rfl, hm]
  rfl

theorem changeRank_leaderValid {guid : ObjectGuid} {r : Nat} (h : LeaderValid g)
    (hne : guid ≠ g.leaderGuid) : LeaderValid (g.changeRank guid r) := by
  obtain ⟨m, hm, hr⟩ := h
  refine ⟨m, ?_, hr⟩
  rw [Guild.changeRank_leaderGuid, Guild.getMember_changeRank, if_neg hne.symm]
  exact hm

theorem eraseMember_leaderValid {guid : ObjectGuid} (h : LeaderValid g)
    (hne : guid ≠ g.leaderGuid) : LeaderValid (g.eraseMember guid) := by
  obtain ⟨m, hm, hr⟩ := h
  refine ⟨m, ?_, hr⟩
  rw [Guild.eraseMember_leaderGuid, Guild.getMember_eraseMember, if_neg hne.symm]
  exact hm

theorem changeRank_noNewMaster {guid : ObjectGuid} {r : Nat} (hr : r % 2 ^ 8 ≠ grGuildmaster) :
    NoNewMaster g (g.changeRank guid r) := by
  intro other m' hne hm' hrank
  rw [Guild.getMember_changeRank] at hm'
  split at hm'
  · obtain ⟨m, _, rfl⟩ := Option.map_eq_some_iff.mp hm'
    exact absurd hrank hr
  · exact ⟨hne, m', hm', hrank⟩

theorem eraseMember_noNewMaster (guid : ObjectGuid) : NoNewMaster g (g.eraseMember guid) := by
  intro other m' hne hm' hrank
  rw [Guild.getMember_eraseMember] at hm'
  split at hm'
  · cases hm'
  · exact ⟨hne, m', hm', hrank⟩

/-- Handing over and taking the old leader out of the way, whether by a lower rank or
by deleting him, makes no second master. -/
theorem handOver_noNewMaster (new : ObjectGuid) (hleader : g'.leaderGuid = new)
    (hold : ∀ m', g'.getMember g.leaderGuid = some m' → m'.rankId = grGuildmaster →
      g.leaderGuid = new)
    (hrest : ∀ guid, guid ≠ new → guid ≠ g.leaderGuid → g'.getMember guid = g.getMember guid) :
    NoNewMaster g g' := by
  intro guid m' hne hm' hrank
  rw [hleader] at hne
  have hguid : guid ≠ g.leaderGuid := by
    rintro rfl
    exact hne (hold m' hm' hrank)
  exact ⟨hguid, m', by rw [← hrest guid hne hguid]; exact hm', hrank⟩

theorem deleteMember_leader (guid : ObjectGuid) (hlead : g.leaderGuid = guid ∨ LeaderValid g)
    (hd : g.deleteMember guid = .ok g') : LeaderValid g' ∧ NoNewMaster g g' := by
  rcases Guild.deleteMember_cases hd with ⟨hne, rfl⟩ | ⟨heq, new, m, hnew, hm, rfl⟩
  · rcases hlead with hg | hvalid
    · exact absurd hg hne
    · exact ⟨eraseMember_leaderValid hvalid hne.symm, eraseMember_noNewMaster guid⟩
  · subst heq
    refine ⟨eraseMember_leaderValid (setLeader_leaderValid hm) hnew.symm, ?_⟩
    refine handOver_noNewMaster new rfl ?_ ?_
    · intro m' hm'
      rw [Guild.getMember_eraseMember, if_pos rfl] at hm'
      cases hm'
    · intro other hne hold
      rw [Guild.getMember_eraseMember, if_neg hold, Guild.getMember_setLeader, if_neg hne]

theorem handleSetNewGuildMaster_leader {player : ObjectGuid} {name : String}
    {isSelfPromote : Bool} {inactiveDays : Nat} (h : LeaderValid g)
    (hother : g.newGuildMaster player name isSelfPromote inactiveDays ≠ some g.leaderGuid)
    (hs : g.handleSetNewGuildMaster player name isSelfPromote inactiveDays = .ok g') :
    LeaderValid g' ∧ NoNewMaster g g' := by
  rcases Guild.handleSetNewGuildMaster_cases hs with rfl | ⟨new, m, hnew, hm, rfl⟩
  · exact ⟨h, .refl _⟩
  · have hne : g.leaderGuid ≠ new := by
      rintro heq
      exact hother (by rw [hnew, heq])
    refine ⟨changeRank_leaderValid (setLeader_leaderValid hm) hne, ?_⟩
    refine handOver_noNewMaster new rfl ?_ ?_
    · intro m' hm' hrank
      rw [Guild.getMember_changeRank, if_pos rfl] at hm'
      obtain ⟨_, _, rfl⟩ := Option.map_eq_some_iff.mp hm'
      exact absurd hrank (by simp [grInitiate, grGuildmaster])
    · intro other hno hold
      rw [Guild.getMember_changeRank, if_neg hold, Guild.getMember_setLeader, if_neg hno]

/-- When the new master is the leader himself, he is left with the initiate's rank. -/
theorem handleSetNewGuildMaster_self {player : ObjectGuid} {name : String}
    {isSelfPromote : Bool} {inactiveDays : Nat}
    (hself : g.newGuildMaster player name isSelfPromote inactiveDays = some g.leaderGuid)
    (hs : g.handleSetNewGuildMaster player name isSelfPromote inactiveDays = .ok g') :
    ¬ LeaderValid g' := by
  have hg' : g' = (g.setLeader g.leaderGuid).changeRank g.leaderGuid grInitiate := by
    unfold Guild.handleSetNewGuildMaster at hs
    split at hs
    · cases hs
    · rw [hself] at hs
      cases hs
      rfl
  rintro ⟨m, hm, hrank⟩
  rw [hg', Guild.changeRank_leaderGuid, Guild.setLeader_leaderGuid, Guild.getMember_changeRank,
    if_pos rfl] at hm
  obtain ⟨_, _, rfl⟩ := Option.map_eq_some_iff.mp hm
  exact absurd hrank (by simp [grInitiate, grGuildmaster])

/-- Who may promote has a rank of the table, so the rank above his own does not wrap. -/
theorem rankId_of_hasRankRight {player : ObjectGuid} {m : Member} {right : BitVec 32}
    (hm : g.getMember player = some m) (hr : g.hasRankRight player right) :
    m.rankId < g.ranksSize := by
  unfold Guild.hasRankRight at hr
  rw [hm] at hr
  by_contra hge
  have hnone : g.getRankInfo m.rankId = none := by
    unfold Guild.getRankInfo
    rw [if_neg hge]
  simp [Guild.rankRights, hnone, grRightNone] at hr

theorem handleUpdateMemberRank_leader {player guid : ObjectGuid} {demote : Bool}
    (h : LeaderValid g) (hu : g.handleUpdateMemberRank player guid demote = .ok g') :
    LeaderValid g' ∧ NoNewMaster g g' := by
  rcases Guild.handleUpdateMemberRank_cases hu with
    rfl | ⟨member, memberMe, hmember, hme, hright, hcase⟩
  · exact ⟨h, .refl _⟩
  · have hguid : member.rankId ≠ grGuildmaster → guid ≠ g.leaderGuid := by
      rintro hr rfl
      obtain ⟨m, hm, hrank⟩ := h
      exact hr (by rw [← hrank, Option.some.inj (hmember.symm.trans hm)])
    have hlt := member.rankId_lt
    rcases hcase with ⟨hlow, hlast, rfl⟩ | ⟨hlow, rfl⟩
    · have hmax : g.lowestRankId < 2 ^ 8 := Nat.mod_lt _ (by decide)
      refine ⟨changeRank_leaderValid h (hguid ?_), changeRank_noNewMaster ?_⟩
      · unfold grGuildmaster
        omega
      · unfold grGuildmaster
        omega
    · have hrank := rankId_of_hasRankRight hme hright
      have hsize : g.ranksSize < 2 ^ 8 := Nat.mod_lt _ (by decide)
      refine ⟨changeRank_leaderValid h (hguid ?_), changeRank_noNewMaster ?_⟩
      · unfold grGuildmaster
        omega
      · unfold grGuildmaster
        omega

theorem repairMembers_getMember (hsize : g.ranksSize ≠ 1) {guid : ObjectGuid} {m' : Member}
    (hm' : g.repairMembers.getMember guid = some m') (hrank : m'.rankId = grGuildmaster) :
    g.getMember guid = some m' := by
  simp only [Guild.repairMembers, Guild.getMember, Assoc.lookup_mapVal] at hm'
  obtain ⟨m, hm, hrep⟩ := Option.map_eq_some_iff.mp hm'
  split at hrep
  · rw [← hrep] at hrank
    simp only [Member.changeRank_rankId, Guild.lowestRankId, grGuildmaster] at hrank
    unfold Guild.ranksSize at hsize
    omega
  · rw [← hrep]
    exact hm

theorem repairRanks_ranksSize (w : World) : (g.repairRanks w).ranksSize ≠ 1 := by
  unfold Guild.repairRanks
  split
  · exact show 5 ≠ 1 by decide
  next hsound =>
    have hmin := (Guild.brokenRanks_eq_false_iff.mp (Bool.eq_false_iff.mpr hsound)).1
    unfold guildRanksMinCount at hmin
    omega

theorem repair_noNewMaster (w : World) : NoNewMaster g (g.repairRanks w).repairMembers := by
  intro guid m' hne hm' hrank
  have hleader : (g.repairRanks w).repairMembers.leaderGuid = g.leaderGuid :=
    Guild.repairRanks_leaderGuid w
  refine ⟨hleader ▸ hne, m', ?_, hrank⟩
  have hm := repairMembers_getMember (repairRanks_ranksSize w) hm' hrank
  rw [Guild.getMember, Guild.repairRanks_members] at hm
  exact hm

theorem repairLeader_leader (h : g.repairLeader = .ok g') : LeaderValid g' ∧ NoNewMaster g g' := by
  rcases Guild.repairLeader_cases h with
    ⟨leader, hl, ⟨hrank, rfl⟩ | rfl⟩ | ⟨hnone, new, m, hne, hm, rfl⟩
  · exact ⟨⟨leader, hl, hrank⟩, .refl _⟩
  · refine ⟨setLeader_leaderValid hl, handOver_noNewMaster g.leaderGuid rfl
      (fun _ _ _ => rfl) ?_⟩
    intro other hno _
    rw [Guild.getMember_setLeader, if_neg hno]
  · refine ⟨eraseMember_leaderValid (setLeader_leaderValid hm) hne.symm, ?_⟩
    refine handOver_noNewMaster new rfl ?_ ?_
    · intro m' hm'
      rw [Guild.getMember_eraseMember, if_pos rfl] at hm'
      cases hm'
    · intro other hno hold
      rw [Guild.getMember_eraseMember, if_neg hold, Guild.getMember_setLeader, if_neg hno]

theorem repairMasters_leader (w : World) (h : LeaderValid g) :
    LeaderValid (g.repairMasters w) ∧ NoNewMaster g (g.repairMasters w) := by
  unfold Guild.repairMasters
  split
  · exact ⟨h, .refl _⟩
  · refine ⟨?_, ?_⟩
    · obtain ⟨m, hm, hrank⟩ := h
      refine ⟨m, ?_, hrank⟩
      simp only [Guild.getMember, Assoc.lookup_mapVal]
      unfold Guild.getMember at hm
      simp [hm]
    · intro guid m' hne hm' hrank
      simp only [Guild.getMember, Assoc.lookup_mapVal] at hm'
      obtain ⟨m, hm, rfl⟩ := Option.map_eq_some_iff.mp hm'
      split at hrank
      · exact absurd hrank (by simp [grOfficer, grGuildmaster])
      · exact ⟨hne, m, hm, hrank⟩

/-- `Validate` gives any loaded guild a valid leader, and makes no other masters. -/
theorem validate_leader {w : World} (hv : g.validate w = .ok g') :
    LeaderValid g' ∧ NoNewMaster g g' := by
  obtain ⟨g₁, hlead, rfl⟩ := Guild.validate_cases hv
  obtain ⟨h₁, hgain₁⟩ := repairLeader_leader hlead
  obtain ⟨h₂, hgain₂⟩ := repairMasters_leader w h₁
  exact ⟨h₂, ((repair_noNewMaster w).trans hgain₁).trans hgain₂⟩

theorem create_leader {w : World} {leader : ObjectGuid} {candidate : Option String}
    (h : Guild.create w leader candidate = some g) : LeaderValid g := by
  unfold Guild.create at h
  split at h
  · cases h
  next name =>
    cases h
    exact ⟨Member.new name grGuildmaster, AList.lookup_insert _, rfl⟩

theorem leader_step {w : World} {op : Op} (h : LeaderValid g) (hok : KeepsLeader g op)
    (hs : Step w g op g') : LeaderValid g' ∧ NoNewMaster g g' := by
  unfold Step at hs
  obtain ⟨hop, hcond⟩ := hok
  cases op with
  | setNewGuildMaster player name isSelfPromote inactiveDays =>
    exact handleSetNewGuildMaster_leader h hcond hs
  | deleteMember guid => exact deleteMember_leader guid (.inr h) hs
  | leaveMember player =>
    rcases Guild.handleLeaveMember_cases hs with ⟨_, rfl⟩ | ⟨_, hd⟩
    · exact ⟨h, .refl _⟩
    · exact deleteMember_leader player (.inr h) hd
  | removeMember player guid =>
    rcases Guild.handleRemoveMember_cases hs with rfl | ⟨_, _, _, _, _, hd⟩
    · exact ⟨h, .refl _⟩
    · exact deleteMember_leader guid (.inr h) hd
  | updateMemberRank player guid demote => exact handleUpdateMemberRank_leader h hs
  | validate => exact validate_leader hs
  | walk members =>
    cases hs
    split
    next hperm =>
      have hget : ∀ guid, ({ g with members := members } : Guild).getMember guid =
          g.getMember guid := fun _ => AList.perm_lookup hperm
      obtain ⟨m, hm, hrank⟩ := h
      refine ⟨⟨m, (hget _).trans hm, hrank⟩, ?_⟩
      intro guid m' hne hm' hr
      exact ⟨hne, m', (hget guid).symm.trans hm', hr⟩
    · exact ⟨h, .refl _⟩
  | addNewRank => exact hop.elim
  | removeRank => exact hop.elim
  | setRankInfo => exact hop.elim
  | changeMemberRank => exact hop.elim
  | addMember => exact hop.elim
  | reload => exact hop.elim

/-- After every step of a run in which nobody hands the guild to its present leader,
the leader is a member with the master's rank, and nobody else has gained it. -/
theorem leader_run {w : World} {g₀ g : Guild} {ops : List Op} (h₀ : LeaderValid g₀)
    (hrun : Run (Step w) KeepsLeader g₀ ops g) : LeaderValid g ∧ NoNewMaster g₀ g :=
  hrun.related LeaderValid NoNewMaster h₀ (fun _ _ _ h hok hs => leader_step h hok hs)
    NoNewMaster.refl fun _ _ _ => NoNewMaster.trans

def LeaderMember (g : Guild) : Prop := (g.getMember g.leaderGuid).isSome = true

theorem LeaderValid.leaderMember (h : LeaderValid g) : LeaderMember g := by
  obtain ⟨m, hm, -⟩ := h
  rw [LeaderMember, hm]
  rfl

theorem LeaderMember.of_members (h : LeaderMember g) (hleader : g'.leaderGuid = g.leaderGuid)
    (hmembers : ∀ guid, (g.getMember guid).isSome = true → (g'.getMember guid).isSome = true) :
    LeaderMember g' := by
  rw [LeaderMember, hleader]
  exact hmembers _ h

theorem isSome_changeRank (guid other : ObjectGuid) (r : Nat) :
    ((g.changeRank guid r).getMember other).isSome = (g.getMember other).isSome := by
  rw [Guild.getMember_changeRank]
  split
  · rw [Option.isSome_map]
  · rfl

theorem LeaderMember.changeRank (h : LeaderMember g) (guid : ObjectGuid) (r : Nat) :
    LeaderMember (g.changeRank guid r) :=
  h.of_members rfl fun other hother => (isSome_changeRank guid other r).trans hother

theorem LeaderMember.deleteMember {guid : ObjectGuid} (h : LeaderMember g)
    (hd : g.deleteMember guid = .ok g') : LeaderMember g' := by
  rcases Guild.deleteMember_cases hd with ⟨hne, rfl⟩ | ⟨rfl, new, m, hnew, hm, rfl⟩
  · rw [LeaderMember, Guild.eraseMember_leaderGuid, Guild.getMember_eraseMember, if_neg hne]
    exact h
  · exact (eraseMember_leaderValid (setLeader_leaderValid hm) hnew.symm).leaderMember

theorem LeaderMember.of_step {w : World} {op : Op} (h : LeaderMember g) (hs : Step w g op g') :
    LeaderMember g' := by
  unfold Step at hs
  cases op with
  | addNewRank player name =>
    cases hs
    unfold Guild.handleAddNewRank Guild.createRank
    dsimp only
    repeat' split
    all_goals exact h
  | removeRank player rankId =>
    cases hs
    unfold Guild.handleRemoveRank
    split <;> exact h
  | setRankInfo player rankId name rights moneyPerDay =>
    cases hs
    unfold Guild.handleSetRankInfo
    repeat' split
    all_goals exact h
  | updateMemberRank player guid demote =>
    rcases Guild.handleUpdateMemberRank_cases hs with rfl | ⟨_, _, _, _, _, ⟨_, _, rfl⟩ | ⟨_, rfl⟩⟩
    · exact h
    · exact h.changeRank _ _
    · exact h.changeRank _ _
  | changeMemberRank guid newRank =>
    cases hs
    unfold Guild.changeMemberRank
    repeat' split
    all_goals first | exact h.changeRank _ _ | exact h
  | addMember guid rankId candidate =>
    cases hs
    unfold Guild.addMember
    split
    · exact h
    · refine h.of_members rfl fun other hother => ?_
      by_cases hsame : other = guid
      · subst hsame
        exact Option.isSome_of_eq_some (AList.lookup_insert _)
      · exact (congrArg Option.isSome (AList.lookup_insert_ne hsame)).trans hother
  | deleteMember guid => exact h.deleteMember hs
  | leaveMember player =>
    rcases Guild.handleLeaveMember_cases hs with ⟨_, rfl⟩ | ⟨_, hd⟩
    · exact h
    · exact h.deleteMember hd
  | removeMember player guid =>
    rcases Guild.handleRemoveMember_cases hs with rfl | ⟨_, _, _, _, _, hd⟩
    · exact h
    · exact h.deleteMember hd
  | setNewGuildMaster player name isSelfPromote inactiveDays =>
    rcases Guild.handleSetNewGuildMaster_cases hs with rfl | ⟨new, m, _, hm, rfl⟩
    · exact h
    · exact (setLeader_leaderValid hm).leaderMember.changeRank _ _
  | validate => exact (validate_leader hs).1.leaderMember
  | reload saved => exact (validate_leader hs).1.leaderMember
  | walk members =>
    cases hs
    split
    next hperm =>
      refine h.of_members rfl fun other hother => ?_
      exact (congrArg Option.isSome (AList.perm_lookup hperm)).trans hother
    · exact h

theorem deleteMember_asserts (guid : ObjectGuid) : g.deleteMember guid ≠ .error .assertFailed := by
  unfold Guild.deleteMember
  repeat' split
  all_goals simp

theorem validate_asserts (w : World) : g.validate w ≠ .error .assertFailed := by
  unfold Guild.validate Guild.repairLeader
  split
  next e he =>
    rintro ⟨rfl⟩
    split at he
    · split at he
      next hd => exact deleteMember_asserts _ (by cases he; exact hd)
      · split at he <;> cases he
    · split at he <;> cases he
  · simp

/-- Under a leader who is a member no operation runs into its assertion. -/
theorem leaderMember_asserts (h : LeaderMember g) (w : World) (op : Op) :
    step w g op ≠ .error .assertFailed := by
  obtain ⟨m, hm⟩ := Option.isSome_iff_exists.mp h
  cases op with
  | setNewGuildMaster player name isSelfPromote inactiveDays =>
    simp only [step, Guild.handleSetNewGuildMaster, hm]
    split <;> simp
  | deleteMember guid => exact deleteMember_asserts guid
  | leaveMember player =>
    simp only [step, Guild.handleLeaveMember]
    repeat' split
    all_goals first | exact deleteMember_asserts player | simp
  | removeMember player guid =>
    simp only [step, Guild.handleRemoveMember]
    repeat' split
    all_goals first | exact deleteMember_asserts guid | simp
  | updateMemberRank player guid demote =>
    simp only [step, Guild.handleUpdateMemberRank]
    by_cases hr : g.hasRankRight player (if demote then grRightDemote else grRightPromote) = true
    · -- who has the right is a member
      have hme : g.getMember player ≠ none := by
        intro hnone
        simp [Guild.hasRankRight, hnone] at hr
      rw [if_neg (not_not.mpr hr)]
      repeat' split
      all_goals first | contradiction | simp
    · rw [if_pos hr]
      simp
  | validate => exact validate_asserts w
  | reload saved => exact validate_asserts w
  | _ => simp [step]

def pairGuild : Guild where
  leaderGuid := 1
  ranks := (((Guild.create plainWorld 1 (some "A")).get rfl).ranks)
  members := ((∅ : Members).insert 2 (Member.new "B" grOfficer)).insert 1
    (Member.new "A" grGuildmaster)

/-- The founder hands over to the officer and leaves. -/
theorem leader_run_handOver :
    ∃ g, LeaderValid g ∧ NoNewMaster pairGuild g ∧ g.leaderGuid = 2 ∧ g.members.keys = [2] := by
  have hrun : ∃ g, Run (Step plainWorld) KeepsLeader pairGuild
      [.setNewGuildMaster 1 "B" false 0, .validate, .leaveMember 1] g ∧
      g.leaderGuid = 2 ∧ g.members.keys = [2] :=
    ⟨_, .cons ⟨trivial, by decide⟩ rfl (.cons ⟨trivial, trivial⟩ rfl
      (.cons ⟨trivial, trivial⟩ rfl (.nil _))), by decide, by decide⟩
  obtain ⟨g, hrun, hleader, hkeys⟩ := hrun
  have h := leader_run ⟨Member.new "A" grGuildmaster, by decide, rfl⟩ hrun
  exact ⟨g, h.1, h.2, hleader, hkeys⟩

/-- A leader names himself as the new guild master. -/
theorem leader_fails_self :
    ¬ ∀ (w : World) (g₀ g : Guild) (ops : List Op), LeaderValid g₀ → (∀ op ∈ ops, op.OnMembers) →
      Run (Step w) always g₀ ops g → LeaderValid g ∧ NoNewMaster g₀ g := by
  intro hall
  have hstep : Step plainWorld pairGuild (.setNewGuildMaster 1 "A" false 0)
      ((pairGuild.setLeader 1).changeRank 1 grInitiate) := rfl
  have hvalid := hall _ _ _ [_] ⟨Member.new "A" grGuildmaster, by decide, rfl⟩
    (by simp [Op.OnMembers]) (.cons trivial hstep (.nil _))
  exact @handleSetNewGuildMaster_self pairGuild _ 1 "A" false 0 (by decide) hstep hvalid.1

/-- From the creation of a guild on, no operation runs into an assertion. -/
theorem requests_assert {w : World} {leader : ObjectGuid} {candidate : Option String}
    {g₀ g : Guild} {ops : List Op} (hcreate : Guild.create w leader candidate = some g₀)
    (hrun : Run (Step w) always g₀ ops g) (op : Op) : step w g op ≠ .error .assertFailed := by
  have hleader := hrun.invariant LeaderMember (create_leader hcreate).leaderMember
    fun _ _ _ h _ hs => h.of_step hs
  exact leaderMember_asserts hleader w op

/-- A member joins, is promoted and made the guild master, who then names himself; the founder
leaves. -/
theorem requests_assert_handOver : ∃ g₀ g, Guild.create plainWorld 1 (some "A") = some g₀ ∧
    Run (Step plainWorld) always g₀ [.addMember 2 guildRankNone (some "B"),
      .updateMemberRank 1 2 false, .setNewGuildMaster 1 "B" false 0,
      .setNewGuildMaster 2 "B" false 0, .leaveMember 1] g ∧ g.members.keys = [2] ∧
      step plainWorld g (.setNewGuildMaster 2 "B" true 90) ≠ .error .assertFailed := by
  have hcreate : Guild.create plainWorld 1 (some "A") =
      some ((Guild.create plainWorld 1 (some "A")).get rfl) := rfl
  have hrun : ∃ g, Run (Step plainWorld) always ((Guild.create plainWorld 1 (some "A")).get rfl)
      [.addMember 2 guildRankNone (some "B"), .updateMemberRank 1 2 false,
        .setNewGuildMaster 1 "B" false 0, .setNewGuildMaster 2 "B" false 0, .leaveMember 1] g ∧
      g.members.keys = [2] :=
    ⟨_, .cons trivial rfl (.cons trivial rfl (.cons trivial rfl (.cons trivial rfl
      (.cons trivial rfl (.nil _))))), by decide⟩
  obtain ⟨g, hrun, hkeys⟩ := hrun
  exact ⟨_, g, hcreate, hrun, hkeys, requests_assert hcreate hrun _⟩

end Ashamane.Guilds
