import Ashamane.Guilds.Requests
import Mathlib.Data.List.Nodup
import Mathlib.Data.List.Range

/-! The rank table: what `Validate` asks of it, and what each request on the ranks
and the members does to it. -/
namespace Ashamane.Guilds

open Ashamane.Lib

/-- The sequence of ranks described in `Validate`: no gaps, two to ten of them, the
first one with all rights. -/
structure RankSequence (ranks : List RankInfo) : Prop where
  ids : ∀ (i : Nat) (r : RankInfo), ranks[i]? = some r → r.rankId = i
  minCount : guildRanksMinCount ≤ ranks.length
  maxCount : ranks.length ≤ guildRanksMaxCount
  master : ∃ r, ranks[0]? = some r ∧ r.rankId = grGuildmaster ∧
    r.rights &&& grRightAll = grRightAll

structure RankTableValid (g : Guild) : Prop where
  ranks : RankSequence g.ranks
  memberRanks : ∀ guid m, g.getMember guid = some m → m.rankId < g.ranks.length

namespace RankSequence

variable {ranks : List RankInfo}

theorem pos (h : RankSequence ranks) : 0 < ranks.length :=
  lt_of_lt_of_le (by decide) h.minCount

theorem append (h : RankSequence ranks) (hroom : ranks.length < guildRanksMaxCount)
    (name : String) (rights : BitVec 32) (money : Nat) :
    RankSequence (ranks ++ [⟨ranks.length, name, rights, money⟩]) := by
  have hmin := h.minCount
  refine ⟨?_, by simp; omega, by simp; omega, ?_⟩
  · intro i r hi
    rcases Nat.lt_trichotomy i ranks.length with hlt | heq | hgt
    · rw [List.getElem?_append_left hlt] at hi
      exact h.ids i r hi
    · subst heq
      simp at hi
      simp [← hi]
    · rw [List.getElem?_eq_none (by simp; omega)] at hi
      cases hi
  · obtain ⟨r, hr, hid, hrights⟩ := h.master
    exact ⟨r, by rw [List.getElem?_append_left h.pos]; exact hr, hid, hrights⟩

/-- The last rank can be taken away while more than two are left. -/
theorem eraseLast (h : RankSequence ranks) (hmore : guildRanksMinCount < ranks.length) :
    RankSequence (ranks.eraseIdx (ranks.length - 1)) := by
  have hmax := h.maxCount
  have hpos := h.pos
  have hlen : (ranks.eraseIdx (ranks.length - 1)).length = ranks.length - 1 :=
    List.length_eraseIdx_of_lt (by omega)
  refine ⟨?_, by rw [hlen]; omega, by rw [hlen]; omega, ?_⟩
  · intro i r hi
    by_cases hlt : i < ranks.length - 1
    · rw [List.getElem?_eraseIdx_of_lt hlt] at hi
      exact h.ids i r hi
    · rw [List.getElem?_eq_none (by rw [hlen]; omega)] at hi
      cases hi
  · obtain ⟨r, hr, hid, hrights⟩ := h.master
    refine ⟨r, ?_, hid, hrights⟩
    rw [List.getElem?_eraseIdx_of_lt (by unfold guildRanksMinCount at hmore; omega)]
    exact hr

/-- Writing a rank back under its own id, the master's with all rights. -/
theorem set (h : RankSequence ranks) (i : Nat) (r : RankInfo) (hid : r.rankId = i)
    (hrights : r.rankId = grGuildmaster → r.rights &&& grRightAll = grRightAll) :
    RankSequence (ranks.set i r) := by
  refine ⟨?_, by simpa using h.minCount, by simpa using h.maxCount, ?_⟩
  · intro j s hj
    by_cases hij : i = j
    · subst hij
      have hlt : i < ranks.length := by
        by_contra hge
        rw [List.getElem?_eq_none (by simp; omega)] at hj
        cases hj
      rw [List.getElem?_set_self hlt] at hj
      cases hj
      exact hid
    · rw [List.getElem?_set_ne hij] at hj
      exact h.ids j s hj
  · by_cases hi : i = 0
    · subst hi
      exact ⟨r, List.getElem?_set_self h.pos, hid, hrights hid⟩
    · obtain ⟨m, hm, hmid, hmr⟩ := h.master
      exact ⟨m, by rw [List.getElem?_set_ne hi]; exact hm, hmid, hmr⟩

end RankSequence

namespace Guild

variable {g g' : Guild}

theorem ranksSize_eq (h : RankSequence g.ranks) : g.ranksSize = g.ranks.length := by
  have hmax := h.maxCount
  unfold guildRanksMaxCount at hmax
  unfold ranksSize
  omega

theorem lowestRankId_eq (h : RankSequence g.ranks) : g.lowestRankId = g.ranks.length - 1 := by
  have hmax := h.maxCount
  have hpos := h.pos
  unfold guildRanksMaxCount at hmax
  unfold lowestRankId
  omega

theorem createDefaultGuildRanks_nil (w : World) (leader : ObjectGuid) (members : Members) :
    (⟨leader, [], members⟩ : Guild).createDefaultGuildRanks w =
      ⟨leader,
        [⟨0, w.trinityString langGuildMaster, grRightAll, 0⟩,
          ⟨1, w.trinityString langGuildOfficer, grRightAll, 0⟩,
          ⟨2, w.trinityString langGuildVeteran, grRightGchatlisten ||| grRightGchatspeak, 0⟩,
          ⟨3, w.trinityString langGuildMember, grRightGchatlisten ||| grRightGchatspeak, 0⟩,
          ⟨4, w.trinityString langGuildInitiate, grRightGchatlisten ||| grRightGchatspeak, 0⟩],
        members⟩ := rfl

theorem createDefaultGuildRanks_sequence (w : World) (leader : ObjectGuid) (members : Members) :
    RankSequence ((⟨leader, [], members⟩ : Guild).createDefaultGuildRanks w).ranks := by
  rw [createDefaultGuildRanks_nil]
  refine ⟨?_, by simp [guildRanksMinCount], by simp [guildRanksMaxCount], ⟨_, rfl, rfl, by simp⟩⟩
  intro i r hi
  match i with
  | 0 => cases hi; rfl
  | 1 => cases hi; rfl
  | 2 => cases hi; rfl
  | 3 => cases hi; rfl
  | 4 => cases hi; rfl
  | n + 5 => simp at hi

end Guild

/-- Changes among the members keep the rank table when every rank that a member is
left with existed before or is one of the table. -/
theorem RankTableValid.of_members {g g' : Guild} (h : RankTableValid g)
    (hranks : g'.ranks = g.ranks)
    (hmem : ∀ guid m', g'.getMember guid = some m' →
      m'.rankId < g.ranks.length ∨ ∃ m, g.getMember guid = some m ∧ m'.rankId = m.rankId) :
    RankTableValid g' := by
  refine ⟨hranks ▸ h.ranks, ?_⟩
  intro guid m' hm'
  rw [hranks]
  rcases hmem guid m' hm' with hlt | ⟨m, hm, hrank⟩
  · exact hlt
  · rw [hrank]
    exact h.memberRanks guid m hm

namespace RankTableValid

variable {g g' : Guild}

theorem changeRank (h : RankTableValid g) (guid : ObjectGuid) {r : Nat}
    (hr : r % 2 ^ 8 < g.ranks.length) : RankTableValid (g.changeRank guid r) := by
  refine h.of_members rfl ?_
  intro other m' hm'
  rw [Guild.getMember_changeRank] at hm'
  split at hm'
  · obtain ⟨m, _, rfl⟩ := Option.map_eq_some_iff.mp hm'
    exact .inl hr
  · exact .inr ⟨m', hm', rfl⟩

theorem setLeader (h : RankTableValid g) (leader : ObjectGuid) :
    RankTableValid (g.setLeader leader) := by
  have hg : RankTableValid { g with leaderGuid := leader } := h.of_members rfl
    fun guid m' hm' => .inr ⟨m', hm', rfl⟩
  exact hg.changeRank leader h.ranks.pos

theorem eraseMember (h : RankTableValid g) (guid : ObjectGuid) :
    RankTableValid (g.eraseMember guid) := by
  refine h.of_members rfl ?_
  intro other m' hm'
  rw [Guild.getMember_eraseMember] at hm'
  split at hm'
  · cases hm'
  · exact .inr ⟨m', hm', rfl⟩

theorem deleteMember (h : RankTableValid g) {guid : ObjectGuid}
    (hd : g.deleteMember guid = .ok g') : RankTableValid g' := by
  rcases Guild.deleteMember_cases hd with ⟨_, rfl⟩ | ⟨_, new, _, _, _, rfl⟩
  · exact h.eraseMember guid
  · exact (h.setLeader new).eraseMember guid

theorem changeMemberRank (h : RankTableValid g) (guid : ObjectGuid) (newRank : Nat) :
    RankTableValid (g.changeMemberRank guid newRank) := by
  unfold Guild.changeMemberRank
  split
  next hle =>
    split
    · rw [Guild.lowestRankId_eq h.ranks] at hle
      refine h.changeRank guid (lt_of_le_of_lt (Nat.mod_le _ _) ?_)
      have hpos := h.ranks.pos
      omega
    · exact h
  · exact h

theorem addMember (h : RankTableValid g) (guid : ObjectGuid) {rankId : Nat}
    {candidate : Option String}
    (hok : candidate.isSome → rankId = guildRankNone ∨ rankId < g.ranksSize) :
    RankTableValid (g.addMember guid rankId candidate) := by
  unfold Guild.addMember
  split
  · exact h
  next name =>
    refine h.of_members rfl ?_
    intro other m' hm'
    by_cases ho : other = guid
    · subst ho
      simp only [Guild.getMember, AList.lookup_insert, Option.some.injEq] at hm'
      refine .inl ?_
      rw [← hm', Guild.lowestRankId_eq h.ranks]
      refine lt_of_le_of_lt (Nat.mod_le _ _) ?_
      have hpos := h.ranks.pos
      split
      · omega
      next hnone =>
        rcases hok rfl with heq | hlt
        · exact absurd heq hnone
        · rwa [Guild.ranksSize_eq h.ranks] at hlt
    · refine .inr ⟨m', ?_, rfl⟩
      simpa only [Guild.getMember, AList.lookup_insert_ne ho] using hm'

theorem handleAddNewRank (h : RankTableValid g) (player : ObjectGuid) (name : String) :
    RankTableValid (g.handleAddNewRank player name) := by
  unfold Guild.handleAddNewRank
  split
  · exact h
  next hroom =>
    split
    · unfold Guild.createRank
      dsimp only
      rw [if_neg hroom, Option.getD_some, Guild.ranksSize_eq h.ranks]
      rw [Guild.ranksSize_eq h.ranks] at hroom
      refine ⟨h.ranks.append (by omega) _ _ _, ?_⟩
      intro guid m hm
      have := h.memberRanks guid m hm
      simp only [List.length_append, List.length_singleton]
      omega
    · exact h

/-- Only the last rank can go, and only while no member holds it. -/
theorem handleRemoveRank (h : RankTableValid g) (player : ObjectGuid) {rankId : Nat}
    (hok : g.isLeader player → guildRanksMinCount < g.ranksSize → rankId < g.ranksSize →
      rankId + 1 = g.ranksSize ∧ ∀ guid m, g.getMember guid = some m → m.rankId ≠ rankId) :
    RankTableValid (g.handleRemoveRank player rankId) := by
  unfold Guild.handleRemoveRank
  split
  · exact h
  next hacc =>
    simp only [not_or, not_le, not_not] at hacc
    obtain ⟨hmore, hlt, hleader⟩ := hacc
    obtain ⟨hlast, hfree⟩ := hok hleader hmore hlt
    rw [Guild.ranksSize_eq h.ranks] at hmore hlast
    have hid : rankId = g.ranks.length - 1 := by omega
    subst hid
    refine ⟨h.ranks.eraseLast hmore, ?_⟩
    intro guid m hm
    have hr := h.memberRanks guid m hm
    have hne := hfree guid m hm
    simp only [List.length_eraseIdx_of_lt (show g.ranks.length - 1 < g.ranks.length by omega)]
    omega

theorem handleSetRankInfo (h : RankTableValid g) (player : ObjectGuid) (rankId : Nat)
    (name : String) (rights : BitVec 32) (moneyPerDay : Nat) :
    RankTableValid (g.handleSetRankInfo player rankId name rights moneyPerDay) := by
  unfold Guild.handleSetRankInfo
  split
  · exact h
  · split
    next rankInfo hinfo =>
      have hat : g.ranks[rankId]? = some rankInfo := by
        unfold Guild.getRankInfo at hinfo
        split at hinfo
        · exact hinfo
        · cases hinfo
      refine ⟨h.ranks.set rankId _ (h.ranks.ids _ rankInfo hat) ?_, ?_⟩
      · intro hid
        have hmaster : rankInfo.rankId = grGuildmaster := hid
        simp [RankInfo.setBankMoneyPerDay, RankInfo.setRights, RankInfo.setName, hmaster]
      · intro guid m hm
        simp only [List.length_set]
        exact h.memberRanks guid m hm
    · exact h

theorem handleUpdateMemberRank (h : RankTableValid g) {player guid : ObjectGuid} {demote : Bool}
    (hu : g.handleUpdateMemberRank player guid demote = .ok g') : RankTableValid g' := by
  rcases Guild.handleUpdateMemberRank_cases hu with
    rfl | ⟨member, memberMe, hmember, _, _, ⟨_, hlow, rfl⟩ | ⟨_, rfl⟩⟩
  · exact h
  · rw [Guild.lowestRankId_eq h.ranks] at hlow
    exact h.changeRank guid (lt_of_le_of_lt (Nat.mod_le _ _) (by omega))
  · have hrank := h.memberRanks guid member hmember
    have hmax := h.ranks.maxCount
    unfold guildRanksMaxCount at hmax
    exact h.changeRank guid (by omega)

theorem handleSetNewGuildMaster (h : RankTableValid g) {player : ObjectGuid} {name : String}
    {isSelfPromote : Bool} {inactiveDays : Nat}
    (hok : (g.newGuildMaster player name isSelfPromote inactiveDays).isSome →
      grInitiate < g.ranksSize)
    (hs : g.handleSetNewGuildMaster player name isSelfPromote inactiveDays = .ok g') :
    RankTableValid g' := by
  rcases Guild.handleSetNewGuildMaster_cases hs with rfl | ⟨new, m, hnew, _, rfl⟩
  · exact h
  · have hinit := hok (by rw [hnew]; rfl)
    rw [Guild.ranksSize_eq h.ranks] at hinit
    exact (h.setLeader new).changeRank g.leaderGuid hinit

end RankTableValid

end Ashamane.Guilds

/-! `Validate` after a reload: it repairs the rank table whatever rows it is given,
except for a rank id just behind the end of the table. -/
namespace Ashamane.Guilds

open Ashamane.Lib

namespace Guild

variable {g g' : Guild}

/-- How many ranks the guild has once `Validate` has repaired the table. -/
def ranksAfterRepair (g : Guild) : Nat := if g.brokenRanks then 5 else g.ranksSize

def NoRankAtEnd (g : Guild) : Prop :=
  ∀ guid m, g.getMember guid = some m → m.rankId = g.ranksAfterRepair →
    guid = g.leaderGuid ∨ g.members.entries.length = 1

structure Loadable (g : Guild) : Prop where
  byte : g.ranks.length ≤ 2 ^ 8
  master : ∀ r ∈ g.ranks, r.rankId = grGuildmaster → r.rights &&& grRightAll = grRightAll

theorem repairRanks_members (w : World) : (g.repairRanks w).members = g.members := by
  unfold repairRanks
  split
  · rw [createDefaultGuildRanks_nil]
  · rfl

theorem repairRanks_leaderGuid (w : World) : (g.repairRanks w).leaderGuid = g.leaderGuid := by
  unfold repairRanks
  split
  · rw [createDefaultGuildRanks_nil]
  · rfl

theorem brokenRanks_eq_false_iff :
    g.brokenRanks = false ↔ guildRanksMinCount ≤ g.ranksSize ∧ g.ranksSize ≤ guildRanksMaxCount ∧
      ∀ i r, g.getRankInfo i = some r → r.rankId = i := by
  unfold brokenRanks
  by_cases hcount : g.ranksSize < guildRanksMinCount ∨ guildRanksMaxCount < g.ranksSize
  · rw [if_pos hcount]
    simp only [Bool.true_eq_false, false_iff]
    omega
  · rw [if_neg hcount, List.any_eq_false]
    refine ⟨fun h => ⟨by omega, by omega, ?_⟩, fun h i _ => ?_⟩
    · intro i r hi
      have hlt : i < g.ranksSize := by
        unfold getRankInfo at hi
        split at hi
        · assumption
        · cases hi
      simpa [hi] using h i (List.mem_range.mpr hlt)
    · cases hi : g.getRankInfo i with
      | none => simp
      | some r => simp [h.2.2 i r hi]

theorem repairRanks_sequence (hload : g.Loadable) (w : World) :
    RankSequence (g.repairRanks w).ranks ∧ (g.repairRanks w).ranks.length = g.ranksAfterRepair := by
  unfold repairRanks ranksAfterRepair
  split
  · exact ⟨createDefaultGuildRanks_sequence w _ _, rfl⟩
  next hsound =>
    have hbyte := hload.byte
    obtain ⟨hmin, hmax, hinfo⟩ := brokenRanks_eq_false_iff.mp (Bool.eq_false_iff.mpr hsound)
    unfold guildRanksMinCount at hmin
    unfold guildRanksMaxCount at hmax
    -- the number of ranks is counted in a byte, and 256 rows count as none
    have hlen : g.ranksSize = g.ranks.length := by
      unfold ranksSize at hmin hmax ⊢
      omega
    have hids : ∀ (i : Nat) (r : RankInfo), g.ranks[i]? = some r → r.rankId = i := by
      intro i r hi
      have hlt : i < g.ranks.length := (List.getElem?_eq_some_iff.mp hi).1
      refine hinfo i r ?_
      rw [getRankInfo, if_pos (by omega), hi]
    refine ⟨⟨hids, ?_, ?_, ?_⟩, hlen.symm⟩
    · unfold guildRanksMinCount
      omega
    · unfold guildRanksMaxCount
      omega
    · have hpos : 0 < g.ranks.length := by omega
      have hat : g.ranks[0]? = some g.ranks[0] := List.getElem?_eq_getElem hpos
      have hid := hids 0 _ hat
      exact ⟨_, hat, hid, hload.master _ (List.getElem_mem hpos) hid⟩

theorem getMember_repairMembers (h : RankSequence g.ranks) {guid : ObjectGuid} {m' : Member}
    (hm' : g.repairMembers.getMember guid = some m') :
    m'.rankId < g.ranks.length ∨ (m'.rankId = g.ranks.length ∧ g.getMember guid = some m') := by
  have hmax := h.maxCount
  have hpos := h.pos
  unfold guildRanksMaxCount at hmax
  simp only [repairMembers, getMember, Assoc.lookup_mapVal] at hm'
  obtain ⟨m, hm, hrep⟩ := Option.map_eq_some_iff.mp hm'
  rw [ranksSize_eq h, lowestRankId_eq h] at hrep
  split at hrep
  · left
    rw [← hrep]
    simp only [Member.changeRank_rankId]
    omega
  next hle =>
    subst hrep
    by_cases hlt : m.rankId < g.ranks.length
    · exact .inl hlt
    · exact .inr ⟨by omega, hm⟩

theorem eq_of_one_member (hone : g.members.entries.length = 1) {a b : ObjectGuid} {x y : Member}
    (ha : g.getMember a = some x) (hb : g.getMember b = some y) : a = b := by
  obtain ⟨e, he⟩ := List.length_eq_one_iff.mp hone
  have hmem : ∀ {c z}, g.getMember c = some z → c = e.1 := by
    intro c z hc
    have hin := Assoc.mem_entries_iff.mpr hc
    rw [he, List.mem_singleton] at hin
    rw [← hin]
  rw [hmem ha, hmem hb]

/-- `Validate` makes any loaded guild satisfy its own description of the rank table,
if no member's rank id lies just behind it. -/
theorem validate_rankTable (hload : g.Loadable) (hend : g.NoRankAtEnd) {w : World}
    (hv : g.validate w = .ok g') : RankTableValid g' := by
  obtain ⟨g₁, hlead, rfl⟩ := validate_cases hv
  obtain ⟨hseq, hlen⟩ := repairRanks_sequence hload w
  set r := g.repairRanks w with hr
  have hmem : r.members = g.members := repairRanks_members w
  have hleader : r.leaderGuid = g.leaderGuid := repairRanks_leaderGuid w
  -- after the members' repair only the leader or a lone member is out of range
  have hout : ∀ guid m, r.repairMembers.getMember guid = some m → m.rankId < r.ranks.length ∨
      guid = r.leaderGuid ∨ r.repairMembers.members.entries.length = 1 := by
    intro guid m hm
    rcases getMember_repairMembers hseq hm with hlt | ⟨heq, hold⟩
    · exact .inl hlt
    · right
      have hone := hend guid m (by rw [getMember, ← hmem]; exact hold) (by rw [heq, hlen])
      rw [hleader]
      simpa [repairMembers, hmem] using hone
  have h₁ : RankTableValid g₁ := by
    have hpos := hseq.pos
    rcases repairLeader_cases hlead with
      ⟨leader, hl, ⟨hrank, rfl⟩ | rfl⟩ | ⟨hnone, new, m, hne, hnew, rfl⟩
    · refine ⟨hseq, ?_⟩
      intro guid m hm
      rcases hout guid m hm with hlt | rfl | hone
      · exact hlt
      · have : m = leader := Option.some.inj (hm.symm.trans hl)
        rw [this, hrank]
        exact hpos
      · rw [eq_of_one_member hone hm hl] at hm
        have : m = leader := Option.some.inj (hm.symm.trans hl)
        rw [this, hrank]
        exact hpos
    · refine ⟨hseq, ?_⟩
      intro guid m hm
      rw [getMember_setLeader] at hm
      split at hm
      · obtain ⟨_, _, rfl⟩ := Option.map_eq_some_iff.mp hm
        exact hpos
      next hg =>
        rcases hout guid m hm with hlt | heq | hone
        · exact hlt
        · exact absurd heq hg
        · exact absurd (eq_of_one_member hone hm hl) hg
    · refine ⟨hseq, ?_⟩
      intro guid m' hm'
      rw [getMember_eraseMember] at hm'
      split at hm'
      · cases hm'
      next hg =>
        rw [getMember_setLeader] at hm'
        split at hm'
        · obtain ⟨_, _, rfl⟩ := Option.map_eq_some_iff.mp hm'
          exact hpos
        next hg' =>
          rcases hout guid m' hm' with hlt | heq | hone
          · exact hlt
          · exact absurd heq hg
          · exact absurd (eq_of_one_member hone hm' hnew) hg'
  unfold repairMasters
  split
  · exact h₁
  · refine h₁.of_members rfl ?_
    intro guid m' hm'
    simp only [getMember, Assoc.lookup_mapVal] at hm'
    obtain ⟨m, hm, rfl⟩ := Option.map_eq_some_iff.mp hm'
    split
    · have hmin := h₁.ranks.minCount
      unfold guildRanksMinCount at hmin
      exact .inl (by simp only [Member.changeRank_rankId, grOfficer]; omega)
    · exact .inr ⟨m, hm, rfl⟩

end Guild

theorem RankTableValid.loadable {g : Guild} (h : RankTableValid g) : g.Loadable := by
  have hmax := h.ranks.maxCount
  unfold guildRanksMaxCount at hmax
  refine ⟨by omega, ?_⟩
  intro r hr hid
  obtain ⟨i, hi⟩ := List.mem_iff_getElem?.mp hr
  have hzero : i = 0 := (h.ranks.ids i r hi).symm.trans hid
  obtain ⟨m, hm, _, hrights⟩ := h.ranks.master
  rw [hzero, hm] at hi
  cases hi
  exact hrights

theorem RankTableValid.noRankAtEnd {g : Guild} (h : RankTableValid g) : g.NoRankAtEnd := by
  intro guid m hm hend
  have hlt := h.memberRanks guid m hm
  have hlen : g.ranksAfterRepair = g.ranks.length := by
    unfold Guild.ranksAfterRepair
    have hsound : g.brokenRanks = false := by
      refine Guild.brokenRanks_eq_false_iff.mpr ?_
      rw [Guild.ranksSize_eq h.ranks]
      refine ⟨h.ranks.minCount, h.ranks.maxCount, ?_⟩
      intro i r hi
      unfold Guild.getRankInfo at hi
      split at hi
      · exact h.ranks.ids i r hi
      · cases hi
    rw [if_neg (by simp [hsound]), Guild.ranksSize_eq h.ranks]
  omega

theorem SavedGuild.loadable (d : SavedGuild) : d.load.Loadable := by
  refine ⟨?_, ?_⟩
  · have hnodup : (d.ranks.map RankInfo.rankId).Nodup :=
      d.ranks_sorted.imp fun hlt => Nat.ne_of_lt hlt
    have hsub : d.ranks.map RankInfo.rankId ⊆ List.range (2 ^ 8) := by
      intro i hi
      obtain ⟨r, hr, rfl⟩ := List.mem_map.mp hi
      exact List.mem_range.mpr (d.ranks_byte r hr)
    have hle := (List.subperm_of_subset hnodup hsub).length_le
    simpa [SavedGuild.load] using hle
  · intro r hr hid
    obtain ⟨row, _, rfl⟩ := List.mem_map.mp hr
    have hrow : row.rankId = grGuildmaster := hid
    simp only [RankInfo.loadFromDB, hrow, if_true]
    ext i hi
    simp only [BitVec.getElem_and, BitVec.getElem_or]
    grind

end Ashamane.Guilds
