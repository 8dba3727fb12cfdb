import Ashamane.Guilds.RankTable

/-! The rank table over runs: it stays the sequence that `Validate` describes as
long as no step runs into one of the unchecked rank ids. -/
namespace Ashamane.Guilds

open Ashamane.Lib

/-- The step runs into none of the rank ids that nothing checks: a rank removed in
the middle of the table or from under a member, a rank id handed to `AddMember`
behind the table, the demotion of the old leader in a table of fewer than five
ranks, and a stored rank id just behind the repaired table. -/
def KeepsRankTable (g : Guild) : Op → Prop
  | .removeRank player rankId =>
    g.isLeader player → guildRanksMinCount < g.ranksSize → rankId < g.ranksSize →
      rankId + 1 = g.ranksSize ∧ ∀ guid m, g.getMember guid = some m → m.rankId ≠ rankId
  | .addMember _ rankId candidate =>
    candidate.isSome → rankId = guildRankNone ∨ rankId < g.ranksSize
  | .setNewGuildMaster player name isSelfPromote inactiveDays =>
    (g.newGuildMaster player name isSelfPromote inactiveDays).isSome → grInitiate < g.ranksSize
  | .reload saved => saved.load.NoRankAtEnd
  | _ => True

theorem create_rankTable {w : World} {leader : ObjectGuid} {candidate : Option String}
    {g : Guild} (h : Guild.create w leader candidate = some g) : RankTableValid g := by
  unfold Guild.create at h
  split at h
  · cases h
  · cases h
    have hempty : RankTableValid ((⟨leader, [], ∅⟩ : Guild).createDefaultGuildRanks w) := by
      refine ⟨Guild.createDefaultGuildRanks_sequence w leader ∅, ?_⟩
      intro guid m hm
      rw [Guild.createDefaultGuildRanks_nil] at hm
      cases hm
    exact hempty.addMember leader fun _ => .inr (show 0 < 5 by decide)

theorem rankTable_step {w : World} {g g' : Guild} {op : Op} (h : RankTableValid g)
    (hok : KeepsRankTable g op) (hs : Step w g op g') : RankTableValid g' := by
  unfold Step at hs
  cases op with
  | addNewRank player name =>
    cases hs
    exact h.handleAddNewRank player name
  | removeRank player rankId =>
    cases hs
    exact h.handleRemoveRank player hok
  | setRankInfo player rankId name rights moneyPerDay =>
    cases hs
    exact h.handleSetRankInfo player rankId name rights moneyPerDay
  | updateMemberRank player guid demote => exact h.handleUpdateMemberRank hs
  | changeMemberRank guid newRank =>
    cases hs
    exact h.changeMemberRank guid newRank
  | addMember guid rankId candidate =>
    cases hs
    exact h.addMember guid hok
  | deleteMember guid => exact h.deleteMember hs
  | leaveMember player =>
    rcases Guild.handleLeaveMember_cases hs with ⟨_, rfl⟩ | ⟨_, hd⟩
    · exact h
    · exact h.deleteMember hd
  | removeMember player guid =>
    rcases Guild.handleRemoveMember_cases hs with rfl | ⟨_, _, _, _, _, hd⟩
    · exact h
    · exact h.deleteMember hd
  | setNewGuildMaster player name isSelfPromote inactiveDays =>
    exact h.handleSetNewGuildMaster hok hs
  | validate => exact Guild.validate_rankTable h.loadable h.noRankAtEnd hs
  | reload saved => exact Guild.validate_rankTable saved.loadable hok hs
  | walk members =>
    cases hs
    split
    next hperm =>
      refine h.of_members rfl fun guid m' hm' => .inr ⟨m', ?_, rfl⟩
      rw [← hm']
      exact (AList.perm_lookup hperm).symm
    · exact h

/-- From the founding of the guild on, the rank table is the sequence described in
`Validate` in every state of every run within the condition. -/
theorem rankTable_run {w : World} {leader : ObjectGuid} {candidate : Option String}
    {g₀ g : Guild} {ops : List Op} (hcreate : Guild.create w leader candidate = some g₀)
    (hrun : Run (Step w) KeepsRankTable g₀ ops g) : RankTableValid g :=
  hrun.invariant RankTableValid (create_rankTable hcreate) fun _ _ _ h hok hs =>
    rankTable_step h hok hs

/-- Founded by player 1, joined by player 2, who is promoted twice while the
founder adds a sixth rank. -/
theorem rankTable_run_promotions :
    ∃ g ops, RankTableValid g ∧ ops.length = 4 ∧ g.ranks.length = 6 ∧
      (g.getMember 2).map Member.rankId = some 2 ∧
      ∃ g₀, Guild.create plainWorld 1 (some "A") = some g₀ ∧
        Run (Step plainWorld) KeepsRankTable g₀ ops g := by
  have hrun : ∃ g, Run (Step plainWorld) KeepsRankTable
      (((Guild.create plainWorld 1 (some "A")).get rfl))
      [.addMember 2 guildRankNone (some "B"), .updateMemberRank 1 2 false, .addNewRank 1 "C",
        .updateMemberRank 1 2 false] g ∧ g.ranks.length = 6 ∧
      (g.getMember 2).map Member.rankId = some 2 :=
    ⟨_, .cons (fun _ => .inl rfl) rfl (.cons trivial rfl (.cons trivial rfl
      (.cons trivial rfl (.nil _)))), by decide, by decide⟩
  obtain ⟨g, hrun, hlen, hrank⟩ := hrun
  exact ⟨g, _, rankTable_run (Option.some_get rfl).symm hrun, rfl, hlen, hrank, _,
    (Option.some_get rfl).symm, hrun⟩

/-- The founder of a guild removes its rank 1: the ranks behind it keep their ids. -/
theorem rankTable_fails_removeRank :
    ¬ ∀ (w : World) (leader : ObjectGuid) (candidate : Option String) (g₀ g : Guild)
      (ops : List Op), Guild.create w leader candidate = some g₀ →
      Run (Step w) always g₀ ops g → RankTableValid g := by
  intro hall
  have hrun : Run (Step plainWorld) always ((Guild.create plainWorld 1 (some "A")).get rfl)
      [.removeRank 1 1] (((Guild.create plainWorld 1 (some "A")).get rfl).handleRemoveRank 1 1) :=
    .cons trivial rfl (.nil _)
  have hvalid := hall _ 1 (some "A") _ _ _ (Option.some_get rfl).symm hrun
  exact absurd (hvalid.ranks.ids 1 _ rfl) (by decide)

end Ashamane.Guilds
