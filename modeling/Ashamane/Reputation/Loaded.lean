import Ashamane.Reputation.Changes

/-! What is loaded from the rows and what is saved into them. -/
namespace Ashamane.Reputation
open Ashamane.Lib

variable {ρ : Type}

namespace ReputationMgr

variable {W : World ρ} {m m' : ReputationMgr} {e : FactionEntry ρ}
  {faction faction' : FactionState}

theorem empty_counted (W : World ρ) : empty.Counted W := by
  have hget : ∀ e : FactionEntry ρ, empty.getState e = none := by
    intro e
    rw [getState]
    split
    · rfl
    · rfl
  have hvisible : ∀ e : FactionEntry ρ, empty.isVisible e = false := fun e =>
    isVisible_of_none (hget e)
  have hzero : ∀ p : FactionEntry ρ → Bool, (∀ e, p e = false) → Counts W.store p 0 := by
    intro p hp
    rw [Counts, List.countP_eq_zero.mpr fun e _ => by rw [hp e]; exact Bool.false_ne_true]
    rfl
  have hrank : ∀ rank, ¬ rank ≤ ReputationRank.neutral → ∀ e : FactionEntry ρ,
      isAtLeast W rank empty e = false := by
    intro rank hrank e
    rw [isAtLeast, getRank_of_none (hget e)]
    exact decide_eq_false hrank
  have hnone : ∀ index faction, empty.factions.lookup index ≠ some faction := by
    intro index faction h
    rw [empty, AList.lookup_empty] at h
    cases h
  exact ⟨fun index faction h => absurd h (hnone index faction),
    hzero _ hvisible, hzero _ (hrank .honored (by decide)), hzero _ (hrank .revered (by decide)),
    hzero _ (hrank .exalted (by decide))⟩

/-- The state that `Initialize` gives a faction. -/
def fresh (W : World ρ) (e : FactionEntry ρ) : FactionState :=
  { ID := e.ID
    ReputationListID := e.repListID
    Standing := 0
    Flags := (e.getDefaultStateFlags W.player).toUInt8
    needSend := true
    needSave := true }

theorem initializeFaction_writes (hcan : e.canHaveReputation)
    (hnone : m.factions.lookup e.repListID = none) :
    Writes W m (initializeFaction W m e) e (fresh W e) := by
  have hget : m.getState e = none := by rw [getState, if_pos hcan, hnone]
  have hcount : (if (fresh W e).has FACTION_FLAG_VISIBLE then
        { m with visibleFactionCount := m.visibleFactionCount + 1 } else m) =
      { m with visibleFactionCount :=
          m.visibleFactionCount + one ((fresh W e).has FACTION_FLAG_VISIBLE) } := by
    cases (fresh W e).has FACTION_FLAG_VISIBLE with
    | false =>
      exact congrArg (fun count => { m with visibleFactionCount := count }) (UInt8.add_zero _).symm
    | true => rfl
  have hinit : initializeFaction W m e =
      (updateRankCounters
        { m with
          visibleFactionCount :=
            m.visibleFactionCount + one ((fresh W e).has FACTION_FLAG_VISIBLE) }
        .hostile (e.getBaseRank W.player)).put e.repListID (fresh W e) := by
    rw [initializeFaction, if_pos hcan, ← hcount]
    rfl
  have hrank : rankIn W e (fresh W e) = e.getBaseRank W.player := by
    rw [rankIn, FactionEntry.getBaseRank]
    exact congrArg reputationToRank (Int32.add_zero _)
  have hneutral : ∀ rank : ReputationRank, ¬ rank ≤ .neutral →
      isAtLeast W rank m e = decide (rank ≤ .hostile) := by
    intro rank hrank
    rw [isAtLeast, getRank_of_none hget, decide_eq_false hrank]
    exact (decide_eq_false fun h => hrank (Nat.le_trans h (by decide))).symm
  rw [hinit]
  refine ⟨fun index => Assoc.lookup_insert _ _ _ _, rfl, ?_, ?_, ?_, ?_⟩
  · rw [isVisible_of_none hget]
    exact UInt8.add_zero _
  all_goals
    rw [hneutral _ (by decide), hrank]
    exact recount_add _ _ _ _

structure Started (W : World ρ) (done : List (FactionEntry ρ)) (m : ReputationMgr) : Prop where
  counted : m.Counted W
  state : ∀ e ∈ done, e.canHaveReputation → m.factions.lookup e.repListID = some (fresh W e)
  only : ∀ index faction, m.factions.lookup index = some faction →
    ∃ e ∈ done, e.canHaveReputation ∧ e.repListID = index

theorem Started.step {done rest : List (FactionEntry ρ)} (h : Started W done m)
    (hsplit : W.store.entries = done ++ e :: rest) :
    Started W (done ++ [e]) (initializeFaction W m e) := by
  have he : e ∈ W.store.entries := by
    rw [hsplit]
    exact List.mem_append_right _ List.mem_cons_self
  by_cases hcan : e.canHaveReputation = true
  · have hnone : m.factions.lookup e.repListID = none := by
      cases hstate : m.factions.lookup e.repListID with
      | none => rfl
      | some faction =>
        obtain ⟨e', he', hcan', hindex⟩ := h.only _ _ hstate
        have hmem : e' ∈ W.store.entries := by
          rw [hsplit]
          exact List.mem_append_left _ he'
        obtain rfl := FactionStore.eq_of_repListID hmem he hcan' hindex
        have hnodup := W.store.nodup
        rw [hsplit] at hnodup
        exact absurd he' fun he' => (List.nodup_append.mp hnodup).2.2 _ he' _ List.mem_cons_self rfl
    have hw := initializeFaction_writes (W := W) hcan hnone
    refine ⟨h.counted.writes hw hcan he, fun e' he' hcan' => ?_, fun index faction hstate => ?_⟩
    · rw [hw.lookup]
      by_cases hindex : e'.repListID = e.repListID
      · have hmem : e' ∈ W.store.entries := by
          rw [hsplit]
          rcases List.mem_append.mp he' with he' | he'
          · exact List.mem_append_left _ he'
          · rw [List.mem_singleton.mp he']
            exact List.mem_append_right _ List.mem_cons_self
        rw [if_pos hindex, FactionStore.eq_of_repListID hmem he hcan' hindex]
      · rw [if_neg hindex]
        rcases List.mem_append.mp he' with he' | he'
        · exact h.state e' he' hcan'
        · exact absurd (congrArg FactionEntry.repListID (List.mem_singleton.mp he')) hindex
    · rw [hw.lookup] at hstate
      by_cases hindex : index = e.repListID
      · exact ⟨e, List.mem_append_right _ List.mem_cons_self, hcan, hindex.symm⟩
      · rw [if_neg hindex] at hstate
        obtain ⟨e', he', hcan', hindex'⟩ := h.only index faction hstate
        exact ⟨e', List.mem_append_left _ he', hcan', hindex'⟩
  · have hsame : initializeFaction W m e = m := by rw [initializeFaction, if_neg hcan]
    rw [hsame]
    refine ⟨h.counted, fun e' he' hcan' => ?_, fun index faction hstate => ?_⟩
    · rcases List.mem_append.mp he' with he' | he'
      · exact h.state e' he' hcan'
      · rw [List.mem_singleton.mp he'] at hcan'
        exact absurd hcan' hcan
    · obtain ⟨e', he', hcan', hindex'⟩ := h.only index faction hstate
      exact ⟨e', List.mem_append_left _ he', hcan', hindex'⟩

theorem start_started (W : World ρ) : Started W W.store.entries (start W) := by
  suffices h : ∀ rest done m, W.store.entries = done ++ rest → Started W done m →
      Started W W.store.entries (rest.foldl (initializeFaction W) m) by
    refine h W.store.entries [] empty rfl ⟨empty_counted W, nofun, fun index faction hstate => ?_⟩
    rw [empty, AList.lookup_empty] at hstate
    cases hstate
  intro rest
  induction rest with
  | nil =>
    intro done m hsplit h
    rw [hsplit, List.append_nil]
    exact h
  | cons e rest ih =>
    intro done m hsplit h
    exact ih (done ++ [e]) _ (by rw [hsplit, List.append_assoc, List.singleton_append])
      (h.step hsplit)

theorem loadFlags_spec (faction : FactionState) (flags : UInt16) (rank : ReputationRank)
    (hsave : faction.needSave = true) :
    (faction.loadFlags flags rank).ID = faction.ID ∧
    (faction.loadFlags flags rank).Standing = faction.Standing ∧
    (faction.loadFlags flags rank).has FACTION_FLAG_VISIBLE = faction.has FACTION_FLAG_VISIBLE ∧
    ((faction.loadFlags flags rank).needSave = false →
      (faction.loadFlags flags rank).Flags.toUInt16 = flags) := by
  rw [FactionState.loadFlags]
  have hinactive : faction.Flagged
      (if flags &&& FACTION_FLAG_INACTIVE.toUInt16 ≠ 0 then faction.setInactive true
        else faction) := by
    split
    · exact faction.setInactive_flagged true
    · exact .refl faction
  generalize (if flags &&& FACTION_FLAG_INACTIVE.toUInt16 ≠ 0 then faction.setInactive true
    else faction) = second at hinactive ⊢
  have hwar : second.Flagged
      (if flags &&& FACTION_FLAG_AT_WAR.toUInt16 ≠ 0 then second.setAtWar true
        else if second.has FACTION_FLAG_VISIBLE then second.setAtWar false else second) := by
    split
    · exact second.setAtWar_flagged true
    · split
      · exact second.setAtWar_flagged false
      · exact .refl second
  generalize (if flags &&& FACTION_FLAG_AT_WAR.toUInt16 ≠ 0 then second.setAtWar true
    else if second.has FACTION_FLAG_VISIBLE then second.setAtWar false else second) = third
    at hwar ⊢
  have hhostile : third.Flagged
      (if rank ≤ .hostile then third.setAtWar true else third) := by
    split
    · exact third.setAtWar_flagged true
    · exact .refl third
  generalize (if rank ≤ .hostile then third.setAtWar true else third) = last at hhostile ⊢
  have hflagged := (hinactive.trans hwar).trans hhostile
  by_cases hsame : last.Flags.toUInt16 = flags
  · rw [if_pos hsame]
    exact ⟨hflagged.id, hflagged.standing, hflagged.visible, fun _ => hsame⟩
  · rw [if_neg hsame]
    refine ⟨hflagged.id, hflagged.standing, hflagged.visible, fun hfalse => ?_⟩
    rw [hflagged.needSave hsave] at hfalse
    cases hfalse

/-- A row for a faction whose state is as `Initialize` has left it. -/
theorem loadRow_writes (h : m.Counted W) {row : Sigma fun _ : UInt16 => Row}
    (hentry : W.store.lookupEntry row.1.toUInt32 = some e)
    (hstate : m.factions.lookup e.repListID = some faction) (hstanding : faction.Standing = 0)
    (hsave : faction.needSave = true) :
    ∃ new, Writes W m (loadRow W m row) e new ∧ new.Standing = row.2.standing ∧
      (new.needSave = false → new.Flags.toUInt16 = row.2.flags) := by
  have he := (FactionStore.mem_of_lookupEntry hentry).1
  have hcan := (h.canHave he hstate).1
  rw [loadRow, hentry]
  simp only [hcan, if_true, hstate, Option.getD_some]
  generalize hold : reputationToRank (e.getBaseReputation W.player) = old_rank
  generalize hnew : reputationToRank (e.getBaseReputation W.player + row.2.standing) = new_rank
  -- the flag that is counted
  obtain ⟨count, shown, hshow, hcount, hid, hshown, hshownSave⟩ :
      ∃ count shown, (if row.2.flags &&& FACTION_FLAG_VISIBLE.toUInt16 ≠ 0 then
          setVisibleState (m.updateRankCounters old_rank new_rank)
            { faction with Standing := row.2.standing }
        else (m.updateRankCounters old_rank new_rank,
          { faction with Standing := row.2.standing })) =
        ({ m.updateRankCounters old_rank new_rank with visibleFactionCount := count }, shown) ∧
      count + one (faction.has FACTION_FLAG_VISIBLE) =
        m.visibleFactionCount + one (shown.has FACTION_FLAG_VISIBLE) ∧
      shown.ID = faction.ID ∧ shown.Standing = row.2.standing ∧ shown.needSave = true := by
    split
    · obtain ⟨count, shown, hshow, hcount, hid, hshown, hsaved⟩ := setVisibleState_spec
        (m.updateRankCounters old_rank new_rank) { faction with Standing := row.2.standing }
      refine ⟨count, shown, hshow, hcount, hid, hshown, ?_⟩
      rcases hsaved with rfl | hsaved
      · exact hsave
      · exact hsaved
    · exact ⟨m.visibleFactionCount, _, rfl, rfl, rfl, rfl, hsave⟩
  simp only [hshow, hshown]
  obtain ⟨hlastID, hlastStanding, hlastVisible, hlastSave⟩ := loadFlags_spec shown row.2.flags
    (reputationToRank (e.getBaseReputation W.player + row.2.standing)) hshownSave
  rw [hnew] at hlastID hlastStanding hlastVisible hlastSave ⊢
  refine ⟨shown.loadFlags row.2.flags new_rank, ?_, hlastStanding.trans hshown, hlastSave⟩
  refine h.put_writes he hstate (hlastID.trans hid) ?_ ?_ ?_
  · rw [hlastVisible]
    exact hcount
  · rw [← hold, rankIn, hstanding, Int32.add_zero]
  · rw [rankIn, hlastStanding, hshown, hnew]

structure Read (W : World ρ) (done : List (Sigma fun _ : UInt16 => Row)) (m : ReputationMgr) :
    Prop where
  counted : m.Counted W
  state : ∀ e ∈ W.store.entries, e.canHaveReputation →
    ∃ faction, m.factions.lookup e.repListID = some faction
  untouched : ∀ e ∈ W.store.entries, (∀ row ∈ done, row.1.toUInt32 ≠ e.ID) →
    ∀ faction, m.factions.lookup e.repListID = some faction →
      faction.Standing = 0 ∧ faction.needSave = true
  read : ∀ e ∈ W.store.entries, ∀ row ∈ done, row.1.toUInt32 = e.ID →
    ∀ faction, m.factions.lookup e.repListID = some faction →
      faction.Standing = row.2.standing ∧
        (faction.needSave = false → faction.Flags.toUInt16 = row.2.flags)

theorem start_read (W : World ρ) : Read W [] (start W) := by
  have h := start_started W
  refine ⟨h.counted, fun e he hcan => ⟨_, h.state e he hcan⟩, fun e he _ faction hstate => ?_, nofun⟩
  have hself := h.state e he (h.counted.canHave he hstate).1
  obtain rfl := Option.some.inj (hself.symm.trans hstate)
  exact ⟨rfl, rfl⟩

theorem Read.skip {done : List (Sigma fun _ : UInt16 => Row)} (h : Read W done m)
    {row : Sigma fun _ : UInt16 => Row}
    (hskip : ∀ e ∈ W.store.entries, e.canHaveReputation → row.1.toUInt32 ≠ e.ID) :
    Read W (done ++ [row]) m := by
  refine ⟨h.counted, h.state, fun e he hne => ?_, fun e he other hother hid faction hstate => ?_⟩
  · exact h.untouched e he fun other hother => hne other (List.mem_append_left _ hother)
  · rcases List.mem_append.mp hother with hother | hother
    · exact h.read e he other hother hid faction hstate
    · rw [List.mem_singleton.mp hother] at hid
      exact absurd hid (hskip e he (h.counted.canHave he hstate).1)

theorem Read.step {done : List (Sigma fun _ : UInt16 => Row)} (h : Read W done m)
    {row : Sigma fun _ : UInt16 => Row} (hnew : ∀ other ∈ done, other.1 ≠ row.1) :
    Read W (done ++ [row]) (loadRow W m row) := by
  cases hentry : W.store.lookupEntry row.1.toUInt32 with
  | none =>
    have hsame : loadRow W m row = m := by rw [loadRow, hentry]
    rw [hsame]
    refine h.skip fun e he _ hid => ?_
    rw [hid, FactionStore.lookupEntry_ID he] at hentry
    cases hentry
  | some e =>
    obtain ⟨he, hid⟩ := FactionStore.mem_of_lookupEntry hentry
    by_cases hcan : e.canHaveReputation = true
    · obtain ⟨faction, hstate⟩ := h.state e he hcan
      have hkeys : ∀ other ∈ done, other.1.toUInt32 ≠ row.1.toUInt32 := by
        intro other hother hkey
        exact hnew other hother (by simpa using congrArg UInt32.toUInt16 hkey)
      obtain ⟨hstanding, hsave⟩ := h.untouched e he
        (fun other hother => by rw [hid]; exact hkeys other hother) faction hstate
      obtain ⟨new, hw, hnewStanding, hnewSave⟩ :=
        loadRow_writes h.counted hentry hstate hstanding hsave
      refine ⟨h.counted.writes hw hcan he, fun e' he' hcan' => ?_, fun e' he' hne => ?_,
        fun e' he' other hother hid' faction' hstate' => ?_⟩
      · rw [hw.lookup]
        split
        · exact ⟨new, rfl⟩
        · exact h.state e' he' hcan'
      · have hother : e'.repListID ≠ e.repListID := by
          intro hindex
          obtain rfl := FactionStore.eq_of_repListID he he' hcan hindex.symm
          exact hne row (List.mem_append_right _ List.mem_cons_self) hid.symm
        rw [hw.lookup, if_neg hother]
        exact h.untouched e' he' fun other hother => hne other (List.mem_append_left _ hother)
      · rw [hw.lookup] at hstate'
        by_cases hindex : e'.repListID = e.repListID
        · rw [if_pos hindex] at hstate'
          obtain rfl := Option.some.inj hstate'
          obtain rfl := FactionStore.eq_of_repListID he he' hcan hindex.symm
          rcases List.mem_append.mp hother with hother | hother
          · exact absurd (hid'.trans hid) (hkeys other hother)
          · rw [List.mem_singleton.mp hother]
            exact ⟨hnewStanding, hnewSave⟩
        · rw [if_neg hindex] at hstate'
          rcases List.mem_append.mp hother with hother | hother
          · exact h.read e' he' other hother hid' faction' hstate'
          · rw [List.mem_singleton.mp hother] at hid'
            obtain rfl := FactionStore.eq_of_ID he he' (hid.trans hid')
            exact absurd rfl hindex
    · have hsame : loadRow W m row = m := by
        rw [loadRow, hentry]
        exact if_neg hcan
      rw [hsame]
      refine h.skip fun e' he' hcan' hid' => ?_
      obtain rfl := FactionStore.eq_of_ID he he' (hid.trans hid')
      exact hcan hcan'

theorem loadFromDB_read (W : World ρ) (rows : Rows) : Read W rows.entries (loadFromDB W rows) := by
  suffices h : ∀ rest done m, rows.entries = done ++ rest → Read W done m →
      Read W rows.entries (rest.foldl (loadRow W) m) from
    h rows.entries [] (start W) rfl (start_read W)
  intro rest
  induction rest with
  | nil =>
    intro done m hsplit h
    rw [hsplit, List.append_nil]
    exact h
  | cons row rest ih =>
    intro done m hsplit h
    refine ih (done ++ [row]) _ (by rw [hsplit, List.append_assoc, List.singleton_append]) ?_
    refine h.step fun other hother hkey => ?_
    have hnodup := rows.nodupKeys
    rw [hsplit, List.NodupKeys, List.keys, List.map_append, List.nodup_append] at hnodup
    exact hnodup.2.2 _ (List.mem_map_of_mem hother) _ (List.mem_map_of_mem List.mem_cons_self) hkey

end ReputationMgr

end Ashamane.Reputation
