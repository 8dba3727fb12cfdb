import Ashamane.Reputation.Counted

/-! What each call does to the states: the counters follow, what changes is marked for saving, and
a standing that is set lies between bottom and cap. -/
namespace Ashamane.Reputation
open Ashamane.Lib

variable {ρ : Type}

namespace FactionState

/-- Another flag than `FACTION_FLAG_VISIBLE` may have changed, and then the state is to be saved. -/
structure Flagged (faction faction' : FactionState) : Prop where
  id : faction'.ID = faction.ID
  standing : faction'.Standing = faction.Standing
  visible : faction'.has FACTION_FLAG_VISIBLE = faction.has FACTION_FLAG_VISIBLE
  save : faction' = faction ∨ faction'.needSave = true

theorem Flagged.refl (faction : FactionState) : faction.Flagged faction :=
  ⟨rfl, rfl, rfl, .inl rfl⟩

theorem Flagged.trans {a b c : FactionState} (h : a.Flagged b) (h' : b.Flagged c) :
    a.Flagged c := by
  refine ⟨h'.id.trans h.id, h'.standing.trans h.standing, h'.visible.trans h.visible, ?_⟩
  rcases h'.save with rfl | hsave
  · exact h.save
  · exact .inr hsave

theorem Flagged.needSave {a b : FactionState} (h : a.Flagged b) (ha : a.needSave = true) :
    b.needSave = true := by
  rcases h.save with rfl | hsave
  · exact ha
  · exact hsave

theorem or_and (a b c : UInt8) : (a ||| b) &&& c = (a &&& c) ||| (b &&& c) :=
  UInt8.toBitVec_inj.mp BitVec.and_or_distrib_right

theorem mark_flagged (faction : FactionState) {flag : UInt8}
    (hflag : flag &&& FACTION_FLAG_VISIBLE = 0)
    (hnot : ~~~flag &&& FACTION_FLAG_VISIBLE = FACTION_FLAG_VISIBLE) (on : Bool) :
    faction.Flagged { faction with
      Flags := if on then faction.Flags ||| flag else faction.Flags &&& ~~~flag
      needSend := true
      needSave := true } := by
  refine ⟨rfl, rfl, ?_, .inr rfl⟩
  cases on with
  | false => simp only [has, Bool.false_eq_true, if_false, UInt8.and_assoc, hnot]
  | true => simp only [has, if_true, or_and, hflag, UInt8.or_zero]

theorem setAtWar_flagged (faction : FactionState) (atWar : Bool) :
    faction.Flagged (faction.setAtWar atWar) := by
  rw [setAtWar]
  split
  · exact .refl faction
  · split
    · exact .refl faction
    · exact faction.mark_flagged rfl rfl atWar

theorem setInactive_flagged (faction : FactionState) (inactive : Bool) :
    faction.Flagged (faction.setInactive inactive) := by
  rw [setInactive]
  split
  · exact .refl faction
  · split
    · exact .refl faction
    · exact faction.mark_flagged rfl rfl inactive

end FactionState

theorem recount_add (rank old_rank new_rank : ReputationRank) (count : UInt8) :
    recount rank old_rank new_rank count + one (decide (rank ≤ old_rank)) =
      count + one (decide (rank ≤ new_rank)) := by
  rw [recount]
  by_cases hold : rank ≤ old_rank <;> by_cases hnew : rank ≤ new_rank <;>
    simp only [ge_iff_le, hold, hnew, if_true, if_false, decide_true, decide_false, one,
      Bool.toNat_true, Bool.toNat_false] <;> grind

namespace ReputationMgr

/-- What `SetVisible` of a state does to the counter and to the state. -/
theorem setVisibleState_spec (m : ReputationMgr) (faction : FactionState) :
    ∃ count faction', m.setVisibleState faction =
        ({ m with visibleFactionCount := count }, faction') ∧
      count + one (faction.has FACTION_FLAG_VISIBLE) =
        m.visibleFactionCount + one (faction'.has FACTION_FLAG_VISIBLE) ∧
      faction'.ID = faction.ID ∧ faction'.Standing = faction.Standing ∧
      (faction' = faction ∨ faction'.needSave = true) := by
  rw [setVisibleState]
  split
  · exact ⟨_, faction, rfl, rfl, rfl, rfl, .inl rfl⟩
  · split
    · exact ⟨_, faction, rfl, rfl, rfl, rfl, .inl rfl⟩
    · rename_i hvisible
      refine ⟨_, _, rfl, ?_, rfl, rfl, .inr rfl⟩
      have hset : (faction.Flags ||| FACTION_FLAG_VISIBLE) &&& FACTION_FLAG_VISIBLE ≠ 0 := by
        rw [FactionState.or_and, Ne, UInt8.or_eq_zero_iff]
        exact fun h => absurd h.2 (by decide)
      rw [Bool.not_eq_true] at hvisible
      rw [hvisible, FactionState.has, decide_eq_true hset]
      exact UInt8.add_zero _

variable {W : World ρ} {m m' m'' : ReputationMgr} {e : FactionEntry ρ}
  {faction faction' : FactionState}

def InRange (reputation : Int32) : Prop :=
  Reputation_Bottom ≤ reputation ∧ reputation ≤ Reputation_Cap

theorem clamp_inRange (standing : Int32) :
    InRange (if standing > Reputation_Cap then Reputation_Cap
      else if standing < Reputation_Bottom then Reputation_Bottom
      else standing) := by
  by_cases hcap : standing > Reputation_Cap
  · rw [if_pos hcap]
    exact ⟨by decide, by decide⟩
  · rw [if_neg hcap]
    by_cases hbottom : standing < Reputation_Bottom
    · rw [if_pos hbottom]
      exact ⟨by decide, by decide⟩
    · rw [if_neg hbottom]
      exact ⟨Int32.not_lt.mp hbottom, Int32.not_lt.mp hcap⟩

theorem Counted.getState (h : m.Counted W) (he : e ∈ W.store.entries)
    (hstate : m.factions.lookup e.repListID = some faction) : m.getState e = some faction := by
  rw [ReputationMgr.getState, if_pos (h.canHave he hstate).1, hstate]

/-- The state is written back with the counters of the ranks that it had and has. -/
theorem Counted.put_writes (h : m.Counted W) (he : e ∈ W.store.entries)
    (hstate : m.factions.lookup e.repListID = some faction) {new : FactionState}
    (hid : new.ID = faction.ID) {count : UInt8} {increased : Bool} {old_rank new_rank : ReputationRank}
    (hvisible : count + one (faction.has FACTION_FLAG_VISIBLE) =
      m.visibleFactionCount + one (new.has FACTION_FLAG_VISIBLE))
    (hold : old_rank = rankIn W e faction) (hnew : new_rank = rankIn W e new) :
    Writes W m ((updateRankCounters
      { m with visibleFactionCount := count, sendFactionIncreased := increased }
      old_rank new_rank).put e.repListID new) e new := by
  have hget := h.getState he hstate
  subst hold hnew
  refine ⟨fun index => ?_, hid.trans (h.canHave he hstate).2, ?_, ?_, ?_, ?_⟩
  · exact Assoc.lookup_insert _ _ _ _
  · rw [isVisible_of_state hget]
    exact hvisible
  all_goals
    rw [isAtLeast_of_state hget]
    exact recount_add _ _ _ _

theorem Counted.flag_writes (h : m.Counted W) (he : e ∈ W.store.entries)
    (hstate : m.factions.lookup e.repListID = some faction) {new : FactionState}
    (hid : new.ID = faction.ID) (hstanding : new.Standing = faction.Standing) {count : UInt8}
    (hvisible : count + one (faction.has FACTION_FLAG_VISIBLE) =
      m.visibleFactionCount + one (new.has FACTION_FLAG_VISIBLE)) :
    Writes W m (ReputationMgr.put { m with visibleFactionCount := count } e.repListID new) e new := by
  have hget := h.getState he hstate
  have hrank : rankIn W e new = rankIn W e faction := by rw [rankIn, rankIn, hstanding]
  refine ⟨fun index => ?_, hid.trans (h.canHave he hstate).2, ?_, ?_, ?_, ?_⟩
  · exact Assoc.lookup_insert _ _ _ _
  · rw [isVisible_of_state hget]
    exact hvisible
  all_goals
    rw [isAtLeast_of_state hget, hrank]
    rfl

theorem setOneFactionReputation_none (h : m.factions.lookup e.repListID = none) (standing : Int32)
    (incremental : Bool) : m.setOneFactionReputation W e standing incremental = (false, m) := by
  rw [setOneFactionReputation, h]

theorem setOneFactionReputation_some (h : m.Counted W) (he : e ∈ W.store.entries)
    (hstate : m.factions.lookup e.repListID = some faction) (standing : Int32)
    (incremental : Bool) :
    ∃ new, Writes W m (m.setOneFactionReputation W e standing incremental).2 e new ∧
      new.needSave = true ∧ InRange (e.getBaseReputation W.player + new.Standing) := by
  rw [setOneFactionReputation, hstate]
  simp only []
  -- the new standing, before the base is taken from it
  generalize hclamped : (if (if incremental = true then
    W.floats.gain standing + (faction.Standing + e.getBaseReputation W.player) else standing) >
      Reputation_Cap then Reputation_Cap else _) = clamped
  have hrange : InRange clamped := by
    rw [← hclamped]
    exact clamp_inRange _
  obtain ⟨count, shown, hshow, hcount, hid, hstanding, hsave⟩ := setVisibleState_spec m
    { faction with
      Standing := clamped - e.getBaseReputation W.player
      needSend := true
      needSave := true }
  rw [hshow]
  simp only []
  have hflagged : shown.Flagged
      (if reputationToRank clamped ≤ .hostile then shown.setAtWar true else shown) := by
    split
    · exact shown.setAtWar_flagged true
    · exact .refl shown
  generalize (if reputationToRank clamped ≤ .hostile then shown.setAtWar true else shown) = new
    at hflagged ⊢
  have hsaved : shown.needSave = true := by
    rcases hsave with rfl | hsave
    · rfl
    · exact hsave
  have hbase : e.getBaseReputation W.player + new.Standing = clamped := by
    rw [hflagged.standing, hstanding]
    grind
  have hwrites : ∀ increased : Bool, Writes W m ((updateRankCounters
      { m with visibleFactionCount := count, sendFactionIncreased := increased }
      (reputationToRank (faction.Standing + e.getBaseReputation W.player))
      (reputationToRank clamped)).put e.repListID new) e new := by
    intro increased
    refine h.put_writes he hstate (hflagged.id.trans hid) ?_ ?_ ?_
    · rw [hflagged.visible]
      exact hcount
    · rw [rankIn, Int32.add_comm]
    · rw [rankIn, hbase]
  refine ⟨new, ?_, hflagged.needSave hsaved, ?_⟩
  · split
    · exact hwrites true
    · exact hwrites m.sendFactionIncreased
  · rw [hbase]
    exact hrange

structure Moved (W : World ρ) (index : UInt32) (faction faction' : FactionState) : Prop where
  id : faction'.ID = faction.ID
  standing : faction'.Standing = faction.Standing ∨ ∀ e ∈ W.store.entries, e.repListID = index →
    InRange (e.getBaseReputation W.player + faction'.Standing)
  save : faction'.needSave = true ∨ faction'.Standing = faction.Standing ∧
    faction'.Flags = faction.Flags ∧ faction.needSave = false

theorem Moved.trans {index : UInt32} {a b c : FactionState} (h : Moved W index a b)
    (h' : Moved W index b c) : Moved W index a c := by
  refine ⟨h'.id.trans h.id, ?_, ?_⟩
  · rcases h'.standing with hsame | hrange
    · rw [hsame]
      exact h.standing
    · exact .inr hrange
  · rcases h'.save with hsave | ⟨hstanding, hflags, hb⟩
    · exact .inl hsave
    · rcases h.save with hsave | ⟨hstanding', hflags', ha⟩
      · exact absurd (hsave.symm.trans hb) (by decide)
      · exact .inr ⟨hstanding.trans hstanding', hflags.trans hflags', ha⟩

theorem Moved.refl (W : World ρ) (index : UInt32) (faction : FactionState) :
    Moved W index faction faction := by
  refine ⟨rfl, .inl rfl, ?_⟩
  cases h : faction.needSave with
  | false => exact .inr ⟨rfl, rfl, rfl⟩
  | true => exact .inl rfl

def Follows (W : World ρ) (m m' : ReputationMgr) : Prop :=
  m.Counted W → m'.Counted W ∧
    ∀ index, Option.Rel (Moved W index) (m.factions.lookup index) (m'.factions.lookup index)

theorem Follows.refl (W : World ρ) (m : ReputationMgr) : Follows W m m := by
  refine fun h => ⟨h, fun index => ?_⟩
  cases m.factions.lookup index with
  | none => exact .none
  | some faction => exact .some (.refl W index faction)

theorem Follows.trans (h : Follows W m m') (h' : Follows W m' m'') : Follows W m m'' := by
  intro hcounted
  obtain ⟨hcounted', hmoved⟩ := h hcounted
  obtain ⟨hcounted'', hmoved'⟩ := h' hcounted'
  refine ⟨hcounted'', fun index => ?_⟩
  have hfirst := hmoved index
  have hsecond := hmoved' index
  revert hfirst hsecond
  generalize m.factions.lookup index = x, m'.factions.lookup index = y,
    m''.factions.lookup index = z
  intro hfirst hsecond
  cases hfirst with
  | none => exact hsecond
  | some hmove =>
    cases hsecond with
    | some hmove' => exact .some (hmove.trans hmove')

theorem Follows.of_writes (he : e ∈ W.store.entries)
    (hstate : m.factions.lookup e.repListID = some faction)
    (hwrites : m.Counted W → Writes W m m' e faction' ∧ Moved W e.repListID faction faction') :
    Follows W m m' := by
  intro h
  obtain ⟨hw, hmoved⟩ := hwrites h
  refine ⟨h.writes hw (h.canHave he hstate).1 he, fun index => ?_⟩
  rw [hw.lookup]
  by_cases hindex : index = e.repListID
  · rw [if_pos hindex, hindex, hstate]
    exact .some hmoved
  · rw [if_neg hindex]
    exact (Follows.refl W m h).2 index

theorem setOneFactionReputation_follows (he : e ∈ W.store.entries) (standing : Int32)
    (incremental : Bool) : Follows W m (m.setOneFactionReputation W e standing incremental).2 := by
  cases hstate : m.factions.lookup e.repListID with
  | none =>
    rw [setOneFactionReputation_none hstate]
    exact .refl W m
  | some faction =>
    intro h
    obtain ⟨new, hw, hsave, hrange⟩ :=
      setOneFactionReputation_some h he hstate standing incremental
    have hid := hw.id.trans (h.canHave he hstate).2.symm
    refine Follows.of_writes he hstate (fun h => ⟨hw, hid, .inr fun e' he' hindex => ?_, .inl hsave⟩) h
    obtain rfl := FactionStore.eq_of_repListID he he' (h.canHave he hstate).1 hindex.symm
    exact hrange

theorem moved_of_same {index : UInt32} (hid : faction'.ID = faction.ID)
    (hstanding : faction'.Standing = faction.Standing)
    (hsave : faction' = faction ∨ faction'.needSave = true) : Moved W index faction faction' := by
  rcases hsave with rfl | hsave
  · exact .refl W index _
  · exact ⟨hid, .inl hstanding, .inl hsave⟩

theorem setVisible_follows (he : e ∈ W.store.entries) : Follows W m (m.setVisible e) := by
  rw [setVisible]
  split
  · cases hstate : m.factions.lookup e.repListID with
    | none => exact .refl W m
    | some faction =>
      obtain ⟨count, shown, hshow, hcount, hid, hstanding, hsave⟩ := setVisibleState_spec m faction
      simp only [hshow]
      exact .of_writes he hstate fun h =>
        ⟨h.flag_writes he hstate hid hstanding hcount, moved_of_same hid hstanding hsave⟩
  · exact .refl W m

theorem setVisibleTemplate_follows (faction : UInt32) :
    Follows W m (m.setVisibleTemplate W faction) := by
  rw [setVisibleTemplate]
  split
  · exact .refl W m
  · cases h : W.store.lookupEntry faction with
    | none => exact .refl W m
    | some e =>
      simp only []
      split
      · exact .refl W m
      · exact setVisible_follows (FactionStore.mem_of_lookupEntry h).1

/-- A state that is found by its index, with another flag changed. -/
theorem flagged_follows {index : UInt32} (hstate : m.factions.lookup index = some faction)
    (hflagged : faction.Flagged faction') : Follows W m (m.put index faction') := by
  intro h
  obtain ⟨e, he, hcan, rfl, hid⟩ := h.known index faction hstate
  have hw : Writes W m (m.put e.repListID faction') e faction' := by
    refine h.flag_writes he hstate hflagged.id hflagged.standing ?_
    rw [hflagged.visible]
  exact Follows.of_writes he hstate
    (fun _ => ⟨hw, moved_of_same hflagged.id hflagged.standing hflagged.save⟩) h

theorem setAtWar_follows (index : UInt32) (on : Bool) : Follows W m (m.setAtWar index on) := by
  rw [setAtWar]
  cases hstate : m.factions.lookup index with
  | none => exact .refl W m
  | some faction =>
    simp only []
    split
    · exact .refl W m
    · exact flagged_follows hstate (faction.setAtWar_flagged on)

theorem setInactive_follows (index : UInt32) (on : Bool) :
    Follows W m (m.setInactive index on) := by
  rw [setInactive]
  cases hstate : m.factions.lookup index with
  | none => exact .refl W m
  | some faction => exact flagged_follows hstate (faction.setInactive_flagged on)

/-- What no counter sees: the states differ in `needSend` and `needSave` only. -/
structure Alike (m m' : ReputationMgr) : Prop where
  state : ∀ index, (m'.factions.lookup index).map (fun state => (state.ID, state.Standing, state.Flags)) =
    (m.factions.lookup index).map fun state => (state.ID, state.Standing, state.Flags)
  visible : m'.visibleFactionCount = m.visibleFactionCount
  honored : m'.honoredFactionCount = m.honoredFactionCount
  revered : m'.reveredFactionCount = m.reveredFactionCount
  exalted : m'.exaltedFactionCount = m.exaltedFactionCount

theorem Alike.lookup (h : Alike m m') {index : UInt32}
    (hstate : m'.factions.lookup index = some faction') :
    ∃ faction, m.factions.lookup index = some faction ∧ faction'.ID = faction.ID ∧
      faction'.Standing = faction.Standing ∧ faction'.Flags = faction.Flags := by
  have hsame := h.state index
  rw [hstate] at hsame
  cases hbefore : m.factions.lookup index with
  | none =>
    rw [hbefore] at hsame
    cases hsame
  | some faction =>
    rw [hbefore] at hsame
    obtain ⟨hid, hrest⟩ := Prod.mk.inj (Option.some.inj hsame)
    obtain ⟨hstanding, hflags⟩ := Prod.mk.inj hrest
    exact ⟨faction, rfl, hid, hstanding, hflags⟩

theorem Counted.alike (h : m.Counted W) (hsame : Alike m m') : m'.Counted W := by
  have hget : ∀ e : FactionEntry ρ, (m'.getState e).map (fun state => (state.ID, state.Standing,
      state.Flags)) = (m.getState e).map fun state => (state.ID, state.Standing, state.Flags) := by
    intro e
    rw [ReputationMgr.getState, ReputationMgr.getState]
    split
    · exact hsame.state _
    · rfl
  have hvisible : ∀ e : FactionEntry ρ, m'.isVisible e = m.isVisible e := by
    intro e
    have hone := congrArg (Option.any fun x => decide (x.2.2 &&& FACTION_FLAG_VISIBLE ≠ 0)) (hget e)
    rw [Option.any_map, Option.any_map] at hone
    exact hone
  have hrank : ∀ rank, ∀ e : FactionEntry ρ, isAtLeast W rank m' e = isAtLeast W rank m e := by
    intro rank e
    have hreputation : m'.getReputation W e = m.getReputation W e := by
      have hone := hget e
      rw [getReputation, getReputation]
      cases h' : m'.getState e <;> cases h : m.getState e <;> rw [h, h'] at hone
      · cases hone
      · cases hone
      · obtain ⟨-, hrest⟩ := Prod.mk.inj (Option.some.inj hone)
        simp only [(Prod.mk.inj hrest).1]
    rw [isAtLeast, isAtLeast, getRank, getRank, hreputation]
  refine ⟨fun index faction' hstate => ?_, ?_, ?_, ?_, ?_⟩
  · obtain ⟨faction, hbefore, hid, -, -⟩ := hsame.lookup hstate
    obtain ⟨e, he, hcan, hindex, hid'⟩ := h.known index faction hbefore
    exact ⟨e, he, hcan, hindex, hid.trans hid'⟩
  · rw [hsame.visible]
    exact h.visible.congr fun e _ => hvisible e
  · rw [hsame.honored]
    exact h.honored.congr fun e _ => hrank .honored e
  · rw [hsame.revered]
    exact h.revered.congr fun e _ => hrank .revered e
  · rw [hsame.exalted]
    exact h.exalted.congr fun e _ => hrank .exalted e

theorem sendState_follows : Follows W m m.sendState := by
  have hlookup : ∀ index, m.sendState.factions.lookup index =
      (m.factions.lookup index).map fun state => { state with needSend := false } := by
    intro index
    exact Assoc.lookup_mapVal _ _ _
  refine fun h => ⟨h.alike ⟨fun index => ?_, rfl, rfl, rfl, rfl⟩, fun index => ?_⟩
  · rw [hlookup, Option.map_map]
    rfl
  · rw [hlookup]
    cases m.factions.lookup index with
    | none => exact .none
    | some faction =>
      have hself := Moved.refl W index faction
      exact .some ⟨rfl, .inl rfl, hself.save⟩

structure Closed (W : World ρ) (R : ReputationMgr → ReputationMgr → Prop) : Prop where
  refl : ∀ m, R m m
  trans : ∀ {m m' m''}, R m m' → R m' m'' → R m m''
  setOne : ∀ {m e}, e ∈ W.store.entries → ∀ standing incremental,
    R m (m.setOneFactionReputation W e standing incremental).2
  sendState : ∀ m, R m m.sendState

theorem follows_closed (W : World ρ) : Closed W (Follows W) where
  refl := .refl W
  trans := fun h h' => h.trans h'
  setOne := setOneFactionReputation_follows
  sendState := fun _ => sendState_follows

namespace Closed
variable {R : ReputationMgr → ReputationMgr → Prop}

theorem spillTemplate (hR : Closed W R) (standing : Int32) (incremental : Bool)
    {spillover : Spillover ρ} (h : m.spillTemplate W standing incremental spillover = some m') :
    R m m' := by
  rw [ReputationMgr.spillTemplate] at h
  split at h
  · obtain rfl := Option.some.inj h
    exact hR.refl m
  · split at h
    · obtain ⟨target, htarget, h⟩ := Option.bind_eq_some_iff.mp h
      obtain rfl := Option.some.inj h
      exact hR.setOne (FactionStore.mem_of_lookupEntry htarget).1 _ _
    · obtain rfl := Option.some.inj h
      exact hR.refl m

theorem spillTeam (hR : Closed W R) (spillOverRepOut : ρ) (incremental : Bool)
    (s : Bool × ReputationMgr) (faction : UInt32) :
    R s.2 (ReputationMgr.spillTeam W e spillOverRepOut incremental s faction).2 := by
  rw [ReputationMgr.spillTeam]
  cases htarget : W.store.lookupEntry faction with
  | none => exact hR.refl s.2
  | some target =>
    simp only []
    split
    · exact hR.refl s.2
    · split
      · exact hR.setOne (FactionStore.mem_of_lookupEntry htarget).1 _ _
      · exact hR.refl s.2

theorem spillTeams (hR : Closed W R) (spillOverRepOut : ρ) (incremental : Bool)
    (flist : List UInt32) (s : Bool × ReputationMgr) :
    R s.2 (flist.foldl (ReputationMgr.spillTeam W e spillOverRepOut incremental) s).2 := by
  induction flist generalizing s with
  | nil => exact hR.refl s.2
  | cons faction flist ih =>
    exact hR.trans (hR.spillTeam spillOverRepOut incremental s faction) (ih _)

theorem spillTemplates (hR : Closed W R) (standing : Int32) (incremental : Bool)
    {spillovers : List (Spillover ρ)} (h : spillovers.foldlM (fun m spillover =>
      m.spillTemplate W standing incremental spillover) m = some m') : R m m' := by
  induction spillovers generalizing m with
  | nil =>
    obtain rfl := Option.some.inj h
    exact hR.refl m
  | cons spillover spillovers ih =>
    obtain ⟨next, hnext, h⟩ := Option.bind_eq_some_iff.mp h
    exact hR.trans (hR.spillTemplate standing incremental hnext) (ih h)

theorem spill (hR : Closed W R) {standing : Int32} {incremental : Bool} {res : Bool}
    (h : m.spill W e standing incremental = some (res, m')) : R m m' := by
  rw [ReputationMgr.spill] at h
  cases htemplate : W.spillovers.lookup e.ID with
  | some repTemplate =>
    rw [htemplate] at h
    obtain ⟨next, hnext, h⟩ := Option.bind_eq_some_iff.mp h
    obtain rfl := (Prod.mk.inj (Option.some.inj h)).2
    exact hR.spillTemplates standing incremental hnext
  | none =>
    rw [htemplate] at h
    simp only [] at h
    cases hflist : W.teamLists.lookup e.ID with
    | some flist =>
      rw [hflist] at h
      have hteams := hR.spillTeams (e := e) (W.floats.ofInt standing) incremental
        flist (false, m)
      rw [Option.some.inj h] at hteams
      exact hteams
    | none =>
      rw [hflist] at h
      simp only [] at h
      split at h
      · cases hparent : W.store.lookupEntry e.ParentFactionID.toUInt32 with
        | none =>
          rw [hparent] at h
          obtain rfl := (Prod.mk.inj (Option.some.inj h)).2
          exact hR.refl m
        | some parent =>
          rw [hparent] at h
          simp only [] at h
          split at h
          · obtain rfl := (Prod.mk.inj (Option.some.inj h)).2
            exact hR.setOne (FactionStore.mem_of_lookupEntry hparent).1 _ _
          · cases hsisters : W.teamLists.lookup e.ParentFactionID.toUInt32 with
            | none =>
              rw [hsisters] at h
              obtain rfl := (Prod.mk.inj (Option.some.inj h)).2
              exact hR.refl m
            | some flist =>
              rw [hsisters] at h
              have hteams := hR.spillTeams (e := e) (W.floats.mul
                (W.floats.ofInt standing) (e.ParentFactionMod 1)) incremental flist (false, m)
              rw [Option.some.inj h] at hteams
              exact hteams
      · obtain rfl := (Prod.mk.inj (Option.some.inj h)).2
        exact hR.refl m

theorem setReputation (hR : Closed W R) (he : e ∈ W.store.entries) {standing : Int32}
    {incremental noSpillover : Bool} {res : Bool}
    (h : m.setReputation W e standing incremental noSpillover = some (res, m')) : R m m' := by
  rw [ReputationMgr.setReputation] at h
  obtain ⟨⟨spilt, next⟩, hspill, h⟩ := Option.bind_eq_some_iff.mp h
  have hnext : R m next := by
    split at hspill
    · obtain rfl := (Prod.mk.inj (Option.some.inj hspill)).2
      exact hR.refl m
    · exact hR.spill hspill
  simp only [] at h
  split at h
  · obtain rfl := (Prod.mk.inj (Option.some.inj h)).2
    exact hnext
  · obtain rfl := (Prod.mk.inj (Option.some.inj h)).2
    exact hR.trans (hR.trans hnext (hR.setOne he standing incremental)) (hR.sendState _)

end Closed

theorem setReputation_follows (he : e ∈ W.store.entries) {standing : Int32}
    {incremental noSpillover : Bool} {res : Bool}
    (h : m.setReputation W e standing incremental noSpillover = some (res, m')) :
    Follows W m m' :=
  (follows_closed W).setReputation he h

end ReputationMgr

end Ashamane.Reputation
