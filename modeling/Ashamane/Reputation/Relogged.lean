import Ashamane.Reputation.Saved

/-! A relog: what is saved and then loaded again. The loader starts from the default flags, and takes
away fewer of them than the calls do. -/
namespace Ashamane.Reputation
open Ashamane.Lib

variable {ρ : Type}

def hasFlags (flags flag : UInt8) : Bool := flags &&& flag ≠ 0

/-- The flags that are never seen, unless `FACTION_FLAG_SPECIAL` is set. -/
def FORCED_FLAGS : UInt8 := FACTION_FLAG_INVISIBLE_FORCED ||| FACTION_FLAG_HIDDEN

def FIXED_FLAGS : UInt8 :=
  ~~~(FACTION_FLAG_VISIBLE ||| FACTION_FLAG_AT_WAR ||| FACTION_FLAG_INACTIVE)

def marks (visible atWar inactive : Bool) : UInt8 :=
  (if visible then FACTION_FLAG_VISIBLE else 0) ||| (if atWar then FACTION_FLAG_AT_WAR else 0) |||
    if inactive then FACTION_FLAG_INACTIVE else 0

def withFlags (flags : UInt8) (visible atWar inactive : Bool) : UInt8 :=
  flags &&& FIXED_FLAGS ||| marks visible atWar inactive

theorem withFlags_self (flags : UInt8) :
    withFlags flags (hasFlags flags FACTION_FLAG_VISIBLE) (hasFlags flags FACTION_FLAG_AT_WAR)
      (hasFlags flags FACTION_FLAG_INACTIVE) = flags := by
  obtain ⟨bits⟩ := flags
  revert bits
  decide +kernel

theorem withFlags_and (flags flag : UInt8) (visible atWar inactive : Bool) :
    withFlags flags visible atWar inactive &&& flag =
      flags &&& (FIXED_FLAGS &&& flag) ||| marks visible atWar inactive &&& flag := by
  rw [withFlags, FactionState.or_and, UInt8.and_assoc]

theorem hasFlags_mark (flags : UInt8) {flag : UInt8} {visible atWar inactive on : Bool}
    (hfixed : FIXED_FLAGS &&& flag = 0)
    (hmarks : hasFlags (marks visible atWar inactive) flag = on) :
    hasFlags (withFlags flags visible atWar inactive) flag = on := by
  rw [hasFlags, withFlags_and, hfixed, UInt8.and_zero, UInt8.zero_or]
  exact hmarks

theorem hasFlags_fixed (flags : UInt8) {flag : UInt8} {visible atWar inactive : Bool}
    (hfixed : FIXED_FLAGS &&& flag = flag) (hmarks : marks visible atWar inactive &&& flag = 0) :
    hasFlags (withFlags flags visible atWar inactive) flag = hasFlags flags flag := by
  rw [hasFlags, withFlags_and, hfixed, hmarks, UInt8.or_zero, hasFlags]

section
variable (flags : UInt8) (visible atWar inactive : Bool)

@[simp] theorem hasFlags_visible :
    hasFlags (withFlags flags visible atWar inactive) FACTION_FLAG_VISIBLE = visible :=
  hasFlags_mark flags rfl (by revert visible atWar inactive; decide)

@[simp] theorem hasFlags_atWar :
    hasFlags (withFlags flags visible atWar inactive) FACTION_FLAG_AT_WAR = atWar :=
  hasFlags_mark flags rfl (by revert visible atWar inactive; decide)

@[simp] theorem hasFlags_inactive :
    hasFlags (withFlags flags visible atWar inactive) FACTION_FLAG_INACTIVE = inactive :=
  hasFlags_mark flags rfl (by revert visible atWar inactive; decide)

@[simp] theorem hasFlags_forced :
    hasFlags (withFlags flags visible atWar inactive) FORCED_FLAGS = hasFlags flags FORCED_FLAGS :=
  hasFlags_fixed flags rfl (by revert visible atWar inactive; decide)

@[simp] theorem hasFlags_special :
    hasFlags (withFlags flags visible atWar inactive) FACTION_FLAG_SPECIAL =
      hasFlags flags FACTION_FLAG_SPECIAL :=
  hasFlags_fixed flags rfl (by revert visible atWar inactive; decide)

@[simp] theorem hasFlags_peace :
    hasFlags (withFlags flags visible atWar inactive) FACTION_FLAG_PEACE_FORCED =
      hasFlags flags FACTION_FLAG_PEACE_FORCED :=
  hasFlags_fixed flags rfl (by revert visible atWar inactive; decide)

theorem withFlags_mark {flag : UInt8} {visible' atWar' inactive' on : Bool}
    (hfixed : FIXED_FLAGS &&& ~~~flag = FIXED_FLAGS)
    (hmarks : (if on then marks visible atWar inactive ||| flag
      else marks visible atWar inactive &&& ~~~flag) = marks visible' atWar' inactive') :
    (if on then withFlags flags visible atWar inactive ||| flag
      else withFlags flags visible atWar inactive &&& ~~~flag) =
      withFlags flags visible' atWar' inactive' := by
  rw [withFlags.eq_1 flags visible', ← hmarks]
  cases on with
  | false =>
    simp only [Bool.false_eq_true, if_false]
    rw [withFlags_and, hfixed]
  | true =>
    simp only [if_true]
    rw [withFlags, UInt8.or_assoc]

theorem withFlags_visible :
    withFlags flags visible atWar inactive ||| FACTION_FLAG_VISIBLE =
      withFlags flags true atWar inactive :=
  @withFlags_mark flags visible atWar inactive FACTION_FLAG_VISIBLE true atWar inactive true rfl
    (by revert visible atWar inactive; decide)

theorem withFlags_atWar (on : Bool) :
    (if on then withFlags flags visible atWar inactive ||| FACTION_FLAG_AT_WAR
      else withFlags flags visible atWar inactive &&& ~~~FACTION_FLAG_AT_WAR) =
      withFlags flags visible on inactive :=
  withFlags_mark flags visible atWar inactive rfl (by revert visible atWar inactive on; decide)

theorem withFlags_inactive (on : Bool) :
    (if on then withFlags flags visible atWar inactive ||| FACTION_FLAG_INACTIVE
      else withFlags flags visible atWar inactive &&& ~~~FACTION_FLAG_INACTIVE) =
      withFlags flags visible atWar on :=
  withFlags_mark flags visible atWar inactive rfl (by revert visible atWar inactive on; decide)

end

theorem withFlags_inj {flags : UInt8} {visible atWar inactive visible' atWar' inactive' : Bool} :
    withFlags flags visible atWar inactive = withFlags flags visible' atWar' inactive' ↔
      visible = visible' ∧ atWar = atWar' ∧ inactive = inactive' := by
  constructor
  · intro h
    have hvisible := congrArg (hasFlags · FACTION_FLAG_VISIBLE) h
    have hatWar := congrArg (hasFlags · FACTION_FLAG_AT_WAR) h
    have hinactive := congrArg (hasFlags · FACTION_FLAG_INACTIVE) h
    simp only [hasFlags_visible, hasFlags_atWar, hasFlags_inactive] at hvisible hatWar hinactive
    exact ⟨hvisible, hatWar, hinactive⟩
  · rintro ⟨rfl, rfl, rfl⟩
    rfl

theorem toUInt16_and (flags flag : UInt8) :
    flags.toUInt16 &&& flag.toUInt16 ≠ 0 ↔ hasFlags flags flag = true := by
  have hnarrow : (flags &&& flag).toUInt16 = 0 ↔ flags &&& flag = 0 := by
    rw [← UInt8.toUInt16_inj]
    rfl
  rw [hasFlags, decide_eq_true_iff, Ne, ← UInt8.toUInt16_and, hnarrow]

section
variable {faction : FactionState} {flags : UInt8} {visible atWar inactive : Bool}

theorem has_of_flags {flags' : UInt8} (h : faction.Flags = flags') (flag : UInt8) :
    faction.has flag = hasFlags flags' flag := by
  rw [FactionState.has, h, hasFlags]

theorem setAtWar_flags (h : faction.Flags = withFlags flags visible atWar inactive) (on : Bool) :
    (faction.setAtWar on).Flags = withFlags flags visible
      (if on && hasFlags flags FACTION_FLAG_PEACE_FORCED then atWar else on) inactive := by
  rw [FactionState.setAtWar, has_of_flags h, has_of_flags h, hasFlags_peace, hasFlags_atWar]
  split
  · exact h
  · split
    · rename_i hsame
      rw [h, hsame]
    · simp only [h]
      exact withFlags_atWar flags visible atWar inactive on

theorem setInactive_flags (h : faction.Flags = withFlags flags visible atWar inactive) (on : Bool) :
    (faction.setInactive on).Flags = withFlags flags visible atWar
      (if on && (hasFlags flags FORCED_FLAGS || !visible) then inactive else on) := by
  have hforced := has_of_flags h FORCED_FLAGS
  rw [hasFlags_forced, FORCED_FLAGS] at hforced
  rw [FactionState.setInactive, hforced, has_of_flags h, has_of_flags h, hasFlags_visible,
    hasFlags_inactive, FORCED_FLAGS]
  split
  · exact h
  · split
    · rename_i hsame
      rw [h, hsame]
    · simp only [h]
      exact withFlags_inactive flags visible atWar inactive on

/-- A faction that `SetVisible` can show. -/
def showable (flags : UInt8) : Bool :=
  !(hasFlags flags FORCED_FLAGS && !hasFlags flags FACTION_FLAG_SPECIAL)

theorem setVisibleState_flags (h : faction.Flags = withFlags flags visible atWar inactive)
    (m : ReputationMgr) :
    (m.setVisibleState faction).2.Flags =
      withFlags flags (visible || showable flags) atWar inactive := by
  have hforced := has_of_flags h FORCED_FLAGS
  rw [hasFlags_forced, FORCED_FLAGS] at hforced
  rw [ReputationMgr.setVisibleState, hforced, has_of_flags h, has_of_flags h, hasFlags_special,
    hasFlags_visible, showable, FORCED_FLAGS]
  split
  · rename_i hhidden
    rw [hhidden, Bool.not_true, Bool.or_false]
    exact h
  · rename_i hshown
    rw [Bool.not_eq_true] at hshown
    rw [hshown, Bool.not_false, Bool.or_true]
    split
    · rename_i hvisible
      rw [h, hvisible]
    · simp only [h]
      exact withFlags_visible flags visible atWar inactive

/-- The flags that calls and the loader can give a state whose default flags are `flags`. -/
structure Reaches (flags : UInt8) (visible atWar inactive : Bool) : Prop where
  shown : hasFlags flags FACTION_FLAG_VISIBLE = true → visible = true
  showable : visible = true → hasFlags flags FACTION_FLAG_VISIBLE = true ∨ Reputation.showable flags = true
  atWar : atWar = true →
    hasFlags flags FACTION_FLAG_AT_WAR = true ∨ hasFlags flags FACTION_FLAG_PEACE_FORCED = false
  inactive : inactive = true →
    hasFlags flags FACTION_FLAG_INACTIVE = true ∨ hasFlags flags FORCED_FLAGS = false ∧ visible = true

def Legal (flags : UInt8) (faction : FactionState) : Prop :=
  ∃ visible atWar inactive, faction.Flags = withFlags flags visible atWar inactive ∧
    Reaches flags visible atWar inactive

theorem Legal.self (h : faction.Flags = flags) : Legal flags faction :=
  ⟨_, _, _, h.trans (withFlags_self flags).symm, id, .inl, .inl, .inl⟩

theorem Legal.setAtWar (h : Legal flags faction) (on : Bool) :
    Legal flags (faction.setAtWar on) := by
  obtain ⟨visible, atWar, inactive, hflags, hreach⟩ := h
  refine ⟨_, _, _, setAtWar_flags hflags on, hreach.shown, hreach.showable, fun hset => ?_,
    hreach.inactive⟩
  split at hset
  · exact hreach.atWar hset
  · rename_i hpeace
    rw [hset, Bool.true_and, Bool.not_eq_true] at hpeace
    exact .inr hpeace

theorem Legal.setInactive (h : Legal flags faction) (on : Bool) :
    Legal flags (faction.setInactive on) := by
  obtain ⟨visible, atWar, inactive, hflags, hreach⟩ := h
  refine ⟨_, _, _, setInactive_flags hflags on, hreach.shown, hreach.showable, hreach.atWar,
    fun hset => ?_⟩
  split at hset
  · exact hreach.inactive hset
  · rename_i hallowed
    rw [hset, Bool.true_and, Bool.not_eq_true, Bool.or_eq_false_iff, Bool.not_eq_false'] at hallowed
    exact .inr hallowed

theorem Legal.setVisibleState (h : Legal flags faction) (m : ReputationMgr) :
    Legal flags (m.setVisibleState faction).2 := by
  obtain ⟨visible, atWar, inactive, hflags, hreach⟩ := h
  refine ⟨_, _, _, setVisibleState_flags hflags m, fun hdefault => ?_, fun hset => ?_, hreach.atWar,
    fun hset => (hreach.inactive hset).imp_right fun hvisible => ⟨hvisible.1, ?_⟩⟩
  · rw [hreach.shown hdefault, Bool.true_or]
  · rcases Bool.or_eq_true_iff.mp hset with hset | hset
    · exact hreach.showable hset
    · exact .inr hset
  · rw [hvisible.2, Bool.true_or]

theorem Legal.congr {faction' : FactionState} (h : Legal flags faction)
    (hsame : faction'.Flags = faction.Flags) : Legal flags faction' := by
  obtain ⟨visible, atWar, inactive, hflags, hreach⟩ := h
  exact ⟨visible, atWar, inactive, hsame.trans hflags, hreach⟩

theorem Legal.loadFlags (h : Legal flags faction) (dbFactionFlags : UInt16)
    (rank : ReputationRank) : Legal flags (faction.loadFlags dbFactionFlags rank) := by
  have hinactive : Legal flags (if dbFactionFlags &&& FACTION_FLAG_INACTIVE.toUInt16 ≠ 0 then
      faction.setInactive true else faction) := by
    split
    · exact h.setInactive true
    · exact h
  rw [FactionState.loadFlags]
  generalize (if dbFactionFlags &&& FACTION_FLAG_INACTIVE.toUInt16 ≠ 0 then
    faction.setInactive true else faction) = second at hinactive ⊢
  have hatWar : Legal flags (if dbFactionFlags &&& FACTION_FLAG_AT_WAR.toUInt16 ≠ 0 then
      second.setAtWar true else if second.has FACTION_FLAG_VISIBLE then second.setAtWar false
      else second) := by
    split
    · exact hinactive.setAtWar true
    · split
      · exact hinactive.setAtWar false
      · exact hinactive
  generalize (if dbFactionFlags &&& FACTION_FLAG_AT_WAR.toUInt16 ≠ 0 then
    second.setAtWar true else if second.has FACTION_FLAG_VISIBLE then second.setAtWar false
    else second) = third at hatWar ⊢
  have hhostile : Legal flags (if rank ≤ .hostile then third.setAtWar true else third) := by
    split
    · exact hatWar.setAtWar true
    · exact hatWar
  generalize (if rank ≤ .hostile then third.setAtWar true else third) = last at hhostile ⊢
  split
  · exact hhostile.congr rfl
  · exact hhostile

/-- What the loader does with a state whose row has the flags `withFlags flags shown war away`. -/
theorem loadFlags_flags (h : faction.Flags = withFlags flags visible atWar inactive)
    (shown war away : Bool) (rank : ReputationRank) :
    (faction.loadFlags (withFlags flags shown war away).toUInt16 rank).Flags =
      withFlags flags visible
        (if rank ≤ .hostile && !hasFlags flags FACTION_FLAG_PEACE_FORCED then true
          else if war then atWar || !hasFlags flags FACTION_FLAG_PEACE_FORCED
          else atWar && !visible)
        (inactive || away && !hasFlags flags FORCED_FLAGS && visible) := by
  rw [FactionState.loadFlags]
  simp only [toUInt16_and, hasFlags_inactive, hasFlags_atWar]
  obtain ⟨second, hsecond, hinactive⟩ : ∃ second,
      (if away = true then faction.setInactive true else faction) = second ∧
      second.Flags = withFlags flags visible atWar
        (inactive || away && !hasFlags flags FORCED_FLAGS && visible) := by
    refine ⟨_, rfl, ?_⟩
    split
    · rename_i haway
      rw [setInactive_flags h true, haway]
      cases inactive <;> cases hasFlags flags FORCED_FLAGS <;> cases visible <;> rfl
    · rename_i haway
      rw [Bool.not_eq_true] at haway
      rw [h, haway, Bool.false_and, Bool.false_and, Bool.or_false]
  rw [hsecond]
  obtain ⟨third, hthird, hwar⟩ : ∃ third,
      (if war = true then second.setAtWar true
        else if second.has FACTION_FLAG_VISIBLE = true then second.setAtWar false
        else second) = third ∧
      third.Flags = withFlags flags visible
        (if war then atWar || !hasFlags flags FACTION_FLAG_PEACE_FORCED else atWar && !visible)
        (inactive || away && !hasFlags flags FORCED_FLAGS && visible) := by
    refine ⟨_, rfl, ?_⟩
    rw [has_of_flags hinactive, hasFlags_visible]
    split
    · rw [setAtWar_flags hinactive true]
      cases atWar <;> cases hasFlags flags FACTION_FLAG_PEACE_FORCED <;> rfl
    · split
      · rename_i hvisible
        rw [setAtWar_flags hinactive false, hvisible, Bool.not_true, Bool.and_false]
        rfl
      · rename_i hvisible
        rw [Bool.not_eq_true] at hvisible
        rw [hinactive, hvisible, Bool.not_false, Bool.and_true]
  rw [hthird]
  have hlast : (if rank ≤ .hostile then third.setAtWar true else third).Flags =
      withFlags flags visible
        (if rank ≤ .hostile && !hasFlags flags FACTION_FLAG_PEACE_FORCED then true
          else if war then atWar || !hasFlags flags FACTION_FLAG_PEACE_FORCED
          else atWar && !visible)
        (inactive || away && !hasFlags flags FORCED_FLAGS && visible) := by
    split
    · rename_i hrank
      rw [setAtWar_flags hwar true, decide_eq_true hrank]
      cases hasFlags flags FACTION_FLAG_PEACE_FORCED <;> rfl
    · rename_i hrank
      rw [hwar, decide_eq_false hrank]
      rfl
  rw [← hlast]
  generalize (if rank ≤ .hostile then third.setAtWar true else third) = last
  split
  · rfl
  · rfl

end

namespace ReputationMgr

variable {W : World ρ} {m m' m'' : ReputationMgr} {e : FactionEntry ρ}
  {faction faction' : FactionState} {rows : Rows}

def AllLegal (W : World ρ) (m : ReputationMgr) : Prop :=
  ∀ index faction, m.factions.lookup index = some faction →
    ∃ e ∈ W.store.entries, e.canHaveReputation ∧ e.repListID = index ∧
      Legal (fresh W e).Flags faction

theorem AllLegal.put (h : AllLegal W m) {index : UInt32}
    (hstate : m.factions.lookup index = some faction)
    (hlegal : ∀ flags, Legal flags faction → Legal flags faction')
    (hput : m'.factions = m.factions.insert index faction') : AllLegal W m' := by
  intro other state hother
  rw [hput, Assoc.lookup_insert] at hother
  split at hother
  · rename_i hindex
    obtain rfl := Option.some.inj hother
    obtain ⟨e, he, hcan, hlist, hold⟩ := h index faction hstate
    exact ⟨e, he, hcan, hlist.trans hindex.symm, hlegal _ hold⟩
  · exact h other state hother

def KeepsLegal (W : World ρ) (m m' : ReputationMgr) : Prop := AllLegal W m → AllLegal W m'

theorem setVisibleState_factions (m : ReputationMgr) (faction : FactionState) :
    (m.setVisibleState faction).1.factions = m.factions := by
  obtain ⟨count, shown, hshow, -⟩ := setVisibleState_spec m faction
  rw [hshow]

theorem setOneFactionReputation_keepsLegal (standing : Int32) (incremental : Bool) :
    KeepsLegal W m (m.setOneFactionReputation W e standing incremental).2 := by
  intro h
  cases hstate : m.factions.lookup e.repListID with
  | none =>
    rw [setOneFactionReputation_none hstate]
    exact h
  | some faction =>
    rw [setOneFactionReputation, hstate]
    simp only []
    generalize (if (if incremental = true then
      W.floats.gain standing + (faction.Standing + e.getBaseReputation W.player) else standing) >
        Reputation_Cap then Reputation_Cap else _) = clamped
    generalize hmoved : ({ faction with
      Standing := clamped - e.getBaseReputation W.player
      needSend := true
      needSave := true } : FactionState) = moved
    have hflags : moved.Flags = faction.Flags := by rw [← hmoved]
    have hfactions := setVisibleState_factions m moved
    have hshown : ∀ flags, Legal flags faction → Legal flags (m.setVisibleState moved).2 :=
      fun flags hlegal => (hlegal.congr hflags).setVisibleState m
    generalize m.setVisibleState moved = s at hfactions hshown ⊢
    generalize hincreased : (if (reputationToRank clamped).toNat >
      (reputationToRank (faction.Standing + e.getBaseReputation W.player)).toNat then _ else s.1) =
        next
    have hnext : next.factions = m.factions := by
      rw [← hincreased, ← hfactions]
      split
      · rfl
      · rfl
    have hlegal : ∀ flags, Legal flags faction →
        Legal flags (if reputationToRank clamped ≤ .hostile then s.2.setAtWar true else s.2) := by
      intro flags hlegal
      split
      · exact (hshown flags hlegal).setAtWar true
      · exact hshown flags hlegal
    refine h.put hstate hlegal ?_
    rw [← hnext]
    rfl

theorem sendState_keepsLegal (m : ReputationMgr) : KeepsLegal W m m.sendState := by
  intro h index state hstate
  rw [show m.sendState.factions.lookup index = _ from Assoc.lookup_mapVal _ _ _] at hstate
  obtain ⟨faction, hfaction, rfl⟩ := Option.map_eq_some_iff.mp hstate
  obtain ⟨e, he, hcan, hlist, hlegal⟩ := h index faction hfaction
  exact ⟨e, he, hcan, hlist, hlegal.congr rfl⟩

theorem keepsLegal_closed (W : World ρ) : Closed W (KeepsLegal W) where
  refl := fun _ h => h
  trans := fun h h' hlegal => h' (h hlegal)
  setOne := fun _ => setOneFactionReputation_keepsLegal
  sendState := sendState_keepsLegal

theorem setVisible_keepsLegal (m : ReputationMgr) (e : FactionEntry ρ) :
    KeepsLegal W m (m.setVisible e) := by
  intro h
  rw [setVisible]
  split
  · cases hstate : m.factions.lookup e.repListID with
    | none => exact h
    | some faction =>
      refine h.put hstate (fun flags hlegal => hlegal.setVisibleState m) ?_
      rw [← setVisibleState_factions m faction]
      rfl
  · exact h

theorem setVisibleTemplate_keepsLegal (m : ReputationMgr) (faction : UInt32) :
    KeepsLegal W m (m.setVisibleTemplate W faction) := by
  intro h
  rw [setVisibleTemplate]
  split
  · exact h
  · cases W.store.lookupEntry faction with
    | none => exact h
    | some e =>
      simp only []
      split
      · exact h
      · exact setVisible_keepsLegal m e h

theorem setAtWar_keepsLegal (m : ReputationMgr) (index : UInt32) (on : Bool) :
    KeepsLegal W m (m.setAtWar index on) := by
  intro h
  rw [setAtWar]
  cases hstate : m.factions.lookup index with
  | none => exact h
  | some faction =>
    simp only []
    split
    · exact h
    · exact h.put hstate (fun flags hlegal => hlegal.setAtWar on) rfl

theorem setInactive_keepsLegal (m : ReputationMgr) (index : UInt32) (on : Bool) :
    KeepsLegal W m (m.setInactive index on) := by
  intro h
  rw [setInactive]
  cases hstate : m.factions.lookup index with
  | none => exact h
  | some faction => exact h.put hstate (fun flags hlegal => hlegal.setInactive on) rfl

theorem Alike.keepsLegal (h : Alike m m') : KeepsLegal W m m' := by
  intro hlegal index state hstate
  obtain ⟨faction, hfaction, -, -, hflags⟩ := h.lookup hstate
  obtain ⟨e, he, hcan, hlist, hold⟩ := hlegal index faction hfaction
  exact ⟨e, he, hcan, hlist, hold.congr hflags⟩

def loadState (W : World ρ) (e : FactionEntry ρ) (row : Row) (faction : FactionState) :
    FactionState :=
  let faction := { faction with Standing := row.standing }
  let faction := if row.flags &&& FACTION_FLAG_VISIBLE.toUInt16 ≠ 0 then
      (empty.setVisibleState faction).2
    else faction
  faction.loadFlags row.flags (reputationToRank (e.getBaseReputation W.player + faction.Standing))

theorem setVisibleState_snd (m m' : ReputationMgr) (faction : FactionState) :
    (m.setVisibleState faction).2 = (m'.setVisibleState faction).2 := by
  rw [setVisibleState, setVisibleState]
  split
  · rfl
  · split
    · rfl
    · rfl

theorem loadRow_put {row : Sigma fun _ : UInt16 => Row}
    (hentry : W.store.lookupEntry row.1.toUInt32 = some e) (hcan : e.canHaveReputation) :
    (loadRow W m row).factions = m.factions.insert e.repListID (loadState W e row.2
      ((m.factions.lookup e.repListID).getD ⟨0, 0, 0, 0, false, false⟩)) := by
  rw [loadRow, hentry]
  simp only [hcan, if_true, loadState]
  generalize hnext : m.updateRankCounters _ _ = next
  have hfactions : next.factions = m.factions := by
    rw [← hnext]
    rfl
  split
  · rw [put, setVisibleState_factions, hfactions, setVisibleState_snd next empty]
  · rw [put, hfactions]

theorem loadRow_other (he : e ∈ W.store.entries) (hcan : e.canHaveReputation)
    {row : Sigma fun _ : UInt16 => Row} (hother : row.1.toUInt32 ≠ e.ID) :
    (loadRow W m row).factions.lookup e.repListID = m.factions.lookup e.repListID := by
  cases hentry : W.store.lookupEntry row.1.toUInt32 with
  | none => rw [loadRow, hentry]
  | some e' =>
    obtain ⟨he', hid'⟩ := FactionStore.mem_of_lookupEntry hentry
    by_cases hcan' : e'.canHaveReputation = true
    · rw [loadRow_put hentry hcan', Assoc.lookup_insert, if_neg fun hindex => ?_]
      obtain rfl := FactionStore.eq_of_repListID he he' hcan hindex
      exact hother hid'.symm
    · rw [loadRow, hentry]
      simp only [hcan', Bool.false_eq_true, if_false]

theorem loadRows_other (he : e ∈ W.store.entries) (hcan : e.canHaveReputation)
    {list : List (Sigma fun _ : UInt16 => Row)} (hother : ∀ row ∈ list, row.1.toUInt32 ≠ e.ID) :
    (list.foldl (loadRow W) m).factions.lookup e.repListID = m.factions.lookup e.repListID := by
  induction list generalizing m with
  | nil => rfl
  | cons row list ih =>
    rw [List.foldl_cons, ih fun row hrow => hother row (List.mem_cons_of_mem _ hrow)]
    exact loadRow_other he hcan (hother row List.mem_cons_self)

/-- What `LoadFromDB` makes of a faction that has a row. -/
theorem loadFromDB_row (he : e ∈ W.store.entries) (hcan : e.canHaveReputation) {key : UInt16}
    {row : Row} (hrow : rows.lookup key = some row) (hkey : key.toUInt32 = e.ID) :
    (loadFromDB W rows).factions.lookup e.repListID = some (loadState W e row (fresh W e)) := by
  obtain ⟨done, rest, hsplit⟩ := List.append_of_mem (Assoc.mem_entries_iff.mpr hrow)
  have hnodup := rows.nodupKeys
  rw [hsplit, List.NodupKeys, List.keys, List.map_append, List.map_cons, List.nodup_append,
    List.nodup_cons] at hnodup
  -- no other row is for the faction
  have hother : ∀ other : Sigma fun _ : UInt16 => Row, other.1 ≠ key → other.1.toUInt32 ≠ e.ID := by
    intro other hne hid
    refine hne ?_
    rw [← UInt16.toUInt16_toUInt32 other.1, hid, ← hkey, UInt16.toUInt16_toUInt32]
  have hdone : ∀ other ∈ done, other.1.toUInt32 ≠ e.ID := fun other hmem => hother other
    (hnodup.2.2 _ (List.mem_map_of_mem hmem) _ List.mem_cons_self)
  have hrest : ∀ other ∈ rest, other.1.toUInt32 ≠ e.ID := fun other hmem => hother other
    fun heq => hnodup.2.1.1 (List.mem_map.mpr ⟨other, hmem, heq⟩)
  have hentry : W.store.lookupEntry key.toUInt32 = some e := by
    rw [hkey]
    exact FactionStore.lookupEntry_ID he
  rw [loadFromDB, hsplit, List.foldl_append, List.foldl_cons, loadRows_other he hcan hrest,
    loadRow_put hentry hcan, Assoc.lookup_insert, if_pos rfl, loadRows_other he hcan hdone,
    (start_started W).state e he hcan, Option.getD_some]

theorem loadFromDB_fresh (he : e ∈ W.store.entries) (hcan : e.canHaveReputation)
    (hnone : ∀ row ∈ rows.entries, row.1.toUInt32 ≠ e.ID) :
    (loadFromDB W rows).factions.lookup e.repListID = some (fresh W e) := by
  rw [loadFromDB, loadRows_other he hcan hnone, (start_started W).state e he hcan]

theorem loadState_legal (e : FactionEntry ρ) (row : Row) :
    Legal (fresh W e).Flags (loadState W e row (fresh W e)) := by
  have hfresh : Legal (fresh W e).Flags { fresh W e with Standing := row.standing } := .self rfl
  rw [loadState]
  split
  · exact (hfresh.setVisibleState empty).loadFlags _ _
  · exact hfresh.loadFlags _ _

theorem loadFromDB_legal (W : World ρ) (rows : Rows) : AllLegal W (loadFromDB W rows) := by
  intro index faction hstate
  obtain ⟨e, he, hcan, rfl, -⟩ := (loadFromDB_read W rows).counted.known index faction hstate
  refine ⟨e, he, hcan, rfl, ?_⟩
  by_cases hrow : ∃ row ∈ rows.entries, row.1.toUInt32 = e.ID
  · obtain ⟨⟨key, row⟩, hmem, hkey⟩ := hrow
    rw [loadFromDB_row he hcan (Assoc.mem_entries_iff.mp hmem) hkey] at hstate
    obtain rfl := Option.some.inj hstate
    exact loadState_legal e row
  · rw [loadFromDB_fresh he hcan fun row hmem hkey => hrow ⟨row, hmem, hkey⟩] at hstate
    obtain rfl := Option.some.inj hstate
    exact .self rfl

def forcesWar (W : World ρ) (e : FactionEntry ρ) (faction : FactionState) : Bool :=
  rankIn W e faction ≤ .hostile && !faction.has FACTION_FLAG_PEACE_FORCED

theorem loadState_flags {visible atWar inactive : Bool}
    (hflags : faction.Flags = withFlags (fresh W e).Flags visible atWar inactive)
    (hreach : Reaches (fresh W e).Flags visible atWar inactive) :
    (loadState W e ⟨faction.Standing, faction.Flags.toUInt16⟩ (fresh W e)).Flags =
      withFlags (fresh W e).Flags visible
        (forcesWar W e faction || atWar ||
          hasFlags (fresh W e).Flags FACTION_FLAG_AT_WAR && !visible)
        (hasFlags (fresh W e).Flags FACTION_FLAG_INACTIVE || inactive) := by
  have hpeace := has_of_flags hflags FACTION_FLAG_PEACE_FORCED
  rw [hasFlags_peace] at hpeace
  rw [loadState, forcesWar, hpeace, hflags]
  simp only [toUInt16_and, hasFlags_visible]
  generalize hmoved : ({ fresh W e with Standing := faction.Standing } : FactionState) = moved
  have hmovedFlags : moved.Flags = (fresh W e).Flags := by rw [← hmoved]
  have hmovedStanding : moved.Standing = faction.Standing := by rw [← hmoved]
  generalize hshown : (if visible = true then (empty.setVisibleState moved).2 else moved) = shown
  -- the default flags, and `FACTION_FLAG_VISIBLE` as it was
  have hshownFlags : shown.Flags = withFlags (fresh W e).Flags visible
      (hasFlags (fresh W e).Flags FACTION_FLAG_AT_WAR)
      (hasFlags (fresh W e).Flags FACTION_FLAG_INACTIVE) := by
    rw [← hshown]
    split
    · rename_i hvisible
      rw [setVisibleState_flags (hmovedFlags.trans (withFlags_self _).symm), hvisible,
        Bool.or_eq_true_iff.mpr (hreach.showable hvisible)]
    · rename_i hvisible
      have hdefault := mt hreach.shown hvisible
      rw [Bool.not_eq_true] at hvisible hdefault
      rw [hmovedFlags, hvisible, ← hdefault, withFlags_self]
  have hstanding : shown.Standing = faction.Standing := by
    rw [← hshown]
    split
    · obtain ⟨count, after, hset, -, -, hafter, -⟩ := setVisibleState_spec empty moved
      rw [hset]
      exact hafter.trans hmovedStanding
    · exact hmovedStanding
  rw [loadFlags_flags hshownFlags, hstanding, withFlags_inj]
  refine ⟨rfl, ?_, ?_⟩
  · split
    · rename_i hforces
      rw [rankIn, hforces, Bool.true_or, Bool.true_or]
    · rename_i hforces
      rw [Bool.not_eq_true] at hforces
      rw [rankIn, hforces, Bool.false_or]
      cases atWar with
      | false => rfl
      | true =>
        rcases hreach.atWar rfl with hdefault | hnopeace
        · rw [hdefault]
          rfl
        · rw [hnopeace, Bool.not_false, Bool.or_true]
          rfl
  · cases inactive with
    | false => rfl
    | true =>
      rcases hreach.inactive rfl with hdefault | ⟨hnotForced, hvisible⟩
      · rw [hdefault, Bool.true_or, Bool.true_or]
      · rw [hnotForced, hvisible]
        rfl

def Restored (W : World ρ) (e : FactionEntry ρ) (faction faction' : FactionState) : Prop :=
  faction'.Standing = faction.Standing ∧
    (faction'.Flags = faction.Flags ∨
      forcesWar W e faction = true ∧ faction'.Flags = faction.Flags ||| FACTION_FLAG_AT_WAR)

/-- `FACTION_FLAG_INACTIVE` and, of a faction that is not seen, `FACTION_FLAG_AT_WAR` are not taken
from the default flags. -/
def Restorable (W : World ρ) (e : FactionEntry ρ) (faction : FactionState) : Prop :=
  ((fresh W e).has FACTION_FLAG_INACTIVE = true → faction.has FACTION_FLAG_INACTIVE = true) ∧
    ((fresh W e).has FACTION_FLAG_AT_WAR = true → faction.has FACTION_FLAG_AT_WAR = true ∨
      faction.has FACTION_FLAG_VISIBLE = true ∨ forcesWar W e faction = true)

instance (W : World ρ) (e : FactionEntry ρ) (faction faction' : FactionState) :
    Decidable (Restored W e faction faction') :=
  inferInstanceAs (Decidable (_ ∧ _))

instance (W : World ρ) (e : FactionEntry ρ) (faction : FactionState) :
    Decidable (Restorable W e faction) :=
  inferInstanceAs (Decidable (_ ∧ _))

theorem flags_restored_iff (hlegal : Legal (fresh W e).Flags faction) :
    ((loadState W e ⟨faction.Standing, faction.Flags.toUInt16⟩ (fresh W e)).Flags = faction.Flags ∨
      forcesWar W e faction = true ∧
        (loadState W e ⟨faction.Standing, faction.Flags.toUInt16⟩ (fresh W e)).Flags =
          faction.Flags ||| FACTION_FLAG_AT_WAR) ↔
      Restorable W e faction := by
  obtain ⟨visible, atWar, inactive, hflags, hreach⟩ := hlegal
  have hwar := withFlags_atWar (fresh W e).Flags visible atWar inactive true
  rw [if_pos rfl] at hwar
  rw [Restorable, loadState_flags hflags hreach, has_of_flags hflags, has_of_flags hflags,
    has_of_flags hflags, has_of_flags rfl, has_of_flags rfl, hasFlags_visible, hasFlags_atWar,
    hasFlags_inactive, hflags, hwar, withFlags_inj, withFlags_inj]
  generalize forcesWar W e faction = forces,
    hasFlags (fresh W e).Flags FACTION_FLAG_AT_WAR = defaultWar,
    hasFlags (fresh W e).Flags FACTION_FLAG_INACTIVE = defaultAway
  clear hflags hreach hwar
  revert visible atWar inactive forces defaultWar defaultAway
  decide

end ReputationMgr

namespace Session
open ReputationMgr

variable {W : World ρ} {s t : Session} {e : FactionEntry ρ}

theorem start_allLegal (W : World ρ) (rows : Rows) : AllLegal W (start rows).mgr := by
  intro index faction hstate
  rw [start, ReputationMgr.empty, AList.lookup_empty] at hstate
  cases hstate

theorem step_allLegal {call : Call} (h : AllLegal W s.mgr) (hstep : s.step W call = some t) :
    AllLegal W t.mgr := by
  cases call with
  | setReputation faction standing incremental noSpillover =>
    rw [step] at hstep
    cases hentry : W.store.lookupEntry faction with
    | none =>
      rw [hentry] at hstep
      obtain rfl := Option.some.inj hstep
      exact h
    | some e =>
      rw [hentry] at hstep
      obtain ⟨⟨res, mgr⟩, hset, hstep⟩ := Option.bind_eq_some_iff.mp hstep
      obtain rfl := Option.some.inj hstep
      exact (keepsLegal_closed W).setReputation (FactionStore.mem_of_lookupEntry hentry).1 hset h
  | setVisible faction =>
    rw [step] at hstep
    cases hentry : W.store.lookupEntry faction with
    | none =>
      rw [hentry] at hstep
      obtain rfl := Option.some.inj hstep
      exact h
    | some e =>
      rw [hentry] at hstep
      obtain rfl := Option.some.inj hstep
      exact setVisible_keepsLegal s.mgr e h
  | setVisibleTemplate faction =>
    obtain rfl := Option.some.inj hstep
    exact setVisibleTemplate_keepsLegal s.mgr faction h
  | setAtWar index on =>
    obtain rfl := Option.some.inj hstep
    exact setAtWar_keepsLegal s.mgr index on h
  | setInactive index on =>
    obtain rfl := Option.some.inj hstep
    exact setInactive_keepsLegal s.mgr index on h
  | saveToDB =>
    obtain rfl := Option.some.inj hstep
    exact (saveToDB_alike s.mgr s.rows).keepsLegal h
  | loadFromDB =>
    obtain rfl := Option.some.inj hstep
    exact loadFromDB_legal W s.rows

/-- Whatever the rows say, a faction keeps the flags that no call changes, and has of the others only
what its default flags allow. -/
theorem flags_run {rows : Rows} {calls : List Call}
    (h : calls.foldlM (step W) (start rows) = some s) :
    ∀ e ∈ W.store.entries, ∀ faction, s.mgr.getState e = some faction →
      faction.Flags &&& FIXED_FLAGS = (fresh W e).Flags &&& FIXED_FLAGS ∧
        Reaches (fresh W e).Flags (faction.has FACTION_FLAG_VISIBLE)
          (faction.has FACTION_FLAG_AT_WAR) (faction.has FACTION_FLAG_INACTIVE) := by
  have hlegal : AllLegal W s.mgr := (Run.of_foldlM h).invariant (fun s => AllLegal W s.mgr)
    (start_allLegal W rows) fun _ _ _ h _ hstep => step_allLegal h hstep
  intro e he faction hget
  rw [ReputationMgr.getState] at hget
  split at hget
  · rename_i hcan
    obtain ⟨e', he', -, hindex, visible, atWar, inactive, hflags, hreach⟩ := hlegal _ _ hget
    obtain rfl := FactionStore.eq_of_repListID he he' hcan hindex.symm
    constructor
    · have hmarks : marks visible atWar inactive &&& FIXED_FLAGS = 0 := by
        clear hflags hreach
        revert visible atWar inactive
        decide
      rw [hflags, withFlags_and, hmarks, UInt8.or_zero, UInt8.and_self]
    · rw [has_of_flags hflags, has_of_flags hflags, has_of_flags hflags, hasFlags_visible,
        hasFlags_atWar, hasFlags_inactive]
      exact hreach
  · cases hget

theorem flags_run_sisters :
    let s := (sistersCalls.foldlM (step sisters) (start ∅)).getD (start ∅)
    ∀ e ∈ sisters.store.entries, ∀ faction, s.mgr.getState e = some faction →
      faction.Flags &&& FIXED_FLAGS = (fresh sisters e).Flags &&& FIXED_FLAGS ∧
        Reaches (fresh sisters e).Flags (faction.has FACTION_FLAG_VISIBLE)
          (faction.has FACTION_FLAG_AT_WAR) (faction.has FACTION_FLAG_INACTIVE) := by
  intro s
  have h : sistersCalls.foldlM (step sisters) (start ∅) = some s := rfl
  exact flags_run h

/-- Where the ids of the factions fit into the column of the rows, a state that is saved and loaded
again is as it was exactly if it is `Restorable`. -/
theorem relog_iff {rows : Rows} {calls : List Call}
    (h : calls.foldlM (step W) (start rows) = some s)
    (hfits : ∀ e ∈ W.store.entries, e.canHaveReputation → e.ID.toNat < 2 ^ 16) :
    ∀ e ∈ W.store.entries, ∀ faction, s.mgr.getState e = some faction →
      ((∃ faction', (loadFromDB W (s.mgr.saveToDB s.rows).2).getState e = some faction' ∧
        Restored W e faction faction') ↔ Restorable W e faction) := by
  have hrun := Run.of_foldlM h
  have hsound : Sound W s := hrun.invariant (Sound W) (start_sound W rows)
    fun _ _ _ h _ hstep => h.step hfits hstep
  have hlegal : AllLegal W s.mgr := hrun.invariant (fun s => AllLegal W s.mgr)
    (start_allLegal W rows) fun _ _ _ h _ hstep => step_allLegal h hstep
  intro e he faction hget
  rw [ReputationMgr.getState] at hget
  split at hget
  · rename_i hcan
    obtain ⟨e', he', -, hindex, hflags⟩ := hlegal _ _ hget
    obtain rfl := FactionStore.eq_of_repListID he he' hcan hindex.symm
    have hid := (hsound.counted.canHave he hget).2
    -- the row of the state, also where it was not to be saved
    have hrow : (s.mgr.saveToDB s.rows).2.lookup e.ID.toUInt16 =
        some ⟨faction.Standing, faction.Flags.toUInt16⟩ := by
      have halike := (saveToDB_alike s.mgr s.rows).state e.repListID
      rw [hget] at halike
      obtain ⟨after, hafter, hsame⟩ := Option.map_eq_some_iff.mp halike
      obtain ⟨hafterID, hrest⟩ := Prod.mk.inj hsame
      obtain ⟨hafterStanding, hafterFlags⟩ := Prod.mk.inj hrest
      have hsaved := saveToDB_rows hsound.counted hfits hsound.upToDate _ _ hafter
      rw [hafterID, hid, hafterStanding, hafterFlags] at hsaved
      exact hsaved
    have hkey := toUInt32_toUInt16 (hfits e he hcan)
    have hloaded := loadFromDB_row (W := W) he hcan hrow hkey
    have hstanding := ((loadFromDB_read W (s.mgr.saveToDB s.rows).2).read e he _
      (Assoc.mem_entries_iff.mpr hrow) hkey _ hloaded).1
    rw [← flags_restored_iff hflags]
    constructor
    · rintro ⟨faction', hget', hrestored⟩
      rw [ReputationMgr.getState, if_pos hcan, hloaded] at hget'
      obtain rfl := Option.some.inj hget'
      exact hrestored.2
    · intro hrestored
      refine ⟨_, ?_, hstanding, hrestored⟩
      rw [ReputationMgr.getState, if_pos hcan, hloaded]
  · cases hget

theorem relog_iff_sisters :
    let s := (sistersCalls.foldlM (step sisters) (start ∅)).getD (start ∅)
    ∀ e ∈ sisters.store.entries, ∀ faction, s.mgr.getState e = some faction →
      ((∃ faction', (loadFromDB sisters (s.mgr.saveToDB s.rows).2).getState e = some faction' ∧
        Restored sisters e faction faction') ↔ Restorable sisters e faction) := by
  intro s
  have h : sistersCalls.foldlM (step sisters) (start ∅) = some s := rfl
  exact relog_iff h (by decide)

def flagged (flags : UInt16) : FactionEntry Int := { listed 21 0 0 with ReputationFlags _ := flags }

def alone (flags : UInt16) : World Int where
  player := ⟨1, 1⟩
  store := ⟨[flagged flags], List.nodup_singleton _, List.nodup_singleton _⟩
  spillovers := ∅
  teamLists := ∅
  floats := wholeFloats

/-- A faction that is inactive by default, and one that is at war by default without being seen, are
so again after a relog. -/
theorem not_relogged :
    (∃ s faction faction', [Call.loadFromDB, .setInactive 0 false].foldlM (step (alone 0x21))
        (start ∅) = some s ∧
      s.mgr.getState (flagged 0x21) = some faction ∧
      (loadFromDB (alone 0x21) (s.mgr.saveToDB s.rows).2).getState (flagged 0x21) = some faction' ∧
      faction.Flags = 0x01 ∧ faction'.Flags = 0x21 ∧
      ¬ Restored (alone 0x21) (flagged 0x21) faction faction') ∧
    ∃ s faction faction', [Call.loadFromDB, .setAtWar 0 false].foldlM (step (alone 0x02))
        (start ∅) = some s ∧
      s.mgr.getState (flagged 0x02) = some faction ∧
      (loadFromDB (alone 0x02) (s.mgr.saveToDB s.rows).2).getState (flagged 0x02) = some faction' ∧
      faction.Flags = 0x00 ∧ faction'.Flags = 0x02 ∧
      ¬ Restored (alone 0x02) (flagged 0x02) faction faction' := by
  refine ⟨⟨_, ⟨21, 0, 0, 0x01, true, true⟩, ⟨21, 0, 0, 0x21, true, true⟩, rfl, ?_⟩,
    ⟨_, ⟨21, 0, 0, 0x00, true, true⟩, ⟨21, 0, 0, 0x02, true, true⟩, rfl, ?_⟩⟩
  · decide +kernel
  · decide +kernel

end Session

end Ashamane.Reputation
