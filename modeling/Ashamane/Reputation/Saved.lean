import Ashamane.Lib.Run
import Ashamane.Reputation.Loaded

/-! Every run of a manager and its rows. -/
namespace Ashamane.Reputation
open Ashamane.Lib

variable {ρ : Type}

def FactionStore.Fits (store : FactionStore ρ) : Prop :=
  ∀ e ∈ store.entries, e.canHaveReputation → e.ID.toNat < 2 ^ 16

namespace ReputationMgr

variable {W : World ρ} {m m' : ReputationMgr} {e : FactionEntry ρ}
  {faction faction' : FactionState} {rows : Rows}

theorem toUInt32_toUInt16 {id : UInt32} (h : id.toNat < 2 ^ 16) : id.toUInt16.toUInt32 = id := by
  apply UInt32.toNat_inj.mp
  rw [UInt16.toNat_toUInt32, UInt32.toNat_toUInt16]
  exact Nat.mod_eq_of_lt h

theorem Counted.index_eq (h : m.Counted W) (hfits : W.store.Fits) {i j : UInt32}
    (hi : m.factions.lookup i = some faction) (hj : m.factions.lookup j = some faction')
    (hid : faction.ID.toUInt16 = faction'.ID.toUInt16) : i = j := by
  obtain ⟨e, he, hcan, rfl, hide⟩ := h.known i faction hi
  obtain ⟨e', he', hcan', rfl, hide'⟩ := h.known j faction' hj
  have heq := congrArg UInt16.toUInt32 hid
  rw [hide, hide', toUInt32_toUInt16 (hfits e he hcan), toUInt32_toUInt16 (hfits e' he' hcan')] at heq
  rw [FactionStore.eq_of_ID he he' heq]

def UpToDate (m : ReputationMgr) (rows : Rows) : Prop :=
  ∀ index faction, m.factions.lookup index = some faction → faction.needSave = false →
    rows.lookup faction.ID.toUInt16 = some ⟨faction.Standing, faction.Flags.toUInt16⟩

theorem Alike.refl (m : ReputationMgr) : Alike m m := ⟨fun _ => rfl, rfl, rfl, rfl, rfl⟩

theorem Alike.trans (h : Alike m m') {m'' : ReputationMgr} (h' : Alike m' m'') : Alike m m'' :=
  ⟨fun index => (h'.state index).trans (h.state index), h'.visible.trans h.visible,
    h'.honored.trans h.honored, h'.revered.trans h.revered, h'.exalted.trans h.exalted⟩

/-- What a turn of `SaveToDB` does to a state that is to be saved. -/
theorem saveFaction_some {s : ReputationMgr × Rows} {index : UInt32}
    (hstate : s.1.factions.lookup index = some faction) (hsave : faction.needSave = true) :
    (∀ other, (saveFaction s index).1.factions.lookup other =
      if other = index then some { faction with needSave := false }
      else s.1.factions.lookup other) ∧
    ∀ key, (saveFaction s index).2.lookup key =
      if key = faction.ID.toUInt16 then some ⟨faction.Standing, faction.Flags.toUInt16⟩
      else s.2.lookup key := by
  rw [saveFaction, hstate]
  simp only [hsave, if_true]
  refine ⟨fun other => Assoc.lookup_insert _ _ _ _, fun key => ?_⟩
  rw [Assoc.lookup_insert, Assoc.lookup_erase]
  split
  · rfl
  · rfl

theorem saveFaction_skip {s : ReputationMgr × Rows} {index : UInt32}
    (h : ∀ faction, s.1.factions.lookup index = some faction → faction.needSave = false) :
    saveFaction s index = s := by
  rw [saveFaction]
  cases hstate : s.1.factions.lookup index with
  | none => rfl
  | some faction =>
    simp only [h faction hstate, Bool.false_eq_true, if_false]

theorem needSave_or_skip (s : ReputationMgr × Rows) (index : UInt32) :
    (∃ faction, s.1.factions.lookup index = some faction ∧ faction.needSave = true) ∨
      (∀ faction, s.1.factions.lookup index = some faction → faction.needSave = false) := by
  cases s.1.factions.lookup index with
  | none => exact .inr nofun
  | some faction =>
    cases hsave : faction.needSave with
    | true => exact .inl ⟨faction, rfl, hsave⟩
    | false =>
      refine .inr fun other hother => ?_
      obtain rfl := Option.some.inj hother
      exact hsave

theorem saveFaction_alike (s : ReputationMgr × Rows) (index : UInt32) :
    Alike s.1 (saveFaction s index).1 := by
  rcases needSave_or_skip s index with ⟨faction, hstate, hsave⟩ | hskip
  · have hlookup := (saveFaction_some hstate hsave).1
    have hcounters : (saveFaction s index).1 =
        s.1.put index { faction with needSave := false } := by
      rw [saveFaction, hstate]
      simp only [hsave, if_true]
    refine ⟨fun other => ?_, by rw [hcounters]; rfl, by rw [hcounters]; rfl,
      by rw [hcounters]; rfl, by rw [hcounters]; rfl⟩
    rw [hlookup]
    split
    · rename_i heq
      rw [heq, hstate]
      rfl
    · rfl
  · rw [saveFaction_skip hskip]
    exact .refl s.1

theorem saveFactions_alike (indexes : List UInt32) (s : ReputationMgr × Rows) :
    Alike s.1 (indexes.foldl saveFaction s).1 := by
  induction indexes generalizing s with
  | nil => exact .refl s.1
  | cons index indexes ih => exact (saveFaction_alike s index).trans (ih _)

structure Saving (W : World ρ) (done : List UInt32) (s : ReputationMgr × Rows) : Prop where
  counted : s.1.Counted W
  upToDate : s.1.UpToDate s.2
  clean : ∀ index ∈ done, ∀ faction, s.1.factions.lookup index = some faction →
    faction.needSave = false

theorem Saving.step {done : List UInt32} {s : ReputationMgr × Rows} (h : Saving W done s)
    (hfits : W.store.Fits) (index : UInt32) : Saving W (done ++ [index]) (saveFaction s index) := by
  rcases needSave_or_skip s index with ⟨faction, hstate, hsave⟩ | hskip
  · obtain ⟨hlookup, hrows⟩ := saveFaction_some hstate hsave
    refine ⟨h.counted.alike (saveFaction_alike s index), fun other state hother hclean => ?_,
      fun other hother state hafter => ?_⟩
    · rw [hlookup] at hother
      rw [hrows]
      by_cases heq : other = index
      · rw [if_pos heq] at hother
        obtain rfl := Option.some.inj hother
        exact if_pos rfl
      · rw [if_neg heq] at hother
        have hne : state.ID.toUInt16 ≠ faction.ID.toUInt16 := fun hid =>
          heq (h.counted.index_eq hfits hother hstate hid)
        rw [if_neg hne]
        exact h.upToDate other state hother hclean
    · rw [hlookup] at hafter
      by_cases heq : other = index
      · rw [if_pos heq] at hafter
        obtain rfl := Option.some.inj hafter
        rfl
      · rw [if_neg heq] at hafter
        rcases List.mem_append.mp hother with hother | hother
        · exact h.clean other hother state hafter
        · exact absurd (List.mem_singleton.mp hother) heq
  · rw [saveFaction_skip hskip]
    refine ⟨h.counted, h.upToDate, fun other hother faction hstate => ?_⟩
    rcases List.mem_append.mp hother with hother | hother
    · exact h.clean other hother faction hstate
    · rw [List.mem_singleton.mp hother] at hstate
      exact hskip faction hstate

theorem saveToDB_alike (m : ReputationMgr) (rows : Rows) : Alike m (m.saveToDB rows).1 :=
  saveFactions_alike _ (m, rows)

theorem saveToDB_rows (h : m.Counted W) (hfits : W.store.Fits) (hrows : m.UpToDate rows) :
    ∀ index faction, (m.saveToDB rows).1.factions.lookup index = some faction →
      (m.saveToDB rows).2.lookup faction.ID.toUInt16 =
        some ⟨faction.Standing, faction.Flags.toUInt16⟩ := by
  have hsaving : ∀ (rest done : List UInt32) (s : ReputationMgr × Rows), Saving W done s →
      Saving W (done ++ rest) (rest.foldl saveFaction s) := by
    intro rest
    induction rest with
    | nil =>
      intro done s hs
      rw [List.append_nil]
      exact hs
    | cons index rest ih =>
      intro done s hs
      have hrest := ih (done ++ [index]) _ (hs.step hfits index)
      rw [List.append_assoc, List.singleton_append] at hrest
      exact hrest
  have hsaved := hsaving (m.factions.keys.insertionSort (· ≤ ·)) [] (m, rows) ⟨h, hrows, nofun⟩
  intro index faction hstate
  obtain ⟨before, hbefore, -⟩ := (saveToDB_alike m rows).lookup hstate
  have hkey : index ∈ m.factions.keys :=
    AList.mem_keys.mp (AList.lookup_isSome.mp (by rw [hbefore]; rfl))
  exact hsaved.upToDate index faction hstate
    (hsaved.clean index ((List.mem_insertionSort _).mpr hkey) faction hstate)

end ReputationMgr

inductive Call
  | setReputation (faction : UInt32) (standing : Int32) (incremental noSpillover : Bool)
  | setVisible (faction : UInt32)
  | setVisibleTemplate (faction : UInt32)
  | setAtWar (index : UInt32) (on : Bool)
  | setInactive (index : UInt32) (on : Bool)
  | saveToDB
  | loadFromDB

/-- A manager with its rows. `changed` are the indexes whose standing a call has changed, also before
it was saved and loaded again; `stored` are those that were `changed` at the last save. -/
structure Session where
  mgr : ReputationMgr
  rows : Rows
  changed : UInt32 → Bool
  stored : UInt32 → Bool

namespace Session

def start (rows : Rows) : Session := ⟨.empty, rows, fun _ => false, fun _ => false⟩

def standing (m : ReputationMgr) (index : UInt32) : Option Int32 :=
  (m.factions.lookup index).map FactionState.Standing

def follow (s : Session) (mgr : ReputationMgr) : Session :=
  { s with
    mgr
    changed := fun index => s.changed index || standing mgr index ≠ standing s.mgr index }

def step (W : World ρ) (s : Session) : Call → Option Session
  | .setReputation faction standing incremental noSpillover =>
    match W.store.lookupEntry faction with
    | none => some s
    | some factionEntry => do
      let (_, mgr) ← s.mgr.setReputation W factionEntry standing incremental noSpillover
      some (s.follow mgr)
  | .setVisible faction =>
    match W.store.lookupEntry faction with
    | none => some s
    | some factionEntry => some (s.follow (s.mgr.setVisible factionEntry))
  | .setVisibleTemplate faction => some (s.follow (s.mgr.setVisibleTemplate W faction))
  | .setAtWar index on => some (s.follow (s.mgr.setAtWar index on))
  | .setInactive index on => some (s.follow (s.mgr.setInactive index on))
  | .saveToDB =>
    let (mgr, rows) := s.mgr.saveToDB s.rows
    some { s with mgr, rows, stored := s.changed }
  | .loadFromDB =>
    some { s with mgr := .loadFromDB W s.rows, changed := s.stored }

variable {W : World ρ} {s t : Session}

open ReputationMgr

theorem step_cases {call : Call} (h : s.step W call = some t) :
    t = s ∨ (∃ mgr, Follows W s.mgr mgr ∧ t = s.follow mgr) ∨
      (t = { s with
        mgr := (s.mgr.saveToDB s.rows).1
        rows := (s.mgr.saveToDB s.rows).2
        stored := s.changed }) ∨
      t = { s with mgr := .loadFromDB W s.rows, changed := s.stored } := by
  cases call with
  | setReputation faction standing incremental noSpillover =>
    rw [step] at h
    cases hentry : W.store.lookupEntry faction with
    | none =>
      rw [hentry] at h
      exact .inl (Option.some.inj h).symm
    | some e =>
      rw [hentry] at h
      obtain ⟨⟨res, mgr⟩, hset, h⟩ := Option.bind_eq_some_iff.mp h
      exact .inr (.inl ⟨mgr,
        setReputation_follows (FactionStore.mem_of_lookupEntry hentry).1 hset,
        (Option.some.inj h).symm⟩)
  | setVisible faction =>
    rw [step] at h
    cases hentry : W.store.lookupEntry faction with
    | none =>
      rw [hentry] at h
      exact .inl (Option.some.inj h).symm
    | some e =>
      rw [hentry] at h
      exact .inr (.inl ⟨_, setVisible_follows (FactionStore.mem_of_lookupEntry hentry).1,
        (Option.some.inj h).symm⟩)
  | setVisibleTemplate faction =>
    exact .inr (.inl ⟨_, setVisibleTemplate_follows faction, (Option.some.inj h).symm⟩)
  | setAtWar index on => exact .inr (.inl ⟨_, setAtWar_follows index on, (Option.some.inj h).symm⟩)
  | setInactive index on =>
    exact .inr (.inl ⟨_, setInactive_follows index on, (Option.some.inj h).symm⟩)
  | saveToDB => exact .inr (.inr (.inl (Option.some.inj h).symm))
  | loadFromDB => exact .inr (.inr (.inr (Option.some.inj h).symm))

theorem step_counted {call : Call} (h : s.mgr.Counted W) (hstep : s.step W call = some t) :
    t.mgr.Counted W := by
  rcases step_cases hstep with rfl | ⟨mgr, hfollows, rfl⟩ | rfl | rfl
  · exact h
  · exact (hfollows h).1
  · exact h.alike (saveToDB_alike s.mgr s.rows)
  · exact (loadFromDB_read W s.rows).counted

structure Sound (W : World ρ) (s : Session) : Prop where
  counted : s.mgr.Counted W
  upToDate : s.mgr.UpToDate s.rows
  changed : ∀ e ∈ W.store.entries, s.changed e.repListID →
    ∃ faction, s.mgr.factions.lookup e.repListID = some faction ∧
      InRange (e.getBaseReputation W.player + faction.Standing)
  stored : ∀ e ∈ W.store.entries, s.stored e.repListID → e.canHaveReputation ∧
    ∃ row, s.rows.lookup e.ID.toUInt16 = some row ∧
      InRange (e.getBaseReputation W.player + row.standing)

theorem Sound.follow (h : Sound W s) {mgr : ReputationMgr} (hfollows : Follows W s.mgr mgr) :
    Sound W (s.follow mgr) := by
  obtain ⟨hcounted, hmoved⟩ := hfollows h.counted
  refine ⟨hcounted, fun index after hafter hsave => ?_, fun e he hchanged => ?_, h.stored⟩
  · have hrel := hmoved index
    rw [show mgr.factions.lookup index = some after from hafter] at hrel
    generalize hbefore : s.mgr.factions.lookup index = x at hrel
    cases hrel with
    | some hmove =>
      rcases hmove.save with hsaved | ⟨hstanding, hflags, hclean⟩
      · rw [hsave] at hsaved
        cases hsaved
      · rw [hmove.id, hstanding, hflags]
        exact h.upToDate index _ hbefore hclean
  · have hrel := hmoved e.repListID
    show ∃ faction, mgr.factions.lookup e.repListID = some faction ∧ _
    rw [Session.follow, Bool.or_eq_true, decide_eq_true_iff, standing, standing] at hchanged
    generalize hafter : mgr.factions.lookup e.repListID = y at hrel hchanged ⊢
    generalize hbefore : s.mgr.factions.lookup e.repListID = x at hrel hchanged
    cases hrel with
    | none =>
      rcases hchanged with hchanged | hchanged
      · obtain ⟨faction, hstate, -⟩ := h.changed e he hchanged
        rw [hbefore] at hstate
        cases hstate
      · exact absurd rfl hchanged
    | @some before after hmove =>
      refine ⟨after, rfl, ?_⟩
      rcases hmove.standing with hsame | hrange
      · rcases hchanged with hchanged | hchanged
        · obtain ⟨faction, hstate, hrange⟩ := h.changed e he hchanged
          obtain rfl := Option.some.inj (hbefore.symm.trans hstate)
          rw [hsame]
          exact hrange
        · exact absurd (congrArg some hsame) hchanged
      · exact hrange e he rfl

theorem Sound.save (h : Sound W s) (hfits : W.store.Fits) :
    Sound W { s with
      mgr := (s.mgr.saveToDB s.rows).1
      rows := (s.mgr.saveToDB s.rows).2
      stored := s.changed } := by
  have halike := saveToDB_alike s.mgr s.rows
  have hrows := saveToDB_rows h.counted hfits h.upToDate
  have hcounted := h.counted.alike halike
  have hstate : ∀ e ∈ W.store.entries, s.changed e.repListID →
      ∃ faction, (s.mgr.saveToDB s.rows).1.factions.lookup e.repListID = some faction ∧
        InRange (e.getBaseReputation W.player + faction.Standing) := by
    intro e he hchanged
    obtain ⟨before, hbefore, hrange⟩ := h.changed e he hchanged
    have hsame := halike.state e.repListID
    rw [hbefore] at hsame
    cases hafter : (s.mgr.saveToDB s.rows).1.factions.lookup e.repListID with
    | none =>
      rw [hafter] at hsame
      cases hsame
    | some after =>
      obtain ⟨faction, hlookup, -, hstanding, -⟩ := halike.lookup hafter
      obtain rfl := Option.some.inj (hbefore.symm.trans hlookup)
      exact ⟨after, rfl, by rw [hstanding]; exact hrange⟩
  refine ⟨hcounted, fun index faction hlookup _ => hrows index faction hlookup, hstate,
    fun e he hchanged => ?_⟩
  obtain ⟨faction, hlookup, hrange⟩ := hstate e he hchanged
  obtain ⟨hcan, hid⟩ := hcounted.canHave he hlookup
  have hrow := hrows _ _ hlookup
  rw [hid] at hrow
  exact ⟨hcan, _, hrow, hrange⟩

theorem Sound.load (h : Sound W s) (hfits : W.store.Fits) :
    Sound W { s with mgr := .loadFromDB W s.rows, changed := s.stored } := by
  have hread := loadFromDB_read W s.rows
  refine ⟨hread.counted, fun index faction hstate hsave => ?_, fun e he hstored => ?_, h.stored⟩
  · obtain ⟨e, he, hcan, rfl, hid⟩ := hread.counted.known index faction hstate
    -- the row must have been read
    obtain ⟨row, hrow, hkey⟩ : ∃ row ∈ s.rows.entries, row.1.toUInt32 = e.ID := by
      by_contra hnone
      have huntouched := hread.untouched e he (fun row hrow hkey => hnone ⟨row, hrow, hkey⟩)
        faction hstate
      exact absurd (huntouched.2.symm.trans hsave) (by decide)
    obtain ⟨hstanding, hflags⟩ := hread.read e he row hrow hkey faction hstate
    have hkey16 : row.1 = faction.ID.toUInt16 := by
      rw [hid, ← hkey]
      exact (UInt16.toUInt16_toUInt32 row.1).symm
    rw [← hkey16, hstanding, hflags hsave]
    exact Assoc.mem_entries_iff.mp hrow
  · obtain ⟨hcan, row, hrow, hrange⟩ := h.stored e he hstored
    obtain ⟨faction, hstate⟩ := hread.state e he hcan
    refine ⟨faction, hstate, ?_⟩
    rw [(hread.read e he ⟨_, row⟩ (Assoc.mem_entries_iff.mpr hrow)
      (toUInt32_toUInt16 (hfits e he hcan)) faction hstate).1]
    exact hrange

theorem Sound.step {call : Call} (h : Sound W s) (hfits : W.store.Fits)
    (hstep : s.step W call = some t) : Sound W t := by
  rcases step_cases hstep with rfl | ⟨mgr, hfollows, rfl⟩ | rfl | rfl
  · exact h
  · exact h.follow hfollows
  · exact h.save hfits
  · exact h.load hfits

theorem start_sound (W : World ρ) (rows : Rows) : Sound W (start rows) := by
  refine ⟨empty_counted W, fun index faction hstate => ?_,
    fun e _ hchanged => absurd hchanged Bool.false_ne_true,
    fun e _ hstored => absurd hstored Bool.false_ne_true⟩
  rw [start, ReputationMgr.empty, AList.lookup_empty] at hstate
  cases hstate

/-- In every run the counters are right in their eight bits; and where the ids of the factions fit
into the column of the rows, a standing that was changed stays between bottom and cap, and what is
not as in its row is to be saved. -/
theorem run_counted {rows : Rows} {calls : List Call}
    (h : calls.foldlM (step W) (start rows) = some s) :
    s.mgr.visibleFactionCount.toNat = W.store.entries.countP s.mgr.isVisible % 256 ∧
    s.mgr.honoredFactionCount.toNat =
      W.store.entries.countP (fun e => .honored ≤ s.mgr.getRank W e) % 256 ∧
    s.mgr.reveredFactionCount.toNat =
      W.store.entries.countP (fun e => .revered ≤ s.mgr.getRank W e) % 256 ∧
    s.mgr.exaltedFactionCount.toNat =
      W.store.entries.countP (fun e => .exalted ≤ s.mgr.getRank W e) % 256 ∧
    ((∀ e ∈ W.store.entries, e.canHaveReputation → e.ID.toNat < 2 ^ 16) → ∀ e ∈ W.store.entries,
      (s.changed e.repListID →
        Reputation_Bottom ≤ s.mgr.getReputation W e ∧
          s.mgr.getReputation W e ≤ Reputation_Cap) ∧
      ∀ state, s.mgr.getState e = some state →
        s.rows.lookup e.ID.toUInt16 ≠ some ⟨state.Standing, state.Flags.toUInt16⟩ →
          state.needSave = true) := by
  have hrun := Run.of_foldlM h
  have hcounted : s.mgr.Counted W := hrun.invariant (fun s => s.mgr.Counted W) (empty_counted W)
    fun _ _ _ h _ hstep => step_counted h hstep
  have hcount : ∀ {p : FactionEntry ρ → Bool} {count : UInt8}, Counts W.store p count →
      count.toNat = W.store.entries.countP p % 256 := by
    intro p count hcount
    rw [hcount]
    exact UInt8.toNat_ofNat'
  refine ⟨hcount hcounted.visible, hcount hcounted.honored, hcount hcounted.revered,
    hcount hcounted.exalted, fun hfits e he => ?_⟩
  have hsound : Sound W s := hrun.invariant (Sound W) (start_sound W rows)
    fun _ _ _ h _ hstep => h.step hfits hstep
  refine ⟨fun hchanged => ?_, fun state hget hdiffers => ?_⟩
  · obtain ⟨faction, hstate, hrange⟩ := hsound.changed e he hchanged
    rw [ReputationMgr.getReputation, hcounted.getState he hstate]
    exact hrange
  · cases hsave : state.needSave with
    | true => rfl
    | false =>
      rw [ReputationMgr.getState] at hget
      split at hget
      · have hrow := hsound.upToDate _ _ hget hsave
        rw [(hcounted.canHave he hget).2] at hrow
        exact absurd hrow hdiffers
      · cases hget

def listed (id : UInt32) (index : Int16) (base : Int32) : FactionEntry Int where
  ReputationRaceMask _ := 1
  ID := id
  ReputationBase _ := base
  ParentFactionMod _ := 1
  ReputationIndex := index
  ReputationClassMask _ := 0
  ReputationFlags _ := 1
  ParentFactionID := 20
  ParentFactionCap _ := 7

def wholeFloats : Floats Int where
  ofInt := Int32.toInt
  mul := (· * ·)
  toInt := Int32.ofInt
  isZero x := x = 0
  gain := id

def sisters : World Int where
  player := ⟨1, 1⟩
  store := ⟨[listed 21 0 0, listed 22 1 3000], by decide, by decide⟩
  spillovers := ∅
  teamLists := AList.insert 20 [21, 22] ∅
  floats := wholeFloats

def sistersCalls : List Call :=
  [.loadFromDB, .setReputation 21 41000 true false, .setAtWar 0 true, .saveToDB,
    .setReputation 22 (-50000) false true, .setInactive 1 true, .loadFromDB]

theorem run_counted_sisters :
    let s := (sistersCalls.foldlM (step sisters) (start ∅)).getD (start ∅)
    s.mgr.visibleFactionCount.toNat = sisters.store.entries.countP s.mgr.isVisible % 256 ∧
    s.mgr.honoredFactionCount.toNat =
      sisters.store.entries.countP (fun e => .honored ≤ s.mgr.getRank sisters e) % 256 ∧
    s.mgr.reveredFactionCount.toNat =
      sisters.store.entries.countP (fun e => .revered ≤ s.mgr.getRank sisters e) % 256 ∧
    s.mgr.exaltedFactionCount.toNat =
      sisters.store.entries.countP (fun e => .exalted ≤ s.mgr.getRank sisters e) % 256 ∧
    ((∀ e ∈ sisters.store.entries, e.canHaveReputation → e.ID.toNat < 2 ^ 16) →
      ∀ e ∈ sisters.store.entries,
      (s.changed e.repListID →
        Reputation_Bottom ≤ s.mgr.getReputation sisters e ∧
          s.mgr.getReputation sisters e ≤ Reputation_Cap) ∧
      ∀ state, s.mgr.getState e = some state →
        s.rows.lookup e.ID.toUInt16 ≠ some ⟨state.Standing, state.Flags.toUInt16⟩ →
          state.needSave = true) := by
  intro s
  have h : sistersCalls.foldlM (step sisters) (start ∅) = some s := rfl
  exact run_counted h

def visitor (i : Nat) : FactionEntry Int := listed (UInt32.ofNat (i + 1)) (Int16.ofNat i) 0

theorem visitors_ids : (((List.range 256).map visitor).map FactionEntry.ID).Nodup := by
  rw [List.map_map]
  refine List.nodup_range.map_on fun i hi j hj h => ?_
  have hnat := congrArg UInt32.toNat (show UInt32.ofNat (i + 1) = UInt32.ofNat (j + 1) from h)
  rw [UInt32.toNat_ofNat', UInt32.toNat_ofNat'] at hnat
  rw [List.mem_range] at hi hj
  omega

theorem visitors_indexes : ((((List.range 256).map visitor).filter
    FactionEntry.canHaveReputation).map FactionEntry.ReputationIndex).Nodup := by
  refine List.Nodup.sublist (List.filter_sublist.map _) ?_
  rw [List.map_map]
  refine List.nodup_range.map_on fun i hi j hj h => ?_
  have hword := congrArg Int16.toUInt16 (show Int16.ofNat i = Int16.ofNat j from h)
  have hnat := congrArg UInt16.toNat (show UInt16.ofNat i = UInt16.ofNat j from hword)
  rw [UInt16.toNat_ofNat', UInt16.toNat_ofNat'] at hnat
  rw [List.mem_range] at hi hj
  omega

def crowd : World Int where
  player := ⟨1, 1⟩
  store := ⟨(List.range 256).map visitor, visitors_ids, visitors_indexes⟩
  spillovers := ∅
  teamLists := ∅
  floats := wholeFloats

def namesakes : World Int where
  player := ⟨1, 1⟩
  store := ⟨[listed 1 0 0, listed 65537 1 0], by decide, by decide⟩
  spillovers := ∅
  teamLists := ∅
  floats := wholeFloats

/-- Without rows the visible factions are those that are so by default. -/
theorem countP_start (hcan : ∀ e ∈ W.store.entries, e.canHaveReputation = true)
    (hflags : ∀ e ∈ W.store.entries, (fresh W e).has FACTION_FLAG_VISIBLE = true) :
    W.store.entries.countP (ReputationMgr.start W).isVisible = W.store.entries.length := by
  refine List.countP_eq_length.mpr fun e he => ?_
  have hstate := (start_started W).state e he (hcan e he)
  have hget : (ReputationMgr.start W).getState e = some (fresh W e) := by
    rw [getState, if_pos (hcan e he), hstate]
  rw [isVisible_of_state hget]
  exact hflags e he

theorem load_start (W : World ρ) : [Call.loadFromDB].foldlM (step W) (start ∅) =
    some { start ∅ with mgr := ReputationMgr.start W } := rfl

theorem crowd_length : crowd.store.entries.length = 256 :=
  List.length_map _ |>.trans List.length_range

theorem crowd_start :
    crowd.store.entries.countP (ReputationMgr.start crowd).isVisible = 256 ∧
      (ReputationMgr.start crowd).visibleFactionCount = 0 := by
  have hcount := countP_start (W := crowd) (by decide +kernel) (by decide +kernel)
  rw [crowd_length] at hcount
  refine ⟨hcount, ?_⟩
  have hcounted := (start_started crowd).counted.visible
  rw [Counts, hcount] at hcounted
  exact hcounted

/-- The counter of the visible factions wraps, and a row is overwritten by that of another
faction. -/
theorem not_run_counted :
    (∃ s, [Call.loadFromDB].foldlM (step crowd) (start ∅) = some s ∧
      s.mgr.visibleFactionCount.toNat ≠ crowd.store.entries.countP s.mgr.isVisible) ∧
    ∃ s state, [.loadFromDB, .setReputation 1 100 false true, .saveToDB].foldlM (step namesakes)
        (start ∅) = some s ∧
      s.mgr.getState (listed 1 0 0) = some state ∧
      s.rows.lookup 1 ≠ some ⟨state.Standing, state.Flags.toUInt16⟩ ∧ state.needSave = false := by
  refine ⟨⟨{ start ∅ with mgr := ReputationMgr.start crowd }, load_start crowd, ?_⟩, ?_⟩
  · rw [crowd_start.1, crowd_start.2]
    decide
  · let s := ([.loadFromDB, .setReputation 1 100 false true, .saveToDB].foldlM (step namesakes)
      (start ∅)).getD (start ∅)
    have h : [.loadFromDB, .setReputation 1 100 false true, .saveToDB].foldlM (step namesakes)
        (start ∅) = some s := rfl
    have hstate : s.mgr.getState (listed 1 0 0) = some ⟨1, 0, 100, 1, false, false⟩ := by
      decide +kernel
    have hrow : s.rows.lookup 1 ≠ some ⟨100, 1⟩ := by decide +kernel
    exact ⟨s, _, h, hstate, hrow, rfl⟩

end Session

end Ashamane.Reputation
