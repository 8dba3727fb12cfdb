import Ashamane.Lib.Count
import Ashamane.Reputation.Manager

/-! The counters are the numbers of the factions that they stand for, in eight bits. -/
namespace Ashamane.Reputation
open Ashamane.Lib

variable {ρ : Type}

theorem FactionEntry.repListID_inj {e e' : FactionEntry ρ} (h : e.repListID = e'.repListID) :
    e.ReputationIndex = e'.ReputationIndex := by
  have hindex : e.ReputationIndex.toInt32 = e'.ReputationIndex.toInt32 := by
    rw [FactionEntry.repListID, FactionEntry.repListID] at h
    rcases hx : e.ReputationIndex.toInt32 with ⟨x⟩
    rcases hy : e'.ReputationIndex.toInt32 with ⟨y⟩
    rw [hx, hy] at h
    exact congrArg Int32.ofUInt32 h
  have h16 := congrArg Int32.toInt16 hindex
  simpa only [Int16.toInt16_toInt32] using h16

namespace FactionStore

variable {store : FactionStore ρ}

theorem nodup (store : FactionStore ρ) : store.entries.Nodup := store.ids.of_map _

theorem mem_of_lookupEntry {id : UInt32} {e : FactionEntry ρ} (h : store.lookupEntry id = some e) :
    e ∈ store.entries ∧ e.ID = id := by
  rw [lookupEntry] at h
  exact ⟨List.mem_of_find?_eq_some h, by simpa using List.find?_some h⟩

theorem eq_of_ID {e e' : FactionEntry ρ} (he : e ∈ store.entries) (he' : e' ∈ store.entries)
    (h : e.ID = e'.ID) : e = e' :=
  List.inj_on_of_nodup_map store.ids he he' h

theorem lookupEntry_ID {e : FactionEntry ρ} (he : e ∈ store.entries) :
    store.lookupEntry e.ID = some e := by
  cases h : store.lookupEntry e.ID with
  | none => exact absurd (List.find?_eq_none.mp h e he) (by simp)
  | some e' =>
    obtain ⟨hmem, hid⟩ := mem_of_lookupEntry h
    rw [eq_of_ID hmem he hid]

theorem eq_of_repListID {e e' : FactionEntry ρ} (he : e ∈ store.entries) (he' : e' ∈ store.entries)
    (hcan : e.canHaveReputation) (h : e.repListID = e'.repListID) : e = e' := by
  have hindex := FactionEntry.repListID_inj h
  have hcan' : e'.canHaveReputation = true := by
    rw [FactionEntry.canHaveReputation, ← hindex]
    exact hcan
  exact List.inj_on_of_nodup_map store.indexes (List.mem_filter.mpr ⟨he, hcan⟩)
    (List.mem_filter.mpr ⟨he', hcan'⟩) hindex

end FactionStore

def Counts (store : FactionStore ρ) (p : FactionEntry ρ → Bool) (count : UInt8) : Prop :=
  count = UInt8.ofNat (store.entries.countP p)

def one (b : Bool) : UInt8 := UInt8.ofNat b.toNat

theorem Counts.change {store : FactionStore ρ} {p p' : FactionEntry ρ → Bool} {count count' : UInt8}
    (h : Counts store p count) {e : FactionEntry ρ} (he : e ∈ store.entries)
    (hother : ∀ e' ∈ store.entries, e' ≠ e → p' e' = p e')
    (hcount : count' + one (p e) = count + one (p' e)) : Counts store p' count' := by
  have hchange := congrArg UInt8.ofNat (countP_change store.nodup he hother)
  rw [UInt8.ofNat_add, UInt8.ofNat_add] at hchange
  rw [Counts] at h ⊢
  rw [h] at hcount
  exact (UInt8.add_left_inj _).mp (hcount.trans hchange.symm)

theorem Counts.congr {store : FactionStore ρ} {p p' : FactionEntry ρ → Bool} {count : UInt8}
    (h : Counts store p count) (hp : ∀ e ∈ store.entries, p' e = p e) : Counts store p' count := by
  rw [Counts, h]
  exact congrArg UInt8.ofNat (List.countP_congr fun e he => by rw [hp e he])

namespace ReputationMgr

variable (W : World ρ)

def isVisible (m : ReputationMgr) (e : FactionEntry ρ) : Bool :=
  (m.getState e).any (·.has FACTION_FLAG_VISIBLE)

def isAtLeast (rank : ReputationRank) (m : ReputationMgr) (e : FactionEntry ρ) : Bool :=
  rank ≤ m.getRank W e

structure Counted (m : ReputationMgr) : Prop where
  known : ∀ index faction, m.factions.lookup index = some faction →
    ∃ e ∈ W.store.entries, e.canHaveReputation ∧ e.repListID = index ∧ faction.ID = e.ID
  visible : Counts W.store m.isVisible m.visibleFactionCount
  honored : Counts W.store (isAtLeast W .honored m) m.honoredFactionCount
  revered : Counts W.store (isAtLeast W .revered m) m.reveredFactionCount
  exalted : Counts W.store (isAtLeast W .exalted m) m.exaltedFactionCount

variable {W} {m m' : ReputationMgr} {e : FactionEntry ρ} {faction faction' : FactionState}

theorem Counted.canHave (h : m.Counted W) (he : e ∈ W.store.entries)
    (hstate : m.factions.lookup e.repListID = some faction) :
    e.canHaveReputation ∧ faction.ID = e.ID := by
  obtain ⟨e', he', hcan, hindex, hid⟩ := h.known _ _ hstate
  obtain rfl := FactionStore.eq_of_repListID he' he hcan hindex
  exact ⟨hcan, hid⟩

def rankIn (W : World ρ) (e : FactionEntry ρ) (faction : FactionState) : ReputationRank :=
  reputationToRank (e.getBaseReputation W.player + faction.Standing)

theorem isVisible_of_state (h : m.getState e = some faction) :
    m.isVisible e = faction.has FACTION_FLAG_VISIBLE := by
  rw [isVisible, h]
  rfl

theorem getRank_of_state (h : m.getState e = some faction) : m.getRank W e = rankIn W e faction := by
  rw [getRank, getReputation, h]
  rfl

theorem isAtLeast_of_state {rank : ReputationRank} (h : m.getState e = some faction) :
    isAtLeast W rank m e = decide (rank ≤ rankIn W e faction) := by
  rw [isAtLeast, getRank_of_state h]

theorem isVisible_of_none (h : m.getState e = none) : m.isVisible e = false := by
  rw [isVisible, h]
  rfl

theorem getRank_of_none (h : m.getState e = none) : m.getRank W e = .neutral := by
  rw [getRank, getReputation, h]
  rfl

structure Writes (W : World ρ) (m m' : ReputationMgr) (e : FactionEntry ρ)
    (faction : FactionState) : Prop where
  lookup : ∀ index, m'.factions.lookup index =
    if index = e.repListID then some faction else m.factions.lookup index
  id : faction.ID = e.ID
  visible : m'.visibleFactionCount + one (m.isVisible e) =
    m.visibleFactionCount + one (faction.has FACTION_FLAG_VISIBLE)
  honored : m'.honoredFactionCount + one (isAtLeast W .honored m e) =
    m.honoredFactionCount + one (decide (.honored ≤ rankIn W e faction))
  revered : m'.reveredFactionCount + one (isAtLeast W .revered m e) =
    m.reveredFactionCount + one (decide (.revered ≤ rankIn W e faction))
  exalted : m'.exaltedFactionCount + one (isAtLeast W .exalted m e) =
    m.exaltedFactionCount + one (decide (.exalted ≤ rankIn W e faction))

theorem Writes.getState_self (h : Writes W m m' e faction) (hcan : e.canHaveReputation) :
    m'.getState e = some faction := by
  rw [getState, if_pos hcan, h.lookup, if_pos rfl]

theorem Writes.getState_other (h : Writes W m m' e faction) (he : e ∈ W.store.entries)
    {e' : FactionEntry ρ} (he' : e' ∈ W.store.entries) (hne : e' ≠ e) :
    m'.getState e' = m.getState e' := by
  by_cases hcan' : e'.canHaveReputation = true
  · have hindex : e'.repListID ≠ e.repListID := fun hindex =>
      hne (FactionStore.eq_of_repListID he' he hcan' hindex)
    rw [getState, getState, if_pos hcan', if_pos hcan', h.lookup, if_neg hindex]
  · rw [getState, getState, if_neg hcan', if_neg hcan']

theorem Counted.writes (h : m.Counted W) (hw : Writes W m m' e faction)
    (hcan : e.canHaveReputation) (he : e ∈ W.store.entries) : m'.Counted W := by
  have hself := hw.getState_self hcan
  have hrank : ∀ rank, ∀ e' ∈ W.store.entries, e' ≠ e →
      isAtLeast W rank m' e' = isAtLeast W rank m e' := by
    intro rank e' he' hne
    rw [isAtLeast, isAtLeast, getRank, getRank, getReputation, getReputation,
      hw.getState_other he he' hne]
  refine ⟨?_, ?_, ?_, ?_, ?_⟩
  · intro index state hstate
    rw [hw.lookup] at hstate
    by_cases hindex : index = e.repListID
    · rw [if_pos hindex] at hstate
      obtain rfl := Option.some.inj hstate
      exact ⟨e, he, hcan, hindex.symm, hw.id⟩
    · rw [if_neg hindex] at hstate
      exact h.known index state hstate
  · refine h.visible.change he (fun e' he' hne => ?_) ?_
    · rw [isVisible, isVisible, hw.getState_other he he' hne]
    · rw [isVisible_of_state hself]
      exact hw.visible
  · refine h.honored.change he (hrank .honored) ?_
    rw [isAtLeast_of_state hself]
    exact hw.honored
  · refine h.revered.change he (hrank .revered) ?_
    rw [isAtLeast_of_state hself]
    exact hw.revered
  · refine h.exalted.change he (hrank .exalted) ?_
    rw [isAtLeast_of_state hself]
    exact hw.exalted

end ReputationMgr

end Ashamane.Reputation
