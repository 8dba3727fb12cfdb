import Ashamane.Instances.FreshIds
import Mathlib.Algebra.Ring.Int.Defs
import Mathlib.Algebra.Ring.Nat
import Mathlib.Data.Finset.Image

/-! Every access to the vector of instance ids, with the numbers as wide as the code has them. -/
namespace Ashamane.Instances

open Lib

structure Registry where
  ids : InstanceIds
  inUse : Finset Nat

/-- A new capacity is chosen by the library when the vector needs more memory. -/
inductive Call where
  | generate (capacity : Nat)
  | free (instanceId : Nat)
  deriving DecidableEq, Repr

namespace Registry

def load (ids : List Nat) (capacity : Nat) : Option Registry :=
  (InstanceIds.loadResetTimes ids capacity).map fun s => ⟨s, ids.toFinset⟩

def step (s : Registry) : Call → Option Registry
  | .generate capacity =>
    (s.ids.generateId capacity).map fun r => ⟨r.2, insert r.1 s.inUse⟩
  | .free instanceId => (s.ids.freeId instanceId).map fun ids => ⟨ids, s.inUse.erase instanceId⟩

def Fits (s : Registry) : Call → Prop
  | .generate _ =>
    (s.ids.nextInstanceId < s.ids.instanceIds.length % 2 ^ 32 ∨
      s.ids.instanceIds.length < s.ids.capacity ∨
      s.ids.nextInstanceId = s.ids.instanceIds.length ∧ ¬32 ∣ s.ids.nextInstanceId ∧
        s.ids.nextInstanceId < 0xFFFFFFE0) ∧
    ((∃ i, s.ids.nextInstanceId < i ∧ i < 0xFFFFFFFF ∧ i ∉ s.inUse) ∨
      s.ids.nextInstanceId = 0xFFFFFFFE)
  | .free instanceId => instanceId ∈ s.inUse ∧ instanceId ≠ 0

structure Smallest (s : Registry) : Prop where
  pos : 1 ≤ s.ids.nextInstanceId
  unused : s.ids.nextInstanceId ∉ s.inUse
  below : ∀ i, 1 ≤ i → i < s.ids.nextInstanceId → i ∈ s.inUse

structure Consistent (s : Registry) : Prop where
  nonempty : 0 < s.ids.instanceIds.length
  marks : ∀ i, s.ids.Used i ↔ i ∈ s.inUse
  smallest : s.Smallest
  bound : ∀ i ∈ s.inUse, i < 0xFFFFFFFF

def Safe (s : Registry) : Call → Prop
  | .generate capacity => ∃ i ids, s.ids.generateId capacity = some (i, ids) ∧
      s.step (.generate capacity) = some ⟨ids, insert i s.inUse⟩ ∧ 1 ≤ i ∧ i ∉ s.inUse ∧ ids.Used i
  | .free instanceId => ∃ ids, s.step (.free instanceId) = some ⟨ids, s.inUse.erase instanceId⟩

end Registry

namespace Registry

variable {s t : Registry} {i capacity : Nat}

theorem Fits.next_lt (hfits : s.Fits (.generate capacity)) : s.ids.nextInstanceId < 0xFFFFFFFF := by
  rcases hfits.2 with ⟨i, hi, hlt, -⟩ | heq
  · exact Nat.lt_trans hi hlt
  · rw [heq]
    decide

theorem Consistent.sizeFor (h : s.Consistent) (hfits : s.Fits (.generate capacity)) :
    s.ids.nextInstanceId < s.ids.sizeFor s.ids.nextInstanceId ∧
      ∀ i ∈ s.inUse, i < s.ids.sizeFor s.ids.nextInstanceId := by
  have hmarked : ∀ i ∈ s.inUse, i < s.ids.instanceIds.length := fun i hi => ((h.marks i).mpr hi).lt
  suffices hsize : s.ids.nextInstanceId < s.ids.sizeFor s.ids.nextInstanceId ∧
      s.ids.instanceIds.length ≤ s.ids.sizeFor s.ids.nextInstanceId from
    ⟨hsize.1, fun i hi => Nat.lt_of_lt_of_le (hmarked i hi) hsize.2⟩
  have hnext : s.ids.nextInstanceId ≤ s.ids.instanceIds.length := by
    rcases Nat.eq_or_lt_of_le h.smallest.pos with heq | hlt
    · rw [← heq]
      exact h.nonempty
    · have hlast := h.smallest.below (s.ids.nextInstanceId - 1) (by omega) (by omega)
      have := hmarked _ hlast
      omega
  unfold InstanceIds.sizeFor
  have hmod := Nat.mod_le s.ids.instanceIds.length (2 ^ 32)
  rcases hfits.1 with hroom | hspare | ⟨hfull, hdvd, hlt⟩
  · rw [if_neg (Nat.not_le.mpr hroom)]
    exact ⟨Nat.lt_of_lt_of_le hroom hmod, Nat.le_refl _⟩
  · rw [if_pos hspare]
    split
    · exact ⟨Nat.lt_of_le_of_lt hnext hspare, Nat.le_of_lt hspare⟩
    · rename_i hhas
      exact ⟨Nat.lt_of_lt_of_le (Nat.not_le.mp hhas) hmod, Nat.le_refl _⟩
  · rw [← hfull] at hmod ⊢
    rw [if_pos hmod, if_pos (show 0 < s.ids.nextInstanceId % 32 by omega)]
    split
    · omega
    · rw [Nat.mod_eq_of_lt (by omega)]
      omega

theorem Consistent.nextAfter (h : s.Consistent) (hfits : s.Fits (.generate capacity)) :
    s.ids.nextInstanceId < s.ids.nextAfter s.ids.nextInstanceId ∧
      s.ids.nextAfter s.ids.nextInstanceId ∉ s.inUse ∧ ∀ i, s.ids.nextInstanceId < i →
        i < s.ids.nextAfter s.ids.nextInstanceId → i ∈ s.inUse := by
  have hmax := hfits.next_lt
  have hstart : (s.ids.nextInstanceId + 1) % 2 ^ 32 = s.ids.nextInstanceId + 1 :=
    Nat.mod_eq_of_lt (by omega)
  obtain ⟨hge, hunused, hbelow⟩ := s.ids.found_spec (s.ids.nextInstanceId + 1)
  rw [InstanceIds.nextAfter, hstart]
  split
  · exact ⟨hge, mt (h.marks _).mpr hunused, fun i hgt hlt => (h.marks i).mp (hbelow i hgt hlt)⟩
  · rename_i hno
    rcases hfits.2 with ⟨i, hi, hlt, hfree⟩ | heq
    · exact absurd ((h.marks i).mp (hbelow i hi (by omega))) hfree
    · refine ⟨Nat.lt_succ_self _, fun hmem => ?_, fun i hgt hlt => by omega⟩
      have := h.bound _ hmem
      omega

theorem Consistent.generate (h : s.Consistent) (hfits : s.Fits (.generate capacity)) :
    s.Safe (.generate capacity) ∧ ∀ t, s.step (.generate capacity) = some t → t.Consistent := by
  obtain ⟨hsize, hkept⟩ := h.sizeFor hfits
  obtain ⟨hgt, hunused, hbelow⟩ := h.nextAfter hfits
  have hmax := hfits.next_lt
  obtain ⟨ids, hids, hnext, hvector⟩ := InstanceIds.generateId_spec capacity hsize
  have hmarks : ∀ i, ids.Used i ↔ i ∈ insert s.ids.nextInstanceId s.inUse := by
    intro i
    rw [InstanceIds.Used, hvector, InstanceIds.used_set, InstanceIds.length_resize, getElem?_resize,
      Finset.mem_insert, ← h.marks]
    split
    · rename_i heq
      exact ⟨fun _ => .inl heq.symm, fun _ => ⟨hsize, rfl⟩⟩
    · rename_i hne
      constructor
      · exact fun hi => .inr hi.2
      · rintro (heq | hi)
        · exact absurd heq.symm hne
        · exact ⟨hkept i ((h.marks i).mp hi), hi⟩
  have hstep : s.step (.generate capacity) =
      some ⟨ids, insert s.ids.nextInstanceId s.inUse⟩ := by
    rw [step, hids]
    rfl
  refine ⟨⟨_, ids, hids, hstep, h.smallest.pos, h.smallest.unused,
    (hmarks _).mpr (Finset.mem_insert_self _ _)⟩, fun t ht => ?_⟩
  obtain rfl := Option.some.inj (hstep.symm.trans ht)
  refine ⟨?_, hmarks, ⟨?_, ?_, fun i hi hlt => ?_⟩, fun i hi => ?_⟩
  · dsimp only
    rw [hvector, List.length_set, InstanceIds.length_resize]
    omega
  · dsimp only
    rw [hnext]
    omega
  · dsimp only
    rw [hnext, Finset.mem_insert, not_or]
    exact ⟨Nat.ne_of_gt hgt, hunused⟩
  · dsimp only at hlt
    rw [hnext] at hlt
    rcases Nat.lt_trichotomy i s.ids.nextInstanceId with hlow | rfl | hhigh
    · exact Finset.mem_insert_of_mem (h.smallest.below i hi hlow)
    · exact Finset.mem_insert_self _ _
    · exact Finset.mem_insert_of_mem (hbelow i hhigh hlt)
  · rcases Finset.mem_insert.mp hi with rfl | hi
    · exact hmax
    · exact h.bound i hi

theorem Consistent.free (h : s.Consistent) (hfits : s.Fits (.free i)) :
    s.Safe (.free i) ∧ ∀ t, s.step (.free i) = some t → t.Consistent := by
  obtain ⟨hmem, hzero⟩ := hfits
  have hlt := ((h.marks i).mpr hmem).lt
  obtain ⟨ids, hids, hnext, hvector⟩ := InstanceIds.freeId_spec hlt
  have hstep : s.step (.free i) = some ⟨ids, s.inUse.erase i⟩ := by
    rw [step, hids]
    rfl
  refine ⟨⟨ids, hstep⟩, fun t ht => ?_⟩
  obtain rfl := Option.some.inj (hstep.symm.trans ht)
  have hmarks : ∀ j, ids.Used j ↔ j ∈ s.inUse.erase i := by
    intro j
    rw [InstanceIds.Used, hvector, InstanceIds.used_set, Finset.mem_erase, ← h.marks]
    split
    · rename_i heq
      exact ⟨fun hj => absurd hj.2 Bool.false_ne_true, fun hj => absurd heq.symm hj.1⟩
    · rename_i hne
      exact ⟨fun hj => ⟨Ne.symm hne, hj⟩, And.right⟩
  have hne : i ≠ s.ids.nextInstanceId := fun heq => h.smallest.unused (heq ▸ hmem)
  refine ⟨?_, hmarks, ⟨?_, ?_, fun j hj hjlt => ?_⟩, fun j hj =>
    h.bound j (Finset.mem_of_mem_erase hj)⟩
  · dsimp only
    rw [hvector, List.length_set]
    exact h.nonempty
  · have := h.smallest.pos
    dsimp only
    rw [hnext]
    split <;> omega
  · dsimp only
    rw [hnext, Finset.mem_erase]
    split
    · exact fun hi => hi.1 rfl
    · exact fun hi => h.smallest.unused hi.2
  · dsimp only at hjlt
    rw [hnext] at hjlt
    split at hjlt
    · exact Finset.mem_erase.mpr ⟨Nat.ne_of_lt hjlt, h.smallest.below j hj (by omega)⟩
    · exact Finset.mem_erase.mpr ⟨by omega, h.smallest.below j hj hjlt⟩

/-- Loading keeps the next id the smallest one that is not in use, as the ids come in ascending
order. -/
theorem consistent_loadRows {ids : List Nat} (hids : ids.Pairwise (· < ·)) {s : Registry}
    (h : s.Consistent) (hfirst : ∀ i ∈ s.inUse, ∀ j ∈ ids, i < j)
    (hfits : ∀ i ∈ ids, i < s.ids.instanceIds.length ∧ i < 0xFFFFFFE0) :
    ∃ ids', ids.foldlM InstanceIds.loadRow s.ids = some ids' ∧
      Consistent ⟨ids', s.inUse ∪ ids.toFinset⟩ := by
  induction ids generalizing s with
  | nil => exact ⟨s.ids, rfl, by simpa using h⟩
  | cons i ids ih =>
    obtain ⟨hless, hrest⟩ := List.pairwise_cons.mp hids
    obtain ⟨hlt, hmax⟩ := hfits i List.mem_cons_self
    obtain ⟨ids₁, hrow, hnext, hvector⟩ := InstanceIds.loadRow_spec hlt hmax
    have hmarks : ∀ j, ids₁.Used j ↔ j ∈ insert i s.inUse := by
      intro j
      rw [InstanceIds.Used, hvector, InstanceIds.used_set, Finset.mem_insert, ← h.marks]
      split
      · rename_i heq
        exact ⟨fun _ => .inl heq.symm, fun _ => ⟨hlt, rfl⟩⟩
      · rename_i hne
        exact ⟨.inr, fun hj => hj.resolve_left (Ne.symm hne)⟩
    have hconsistent : Consistent ⟨ids₁, insert i s.inUse⟩ := by
      refine ⟨?_, hmarks, ⟨?_, ?_, fun j hj hjlt => ?_⟩, fun j hj => ?_⟩
      · dsimp only
        rw [hvector, List.length_set]
        exact h.nonempty
      · have := h.smallest.pos
        dsimp only
        rw [hnext]
        split <;> omega
      · dsimp only
        rw [hnext, Finset.mem_insert, not_or]
        split
        · refine ⟨by omega, fun hmem => ?_⟩
          have := hfirst _ hmem i List.mem_cons_self
          omega
        · rename_i hne
          exact ⟨hne, h.smallest.unused⟩
      · dsimp only at hjlt
        rw [hnext] at hjlt
        rw [Finset.mem_insert]
        split at hjlt
        · rcases Nat.eq_or_lt_of_le (Nat.le_of_lt_succ hjlt) with heq | hlow
          · exact .inl heq
          · exact .inr (h.smallest.below j hj (by omega))
        · exact .inr (h.smallest.below j hj hjlt)
      · rcases Finset.mem_insert.mp hj with rfl | hj
        · omega
        · exact h.bound j hj
    have hfirst₁ : ∀ j ∈ insert i s.inUse, ∀ k ∈ ids, j < k := by
      intro j hj k hk
      rcases Finset.mem_insert.mp hj with rfl | hj
      · exact hless k hk
      · exact hfirst j hj k (List.mem_cons_of_mem i hk)
    have hlength : ids₁.instanceIds.length = s.ids.instanceIds.length := by
      rw [hvector, List.length_set]
    obtain ⟨ids', hrun, hfinal⟩ := ih hrest hconsistent hfirst₁ fun j hj =>
      ⟨hlength ▸ (hfits j (List.mem_cons_of_mem i hj)).1, (hfits j (List.mem_cons_of_mem i hj)).2⟩
    refine ⟨ids', ?_, ?_⟩
    · rw [List.foldlM_cons, hrow]
      exact hrun
    · have hunion : s.inUse ∪ (i :: ids).toFinset = insert i s.inUse ∪ ids.toFinset := by
        rw [List.toFinset_cons, Finset.union_insert, Finset.insert_union]
      rwa [hunion]

theorem le_getLast {ids : List Nat} (hids : ids.Pairwise (· < ·)) :
    ∀ i ∈ ids, i ≤ ids.getLast?.getD 0 := by
  intro i hi
  obtain ⟨front, last, rfl⟩ := (List.eq_nil_or_concat ids).resolve_left (List.ne_nil_of_mem hi)
  rw [List.concat_eq_append] at hi hids ⊢
  rw [List.getLast?_concat, Option.getD_some]
  rcases List.mem_append.mp hi with hfront | hlast
  · exact Nat.le_of_lt ((List.pairwise_append.mp hids).2.2 i hfront last (List.mem_singleton_self _))
  · exact Nat.le_of_eq (List.mem_singleton.mp hlast)

theorem load_spec {ids : List Nat} (hids : ids.Pairwise (· < ·)) (hmax : ∀ i ∈ ids, i < 0xFFFFFFE0)
    (capacity : Nat) : ∃ s, load ids capacity = some s ∧ s.inUse = ids.toFinset ∧ s.Consistent := by
  have hlast : ids.getLast?.getD 0 < 0xFFFFFFE0 := by
    cases h : ids.getLast? with
    | none => decide
    | some last => exact hmax last (List.mem_of_getLast? h)
  have hsize : (InstanceIds.initInstanceIds (ids.getLast?.getD 0) capacity).instanceIds.length =
      ids.getLast?.getD 0 / 32 * 32 + 32 := by
    rw [InstanceIds.initInstanceIds]
    dsimp only
    rw [InstanceIds.length_resize, Nat.mod_eq_of_lt (by omega)]
  have hnone : ∀ i, ¬(InstanceIds.initInstanceIds (ids.getLast?.getD 0) capacity).Used i := by
    intro i hi
    rw [InstanceIds.Used, InstanceIds.initInstanceIds, getElem?_resize] at hi
    exact nomatch hi.2
  have hempty : Consistent ⟨InstanceIds.initInstanceIds (ids.getLast?.getD 0) capacity, ∅⟩ := by
    refine ⟨?_, fun i => ⟨fun hi => absurd hi (hnone i), fun hi => absurd hi (Finset.notMem_empty i)⟩,
      ⟨Nat.le_refl 1, Finset.notMem_empty _, fun i hi hlt => ?_⟩,
      fun i hi => absurd hi (Finset.notMem_empty i)⟩
    · dsimp only
      omega
    · exact absurd hlt (Nat.not_lt.mpr hi)
  obtain ⟨s, hrun, hs⟩ := consistent_loadRows hids hempty
    (fun i hi => absurd hi (Finset.notMem_empty i)) fun i hi => by
      have := le_getLast hids i hi
      dsimp only
      exact ⟨by omega, hmax i hi⟩
  rw [Finset.empty_union] at hs
  refine ⟨⟨s, ids.toFinset⟩, ?_, rfl, hs⟩
  rw [load, InstanceIds.loadResetTimes, hrun]
  rfl

/-- The calls that are made, and the ids that come of them. -/
theorem accesses_run {ids : List Nat} (hids : ids.Pairwise (· < ·))
    (hmax : ∀ i ∈ ids, i < 0xFFFFFFE0) (capacity : Nat) :
    ∃ s, load ids capacity = some s ∧ s.inUse = ids.toFinset ∧ ∀ calls t,
      Run (fun s call t => s.step call = some t) Fits s calls t →
        t.Smallest ∧ ∀ call, t.Fits call → t.Safe call := by
  obtain ⟨s, hload, hids, hs⟩ := load_spec hids hmax capacity
  refine ⟨s, hload, hids, fun calls t hrun => ?_⟩
  have ht : t.Consistent := hrun.invariant Consistent hs fun s call u h hfits hstep => by
    cases call with
    | generate capacity => exact (h.generate hfits).2 u hstep
    | free i => exact (h.free hfits).2 u hstep
  refine ⟨ht.smallest, fun call hfits => ?_⟩
  cases call with
  | generate capacity => exact (ht.generate hfits).1
  | free i => exact (ht.free hfits).1

theorem accesses_run_two : ∃ s, load [1, 2, 4] 64 = some s ∧ s.inUse = [1, 2, 4].toFinset ∧
    ∀ calls t, Run (fun s call t => s.step call = some t) Fits s calls t →
      t.Smallest ∧ ∀ call, t.Fits call → t.Safe call :=
  accesses_run (by decide) (by decide) 64

/-- The ids 1 to 63 are in use, and the vector has 64 places and no memory to spare: it keeps its
size, and place 64 is written. -/
theorem accesses_fail_wholeWords :
    (load (List.range' 1 63) 64).isSome = true ∧
      ((load (List.range' 1 63) 64).bind fun s => s.step (.generate 128)).isNone = true := by
  decide +kernel

end Registry

end Ashamane.Instances
