import Mathlib.Data.List.Nodup
import Mathlib.Data.List.Perm.Basic
import Mathlib.Data.List.Range

/-! Ids handed out from a list of released ones or, when it is empty, past the highest one.
A release of the highest id lowers it; the ids are words below `limit`. -/
namespace Ashamane.Lib

structure IdPool where
  free : List Nat
  max : Nat
  deriving DecidableEq, Repr

namespace IdPool

variable (limit : Nat)

def get (pool : IdPool) : Nat × IdPool :=
  match pool.free with
  | [] => ((pool.max + 1) % limit, { pool with max := (pool.max + 1) % limit })
  | id :: free => (id, { pool with free })

def release (pool : IdPool) (id : Nat) : IdPool :=
  if id = pool.max then { pool with max := (pool.max + limit - 1) % limit }
  else { pool with free := pool.free ++ [id] }

def getMany (pool : IdPool) : Nat → List Nat × IdPool
  | 0 => ([], pool)
  | n + 1 =>
    let (id, pool) := pool.get limit
    let (ids, pool) := getMany pool n
    (id :: ids, pool)

def releaseMany (pool : IdPool) (ids : List Nat) : IdPool := ids.foldl (release limit) pool

def ofUsed (ids : List Nat) : IdPool :=
  let max := ids.foldr Nat.max 0
  { free := (List.range' 1 (max - 1)).filter fun id => id ∉ ids, max }

structure Distinct (pool : IdPool) (live : List Nat) : Prop where
  nodup : live.Nodup
  pos : ∀ id ∈ live, 1 ≤ id
  le_max : ∀ id ∈ live, id ≤ pool.max
  not_free : ∀ id ∈ live, id ∉ pool.free

structure Healthy (pool : IdPool) (live : List Nat) : Prop extends Distinct pool live where
  free_nodup : pool.free.Nodup
  free_pos : ∀ id ∈ pool.free, 1 ≤ id
  free_le_max : ∀ id ∈ pool.free, id ≤ pool.max
  max_lt : pool.max < limit

def room (pool : IdPool) : Nat := pool.free.length + (limit - 1 - pool.max)

variable {limit} {pool : IdPool} {live live' : List Nat} {id : Nat}

theorem Healthy.perm (h : Healthy limit pool live) (hp : live.Perm live') :
    Healthy limit pool live' where
  nodup := hp.nodup_iff.mp h.nodup
  pos id hid := h.pos id (hp.mem_iff.mpr hid)
  le_max id hid := h.le_max id (hp.mem_iff.mpr hid)
  not_free id hid := h.not_free id (hp.mem_iff.mpr hid)
  free_nodup := h.free_nodup
  free_pos := h.free_pos
  free_le_max := h.free_le_max
  max_lt := h.max_lt

theorem Healthy.get (h : Healthy limit pool live) (hroom : 0 < pool.room limit) :
    Healthy limit (pool.get limit).2 ((pool.get limit).1 :: live) := by
  obtain ⟨free, max⟩ := pool
  cases free with
  | nil =>
    have hlt : max + 1 < limit := by
      simp only [room, List.length_nil] at hroom
      omega
    have hnext : (max + 1) % limit = max + 1 := Nat.mod_eq_of_lt hlt
    have hle : ∀ id ∈ live, id ≤ max := h.le_max
    simp only [IdPool.get, hnext]
    exact
      { nodup := List.nodup_cons.mpr ⟨fun hin => by have := hle _ hin; omega, h.nodup⟩
        pos := List.forall_mem_cons.mpr ⟨Nat.le_add_left 1 max, h.pos⟩
        le_max := List.forall_mem_cons.mpr ⟨Nat.le_refl _, fun id hid => Nat.le_succ_of_le (hle id hid)⟩
        not_free := fun _ _ => List.not_mem_nil
        free_nodup := List.nodup_nil
        free_pos := fun _ hid => absurd hid List.not_mem_nil
        free_le_max := fun _ hid => absurd hid List.not_mem_nil
        max_lt := hlt }
  | cons id free =>
    have hnodup := List.nodup_cons.mp h.free_nodup
    have hnew : id ∉ live := fun hin => h.not_free id hin (List.mem_cons_self ..)
    exact
      { nodup := List.nodup_cons.mpr ⟨hnew, h.nodup⟩
        pos := List.forall_mem_cons.mpr ⟨h.free_pos id (List.mem_cons_self ..), h.pos⟩
        le_max := List.forall_mem_cons.mpr ⟨h.free_le_max id (List.mem_cons_self ..), h.le_max⟩
        not_free := List.forall_mem_cons.mpr ⟨hnodup.1,
          fun j hj hin => h.not_free j hj (List.mem_cons_of_mem _ hin)⟩
        free_nodup := hnodup.2
        free_pos := fun j hj => h.free_pos j (List.mem_cons_of_mem _ hj)
        free_le_max := fun j hj => h.free_le_max j (List.mem_cons_of_mem _ hj)
        max_lt := h.max_lt }

theorem Healthy.room_get (h : Healthy limit pool live) (hroom : 0 < pool.room limit) :
    (pool.get limit).2.room limit + 1 = pool.room limit := by
  obtain ⟨free, max⟩ := pool
  cases free with
  | nil =>
    simp only [room, List.length_nil] at hroom
    have hnext : (max + 1) % limit = max + 1 := Nat.mod_eq_of_lt (by omega)
    simp only [IdPool.get, hnext, room, List.length_nil]
    omega
  | cons id free =>
    simp only [IdPool.get, room, List.length_cons]
    omega

/-- An id that was in use is free again, or past the highest one. -/
theorem Healthy.release (h : Healthy limit pool (id :: live)) :
    Healthy limit (pool.release limit id) live := by
  have hnodup := List.nodup_cons.mp h.nodup
  have hpos := h.pos id (List.mem_cons_self ..)
  have hle := h.le_max id (List.mem_cons_self ..)
  have hlive : ∀ j ∈ live, j ≠ id := by
    rintro j hj rfl
    exact hnodup.1 hj
  have hfree : ∀ j ∈ pool.free, j ≠ id := by
    rintro j hj rfl
    exact h.not_free j (List.mem_cons_self ..) hj
  have hmax := h.max_lt
  by_cases hid : id = pool.max
  · have hdown : (pool.max + limit - 1) % limit = pool.max - 1 := by
      have hsum : pool.max + limit - 1 = pool.max - 1 + limit := by omega
      rw [hsum, Nat.add_mod_right, Nat.mod_eq_of_lt (by omega)]
    rw [IdPool.release, if_pos hid, hdown]
    exact
      { nodup := hnodup.2
        pos := fun j hj => h.pos j (List.mem_cons_of_mem _ hj)
        le_max := fun j hj => by
          have hj' := h.le_max j (List.mem_cons_of_mem _ hj)
          have hne := hlive j hj
          show j ≤ pool.max - 1
          omega
        not_free := fun j hj => h.not_free j (List.mem_cons_of_mem _ hj)
        free_nodup := h.free_nodup
        free_pos := h.free_pos
        free_le_max := fun j hj => by
          have hj' := h.free_le_max j hj
          have hne := hfree j hj
          show j ≤ pool.max - 1
          omega
        max_lt := by
          show pool.max - 1 < limit
          omega }
  · rw [IdPool.release, if_neg hid]
    exact
      { nodup := hnodup.2
        pos := fun j hj => h.pos j (List.mem_cons_of_mem _ hj)
        le_max := fun j hj => h.le_max j (List.mem_cons_of_mem _ hj)
        not_free := fun j hj hin => by
          rcases List.mem_append.mp hin with hin | hin
          · exact h.not_free j (List.mem_cons_of_mem _ hj) hin
          · exact hlive j hj (List.mem_singleton.mp hin)
        free_nodup := by
          refine List.nodup_append.mpr ⟨h.free_nodup, List.nodup_singleton id, ?_⟩
          intro j hj k hk
          rw [List.mem_singleton.mp hk]
          exact hfree j hj
        free_pos := fun j hj => by
          rcases List.mem_append.mp hj with hj | hj
          · exact h.free_pos j hj
          · rw [List.mem_singleton.mp hj]
            exact hpos
        free_le_max := fun j hj => by
          rcases List.mem_append.mp hj with hj | hj
          · exact h.free_le_max j hj
          · rw [List.mem_singleton.mp hj]
            exact hle
        max_lt := h.max_lt }

theorem Healthy.getMany {n : Nat} (h : Healthy limit pool live) (hroom : n ≤ pool.room limit) :
    Healthy limit (pool.getMany limit n).2 ((pool.getMany limit n).1 ++ live) := by
  induction n generalizing pool live with
  | zero => exact h
  | succ n ih =>
    have hone := h.get (by omega)
    have hleft := h.room_get (by omega)
    have hrest := ih hone (by omega)
    exact hrest.perm List.perm_middle

theorem Healthy.releaseMany {ids : List Nat} (h : Healthy limit pool (ids ++ live)) :
    Healthy limit (pool.releaseMany limit ids) live := by
  induction ids generalizing pool with
  | nil => exact h
  | cons id ids ih =>
    have hone : Healthy limit (pool.release limit id) (ids ++ live) := h.release
    exact ih hone

theorem length_getMany (pool : IdPool) (n : Nat) : (pool.getMany limit n).1.length = n := by
  induction n generalizing pool with
  | zero => rfl
  | succ n ih => exact congrArg (· + 1) (ih _)

theorem mem_getMany_free {l : List Nat} (hfree : pool.free = l ++ [id]) :
    id ∈ (pool.getMany limit (l.length + 1)).1 := by
  obtain ⟨free, max⟩ := pool
  induction l generalizing free with
  | nil =>
    obtain rfl : free = [id] := hfree
    exact List.mem_cons_self ..
  | cons j l ih =>
    obtain rfl : free = j :: (l ++ [id]) := hfree
    exact List.mem_cons_of_mem _ (ih (l ++ [id]) rfl)

theorem healthy_ofUsed {ids : List Nat} (hnodup : ids.Nodup)
    (hids : ∀ id ∈ ids, 1 ≤ id ∧ id < limit) (hlimit : 0 < limit) :
    Healthy limit (ofUsed ids) ids := by
  have hle : ∀ id ∈ ids, id ≤ ids.foldr Nat.max 0 := by
    clear hnodup hids
    induction ids with
    | nil => exact fun id hid => absurd hid List.not_mem_nil
    | cons j ids ih =>
      refine List.forall_mem_cons.mpr ⟨Nat.le_max_left _ _, fun id hid => ?_⟩
      exact Nat.le_trans (ih id hid) (Nat.le_max_right _ _)
  have hmax : ids.foldr Nat.max 0 < limit := by
    clear hnodup hle
    induction ids with
    | nil => exact hlimit
    | cons j ids ih =>
      obtain ⟨⟨_, hj⟩, hrest⟩ := List.forall_mem_cons.mp hids
      exact Nat.max_lt.mpr ⟨hj, ih hrest⟩
  have hfree : ∀ id ∈ (ofUsed ids).free, id ∉ ids ∧ 1 ≤ id ∧ id ≤ ids.foldr Nat.max 0 := by
    intro id hid
    obtain ⟨hrange, hnot⟩ := List.mem_filter.mp hid
    obtain ⟨hlow, hhigh⟩ := List.mem_range'_1.mp hrange
    exact ⟨of_decide_eq_true hnot, hlow, by omega⟩
  exact
    { nodup := hnodup
      pos := fun id hid => (hids id hid).1
      le_max := hle
      not_free := fun id hid hin => (hfree id hin).1 hid
      free_nodup := List.Nodup.filter _ List.nodup_range'
      free_pos := fun id hid => (hfree id hid).2.1
      free_le_max := fun id hid => (hfree id hid).2.2
      max_lt := hmax }

end IdPool

end Ashamane.Lib
