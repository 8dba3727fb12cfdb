import Ashamane.Lib.Run
import Mathlib.Algebra.Group.Nat.Defs
import Mathlib.Logic.Function.Basic

/-! The ids of instances: which ones are in use, the saves that hold them, and the maps that are
loaded with them. -/
namespace Ashamane.Instances

/-- `_nextInstanceId` and the vector `_instanceIds`, with its capacity. -/
structure InstanceIds where
  nextInstanceId : Nat := 1
  instanceIds : List Bool := []
  capacity : Nat := 0
  deriving DecidableEq, Repr

def resize (n : Nat) (ids : List Bool) : List Bool :=
  ids.take n ++ List.replicate (n - ids.length) false

/-- The loop of `GenerateInstanceId` over the ids from `i`: the first that is not in use. -/
def firstFree : List Bool → Nat → Nat
  | [], i => i
  | used :: rest, i => if used then firstFree rest (i + 1) else i

namespace InstanceIds

/-- An assignment to `_instanceIds[instanceId]`: beyond the vector it has no meaning. -/
def assign (s : InstanceIds) (instanceId : Nat) (used : Bool) : Option InstanceIds :=
  if instanceId < s.instanceIds.length then
    some { s with instanceIds := s.instanceIds.set instanceId used }
  else none

def initInstanceIds (maxId capacity : Nat) : InstanceIds :=
  let size := (maxId / 32 * 32 + 32) % 2 ^ 32
  { instanceIds := resize size [], capacity := max capacity size }

/-- A row of `LoadResetTimes`. -/
def loadRow (s : InstanceIds) (instanceId : Nat) : Option InstanceIds :=
  let s := if s.nextInstanceId = instanceId then
      { s with nextInstanceId := (instanceId + 1) % 2 ^ 32 } else s
  s.assign instanceId true

def loadResetTimes (ids : List Nat) (capacity : Nat) : Option InstanceIds :=
  ids.foldlM loadRow (initInstanceIds (ids.getLast?.getD 0) capacity)

/-- The size of the vector when `newInstanceId` is marked. -/
def sizeFor (s : InstanceIds) (newInstanceId : Nat) : Nat :=
  if s.instanceIds.length % 2 ^ 32 ≤ newInstanceId then
    if s.instanceIds.length < s.capacity then s.capacity
    else (newInstanceId / 32 * 32 + if 0 < newInstanceId % 32 then 32 else 0) % 2 ^ 32
  else s.instanceIds.length

/-- The loop of `GenerateInstanceId`. When no id below the largest is left, the next id stays where
it was moved to. It is never the new id again, so the check for the overflow finds nothing. -/
def nextAfter (s : InstanceIds) (newInstanceId : Nat) : Nat :=
  let start := (newInstanceId + 1) % 2 ^ 32
  let found := firstFree (s.instanceIds.drop start) start
  if found < 0xFFFFFFFF then found else start

def generateId (s : InstanceIds) (capacity : Nat) : Option (Nat × InstanceIds) :=
  let newInstanceId := s.nextInstanceId
  let size := s.sizeFor newInstanceId
  let s : InstanceIds :=
    { nextInstanceId := s.nextAfter newInstanceId
      instanceIds := resize size s.instanceIds
      capacity := if size ≤ s.capacity then s.capacity else max size capacity }
  (s.assign newInstanceId true).map fun s => (newInstanceId, s)

def freeId (s : InstanceIds) (instanceId : Nat) : Option InstanceIds :=
  let s := if instanceId < s.nextInstanceId then { s with nextInstanceId := instanceId } else s
  s.assign instanceId false

end InstanceIds

inductive MapKind where
  | dungeon
  | battleground
  | garrison
  deriving DecidableEq, Repr

/-- The ids, `m_instanceSaveById` (with the map of each save) and the `m_InstancedMaps` of the
maps. -/
structure State where
  ids : InstanceIds
  saves : Nat → Option Nat := fun _ => none
  maps : Nat → Nat → Bool := fun _ _ => false

/-- The entries of `CreateInstanceForPlayer` (a dungeon without and with a save, a battleground, a
garrison), the id of a new battleground, and the operations on saves and maps. A save is kept at a
reset when a player has extended it. -/
inductive Act where
  | enterNew (mapId capacity : Nat)
  | enterSaved (mapId instanceId : Nat)
  | enterBattleground (mapId battlegroundId : Nat)
  | enterGarrison (mapId guid : Nat)
  | createNewBattleground (capacity : Nat)
  | addInstanceSave (mapId instanceId : Nat)
  | removeInstanceSave (instanceId : Nat)
  | resetInstance (instanceId : Nat) (isExtended : Bool)
  | destroyInstance (mapId instanceId : Nat)
  deriving DecidableEq, Repr

namespace State

def load (s : State) (mapId instanceId : Nat) : State :=
  { s with
    maps := Function.update s.maps mapId (Function.update (s.maps mapId) instanceId true) }

def removeSave (s : State) (instanceId : Nat) : State :=
  { s with saves := Function.update s.saves instanceId none }

def addInstanceSave (s : State) (mapId instanceId : Nat) : State :=
  if (s.saves instanceId).isSome || instanceId == 0 then s
  else { s with saves := Function.update s.saves instanceId (some mapId) }

def freeId (s : State) (instanceId : Nat) : Option State :=
  (s.ids.freeId instanceId).map fun ids => { s with ids }

def resetInstance (s : State) (instanceId : Nat) (isExtended : Bool) : Option State :=
  (if isExtended then s else s.removeSave instanceId).freeId instanceId

def unload (s : State) (mapId instanceId : Nat) : State :=
  { s with
    maps := Function.update s.maps mapId (Function.update (s.maps mapId) instanceId false) }

def destroyInstance (kind : Nat → MapKind) (s : State) (mapId instanceId : Nat) : Option State :=
  if kind mapId = .battleground then (s.unload mapId instanceId).freeId instanceId
  else some (s.unload mapId instanceId)

def step (kind : Nat → MapKind) (s : State) : Act → Option State
  | .enterNew mapId capacity =>
    if kind mapId = .dungeon then
      (s.ids.generateId capacity).map fun r => { s with ids := r.2 }.load mapId r.1
    else none
  | .enterSaved mapId instanceId =>
    if kind mapId = .dungeon ∧ (s.saves instanceId).isSome then some (s.load mapId instanceId)
    else none
  | .enterBattleground mapId battlegroundId =>
    if kind mapId = .battleground then some (s.load mapId battlegroundId) else none
  | .enterGarrison mapId guid =>
    -- the counter of the guid has 40 bits, `newInstanceId` has 32
    if kind mapId = .garrison then some (s.load mapId (guid % 2 ^ 32)) else none
  | .createNewBattleground capacity =>
    (s.ids.generateId capacity).map fun r => { s with ids := r.2 }
  | .addInstanceSave mapId instanceId => some (s.addInstanceSave mapId instanceId)
  | .removeInstanceSave instanceId => some (s.removeSave instanceId)
  | .resetInstance instanceId isExtended => s.resetInstance instanceId isExtended
  | .destroyInstance mapId instanceId =>
    if s.maps mapId instanceId then s.destroyInstance kind mapId instanceId else none

end State

end Ashamane.Instances

/-! When a new instance id is one that nobody has. -/
namespace Ashamane.Instances

open Lib

theorem firstFree_spec (l : List Bool) (i : Nat) :
    i ≤ firstFree l i ∧ firstFree l i ≤ i + l.length ∧ l[firstFree l i - i]? ≠ some true := by
  induction l generalizing i with
  | nil => exact ⟨Nat.le_refl _, Nat.le_refl _, nofun⟩
  | cons used rest ih =>
    unfold firstFree
    split
    · obtain ⟨hge, hle, hfree⟩ := ih (i + 1)
      have hsub : firstFree rest (i + 1) - i = firstFree rest (i + 1) - (i + 1) + 1 := by omega
      rw [hsub, List.getElem?_cons_succ, List.length_cons]
      exact ⟨by omega, by omega, hfree⟩
    · rename_i hused
      refine ⟨Nat.le_refl _, Nat.le_add_right .., ?_⟩
      rw [Nat.sub_self, List.getElem?_cons_zero]
      exact fun h => hused (Option.some.inj h)

theorem firstFree_below (l : List Bool) {i j : Nat} (hle : i ≤ j) (hlt : j < firstFree l i) :
    l[j - i]? = some true := by
  induction l generalizing i with
  | nil => exact absurd hlt (Nat.not_lt.mpr hle)
  | cons used rest ih =>
    rw [firstFree] at hlt
    cases used with
    | false => exact absurd hlt (Nat.not_lt.mpr hle)
    | true =>
      rcases Nat.eq_or_lt_of_le hle with rfl | hlt'
      · rw [Nat.sub_self]
        rfl
      · have hsub : j - i = j - (i + 1) + 1 := by omega
        rw [hsub, List.getElem?_cons_succ]
        exact ih hlt' hlt

theorem getElem?_resize {n i : Nat} {ids : List Bool} :
    (resize n ids)[i]? = some true ↔ i < n ∧ ids[i]? = some true := by
  unfold resize
  rw [List.getElem?_append, List.length_take]
  split
  · rename_i hlt
    have hi : i < n := by omega
    rw [List.getElem?_take, if_pos hi]
    exact ⟨fun h => ⟨hi, h⟩, And.right⟩
  · rw [List.getElem?_replicate]
    constructor
    · intro h
      split at h <;> simp at h
    · rintro ⟨hn, hi⟩
      obtain ⟨hlt, -⟩ := List.getElem?_eq_some_iff.mp hi
      omega

namespace InstanceIds

variable {s t : InstanceIds} {i : Nat} {used : Bool}

def Used (s : InstanceIds) (i : Nat) : Prop := s.instanceIds[i]? = some true

theorem used_set {l : List Bool} {i j : Nat} {b : Bool} :
    (l.set i b)[j]? = some true ↔ if i = j then i < l.length ∧ b = true else l[j]? = some true := by
  rw [List.getElem?_set]
  split
  · rename_i heq
    subst heq
    by_cases hlt : i < l.length
    · simp [hlt]
    · simp [hlt]
  · exact Iff.rfl

theorem assign_spec (h : i < s.instanceIds.length) :
    s.assign i used = some { s with instanceIds := s.instanceIds.set i used } := if_pos h

theorem Used.lt (h : s.Used i) : i < s.instanceIds.length := (List.getElem?_eq_some_iff.mp h).1

theorem found_spec (s : InstanceIds) (start : Nat) :
    let found := firstFree (s.instanceIds.drop start) start
    start ≤ found ∧ ¬s.Used found ∧ ∀ i, start ≤ i → i < found → s.Used i := by
  obtain ⟨hge, -, hfree⟩ := firstFree_spec (s.instanceIds.drop start) start
  rw [List.getElem?_drop, Nat.add_sub_of_le hge] at hfree
  refine ⟨hge, hfree, fun i hle hlt => ?_⟩
  have hused := firstFree_below _ hle hlt
  rwa [List.getElem?_drop, Nat.add_sub_of_le hle] at hused

theorem length_resize (n : Nat) (l : List Bool) : (resize n l).length = n := by
  rw [resize, List.length_append, List.length_take, List.length_replicate]
  omega

theorem generateId_spec (capacity : Nat) (h : s.nextInstanceId < s.sizeFor s.nextInstanceId) :
    ∃ ids, s.generateId capacity = some (s.nextInstanceId, ids) ∧
      ids.nextInstanceId = s.nextAfter s.nextInstanceId ∧
      ids.instanceIds = (resize (s.sizeFor s.nextInstanceId) s.instanceIds).set
        s.nextInstanceId true := by
  rw [← length_resize (s.sizeFor s.nextInstanceId) s.instanceIds] at h
  rw [generateId, assign_spec h]
  exact ⟨_, rfl, rfl, rfl⟩

theorem loadRow_spec (h : i < s.instanceIds.length) (hmax : i < 0xFFFFFFE0) :
    ∃ ids, s.loadRow i = some ids ∧
      ids.nextInstanceId = (if s.nextInstanceId = i then i + 1 else s.nextInstanceId) ∧
      ids.instanceIds = s.instanceIds.set i true := by
  rw [loadRow, Nat.mod_eq_of_lt (by omega)]
  split
  · exact ⟨_, assign_spec h, rfl, rfl⟩
  · exact ⟨_, assign_spec h, rfl, rfl⟩

theorem freeId_spec (h : i < s.instanceIds.length) :
    ∃ ids, s.freeId i = some ids ∧
      ids.nextInstanceId = (if i < s.nextInstanceId then i else s.nextInstanceId) ∧
      ids.instanceIds = s.instanceIds.set i false := by
  rw [freeId]
  split
  · exact ⟨_, assign_spec h, rfl, rfl⟩
  · exact ⟨_, assign_spec h, rfl, rfl⟩

def Lowest (s : InstanceIds) : Prop := ¬s.Used s.nextInstanceId

theorem assign_eq (h : s.assign i used = some t) :
    i < s.instanceIds.length ∧ t = { s with instanceIds := s.instanceIds.set i used } := by
  obtain ⟨hlt, heq⟩ := Option.ite_none_right_eq_some.mp h
  exact ⟨hlt, (Option.some.inj heq).symm⟩

theorem free_spec (h : s.freeId i = some t) (hlow : s.Lowest) :
    t.Lowest ∧ t.nextInstanceId ≤ s.nextInstanceId ∧ ∀ j, j ≠ i → (t.Used j ↔ s.Used j) := by
  obtain ⟨hlt, -⟩ := assign_eq h
  have hlength : i < s.instanceIds.length := by
    split at hlt <;> exact hlt
  obtain ⟨ids, hids, hnext, hvector⟩ := freeId_spec hlength
  obtain rfl := Option.some.inj (h.symm.trans hids)
  refine ⟨?_, by rw [hnext]; split <;> omega, fun j hj => ?_⟩
  · unfold Lowest Used at *
    rw [hnext, hvector, used_set]
    by_cases hless : i < s.nextInstanceId
    · rw [if_pos hless, if_pos rfl]
      exact fun hused => absurd hused.2 Bool.false_ne_true
    · rw [if_neg hless]
      split
      · exact fun hused => absurd hused.2 Bool.false_ne_true
      · exact hlow
  · unfold Used
    rw [hvector, used_set, if_neg (Ne.symm hj)]

def Room (s : InstanceIds) : Prop := s.nextInstanceId < s.sizeFor s.nextInstanceId

theorem length_le_sizeFor (hlength : s.instanceIds.length < 2 ^ 32) (h : i < s.sizeFor i) :
    s.instanceIds.length ≤ s.sizeFor i := by
  unfold sizeFor at *
  rw [Nat.mod_eq_of_lt hlength] at *
  split
  · rename_i hle
    rw [if_pos hle] at h
    split
    · rename_i hspare
      exact Nat.le_of_lt hspare
    · rename_i hspare
      rw [if_neg hspare] at h
      exact Nat.le_of_lt (Nat.lt_of_le_of_lt hle h)
  · exact Nat.le_refl _

theorem generate_spec {capacity bound : Nat} (hbound : bound ≤ 0xFFFFFFFF) (hroom : s.Room)
    (hnext : s.nextInstanceId + 1 < bound) (hlength : s.instanceIds.length < bound)
    (hgenerate : s.generateId capacity = some (i, t)) :
    i = s.nextInstanceId ∧ t.Lowest ∧ (∀ j, t.Used j ↔ j = i ∨ s.Used j) ∧
      t.nextInstanceId < bound := by
  obtain ⟨ids, hids, hids_next, hvector⟩ := generateId_spec capacity hroom
  obtain ⟨rfl, rfl⟩ := Prod.mk.inj (Option.some.inj (hgenerate.symm.trans hids))
  have hsize := length_le_sizeFor (by omega) hroom
  have hused : ∀ j, t.Used j ↔ j = s.nextInstanceId ∨ s.Used j := by
    intro j
    unfold Used Room at *
    rw [hvector, used_set, length_resize, getElem?_resize]
    split
    · rename_i heq
      simp [heq.symm, hroom]
    · rename_i hne
      constructor
      · exact fun h => .inr h.2
      · rintro (rfl | h)
        · exact absurd rfl hne
        · exact ⟨Nat.lt_of_lt_of_le (Used.lt h) hsize, h⟩
  -- the first id that is not in use lies before the end of the vector, or at it
  obtain ⟨hge, hunused, hbelow⟩ := s.found_spec (s.nextInstanceId + 1)
  have hfound : firstFree (s.instanceIds.drop (s.nextInstanceId + 1)) (s.nextInstanceId + 1) <
      bound := by
    by_contra hno
    by_cases hlast : s.instanceIds.length ≤ s.nextInstanceId + 1
    · have := (hbelow (s.nextInstanceId + 1) (Nat.le_refl _) (by omega)).lt
      omega
    · have := (hbelow s.instanceIds.length (by omega) (by omega)).lt
      omega
  have hafter : s.nextAfter s.nextInstanceId =
      firstFree (s.instanceIds.drop (s.nextInstanceId + 1)) (s.nextInstanceId + 1) := by
    unfold nextAfter
    rw [Nat.mod_eq_of_lt (by omega)]
    exact if_pos (by omega)
  rw [hafter] at hids_next
  refine ⟨rfl, ?_, hused, by rw [hids_next]; exact hfound⟩
  unfold Lowest
  rw [hids_next, hused]
  rintro (heq | h)
  · omega
  · exact hunused h

theorem loadRow_eq (h : s.loadRow i = some t) :
    t.instanceIds = s.instanceIds.set i true ∧
      t.nextInstanceId = if s.nextInstanceId = i then (i + 1) % 2 ^ 32 else s.nextInstanceId := by
  unfold loadRow at h
  split at h
  · rename_i heq
    obtain ⟨-, rfl⟩ := assign_eq h
    exact ⟨rfl, (if_pos heq).symm⟩
  · rename_i hne
    obtain ⟨-, rfl⟩ := assign_eq h
    exact ⟨rfl, (if_neg hne).symm⟩

/-- Loading the ids of the database, in ascending order, leaves the first one that is not used. -/
theorem Lowest.loadRows {bound : Nat} {ids : List Nat} (hbound : bound ≤ 0xFFFFFFFF)
    (hids : ids.Pairwise (· < ·) ∧ ∀ i ∈ ids, i + 1 < bound) (h : s.Lowest)
    (hnext : s.nextInstanceId < bound) (hused : ∀ j, s.Used j → ∀ i ∈ ids, j < i)
    (hload : ids.foldlM loadRow s = some t) : t.Lowest ∧ t.nextInstanceId < bound := by
  induction ids generalizing s with
  | nil =>
    obtain rfl := Option.some.inj hload
    exact ⟨h, hnext⟩
  | cons i ids ih =>
    rw [List.foldlM_cons] at hload
    obtain ⟨u, hrow, hload⟩ := Option.bind_eq_some_iff.mp hload
    obtain ⟨hvector, hid⟩ := loadRow_eq hrow
    obtain ⟨hfirst, hrest⟩ := List.pairwise_cons.mp hids.1
    have hi := hids.2 i List.mem_cons_self
    rw [Nat.mod_eq_of_lt (by omega)] at hid
    have hmark : ∀ j, u.Used j → j = i ∨ s.Used j := by
      intro j hj
      unfold Used at hj
      rw [hvector, used_set] at hj
      split at hj
      · rename_i heq
        exact .inl heq.symm
      · exact .inr hj
    refine ih ⟨hrest, fun j hj => hids.2 j (List.mem_cons_of_mem _ hj)⟩ ?_ ?_
      (fun j hj i' hi' => ?_) hload
    · unfold Lowest
      rw [hid]
      intro hmarked
      split at hmarked
      · rcases hmark _ hmarked with heq | hold
        · omega
        · have := hused _ hold i List.mem_cons_self
          omega
      · rename_i hne
        rcases hmark _ hmarked with heq | hold
        · exact hne heq
        · exact h hold
    · rw [hid]
      split
      · exact hi
      · exact hnext
    · rcases hmark j hj with rfl | hold
      · exact hfirst i' hi'
      · exact hused j hold i' (List.mem_cons_of_mem _ hi')

theorem lowest_load {bound capacity : Nat} {ids : List Nat} (hbound : bound ≤ 0xFFFFFFFF)
    (hone : 1 < bound) (hids : ids.Pairwise (· < ·) ∧ ∀ i ∈ ids, i + 1 < bound)
    (hload : loadResetTimes ids capacity = some t) : t.Lowest ∧ t.nextInstanceId < bound := by
  have hnone : ∀ j, ¬(initInstanceIds (ids.getLast?.getD 0) capacity).Used j := by
    intro j hj
    unfold Used initInstanceIds at hj
    rw [getElem?_resize] at hj
    exact absurd hj.2 (by simp)
  exact Lowest.loadRows hbound hids (hnone _) hone (fun j hj => absurd hj (hnone j)) hload

end InstanceIds

namespace State

variable {kind : Nat → MapKind} {bound : Nat} {s t : State} {a : Act} {mapId instanceId : Nat}

/-- What keeps the ids apart. An id is freed only when no save and no loaded map has it any more; a
save or a battleground map is given an id that is marked as used; there is room for a new id in the
vector; and the lower 32 bits of the counters of garrison owners are above a bound that the ids do
not come to. -/
def Allowed (kind : Nat → MapKind) (bound : Nat) (s : State) : Act → Prop
  | .enterNew _ _ | .createNewBattleground _ =>
    s.ids.Room ∧ s.ids.nextInstanceId + 1 < bound ∧ s.ids.instanceIds.length < bound
  | .enterSaved _ _ | .removeInstanceSave _ => True
  | .enterBattleground _ battlegroundId => s.ids.Used battlegroundId
  | .enterGarrison _ guid => bound ≤ guid % 2 ^ 32
  | .addInstanceSave _ instanceId => s.ids.Used instanceId
  | .resetInstance instanceId isExtended =>
    (s.saves instanceId = none ∨ isExtended = false) ∧ ∀ mapId, s.maps mapId instanceId = false
  | .destroyInstance mapId instanceId =>
    kind mapId = .battleground →
      s.saves instanceId = none ∧ ∀ other, other ≠ mapId → s.maps other instanceId = false

structure Marked (bound : Nat) (s : State) : Prop where
  lowest : s.ids.Lowest
  below : s.ids.nextInstanceId < bound
  saves : ∀ i, (s.saves i).isSome → s.ids.Used i
  maps : ∀ mapId i, s.maps mapId i = true → s.ids.Used i ∨ bound ≤ i

/-- The id that `GenerateInstanceId` gives is the id of no save and of no loaded map. -/
def Fresh (s : State) : Prop := ∀ capacity i ids, s.ids.generateId capacity = some (i, ids) →
  s.saves i = none ∧ ∀ mapId, s.maps mapId i = false

theorem Marked.fresh (h : s.Marked bound) : s.Fresh := by
  intro capacity i ids hgenerate
  obtain ⟨ids', -, heq⟩ := Option.map_eq_some_iff.mp hgenerate
  obtain ⟨rfl, -⟩ := Prod.mk.inj heq
  constructor
  · cases hsave : s.saves s.ids.nextInstanceId with
    | none => rfl
    | some m => exact absurd (h.saves _ (by rw [hsave]; rfl)) h.lowest
  · intro mapId
    cases hmap : s.maps mapId s.ids.nextInstanceId with
    | false => rfl
    | true =>
      rcases h.maps mapId _ hmap with hused | hle
      · exact absurd hused h.lowest
      · exact absurd h.below (Nat.not_lt_of_le hle)

theorem Marked.generate {capacity i : Nat} {ids : InstanceIds} (hbound : bound ≤ 0xFFFFFFFF)
    (h : s.Marked bound)
    (hok : s.ids.Room ∧ s.ids.nextInstanceId + 1 < bound ∧ s.ids.instanceIds.length < bound)
    (hgenerate : s.ids.generateId capacity = some (i, ids)) :
    Marked bound { s with ids } ∧ ids.Used i := by
  obtain ⟨hroom, hnext, hsize⟩ := hok
  obtain ⟨rfl, hlowest, hused, hbelow⟩ :=
    InstanceIds.generate_spec hbound hroom hnext hsize hgenerate
  exact ⟨⟨hlowest, hbelow, fun j hj => (hused j).mpr (.inr (h.saves j hj)),
    fun m j hj => (h.maps m j hj).imp_left fun hj => (hused j).mpr (.inr hj)⟩,
    (hused _).mpr (.inl rfl)⟩

theorem Marked.load (h : s.Marked bound) (hid : s.ids.Used instanceId ∨ bound ≤ instanceId) :
    (s.load mapId instanceId).Marked bound where
  lowest := h.lowest
  below := h.below
  saves := h.saves
  maps m i hi := by
    unfold State.load at hi
    dsimp only at hi
    by_cases hm : m = mapId
    · subst hm
      rw [Function.update_self] at hi
      by_cases heq : i = instanceId
      · exact heq ▸ hid
      · rw [Function.update_of_ne heq] at hi
        exact h.maps m i hi
    · rw [Function.update_of_ne hm] at hi
      exact h.maps m i hi

theorem Marked.removeSave (h : s.Marked bound) (instanceId : Nat) :
    (s.removeSave instanceId).Marked bound where
  lowest := h.lowest
  below := h.below
  saves i hi := by
    unfold State.removeSave at hi
    dsimp only at hi
    by_cases heq : i = instanceId
    · rw [heq, Function.update_self] at hi
      exact nomatch hi
    · rw [Function.update_of_ne heq] at hi
      exact h.saves i hi
  maps := h.maps

theorem Marked.free (h : s.Marked bound) (hsave : s.saves instanceId = none)
    (hmaps : ∀ mapId, s.maps mapId instanceId = false) (hfree : s.freeId instanceId = some t) :
    t.Marked bound := by
  obtain ⟨ids, hids, rfl⟩ := Option.map_eq_some_iff.mp hfree
  obtain ⟨hlowest, hle, hused⟩ := InstanceIds.free_spec hids h.lowest
  refine ⟨hlowest, Nat.lt_of_le_of_lt hle h.below, fun i hi => ?_, fun m i hi => ?_⟩
  · have hne : i ≠ instanceId := by
      rintro rfl
      rw [hsave] at hi
      cases hi
    exact (hused i hne).mpr (h.saves i hi)
  · have hne : i ≠ instanceId := by
      rintro rfl
      cases (hmaps m).symm.trans hi
    exact (h.maps m i hi).imp_left (hused i hne).mpr

theorem Marked.addInstanceSave (h : s.Marked bound) (hused : s.ids.Used instanceId) :
    (s.addInstanceSave mapId instanceId).Marked bound := by
  unfold State.addInstanceSave
  split
  · exact h
  refine ⟨h.lowest, h.below, fun i hi => ?_, h.maps⟩
  dsimp only at hi
  by_cases heq : i = instanceId
  · exact heq ▸ hused
  · rw [Function.update_of_ne heq] at hi
    exact h.saves i hi

theorem Marked.resetInstance {isExtended : Bool} (h : s.Marked bound)
    (hok : s.Allowed kind bound (.resetInstance instanceId isExtended))
    (hreset : s.resetInstance instanceId isExtended = some t) : t.Marked bound := by
  obtain ⟨hsave, hmaps⟩ := hok
  cases isExtended with
  | true =>
    have hnone := hsave.resolve_right fun hno => by cases hno
    exact h.free hnone hmaps hreset
  | false => exact (h.removeSave instanceId).free (Function.update_self ..) hmaps hreset

theorem Marked.unload (h : s.Marked bound) (mapId instanceId : Nat) :
    (s.unload mapId instanceId).Marked bound where
  lowest := h.lowest
  below := h.below
  saves := h.saves
  maps m i hi := by
    refine h.maps m i ?_
    unfold State.unload at hi
    dsimp only at hi
    by_cases hm : m = mapId
    · subst hm
      rw [Function.update_self] at hi
      by_cases heq : i = instanceId
      · rw [heq, Function.update_self] at hi
        cases hi
      · rwa [Function.update_of_ne heq] at hi
    · rwa [Function.update_of_ne hm] at hi

theorem Marked.destroyInstance (h : s.Marked bound)
    (hok : s.Allowed kind bound (.destroyInstance mapId instanceId))
    (hdestroy : s.destroyInstance kind mapId instanceId = some t) : t.Marked bound := by
  have hunloaded := h.unload mapId instanceId
  unfold State.destroyInstance at hdestroy
  split at hdestroy
  · rename_i hkind
    obtain ⟨hsave, hothers⟩ := hok hkind
    refine hunloaded.free hsave (fun m => ?_) hdestroy
    unfold State.unload
    dsimp only
    by_cases hm : m = mapId
    · subst hm
      rw [Function.update_self, Function.update_self]
    · rw [Function.update_of_ne hm]
      exact hothers m hm
  · exact Option.some.inj hdestroy ▸ hunloaded

theorem Marked.step (hbound : bound ≤ 0xFFFFFFFF) (h : s.Marked bound) (hok : s.Allowed kind bound a)
    (hstep : s.step kind a = some t) : t.Marked bound := by
  cases a with
  | enterNew mapId capacity =>
    obtain ⟨-, hmap⟩ := Option.ite_none_right_eq_some.mp hstep
    obtain ⟨⟨i, ids⟩, hgenerate, rfl⟩ := Option.map_eq_some_iff.mp hmap
    obtain ⟨hmarked, hused⟩ := h.generate hbound hok hgenerate
    exact hmarked.load (.inl hused)
  | enterSaved mapId instanceId =>
    obtain ⟨⟨-, hsave⟩, ht⟩ := Option.ite_none_right_eq_some.mp hstep
    exact Option.some.inj ht ▸ h.load (.inl (h.saves instanceId hsave))
  | enterBattleground mapId battlegroundId =>
    obtain ⟨-, ht⟩ := Option.ite_none_right_eq_some.mp hstep
    exact Option.some.inj ht ▸ h.load (.inl hok)
  | enterGarrison mapId guid =>
    obtain ⟨-, ht⟩ := Option.ite_none_right_eq_some.mp hstep
    exact Option.some.inj ht ▸ h.load (.inr hok)
  | createNewBattleground capacity =>
    obtain ⟨⟨i, ids⟩, hgenerate, rfl⟩ := Option.map_eq_some_iff.mp hstep
    exact (h.generate hbound hok hgenerate).1
  | addInstanceSave mapId instanceId => exact Option.some.inj hstep ▸ h.addInstanceSave hok
  | removeInstanceSave instanceId => exact Option.some.inj hstep ▸ h.removeSave instanceId
  | resetInstance instanceId isExtended => exact h.resetInstance hok hstep
  | destroyInstance mapId instanceId =>
    obtain ⟨-, ht⟩ := Option.ite_none_right_eq_some.mp hstep
    exact h.destroyInstance hok ht

/-- Over all runs that begin when the instances of the database have been registered. -/
theorem ids_run {dbIds : List Nat} {capacity : Nat} {ids : InstanceIds} {as : List Act}
    (hsorted : dbIds.Pairwise (· < ·)) (hload : InstanceIds.loadResetTimes dbIds capacity = some ids)
    (hbound : (1 < bound ∧ bound ≤ 0xFFFFFFFF) ∧ ∀ i ∈ dbIds, i + 1 < bound)
    (hrun : Run (fun s a t => s.step kind a = some t) (Allowed kind bound) { ids } as s) :
    s.Fresh := by
  obtain ⟨hlowest, hbelow⟩ :=
    InstanceIds.lowest_load hbound.1.2 hbound.1.1 ⟨hsorted, hbound.2⟩ hload
  have hstart : Marked bound { ids } :=
    ⟨hlowest, hbelow, fun i hi => absurd hi (by simp), fun m i hi => absurd hi (by simp)⟩
  exact (hrun.invariant (Marked bound) hstart fun _ _ _ hu hok hstep =>
    hu.step hbound.1.2 hok hstep).fresh

/-- Map 1 is a dungeon, map 2 a battleground. -/
theorem ids_run_two : ∃ s : State, (s.ids.nextInstanceId = 2 ∧ s.maps 2 4 = true ∧
    s.saves 1 = some 1) ∧ s.Fresh := by
  refine ⟨_, ⟨?_, ?_, ?_⟩, @ids_run (fun m => if m = 2 then .battleground else .dungeon) 1000 _
    [1, 3] 64 ((InstanceIds.loadResetTimes [1, 3] 64).get rfl)
    [.addInstanceSave 1 1, .enterSaved 1 1, .enterNew 1 64, .createNewBattleground 64,
      .enterBattleground 2 4, .destroyInstance 1 2, .resetInstance 2 false]
    (by decide) rfl (by decide)
    (.cons ?_ rfl (.cons trivial rfl (.cons ?_ rfl (.cons ?_ rfl (.cons ?_ rfl (.cons ?_ rfl
      (.cons ?_ rfl (.nil _))))))))⟩
  · rfl
  · rfl
  · rfl
  · unfold Allowed InstanceIds.Used
    decide
  · unfold Allowed InstanceIds.Room
    decide
  · unfold Allowed InstanceIds.Room
    decide
  · unfold Allowed InstanceIds.Used
    decide
  · exact nofun
  · refine ⟨.inr rfl, fun m => ?_⟩
    by_cases hone : m = 1
    · subst hone
      rfl
    by_cases htwo : m = 2
    · subst htwo
      rfl
    unfold unload State.load
    dsimp only
    rw [Function.update_of_ne hone, Function.update_of_ne htwo, Function.update_of_ne hone,
      Function.update_of_ne hone]
    rfl

/-- A dungeon is reset while it is loaded: its id is the next that is given. -/
theorem ids_fail_loaded : ∃ s : State,
    Run (fun s a t => s.step (fun _ => .dungeon) a = some t) always
      { ids := (InstanceIds.loadResetTimes [] 64).get rfl }
      [.enterNew 1 64, .addInstanceSave 1 1, .resetInstance 1 false] s ∧
    (s.ids.nextInstanceId = 1 ∧ s.maps 1 1 = true) ∧ ¬s.Fresh := by
  refine ⟨_, .cons trivial rfl (.cons trivial rfl (.cons trivial rfl (.nil _))), ⟨rfl, rfl⟩, ?_⟩
  intro h
  exact nomatch (h 64 1 _ rfl).2 1

end State

end Ashamane.Instances
