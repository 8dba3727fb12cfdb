import Ashamane.Pools.Load
import Ashamane.Pools.Spawn
import Mathlib.Data.Finset.Card

/-! The recursions of spawning and despawning, with a bound on their depth: `none` stands for a
deeper one. They end when no pool is above itself. -/
namespace Ashamane.Pools

open Relation

namespace PoolMgr

section Within

variable (dice : Dice) (data : PoolData)

def despawnMemberWithin (despawnPool : Nat → PoolMgr → Option PoolMgr) (k : Kind) (p guid : Nat)
    (s : PoolMgr) (member : Nat) : Option PoolMgr :=
  if s.isActive k member && (guid == 0 || member == guid) then
    (if k = .pool then despawnPool member s else some s).map fun s => s.removeObject k member p
  else some s

def despawnObjectWithin (despawnPool : Nat → PoolMgr → Option PoolMgr) (k : Kind) (p guid : Nat)
    (s : PoolMgr) : Option PoolMgr :=
  (data.guids k p).foldlM (despawnMemberWithin despawnPool k p guid) s

def despawnPoolWithin : Nat → Nat → PoolMgr → Option PoolMgr
  | 0, _, _ => none
  | n + 1, p, s =>
    [Kind.creature, .gameobject, .pool].foldlM
      (fun s k => despawnObjectWithin data (despawnPoolWithin n) k p 0 s) s

def spawnLoopWithin (spawnPool despawnPool : Nat → PoolMgr → Option PoolMgr) (k : Kind) (p : Nat) :
    Nat → Nat → Nat → PoolMgr → Option PoolMgr
  | 0, _, _, s => some s
  | n + 1, triggerFrom, lastDespawned, s =>
    match rollOne dice (data.group k p) k triggerFrom s with
    | (none, s) => spawnLoopWithin spawnPool despawnPool k p n triggerFrom lastDespawned s
    | (some obj, s) =>
      if obj.guid = lastDespawned then
        spawnLoopWithin spawnPool despawnPool k p n triggerFrom lastDespawned s
      else if obj.guid = triggerFrom then
        spawnLoopWithin spawnPool despawnPool k p n 0 lastDespawned s
      else
        let s := s.activateObject k obj.guid p
        (if k = .pool then spawnPool obj.guid s else some s).bind fun s =>
          if triggerFrom ≠ 0 then
            (despawnObjectWithin data despawnPool k p triggerFrom s).bind fun s =>
              spawnLoopWithin spawnPool despawnPool k p n 0 (triggerFrom % 2 ^ 32) s
          else spawnLoopWithin spawnPool despawnPool k p n triggerFrom lastDespawned s

def spawnObjectWithin (spawnPool despawnPool : Nat → PoolMgr → Option PoolMgr) (k : Kind)
    (p triggerFrom : Nat) (s : PoolMgr) : Option PoolMgr :=
  let count := ((data.maxLimit p : Int) - s.count p).bmod (2 ^ 32)
  let count := if triggerFrom ≠ 0 then count + 1 else count
  spawnLoopWithin dice data spawnPool despawnPool k p count.toNat triggerFrom 0 s

def spawnGroupWithin (spawnPool despawnPool : Nat → PoolMgr → Option PoolMgr) (k : Kind)
    (p triggerFrom : Nat) (s : PoolMgr) : Option PoolMgr :=
  if (data.group k p).isEmpty then some s
  else spawnObjectWithin dice data spawnPool despawnPool k p triggerFrom s

def spawnPoolWithin : Nat → Nat → PoolMgr → Option PoolMgr
  | 0, _, _ => none
  | n + 1, p, s =>
    [Kind.pool, .gameobject, .creature].foldlM
      (fun s k => spawnGroupWithin dice data (spawnPoolWithin n) (despawnPoolWithin data n) k p 0 s) s

def updatePoolWithin (n : Nat) (k : Kind) (p guid : Nat) (s : PoolMgr) : Option PoolMgr :=
  let mother := data.motherPool p
  if mother ≠ 0 then
    spawnGroupWithin dice data (spawnPoolWithin dice data n) (despawnPoolWithin data n) .pool
      mother p s
  else
    spawnGroupWithin dice data (spawnPoolWithin dice data n) (despawnPoolWithin data n) k p guid s

def stepWithin (n : Nat) (s : PoolMgr) : PoolOp → Option PoolMgr
  | .spawnPool p => spawnPoolWithin dice data n p s
  | .updatePool k p guid => updatePoolWithin dice data n k p guid s
  | .despawnPool p => despawnPoolWithin data n p s

end Within

variable {dice : Dice} {data : PoolData} {k : Kind} {p : Nat}
  {spawn despawn : Nat → PoolMgr → Option PoolMgr} {spawnPool despawnPool : Nat → PoolMgr → PoolMgr}

theorem foldlM_eq_some {α σ : Type} {f : σ → α → Option σ} {g : σ → α → σ} {l : List α}
    (h : ∀ x ∈ l, ∀ s, f s x = some (g s x)) (s : σ) : l.foldlM f s = some (l.foldl g s) := by
  induction l generalizing s with
  | nil => rfl
  | cons x l ih =>
    rw [List.foldlM_cons, h x (List.mem_cons_self ..)]
    exact ih (fun y hy => h y (List.mem_cons_of_mem _ hy)) _

theorem despawnObjectWithin_eq
    (hsub : ∀ q ∈ data.guids .pool p, ∀ s, despawn q s = some (despawnPool q s)) (guid : Nat)
    (s : PoolMgr) : despawnObjectWithin data despawn k p guid s =
      some (despawnObject data despawnPool k p guid s) := by
  refine foldlM_eq_some (fun member hmember s => ?_) s
  unfold despawnMemberWithin despawnMember
  split
  · by_cases hk : k = .pool
    · subst hk
      rw [if_pos rfl, if_pos rfl, hsub member hmember]
      rfl
    · rw [if_neg hk, if_neg hk]
      rfl
  · rfl

theorem spawnLoopWithin_eq
    (hspawn : ∀ q ∈ data.guids .pool p, ∀ s, spawn q s = some (spawnPool q s))
    (hdespawn : ∀ q ∈ data.guids .pool p, ∀ s, despawn q s = some (despawnPool q s))
    (n triggerFrom lastDespawned : Nat) (s : PoolMgr) :
    spawnLoopWithin dice data spawn despawn k p n triggerFrom lastDespawned s =
      some (spawnLoop dice data spawnPool despawnPool k p n triggerFrom lastDespawned s) := by
  induction n generalizing triggerFrom lastDespawned s with
  | zero => rfl
  | succ n ih =>
    unfold spawnLoopWithin spawnLoop
    obtain ⟨d, hs, hroll⟩ := rollOne_spec dice (s := s) (k := k) (data.group k p) triggerFrom
    generalize rollOne dice (data.group k p) k triggerFrom s = rolled at hroll ⊢
    obtain ⟨found, u⟩ := rolled
    cases found with
    | none => exact ih ..
    | some obj =>
      dsimp only
      split
      · exact ih ..
      split
      · exact ih ..
      have hguid : obj.guid ∈ data.guids k p := (hroll obj rfl).1
      have hsub : (if k = .pool then spawn obj.guid (u.activateObject k obj.guid p)
            else some (u.activateObject k obj.guid p)) =
          some (if k = .pool then spawnPool obj.guid (u.activateObject k obj.guid p)
            else u.activateObject k obj.guid p) := by
        by_cases hk : k = .pool
        · subst hk
          rw [if_pos rfl, if_pos rfl]
          exact hspawn obj.guid hguid _
        · rw [if_neg hk, if_neg hk]
      rw [hsub, Option.bind_some]
      split
      · rw [despawnObjectWithin_eq hdespawn, Option.bind_some]
        exact ih ..
      · exact ih ..

theorem spawnGroupWithin_eq
    (hspawn : ∀ q ∈ data.guids .pool p, ∀ s, spawn q s = some (spawnPool q s))
    (hdespawn : ∀ q ∈ data.guids .pool p, ∀ s, despawn q s = some (despawnPool q s))
    (triggerFrom : Nat) (s : PoolMgr) :
    spawnGroupWithin dice data spawn despawn k p triggerFrom s =
      some (spawnGroup dice data spawnPool despawnPool k p triggerFrom s) := by
  unfold spawnGroupWithin spawnGroup
  split
  · rfl
  · exact spawnLoopWithin_eq hspawn hdespawn ..

section Ranked

variable {rank : Nat → Nat} (hrank : ∀ m, ∀ q ∈ data.guids .pool m, rank q < rank m)
include hrank

theorem despawnPoolWithin_eq (n : Nat) (hn : rank p < n) (s : PoolMgr) :
    despawnPoolWithin data n p s = some (despawnPoolN data n p s) := by
  induction n generalizing p s with
  | zero => omega
  | succ n ih =>
    refine foldlM_eq_some (fun k _ s => despawnObjectWithin_eq (fun q hq s => ih ?_ s) 0 s) s
    have := hrank p q hq
    omega

theorem spawnPoolWithin_eq (n : Nat) (hn : rank p < n) (s : PoolMgr) :
    spawnPoolWithin dice data n p s = some (spawnPoolN dice data n p s) := by
  induction n generalizing p s with
  | zero => omega
  | succ n ih =>
    have hlt : ∀ q ∈ data.guids .pool p, rank q < n := fun q hq => by
      have := hrank p q hq
      omega
    exact foldlM_eq_some (fun k _ s => spawnGroupWithin_eq (fun q hq s => ih (hlt q hq) s)
      (fun q hq s => despawnPoolWithin_eq hrank n (hlt q hq) s) 0 s) s

theorem stepWithin_isSome {n : Nat} (hn : ∀ q, rank q < n) (ops : List PoolOp) (s : PoolMgr) :
    (ops.foldlM (stepWithin dice data n) s).isSome := by
  have hspawn : ∀ q s, spawnPoolWithin dice data n q s = some (spawnPoolN dice data n q s) :=
    fun q => spawnPoolWithin_eq hrank n (hn q)
  have hdespawn : ∀ q s, despawnPoolWithin data n q s = some (despawnPoolN data n q s) :=
    fun q => despawnPoolWithin_eq hrank n (hn q)
  induction ops generalizing s with
  | nil => rfl
  | cons op ops ih =>
    have hop : ∃ t, stepWithin dice data n s op = some t := by
      cases op with
      | spawnPool p => exact ⟨_, hspawn p s⟩
      | despawnPool p => exact ⟨_, hdespawn p s⟩
      | updatePool k p guid =>
        unfold stepWithin updatePoolWithin
        dsimp only
        split <;>
          exact ⟨_, spawnGroupWithin_eq (fun q _ => hspawn q) (fun q _ => hdespawn q) ..⟩
    obtain ⟨t, ht⟩ := hop
    rw [List.foldlM_cons, ht]
    exact ih t

end Ranked

end PoolMgr

def PoolLoad.data (l : PoolLoad) (template : Nat → Option Nat) (group : Kind → Nat → PoolGroup) :
    PoolData where
  maxLimit p := (template p).getD 0
  group k p := if k = .pool then l.groups p else group k p
  poolSearchMap := l.poolSearchMap
  depth _ := 0

open Classical in
noncomputable def PoolLoad.below (l : PoolLoad) (order : List Nat) (m : Nat) : Nat :=
  (order.toFinset.filter fun q => TransGen l.Under q m).card

theorem PoolLoad.NoCircle.below_lt {l : PoolLoad} {order : List Nat} (h : l.NoCircle)
    {child mother : Nat} (hunder : l.Under child mother) (hchild : child ∈ order) :
    l.below order child < l.below order mother := by
  classical
  refine Finset.card_lt_card ((Finset.ssubset_iff_of_subset ?_).mpr ⟨child, ?_, ?_⟩)
  · intro q hq
    obtain ⟨horder, hbelow⟩ := Finset.mem_filter.mp hq
    exact Finset.mem_filter.mpr ⟨horder, hbelow.tail hunder⟩
  · exact Finset.mem_filter.mpr ⟨List.mem_toFinset.mpr hchild, .single hunder⟩
  · exact fun hmem => h child (Finset.mem_filter.mp hmem).2

theorem PoolLoad.NoCircle.ends {l : PoolLoad} (order : List Nat) (h : l.NoCircle)
    (hchild : ∀ child mother, l.Under child mother → child ∈ order) (template : Nat → Option Nat)
    (group : Kind → Nat → PoolGroup) : ∃ n, ∀ (dice : Dice) (ops : List PoolOp) (s : PoolMgr),
      (ops.foldlM (PoolMgr.stepWithin dice (l.data template group) n) s).isSome := by
  classical
  have hrank : ∀ m, ∀ q ∈ (l.data template group).guids .pool m, l.below order q < l.below order m :=
    fun m q hq => h.below_lt hq (hchild q m hq)
  refine ⟨order.toFinset.card + 1, fun dice ops s => PoolMgr.stepWithin_isSome hrank (fun q => ?_) ops s⟩
  exact Nat.lt_succ_of_le (Finset.card_filter_le ..)

/-- When the circles of the rows lie on the first mothers, no pool is loaded above itself, and
spawning, updating and despawning end. -/
theorem pools_load {templates : List (Nat × Nat)} {rows : List PoolPoolRow} {order : List Nat}
    {fuel : Nat} {l : PoolLoad} (horder : ∀ p, p ∈ order ↔ (poolTemplate templates p).isSome)
    (hfirst : FirstOnCircles (poolTemplate templates) rows)
    (hcheck : (loadRows (poolTemplate templates) rows).check fuel order = some l)
    (group : Kind → Nat → PoolGroup) :
    l.NoCircle ∧ ∃ n, ∀ (dice : Dice) (ops : List PoolOp) (s : PoolMgr),
      (ops.foldlM (PoolMgr.stepWithin dice (l.data (poolTemplate templates) group) n) s).isSome := by
  have hcircle := check_noCircle hfirst horder hcheck
  refine ⟨hcircle, hcircle.ends order (fun child mother hunder => ?_) _ group⟩
  have hlisted := under_loadRows.mp ((check_spec (Reduced.refl _) hcheck).1.under hunder)
  exact (horder child).mpr (Listed.inTemplate hlisted)

section Crossed

def crossed : PoolLoad := loadRows (poolTemplate [(1, 1), (2, 1), (3, 1)])
  [⟨1, 2, 0⟩, ⟨2, 3, 0⟩, ⟨2, 1, 0⟩]

def crossedData : PoolData := crossed.data (poolTemplate [(1, 1), (2, 1), (3, 1)]) fun _ _ => {}

/-- While both pools of the circle are spawned, despawning one comes back to it. -/
theorem despawnPoolWithin_crossed (n : Nat) {s : PoolMgr} (hone : s.isActive .pool 1 = true)
    (htwo : s.isActive .pool 2 = true) :
    PoolMgr.despawnPoolWithin crossedData n 1 s = none ∧
      PoolMgr.despawnPoolWithin crossedData n 2 s = none := by
  have hmembers : crossedData.guids .pool 1 = [2] ∧ crossedData.guids .pool 2 = [1] := by decide
  have hturn : ∀ p member n, crossedData.guids .pool p = [member] → s.isActive .pool member = true →
      PoolMgr.despawnPoolWithin crossedData n member s = none →
      PoolMgr.despawnPoolWithin crossedData (n + 1) p s = none := by
    intro p member n hp hactive hnone
    have hpool : PoolMgr.despawnObjectWithin crossedData
        (PoolMgr.despawnPoolWithin crossedData n) .pool p 0 s = none := by
      unfold PoolMgr.despawnObjectWithin PoolMgr.despawnMemberWithin
      rw [hp, List.foldlM_cons, hactive, hnone]
      rfl
    change (PoolMgr.despawnObjectWithin crossedData
        (PoolMgr.despawnPoolWithin crossedData n) .pool p 0 s).bind (fun s => some s) = none
    rw [hpool]
    rfl
  induction n with
  | zero => exact ⟨rfl, rfl⟩
  | succ n ih => exact ⟨hturn 1 2 n hmembers.1 htwo ih.2, hturn 2 1 n hmembers.2 hone ih.1⟩

/-- The search does not see the circle. When both pools are spawned, despawning does not end. -/
theorem pools_load_fails : (∃ fuel, crossed.check fuel [1, 2, 3] = some crossed) ∧
    ¬crossed.NoCircle ∧ ∃ dice s,
      PoolMgr.stepWithin dice crossedData 4 PoolMgr.start (.spawnPool 1) = some s ∧
      ∀ n, PoolMgr.stepWithin dice crossedData n s (.despawnPool 1) = none := by
  refine ⟨⟨4, rfl⟩, fun h => ?_, ⟨fun _ => 0, fun _ => 0⟩, ?_⟩
  · have hunder : crossed.Under 1 2 ∧ crossed.Under 2 1 := by
      unfold PoolLoad.Under
      decide
    exact h 1 (.tail (.single hunder.1) hunder.2)
  · have hspawn : (PoolMgr.stepWithin ⟨fun _ => 0, fun _ => 0⟩ crossedData 4 PoolMgr.start
        (.spawnPool 1)).any (fun s => s.isActive .pool 1 && s.isActive .pool 2) = true := by
      decide +kernel
    cases hs : PoolMgr.stepWithin ⟨fun _ => 0, fun _ => 0⟩ crossedData 4 PoolMgr.start
        (.spawnPool 1) with
    | none =>
      rw [hs] at hspawn
      exact nomatch hspawn
    | some s =>
      rw [hs] at hspawn
      obtain ⟨hone, htwo⟩ := Bool.and_eq_true_iff.mp hspawn
      exact ⟨s, rfl, fun n => (despawnPoolWithin_crossed n hone htwo).1⟩

end Crossed

end Ashamane.Pools
