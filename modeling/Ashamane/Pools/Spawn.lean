import Ashamane.Pools.Exact
import Ashamane.Pools.Load
import Ashamane.Lib.Run

/-! Spawning keeps the numbers exact and within the limits, and with it every run of calls. -/
namespace Ashamane.Pools

variable {data : PoolData} {dice : Dice} {s s' s'' : PoolMgr}

def Below (data : PoolData) (p : Nat) (s : PoolMgr) : Prop :=
  ∀ x, data.depth x < data.depth p → s.count x ≤ data.maxLimit x

/-- What the work at `p` and under it leaves behind. -/
structure Kept (data : PoolData) (p : Nat) (s s' : PoolMgr) : Prop where
  inv : Inv data s'
  below : Below data p s'
  elsewhere : ∀ x, x ≠ p → data.depth p ≤ data.depth x → s'.count x = s.count x
  keys : ∀ x, data.depth p ≤ data.depth x → s.isActive .pool x = true → s'.isActive .pool x = true

structure Spawned (data : PoolData) (p : Nat) (s s' : PoolMgr) : Prop extends Kept data p s s' where
  grows : ∀ k x, s.isActive k x = true → s'.isActive k x = true

namespace Kept

variable {p q : Nat}

theorem refl (h : Inv data s) (hbelow : Below data p s) : Kept data p s s :=
  ⟨h, hbelow, fun _ _ _ => rfl, fun _ _ hx => hx⟩

theorem trans (h : Kept data p s s') (h' : Kept data p s' s'') : Kept data p s s'' :=
  ⟨h'.inv, h'.below, fun x hne hd => (h'.elsewhere x hne hd).trans (h.elsewhere x hne hd),
    fun x hd hx => h'.keys x hd (h.keys x hd hx)⟩

theorem rooted (h : Kept data p s s') (hroot : Rooted data s p) : Rooted data s' p :=
  fun m hm => h.keys p (Nat.le_refl _) (hroot m hm)

theorem of_despawned (h : Despawned data p s s') (hbelow : Below data p s) : Kept data p s s' :=
  ⟨h.inv, fun x hx => Nat.le_trans (h.counts x) (hbelow x hx), h.elsewhere, h.keys⟩

end Kept

namespace Spawned

variable {p q : Nat}

theorem refl (h : Inv data s) (hbelow : Below data p s) : Spawned data p s s :=
  ⟨.refl h hbelow, fun _ _ hx => hx⟩

theorem trans (h : Spawned data p s s') (h' : Spawned data p s' s'') : Spawned data p s s'' :=
  ⟨h.toKept.trans h'.toKept, fun k x hx => h'.grows k x (h.grows k x hx)⟩

theorem draws (h : Inv data s) (hbelow : Below data p s) (d : Nat) :
    Spawned data p s { s with draws := d } :=
  ⟨⟨⟨h.exact, h.alternating, h.logged⟩, hbelow, fun _ _ _ => rfl, fun _ _ hx => hx⟩,
    fun _ _ hx => hx⟩

/-- The work at a member pool that stays within its limit, seen from the mother. -/
theorem above (h : Spawned data q s s') (hd : data.depth q < data.depth p)
    (hbelow : Below data p s) (hlimit : s'.count q ≤ data.maxLimit q) : Spawned data p s s' := by
  refine ⟨⟨h.inv, fun x hx => ?_, fun x _ hx => h.elsewhere x ?_ (by omega),
    fun x hx => h.keys x (by omega)⟩, h.grows⟩
  · by_cases hq : x = q
    · exact hq ▸ hlimit
    · by_cases hdeep : data.depth x < data.depth q
      · exact h.below x hdeep
      · rw [h.elsewhere x hq (Nat.le_of_not_lt hdeep)]
        exact hbelow x hx
  · rintro rfl
    omega

theorem activateObject (wf : data.WellFormed) (h : Inv data s) (hbelow : Below data p s)
    {k : Kind} {guid : Nat} (hg : guid ∈ data.guids k p) (hoff : s.isActive k guid = false)
    (hroot : Rooted data s p) :
    Spawned data p s (s.activateObject k guid p) ∧
      (s.activateObject k guid p).count p = s.count p + 1 := by
  have hcount : k = .pool → s.count guid = 0 := by
    rintro rfl
    exact ActivePoolData.getActiveObjectCount_of_inactive hoff
  have hgrows : ∀ k' x, s.isActive k' x = true → (s.activateObject k guid p).isActive k' x = true := by
    intro k' x hx
    rw [PoolMgr.isActive_activateObject, hx]
    rfl
  have hother : ∀ x, x ≠ p → (s.activateObject k guid p).count x = s.count x := by
    intro x hx
    rw [PoolMgr.count_activateObject hcount, if_neg hx, Nat.add_zero]
  refine ⟨⟨⟨h.activateObject wf hg hoff hroot, fun x hx => ?_, fun x hne _ => hother x hne,
    fun x _ => hgrows .pool x⟩, hgrows⟩, ?_⟩
  · rw [hother x (by rintro rfl; exact Nat.lt_irrefl _ hx)]
    exact hbelow x hx
  · rw [PoolMgr.count_activateObject hcount, if_pos rfl]

end Spawned

def Spawns (data : PoolData) (spawnPool : Nat → PoolMgr → PoolMgr) (q : Nat) : Prop :=
  ∀ s, Inv data s → Rooted data s q → Below data q s → s.count q ≤ data.maxLimit q →
    Spawned data q s (spawnPool q s) ∧ (spawnPool q s).count q ≤ data.maxLimit q

namespace PoolMgr

variable (dice) {spawnPool : Nat → PoolMgr → PoolMgr} (despawnPool : Nat → PoolMgr → PoolMgr)
  {k : Kind} {p : Nat}

theorem rollExplicit_some {free : Nat → Bool} {roll : Rat} {l : List PoolObject} {obj : PoolObject}
    (h : rollExplicit free roll l = some obj) : obj ∈ l ∧ free obj.guid = true := by
  induction l generalizing roll with
  | nil => cases h
  | cons o l ih =>
    unfold rollExplicit at h
    simp only at h
    split at h
    · next hfree =>
      cases h
      exact ⟨List.mem_cons_self, (Bool.and_eq_true_iff.mp hfree).2⟩
    · exact ⟨List.mem_cons_of_mem _ (ih h).1, (ih h).2⟩

theorem rollOne_spec (g : PoolGroup) (triggerFrom : Nat) :
    ∃ d, (rollOne dice g k triggerFrom s).2 = { s with draws := d } ∧
      ∀ obj, (rollOne dice g k triggerFrom s).1 = some obj →
        obj.guid ∈ g.guids ∧ (obj.guid = triggerFrom ∨ s.isActive k obj.guid = false) := by
  have hfree : ∀ guid, (guid == triggerFrom || ! s.isActive k guid) = true →
      guid = triggerFrom ∨ s.isActive k guid = false := by
    intro guid h
    simpa using h
  unfold rollOne
  simp only
  split
  · next obj hroll =>
    refine ⟨_, rfl, ?_⟩
    rintro _ ⟨⟩
    split at hroll
    · cases hroll
    · obtain ⟨hmem, hobj⟩ := rollExplicit_some hroll
      exact ⟨List.mem_map_of_mem (List.mem_append_right _ hmem), hfree _ hobj⟩
  · split
    · exact ⟨_, rfl, fun obj h => by cases h⟩
    · refine ⟨_, rfl, fun obj h => ?_⟩
      rw [Option.filter_eq_some_iff] at h
      exact ⟨List.mem_map_of_mem (List.mem_append_left _ (List.mem_of_getElem? h.1)), hfree _ h.2⟩

/-- The turn that takes a new member in, and spawns it when it is a pool. -/
theorem turn_spec (wf : data.WellFormed) (hsub : ∀ q ∈ data.guids .pool p, Spawns data spawnPool q)
    (h : Inv data s) (hroot : Rooted data s p) (hbelow : Below data p s) {guid : Nat}
    (hg : guid ∈ data.guids k p) (hoff : s.isActive k guid = false) :
    ∃ s', s' = (if k = .pool then spawnPool guid (s.activateObject k guid p)
        else s.activateObject k guid p) ∧
      Spawned data p s s' ∧ s'.count p = s.count p + 1 := by
  refine ⟨_, rfl, ?_⟩
  obtain ⟨hin, hcount⟩ := Spawned.activateObject wf h hbelow hg hoff hroot
  by_cases hk : k = .pool
  · subst hk
    have hnest := wf.nested p guid hg
    have hzero : (s.activateObject .pool guid p).count guid = 0 := by
      have hempty := ActivePoolData.getActiveObjectCount_of_inactive hoff
      rw [count_activateObject fun _ => hempty, if_neg, Nat.add_zero]
      · exact hempty
      · rintro rfl
        exact Nat.lt_irrefl _ hnest
    obtain ⟨hsp, hlimit⟩ := hsub guid hg _ hin.inv
      (fun _ _ => by rw [isActive_activateObject]; simp)
      (fun x hx => hin.below x (by omega)) (by rw [hzero]; exact Nat.zero_le _)
    rw [if_pos rfl]
    refine ⟨hin.trans (hsp.above hnest hin.below hlimit), ?_⟩
    rw [hsp.elsewhere p (by rintro rfl; exact Nat.lt_irrefl _ hnest) (Nat.le_of_lt hnest), hcount]
  · rw [if_neg hk]
    exact ⟨hin, hcount⟩

theorem spawnLoop_fresh (wf : data.WellFormed)
    (hsub : ∀ q ∈ data.guids .pool p, Spawns data spawnPool q) (n last : Nat) (h : Inv data s)
    (hroot : Rooted data s p) (hbelow : Below data p s) :
    Spawned data p s (spawnLoop dice data spawnPool despawnPool k p n 0 last s) ∧
      (spawnLoop dice data spawnPool despawnPool k p n 0 last s).count p ≤ s.count p + n := by
  induction n generalizing s with
  | zero => exact ⟨.refl h hbelow, Nat.le_refl _⟩
  | succ n ih =>
    obtain ⟨d, hstate, hmember⟩ := rollOne_spec dice (k := k) (s := s) (data.group k p) 0
    have hdraw := Spawned.draws h hbelow d
    have hskip := ih hdraw.inv (hdraw.rooted hroot) hdraw.below
    unfold spawnLoop
    generalize rollOne dice (data.group k p) k 0 s = rolled at hstate hmember
    obtain ⟨obj, s₁⟩ := rolled
    simp only at hstate hmember
    subst hstate
    cases obj with
    | none => exact ⟨hdraw.trans hskip.1, Nat.le_trans hskip.2 (Nat.le_succ _)⟩
    | some obj =>
      simp only
      split
      · exact ⟨hdraw.trans hskip.1, Nat.le_trans hskip.2 (Nat.le_succ _)⟩
      · split
        · exact ⟨hdraw.trans hskip.1, Nat.le_trans hskip.2 (Nat.le_succ _)⟩
        · next hne =>
          obtain ⟨hg, hfree⟩ := hmember obj rfl
          obtain ⟨s₂, hs₂, hturn, hcount⟩ := turn_spec wf hsub hdraw.inv (hdraw.rooted hroot)
            hdraw.below hg (hfree.resolve_left hne)
          rw [← hs₂]
          obtain ⟨hrest, hle⟩ := ih hturn.inv ((hdraw.trans hturn).rooted hroot) hturn.below
          refine ⟨(hdraw.trans hturn).trans hrest, Nat.le_trans hle ?_⟩
          rw [hcount]
          show s.count p + 1 + n ≤ s.count p + (n + 1)
          omega

theorem spawnLoop_respawn (wf : data.WellFormed)
    (hsub : ∀ q ∈ data.guids .pool p, Spawns data spawnPool q)
    (hdown : ∀ q ∈ data.guids .pool p, Despawns data despawnPool q) (n : Nat) {guid : Nat}
    (hguid : guid ≠ 0) (hg : guid ∈ data.guids k p) (hon : s.isActive k guid = true)
    (h : Inv data s) (hroot : Rooted data s p) (hbelow : Below data p s) :
    Kept data p s (spawnLoop dice data spawnPool despawnPool k p n guid 0 s) ∧
      (spawnLoop dice data spawnPool despawnPool k p n guid 0 s).count p ≤
        s.count p + (n - 1) := by
  induction n generalizing s with
  | zero => exact ⟨.refl h hbelow, Nat.le_refl _⟩
  | succ n ih =>
    obtain ⟨d, hstate, hmember⟩ :=
      rollOne_spec dice (k := k) (s := s) (data.group k p) guid
    have hdraw := Spawned.draws h hbelow d
    have hskip := ih (hdraw.grows k guid hon) hdraw.inv (hdraw.rooted hroot) hdraw.below
    have hskipped : Kept data p s (spawnLoop dice data spawnPool despawnPool k p n guid 0
          { s with draws := d }) ∧
        (spawnLoop dice data spawnPool despawnPool k p n guid 0 { s with draws := d }).count p ≤
          s.count p + (n + 1 - 1) :=
      ⟨hdraw.toKept.trans hskip.1,
        Nat.le_trans hskip.2 (Nat.add_le_add_left (Nat.sub_le n 1) (s.count p))⟩
    unfold spawnLoop
    generalize rollOne dice (data.group k p) k guid s = rolled at hstate hmember
    obtain ⟨obj, s₁⟩ := rolled
    simp only at hstate hmember
    subst hstate
    cases obj with
    | none => exact hskipped
    | some obj =>
      simp only
      split
      · exact hskipped
      · split
        · -- the member itself is rolled: it stays
          obtain ⟨hrest, hle⟩ := spawnLoop_fresh dice despawnPool
            (k := k) wf hsub n 0 hdraw.inv (hdraw.rooted hroot) hdraw.below
          exact ⟨hdraw.toKept.trans hrest.toKept, hle⟩
        · next hne =>
          obtain ⟨hmem, hfree⟩ := hmember obj rfl
          obtain ⟨s₂, hs₂, hturn, hcount⟩ := turn_spec wf hsub hdraw.inv (hdraw.rooted hroot)
            hdraw.below hmem (hfree.resolve_left hne)
          rw [← hs₂]
          have hup := hdraw.trans hturn
          obtain ⟨hout, hless⟩ := despawnObject_one wf hdown hturn.inv hg (hup.grows k guid hon)
          have hkept := hup.toKept.trans (.of_despawned hout hturn.below)
          obtain ⟨hrest, hle⟩ := spawnLoop_fresh dice despawnPool
            (k := k) wf hsub n (guid % 2 ^ 32) hkept.inv (hkept.rooted hroot) hkept.below
          refine ⟨hkept.trans hrest.toKept, Nat.le_trans hle ?_⟩
          rw [hcount] at hless
          exact Nat.add_le_add_right (Nat.le_of_lt_succ hless) n

theorem turns_le {limit count : Nat} (h : count ≤ limit) (extra : Nat) :
    (((limit : Int) - count).bmod (2 ^ 32) + extra).toNat ≤ limit - count + extra := by
  have hmod : ((limit : Int) - count).bmod (2 ^ 32) ≤ (limit : Int) - count := by
    unfold Int.bmod
    simp only
    split <;> omega
  omega

theorem spawnGroup_fresh (wf : data.WellFormed)
    (hsub : ∀ q ∈ data.guids .pool p, Spawns data spawnPool q) (h : Inv data s)
    (hroot : Rooted data s p) (hbelow : Below data p s) (hlimit : s.count p ≤ data.maxLimit p) :
    Spawned data p s (spawnGroup dice data spawnPool despawnPool k p 0 s) ∧
      (spawnGroup dice data spawnPool despawnPool k p 0 s).count p ≤ data.maxLimit p := by
  unfold spawnGroup
  split
  · exact ⟨.refl h hbelow, hlimit⟩
  · obtain ⟨hsp, hle⟩ := spawnLoop_fresh dice despawnPool (k := k)
      wf hsub (((data.maxLimit p : Int) - s.count p).bmod (2 ^ 32)).toNat 0 h hroot hbelow
    have hturns := turns_le hlimit 0
    rw [Nat.cast_zero, add_zero] at hturns
    exact ⟨hsp, Nat.le_trans hle (by omega)⟩

theorem spawnGroup_respawn (wf : data.WellFormed)
    (hsub : ∀ q ∈ data.guids .pool p, Spawns data spawnPool q)
    (hdown : ∀ q ∈ data.guids .pool p, Despawns data despawnPool q) {guid : Nat}
    (hg : guid ∈ data.guids k p) (hon : s.isActive k guid = true) (h : Inv data s)
    (hroot : Rooted data s p) (hbelow : Below data p s) (hlimit : s.count p ≤ data.maxLimit p) :
    Kept data p s (spawnGroup dice data spawnPool despawnPool k p guid s) ∧
      (spawnGroup dice data spawnPool despawnPool k p guid s).count p ≤ data.maxLimit p := by
  by_cases hguid : guid = 0
  · subst hguid
    obtain ⟨hsp, hle⟩ := spawnGroup_fresh dice despawnPool (k := k)
      wf hsub h hroot hbelow hlimit
    exact ⟨hsp.toKept, hle⟩
  · unfold spawnGroup spawnObject
    split
    · exact ⟨.refl h hbelow, hlimit⟩
    · obtain ⟨hkept, hle⟩ := spawnLoop_respawn dice despawnPool
        (k := k) wf hsub hdown
        (((data.maxLimit p : Int) - s.count p).bmod (2 ^ 32) + 1).toNat hguid hg hon h hroot hbelow
      have hturns := turns_le hlimit 1
      exact ⟨hkept, Nat.le_trans hle (by omega)⟩

theorem spawnPoolN_spec (wf : data.WellFormed) (n q : Nat) (hn : data.depth q < n) :
    Spawns data (spawnPoolN dice data n) q := by
  induction n generalizing q with
  | zero => exact absurd hn (Nat.not_lt_zero _)
  | succ n ih =>
    intro s h hroot hbelow hlimit
    have hsub : ∀ q' ∈ data.guids .pool q, Spawns data (spawnPoolN dice data n) q' := by
      intro q' hq'
      have hnest := wf.nested q q' hq'
      exact ih q' (by omega)
    obtain ⟨h₁, hle₁⟩ := spawnGroup_fresh dice (despawnPoolN data n)
      (k := .pool) wf hsub h hroot hbelow hlimit
    obtain ⟨h₂, hle₂⟩ := spawnGroup_fresh dice (despawnPoolN data n)
      (k := .gameobject) wf hsub h₁.inv (h₁.rooted hroot) h₁.below hle₁
    obtain ⟨h₃, hle₃⟩ := spawnGroup_fresh dice (despawnPoolN data n)
      (k := .creature) wf hsub h₂.inv ((h₁.trans h₂).rooted hroot) h₂.below hle₂
    exact ⟨(h₁.trans h₂).trans h₃, hle₃⟩

end PoolMgr

structure Exact (data : PoolData) (s : PoolMgr) : Prop where
  inv : Inv data s
  limits : ∀ p, s.count p ≤ data.maxLimit p

theorem Exact.of_kept {p : Nat} (h : Exact data s) (hkept : Kept data p s s')
    (hlimit : s'.count p ≤ data.maxLimit p) : Exact data s' := by
  refine ⟨hkept.inv, fun x => ?_⟩
  by_cases hp : x = p
  · exact hp ▸ hlimit
  · by_cases hdeep : data.depth x < data.depth p
    · exact hkept.below x hdeep
    · rw [hkept.elsewhere x hp (Nat.le_of_not_lt hdeep)]
      exact h.limits x

def Allowed (data : PoolData) (s : PoolMgr) : PoolOp → Prop
  | .spawnPool p => Rooted data s p
  | .updatePool k p guid => guid ∈ data.guids k p ∧ s.isActive k guid = true
  | .despawnPool _ => True

theorem Inv.rooted_of_member (h : Inv data s) {k : Kind} {p guid : Nat}
    (hg : guid ∈ data.guids k p) (hon : s.isActive k guid = true) :
    s.isActive .pool p = true :=
  PoolMgr.isActive_of_count (Nat.ne_of_gt (h.count_pos hg hon))

theorem Exact.updatePool (wf : data.WellFormed) (h : Exact data s) {k : Kind} {p guid : Nat}
    (hg : guid ∈ data.guids k p) (hon : s.isActive k guid = true) :
    Exact data (s.updatePool dice data k p guid) := by
  have hp := h.inv.rooted_of_member hg hon
  have hgroup : ∀ k p guid, guid ∈ data.guids k p → s.isActive k guid = true →
      Exact data (PoolMgr.spawnGroup dice data (PoolMgr.spawnPoolN dice data (data.depth p))
        (PoolMgr.despawnPoolN data (data.depth p)) k p guid s) := by
    intro k p guid hg hon
    obtain ⟨hkept, hlimit⟩ := PoolMgr.spawnGroup_respawn dice _ (k := k) wf
      (fun q hq => PoolMgr.spawnPoolN_spec dice wf _ q (wf.nested p q hq))
      (fun q hq => PoolMgr.despawnPoolN_spec wf _ q (wf.nested p q hq)) hg hon h.inv
      (fun _ _ => h.inv.rooted_of_member hg hon) (fun x _ => h.limits x) (h.limits p)
    exact h.of_kept hkept hlimit
  unfold PoolMgr.updatePool
  simp only
  split
  · next hmother =>
    refine hgroup .pool _ p ((wf.mother p _).mpr ?_) hp
    unfold PoolData.motherPool at hmother ⊢
    cases hsearch : data.poolSearchMap p with
    | none => exact absurd (by rw [hsearch]; rfl) hmother
    | some m => rfl
  · exact hgroup k p guid hg hon

theorem Exact.step (wf : data.WellFormed) (h : Exact data s) {op : PoolOp}
    (hok : Allowed data s op) : Exact data (s.step dice data op) := by
  cases op with
  | spawnPool p =>
    obtain ⟨hsp, hlimit⟩ := PoolMgr.spawnPoolN_spec dice wf _ p (Nat.lt_succ_self _) s
      h.inv hok (fun x _ => h.limits x) (h.limits p)
    exact h.of_kept hsp.toKept hlimit
  | updatePool k p guid => exact h.updatePool wf hok.1 hok.2
  | despawnPool p =>
    obtain ⟨hdown, -⟩ := PoolMgr.despawnPoolN_spec wf _ p (Nat.lt_succ_self _) s h.inv
    exact ⟨hdown.inv, fun x => Nat.le_trans (hdown.counts x) (h.limits x)⟩

def Step (dice : Dice) (data : PoolData) (s : PoolMgr) (op : PoolOp) (s' : PoolMgr) : Prop :=
  s' = s.step dice data op

/-- The number of every pool is the number of its active members and within its limit, and
no member is activated twice without a removal in between. -/
theorem pools_run (wf : data.WellFormed) {ops : List PoolOp}
    (hrun : Lib.Run (Step dice data) (Allowed data) .start ops s) :
    (∀ p, s.count p = activeMembers data s p ∧ s.count p ≤ data.maxLimit p) ∧
      ∀ k guid later between earlier,
        s.log = later ++ .activate k guid :: (between ++ .activate k guid :: earlier) →
        .remove k guid ∈ between := by
  have hexact : Exact data s := by
    refine hrun.invariant (Exact data) ⟨.start, fun p => Nat.zero_le _⟩ ?_
    rintro s op _ h hok rfl
    exact h.step wf hok
  refine ⟨fun p => ⟨hexact.inv.exact p, hexact.limits p⟩, fun k guid later between earlier hlog => ?_⟩
  exact remove_between k guid later between earlier (hlog ▸ hexact.inv.alternating)

def nested : PoolData where
  maxLimit _ := 1
  group k p :=
    if k = .pool ∧ p = 1 then { equalChanced := [⟨2, 0⟩] }
    else if k = .creature ∧ p = 2 then { equalChanced := [⟨5, 0⟩, ⟨6, 0⟩] }
    else if k = .creature ∧ p = 3 then { equalChanced := [⟨7, 0⟩, ⟨8, 0⟩] }
    else {}
  poolSearchMap p := if p = 2 then some 1 else none
  depth p := if p = 1 then 1 else 0

theorem mem_nested {k : Kind} {p guid : Nat} :
    guid ∈ nested.guids k p ↔ (k = .pool ∧ p = 1 ∧ guid = 2) ∨
      (k = .creature ∧ p = 2 ∧ (guid = 5 ∨ guid = 6)) ∨
      (k = .creature ∧ p = 3 ∧ (guid = 7 ∨ guid = 8)) := by
  unfold PoolData.guids nested PoolGroup.guids
  simp only
  by_cases h₁ : k = .pool ∧ p = 1
  · obtain ⟨rfl, rfl⟩ := h₁
    simp
  · by_cases h₂ : k = .creature ∧ p = 2
    · obtain ⟨rfl, rfl⟩ := h₂
      simp
    · by_cases h₃ : k = .creature ∧ p = 3
      · obtain ⟨rfl, rfl⟩ := h₃
        simp
      · rw [if_neg h₁, if_neg h₂, if_neg h₃]
        simp only [List.append_nil, List.map_nil, List.not_mem_nil, false_iff]
        tauto

theorem nested_wellFormed : nested.WellFormed := by
  refine ⟨fun k p => ?_, fun k p q g hp hq => ?_, fun p m => ?_, fun m p hp => ?_⟩
  · unfold PoolData.guids nested PoolGroup.guids
    simp only
    split
    · decide
    · split
      · decide
      · split <;> decide
  · rw [mem_nested] at hp hq
    omega
  · rw [mem_nested]
    unfold nested
    simp only
    by_cases hp : p = 2 <;> simp [hp, eq_comm]
  · rw [mem_nested] at hp
    obtain ⟨-, rfl, rfl⟩ | ⟨hk, -⟩ | ⟨hk, -⟩ := hp
    · decide
    · cases hk
    · cases hk

def counting : Dice := ⟨fun _ => 0, fun n => n⟩

theorem rooted_nested {p : Nat} (hp : p ≠ 2) : Rooted nested s p := by
  intro m hm
  rw [mem_nested] at hm
  obtain ⟨-, -, h⟩ | ⟨hk, -⟩ | ⟨hk, -⟩ := hm
  · exact absurd h hp
  · cases hk
  · cases hk

theorem pools_run_nested :
    let ops := [PoolOp.spawnPool 1, .updatePool .creature 2 6, .spawnPool 3,
      .updatePool .creature 3 8, .despawnPool 1]
    let s := ops.foldl (PoolMgr.step counting nested) .start
    s.count 3 = 1 ∧ (∀ p, s.count p = activeMembers nested s p ∧ s.count p ≤ 1) ∧
      ∀ k guid later between earlier,
        s.log = later ++ .activate k guid :: (between ++ .activate k guid :: earlier) →
        .remove k guid ∈ between := by
  intro ops s
  have hrun : Lib.Run (Step counting nested) (Allowed nested) .start ops s := by
    refine .cons (rooted_nested (by decide)) rfl (.cons ⟨by decide, by decide⟩ rfl ?_)
    refine .cons (rooted_nested (by decide)) rfl (.cons ⟨by decide, by decide⟩ rfl ?_)
    exact .cons trivial rfl (.nil _)
  exact ⟨by decide, pools_run nested_wellFormed hrun⟩

def twoMothersLoaded : PoolLoad :=
  loadRows (poolTemplate [(1, 1), (2, 1), (3, 1)]) [⟨3, 1, 0⟩, ⟨3, 2, 0⟩]

/-- The tables of `twoMothersLoaded`, without creatures and gameobjects. -/
def twoMothers : PoolData where
  maxLimit _ := 1
  group k p := if k = .pool then twoMothersLoaded.groups p else {}
  poolSearchMap := twoMothersLoaded.poolSearchMap
  depth p := if p = 3 then 0 else 1

/-- The loader keeps a pool under both of its mothers. When one of them is spawned, the other has
an active member that it does not count. -/
theorem pools_fail_twoMothers :
    twoMothersLoaded.check 2 [1, 2, 3] = some twoMothersLoaded ∧
      Lib.Run (Step counting twoMothers)
        (fun s op => ∀ k p guid, op = .updatePool k p guid → s.isActive k guid = true)
        .start [.spawnPool 1] (PoolMgr.start.step counting twoMothers (.spawnPool 1)) ∧
      (PoolMgr.start.step counting twoMothers (.spawnPool 1)).count 2 ≠
        activeMembers twoMothers (PoolMgr.start.step counting twoMothers (.spawnPool 1)) 2 := by
  refine ⟨rfl, .cons ?_ rfl (.nil _), by decide⟩
  rintro k p guid ⟨⟩

end Ashamane.Pools
