import Ashamane.Pools.Spawn

/-! A respawn brings no member back that it takes out, and keeps the places of the pool filled. -/
namespace Ashamane.Pools

variable {data : PoolData} {dice : Dice} {s s' s'' : PoolMgr} {k k' : Kind} {p q guid : Nat}

def Spares (k : Kind) (guid : Nat) (s s' : PoolMgr) : Prop :=
  ∃ new, s'.log = new ++ s.log ∧ .activate k guid ∉ new

namespace Spares

theorem refl (s : PoolMgr) : Spares k guid s s := ⟨[], rfl, List.not_mem_nil⟩

theorem trans (h : Spares k guid s s') (h' : Spares k guid s' s'') : Spares k guid s s'' := by
  obtain ⟨new, hlog, hnot⟩ := h
  obtain ⟨new', hlog', hnot'⟩ := h'
  refine ⟨new' ++ new, by rw [hlog', hlog, List.append_assoc], fun hmem => ?_⟩
  rcases List.mem_append.mp hmem with hmem | hmem
  · exact hnot' hmem
  · exact hnot hmem

theorem activateObject (s : PoolMgr) (h : ¬(k' = k ∧ q = guid)) :
    Spares k guid s (s.activateObject k' q p) := by
  refine ⟨[.activate k' q], rfl, fun hmem => h ?_⟩
  rw [List.mem_singleton, PoolEvent.activate.injEq] at hmem
  exact ⟨hmem.1.symm, hmem.2.symm⟩

theorem removeObject (s : PoolMgr) : Spares k guid s (s.removeObject k' q p) :=
  ⟨[.remove k' q], rfl, by simp⟩

end Spares

namespace PoolMgr

variable {spawnPool despawnPool : Nat → PoolMgr → PoolMgr}

theorem despawnObject_spares (hdown : ∀ q s, Spares k guid s (despawnPool q s)) (k' : Kind)
    (p trigger : Nat) (s : PoolMgr) :
    Spares k guid s (despawnObject data despawnPool k' p trigger s) := by
  unfold despawnObject
  induction data.guids k' p generalizing s with
  | nil => exact .refl s
  | cons member l ih =>
    rw [List.foldl_cons]
    refine .trans ?_ (ih _)
    unfold despawnMember
    split
    · simp only
      split
      · exact (hdown member s).trans (.removeObject _)
      · exact .removeObject s
    · exact .refl s

theorem despawnPoolN_spares (n q : Nat) (s : PoolMgr) :
    Spares k guid s (despawnPoolN data n q s) := by
  induction n generalizing q s with
  | zero => exact .refl s
  | succ n ih =>
    have hkind : ∀ k' s, Spares k guid s (despawnObject data (despawnPoolN data n) k' q 0 s) :=
      fun k' s => despawnObject_spares (fun q s => ih q s) k' q 0 s
    exact ((hkind .creature s).trans (hkind .gameobject _)).trans (hkind .pool _)

def Above (data : PoolData) (depth : Nat) (k : Kind) (guid : Nat) : Prop :=
  ∀ x, data.depth x ≤ depth → guid ∉ data.guids k x

theorem taken_spares (hsub : ∀ q ∈ data.guids .pool p, ∀ s, Spares k guid s (spawnPool q s))
    {obj : Nat} (hobj : obj ∈ data.guids k' p) (hne : ¬(k' = k ∧ obj = guid)) (s : PoolMgr) :
    Spares k guid s (if k' = .pool then spawnPool obj (s.activateObject k' obj p)
      else s.activateObject k' obj p) := by
  split
  next hk =>
    subst hk
    exact (Spares.activateObject s hne).trans (hsub obj hobj _)
  next => exact .activateObject s hne

theorem spawnLoop_spares (hsub : ∀ q ∈ data.guids .pool p, ∀ s, Spares k guid s (spawnPool q s))
    (hdown : ∀ q s, Spares k guid s (despawnPool q s)) (hnot : k' = k → guid ∉ data.guids k' p)
    (n trigger last : Nat) (s : PoolMgr) :
    Spares k guid s (spawnLoop dice data spawnPool despawnPool k' p n trigger last s) := by
  induction n generalizing trigger last s with
  | zero => exact .refl s
  | succ n ih =>
    obtain ⟨d, hstate, hmember⟩ := rollOne_spec dice (k := k') (s := s) (data.group k' p) trigger
    unfold spawnLoop
    generalize rollOne dice (data.group k' p) k' trigger s = rolled at hstate hmember
    obtain ⟨obj, s₁⟩ := rolled
    simp only at hstate hmember
    subst hstate
    cases obj with
    | none => exact ih trigger last { s with draws := d }
    | some obj =>
      obtain ⟨hobj, -⟩ := hmember obj rfl
      have htaken := taken_spares hsub hobj (fun h => hnot h.1 (h.2 ▸ hobj)) { s with draws := d }
      simp only
      split
      · exact ih trigger last { s with draws := d }
      split
      · exact ih 0 last { s with draws := d }
      split
      · exact (htaken.trans (despawnObject_spares hdown _ _ _ _)).trans (ih _ _ _)
      · exact htaken.trans (ih _ _ _)

theorem spawnGroup_spares (hsub : ∀ q ∈ data.guids .pool p, ∀ s, Spares k guid s (spawnPool q s))
    (hdown : ∀ q s, Spares k guid s (despawnPool q s)) (hnot : k' = k → guid ∉ data.guids k' p)
    (trigger : Nat) (s : PoolMgr) :
    Spares k guid s (spawnGroup dice data spawnPool despawnPool k' p trigger s) := by
  unfold spawnGroup
  split
  · exact .refl s
  · exact spawnLoop_spares hsub hdown hnot _ _ _ s

theorem spawnPoolN_spares (wf : data.WellFormed) (n q : Nat)
    (habove : Above data (data.depth q) k guid) (s : PoolMgr) :
    Spares k guid s (spawnPoolN dice data n q s) := by
  induction n generalizing q s with
  | zero => exact .refl s
  | succ n ih =>
    have hsub : ∀ q' ∈ data.guids .pool q, ∀ s, Spares k guid s (spawnPoolN dice data n q' s) := by
      intro q' hq' s
      have hnest := wf.nested q q' hq'
      exact ih q' (fun x hx => habove x (by omega)) s
    have hkind : ∀ k' s, Spares k guid s
        (spawnGroup dice data (spawnPoolN dice data n) (despawnPoolN data n) k' q 0 s) :=
      fun k' s => spawnGroup_spares hsub (fun q s => despawnPoolN_spares n q s)
        (fun h : k' = k => h ▸ habove q (Nat.le_refl _)) 0 s
    exact ((hkind .pool s).trans (hkind .gameobject _)).trans (hkind .creature _)

/-- Of a despawn of one member only that member's turn does anything. -/
theorem despawnObject_eq (wf : data.WellFormed) (hguid : guid ≠ 0) (hg : guid ∈ data.guids k p) :
    despawnObject data despawnPool k p guid s = despawnMember despawnPool k p guid s guid := by
  have hother : ∀ s member, member ≠ guid → despawnMember despawnPool k p guid s member = s := by
    intro s member hne
    unfold despawnMember
    rw [if_neg (by simp [hguid, hne])]
  have hrest : ∀ (l : List Nat) (s : PoolMgr), guid ∉ l →
      l.foldl (despawnMember despawnPool k p guid) s = s := by
    intro l s hl
    induction l with
    | nil => rfl
    | cons x l ih =>
      rw [List.mem_cons, not_or] at hl
      rw [List.foldl_cons, hother s x (Ne.symm hl.1), ih hl.2]
  unfold despawnObject
  obtain ⟨before, after, hsplit⟩ := List.append_of_mem hg
  have hnodup := wf.nodup k p
  rw [hsplit] at hnodup ⊢
  have hdisjoint := List.nodup_middle.mp hnodup
  rw [List.nodup_cons, List.mem_append, not_or] at hdisjoint
  rw [List.foldl_append, List.foldl_cons, hrest before s hdisjoint.1.1, hrest after _ hdisjoint.1.2]

theorem despawnObject_count (wf : data.WellFormed)
    (hsub : ∀ q ∈ data.guids .pool p, Despawns data despawnPool q) (h : Inv data s)
    (hguid : guid ≠ 0) (hg : guid ∈ data.guids k p) (hon : s.isActive k guid = true) :
    (despawnObject data despawnPool k p guid s).count p + 1 = s.count p := by
  have hpos := h.count_pos hg hon
  rw [despawnObject_eq wf hguid hg, despawnMember, if_pos (by simp [hon])]
  by_cases hk : k = .pool
  · subst hk
    obtain ⟨hdown, hzero⟩ := hsub guid hg s h
    have hnest := wf.nested p guid hg
    have hsame := hdown.elsewhere p (by rintro rfl; exact Nat.lt_irrefl _ hnest)
      (Nat.le_of_lt hnest)
    simp only [if_true]
    rw [count_removeObject fun _ => hzero, if_pos rfl, hsame]
    omega
  · simp only [if_neg hk]
    rw [count_removeObject fun h => absurd h hk, if_pos rfl]
    omega

end PoolMgr

theorem Spawned.count_le (h : Spawned data p s s') (hinv : Inv data s) (q : Nat) :
    s.count q ≤ s'.count q := by
  have hle : ∀ k, activeOf data s k q ≤ activeOf data s' k q := fun k =>
    List.countP_mono_left fun x _ => h.grows k x
  rw [hinv.exact q, h.inv.exact q]
  exact Nat.add_le_add (Nat.add_le_add (hle _) (hle _)) (hle _)

namespace PoolMgr

variable {spawnPool despawnPool : Nat → PoolMgr → PoolMgr}

/-- After the respawn a member that is active, or was the last one out, is not activated. -/
theorem spawnLoop_fresh_spares (wf : data.WellFormed)
    (hspawns : ∀ q ∈ data.guids .pool p, Spawns data spawnPool q)
    (hsub : ∀ q ∈ data.guids .pool p, ∀ s, Spares k guid s (spawnPool q s)) (n last : Nat)
    (hsafe : s.isActive k guid = true ∨ last = guid) (h : Inv data s) (hroot : Rooted data s p)
    (hbelow : Below data p s) :
    Spares k guid s (spawnLoop dice data spawnPool despawnPool k p n 0 last s) := by
  induction n generalizing s with
  | zero => exact .refl s
  | succ n ih =>
    obtain ⟨d, hstate, hmember⟩ := rollOne_spec dice (k := k) (s := s) (data.group k p) 0
    have hdraw := Spawned.draws h hbelow d
    have hskip := ih (s := { s with draws := d }) hsafe hdraw.inv (hdraw.rooted hroot) hdraw.below
    unfold spawnLoop
    generalize rollOne dice (data.group k p) k 0 s = rolled at hstate hmember
    obtain ⟨obj, s₁⟩ := rolled
    simp only at hstate hmember
    subst hstate
    cases obj with
    | none => exact hskip
    | some obj =>
      simp only
      split
      · exact hskip
      next hlast =>
        split
        · exact hskip
        next hne =>
          obtain ⟨hobj, hfree⟩ := hmember obj rfl
          have hoff := hfree.resolve_left hne
          have hother : ¬(k = k ∧ obj.guid = guid) := by
            rintro ⟨-, rfl⟩
            rcases hsafe with hon | hout
            · rw [hon] at hoff
              cases hoff
            · exact hlast hout.symm
          have htaken := taken_spares hsub hobj hother { s with draws := d }
          obtain ⟨s₂, hs₂, hturn, -⟩ := turn_spec wf hspawns hdraw.inv (hdraw.rooted hroot)
            hdraw.below hobj hoff
          rw [← hs₂] at htaken ⊢
          refine htaken.trans (ih (hsafe.imp_left fun hon => ?_) hturn.inv
            ((hdraw.trans hturn).rooted hroot) hturn.below)
          exact (hdraw.trans hturn).grows k guid hon

/-- With a respawn the member is not activated, and no place is lost. -/
theorem spawnLoop_respawn_spares (wf : data.WellFormed)
    (hspawns : ∀ q ∈ data.guids .pool p, Spawns data spawnPool q)
    (hdespawns : ∀ q ∈ data.guids .pool p, Despawns data despawnPool q)
    (hsub : ∀ q ∈ data.guids .pool p, ∀ s, Spares k guid s (spawnPool q s))
    (hdown : ∀ q s, Spares k guid s (despawnPool q s)) (n : Nat) (hguid : guid ≠ 0)
    (hsmall : guid < 2 ^ 32) (hg : guid ∈ data.guids k p) (hon : s.isActive k guid = true)
    (h : Inv data s) (hroot : Rooted data s p) (hbelow : Below data p s) :
    Spares k guid s (spawnLoop dice data spawnPool despawnPool k p n guid 0 s) ∧
      s.count p ≤ (spawnLoop dice data spawnPool despawnPool k p n guid 0 s).count p := by
  induction n generalizing s with
  | zero => exact ⟨.refl s, Nat.le_refl _⟩
  | succ n ih =>
    obtain ⟨d, hstate, hmember⟩ := rollOne_spec dice (k := k) (s := s) (data.group k p) guid
    have hdraw := Spawned.draws h hbelow d
    have hskip := ih (s := { s with draws := d }) hon hdraw.inv (hdraw.rooted hroot) hdraw.below
    unfold spawnLoop
    generalize rollOne dice (data.group k p) k guid s = rolled at hstate hmember
    obtain ⟨obj, s₁⟩ := rolled
    simp only at hstate hmember
    subst hstate
    cases obj with
    | none => exact hskip
    | some obj =>
      simp only
      split
      · exact hskip
      split
      · -- the member itself is rolled and stays active
        obtain ⟨hrest, -⟩ := spawnLoop_fresh dice despawnPool (k := k) wf hspawns n 0 hdraw.inv
          (hdraw.rooted hroot) hdraw.below
        exact ⟨spawnLoop_fresh_spares (s := { s with draws := d }) wf hspawns hsub n 0 (.inl hon)
          hdraw.inv (hdraw.rooted hroot) hdraw.below, hrest.count_le hdraw.inv p⟩
      next hne =>
        obtain ⟨hobj, hfree⟩ := hmember obj rfl
        have htaken := taken_spares hsub hobj (fun h : k = k ∧ obj.guid = guid => hne h.2)
          { s with draws := d }
        obtain ⟨s₂, hs₂, hturn, hcount⟩ := turn_spec wf hspawns hdraw.inv (hdraw.rooted hroot)
          hdraw.below hobj (hfree.resolve_left hne)
        rw [← hs₂] at htaken
        rw [← hs₂]
        have hup := hdraw.trans hturn
        have hactive := hup.grows k guid hon
        obtain ⟨hout, -⟩ := despawnObject_one wf hdespawns hturn.inv hg hactive
        have hone := despawnObject_count wf hdespawns hturn.inv hguid hg hactive
        have hkept := hup.toKept.trans (.of_despawned hout hturn.below)
        obtain ⟨hrest, -⟩ := spawnLoop_fresh dice despawnPool (k := k) wf hspawns n
          (guid % 2 ^ 32) hkept.inv (hkept.rooted hroot) hkept.below
        refine ⟨(htaken.trans (despawnObject_spares hdown _ _ _ _)).trans
          (spawnLoop_fresh_spares wf hspawns hsub n (guid % 2 ^ 32)
            (.inr (Nat.mod_eq_of_lt hsmall)) hkept.inv (hkept.rooted hroot) hkept.below), ?_⟩
        have hmore := hrest.count_le hkept.inv p
        have hsame : s₂.count p = s.count p + 1 := hcount
        omega

/-- `SpawnObject` for the kind of members, as the pool is updated with it. -/
def respawn (dice : Dice) (data : PoolData) (k : Kind) (p triggerFrom : Nat) (s : PoolMgr) :
    PoolMgr :=
  spawnObject dice data (spawnPoolN dice data (data.depth p)) (despawnPoolN data (data.depth p))
    k p triggerFrom s

end PoolMgr

/-- Reached by calls that use the pools as they are meant to be used. -/
theorem exact_of_run (wf : data.WellFormed) {ops : List PoolOp}
    (hrun : Lib.Run (Step dice data) (Allowed data) .start ops s) : Exact data s := by
  refine hrun.invariant (Exact data) ⟨.start, fun p => Nat.zero_le _⟩ ?_
  rintro s op _ h hok rfl
  exact h.step wf hok

def wideGuid : PoolData where
  maxLimit _ := 2
  group k p :=
    if k = .creature ∧ p = 3 then { equalChanced := [⟨2 ^ 32 + 7, 0⟩, ⟨8, 0⟩, ⟨9, 0⟩] } else {}
  poolSearchMap _ := none
  depth _ := 0

def firstButOnce : Dice := ⟨fun _ => 0, fun n => if n = 2 then 1 else 0⟩

theorem wideGuid_wellFormed : wideGuid.WellFormed := by
  have hguids : ∀ k p, wideGuid.guids k p =
      if k = .creature ∧ p = 3 then [2 ^ 32 + 7, 8, 9] else [] := by
    intro k p
    unfold PoolData.guids wideGuid PoolGroup.guids
    simp only
    split <;> rfl
  refine ⟨fun k p => ?_, fun k p q g hp hq => ?_, fun p m => ?_, fun m p hp => ?_⟩
  · rw [hguids]
    split <;> decide
  · rw [hguids] at hp hq
    split at hp
    · split at hq
      · omega
      · cases hq
    · cases hp
  · simp only [hguids]
    simp [wideGuid]
  · simp [hguids] at hp

end Ashamane.Pools
