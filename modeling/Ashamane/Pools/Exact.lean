import Ashamane.Pools.Basic
import Mathlib.Data.List.Nodup

/-! The number of a pool is the number of its active members, through every single
activation and removal. -/
namespace Ashamane.Pools

variable {data : PoolData} {s s' : PoolMgr}

def Pending (k : Kind) (guid : Nat) : List PoolEvent → Prop
  | [] => False
  | .activate k' guid' :: log => (k' = k ∧ guid' = guid) ∨ Pending k guid log
  | .remove k' guid' :: log => ¬ (k' = k ∧ guid' = guid) ∧ Pending k guid log

def Alternating : List PoolEvent → Prop
  | [] => True
  | .activate k guid :: log => ¬ Pending k guid log ∧ Alternating log
  | .remove _ _ :: log => Alternating log

theorem remove_between (k : Kind) (guid : Nat) (later between earlier : List PoolEvent)
    (h : Alternating (later ++ .activate k guid :: (between ++ .activate k guid :: earlier))) :
    .remove k guid ∈ between := by
  have hcut : ∀ later : List PoolEvent, ∀ l, Alternating (later ++ l) → Alternating l := by
    intro later l hl
    induction later with
    | nil => exact hl
    | cons e later ih =>
      cases e with
      | activate k' g' => exact ih hl.2
      | remove k' g' => exact ih hl
  have hpending : ∀ between : List PoolEvent, .remove k guid ∉ between →
      Pending k guid (between ++ .activate k guid :: earlier) := by
    intro between hno
    induction between with
    | nil => exact .inl ⟨rfl, rfl⟩
    | cons e between ih =>
      rw [List.mem_cons, not_or] at hno
      cases e with
      | activate k' g' => exact .inr (ih hno.2)
      | remove k' g' =>
        refine ⟨?_, ih hno.2⟩
        rintro ⟨rfl, rfl⟩
        exact hno.1 rfl
  by_contra hno
  exact (hcut later _ h).1 (hpending between hno)

def activeOf (data : PoolData) (s : PoolMgr) (k : Kind) (p : Nat) : Nat :=
  (data.guids k p).countP (s.isActive k)

def activeMembers (data : PoolData) (s : PoolMgr) (p : Nat) : Nat :=
  activeOf data s .creature p + activeOf data s .gameobject p + activeOf data s .pool p

structure Inv (data : PoolData) (s : PoolMgr) : Prop where
  exact : ∀ p, s.count p = activeMembers data s p
  alternating : Alternating s.log
  logged : ∀ k p guid, guid ∈ data.guids k p → (s.isActive k guid = true ↔ Pending k guid s.log)

def Rooted (data : PoolData) (s : PoolMgr) (p : Nat) : Prop :=
  ∀ m, p ∈ data.guids .pool m → s.isActive .pool p = true

theorem countP_add {f f' : Nat → Bool} {l : List Nat} {g : Nat} (hl : l.Nodup) (hg : g ∈ l)
    (hoff : f g = false) (h : ∀ x ∈ l, f' x = (f x || decide (x = g))) :
    l.countP f' = l.countP f + 1 := by
  induction l with
  | nil => cases hg
  | cons y l ih =>
    have hy := h y List.mem_cons_self
    rw [List.nodup_cons] at hl
    rw [List.countP_cons, List.countP_cons]
    by_cases hyg : y = g
    · subst hyg
      have hrest : l.countP f' = l.countP f := by
        refine List.countP_congr fun x hx => ?_
        have hne : x ≠ y := fun heq => hl.1 (heq ▸ hx)
        rw [h x (List.mem_cons_of_mem _ hx)]
        simp [hne]
      rw [hrest, hy, hoff]
      simp
    · have hrest := ih hl.2 ((List.mem_cons.mp hg).resolve_left (Ne.symm hyg))
        fun x hx => h x (List.mem_cons_of_mem _ hx)
      rw [hrest, hy]
      simp [hyg]
      omega

theorem activeMembers_add (wf : data.WellFormed) {k : Kind} {p guid : Nat}
    (hg : guid ∈ data.guids k p) (hoff : s.isActive k guid = false)
    (h : ∀ k' q, ∀ x ∈ data.guids k' q,
      s'.isActive k' x = (s.isActive k' x || decide (k' = k ∧ x = guid))) (q : Nat) :
    activeMembers data s' q = activeMembers data s q + if q = p then 1 else 0 := by
  have hsame : ∀ k', (k' ≠ k ∨ q ≠ p) → activeOf data s' k' q = activeOf data s k' q := by
    intro k' hne
    refine List.countP_congr fun x hx => ?_
    rw [h k' q x hx]
    have hno : ¬ (k' = k ∧ x = guid) := by
      rintro ⟨rfl, rfl⟩
      exact hne.elim (fun hk => hk rfl) fun hq => hq (wf.unique _ _ _ _ hx hg)
    simp [hno]
  have hplus : q = p → activeOf data s' k q = activeOf data s k q + 1 := by
    rintro rfl
    refine countP_add (wf.nodup k q) hg hoff fun x hx => ?_
    rw [h k q x hx]
    simp
  unfold activeMembers
  by_cases hq : q = p
  · have hk := hplus hq
    rw [if_pos hq]
    cases k with
    | creature => rw [hk, hsame .gameobject (.inl (by decide)), hsame .pool (.inl (by decide))]; omega
    | gameobject => rw [hk, hsame .creature (.inl (by decide)), hsame .pool (.inl (by decide))]; omega
    | pool => rw [hk, hsame .creature (.inl (by decide)), hsame .gameobject (.inl (by decide))]; omega
  · rw [if_neg hq, hsame _ (.inr hq), hsame _ (.inr hq), hsame _ (.inr hq), Nat.add_zero]

namespace ActivePoolData

variable {a : ActivePoolData}

@[simp] theorem isActiveObject_setCount (p n : Nat) (k : Kind) (x : Nat) :
    (a.setCount p n).isActiveObject k x =
      (a.isActiveObject k x || decide (k = .pool ∧ x = p)) := by
  cases k with
  | creature => simp [isActiveObject, setCount]
  | gameobject => simp [isActiveObject, setCount]
  | pool => by_cases hx : x = p <;> simp [isActiveObject, setCount, hx]

@[simp] theorem isActiveObject_mark (k : Kind) (guid : Nat) (k' : Kind) (x : Nat) :
    (a.mark k guid).isActiveObject k' x =
      (a.isActiveObject k' x || decide (k' = k ∧ x = guid)) := by
  cases k with
  | creature => cases k' <;> by_cases hx : x = guid <;> simp [isActiveObject, mark, hx]
  | gameobject => cases k' <;> by_cases hx : x = guid <;> simp [isActiveObject, mark, hx]
  | pool => exact isActiveObject_setCount guid 0 k' x

@[simp] theorem isActiveObject_unmark (k : Kind) (guid : Nat) (k' : Kind) (x : Nat) :
    (a.unmark k guid).isActiveObject k' x =
      (a.isActiveObject k' x && ! decide (k' = k ∧ x = guid)) := by
  cases k <;> cases k' <;> by_cases hx : x = guid <;> simp [isActiveObject, unmark, hx]

@[simp] theorem getActiveObjectCount_setCount (p n q : Nat) :
    (a.setCount p n).getActiveObjectCount q = if q = p then n else a.getActiveObjectCount q := by
  by_cases hq : q = p <;> simp [getActiveObjectCount, setCount, hq]

theorem getActiveObjectCount_mark {k : Kind} {guid : Nat}
    (h : k = .pool → a.getActiveObjectCount guid = 0) (q : Nat) :
    (a.mark k guid).getActiveObjectCount q = a.getActiveObjectCount q := by
  cases k with
  | creature => rfl
  | gameobject => rfl
  | pool =>
    refine (getActiveObjectCount_setCount guid 0 q).trans ?_
    split
    · next hq => rw [hq, h rfl]
    · rfl

theorem getActiveObjectCount_unmark {k : Kind} {guid : Nat}
    (h : k = .pool → a.getActiveObjectCount guid = 0) (q : Nat) :
    (a.unmark k guid).getActiveObjectCount q = a.getActiveObjectCount q := by
  cases k with
  | creature => rfl
  | gameobject => rfl
  | pool =>
    have hguid := h rfl
    unfold getActiveObjectCount at hguid ⊢
    by_cases hq : q = guid
    · subst hq
      simp [unmark, hguid]
    · simp [unmark, hq]

theorem getActiveObjectCount_of_inactive {p : Nat} (h : a.isActiveObject .pool p = false) :
    a.getActiveObjectCount p = 0 := by
  unfold isActiveObject at h
  unfold getActiveObjectCount
  rw [Option.isSome_eq_false_iff, Option.isNone_iff_eq_none] at h
  rw [h]
  rfl

end ActivePoolData

namespace PoolMgr

theorem isActive_of_count {p : Nat} (h : s.count p ≠ 0) : s.isActive .pool p = true := by
  by_contra hoff
  exact h (ActivePoolData.getActiveObjectCount_of_inactive (Bool.eq_false_iff.mpr hoff))

theorem isActive_activateObject (k : Kind) (guid p : Nat) (k' : Kind) (x : Nat) :
    (s.activateObject k guid p).isActive k' x =
      (s.isActive k' x || decide (k' = k ∧ x = guid) || decide (k' = .pool ∧ x = p)) := by
  simp [isActive, activateObject, ActivePoolData.activateObject]

theorem isActive_removeObject (k : Kind) (guid p : Nat) (k' : Kind) (x : Nat) :
    (s.removeObject k guid p).isActive k' x =
      ((s.isActive k' x && ! decide (k' = k ∧ x = guid)) || decide (k' = .pool ∧ x = p)) := by
  simp [isActive, removeObject, ActivePoolData.removeObject]

theorem count_activateObject {k : Kind} {guid : Nat} (h : k = .pool → s.count guid = 0) (p q : Nat) :
    (s.activateObject k guid p).count q = s.count q + if q = p then 1 else 0 := by
  unfold count activateObject ActivePoolData.activateObject
  simp only [ActivePoolData.getActiveObjectCount_setCount,
    ActivePoolData.getActiveObjectCount_mark h]
  split
  · next hq => rw [hq]
  · rfl

theorem count_removeObject {k : Kind} {guid : Nat} (h : k = .pool → s.count guid = 0) (p q : Nat) :
    (s.removeObject k guid p).count q = s.count q - if q = p then 1 else 0 := by
  unfold count removeObject ActivePoolData.removeObject
  simp only [ActivePoolData.getActiveObjectCount_setCount,
    ActivePoolData.getActiveObjectCount_unmark h]
  split
  · next hq => rw [hq]
  · rfl

end PoolMgr

theorem Inv.activateObject (wf : data.WellFormed) (h : Inv data s) {k : Kind} {p guid : Nat}
    (hg : guid ∈ data.guids k p) (hoff : s.isActive k guid = false) (hroot : Rooted data s p) :
    Inv data (s.activateObject k guid p) := by
  have hcount : k = .pool → s.count guid = 0 := by
    rintro rfl
    exact ActivePoolData.getActiveObjectCount_of_inactive hoff
  have hactive : ∀ k' q, ∀ x ∈ data.guids k' q, (s.activateObject k guid p).isActive k' x =
      (s.isActive k' x || decide (k' = k ∧ x = guid)) := by
    intro k' q x hx
    rw [PoolMgr.isActive_activateObject]
    by_cases hown : k' = .pool ∧ x = p
    · obtain ⟨rfl, rfl⟩ := hown
      simp [hroot q hx]
    · simp [hown]
  refine ⟨fun q => ?_, ⟨?_, h.alternating⟩, fun k' q x hx => ?_⟩
  · rw [PoolMgr.count_activateObject hcount, activeMembers_add wf hg hoff hactive, h.exact q]
  · rw [← h.logged k p guid hg, hoff]
    simp
  · rw [hactive k' q x hx]
    have hlog := h.logged k' q x hx
    simp only [Bool.or_eq_true, decide_eq_true_eq, hlog]
    constructor
    · rintro (hin | ⟨rfl, rfl⟩)
      · exact .inr hin
      · exact .inl ⟨rfl, rfl⟩
    · rintro (⟨rfl, rfl⟩ | hin)
      · exact .inr ⟨rfl, rfl⟩
      · exact .inl hin

theorem Inv.count_pos (h : Inv data s) {k : Kind} {p guid : Nat} (hg : guid ∈ data.guids k p)
    (hon : s.isActive k guid = true) : 0 < s.count p := by
  rw [h.exact p]
  have hpos : 0 < activeOf data s k p := List.countP_pos_iff.mpr ⟨guid, hg, hon⟩
  unfold activeMembers
  cases k <;> omega

theorem Inv.count_lt (wf : data.WellFormed) (h : Inv data s) (h' : Inv data s')
    (hshrinks : ∀ k x, s'.isActive k x = true → s.isActive k x = true) {k : Kind} {p guid : Nat}
    (hg : guid ∈ data.guids k p) (hon : s.isActive k guid = true)
    (hoff : s'.isActive k guid = false) : s'.count p < s.count p := by
  have hle : ∀ k, activeOf data s' k p ≤ activeOf data s k p := fun k =>
    List.countP_mono_left fun x _ => hshrinks k x
  have hlt : activeOf data s' k p < activeOf data s k p := by
    have hplus : activeOf data s k p =
        (data.guids k p).countP (fun x => s.isActive k x && decide (x ≠ guid)) + 1 := by
      refine countP_add (wf.nodup k p) hg (by simp) fun x _ => ?_
      by_cases hx : x = guid <;> simp [hx, hon]
    rw [hplus]
    refine Nat.lt_succ_of_le (List.countP_mono_left fun x _ hx => ?_)
    have hne : x ≠ guid := by
      rintro rfl
      rw [hoff] at hx
      cases hx
    simp [hshrinks k x hx, hne]
  rw [h.exact p, h'.exact p]
  unfold activeMembers
  have h₁ := hle .creature
  have h₂ := hle .gameobject
  have h₃ := hle .pool
  cases k <;> omega

theorem Inv.removeObject (wf : data.WellFormed) (h : Inv data s) {k : Kind} {p guid : Nat}
    (hg : guid ∈ data.guids k p) (hon : s.isActive k guid = true)
    (hempty : k = .pool → s.count guid = 0) : Inv data (s.removeObject k guid p) := by
  have hp : s.isActive .pool p = true :=
    PoolMgr.isActive_of_count (Nat.ne_of_gt (h.count_pos hg hon))
  have hnot : k = .pool → guid ≠ p := by
    rintro rfl rfl
    exact absurd (wf.nested guid guid hg) (Nat.lt_irrefl _)
  have hactive : ∀ k' x, (s.removeObject k guid p).isActive k' x =
      (s.isActive k' x && ! decide (k' = k ∧ x = guid)) := by
    intro k' x
    rw [PoolMgr.isActive_removeObject]
    by_cases hown : k' = .pool ∧ x = p
    · obtain ⟨rfl, rfl⟩ := hown
      have hne : ¬ (.pool = k ∧ x = guid) := fun heq => hnot heq.1.symm heq.2.symm
      simp [hp, hne]
    · simp [hown]
  refine ⟨fun q => ?_, h.alternating, fun k' q x hx => ?_⟩
  · -- the members after the removal are one fewer, seen from the state after it
    have hback := @activeMembers_add data (s.removeObject k guid p) s wf _ _ _ hg
      (by rw [hactive]; simp) (fun k' q x _ => by
        rw [hactive]
        by_cases heq : k' = k ∧ x = guid
        · simp [heq, hon]
        · simp [heq]) q
    rw [PoolMgr.count_removeObject hempty, h.exact q, hback]
    omega
  · rw [hactive]
    have hlog := h.logged k' q x hx
    simp only [Bool.and_eq_true, Bool.not_eq_true', decide_eq_false_iff_not, hlog]
    constructor
    · rintro ⟨hin, hne⟩
      exact ⟨fun heq => hne ⟨heq.1.symm, heq.2.symm⟩, hin⟩
    · rintro ⟨hne, hin⟩
      exact ⟨hin, fun heq => hne ⟨heq.1.symm, heq.2.symm⟩⟩

theorem Inv.start : Inv data PoolMgr.start := by
  refine ⟨fun p => ?_, trivial, fun k p guid _ => ?_⟩
  · have hnone : ∀ k, activeOf data PoolMgr.start k p = 0 := by
      intro k
      refine List.countP_eq_zero.mpr fun x _ => ?_
      cases k <;> exact Bool.false_ne_true
    unfold activeMembers
    rw [hnone, hnone, hnone]
    rfl
  · cases k <;> exact ⟨fun hon => Bool.noConfusion hon, False.elim⟩

end Ashamane.Pools

/-! Despawning keeps the numbers exact and empties a pool with all that is under it. -/
namespace Ashamane.Pools

variable {data : PoolData} {s s' s'' : PoolMgr}

/-- What a removal of members of `q`, or of pools under it, leaves behind. -/
structure Despawned (data : PoolData) (q : Nat) (s s' : PoolMgr) : Prop where
  inv : Inv data s'
  shrinks : ∀ k x, s'.isActive k x = true → s.isActive k x = true
  counts : ∀ x, s'.count x ≤ s.count x
  elsewhere : ∀ x, x ≠ q → data.depth q ≤ data.depth x → s'.count x = s.count x
  keys : ∀ x, data.depth q ≤ data.depth x → s.isActive .pool x = true → s'.isActive .pool x = true

namespace Despawned

variable {p q : Nat}

theorem refl (h : Inv data s) (q : Nat) : Despawned data q s s :=
  ⟨h, fun _ _ hx => hx, fun _ => Nat.le_refl _, fun _ _ _ => rfl, fun _ _ hx => hx⟩

theorem trans (h : Despawned data q s s') (h' : Despawned data q s' s'') :
    Despawned data q s s'' :=
  ⟨h'.inv, fun k x hx => h.shrinks k x (h'.shrinks k x hx),
    fun x => Nat.le_trans (h'.counts x) (h.counts x),
    fun x hne hd => (h'.elsewhere x hne hd).trans (h.elsewhere x hne hd),
    fun x hd hx => h'.keys x hd (h.keys x hd hx)⟩

theorem above (h : Despawned data q s s') (hd : data.depth q < data.depth p) :
    Despawned data p s s' := by
  refine ⟨h.inv, h.shrinks, h.counts, fun x _ hx => h.elsewhere x ?_ (by omega),
    fun x hx => h.keys x (by omega)⟩
  rintro rfl
  omega

theorem inactive (h : Despawned data q s s') {k : Kind} {x : Nat} (hoff : s.isActive k x = false) :
    s'.isActive k x = false := by
  by_contra hon
  rw [Bool.not_eq_false] at hon
  rw [h.shrinks k x hon] at hoff
  cases hoff

theorem removeObject (wf : data.WellFormed) (h : Inv data s) {k : Kind} {guid : Nat}
    (hg : guid ∈ data.guids k p) (hon : s.isActive k guid = true)
    (hempty : k = .pool → s.count guid = 0) : Despawned data p s (s.removeObject k guid p) := by
  have hp : s.isActive .pool p = true :=
    PoolMgr.isActive_of_count (Nat.ne_of_gt (h.count_pos hg hon))
  refine ⟨h.removeObject wf hg hon hempty, fun k' x hx => ?_, fun x => ?_, fun x hne _ => ?_,
    fun x hd hx => ?_⟩
  · rw [PoolMgr.isActive_removeObject, Bool.or_eq_true, decide_eq_true_eq] at hx
    obtain hx | ⟨rfl, rfl⟩ := hx
    · exact (Bool.and_eq_true_iff.mp hx).1
    · exact hp
  · rw [PoolMgr.count_removeObject hempty]
    exact Nat.sub_le _ _
  · rw [PoolMgr.count_removeObject hempty, if_neg hne, Nat.sub_zero]
  · rw [PoolMgr.isActive_removeObject, hx]
    by_cases hkey : Kind.pool = k ∧ x = guid
    · -- a member lies deeper than its pool
      obtain ⟨rfl, rfl⟩ := hkey
      have hnest := wf.nested p x hg
      omega
    · simp [hkey]

end Despawned

def Despawns (data : PoolData) (despawnPool : Nat → PoolMgr → PoolMgr) (q : Nat) : Prop :=
  ∀ s, Inv data s → Despawned data q s (despawnPool q s) ∧ (despawnPool q s).count q = 0

namespace PoolMgr

variable {despawnPool : Nat → PoolMgr → PoolMgr} {k : Kind} {p : Nat}

theorem despawnMember_spec (wf : data.WellFormed)
    (hsub : ∀ q ∈ data.guids .pool p, Despawns data despawnPool q) (h : Inv data s)
    {member : Nat} (hmem : member ∈ data.guids k p) (guid : Nat) :
    Despawned data p s (despawnMember despawnPool k p guid s member) ∧
      (guid = 0 ∨ member = guid →
        (despawnMember despawnPool k p guid s member).isActive k member = false) := by
  unfold despawnMember
  by_cases hturn : s.isActive k member = true ∧ (guid = 0 ∨ member = guid)
  · rw [if_pos (by simpa using hturn)]
    have hmid : ∃ s₁, s₁ = (if k = .pool then despawnPool member s else s) ∧
        Despawned data p s s₁ ∧ s₁.isActive k member = true ∧
        (k = .pool → s₁.count member = 0) := by
      refine ⟨_, rfl, ?_⟩
      by_cases hk : k = .pool
      · subst hk
        obtain ⟨hdown, hzero⟩ := hsub member hmem s h
        rw [if_pos rfl]
        exact ⟨hdown.above (wf.nested p member hmem),
          hdown.keys member (Nat.le_refl _) hturn.1, fun _ => hzero⟩
      · rw [if_neg hk]
        exact ⟨.refl h p, hturn.1, fun hpool => absurd hpool hk⟩
    obtain ⟨s₁, hs₁, hdown, hon, hzero⟩ := hmid
    simp only [← hs₁]
    refine ⟨hdown.trans (.removeObject wf hdown.inv hmem hon hzero), fun _ => ?_⟩
    have hne : ¬ (k = .pool ∧ member = p) := by
      rintro ⟨rfl, rfl⟩
      exact Nat.lt_irrefl _ (wf.nested member member hmem)
    rw [isActive_removeObject]
    simp [hne]
  · rw [if_neg (by simpa using hturn)]
    exact ⟨.refl h p, fun hguid => Bool.eq_false_iff.mpr fun hon => hturn ⟨hon, hguid⟩⟩

theorem despawnMembers_spec (wf : data.WellFormed)
    (hsub : ∀ q ∈ data.guids .pool p, Despawns data despawnPool q) (guid : Nat) (l : List Nat)
    (hl : ∀ x ∈ l, x ∈ data.guids k p) (h : Inv data s) :
    Despawned data p s (l.foldl (despawnMember despawnPool k p guid) s) ∧
      ∀ x ∈ l, guid = 0 ∨ x = guid →
        (l.foldl (despawnMember despawnPool k p guid) s).isActive k x = false := by
  induction l generalizing s with
  | nil => exact ⟨.refl h p, fun x hx => absurd hx List.not_mem_nil⟩
  | cons y l ih =>
    rw [List.foldl_cons]
    obtain ⟨hturn, hown⟩ := despawnMember_spec wf hsub h (hl y List.mem_cons_self) guid
    obtain ⟨hrest, hmem⟩ := ih (fun x hx => hl x (List.mem_cons_of_mem _ hx)) hturn.inv
    refine ⟨hturn.trans hrest, fun x hx hguid => ?_⟩
    obtain rfl | hx := List.mem_cons.mp hx
    · exact hrest.inactive (hown hguid)
    · exact hmem x hx hguid

theorem despawnObject_all (wf : data.WellFormed)
    (hsub : ∀ q ∈ data.guids .pool p, Despawns data despawnPool q) (h : Inv data s) :
    Despawned data p s (despawnObject data despawnPool k p 0 s) ∧
      ∀ x ∈ data.guids k p, (despawnObject data despawnPool k p 0 s).isActive k x = false := by
  obtain ⟨hdown, hoff⟩ := despawnMembers_spec (k := k) wf hsub 0 _ (fun _ hx => hx) h
  exact ⟨hdown, fun x hx => hoff x hx (.inl rfl)⟩

theorem despawnObject_one (wf : data.WellFormed)
    (hsub : ∀ q ∈ data.guids .pool p, Despawns data despawnPool q) (h : Inv data s) {guid : Nat}
    (hg : guid ∈ data.guids k p) (hon : s.isActive k guid = true) :
    Despawned data p s (despawnObject data despawnPool k p guid s) ∧
      (despawnObject data despawnPool k p guid s).count p < s.count p := by
  obtain ⟨hdown, hoff⟩ := despawnMembers_spec (k := k) wf hsub guid _ (fun _ hx => hx) h
  exact ⟨hdown, h.count_lt wf hdown.inv hdown.shrinks hg hon (hoff guid hg (.inr rfl))⟩

theorem despawnPoolN_spec (wf : data.WellFormed) (n q : Nat) (hn : data.depth q < n) :
    Despawns data (despawnPoolN data n) q := by
  induction n generalizing q with
  | zero => exact absurd hn (Nat.not_lt_zero _)
  | succ n ih =>
    intro s h
    have hsub : ∀ q' ∈ data.guids .pool q, Despawns data (despawnPoolN data n) q' := by
      intro q' hq'
      have hnest := wf.nested q q' hq'
      exact ih q' (by omega)
    obtain ⟨h₁, hoff₁⟩ := despawnObject_all (k := .creature) wf hsub h
    obtain ⟨h₂, hoff₂⟩ := despawnObject_all (k := .gameobject) wf hsub h₁.inv
    obtain ⟨h₃, hoff₃⟩ := despawnObject_all (k := .pool) wf hsub h₂.inv
    have hall := (h₁.trans h₂).trans h₃
    refine ⟨hall, ?_⟩
    have hzero : ∀ k, activeOf data (despawnPoolN data (n + 1) q s) k q = 0 := by
      intro k
      refine List.countP_eq_zero.mpr fun x hx => Bool.eq_false_iff.mp ?_
      cases k with
      | creature => exact h₃.inactive (h₂.inactive (hoff₁ x hx))
      | gameobject => exact h₃.inactive (hoff₂ x hx)
      | pool => exact hoff₃ x hx
    refine (hall.inv.exact q).trans ?_
    exact (congr_arg₂ (· + ·) (congr_arg₂ (· + ·) (hzero .creature) (hzero .gameobject))
      (hzero .pool))

end PoolMgr

end Ashamane.Pools
