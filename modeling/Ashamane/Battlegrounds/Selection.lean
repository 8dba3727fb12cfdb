import Ashamane.Battlegrounds.Queue
import Mathlib.Algebra.Ring.Int.Defs
import Mathlib.Algebra.Ring.Nat

/-! The selection pools: the groups of one side that are to be invited together, and how
they are filled for a battleground that already runs. -/
namespace Ashamane.Battlegrounds

/-- The selected groups with the number of their players; `size` is the number of players
of a group. -/
structure SelectionPool (size : GroupPtr → Nat) where
  selectedGroups : List GroupPtr
  playerCount : Nat
  count_eq : playerCount = (selectedGroups.map size).sum

namespace SelectionPool

variable {size : GroupPtr → Nat}

def init : SelectionPool size := ⟨[], 0, rfl⟩

/-- The loop of `KickGroup` from index `i` on: the last group of about the wanted size, else
the last of the largest ones. -/
def groupToKick (size : GroupPtr → Nat) (wanted : Nat) (found : Bool) (best bestSize i : Nat) :
    List GroupPtr → Nat
  | [] => best
  | p :: l =>
    if size p ≤ wanted + 1 ∧ wanted ≤ size p + 1 then
      groupToKick size wanted true i (size p) (i + 1) l
    else if ¬ found ∧ size p ≥ bestSize then groupToKick size wanted found i (size p) (i + 1) l
    else groupToKick size wanted found best bestSize (i + 1) l

theorem sum_eraseIdx (f : GroupPtr → Nat) (l : List GroupPtr) (i : Nat) (p : GroupPtr)
    (h : l[i]? = some p) : ((l.eraseIdx i).map f).sum + f p = (l.map f).sum := by
  induction l generalizing i with
  | nil => simp at h
  | cons q l ih =>
    cases i with
    | zero =>
      obtain rfl : q = p := by simpa using h
      simp [Nat.add_comm]
    | succ i =>
      have := ih i (by simpa using h)
      simp only [List.eraseIdx_cons_succ, List.map_cons, List.sum_cons]
      omega

def kickGroup (pool : SelectionPool size) (wanted : Nat) : Bool × SelectionPool size :=
  let i := groupToKick size wanted false 0 ((pool.selectedGroups.map size).headD 0) 0
    pool.selectedGroups
  if pool.playerCount = 0 then (true, pool)
  else
    match h : pool.selectedGroups[i]? with
    | none => (true, pool)
    | some p =>
      (! decide (size p ≤ wanted + 1),
        { selectedGroups := pool.selectedGroups.eraseIdx i
          playerCount := pool.playerCount - size p
          count_eq := by
            have := sum_eraseIdx size _ i p h
            have := pool.count_eq
            omega })

def addGroup (pool : SelectionPool size) (invited : GroupPtr → Bool) (p : GroupPtr)
    (desiredCount : Nat) : Bool × SelectionPool size :=
  if ¬ invited p ∧ desiredCount ≥ pool.playerCount + size p then
    (true,
      { selectedGroups := pool.selectedGroups ++ [p]
        playerCount := pool.playerCount + size p
        count_eq := by simp [pool.count_eq] })
  else (decide (pool.playerCount < desiredCount), pool)

def fill (invited : GroupPtr → Bool) (desiredCount : Nat) (pool : SelectionPool size) :
    List GroupPtr → SelectionPool size × List GroupPtr
  | [] => (pool, [])
  | p :: rest =>
    match pool.addGroup invited p desiredCount with
    | (true, pool) => fill invited desiredCount pool rest
    | (false, pool) => (pool, p :: rest)

theorem groupToKick_lt (wanted : Nat) (l : List GroupPtr) (found : Bool)
    (best bestSize i n : Nat) (hb : best < n) (hn : i + l.length ≤ n) :
    groupToKick size wanted found best bestSize i l < n := by
  induction l generalizing found best bestSize i with
  | nil => exact hb
  | cons p l ih =>
    rw [List.length_cons] at hn
    rw [groupToKick]
    split
    · exact ih _ _ _ _ (by omega) (by omega)
    · split
      · exact ih _ _ _ _ (by omega) (by omega)
      · exact ih _ _ _ _ hb (by omega)

theorem kickGroup_length (pool : SelectionPool size) (wanted : Nat) (h : pool.playerCount ≠ 0) :
    (pool.kickGroup wanted).2.selectedGroups.length + 1 = pool.selectedGroups.length := by
  have hne : pool.selectedGroups ≠ [] := by
    intro hnil
    exact h (by rw [pool.count_eq, hnil]; rfl)
  have hlen : 0 < pool.selectedGroups.length := List.length_pos_of_ne_nil hne
  have hlt := @groupToKick_lt size wanted pool.selectedGroups false 0
    ((pool.selectedGroups.map size).headD 0) 0 pool.selectedGroups.length hlen (by omega)
  unfold kickGroup
  dsimp only
  rw [if_neg h]
  split
  next hnone =>
    rw [List.getElem?_eq_none_iff] at hnone
    omega
  next p hp =>
    rw [List.length_eraseIdx, if_pos hlt]
    omega

theorem kickGroup_empty (pool : SelectionPool size) (wanted : Nat) (h : pool.playerCount = 0) :
    pool.kickGroup wanted = (true, pool) := by
  simp [kickGroup, h]

theorem addGroup_length (pool : SelectionPool size) (invited : GroupPtr → Bool) (p : GroupPtr)
    (desiredCount : Nat) : (pool.addGroup invited p desiredCount).2.selectedGroups.length ≤
      pool.selectedGroups.length + 1 := by
  unfold addGroup
  split <;> simp

end SelectionPool

structure Side (size : GroupPtr → Nat) where
  free : Nat
  pool : SelectionPool size
  rest : List GroupPtr

namespace Side

variable {size : GroupPtr → Nat}

def diff (s : Side size) : Int := s.free - s.pool.playerCount

def weight (s : Side size) : Nat := 2 * s.rest.length + s.pool.selectedGroups.length

def fill (s : Side size) (invited : GroupPtr → Bool) (desiredCount : Nat) : Side size :=
  let (pool, rest) := s.pool.fill invited desiredCount s.rest
  { s with pool, rest }

def turn (invited : GroupPtr → Bool) (lo hi : Side size) : Bool × Side size × Side size :=
  let gap := (hi.diff - lo.diff).toNat
  let (again, pool) := lo.pool.kickGroup gap
  let lo := { lo with pool }
  let lo := if again then lo.fill invited (lo.free - hi.diff).toNat else lo
  if lo.pool.playerCount = 0 then
    if lo.free ≤ hi.diff + 1 then (false, lo, hi)
    else (true, lo, { hi with pool := (hi.pool.kickGroup gap).2 })
  else (true, lo, hi)

theorem fill_weight (s : Side size) (invited : GroupPtr → Bool) (desiredCount : Nat) :
    s.fill invited desiredCount = s ∨ (s.fill invited desiredCount).weight < s.weight := by
  obtain ⟨free, pool, rest⟩ := s
  induction rest generalizing pool with
  | nil => exact .inl rfl
  | cons p rest ih =>
    have hlen := pool.addGroup_length invited p desiredCount
    simp only [fill, SelectionPool.fill]
    split
    next pool' hadd =>
      rw [hadd] at hlen
      dsimp only at hlen
      right
      rcases ih pool' with heq | hlt
      · have heq' : (⟨free, (pool'.fill invited desiredCount rest).1,
            (pool'.fill invited desiredCount rest).2⟩ : Side size) = ⟨free, pool', rest⟩ := heq
        rw [heq']
        simp only [weight, List.length_cons]
        omega
      · have hstep : (⟨free, pool', rest⟩ : Side size).weight <
            (⟨free, pool, p :: rest⟩ : Side size).weight := by
          simp only [weight, List.length_cons]
          omega
        exact Nat.lt_trans hlt hstep
    next pool' hadd =>
      left
      have hsame : pool' = pool := by
        have := congrArg Prod.snd hadd
        unfold SelectionPool.addGroup at this hadd
        split at hadd
        · cases hadd
        · exact (Prod.mk.inj hadd).2.symm
      rw [hsame]

theorem kick_weight (s : Side size) (wanted : Nat) (h : s.pool.playerCount ≠ 0) :
    ({ s with pool := (s.pool.kickGroup wanted).2 } : Side size).weight < s.weight := by
  have := s.pool.kickGroup_length wanted h
  simp only [weight]
  omega

/-- Every turn after which the loop goes on kicks a group or looks at a new one. -/
theorem turn_weight (invited : GroupPtr → Bool) (lo hi : Side size)
    (hpos : lo.pool.playerCount ≠ 0 ∨ hi.pool.playerCount ≠ 0)
    (hgo : (turn invited lo hi).1 = true) :
    (turn invited lo hi).2.1.weight + (turn invited lo hi).2.2.weight < lo.weight + hi.weight := by
  unfold turn at hgo ⊢
  dsimp only at hgo ⊢
  set gap := (hi.diff - lo.diff).toNat
  by_cases hlo : lo.pool.playerCount = 0
  · rw [SelectionPool.kickGroup_empty _ _ hlo] at hgo ⊢
    rw [if_pos rfl] at hgo ⊢
    have hfill := lo.fill_weight invited (lo.free - hi.diff).toNat
    set lo' := lo.fill invited (lo.free - hi.diff).toNat
    split at hgo
    next hzero =>
      have hhi : hi.pool.playerCount ≠ 0 := hpos.resolve_left (fun h => h hlo)
      have hkick := hi.kick_weight gap hhi
      rw [if_pos hzero]
      split at hgo
      · cases hgo
      next hfree =>
        rw [if_neg hfree]
        rcases hfill with heq | hlt
        · rw [heq]
          exact Nat.add_lt_add_left hkick _
        · exact Nat.add_lt_add hlt hkick
    next hzero =>
      rw [if_neg hzero]
      rcases hfill with heq | hlt
      · exact absurd (heq ▸ hlo) hzero
      · exact Nat.add_lt_add_right hlt _
  · have hkick := lo.kick_weight gap hlo
    set lo₁ : Side size := { lo with pool := (lo.pool.kickGroup gap).2 }
    set lo' : Side size := if (lo.pool.kickGroup gap).1 = true then
      lo₁.fill invited (lo.free - hi.diff).toNat else lo₁ with hlo'
    have hlt : lo'.weight < lo.weight := by
      rw [hlo']
      split
      · rcases lo₁.fill_weight invited (lo.free - hi.diff).toNat with heq | hlt
        · rw [heq]
          exact hkick
        · exact Nat.lt_trans hlt hkick
      · exact hkick
    split at hgo
    next hzero =>
      rw [if_pos hzero]
      split at hgo
      · cases hgo
      next hfree =>
        rw [if_neg hfree]
        by_cases hhi : hi.pool.playerCount = 0
        · rw [SelectionPool.kickGroup_empty _ _ hhi]
          exact Nat.add_lt_add_right hlt _
        · exact Nat.add_lt_add hlt (hi.kick_weight gap hhi)
    next hzero =>
      rw [if_neg hzero]
      exact Nat.add_lt_add_right hlt _

/-- The loop of `FillPlayersToBG` that evens the two sides out. -/
def balance (invited : GroupPtr → Bool) (ali horde : Side size) : Side size × Side size :=
  if h : 1 < (ali.diff - horde.diff).natAbs ∧
      (horde.pool.playerCount ≠ 0 ∨ ali.pool.playerCount ≠ 0) then
    if ali.diff < horde.diff then
      if (turn invited ali horde).1 then
        balance invited (turn invited ali horde).2.1 (turn invited ali horde).2.2
      else (turn invited ali horde).2
    else
      if (turn invited horde ali).1 then
        balance invited (turn invited horde ali).2.2 (turn invited horde ali).2.1
      else ((turn invited horde ali).2.2, (turn invited horde ali).2.1)
  else (ali, horde)
termination_by ali.weight + horde.weight
decreasing_by
  · exact turn_weight invited ali horde h.2.symm (by assumption)
  · rw [Nat.add_comm, Nat.add_comm ali.weight]
    exact turn_weight invited horde ali h.2 (by assumption)

structure Within (l : List GroupPtr) (s : Side size) : Prop where
  selected : ∀ p ∈ s.pool.selectedGroups, p ∈ l
  rest : ∀ p ∈ s.rest, p ∈ l

theorem within_kick {l : List GroupPtr} {s : Side size} (h : s.Within l) (wanted : Nat) :
    ({ s with pool := (s.pool.kickGroup wanted).2 } : Side size).Within l := by
  refine ⟨fun p hp => h.selected p ?_, h.rest⟩
  unfold SelectionPool.kickGroup at hp
  dsimp only at hp
  split at hp
  · exact hp
  · split at hp
    · exact hp
    · exact List.mem_of_mem_eraseIdx hp

theorem within_fill {l : List GroupPtr} {s : Side size} (h : s.Within l)
    (invited : GroupPtr → Bool) (desiredCount : Nat) : (s.fill invited desiredCount).Within l := by
  obtain ⟨free, pool, rest⟩ := s
  induction rest generalizing pool with
  | nil => exact h
  | cons p rest ih =>
    simp only [fill, SelectionPool.fill]
    have hadd : ∀ r ∈ (pool.addGroup invited p desiredCount).2.selectedGroups, r ∈ l := by
      unfold SelectionPool.addGroup
      split
      · intro r hr
        rcases List.mem_append.mp hr with hr | hr
        · exact h.selected r hr
        · exact h.rest r (List.mem_singleton.mp hr ▸ List.mem_cons_self)
      · exact h.selected
    split
    next pool' hpool =>
      rw [hpool] at hadd
      exact ih pool' ⟨hadd, fun r hr => h.rest r (List.mem_cons_of_mem _ hr)⟩
    next pool' hpool =>
      rw [hpool] at hadd
      exact ⟨hadd, h.rest⟩

theorem within_turn {l l' : List GroupPtr} {lo hi : Side size} (hlo : lo.Within l)
    (hhi : hi.Within l') (invited : GroupPtr → Bool) :
    (turn invited lo hi).2.1.Within l ∧ (turn invited lo hi).2.2.Within l' := by
  unfold turn
  dsimp only
  have hkick := within_kick hlo (hi.diff - lo.diff).toNat
  have hlo' : (if (lo.pool.kickGroup (hi.diff - lo.diff).toNat).1 = true then
      ({ lo with pool := (lo.pool.kickGroup (hi.diff - lo.diff).toNat).2 } : Side size).fill invited
        (lo.free - hi.diff).toNat
      else { lo with pool := (lo.pool.kickGroup (hi.diff - lo.diff).toNat).2 }).Within l := by
    split
    · exact within_fill hkick _ _
    · exact hkick
  generalize (if (lo.pool.kickGroup (hi.diff - lo.diff).toNat).1 = true then _ else _) = lo' at hlo' ⊢
  split
  · split
    · exact ⟨hlo', hhi⟩
    · exact ⟨hlo', within_kick hhi _⟩
  · exact ⟨hlo', hhi⟩

theorem within_balance {l l' : List GroupPtr} (invited : GroupPtr → Bool) {ali horde : Side size}
    (hali : ali.Within l) (hhorde : horde.Within l') :
    (balance invited ali horde).1.Within l ∧ (balance invited ali horde).2.Within l' := by
  fun_induction balance invited ali horde with
  | case1 ali horde _ _ _ ih =>
    have hturn := within_turn hali hhorde invited
    exact ih hturn.1 hturn.2
  | case2 ali horde _ _ _ => exact within_turn hali hhorde invited
  | case3 ali horde _ _ _ ih =>
    have hturn := within_turn hhorde hali invited
    exact ih hturn.2 hturn.1
  | case4 ali horde _ _ _ =>
    have hturn := within_turn hhorde hali invited
    exact ⟨hturn.2, hturn.1⟩
  | case5 ali horde _ => exact ⟨hali, hhorde⟩

end Side

end Ashamane.Battlegrounds
