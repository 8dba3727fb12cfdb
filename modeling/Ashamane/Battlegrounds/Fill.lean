import Ashamane.Battlegrounds.Update
import Mathlib.Data.List.Perm.Subperm

/-! What the selection pools hold once the groups for a battleground have been chosen. -/
namespace Ashamane.Battlegrounds

namespace SelectionPool

variable {size : GroupPtr → Nat} {invited : GroupPtr → Bool} {l : List GroupPtr} {most : Nat}
  {pool : SelectionPool size}

structure Chosen (invited : GroupPtr → Bool) (l : List GroupPtr) (most : Nat)
    (pool : SelectionPool size) : Prop where
  once : pool.selectedGroups.Subperm l
  distinct : l.Nodup → pool.selectedGroups.Nodup
  uninvited : ∀ p ∈ pool.selectedGroups, invited p = false
  fits : pool.playerCount ≤ most

structure Drawn (invited : GroupPtr → Bool) (l : List GroupPtr) (pool : SelectionPool size)
    (rest : List GroupPtr) : Prop where
  once : (pool.selectedGroups ++ rest).Subperm l
  uninvited : ∀ p ∈ pool.selectedGroups, invited p = false

theorem Drawn.init (invited : GroupPtr → Bool) (l : List GroupPtr) :
    Drawn invited l (init : SelectionPool size) l :=
  ⟨List.Subperm.refl l, fun _ hp => absurd hp List.not_mem_nil⟩

theorem Drawn.chosen {rest : List GroupPtr} (h : Drawn invited l pool rest)
    (hfits : pool.playerCount ≤ most) : Chosen invited l most pool := by
  have honce : pool.selectedGroups.Subperm l :=
    (List.sublist_append_left pool.selectedGroups rest).subperm.trans h.once
  refine ⟨honce, fun hl => ?_, h.uninvited, hfits⟩
  obtain ⟨l', hperm, hsub⟩ := honce
  exact hperm.nodup_iff.mp (hl.sublist hsub)

theorem Drawn.rest {rest rest' : List GroupPtr} (h : Drawn invited l pool rest)
    (hrest : List.Sublist rest' rest) : Drawn invited l pool rest' :=
  ⟨(hrest.append_left pool.selectedGroups).subperm.trans h.once, h.uninvited⟩

theorem kickGroup_sublist (pool : SelectionPool size) (wanted : Nat) :
    List.Sublist (pool.kickGroup wanted).2.selectedGroups pool.selectedGroups ∧
      (pool.kickGroup wanted).2.playerCount ≤ pool.playerCount := by
  unfold kickGroup
  dsimp only
  split
  · exact ⟨List.Sublist.refl _, Nat.le_refl _⟩
  · split
    · exact ⟨List.Sublist.refl _, Nat.le_refl _⟩
    · exact ⟨List.eraseIdx_sublist .., Nat.sub_le ..⟩

theorem Drawn.kickGroup {rest : List GroupPtr} (h : Drawn invited l pool rest) (wanted : Nat) :
    Drawn invited l (pool.kickGroup wanted).2 rest := by
  obtain ⟨hsub, -⟩ := pool.kickGroup_sublist wanted
  exact ⟨(hsub.append_right rest).subperm.trans h.once, fun p hp => h.uninvited p (hsub.subset hp)⟩

theorem addGroup_cases (pool : SelectionPool size) (invited : GroupPtr → Bool) (p : GroupPtr)
    (desiredCount : Nat) :
    (invited p = false ∧ (pool.addGroup invited p desiredCount).2.selectedGroups =
        pool.selectedGroups ++ [p] ∧
        (pool.addGroup invited p desiredCount).2.playerCount ≤ desiredCount ∧
        pool.playerCount ≤ (pool.addGroup invited p desiredCount).2.playerCount) ∨
      (pool.addGroup invited p desiredCount).2 = pool := by
  unfold addGroup
  split
  next hadd => exact .inl ⟨by simpa using hadd.1, rfl, hadd.2, Nat.le_add_right ..⟩
  · exact .inr rfl

theorem Drawn.addGroup {rest : List GroupPtr} {p : GroupPtr}
    (h : Drawn invited l pool (p :: rest)) (desiredCount : Nat) :
    Drawn invited l (pool.addGroup invited p desiredCount).2 rest := by
  rcases pool.addGroup_cases invited p desiredCount with ⟨hp, hsel, -, -⟩ | hsame
  · refine ⟨?_, fun r hr => ?_⟩
    · rw [hsel, List.append_assoc]
      exact h.once
    · rw [hsel] at hr
      rcases List.mem_append.mp hr with hr | hr
      · exact h.uninvited r hr
      · exact List.mem_singleton.mp hr ▸ hp
  · rw [hsame]
    exact h.rest (List.sublist_cons_self p rest)

theorem addGroup_playerCount_le (pool : SelectionPool size) (invited : GroupPtr → Bool)
    (p : GroupPtr) {desiredCount most : Nat} (hpool : pool.playerCount ≤ most)
    (hdesired : desiredCount ≤ most) :
    (pool.addGroup invited p desiredCount).2.playerCount ≤ most := by
  rcases pool.addGroup_cases invited p desiredCount with ⟨-, -, hle, -⟩ | hsame
  · omega
  · rw [hsame]
    exact hpool

theorem selectedGroups_of_playerCount (hcount : pool.playerCount = 0)
    (hsize : ∀ p ∈ pool.selectedGroups, size p ≠ 0) : pool.selectedGroups = [] := by
  refine List.eq_nil_iff_forall_not_mem.mpr fun p hp => ?_
  have hpos : 0 < (pool.selectedGroups.map size).sum :=
    List.sum_pos_iff_exists_pos_nat.mpr
      ⟨size p, List.mem_map_of_mem hp, Nat.pos_of_ne_zero (hsize p hp)⟩
  rw [← pool.count_eq, hcount] at hpos
  exact Nat.lt_irrefl 0 hpos

end SelectionPool

namespace Side

variable {size : GroupPtr → Nat} {invited : GroupPtr → Bool} {l l' : List GroupPtr}
  {s lo hi ali horde : Side size}

structure Drawn (invited : GroupPtr → Bool) (l : List GroupPtr) (s : Side size) : Prop
    extends SelectionPool.Drawn invited l s.pool s.rest where
  fits : s.pool.playerCount ≤ s.free

theorem Drawn.kick (h : s.Drawn invited l) (wanted : Nat) :
    ({ s with pool := (s.pool.kickGroup wanted).2 } : Side size).Drawn invited l :=
  ⟨h.toDrawn.kickGroup wanted, (s.pool.kickGroup_sublist wanted).2.trans h.fits⟩

theorem fill_free (s : Side size) (invited : GroupPtr → Bool) (desiredCount : Nat) :
    (s.fill invited desiredCount).free = s.free := rfl

theorem Drawn.fill (h : s.Drawn invited l) {desiredCount : Nat} (hdesired : desiredCount ≤ s.free) :
    (s.fill invited desiredCount).Drawn invited l := by
  obtain ⟨free, pool, rest⟩ := s
  induction rest generalizing pool with
  | nil => exact h
  | cons p rest ih =>
    have hdrawn := h.toDrawn.addGroup desiredCount
    have hfits := pool.addGroup_playerCount_le invited p h.fits hdesired
    simp only [Side.fill, SelectionPool.fill]
    split
    next pool' hadd =>
      rw [hadd] at hdrawn hfits
      exact ih pool' ⟨hdrawn, hfits⟩ hdesired
    next pool' hadd =>
      have hsame : pool' = pool := by
        unfold SelectionPool.addGroup at hadd
        split at hadd
        · cases hadd
        · exact (Prod.mk.inj hadd).2.symm
      rw [hsame]
      exact h

/-- The side with fewer open places after a turn of the loop, before it is looked at again. -/
theorem Drawn.turn (hlo : lo.Drawn invited l) (hhi : hi.Drawn invited l') :
    (turn invited lo hi).2.1.Drawn invited l ∧ (turn invited lo hi).2.2.Drawn invited l' ∧
      (turn invited lo hi).2.1.free = lo.free ∧ (turn invited lo hi).2.2.free = hi.free := by
  unfold Side.turn
  dsimp only
  have hkick := hlo.kick (hi.diff - lo.diff).toNat
  have hdesired : (lo.free - hi.diff).toNat ≤ lo.free := by
    have := hhi.fits
    simp only [diff]
    omega
  have hlo' : (if (lo.pool.kickGroup (hi.diff - lo.diff).toNat).1 = true then
      ({ lo with pool := (lo.pool.kickGroup (hi.diff - lo.diff).toNat).2 } : Side size).fill invited
        (lo.free - hi.diff).toNat
      else { lo with pool := (lo.pool.kickGroup (hi.diff - lo.diff).toNat).2 }).Drawn invited l ∧
      (if (lo.pool.kickGroup (hi.diff - lo.diff).toNat).1 = true then
      ({ lo with pool := (lo.pool.kickGroup (hi.diff - lo.diff).toNat).2 } : Side size).fill invited
        (lo.free - hi.diff).toNat
      else { lo with pool := (lo.pool.kickGroup (hi.diff - lo.diff).toNat).2 }).free = lo.free := by
    split
    · exact ⟨hkick.fill hdesired, rfl⟩
    · exact ⟨hkick, rfl⟩
  generalize (if (lo.pool.kickGroup (hi.diff - lo.diff).toNat).1 = true then _ else _) = lo' at hlo' ⊢
  split
  · split
    · exact ⟨hlo'.1, hhi, hlo'.2, rfl⟩
    · exact ⟨hlo'.1, hhi.kick _, hlo'.2, rfl⟩
  · exact ⟨hlo'.1, hhi, hlo'.2, rfl⟩

/-- The loop is left only when the side has nothing selected any more, and not many more open
places than the other. -/
theorem turn_stops (h : (turn invited lo hi).1 = false) :
    (turn invited lo hi).2.1.pool.playerCount = 0 ∧
      (turn invited lo hi).2.1.diff ≤ (turn invited lo hi).2.2.diff + 1 := by
  unfold turn at h ⊢
  dsimp only at h ⊢
  have hfree : (if (lo.pool.kickGroup (hi.diff - lo.diff).toNat).1 = true then
      ({ lo with pool := (lo.pool.kickGroup (hi.diff - lo.diff).toNat).2 } : Side size).fill invited
        (lo.free - hi.diff).toNat
      else { lo with pool := (lo.pool.kickGroup (hi.diff - lo.diff).toNat).2 }).free = lo.free := by
    split <;> rfl
  generalize (if (lo.pool.kickGroup (hi.diff - lo.diff).toNat).1 = true then _ else _) = lo' at h hfree ⊢
  split at h
  next hzero =>
    rw [if_pos hzero]
    split at h
    next hle =>
      rw [if_pos hle]
      refine ⟨hzero, ?_⟩
      simp only [diff] at hle ⊢
      omega
    · cases h
  · cases h

def Even (ali horde : Side size) : Prop :=
  (ali.diff - horde.diff).natAbs ≤ 1 ∨ ali.diff < horde.diff ∧ ali.pool.playerCount = 0 ∨
    horde.diff < ali.diff ∧ horde.pool.playerCount = 0

theorem balance_spec (hali : ali.Drawn invited l) (hhorde : horde.Drawn invited l') :
    (balance invited ali horde).1.Drawn invited l ∧ (balance invited ali horde).2.Drawn invited l' ∧
      (balance invited ali horde).1.free = ali.free ∧
      (balance invited ali horde).2.free = horde.free ∧
      Even (balance invited ali horde).1 (balance invited ali horde).2 := by
  fun_induction balance invited ali horde with
  | case1 ali horde _ _ _ ih =>
    obtain ⟨hlo, hhi, hfree, hfree'⟩ := hali.turn hhorde
    obtain ⟨h₁, h₂, h₃, h₄, h₅⟩ := ih hlo hhi
    exact ⟨h₁, h₂, h₃.trans hfree, h₄.trans hfree', h₅⟩
  | case2 ali horde _ _ hstop =>
    obtain ⟨hlo, hhi, hfree, hfree'⟩ := hali.turn hhorde
    obtain ⟨hzero, hdiff⟩ := turn_stops (by simpa using hstop)
    refine ⟨hlo, hhi, hfree, hfree', ?_⟩
    simp only [Even]
    omega
  | case3 ali horde _ _ _ ih =>
    obtain ⟨hlo, hhi, hfree, hfree'⟩ := hhorde.turn hali
    obtain ⟨h₁, h₂, h₃, h₄, h₅⟩ := ih hhi hlo
    exact ⟨h₁, h₂, h₃.trans hfree', h₄.trans hfree, h₅⟩
  | case4 ali horde _ _ hstop =>
    obtain ⟨hlo, hhi, hfree, hfree'⟩ := hhorde.turn hali
    obtain ⟨hzero, hdiff⟩ := turn_stops (by simpa using hstop)
    refine ⟨hhi, hlo, hfree', hfree, ?_⟩
    simp only [Even]
    omega
  | case5 ali horde hdone =>
    refine ⟨hali, hhorde, rfl, rfl, ?_⟩
    simp only [Even]
    omega

end Side

namespace BattlegroundQueue

open SelectionPool

variable {q : BattlegroundQueue}

def openPlaces (free : Nat) (pool : q.Pool) : Nat := free - pool.playerCount

/-- The groups for a running battleground come from the lists of their sides and fit into it.
Unless the sides need not be balanced, the places they leave open differ by one at most, or the
side with fewer of them gets no group at all. -/
theorem fillPlayersToBG_balanced (cfg : Config) (q : BattlegroundQueue) (aliFree hordeFree : Nat)
    (hplayers : ∀ t, ∀ p ∈ q.queued t, (q.groups p).players ≠ []) :
    Chosen q.invited (q.queued .normalAlliance) aliFree
        (fillPlayersToBG cfg q aliFree hordeFree).1 ∧
      Chosen q.invited (q.queued .normalHorde) hordeFree
        (fillPlayersToBG cfg q aliFree hordeFree).2 ∧
      (cfg.invitationType ≠ .noBalance →
        let ali := openPlaces aliFree (fillPlayersToBG cfg q aliFree hordeFree).1
        let horde := openPlaces hordeFree (fillPlayersToBG cfg q aliFree hordeFree).2
        (ali ≤ horde + 1 ∧ horde ≤ ali + 1) ∨
          (ali < horde ∧ (fillPlayersToBG cfg q aliFree hordeFree).1.selectedGroups = []) ∨
          (horde < ali ∧ (fillPlayersToBG cfg q aliFree hordeFree).2.selectedGroups = [])) := by
  unfold fillPlayersToBG
  dsimp only
  set ali := q.queued .normalAlliance
  set horde := q.queued .normalHorde
  -- the places that are left to fill when the teams are even
  set aliLeft := if cfg.invitationType = .even ∧ hordeFree = 1 ∧ aliFree = 1 then
    aliFree - (ali.length - horde.length) else aliFree with haliLeft
  set hordeLeft := if cfg.invitationType = .even ∧ hordeFree = 1 ∧ aliFree = 1 then
    hordeFree - (horde.length - ali.length) else hordeFree with hhordeLeft
  have hali : aliLeft ≤ aliFree := by
    rw [haliLeft]
    split <;> omega
  have hhorde : hordeLeft ≤ hordeFree := by
    rw [hhordeLeft]
    split <;> omega
  have hone : (aliLeft = aliFree ∧ hordeLeft = hordeFree) ∨ (aliFree = 1 ∧ hordeFree = 1) := by
    rw [haliLeft, hhordeLeft]
    by_cases heven : cfg.invitationType = .even ∧ hordeFree = 1 ∧ aliFree = 1
    · exact .inr ⟨heven.2.2, heven.2.1⟩
    · rw [if_neg heven, if_neg heven]
      exact .inl ⟨rfl, rfl⟩
  have hfilled : ∀ (free : Nat) (l : List GroupPtr),
      ((Side.mk free .init l : Side q.groupSize).fill q.invited free).Drawn q.invited l :=
    fun free l => Side.Drawn.fill ⟨Drawn.init q.invited l, Nat.zero_le free⟩ (Nat.le_refl free)
  have hnone : ∀ t (pool : q.Pool) (most : Nat), Chosen q.invited (q.queued t) most pool →
      pool.playerCount = 0 → pool.selectedGroups = [] := by
    intro t pool most hchosen hcount
    refine selectedGroups_of_playerCount hcount fun p hp hsize => ?_
    exact hplayers t p (hchosen.once.subset hp) (List.length_eq_zero_iff.mp hsize)
  split
  next hbalance =>
    refine ⟨(hfilled aliLeft ali).chosen ((hfilled aliLeft ali).fits.trans hali),
      (hfilled hordeLeft horde).chosen ((hfilled hordeLeft horde).fits.trans hhorde), ?_⟩
    exact fun hne => absurd hbalance hne
  · obtain ⟨hdrawn, hdrawn', hfree, hfree', heven⟩ :=
      Side.balance_spec (hfilled aliLeft ali) (hfilled hordeLeft horde)
    set sides := Side.balance q.invited ((Side.mk aliLeft .init ali).fill q.invited aliLeft)
      ((Side.mk hordeLeft .init horde).fill q.invited hordeLeft)
    have hfits := hdrawn.fits
    have hfits' := hdrawn'.fits
    rw [hfree, Side.fill_free] at hfits
    rw [hfree', Side.fill_free] at hfits'
    have hchosen := hdrawn.chosen (hfits.trans hali)
    have hchosen' := hdrawn'.chosen (hfits'.trans hhorde)
    refine ⟨hchosen, hchosen', fun _ => ?_⟩
    have hnone₁ := hnone .normalAlliance sides.1.pool aliFree hchosen
    have hnone₂ := hnone .normalHorde sides.2.pool hordeFree hchosen'
    simp only [Side.Even, Side.diff, hfree, hfree', Side.fill_free] at heven
    simp only [openPlaces]
    rcases heven with heven | ⟨hless, hzero⟩ | ⟨hless, hzero⟩
    · left
      omega
    · rcases hone with ⟨h₁, h₂⟩ | ⟨h₁, h₂⟩
      · exact .inr (.inl ⟨by omega, hnone₁ hzero⟩)
      · left
        omega
    · rcases hone with ⟨h₁, h₂⟩ | ⟨h₁, h₂⟩
      · exact .inr (.inr ⟨by omega, hnone₂ hzero⟩)
      · left
        omega

def threeWaiting : BattlegroundQueue :=
  (addGroup plainServer (addGroup plainServer empty .alliance [1, 2] 2 0 false false 0 0).2
    .horde [3] 2 0 false false 0 0).2

def balancedConfig : Config := ⟨.balanced, 0, false, false⟩

theorem fillPlayersToBG_balanced_three :
    Chosen threeWaiting.invited (threeWaiting.queued .normalAlliance) 2
        (fillPlayersToBG balancedConfig threeWaiting 2 3).1 ∧
      Chosen threeWaiting.invited (threeWaiting.queued .normalHorde) 3
        (fillPlayersToBG balancedConfig threeWaiting 2 3).2 ∧
      (balancedConfig.invitationType ≠ .noBalance →
        let ali := openPlaces 2 (fillPlayersToBG balancedConfig threeWaiting 2 3).1
        let horde := openPlaces 3 (fillPlayersToBG balancedConfig threeWaiting 2 3).2
        (ali ≤ horde + 1 ∧ horde ≤ ali + 1) ∨
          (ali < horde ∧
            (fillPlayersToBG balancedConfig threeWaiting 2 3).1.selectedGroups = []) ∨
          (horde < ali ∧
            (fillPlayersToBG balancedConfig threeWaiting 2 3).2.selectedGroups = [])) := by
  refine fillPlayersToBG_balanced balancedConfig threeWaiting 2 3 fun t p hp => ?_
  cases t with
  | premadeAlliance => simp [threeWaiting, addGroup, groupIndex, enqueue, empty] at hp
  | premadeHorde => simp [threeWaiting, addGroup, groupIndex, enqueue, empty] at hp
  | normalAlliance =>
    obtain rfl : p = 0 := by simpa [threeWaiting, addGroup, groupIndex, enqueue, empty] using hp
    decide
  | normalHorde =>
    obtain rfl : p = 1 := by simpa [threeWaiting, addGroup, groupIndex, enqueue, empty] using hp
    decide

/-! A new battleground -/

/-- The first loop of `CheckNormalMatch` stops at a group of the list when it has found enough
players. -/
theorem selectNormal_spec (minPlayers maxPlayers : Nat) {l rest : List GroupPtr} (pool : q.Pool)
    (hdrawn : Drawn q.invited l pool rest) (hfits : pool.playerCount ≤ maxPlayers)
    (hfew : pool.playerCount < minPlayers) :
    Drawn q.invited l (q.selectNormal minPlayers maxPlayers pool rest).1
        (q.selectNormal minPlayers maxPlayers pool rest).2.tail ∧
      (q.selectNormal minPlayers maxPlayers pool rest).1.playerCount ≤ maxPlayers ∧
      (minPlayers ≤ (q.selectNormal minPlayers maxPlayers pool rest).1.playerCount →
        (q.selectNormal minPlayers maxPlayers pool rest).2 ≠ []) := by
  induction rest generalizing pool with
  | nil => exact ⟨hdrawn, hfits, fun hmin => absurd hmin (Nat.not_le.mpr hfew)⟩
  | cons p rest ih =>
    rw [selectNormal]
    split
    · exact ih pool (hdrawn.rest (List.sublist_cons_self p rest)) hfits hfew
    · have hadded := hdrawn.addGroup maxPlayers
      have hfits' := pool.addGroup_playerCount_le q.invited p hfits (Nat.le_refl maxPlayers)
      dsimp only
      split
      · exact ⟨hadded, hfits', fun _ => List.cons_ne_nil p rest⟩
      next hless => exact ih _ hadded hfits' (Nat.not_le.mp hless)

theorem addNormalGroups_spec {maxPlayers most : Nat} {l rest : List GroupPtr} (pool : q.Pool)
    (hdrawn : Drawn q.invited l pool rest) (hfits : pool.playerCount ≤ most)
    (hmost : maxPlayers ≤ most) :
    Chosen q.invited l most (q.addNormalGroups maxPlayers pool rest) ∧
      pool.playerCount ≤ (q.addNormalGroups maxPlayers pool rest).playerCount := by
  induction rest generalizing pool with
  | nil => exact ⟨hdrawn.chosen hfits, Nat.le_refl _⟩
  | cons p rest ih =>
    rw [addNormalGroups]
    split
    · exact ih pool (hdrawn.rest (List.sublist_cons_self p rest)) hfits
    · have hadded := hdrawn.addGroup maxPlayers
      have hfits' := pool.addGroup_playerCount_le q.invited p hfits hmost
      have hmore : pool.playerCount ≤ (pool.addGroup q.invited p maxPlayers).2.playerCount := by
        rcases pool.addGroup_cases q.invited p maxPlayers with ⟨-, -, -, hle⟩ | hsame
        · exact hle
        · rw [hsame]
      split
      next pool' hadd =>
        rw [hadd] at hadded hfits' hmore
        obtain ⟨hchosen, hle⟩ := ih pool' hadded hfits'
        exact ⟨hchosen, hmore.trans hle⟩
      next pool' hadd =>
        rw [hadd] at hadded hfits' hmore
        exact ⟨hadded.chosen hfits', hmore⟩

/-- In a normal match both sides get enough players and not too many, from groups of their own
lists; unless the sides need not be balanced, their numbers differ by two at most. The iterator
that the second loop moves on from stands at a group. -/
theorem checkNormalMatch_balanced (cfg : Config) (q : BattlegroundQueue)
    {minPlayers maxPlayers : Nat} (hmin : 0 < minPlayers) (htesting : cfg.testing = false) :
    (∀ t, minPlayers ≤
        (q.selectNormal minPlayers maxPlayers .init (q.queued t)).1.playerCount →
        (q.selectNormal minPlayers maxPlayers .init (q.queued t)).2 ≠ []) ∧
      ((checkNormalMatch cfg q minPlayers maxPlayers).1 = true →
        let pools := (checkNormalMatch cfg q minPlayers maxPlayers).2
        Chosen q.invited (q.queued .normalAlliance) maxPlayers pools.1 ∧
          Chosen q.invited (q.queued .normalHorde) maxPlayers pools.2 ∧
          minPlayers ≤ pools.1.playerCount ∧ minPlayers ≤ pools.2.playerCount ∧
          (cfg.invitationType ≠ .noBalance →
            pools.1.playerCount ≤ pools.2.playerCount + 2 ∧
              pools.2.playerCount ≤ pools.1.playerCount + 2)) := by
  have hselected := fun t => selectNormal_spec minPlayers maxPlayers .init
    (Drawn.init q.invited (q.queued t)) (Nat.zero_le maxPlayers) hmin
  refine ⟨fun t => (hselected t).2.2, ?_⟩
  obtain ⟨hali, halifits, -⟩ := hselected .normalAlliance
  obtain ⟨hhorde, hhordefits, -⟩ := hselected .normalHorde
  unfold checkNormalMatch
  dsimp only
  set a := q.selectNormal minPlayers maxPlayers .init (q.queued .normalAlliance)
  set h := q.selectNormal minPlayers maxPlayers .init (q.queued .normalHorde)
  have hali' := hali.rest (List.nil_sublist _)
  have hhorde' := hhorde.rest (List.nil_sublist _)
  by_cases hbalance : cfg.invitationType ≠ .noBalance ∧
      (h.1.playerCount ≥ minPlayers ∧ a.1.playerCount ≥ minPlayers)
  · simp only [if_pos hbalance, htesting]
    split
    next hless =>
      obtain ⟨hmore, hle⟩ := addNormalGroups_spec h.1 hhorde hhordefits halifits
      intro henough
      obtain ⟨heven, -⟩ := of_decide_eq_true henough
      refine ⟨hali'.chosen halifits, hmore, hbalance.2.2, hbalance.2.1.le.trans hle, fun _ => ?_⟩
      have hgap := fun huneven => heven ⟨hbalance.1, hbalance.2, huneven⟩
      simp only [imp_false, not_or] at hgap ⊢
      omega
    next hless =>
      obtain ⟨hmore, hle⟩ := addNormalGroups_spec a.1 hali halifits hhordefits
      intro henough
      obtain ⟨heven, -⟩ := of_decide_eq_true henough
      refine ⟨hmore, hhorde'.chosen hhordefits, hbalance.2.2.le.trans hle, hbalance.2.1, fun _ => ?_⟩
      have hgap := fun huneven => heven ⟨hbalance.1, hbalance.2, huneven⟩
      simp only [imp_false, not_or] at hgap ⊢
      omega
  · simp only [if_neg hbalance, htesting]
    intro henough
    have hboth : minPlayers ≤ a.1.playerCount ∧ minPlayers ≤ h.1.playerCount := by
      simpa [htesting] using (of_decide_eq_true henough).2
    refine ⟨hali'.chosen halifits, hhorde'.chosen hhordefits, hboth.1, hboth.2, fun hne => ?_⟩
    exact absurd ⟨hne, hboth.2, hboth.1⟩ hbalance

/-- One player a side is enough for a match of two against one. -/
theorem checkNormalMatch_balanced_three :
    (∀ t, 1 ≤ (threeWaiting.selectNormal 1 5 .init (threeWaiting.queued t)).1.playerCount →
        (threeWaiting.selectNormal 1 5 .init (threeWaiting.queued t)).2 ≠ []) ∧
      ((checkNormalMatch balancedConfig threeWaiting 1 5).1 = true →
        let pools := (checkNormalMatch balancedConfig threeWaiting 1 5).2
        Chosen threeWaiting.invited (threeWaiting.queued .normalAlliance) 5 pools.1 ∧
          Chosen threeWaiting.invited (threeWaiting.queued .normalHorde) 5 pools.2 ∧
          1 ≤ pools.1.playerCount ∧ 1 ≤ pools.2.playerCount ∧
          (balancedConfig.invitationType ≠ .noBalance →
            pools.1.playerCount ≤ pools.2.playerCount + 2 ∧
              pools.2.playerCount ≤ pools.1.playerCount + 2)) :=
  checkNormalMatch_balanced balancedConfig threeWaiting (by decide) rfl

example : (checkNormalMatch balancedConfig threeWaiting 1 5).1 = true := by decide

end BattlegroundQueue

end Ashamane.Battlegrounds
