import Ashamane.Resets.Basic
import Mathlib.Order.Bounds.Defs
import Mathlib.Data.Nat.ModEq
import Mathlib.Logic.Function.Iterate

/-! The reset time of a map and difficulty that is scheduled when the server starts. -/
namespace Ashamane.Resets
open Ashamane.Lib

def World.period (w : World) (p : Pair) : Nat :=
  if w.scaledDuration p < day then day else w.scaledDuration p

def World.diff (w : World) : Nat := w.resetTimeHour * 3600

/-- What is kept of a row of `instance_reset`, whose hour may be from another configuration. -/
def World.rowTime (w : World) (oldresettime : Nat) : Nat := oldresettime / day * day + w.diff

/-- The part of `LoadResetTimes` about a pair, with its row if there is one. -/
def loadResetTime (w : World) (p : Pair) (row : Option Nat) (now : Nat) : Nat :=
  let today := now / day * day
  let stored := (row.map w.rowTime).getD 0
  let t := if stored = 0 then today + w.period p + w.diff else stored
  if t < now then
    let t := t / day * day
    t + (((today - t) / w.period p + 1) * w.period p + w.diff)
  else t

variable {w : World} {p : Pair}

theorem getSubsequentResetTime_eq (hd : w.raidDuration p ≠ 0) (resetTime : Nat) :
    getSubsequentResetTime w p resetTime =
      (resetTime + 60) / day * day + w.period p + w.diff := by
  rw [getSubsequentResetTime, if_neg hd]
  rfl

def AtHour (w : World) (t : Nat) : Prop := ∃ m, t = m * day + w.diff

theorem AtHour.add {t : Nat} (h : AtHour w t) {period : Nat} (hp : day ∣ period) :
    AtHour w (t + period) := by
  obtain ⟨m, rfl⟩ := h
  obtain ⟨j, rfl⟩ := hp
  exact ⟨m + j, by rw [Nat.add_mul, Nat.mul_comm day j]; omega⟩

theorem AtHour.rowTime {t : Nat} (h : AtHour w t) (hdiff : w.diff < day) : w.rowTime t = t := by
  obtain ⟨m, rfl⟩ := h
  unfold World.rowTime day at *
  omega

theorem day_dvd_period (h : day ∣ w.scaledDuration p) : day ∣ w.period p := by
  unfold World.period
  split
  · exact dvd_refl day
  · exact h

theorem period_pos (w : World) (p : Pair) : 0 < w.period p := by
  unfold World.period day
  split <;> omega

theorem getSubsequentResetTime_atHour (hd : w.raidDuration p ≠ 0) (hdiff : w.diff < day) {t : Nat}
    (ht : AtHour w t) : getSubsequentResetTime w p t = t + w.period p := by
  obtain ⟨m, rfl⟩ := ht
  rw [getSubsequentResetTime_eq hd]
  unfold World.diff day at *
  omega

theorem iterate_getSubsequentResetTime (hd : w.raidDuration p ≠ 0) (hdiff : w.diff < day)
    (hp : day ∣ w.period p) {t : Nat} (ht : AtHour w t) (n : Nat) :
    (getSubsequentResetTime w p)^[n] t = t + n * w.period p := by
  induction n generalizing t with
  | zero => simp
  | succ n ih =>
    rw [Function.iterate_succ_apply, getSubsequentResetTime_atHour hd hdiff ht, ih (ht.add hp),
      Nat.succ_mul]
    omega

/-- The resets from `t` on that are not before now. -/
def pendingResets (period t now : Nat) : Set Nat := {x | ∃ k, x = t + k * period ∧ now ≤ x}

theorem isLeast_now (period : Nat) {t now : Nat} (h : now ≤ t) :
    IsLeast (pendingResets period t now) t := by
  refine ⟨⟨0, by simp, h⟩, ?_⟩
  rintro x ⟨k, rfl, _⟩
  exact Nat.le_add_right t _

/-- A later reset is the first one exactly when the one before it has passed. -/
theorem isLeast_succ_iff {period : Nat} (hp : 0 < period) (t now k : Nat) :
    IsLeast (pendingResets period t now) (t + (k + 1) * period) ↔
      now ≤ t + (k + 1) * period ∧ t + k * period < now := by
  have hsucc : (k + 1) * period = k * period + period := Nat.succ_mul k period
  constructor
  · intro ⟨⟨_, _, hnow⟩, hleast⟩
    refine ⟨hnow, ?_⟩
    by_contra hcon
    have hle := hleast ⟨k, rfl, by omega⟩
    omega
  · intro ⟨hnow, hlt⟩
    refine ⟨⟨k + 1, rfl, hnow⟩, ?_⟩
    rintro x ⟨j, rfl, hx⟩
    by_contra hcon
    have hj : j ≤ k := by
      by_contra hkj
      have hmul := Nat.mul_le_mul_right period (show k + 1 ≤ j by omega)
      omega
    have hmul := Nat.mul_le_mul_right period hj
    omega

theorem loadResetTime_row (hdiff : w.diff < day) {t now : Nat} (ht : AtHour w t) (hne : t ≠ 0)
    (h : now ≤ t) : loadResetTime w p (some t) now = t := by
  simp only [loadResetTime, Option.map_some, Option.getD_some, ht.rowTime hdiff, if_neg hne,
    if_neg (Nat.not_lt.mpr h)]

/-- The time of a reset that has passed moves on by whole periods, one more than lie between the
two days. -/
theorem loadResetTime_passed (hdiff : w.diff < day) {t now : Nat} (ht : AtHour w t) (hne : t ≠ 0)
    (h : t < now) : loadResetTime w p (some t) now =
      t + ((now / day * day + w.diff - t) / w.period p + 1) * w.period p := by
  simp only [loadResetTime, Option.map_some, Option.getD_some, ht.rowTime hdiff, if_neg hne,
    if_pos h]
  obtain ⟨m, rfl⟩ := ht
  have hday : (m * day + w.diff) / day * day = m * day := by
    unfold day at *
    omega
  rw [hday, Nat.add_sub_add_right]
  omega

theorem loadResetTime_zero (hdiff : w.diff = 0) (now : Nat) :
    loadResetTime w p (some 0) now = now / day * day + w.period p := by
  have hlt : now < now / day * day + day := by unfold day; omega
  have hday : day ≤ w.period p := by
    unfold World.period
    split <;> omega
  have hrow : w.rowTime 0 = 0 := by simp [World.rowTime, hdiff]
  simp only [loadResetTime, Option.map_some, Option.getD_some, hrow, if_true, hdiff, add_zero]
  rw [if_neg (by omega)]

/-- The number of periods is the least one, unless the days are whole periods apart and today's
reset is still to come. -/
theorem isLeast_passed_iff (hdiff : w.diff < day) (hp : day ∣ w.period p) {t now : Nat}
    (ht : AtHour w t) (h : t < now) :
    IsLeast (pendingResets (w.period p) t now)
      (t + ((now / day * day + w.diff - t) / w.period p + 1) * w.period p) ↔
    ¬(w.period p ∣ now / day * day + w.diff - t ∧ now ≤ now / day * day + w.diff) := by
  rw [isLeast_succ_iff (period_pos w p)]
  obtain ⟨m, rfl⟩ := ht
  obtain ⟨j, hj⟩ := hp
  rw [Nat.add_sub_add_right]
  -- what is left of the days behind the last whole period is no day, or at least one
  have hdays : now / day * day - m * day = (now / day - m) * day := (Nat.sub_mul ..).symm
  have hpos := period_pos w p
  have hj0 : 0 < j := Nat.pos_of_ne_zero fun h0 => by simp [hj, h0] at hpos
  have hmod : (now / day * day - m * day) % w.period p = (now / day - m) % j * day := by
    rw [hdays, hj, Nat.mul_comm day j, Nat.mul_mod_mul_right]
  have hroom : (now / day * day - m * day) % w.period p + day ≤ w.period p := by
    rw [hmod, hj, ← Nat.succ_mul, Nat.mul_comm day j]
    exact Nat.mul_le_mul_right day (Nat.mod_lt _ hj0)
  have hrest : (now / day * day - m * day) % w.period p = 0 ∨
      day ≤ (now / day * day - m * day) % w.period p := by
    rw [hmod]
    cases (now / day - m) % j with
    | zero => exact Or.inl (Nat.zero_mul day)
    | succ r => exact Or.inr (Nat.le_mul_of_pos_left day r.succ_pos)
  have hdiv := Nat.div_add_mod (now / day * day - m * day) (w.period p)
  rw [Nat.mul_comm] at hdiv
  rw [Nat.dvd_iff_mod_eq_zero, Nat.succ_mul]
  generalize (now / day * day - m * day) / w.period p * w.period p = whole at *
  have hm : m ≤ now / day := by
    unfold day at *
    omega
  have hmul := Nat.mul_le_mul_right day hm
  have hnow : now < now / day * day + day ∧ now / day * day ≤ now := by unfold day; omega
  omega

/-- The row of 0 is taken for a missing one, and the first reset is a period after today. -/
theorem isLeast_zero_iff (now : Nat) :
    IsLeast (pendingResets (w.period p) 0 now) (now / day * day + w.period p) ↔
      w.period p ∣ now / day * day ∧ now / day * day < now := by
  constructor
  · intro hleast
    obtain ⟨k, hk, hnow⟩ := hleast.1
    have hdvd : w.period p ∣ now / day * day := by
      rw [zero_add] at hk
      exact (Nat.dvd_add_left (dvd_refl _)).mp ⟨k, hk.trans (Nat.mul_comm k _)⟩
    obtain ⟨q, hq⟩ := hdvd
    have hstep := (isLeast_succ_iff (period_pos w p) 0 now q).mp
    rw [zero_add, zero_add, Nat.succ_mul, Nat.mul_comm q, ← hq] at hstep
    exact ⟨⟨q, hq⟩, (hstep hleast).2⟩
  · intro ⟨⟨q, hq⟩, hlt⟩
    have hstep := (isLeast_succ_iff (period_pos w p) 0 now q).mpr
    rw [zero_add, zero_add, Nat.succ_mul, Nat.mul_comm q, ← hq] at hstep
    refine hstep ⟨?_, hlt⟩
    have hday : day ≤ w.period p := by
      unfold World.period
      split <;> omega
    unfold day at *
    omega

theorem atHour_loadResetTime (hdiff : w.diff < day) (hp : day ∣ w.period p) {t : Nat}
    (ht : AtHour w t) (now : Nat) : AtHour w (loadResetTime w p (some t) now) := by
  by_cases hzero : t = 0
  · have hdiff0 : w.diff = 0 := by
      obtain ⟨m, hm⟩ := ht
      omega
    rw [hzero, loadResetTime_zero hdiff0]
    exact AtHour.add ⟨now / day, by rw [hdiff0, add_zero]⟩ hp
  · by_cases hnow : t < now
    · rw [loadResetTime_passed hdiff ht hzero hnow]
      exact ht.add (hp.mul_left _)
    · rw [loadResetTime_row hdiff ht hzero (Nat.not_lt.mp hnow)]
      exact ht

structure OnTime (w : World) (p : Pair) (t now : Nat) : Prop where
  first : IsLeast (pendingResets (w.period p) t now) (loadResetTime w p (some t) now)
  next : ∀ n, (getSubsequentResetTime w p)^[n] (loadResetTime w p (some t) now) =
    loadResetTime w p (some t) now + n * w.period p

/-- The reset is on time unless it is due later today, whole periods after the stored one. A
stored time of 0 is started anew. -/
theorem onTime_iff (w : World) (p : Pair) (t now : Nat) (hd : w.raidDuration p ≠ 0)
    (hperiod : day ∣ w.scaledDuration p) (hdiff : w.diff < day) (ht : AtHour w t) :
    OnTime w p t now ↔
      if t = 0 then w.period p ∣ now / day * day ∧ now / day * day < now
      else ¬(t < now ∧ w.period p ∣ now / day * day + w.diff - t ∧
        now ≤ now / day * day + w.diff) := by
  have hp := day_dvd_period hperiod
  have hnext := iterate_getSubsequentResetTime hd hdiff hp (atHour_loadResetTime hdiff hp ht now)
  have hfirst : OnTime w p t now ↔
      IsLeast (pendingResets (w.period p) t now) (loadResetTime w p (some t) now) :=
    ⟨fun h => h.first, fun h => ⟨h, hnext⟩⟩
  rw [hfirst]
  by_cases hzero : t = 0
  · have hdiff0 : w.diff = 0 := by
      obtain ⟨m, hm⟩ := ht
      omega
    rw [if_pos hzero, hzero, loadResetTime_zero hdiff0]
    exact isLeast_zero_iff now
  · rw [if_neg hzero]
    by_cases hnow : t < now
    · rw [loadResetTime_passed hdiff ht hzero hnow, isLeast_passed_iff hdiff hp ht hnow]
      simp [hnow]
    · rw [loadResetTime_row hdiff ht hzero (Nat.not_lt.mp hnow)]
      exact iff_of_true (isLeast_now _ (Nat.not_lt.mp hnow)) fun h => hnow h.1

def weekly : World where
  mapDifficulties := (∅ : AList fun _ : Pair => Nat).insert (533, 3) (7 * day)
  scaledDuration := fun _ => 7 * day
  resetTimeHour := 8
  instanceable := fun _ => true
  instanceable_of_raidDuration := fun _ _ _ _ => rfl
  downscaled := fun _ => none

/-- A start of the server at nine, when today's reset has passed. -/
theorem onTime_nine : OnTime weekly (533, 3) (7 * day + 8 * 3600) (14 * day + 9 * 3600) :=
  (onTime_iff weekly (533, 3) _ _ (by decide) (by decide) (by decide) ⟨7, rfl⟩).mpr (by decide)

/-- At seven the reset at eight is skipped, for the one a week later. -/
theorem not_onTime_seven :
    ¬ OnTime weekly (533, 3) (7 * day + 8 * 3600) (14 * day + 7 * 3600) := by
  intro h
  have htoday : 14 * day + 8 * 3600 ∈
      pendingResets (weekly.period (533, 3)) (7 * day + 8 * 3600) (14 * day + 7 * 3600) :=
    ⟨1, by decide, by decide⟩
  exact absurd (h.first.2 htoday) (by decide)

end Ashamane.Resets
