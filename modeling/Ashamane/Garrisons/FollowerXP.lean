import Ashamane.Lib.Fuel
import Mathlib.Algebra.Ring.Int.Defs
import Mathlib.Algebra.Ring.Nat

/-! The experience of a follower: what is earned goes up the levels, and then the qualities. -/
namespace Ashamane.Garrisons
open Ashamane.Lib

structure GarrFollowerEntry where
  garrFollowerTypeID : UInt8
  garrTypeID : UInt8
  deriving DecidableEq, Repr

structure GarrFollowerLevelXPEntry where
  xpToNextLevel : UInt16
  followerLevel : UInt8
  deriving DecidableEq, Repr

structure GarrFollowerQualityEntry where
  xpToNextQuality : UInt32
  quality : UInt8
  garrFollowerTypeId : UInt8
  deriving DecidableEq, Repr

/-- The stores; the two that are searched are walked by id, and have gaps. -/
structure FollowerStores where
  garrFollowerStore : UInt32 → Option GarrFollowerEntry
  garrFollowerLevelXPStore : List (Option GarrFollowerLevelXPEntry)
  garrFollowerQualityStore : List (Option GarrFollowerQualityEntry)

/-- The part of `PacketInfo` that has to do with experience. -/
structure GarrisonFollower where
  garrFollowerID : UInt32
  quality : UInt32
  followerLevel : UInt32
  xp : UInt32
  deriving DecidableEq, Repr

def followerMaxLevel : List UInt32 := [0, 0, 100, 110]

variable (stores : FollowerStores)

/-- The requirement is 0 when there is no next level or quality, and is not read at all for a
garrison type outside `followerMaxLevel`. -/
def getRequiredLevelUpXP (follower : GarrisonFollower) : Option UInt32 :=
  match stores.garrFollowerStore follower.garrFollowerID with
  | none => some 0
  | some followerEntry => do
    let maxLevel ← followerMaxLevel[followerEntry.garrTypeID.toNat]?
    if follower.followerLevel < maxLevel then
      some <| (stores.garrFollowerLevelXPStore.findSome? fun row => do
        let currentLevelData ← row
        if currentLevelData.followerLevel.toUInt32 = follower.followerLevel then
          some currentLevelData.xpToNextLevel.toUInt32
        else none).getD 0
    else
      some <| (stores.garrFollowerQualityStore.findSome? fun row => do
        let garrFollowerQualityEntry ← row
        if garrFollowerQualityEntry.quality.toUInt32 = follower.quality ∧
            garrFollowerQualityEntry.garrFollowerTypeId = followerEntry.garrFollowerTypeID then
          some garrFollowerQualityEntry.xpToNextQuality
        else none).getD 0

def levelUp (maxLevel : UInt32) (follower : GarrisonFollower) : GarrisonFollower :=
  let follower := { follower with xp := 0 }
  if follower.followerLevel < maxLevel then
    { follower with followerLevel := follower.followerLevel + 1 }
  else
    { follower with quality := follower.quality + 1 }

/-- The body of `_EarnXP`; `self` answers the call in it, with the follower as it is then. -/
def earnXPBody (self : GarrisonFollower × UInt32 → Option (GarrisonFollower × UInt32))
    (call : GarrisonFollower × UInt32) : Option (GarrisonFollower × UInt32) :=
  let (follower, xp) := call
  match stores.garrFollowerStore follower.garrFollowerID with
  | none => some (follower, 0)
  | some followerEntry => do
    let requiredLevelUpXP ← getRequiredLevelUpXP stores follower
    if requiredLevelUpXP = 0 then some (follower, 0)
    else if follower.xp + xp < requiredLevelUpXP then
      some ({ follower with xp := follower.xp + xp }, xp)
    else do
      let xpToMax := requiredLevelUpXP - follower.xp
      let maxLevel ← followerMaxLevel[followerEntry.garrTypeID.toNat]?
      let (follower, earned) ← self (levelUp maxLevel follower, xp - xpToMax)
      some (follower, xp + earned)

/-- The call ends with the follower as it is then, and the experience that it gives back. -/
def EarnsXP (follower : GarrisonFollower) (xp : UInt32) (follower' : GarrisonFollower)
    (earned : UInt32) : Prop :=
  Fuel.Returns (earnXPBody stores) (follower, xp) (follower', earned)

/-! What a call does, said once. -/

def nextLevel (follower : GarrisonFollower) : GarrisonFollower :=
  match stores.garrFollowerStore follower.garrFollowerID with
  | none => follower
  | some followerEntry =>
    levelUp (followerMaxLevel[followerEntry.garrTypeID.toNat]?.getD 0) follower

variable {stores} {follower follower' : GarrisonFollower} {xp earned requiredLevelUpXP : UInt32}
  {self : GarrisonFollower × UInt32 → Option (GarrisonFollower × UInt32)}

theorem getRequiredLevelUpXP_isSome_iff : (getRequiredLevelUpXP stores follower).isSome ↔
    ∀ followerEntry, stores.garrFollowerStore follower.garrFollowerID = some followerEntry →
      followerEntry.garrTypeID.toNat < followerMaxLevel.length := by
  unfold getRequiredLevelUpXP
  cases stores.garrFollowerStore follower.garrFollowerID with
  | none => simp
  | some followerEntry =>
    by_cases htype : followerEntry.garrTypeID.toNat < followerMaxLevel.length
    · simp only [List.getElem?_eq_getElem htype, Option.bind_eq_bind, Option.bind_some]
      split <;> simp [htype]
    · simp [htype]

theorem earnXPBody_of_outside (h : getRequiredLevelUpXP stores follower = none) :
    earnXPBody stores self (follower, xp) = none := by
  simp only [earnXPBody, h]
  cases hentry : stores.garrFollowerStore follower.garrFollowerID with
  | none => simp [getRequiredLevelUpXP, hentry] at h
  | some followerEntry => rfl

theorem earnXPBody_of_zero (h : getRequiredLevelUpXP stores follower = some 0) :
    earnXPBody stores self (follower, xp) = some (follower, 0) := by
  simp only [earnXPBody, h]
  cases stores.garrFollowerStore follower.garrFollowerID <;> rfl

theorem exists_entry (h : getRequiredLevelUpXP stores follower = some requiredLevelUpXP)
    (hne : requiredLevelUpXP ≠ 0) :
    ∃ followerEntry maxLevel,
      stores.garrFollowerStore follower.garrFollowerID = some followerEntry ∧
        followerMaxLevel[followerEntry.garrTypeID.toNat]? = some maxLevel := by
  cases hentry : stores.garrFollowerStore follower.garrFollowerID with
  | none =>
    rw [getRequiredLevelUpXP, hentry] at h
    exact absurd (Option.some.inj h).symm hne
  | some followerEntry =>
    cases hmax : followerMaxLevel[followerEntry.garrTypeID.toNat]? with
    | none => simp [getRequiredLevelUpXP, hentry, hmax] at h
    | some maxLevel => exact ⟨followerEntry, maxLevel, rfl, hmax⟩

theorem earnXPBody_of_lt (h : getRequiredLevelUpXP stores follower = some requiredLevelUpXP)
    (hne : requiredLevelUpXP ≠ 0) (hlt : follower.xp + xp < requiredLevelUpXP) :
    earnXPBody stores self (follower, xp) =
      some ({ follower with xp := follower.xp + xp }, xp) := by
  obtain ⟨followerEntry, maxLevel, hentry, -⟩ := exists_entry h hne
  simp only [earnXPBody, hentry, h, Option.bind_eq_bind, Option.bind_some, if_neg hne, if_pos hlt]

theorem earnXPBody_of_not_lt (h : getRequiredLevelUpXP stores follower = some requiredLevelUpXP)
    (hne : requiredLevelUpXP ≠ 0) (hlt : ¬follower.xp + xp < requiredLevelUpXP) :
    earnXPBody stores self (follower, xp) =
      (self (nextLevel stores follower, xp - (requiredLevelUpXP - follower.xp))).map
        fun result => (result.1, xp + result.2) := by
  obtain ⟨followerEntry, maxLevel, hentry, hmax⟩ := exists_entry h hne
  simp only [earnXPBody, hentry, h, Option.bind_eq_bind, Option.bind_some, if_neg hne, if_neg hlt,
    hmax, nextLevel, Option.getD_some]
  cases self (levelUp maxLevel follower, xp - (requiredLevelUpXP - follower.xp)) <;> rfl

theorem steady_earnXPBody : Fuel.Steady (earnXPBody stores) := by
  rintro f g hfg ⟨follower, xp⟩ result h
  cases hrequired : getRequiredLevelUpXP stores follower with
  | none =>
    rw [earnXPBody_of_outside hrequired] at h
    cases h
  | some requiredLevelUpXP =>
    by_cases hzero : requiredLevelUpXP = 0
    · subst hzero
      rwa [earnXPBody_of_zero hrequired] at h ⊢
    · by_cases hlt : follower.xp + xp < requiredLevelUpXP
      · rwa [earnXPBody_of_lt hrequired hzero hlt] at h ⊢
      · rw [earnXPBody_of_not_lt hrequired hzero hlt] at h ⊢
        obtain ⟨result', hcall, hresult⟩ := Option.map_eq_some_iff.1 h
        exact Option.map_eq_some_iff.2 ⟨result', hfg _ _ hcall, hresult⟩

/-! The levels and qualities that are passed. -/

@[simp] theorem levelUp_xp (maxLevel : UInt32) (follower : GarrisonFollower) :
    (levelUp maxLevel follower).xp = 0 := by
  unfold levelUp
  dsimp only
  split <;> rfl

@[simp] theorem levelUp_garrFollowerID (maxLevel : UInt32) (follower : GarrisonFollower) :
    (levelUp maxLevel follower).garrFollowerID = follower.garrFollowerID := by
  unfold levelUp
  dsimp only
  split <;> rfl

theorem nextLevel_garrFollowerID :
    (nextLevel stores follower).garrFollowerID = follower.garrFollowerID := by
  unfold nextLevel
  split
  · rfl
  · exact levelUp_garrFollowerID _ follower

theorem nextLevel_xp (h : getRequiredLevelUpXP stores follower = some requiredLevelUpXP)
    (hne : requiredLevelUpXP ≠ 0) : (nextLevel stores follower).xp = 0 := by
  obtain ⟨followerEntry, maxLevel, hentry, -⟩ := exists_entry h hne
  rw [nextLevel, hentry]
  exact levelUp_xp _ follower

theorem quality_lt {followerEntry : GarrFollowerEntry} {maxLevel : UInt32}
    (h : getRequiredLevelUpXP stores follower = some requiredLevelUpXP)
    (hne : requiredLevelUpXP ≠ 0)
    (hentry : stores.garrFollowerStore follower.garrFollowerID = some followerEntry)
    (hmax : followerMaxLevel[followerEntry.garrTypeID.toNat]? = some maxLevel)
    (hlevel : ¬follower.followerLevel < maxLevel) : follower.quality.toNat < 256 := by
  simp only [getRequiredLevelUpXP, hentry, hmax, Option.bind_eq_bind, Option.bind_some,
    if_neg hlevel, Option.some.injEq] at h
  cases hfound : stores.garrFollowerQualityStore.findSome? fun row => row.bind fun e =>
      if e.quality.toUInt32 = follower.quality ∧
          e.garrFollowerTypeId = followerEntry.garrFollowerTypeID then some e.xpToNextQuality
      else none with
  | none =>
    rw [hfound] at h
    exact absurd h.symm hne
  | some required =>
    obtain ⟨row, -, hrow⟩ := List.exists_of_findSome?_eq_some hfound
    obtain ⟨e, -, he⟩ := Option.bind_eq_some_iff.1 hrow
    split at he
    · next hmatch =>
      rw [← hmatch.1, UInt8.toNat_toUInt32]
      exact e.quality.toNat_lt
    · cases he

theorem nextLevel_place (h : getRequiredLevelUpXP stores follower = some requiredLevelUpXP)
    (hne : requiredLevelUpXP ≠ 0) :
    (nextLevel stores follower).followerLevel.toNat + (nextLevel stores follower).quality.toNat =
      follower.followerLevel.toNat + follower.quality.toNat + 1 := by
  obtain ⟨followerEntry, maxLevel, hentry, hmax⟩ := exists_entry h hne
  simp only [nextLevel, hentry, hmax, Option.getD_some, levelUp]
  by_cases hlevel : follower.followerLevel < maxLevel
  · have hsmall := UInt32.lt_iff_toNat_lt.1 hlevel
    have hmaxlt := maxLevel.toNat_lt
    rw [if_pos hlevel, UInt32.toNat_add]
    change (follower.followerLevel.toNat + 1) % 2 ^ 32 + follower.quality.toNat = _
    rw [Nat.mod_eq_of_lt (by omega)]
    omega
  · have hsmall := quality_lt h hne hentry hmax hlevel
    rw [if_neg hlevel, UInt32.toNat_add]
    change follower.followerLevel.toNat + (follower.quality.toNat + 1) % 2 ^ 32 = _
    rw [Nat.mod_eq_of_lt (by omega)]
    omega

variable (stores)

inductive Passes : GarrisonFollower → GarrisonFollower → Nat → Prop
  | stays (follower : GarrisonFollower) (xp : UInt32) : Passes follower { follower with xp } 0
  | up {follower follower' : GarrisonFollower} {requiredLevelUpXP : UInt32} {total : Nat} :
      getRequiredLevelUpXP stores follower = some requiredLevelUpXP → requiredLevelUpXP ≠ 0 →
        Passes (nextLevel stores follower) follower' total →
          Passes follower follower' (requiredLevelUpXP.toNat + total)

inductive Unwrapped : GarrisonFollower → UInt32 → Prop
  | zero {follower : GarrisonFollower} {xp : UInt32}
      (required : getRequiredLevelUpXP stores follower = some 0) : Unwrapped follower xp
  | stays {follower : GarrisonFollower} {xp requiredLevelUpXP : UInt32}
      (required : getRequiredLevelUpXP stores follower = some requiredLevelUpXP)
      (ne : requiredLevelUpXP ≠ 0)
      (sum : follower.xp.toNat + xp.toNat < 2 ^ 32)
      (lt : follower.xp.toNat + xp.toNat < requiredLevelUpXP.toNat) : Unwrapped follower xp
  | up {follower follower' : GarrisonFollower} {xp requiredLevelUpXP earned : UInt32}
      (required : getRequiredLevelUpXP stores follower = some requiredLevelUpXP)
      (ne : requiredLevelUpXP ≠ 0)
      (sum : follower.xp.toNat + xp.toNat < 2 ^ 32)
      (le : requiredLevelUpXP.toNat ≤ follower.xp.toNat + xp.toNat)
      (toMax : follower.xp ≤ requiredLevelUpXP)
      (rest : requiredLevelUpXP - follower.xp ≤ xp)
      (place : (nextLevel stores follower).followerLevel.toNat +
          (nextLevel stores follower).quality.toNat =
        follower.followerLevel.toNat + follower.quality.toNat + 1)
      (call : Unwrapped (nextLevel stores follower) (xp - (requiredLevelUpXP - follower.xp)))
      (ends : EarnsXP stores (nextLevel stores follower)
        (xp - (requiredLevelUpXP - follower.xp)) follower' earned)
      (total : xp.toNat + earned.toNat < 2 ^ 32) : Unwrapped follower xp

def Below (follower : GarrisonFollower) : Prop :=
  ∃ requiredLevelUpXP, getRequiredLevelUpXP stores follower = some requiredLevelUpXP ∧
    (requiredLevelUpXP = 0 ∨ follower.xp < requiredLevelUpXP)

structure Absorbs (follower : GarrisonFollower) (xp : UInt32) (follower' : GarrisonFollower)
    (earned : UInt32) : Prop where
  unwrapped : Unwrapped stores follower xp
  below : Below stores follower'
  le : earned ≤ xp
  exact_total : ∃ total, Passes stores follower follower' total ∧
    earned.toNat + follower.xp.toNat = follower'.xp.toNat + total

variable {stores}

theorem EarnsXP.unique {follower'' : GarrisonFollower} {earned' : UInt32}
    (h : EarnsXP stores follower xp follower' earned)
    (h' : EarnsXP stores follower xp follower'' earned') :
    follower' = follower'' ∧ earned = earned' :=
  Prod.mk.inj (steady_earnXPBody.unique h h')

theorem EarnsXP.of_zero (h : getRequiredLevelUpXP stores follower = some 0) :
    EarnsXP stores follower xp follower 0 :=
  Fuel.Returns.of_answer fun _ => earnXPBody_of_zero h

theorem EarnsXP.of_lt (h : getRequiredLevelUpXP stores follower = some requiredLevelUpXP)
    (hne : requiredLevelUpXP ≠ 0) (hlt : follower.xp + xp < requiredLevelUpXP) :
    EarnsXP stores follower xp { follower with xp := follower.xp + xp } xp :=
  Fuel.Returns.of_answer fun _ => earnXPBody_of_lt h hne hlt

theorem EarnsXP.of_not_lt (h : getRequiredLevelUpXP stores follower = some requiredLevelUpXP)
    (hne : requiredLevelUpXP ≠ 0) (hlt : ¬follower.xp + xp < requiredLevelUpXP)
    (hcall : EarnsXP stores (nextLevel stores follower) (xp - (requiredLevelUpXP - follower.xp))
      follower' earned) :
    EarnsXP stores follower xp follower' (xp + earned) :=
  Fuel.Returns.of_map (fun _ => earnXPBody_of_not_lt h hne hlt) hcall

/-- Where the sum is not below the requirement it does not wrap, and the rest is smaller. -/
theorem rest_lt (hbelow : follower.xp < requiredLevelUpXP)
    (hlt : ¬follower.xp + xp < requiredLevelUpXP) :
    follower.xp.toNat + xp.toNat < 2 ^ 32 ∧
      (xp - (requiredLevelUpXP - follower.xp)).toNat + requiredLevelUpXP.toNat =
        follower.xp.toNat + xp.toNat ∧
      (xp - (requiredLevelUpXP - follower.xp)).toNat < xp.toNat ∧
      requiredLevelUpXP - follower.xp ≤ xp := by
  rw [UInt32.lt_iff_toNat_lt] at hbelow hlt
  rw [UInt32.toNat_add] at hlt
  have hxp := xp.toNat_lt
  have hrequired := requiredLevelUpXP.toNat_lt
  have htoMax : (requiredLevelUpXP - follower.xp).toNat =
      requiredLevelUpXP.toNat - follower.xp.toNat :=
    UInt32.toNat_sub_of_le _ _ (UInt32.le_iff_toNat_le.2 hbelow.le)
  have hle : requiredLevelUpXP - follower.xp ≤ xp := by
    rw [UInt32.le_iff_toNat_le, htoMax]
    omega
  have hrest : (xp - (requiredLevelUpXP - follower.xp)).toNat =
      xp.toNat - (requiredLevelUpXP - follower.xp).toNat :=
    UInt32.toNat_sub_of_le _ _ hle
  refine ⟨?_, ?_, ?_, hle⟩ <;> omega

theorem getRequiredLevelUpXP_isSome_nextLevel :
    (getRequiredLevelUpXP stores (nextLevel stores follower)).isSome ↔
      (getRequiredLevelUpXP stores follower).isSome := by
  rw [getRequiredLevelUpXP_isSome_iff, getRequiredLevelUpXP_isSome_iff, nextLevel_garrFollowerID]

theorem below_nextLevel (h : getRequiredLevelUpXP stores follower = some requiredLevelUpXP)
    (hne : requiredLevelUpXP ≠ 0) : Below stores (nextLevel stores follower) := by
  have hsome : (getRequiredLevelUpXP stores (nextLevel stores follower)).isSome := by
    rw [getRequiredLevelUpXP_isSome_nextLevel, h]
    rfl
  obtain ⟨next, hnext⟩ := Option.isSome_iff_exists.1 hsome
  refine ⟨next, hnext, ?_⟩
  by_cases hzero : next = 0
  · exact .inl hzero
  · right
    rw [nextLevel_xp h hne]
    exact UInt32.pos_iff_ne_zero.2 hzero

theorem add_lt_iff (hsum : follower.xp.toNat + xp.toNat < 2 ^ 32) :
    follower.xp + xp < requiredLevelUpXP ↔
      follower.xp.toNat + xp.toNat < requiredLevelUpXP.toNat := by
  rw [UInt32.lt_iff_toNat_lt, UInt32.toNat_add, Nat.mod_eq_of_lt hsum]

/-- Where nothing wraps, a follower with a requirement gives something back for any experience. -/
theorem Unwrapped.earned_ne_zero (h : Unwrapped stores follower xp) (hxp : xp ≠ 0)
    (hrequired : getRequiredLevelUpXP stores follower = some requiredLevelUpXP)
    (hne : requiredLevelUpXP ≠ 0) (hearns : EarnsXP stores follower xp follower' earned) :
    earned ≠ 0 := by
  cases h with
  | zero hzero =>
    rw [hrequired] at hzero
    exact absurd (Option.some.inj hzero) hne
  | stays hrequired' hne' hsum hlt =>
    have hstays := (add_lt_iff hsum).2 hlt
    rw [← ((EarnsXP.of_lt hrequired' hne' hstays).unique hearns).2]
    exact hxp
  | up hrequired' hne' hsum hle htoMax hrest hplace hcall hends htotal =>
    have hup := mt (add_lt_iff hsum).1 (Nat.not_lt.2 hle)
    rw [← ((EarnsXP.of_not_lt hrequired' hne' hup hends).unique hearns).2]
    intro hzero
    have hnat := congrArg UInt32.toNat hzero
    rw [UInt32.toNat_add, Nat.mod_eq_of_lt htotal, UInt32.toNat_zero] at hnat
    exact hxp (UInt32.toNat_inj.1 (by rw [UInt32.toNat_zero]; omega))

theorem Passes.eq_of_nextLevel {total : Nat}
    (hrequired : getRequiredLevelUpXP stores follower = some requiredLevelUpXP)
    (hne : requiredLevelUpXP ≠ 0)
    (hnext : getRequiredLevelUpXP stores (nextLevel stores follower) = some 0)
    (h : Passes stores follower (nextLevel stores follower) total) :
    total = requiredLevelUpXP.toNat := by
  have hplace := nextLevel_place hrequired hne
  generalize hend : nextLevel stores follower = last at h hplace
  cases h with
  | stays follower xp => dsimp only at hplace; omega
  | up hrequired' hne' hpasses =>
    obtain rfl := Option.some.inj (hrequired.symm.trans hrequired')
    cases hpasses with
    | stays _ xp => rfl
    | up hrequired'' hne'' _ => exact absurd (Option.some.inj (hrequired''.symm.trans hnext)) hne''

theorem toNat_rest (htoMax : follower.xp ≤ requiredLevelUpXP)
    (hrest : requiredLevelUpXP - follower.xp ≤ xp) :
    (xp - (requiredLevelUpXP - follower.xp)).toNat + requiredLevelUpXP.toNat =
      follower.xp.toNat + xp.toNat := by
  have hle := UInt32.le_iff_toNat_le.1 htoMax
  have hle' := UInt32.le_iff_toNat_le.1 hrest
  rw [UInt32.toNat_sub_of_le _ _ htoMax] at hle'
  rw [UInt32.toNat_sub_of_le _ _ hrest, UInt32.toNat_sub_of_le _ _ htoMax]
  omega

theorem Unwrapped.exists_required (h : Unwrapped stores follower xp) :
    ∃ requiredLevelUpXP, getRequiredLevelUpXP stores follower = some requiredLevelUpXP := by
  cases h with
  | zero required => exact ⟨0, required⟩
  | stays required => exact ⟨_, required⟩
  | up required => exact ⟨_, required⟩

/-- What is left over after a step is given back a second time, or is not taken. -/
theorem Absorbs.le_required (h : Absorbs stores follower xp follower' earned)
    (hearns : EarnsXP stores follower xp follower' earned)
    (hrequired : getRequiredLevelUpXP stores follower = some requiredLevelUpXP)
    (hne : requiredLevelUpXP ≠ 0) :
    follower.xp.toNat + xp.toNat ≤ requiredLevelUpXP.toNat := by
  cases h.unwrapped with
  | zero hzero => exact absurd (Option.some.inj (hrequired.symm.trans hzero)) hne
  | stays hrequired' _ _ hlt =>
    rw [Option.some.inj (hrequired.symm.trans hrequired')]
    exact hlt.le
  | @up _ _ _ _ earned' hrequired' _ hsum hle htoMax hrest _ hcall hends htotal =>
    obtain rfl := Option.some.inj (hrequired.symm.trans hrequired')
    by_contra hmore
    have hup := mt (add_lt_iff hsum).1 (Nat.not_lt.2 hle)
    obtain ⟨rfl, rfl⟩ := (EarnsXP.of_not_lt hrequired hne hup hends).unique hearns
    have hnothing : earned' = 0 := by
      have hxp := UInt32.le_iff_toNat_le.1 h.le
      rw [UInt32.toNat_add, Nat.mod_eq_of_lt htotal] at hxp
      exact UInt32.toNat_inj.1 (by rw [UInt32.toNat_zero]; omega)
    have hleft : xp - (requiredLevelUpXP - follower.xp) ≠ 0 := by
      intro hzero
      have hnat := toNat_rest htoMax hrest
      rw [hzero, UInt32.toNat_zero] at hnat
      omega
    obtain ⟨next, hnext, -⟩ := below_nextLevel hrequired hne
    by_cases hlast : next = 0
    · subst hlast
      obtain ⟨rfl, -⟩ := (EarnsXP.of_zero hnext).unique hends
      obtain ⟨total, hpasses, hexact⟩ := h.exact_total
      rw [hpasses.eq_of_nextLevel hrequired hne hnext, nextLevel_xp hrequired hne, hnothing,
        UInt32.toNat_zero] at hexact
      rw [UInt32.add_zero] at hexact
      omega
    · exact hcall.earned_ne_zero hleft hnext hlast hends hnothing

theorem EarnsXP.nothing (hbelow : Below stores follower) :
    EarnsXP stores follower 0 follower 0 ∧ Unwrapped stores follower 0 := by
  obtain ⟨requiredLevelUpXP, hrequired, hcase⟩ := hbelow
  by_cases hzero : requiredLevelUpXP = 0
  · subst hzero
    exact ⟨.of_zero hrequired, .zero hrequired⟩
  · have hxp := hcase.resolve_left hzero
    have hsame : { follower with xp := follower.xp + 0 } = follower := by rw [UInt32.add_zero]
    have hstays := EarnsXP.of_lt hrequired hzero (by rwa [UInt32.add_zero])
    rw [hsame] at hstays
    exact ⟨hstays, .stays hrequired hzero follower.xp.toNat_lt (UInt32.lt_iff_toNat_lt.1 hxp)⟩

theorem Absorbs.of_zero (hrequired : getRequiredLevelUpXP stores follower = some 0) :
    Absorbs stores follower xp follower 0 :=
  ⟨.zero hrequired, ⟨0, hrequired, .inl rfl⟩, UInt32.zero_le,
    ⟨0, .stays follower follower.xp, Nat.add_comm _ _⟩⟩

theorem Absorbs.of_lt (hrequired : getRequiredLevelUpXP stores follower = some requiredLevelUpXP)
    (hne : requiredLevelUpXP ≠ 0)
    (hlt : follower.xp.toNat + xp.toNat < requiredLevelUpXP.toNat) :
    Absorbs stores follower xp { follower with xp := follower.xp + xp } xp := by
  have hsum := hlt.trans requiredLevelUpXP.toNat_lt
  refine ⟨.stays hrequired hne hsum hlt, ⟨_, hrequired, .inr ((add_lt_iff hsum).2 hlt)⟩,
    UInt32.le_refl _, 0, .stays follower _, ?_⟩
  dsimp only
  rw [UInt32.toNat_add, Nat.mod_eq_of_lt hsum]
  omega

theorem Absorbs.of_eq (hrequired : getRequiredLevelUpXP stores follower = some requiredLevelUpXP)
    (hne : requiredLevelUpXP ≠ 0) (hxp : follower.xp < requiredLevelUpXP)
    (heq : follower.xp.toNat + xp.toNat = requiredLevelUpXP.toNat) :
    EarnsXP stores follower xp (nextLevel stores follower) xp ∧
      Absorbs stores follower xp (nextLevel stores follower) xp := by
  have hsum : follower.xp.toNat + xp.toNat < 2 ^ 32 := heq ▸ requiredLevelUpXP.toNat_lt
  have hup : ¬follower.xp + xp < requiredLevelUpXP :=
    mt (add_lt_iff hsum).1 (Nat.not_lt.2 heq.ge)
  obtain ⟨-, hleft, -, hrest⟩ := rest_lt hxp hup
  have hzero : xp - (requiredLevelUpXP - follower.xp) = 0 :=
    UInt32.toNat_inj.1 (by rw [UInt32.toNat_zero]; omega)
  have hnext := below_nextLevel hrequired hne
  obtain ⟨hcall, hunwrapped⟩ := EarnsXP.nothing hnext
  rw [← hzero] at hcall hunwrapped
  have hearns := EarnsXP.of_not_lt hrequired hne hup hcall
  have htotal : xp.toNat + (xp - (requiredLevelUpXP - follower.xp)).toNat < 2 ^ 32 := by
    rw [hzero]
    exact xp.toNat_lt
  refine ⟨by rwa [hzero, UInt32.add_zero] at hearns, ?_, hnext, UInt32.le_refl _,
    requiredLevelUpXP.toNat + 0, .up hrequired hne (.stays _ _), ?_⟩
  · exact .up hrequired hne hsum heq.ge (UInt32.le_iff_toNat_le.2 (UInt32.lt_iff_toNat_lt.1 hxp).le)
      hrest (nextLevel_place hrequired hne) hunwrapped hcall htotal
  · rw [nextLevel_xp hrequired hne, UInt32.toNat_zero]
    omega

/-- What is given back is what the follower took exactly if there is nothing left over after one
level or quality, and the experience does not wrap. -/
theorem earnXP_absorbs_iff (follower : GarrisonFollower) (xp : UInt32)
    (hbelow : ∀ requiredLevelUpXP,
      getRequiredLevelUpXP stores follower = some requiredLevelUpXP → requiredLevelUpXP ≠ 0 →
        follower.xp < requiredLevelUpXP) :
    (∃ follower' earned, EarnsXP stores follower xp follower' earned ∧
        Absorbs stores follower xp follower' earned) ↔
      ∃ requiredLevelUpXP, getRequiredLevelUpXP stores follower = some requiredLevelUpXP ∧
        (requiredLevelUpXP = 0 ∨
          follower.xp.toNat + xp.toNat ≤ requiredLevelUpXP.toNat) := by
  constructor
  · rintro ⟨follower', earned, hearns, habsorbs⟩
    obtain ⟨requiredLevelUpXP, hrequired⟩ := habsorbs.unwrapped.exists_required
    refine ⟨requiredLevelUpXP, hrequired, ?_⟩
    by_cases hzero : requiredLevelUpXP = 0
    · exact .inl hzero
    · exact .inr (habsorbs.le_required hearns hrequired hzero)
  · rintro ⟨requiredLevelUpXP, hrequired, hfits⟩
    by_cases hzero : requiredLevelUpXP = 0
    · subst hzero
      exact ⟨follower, 0, .of_zero hrequired, .of_zero hrequired⟩
    · rcases (hfits.resolve_left hzero).lt_or_eq with hlt | heq
      · have hsum := hlt.trans requiredLevelUpXP.toNat_lt
        exact ⟨_, xp, .of_lt hrequired hzero ((add_lt_iff hsum).2 hlt), .of_lt hrequired hzero hlt⟩
      · exact ⟨_, xp, Absorbs.of_eq hrequired hzero (hbelow _ hrequired hzero) heq⟩

def twoLevels : FollowerStores where
  garrFollowerStore := fun id => if id = 34 then some ⟨1, 2⟩ else none
  garrFollowerLevelXPStore := [none, some ⟨100, 90⟩, some ⟨200, 91⟩]
  garrFollowerQualityStore := []

def newFollower : GarrisonFollower := ⟨34, 1, 90, 0⟩

theorem absorbs_sixty : ∃ follower' earned, EarnsXP twoLevels newFollower 60 follower' earned ∧
    Absorbs twoLevels newFollower 60 follower' earned := by
  refine (earnXP_absorbs_iff newFollower 60 ?_).2 ⟨100, by decide +kernel, .inr (by decide)⟩
  intro requiredLevelUpXP _ hne
  exact UInt32.pos_iff_ne_zero.2 hne

/-- Of 150 all are taken, 100 for the level and 50 after it, and 200 are given back. -/
theorem not_absorbs_hundred_fifty :
    EarnsXP twoLevels newFollower 150 ⟨34, 1, 91, 50⟩ 200 ∧
      ¬∃ follower' earned, EarnsXP twoLevels newFollower 150 follower' earned ∧
        Absorbs twoLevels newFollower 150 follower' earned := by
  have hearns : EarnsXP twoLevels newFollower 150 ⟨34, 1, 91, 50⟩ 200 := ⟨3, by decide +kernel⟩
  refine ⟨hearns, ?_⟩
  rintro ⟨follower', earned, hearns', habsorbs⟩
  obtain ⟨rfl, rfl⟩ := hearns.unique hearns'
  exact absurd habsorbs.le (by decide)

end Ashamane.Garrisons
