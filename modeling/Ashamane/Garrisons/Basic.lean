import Ashamane.Lib.Assoc
import Mathlib.Data.List.Induction

/-! The missions of a garrison, the followers sent on them, and the requests about them. -/
namespace Ashamane.Garrisons
open Ashamane.Lib

inductive MissionState where
  | available
  | inProgress
  | completeSuccess
  | completeFailed
deriving DecidableEq

def getMissionSuccessChance : Nat := 100

structure Follower where
  currentMissionID : Nat
  currentBuildingID : Nat
deriving DecidableEq

structure Mission where
  missionRecID : Nat
  offerTime : Nat
  offerDuration : Nat
  startTime : Nat
  travelDuration : Nat
  missionDuration : Nat
  missionState : MissionState
  successChance : Nat
deriving DecidableEq

def Mission.begun (mission : Mission) (now : Nat) : Mission :=
  { mission with
    startTime := now
    missionState := .inProgress
    successChance := getMissionSuccessChance }

structure GarrMissionEntry where
  duration : Nat
  offerTime : Nat
  travelTime : Nat

structure MissionStore where
  lookupEntry : Nat → Option GarrMissionEntry
  lookupEntry_zero : lookupEntry 0 = none

structure Garrison where
  followers : AList fun _ : Nat => Follower
  missions : AList fun _ : Nat => Mission
  missionIds : List Nat
  /-- The next id of `GenerateMissionDbId`. -/
  missionDbIdGenerator : Nat

inductive Event where
  /-- A start that is reported as a success. -/
  | started (dbId : Nat) (time : Nat)
  | completed (dbId : Nat) (time : Nat) (success : Bool)
  /-- A run of `RewardMission`. -/
  | rewarded (dbId : Nat) (withOvermaxReward : Bool)
deriving DecidableEq

/-- `roll_chance_i`, for the number from 0 to 99 that is drawn. -/
def rollChance (chance drawn : Nat) : Bool := chance > drawn

namespace Garrison

def getMissionByID (g : Garrison) (id : Nat) : Option (Nat × Mission) :=
  (g.missions.entries.find? fun entry => entry.2.missionRecID = id).map fun entry =>
    (entry.1, entry.2)

def getMissionFollowers (g : Garrison) (garrMissionId : Nat) : List Nat :=
  (g.followers.entries.filter fun entry => entry.2.currentMissionID = garrMissionId).map (·.1)

def addMission (store : MissionStore) (g : Garrison) (garrMissionId now : Nat) : Garrison :=
  match store.lookupEntry garrMissionId with
  | none => g
  | some missionEntry =>
    if garrMissionId ∈ g.missionIds then g
    else
      { g with
        missionIds := garrMissionId :: g.missionIds
        missionDbIdGenerator := g.missionDbIdGenerator + 1
        missions := g.missions.insert g.missionDbIdGenerator
          { missionRecID := garrMissionId
            offerTime := now
            offerDuration := missionEntry.offerTime
            startTime := 2254525440
            travelDuration := missionEntry.travelTime
            missionDuration := missionEntry.duration
            missionState := .available
            successChance := 0 } }

/-- The loop of `StartMission` over the followers: whether all of them could be sent. -/
def sendFollowers (garrMissionId : Nat) :
    List Nat → (AList fun _ : Nat => Follower) → Bool × AList fun _ : Nat => Follower
  | [], followers => (true, followers)
  | followerDbID :: rest, followers =>
    match followers.lookup followerDbID with
    | none => (false, followers)
    | some follower =>
      if follower.currentMissionID ≠ 0 ∨ follower.currentBuildingID ≠ 0 then (false, followers)
      else sendFollowers garrMissionId rest
        (followers.insert followerDbID { follower with currentMissionID := garrMissionId })

/-- With the report of `SendStartMissionResult`. -/
def startMission (store : MissionStore) (g : Garrison) (garrMissionId : Nat)
    (followerDbIDs : List Nat) (now : Nat) : Garrison × Bool :=
  match store.lookupEntry garrMissionId with
  | none => (g, false)
  | some _ =>
    match g.getMissionByID garrMissionId with
    | none => (g, false)
    | some (dbId, mission) =>
      -- the mission is begun before the followers are looked at
      let sent := sendFollowers garrMissionId followerDbIDs g.followers
      ({ g with
          missions := g.missions.insert dbId (mission.begun now)
          followers := sent.2 }, sent.1)

def completeMission (store : MissionStore) (g : Garrison) (garrMissionId now drawn : Nat) :
    Garrison × Option Bool :=
  match store.lookupEntry garrMissionId with
  | none => (g, none)
  | some _ =>
    match g.getMissionByID garrMissionId with
    | none => (g, none)
    | some (dbId, mission) =>
      if mission.startTime + mission.missionDuration < now then
        if (g.getMissionFollowers garrMissionId).isEmpty then (g, none)
        else
          let success := rollChance mission.successChance drawn
          ({ g with missions := g.missions.insert dbId { mission with
              missionState := if success then .completeSuccess else .completeFailed } },
            some success)
      else (g, none)

/-- With the mission that is rewarded, and whether it is with the rewards for a chance above 100
percent. -/
def calculateMissonBonusRoll (store : MissionStore) (g : Garrison) (garrMissionId drawn : Nat) :
    Garrison × Option (Nat × Bool) :=
  match store.lookupEntry garrMissionId with
  | none => (g, none)
  | some _ =>
    match g.getMissionByID garrMissionId with
    | none => (g, none)
    | some (dbId, mission) =>
      let withOvermaxReward :=
        mission.successChance > 100 && rollChance (mission.successChance - 100) drawn
      ({ g with missions := g.missions.erase dbId }, some (dbId, withOvermaxReward))

end Garrison

inductive Request where
  | addMission (garrMissionId now : Nat)
  | startMission (garrMissionId : Nat) (followers : List Nat) (now : Nat)
  | completeMission (garrMissionId now drawn : Nat)
  | missionBonusRoll (garrMissionId drawn : Nat)

def Garrison.dbIdOf (g : Garrison) (garrMissionId : Nat) : Nat :=
  (g.getMissionByID garrMissionId).elim 0 (·.1)

def Garrison.handle (store : MissionStore) (g : Garrison) : Request → Garrison × List Event
  | .addMission garrMissionId now => (g.addMission store garrMissionId now, [])
  | .startMission garrMissionId followers now =>
    let started := g.startMission store garrMissionId followers now
    (started.1, if started.2 then [.started (g.dbIdOf garrMissionId) now] else [])
  | .completeMission garrMissionId now drawn =>
    let completed := g.completeMission store garrMissionId now drawn
    (completed.1, completed.2.toList.map (.completed (g.dbIdOf garrMissionId) now))
  | .missionBonusRoll garrMissionId drawn =>
    let rolled := g.calculateMissonBonusRoll store garrMissionId drawn
    (rolled.1, rolled.2.toList.map fun reward => .rewarded reward.1 reward.2)

end Ashamane.Garrisons

/-! The followers that a start sends, and those that it has sent before it fails. -/
namespace Ashamane.Garrisons
open Ashamane.Lib

variable {garrMissionId k : Nat} {followers : AList fun _ : Nat => Follower} {ids : List Nat}

def Free (followers : AList fun _ : Nat => Follower) (k : Nat) : Prop :=
  ∃ f, followers.lookup k = some f ∧ f.currentMissionID = 0 ∧ f.currentBuildingID = 0

def Follower.onMission (garrMissionId : Nat) (f : Follower) : Follower :=
  { f with currentMissionID := garrMissionId }

/-- The followers in `sent` are sent, and no others; a start that fails stands before one that is
not free. -/
structure Sends (garrMissionId : Nat) (ids : List Nat) (followers : AList fun _ : Nat => Follower)
    (result : Bool × AList fun _ : Nat => Follower) (sent : List Nat) : Prop where
  nodup : sent.Nodup
  free : ∀ k ∈ sent, Free followers k
  lookup : ∀ k, result.2.lookup k = if k ∈ sent then
    (followers.lookup k).map (Follower.onMission garrMissionId) else followers.lookup k
  whole : result.1 = true → sent = ids
  stuck : result.1 = false → ∃ k rest, ids = sent ++ k :: rest ∧
    (k ∈ sent ∨ ¬Free followers k)

theorem exists_sends (hid : garrMissionId ≠ 0) (ids : List Nat)
    (followers : AList fun _ : Nat => Follower) :
    ∃ sent, Sends garrMissionId ids followers (Garrison.sendFollowers garrMissionId ids followers)
      sent := by
  induction ids generalizing followers with
  | nil => exact ⟨[], List.nodup_nil, by simp, by simp [Garrison.sendFollowers], fun _ => rfl,
      fun h => by cases h⟩
  | cons k ids ih =>
    have hrefused : ¬Free followers k →
        Garrison.sendFollowers garrMissionId (k :: ids) followers = (false, followers) := by
      intro hfree
      unfold Garrison.sendFollowers
      cases hk : followers.lookup k with
      | none => rfl
      | some f =>
        refine if_pos ?_
        by_contra hidle
        rw [not_or, not_not, not_not] at hidle
        exact hfree ⟨f, hk, hidle⟩
    by_cases hfree : Free followers k
    · obtain ⟨f, hk, hmission, hbuilding⟩ := hfree
      have hsend : Garrison.sendFollowers garrMissionId (k :: ids) followers =
          Garrison.sendFollowers garrMissionId ids
            (followers.insert k (f.onMission garrMissionId)) := by
        rw [Garrison.sendFollowers, hk]
        exact if_neg (by simp [hmission, hbuilding])
      obtain ⟨sent, h⟩ := ih (followers.insert k (f.onMission garrMissionId))
      have hfree' : ∀ j, Free (followers.insert k (f.onMission garrMissionId)) j ↔
          j ≠ k ∧ Free followers j := by
        intro j
        by_cases hj : j = k
        · subst hj
          simp [Free, Follower.onMission, hid]
        · simp [Free, AList.lookup_insert_ne hj, hj]
      have hnot : k ∉ sent := fun hmem => ((hfree' k).mp (h.free k hmem)).1 rfl
      rw [hsend]
      refine ⟨k :: sent, List.nodup_cons.mpr ⟨hnot, h.nodup⟩, ?_, ?_, ?_, ?_⟩
      · intro j hj
        cases List.mem_cons.mp hj with
        | inl hsame => exact hsame ▸ ⟨f, hk, hmission, hbuilding⟩
        | inr hmem => exact ((hfree' j).mp (h.free j hmem)).2
      · intro j
        rw [h.lookup j]
        by_cases hj : j = k
        · subst hj
          simp [hnot, hk]
        · simp [AList.lookup_insert_ne hj, hj]
      · exact fun hwhole => congrArg (k :: ·) (h.whole hwhole)
      · intro hstuck
        obtain ⟨j, rest, hids, hj⟩ := h.stuck hstuck
        refine ⟨j, rest, congrArg (k :: ·) hids, ?_⟩
        rw [hfree' j] at hj
        by_cases hjk : j = k
        · exact .inl (hjk ▸ List.mem_cons_self)
        · exact hj.imp (List.mem_cons_of_mem k) fun hno hyes => hno ⟨hjk, hyes⟩
    · rw [hrefused hfree]
      exact ⟨[], ⟨List.nodup_nil, by simp, by simp, (fun h => by cases h),
        fun _ => ⟨k, ids, rfl, .inr hfree⟩⟩⟩

variable {result : Bool × AList fun _ : Nat => Follower} {sent : List Nat}

def Ready (followers : AList fun _ : Nat => Follower) (ids : List Nat) : Prop :=
  ids.Nodup ∧ ∀ k ∈ ids, Free followers k

theorem Sends.succeeds_iff (h : Sends garrMissionId ids followers result sent) :
    result.1 = true ↔ Ready followers ids := by
  constructor
  · intro hwhole
    exact h.whole hwhole ▸ ⟨h.nodup, h.free⟩
  · rintro ⟨hnodup, hfree⟩
    by_contra hstuck
    obtain ⟨k, rest, rfl, hk⟩ := h.stuck (by simpa using hstuck)
    cases hk with
    | inl hmem =>
      exact (List.nodup_append.mp hnodup).2.2 k hmem k List.mem_cons_self rfl
    | inr hnot => exact hnot (hfree k (List.mem_append_right _ List.mem_cons_self))

/-- A start that fails leaves the followers alone if the first of them is not free. -/
theorem Sends.unchanged_iff (h : Sends garrMissionId ids followers result sent)
    (hid : garrMissionId ≠ 0) (hfail : result.1 = false) :
    (∀ k, result.2.lookup k = followers.lookup k) ↔
      ∃ k rest, ids = k :: rest ∧ ¬Free followers k := by
  constructor
  · intro hsame
    obtain ⟨k, rest, hids, hk⟩ := h.stuck hfail
    cases sent with
    | nil => exact ⟨k, rest, hids, hk.resolve_left List.not_mem_nil⟩
    | cons j sent =>
      obtain ⟨f, hf, hmission, _⟩ := h.free j List.mem_cons_self
      have hj := (h.lookup j).symm.trans (hsame j)
      rw [if_pos List.mem_cons_self, hf] at hj
      have hmission' := congrArg Follower.currentMissionID (Option.some.inj hj)
      exact absurd (hmission'.trans hmission) hid
  · rintro ⟨k, rest, rfl, hnot⟩ j
    obtain ⟨i, rest', hids, _⟩ := h.stuck hfail
    cases sent with
    | nil => simp [h.lookup j]
    | cons first sent =>
      obtain ⟨rfl, -⟩ := List.cons.inj hids
      exact absurd (h.free k List.mem_cons_self) hnot

end Ashamane.Garrisons

/-! What the missions have been through, and which of them may be rewarded. -/
namespace Ashamane.Garrisons
open Ashamane.Lib

def Event.dbId : Event → Nat
  | .started dbId _ => dbId
  | .completed dbId _ _ => dbId
  | .rewarded dbId _ => dbId

structure Account where
  start : Option Nat
  result : Option (Nat × Bool)

def Account.next (dbId : Nat) (account : Account) : Event → Account
  | .started id time => if id = dbId then ⟨some time, none⟩ else account
  | .completed id time success =>
    if id = dbId then { account with result := some (time, success) } else account
  | .rewarded _ _ => account

def account (dbId : Nat) (log : List Event) : Account := log.foldl (Account.next dbId) ⟨none, none⟩

theorem account_append (dbId : Nat) (log : List Event) (e : Event) :
    account dbId (log ++ [e]) = (account dbId log).next dbId e := by
  rw [account, List.foldl_append]
  rfl

theorem Account.next_of_ne {dbId : Nat} {e : Event} (h : e.dbId ≠ dbId) (a : Account) :
    a.next dbId e = a := by
  cases e with
  | started id time => exact if_neg h
  | completed id time success => exact if_neg h
  | rewarded id withOvermaxReward => rfl

theorem account_of_absent {dbId : Nat} {log : List Event} (h : ∀ e ∈ log, e.dbId ≠ dbId) :
    account dbId log = ⟨none, none⟩ := by
  induction log using List.reverseRecOn with
  | nil => rfl
  | append_singleton log e ih =>
    rw [account_append, Account.next_of_ne (h e (by simp))]
    exact ih fun e he => h e (List.mem_append_left _ he)

/-- The mission was started, it was completed with success, and its duration had elapsed since
the start when it was. -/
def Earned (dbId missionDuration : Nat) (log : List Event) : Prop :=
  ∃ start time, account dbId log = ⟨some start, some (time, true)⟩ ∧ start + missionDuration < time

def Ledger (mission : Mission) (a : Account) : Prop :=
  match mission.missionState with
  | .available => a = ⟨none, none⟩
  | .inProgress => a = ⟨some mission.startTime, none⟩
  | .completeSuccess => ∃ time, mission.startTime + mission.missionDuration < time ∧
      a = ⟨some mission.startTime, some (time, true)⟩
  | .completeFailed => ∃ time, a = ⟨some mission.startTime, some (time, false)⟩

theorem Ledger.earned_iff {mission : Mission} {dbId : Nat} {log : List Event}
    (h : Ledger mission (account dbId log)) :
    Earned dbId mission.missionDuration log ↔ mission.missionState = .completeSuccess := by
  constructor
  · rintro ⟨start, time, haccount, _⟩
    rw [Ledger, haccount] at h
    cases hstate : mission.missionState with
    | available => simp [hstate] at h
    | inProgress => simp [hstate] at h
    | completeSuccess => rfl
    | completeFailed => simp [hstate] at h
  · intro hstate
    rw [Ledger, hstate] at h
    obtain ⟨time, hlt, haccount⟩ := h
    exact ⟨mission.startTime, time, haccount, hlt⟩

structure Course where
  garrison : Garrison
  log : List Event

def newCourse (buildings : AList fun _ : Nat => Nat) : Course where
  garrison :=
    { followers := Assoc.mapVal (fun _ building => ⟨0, building⟩) buildings
      missions := ∅
      missionIds := []
      missionDbIdGenerator := 1 }
  log := []

def Course.next (store : MissionStore) (c : Course) (r : Request) : Course where
  garrison := (c.garrison.handle store r).1
  log := c.log ++ (c.garrison.handle store r).2

variable (store : MissionStore)

def RewardsEarned (c : Course) (r : Request) : Prop :=
  ∀ dbId withOvermaxReward, .rewarded dbId withOvermaxReward ∈ (c.garrison.handle store r).2 →
    (∃ mission, c.garrison.missions.lookup dbId = some mission ∧
      Earned dbId mission.missionDuration c.log) ∧
    ∀ before, .rewarded dbId before ∉ c.log

def FailedStartsWhole (c : Course) : Request → Prop
  | .startMission garrMissionId followers now =>
    (c.garrison.startMission store garrMissionId followers now).2 = false →
      (∀ dbId, (c.garrison.startMission store garrMissionId followers now).1.missions.lookup dbId =
        c.garrison.missions.lookup dbId) ∧
      ∀ k, (c.garrison.startMission store garrMissionId followers now).1.followers.lookup k =
        c.garrison.followers.lookup k
  | _ => True

def NoneKept (c : Course) (r : Request) : Prop :=
  ∀ dbId mission, c.garrison.missions.lookup dbId = some mission →
    (c.next store r).garrison.missions.lookup dbId = none →
      ∀ k f, (c.next store r).garrison.followers.lookup k = some f →
        f.currentMissionID ≠ mission.missionRecID

def Garrison.requested (g : Garrison) (garrMissionId : Nat) : Option (Nat × Mission) :=
  (store.lookupEntry garrMissionId).bind fun _ => g.getMissionByID garrMissionId

def StartFits (c : Course) : Request → Prop
  | .startMission garrMissionId followers now =>
    ∀ dbId mission, c.garrison.requested store garrMissionId = some (dbId, mission) →
      Ready c.garrison.followers followers ∨ mission.begun now = mission ∧
        ∃ k rest, followers = k :: rest ∧ ¬Free c.garrison.followers k
  | _ => True

def RollSucceeded (c : Course) : Request → Prop
  | .missionBonusRoll garrMissionId _ =>
    ∀ dbId mission, c.garrison.requested store garrMissionId = some (dbId, mission) →
      mission.missionState = .completeSuccess
  | _ => True

def RollFindsNone (c : Course) : Request → Prop
  | .missionBonusRoll garrMissionId _ => c.garrison.requested store garrMissionId = none
  | _ => True

end Ashamane.Garrisons
