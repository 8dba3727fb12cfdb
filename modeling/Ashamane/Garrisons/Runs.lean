import Ashamane.Garrisons.Basic
import Ashamane.Lib.Run

/-! Which requests keep the rewards, the failed starts and the followers in order. -/
namespace Ashamane.Garrisons
open Ashamane.Lib

variable {store : MissionStore} {g : Garrison} {c : Course} {garrMissionId dbId now drawn : Nat}
  {mission : Mission} {ids : List Nat}

theorem Garrison.lookup_of_requested (h : g.requested store garrMissionId = some (dbId, mission)) :
    g.missions.lookup dbId = some mission ∧ mission.missionRecID = garrMissionId ∧
      garrMissionId ≠ 0 := by
  obtain ⟨entry, hentry, hfind⟩ := Option.bind_eq_some_iff.mp h
  obtain ⟨found, hfound, hsame⟩ := Option.map_eq_some_iff.mp hfind
  obtain ⟨rfl, rfl⟩ := Prod.mk.inj hsame
  refine ⟨Assoc.mem_entries_iff.mp (List.mem_of_find?_eq_some hfound), ?_, ?_⟩
  · simpa using List.find?_some hfound
  · rintro rfl
    rw [store.lookupEntry_zero] at hentry
    cases hentry

theorem Garrison.dbIdOf_requested (h : g.requested store garrMissionId = some (dbId, mission)) :
    g.dbIdOf garrMissionId = dbId := by
  obtain ⟨entry, hentry, hfind⟩ := Option.bind_eq_some_iff.mp h
  rw [Garrison.dbIdOf, hfind]
  rfl

theorem Garrison.requested_none (h : g.requested store garrMissionId = none) :
    store.lookupEntry garrMissionId = none ∨
      ∃ entry, store.lookupEntry garrMissionId = some entry ∧
        g.getMissionByID garrMissionId = none := by
  cases hentry : store.lookupEntry garrMissionId with
  | none => exact .inl rfl
  | some entry =>
    rw [Garrison.requested, hentry] at h
    exact .inr ⟨entry, rfl, h⟩

theorem Garrison.startMission_of_none (h : g.requested store garrMissionId = none)
    (ids : List Nat) (now : Nat) : g.startMission store garrMissionId ids now = (g, false) := by
  cases Garrison.requested_none h with
  | inl hentry => simp [Garrison.startMission, hentry]
  | inr hfound =>
    obtain ⟨entry, hentry, hnone⟩ := hfound
    simp [Garrison.startMission, hentry, hnone]

theorem Garrison.startMission_of_some (h : g.requested store garrMissionId = some (dbId, mission))
    (ids : List Nat) (now : Nat) : g.startMission store garrMissionId ids now =
      ({ g with
          missions := g.missions.insert dbId (mission.begun now)
          followers := (Garrison.sendFollowers garrMissionId ids g.followers).2 },
        (Garrison.sendFollowers garrMissionId ids g.followers).1) := by
  obtain ⟨entry, hentry, hfind⟩ := Option.bind_eq_some_iff.mp h
  simp [Garrison.startMission, hentry, hfind]

theorem Garrison.bonusRoll_of_none (h : g.requested store garrMissionId = none) (drawn : Nat) :
    g.calculateMissonBonusRoll store garrMissionId drawn = (g, none) := by
  cases Garrison.requested_none h with
  | inl hentry => simp [Garrison.calculateMissonBonusRoll, hentry]
  | inr hfound =>
    obtain ⟨entry, hentry, hnone⟩ := hfound
    simp [Garrison.calculateMissonBonusRoll, hentry, hnone]

theorem Garrison.bonusRoll_of_some (h : g.requested store garrMissionId = some (dbId, mission))
    (drawn : Nat) : ∃ withOvermaxReward, g.calculateMissonBonusRoll store garrMissionId drawn =
      ({ g with missions := g.missions.erase dbId }, some (dbId, withOvermaxReward)) := by
  obtain ⟨entry, hentry, hfind⟩ := Option.bind_eq_some_iff.mp h
  simp [Garrison.calculateMissonBonusRoll, hentry, hfind]

def Mission.completed (mission : Mission) (success : Bool) : Mission :=
  { mission with missionState := if success then .completeSuccess else .completeFailed }

/-- A completion is refused, or it is of a mission whose time is over and that a follower is
on. -/
theorem Garrison.completeMission_cases (store : MissionStore) (g : Garrison)
    (garrMissionId now drawn : Nat) :
    g.completeMission store garrMissionId now drawn = (g, none) ∨
      ∃ dbId mission success, g.requested store garrMissionId = some (dbId, mission) ∧
        mission.startTime + mission.missionDuration < now ∧
        (∃ k f, g.followers.lookup k = some f ∧ f.currentMissionID = garrMissionId) ∧
        g.completeMission store garrMissionId now drawn =
          ({ g with missions := g.missions.insert dbId (mission.completed success) },
            some success) := by
  cases hrequested : g.requested store garrMissionId with
  | none =>
    cases Garrison.requested_none hrequested with
    | inl hentry => simp [Garrison.completeMission, hentry]
    | inr hfound =>
      obtain ⟨entry, hentry, hnone⟩ := hfound
      simp [Garrison.completeMission, hentry, hnone]
  | some found =>
    obtain ⟨dbId, mission⟩ := found
    obtain ⟨entry, hentry, hfind⟩ := Option.bind_eq_some_iff.mp hrequested
    by_cases hover : mission.startTime + mission.missionDuration < now
    · cases hfollowers : g.getMissionFollowers garrMissionId with
      | nil => simp [Garrison.completeMission, hentry, hfind, hfollowers]
      | cons k rest =>
        refine .inr ⟨dbId, mission, rollChance mission.successChance drawn, rfl, hover, ?_, ?_⟩
        · have hk : k ∈ g.getMissionFollowers garrMissionId := by simp [hfollowers]
          obtain ⟨found, hmem, rfl⟩ := List.mem_map.mp hk
          obtain ⟨hfound, hmission⟩ := List.mem_filter.mp hmem
          exact ⟨found.1, found.2, Assoc.mem_entries_iff.mp hfound, by simpa using hmission⟩
        · simp [Garrison.completeMission, hentry, hfind, hfollowers, hover, Mission.completed]
    · simp [Garrison.completeMission, hentry, hfind, hover]

structure Inv (c : Course) : Prop where
  offered : ∀ dbId mission, c.garrison.missions.lookup dbId = some mission →
    mission.missionRecID ∈ c.garrison.missionIds
  nonzero : ∀ dbId mission, c.garrison.missions.lookup dbId = some mission →
    mission.missionRecID ≠ 0
  unique : ∀ dbId mission dbId' mission', c.garrison.missions.lookup dbId = some mission →
    c.garrison.missions.lookup dbId' = some mission' →
      mission.missionRecID = mission'.missionRecID → dbId = dbId'
  generated : ∀ dbId mission, c.garrison.missions.lookup dbId = some mission →
    dbId < c.garrison.missionDbIdGenerator
  logged : ∀ e ∈ c.log, e.dbId < c.garrison.missionDbIdGenerator
  gone : ∀ dbId withOvermaxReward, .rewarded dbId withOvermaxReward ∈ c.log →
    c.garrison.missions.lookup dbId = none
  known : ∀ k f, c.garrison.followers.lookup k = some f → f.currentMissionID ≠ 0 →
    f.currentMissionID ∈ c.garrison.missionIds
  begun : ∀ k f, c.garrison.followers.lookup k = some f → f.currentMissionID ≠ 0 →
    ∀ dbId mission, c.garrison.missions.lookup dbId = some mission →
      mission.missionRecID = f.currentMissionID → mission.missionState ≠ .available
  ledger : ∀ dbId mission, c.garrison.missions.lookup dbId = some mission →
    Ledger mission (account dbId c.log)
  kept : ∀ dbId mission, c.garrison.missions.lookup dbId = some mission →
    mission.missionState = .completeSuccess →
      ∃ k f, c.garrison.followers.lookup k = some f ∧ f.currentMissionID = mission.missionRecID

theorem Inv.newCourse (buildings : AList fun _ : Nat => Nat) : Inv (newCourse buildings) := by
  have hidle : ∀ k f, (Garrisons.newCourse buildings).garrison.followers.lookup k = some f →
      f.currentMissionID = 0 := by
    intro k f hf
    rw [Garrisons.newCourse, Assoc.lookup_mapVal] at hf
    obtain ⟨building, _, rfl⟩ := Option.map_eq_some_iff.mp hf
    rfl
  constructor
  case known => exact fun k f hf hne => absurd (hidle k f hf) hne
  case begun => exact fun k f hf hne => absurd (hidle k f hf) hne
  all_goals simp [Garrisons.newCourse]

theorem Inv.congr (h : Inv c) {missions : AList fun _ : Nat => Mission}
    {followers : AList fun _ : Nat => Follower}
    (hmissions : ∀ dbId, missions.lookup dbId = c.garrison.missions.lookup dbId)
    (hfollowers : ∀ k, followers.lookup k = c.garrison.followers.lookup k) :
    Inv { c with garrison := { c.garrison with missions := missions, followers := followers } } := by
  constructor
  · simpa only [hmissions] using h.offered
  · simpa only [hmissions] using h.nonzero
  · simpa only [hmissions] using h.unique
  · simpa only [hmissions] using h.generated
  · exact h.logged
  · simpa only [hmissions] using h.gone
  · simpa only [hfollowers] using h.known
  · simpa only [hmissions, hfollowers] using h.begun
  · simpa only [hmissions] using h.ledger
  · simpa only [hmissions, hfollowers] using h.kept

/-- An event about one mission, that changes it, and maybe sends followers on it. -/
theorem Inv.changed (h : Inv c) (hfind : c.garrison.missions.lookup dbId = some mission)
    {after : Mission} {followers : AList fun _ : Nat => Follower} {e : Event}
    (hrec : after.missionRecID = mission.missionRecID) (hbegun : after.missionState ≠ .available)
    (he : e.dbId = dbId) (hreward : ∀ withOvermaxReward, e ≠ .rewarded dbId withOvermaxReward)
    (hledger : Ledger after ((account dbId c.log).next dbId e))
    (hfollowers : ∀ k f, followers.lookup k = some f →
      c.garrison.followers.lookup k = some f ∨ f.currentMissionID = mission.missionRecID)
    (hstay : ∀ k f, c.garrison.followers.lookup k = some f → f.currentMissionID ≠ 0 →
      followers.lookup k = some f)
    (hkept : after.missionState = .completeSuccess →
      ∃ k f, followers.lookup k = some f ∧ f.currentMissionID = mission.missionRecID) :
    Inv {
      garrison := { c.garrison with
        missions := c.garrison.missions.insert dbId after
        followers := followers }
      log := c.log ++ [e] } := by
  -- the mission that was there before under the same id, with the same record
  have hbefore : ∀ i m, (c.garrison.missions.insert dbId after).lookup i = some m →
      ∃ m₀, c.garrison.missions.lookup i = some m₀ ∧ m.missionRecID = m₀.missionRecID := by
    intro i m hm
    cases Assoc.lookup_insert_some hm with
    | inl hsame => exact ⟨mission, hsame.1 ▸ hfind, hsame.2 ▸ hrec⟩
    | inr hother => exact ⟨m, hother.2, rfl⟩
  constructor
  case offered =>
    intro i m hm
    obtain ⟨m₀, hm₀, hsame⟩ := hbefore i m hm
    exact hsame ▸ h.offered i m₀ hm₀
  case nonzero =>
    intro i m hm
    obtain ⟨m₀, hm₀, hsame⟩ := hbefore i m hm
    exact hsame ▸ h.nonzero i m₀ hm₀
  case unique =>
    intro i m i' m' hm hm' hsame
    obtain ⟨m₀, hm₀, hrec₀⟩ := hbefore i m hm
    obtain ⟨m₁, hm₁, hrec₁⟩ := hbefore i' m' hm'
    exact h.unique i m₀ i' m₁ hm₀ hm₁ (by rw [← hrec₀, ← hrec₁, hsame])
  case generated =>
    intro i m hm
    obtain ⟨m₀, hm₀, _⟩ := hbefore i m hm
    exact h.generated i m₀ hm₀
  case logged =>
    intro e' he'
    cases List.mem_append.mp he' with
    | inl hold => exact h.logged e' hold
    | inr hnew =>
      rw [List.mem_singleton.mp hnew, he]
      exact h.generated dbId mission hfind
  case gone =>
    intro i withOvermaxReward hi
    cases List.mem_append.mp hi with
    | inl hold =>
      have hgone := h.gone i withOvermaxReward hold
      have hne : i ≠ dbId := by
        rintro rfl
        rw [hfind] at hgone
        cases hgone
      exact (AList.lookup_insert_ne hne).trans hgone
    | inr hnew =>
      have hsame := List.mem_singleton.mp hnew
      rw [← hsame] at he
      exact absurd (he ▸ hsame.symm) (hreward withOvermaxReward)
  case known =>
    intro k f hf hne
    cases hfollowers k f hf with
    | inl hold => exact h.known k f hold hne
    | inr hsent => exact hsent ▸ h.offered dbId mission hfind
  case begun =>
    intro k f hf hne i m hm hmission
    cases Assoc.lookup_insert_some hm with
    | inl hsame => exact hsame.2 ▸ hbegun
    | inr hother =>
      cases hfollowers k f hf with
      | inl hold => exact h.begun k f hold hne i m hother.2 hmission
      | inr hsent =>
        exact absurd (h.unique i m dbId mission hother.2 hfind (hmission.trans hsent)) hother.1
  case ledger =>
    intro i m hm
    rw [account_append]
    cases Assoc.lookup_insert_some hm with
    | inl hsame =>
      obtain ⟨rfl, rfl⟩ := hsame
      exact hledger
    | inr hother =>
      rw [Account.next_of_ne (he ▸ hother.1.symm)]
      exact h.ledger i m hother.2
  case kept =>
    intro i m hm hsuccess
    cases Assoc.lookup_insert_some hm with
    | inl hsame =>
      obtain ⟨rfl, rfl⟩ := hsame
      exact hrec ▸ hkept hsuccess
    | inr hother =>
      obtain ⟨k, f, hf, hmission⟩ := h.kept i m hother.2 hsuccess
      have hne := h.nonzero i m hother.2
      exact ⟨k, f, hstay k f hf (hmission ▸ hne), hmission⟩

theorem Inv.addMission (h : Inv c) (store : MissionStore) (garrMissionId now : Nat) :
    Inv (c.next store (.addMission garrMissionId now)) := by
  cases hentry : store.lookupEntry garrMissionId with
  | none =>
    have hsame : c.next store (.addMission garrMissionId now) = c := by
      simp [Course.next, Garrison.handle, Garrison.addMission, hentry]
    rwa [hsame]
  | some missionEntry =>
    by_cases hmem : garrMissionId ∈ c.garrison.missionIds
    · have hsame : c.next store (.addMission garrMissionId now) = c := by
        simp [Course.next, Garrison.handle, Garrison.addMission, hentry, hmem]
      rwa [hsame]
    · have hzero : garrMissionId ≠ 0 := by
        rintro rfl
        rw [store.lookupEntry_zero] at hentry
        cases hentry
      obtain ⟨mission, hrec, hstate, hnext⟩ : ∃ mission : Mission,
          mission.missionRecID = garrMissionId ∧ mission.missionState = .available ∧
          c.next store (.addMission garrMissionId now) =
            { c with garrison := { c.garrison with
                missionIds := garrMissionId :: c.garrison.missionIds
                missionDbIdGenerator := c.garrison.missionDbIdGenerator + 1
                missions := c.garrison.missions.insert c.garrison.missionDbIdGenerator
                  mission } } := by
        let mission : Mission :=
          { missionRecID := garrMissionId
            offerTime := now
            offerDuration := missionEntry.offerTime
            startTime := 2254525440
            travelDuration := missionEntry.travelTime
            missionDuration := missionEntry.duration
            missionState := .available
            successChance := 0 }
        refine ⟨mission, rfl, rfl, ?_⟩
        simp [Course.next, Garrison.handle, Garrison.addMission, hentry, hmem, mission]
      rw [hnext]
      have hcases : ∀ i m,
          (c.garrison.missions.insert c.garrison.missionDbIdGenerator mission).lookup i = some m →
            i = c.garrison.missionDbIdGenerator ∧ m = mission ∨
            i < c.garrison.missionDbIdGenerator ∧ c.garrison.missions.lookup i = some m := by
        intro i m hm
        exact (Assoc.lookup_insert_some hm).imp_right fun hold => ⟨h.generated i m hold.2, hold.2⟩
      constructor
      case offered =>
        intro i m hm
        cases hcases i m hm with
        | inl hnew => simp [hnew.2, hrec]
        | inr hold => exact List.mem_cons_of_mem _ (h.offered i m hold.2)
      case nonzero =>
        intro i m hm
        cases hcases i m hm with
        | inl hnew => rwa [hnew.2, hrec]
        | inr hold => exact h.nonzero i m hold.2
      case unique =>
        intro i m i' m' hm hm' hsame
        cases hcases i m hm with
        | inl hnew =>
          cases hcases i' m' hm' with
          | inl hnew' => rw [hnew.1, hnew'.1]
          | inr hold' =>
            rw [hnew.2, hrec] at hsame
            exact absurd (hsame ▸ h.offered i' m' hold'.2) hmem
        | inr hold =>
          cases hcases i' m' hm' with
          | inl hnew' =>
            rw [hnew'.2, hrec] at hsame
            exact absurd (hsame ▸ h.offered i m hold.2) hmem
          | inr hold' => exact h.unique i m i' m' hold.2 hold'.2 hsame
      case generated =>
        intro i m hm
        cases hcases i m hm with
        | inl hnew => simp [hnew.1]
        | inr hold => exact Nat.lt_succ_of_lt hold.1
      case logged => exact fun e he => Nat.lt_succ_of_lt (h.logged e he)
      case gone =>
        intro i withOvermaxReward hi
        have hlt := h.logged _ hi
        exact (AList.lookup_insert_ne (Nat.ne_of_lt hlt)).trans (h.gone i withOvermaxReward hi)
      case known => exact fun k f hf hne => List.mem_cons_of_mem _ (h.known k f hf hne)
      case begun =>
        intro k f hf hne i m hm hmission
        cases hcases i m hm with
        | inl hnew =>
          rw [hnew.2, hrec] at hmission
          exact absurd (hmission ▸ h.known k f hf hne) hmem
        | inr hold => exact h.begun k f hf hne i m hold.2 hmission
      case ledger =>
        intro i m hm
        cases hcases i m hm with
        | inl hnew =>
          obtain ⟨rfl, rfl⟩ := hnew
          rw [Ledger, hstate]
          exact account_of_absent fun e he => Nat.ne_of_lt (h.logged e he)
        | inr hold => exact h.ledger i m hold.2
      case kept =>
        intro i m hm hsuccess
        cases hcases i m hm with
        | inl hnew =>
          rw [hnew.2, hstate] at hsuccess
          cases hsuccess
        | inr hold => exact h.kept i m hold.2 hsuccess

theorem Inv.completeMission (h : Inv c) (store : MissionStore) (garrMissionId now drawn : Nat) :
    Inv (c.next store (.completeMission garrMissionId now drawn)) := by
  cases Garrison.completeMission_cases store c.garrison garrMissionId now drawn with
  | inl hrefused =>
    have hsame : c.next store (.completeMission garrMissionId now drawn) = c := by
      simp [Course.next, Garrison.handle, hrefused]
    rwa [hsame]
  | inr hcompleted =>
    obtain ⟨dbId, mission, success, hrequested, hover, hfollower, hresult⟩ := hcompleted
    obtain ⟨hfind, hrec, hzero⟩ := Garrison.lookup_of_requested hrequested
    have hnext : c.next store (.completeMission garrMissionId now drawn) =
        { garrison := { c.garrison with
            missions := c.garrison.missions.insert dbId (mission.completed success)
            followers := c.garrison.followers }
          log := c.log ++ [.completed dbId now success] } := by
      simp [Course.next, Garrison.handle, hresult, Garrison.dbIdOf_requested hrequested]
    rw [hnext]
    obtain ⟨k, f, hf, hmission⟩ := hfollower
    have hbegun := h.begun k f hf (hmission ▸ hzero) dbId mission hfind (hrec.trans hmission.symm)
    refine h.changed hfind rfl ?_ rfl (fun _ heq => by cases heq) ?_ (fun _ _ hf => .inl hf)
      (fun _ _ hf _ => hf) fun _ => ⟨k, f, hf, hmission.trans hrec.symm⟩
    · cases success <;> simp [Mission.completed]
    · have hstart : (account dbId c.log).start = some mission.startTime := by
        have hledger := h.ledger dbId mission hfind
        rw [Ledger] at hledger
        cases hstate : mission.missionState with
        | available => exact absurd hstate hbegun
        | inProgress => simp_all
        | completeSuccess =>
          rw [hstate] at hledger
          obtain ⟨time, _, haccount⟩ := hledger
          rw [haccount]
        | completeFailed =>
          rw [hstate] at hledger
          obtain ⟨time, haccount⟩ := hledger
          rw [haccount]
      rw [Account.next, if_pos rfl, hstart]
      cases success with
      | true => exact ⟨now, hover, rfl⟩
      | false => exact ⟨now, rfl⟩

theorem Inv.startMission (h : Inv c)
    (hfits : StartFits store c (.startMission garrMissionId ids now)) :
    Inv (c.next store (.startMission garrMissionId ids now)) := by
  cases hrequested : c.garrison.requested store garrMissionId with
  | none =>
    have hsame : c.next store (.startMission garrMissionId ids now) = c := by
      simp [Course.next, Garrison.handle, Garrison.startMission_of_none hrequested]
    rwa [hsame]
  | some found =>
    obtain ⟨dbId, mission⟩ := found
    obtain ⟨hfind, hrec, hzero⟩ := Garrison.lookup_of_requested hrequested
    obtain ⟨sent, hsends⟩ := exists_sends hzero ids c.garrison.followers
    have hresult := Garrison.startMission_of_some hrequested ids now
    cases hfits dbId mission hrequested with
    | inl hready =>
      have hwhole := hsends.succeeds_iff.mpr hready
      have hnext : c.next store (.startMission garrMissionId ids now) =
          { garrison := { c.garrison with
              missions := c.garrison.missions.insert dbId (mission.begun now)
              followers := (Garrison.sendFollowers garrMissionId ids c.garrison.followers).2 }
            log := c.log ++ [.started dbId now] } := by
        simp [Course.next, Garrison.handle, hresult, hwhole, Garrison.dbIdOf_requested hrequested]
      rw [hnext]
      refine h.changed hfind rfl (by simp [Mission.begun]) rfl (fun _ heq => by cases heq) ?_ ?_ ?_
        fun hsuccess => by simp [Mission.begun] at hsuccess
      · rw [Account.next, if_pos rfl]
        rfl
      · intro k f hf
        rw [hsends.lookup k] at hf
        by_cases hk : k ∈ sent
        · rw [if_pos hk] at hf
          obtain ⟨f₀, _, rfl⟩ := Option.map_eq_some_iff.mp hf
          exact .inr hrec.symm
        · rw [if_neg hk] at hf
          exact .inl hf
      · intro k f hf hne
        have hk : k ∉ sent := by
          intro hk
          obtain ⟨f₀, hf₀, hidle, _⟩ := hsends.free k hk
          obtain rfl := Option.some.inj (hf.symm.trans hf₀)
          exact hne hidle
        rw [hsends.lookup k, if_neg hk, hf]
    | inr hrepeat =>
      obtain ⟨hbegun, hstuck⟩ := hrepeat
      have hfail : (Garrison.sendFollowers garrMissionId ids c.garrison.followers).1 = false := by
        obtain ⟨k, rest, rfl, hk⟩ := hstuck
        by_contra hwhole
        have hready := hsends.succeeds_iff.mp (by simpa using hwhole)
        exact hk (hready.2 k List.mem_cons_self)
      have hnext : c.next store (.startMission garrMissionId ids now) =
          { c with garrison := { c.garrison with
              missions := c.garrison.missions.insert dbId (mission.begun now)
              followers := (Garrison.sendFollowers garrMissionId ids c.garrison.followers).2 } } := by
        simp [Course.next, Garrison.handle, hresult, hfail]
      rw [hnext]
      refine h.congr (fun i => ?_) ((hsends.unchanged_iff hzero hfail).mpr hstuck)
      by_cases hi : i = dbId
      · subst hi
        rw [AList.lookup_insert, hbegun, hfind]
      · exact AList.lookup_insert_ne hi

theorem Inv.missionBonusRoll (h : Inv c) (store : MissionStore) (garrMissionId drawn : Nat) :
    Inv (c.next store (.missionBonusRoll garrMissionId drawn)) := by
  cases hrequested : c.garrison.requested store garrMissionId with
  | none =>
    have hsame : c.next store (.missionBonusRoll garrMissionId drawn) = c := by
      simp [Course.next, Garrison.handle, Garrison.bonusRoll_of_none hrequested]
    rwa [hsame]
  | some found =>
    obtain ⟨dbId, mission⟩ := found
    obtain ⟨hfind, hrec, hzero⟩ := Garrison.lookup_of_requested hrequested
    obtain ⟨withOvermaxReward, hresult⟩ := Garrison.bonusRoll_of_some hrequested drawn
    have hnext : c.next store (.missionBonusRoll garrMissionId drawn) =
        { garrison := { c.garrison with missions := c.garrison.missions.erase dbId }
          log := c.log ++ [.rewarded dbId withOvermaxReward] } := by
      simp [Course.next, Garrison.handle, hresult]
    rw [hnext]
    have hleft : ∀ i m, (c.garrison.missions.erase dbId).lookup i = some m →
        c.garrison.missions.lookup i = some m := by
      exact fun i m hm => (Assoc.lookup_erase_some hm).2
    constructor
    case offered => exact fun i m hm => h.offered i m (hleft i m hm)
    case nonzero => exact fun i m hm => h.nonzero i m (hleft i m hm)
    case unique =>
      exact fun i m i' m' hm hm' => h.unique i m i' m' (hleft i m hm) (hleft i' m' hm')
    case generated => exact fun i m hm => h.generated i m (hleft i m hm)
    case logged =>
      intro e he
      cases List.mem_append.mp he with
      | inl hold => exact h.logged e hold
      | inr hnew =>
        rw [List.mem_singleton.mp hnew]
        exact h.generated dbId mission hfind
    case gone =>
      intro i before hi
      by_cases hsame : i = dbId
      · exact hsame ▸ AList.lookup_erase dbId _
      · refine (AList.lookup_erase_ne hsame).trans ?_
        cases List.mem_append.mp hi with
        | inl hold => exact h.gone i before hold
        | inr hnew => simp_all
    case known => exact h.known
    case begun => exact fun k f hf hne i m hm => h.begun k f hf hne i m (hleft i m hm)
    case ledger =>
      intro i m hm
      rw [account_append]
      exact h.ledger i m (hleft i m hm)
    case kept => exact fun i m hm => h.kept i m (hleft i m hm)

theorem Inv.next (h : Inv c) {r : Request} (hfits : StartFits store c r) : Inv (c.next store r) := by
  cases r with
  | addMission garrMissionId now => exact h.addMission store garrMissionId now
  | startMission garrMissionId ids now => exact h.startMission hfits
  | completeMission garrMissionId now drawn => exact h.completeMission store garrMissionId now drawn
  | missionBonusRoll garrMissionId drawn => exact h.missionBonusRoll store garrMissionId drawn

theorem rewarded_of_mem {r : Request} {withOvermaxReward : Bool}
    (h : .rewarded dbId withOvermaxReward ∈ (c.garrison.handle store r).2) :
    ∃ garrMissionId drawn mission, r = .missionBonusRoll garrMissionId drawn ∧
      c.garrison.requested store garrMissionId = some (dbId, mission) := by
  cases r with
  | addMission garrMissionId now => cases h
  | startMission garrMissionId ids now =>
    rw [Garrison.handle] at h
    split at h <;> simp at h
  | completeMission garrMissionId now drawn => simp [Garrison.handle] at h
  | missionBonusRoll garrMissionId drawn =>
    cases hrequested : c.garrison.requested store garrMissionId with
    | none => simp [Garrison.handle, Garrison.bonusRoll_of_none hrequested] at h
    | some found =>
      obtain ⟨i, mission⟩ := found
      obtain ⟨_, hresult⟩ := Garrison.bonusRoll_of_some hrequested drawn
      obtain ⟨rfl, _⟩ : dbId = i ∧ _ := by simpa [Garrison.handle, hresult] using h
      exact ⟨garrMissionId, drawn, mission, rfl, hrequested⟩

/-- What is rewarded is earned, exactly if the bonus roll is for a success. -/
theorem Inv.rewardsEarned_iff (h : Inv c) (r : Request) :
    RewardsEarned store c r ↔ RollSucceeded store c r := by
  constructor
  · intro hearned
    cases r with
    | missionBonusRoll garrMissionId drawn =>
      intro dbId mission hrequested
      obtain ⟨withOvermaxReward, hresult⟩ := Garrison.bonusRoll_of_some hrequested drawn
      obtain ⟨⟨found, hfound, hyes⟩, _⟩ := hearned dbId withOvermaxReward
        (by simp [Garrison.handle, hresult])
      obtain ⟨hfind, _, _⟩ := Garrison.lookup_of_requested hrequested
      obtain rfl := Option.some.inj (hfind.symm.trans hfound)
      exact (h.ledger dbId mission hfind).earned_iff.mp hyes
    | _ => trivial
  · intro hsuccess dbId withOvermaxReward hmem
    obtain ⟨garrMissionId, drawn, mission, rfl, hrequested⟩ := rewarded_of_mem hmem
    obtain ⟨hfind, _, _⟩ := Garrison.lookup_of_requested hrequested
    refine ⟨⟨mission, hfind, ?_⟩, fun before hbefore => ?_⟩
    · exact (h.ledger dbId mission hfind).earned_iff.mpr (hsuccess dbId mission hrequested)
    · rw [h.gone dbId before hbefore] at hfind
      cases hfind

/-- A start that fails leaves everything alone, exactly if it should. -/
theorem failedStartsWhole_iff (store : MissionStore) (c : Course) (r : Request) :
    FailedStartsWhole store c r ↔ StartFits store c r := by
  cases r with
  | startMission garrMissionId ids now =>
    cases hrequested : c.garrison.requested store garrMissionId with
    | none =>
      refine iff_of_true (fun _ => ?_) fun dbId mission hfound => ?_
      · rw [Garrison.startMission_of_none hrequested]
        exact ⟨fun _ => rfl, fun _ => rfl⟩
      · rw [hrequested] at hfound
        cases hfound
    | some found =>
      obtain ⟨dbId, mission⟩ := found
      obtain ⟨hfind, _, hzero⟩ := Garrison.lookup_of_requested hrequested
      obtain ⟨sent, hsends⟩ := exists_sends hzero ids c.garrison.followers
      have hfits : StartFits store c (.startMission garrMissionId ids now) ↔
          Ready c.garrison.followers ids ∨ mission.begun now = mission ∧
            ∃ k rest, ids = k :: rest ∧ ¬Free c.garrison.followers k := by
        simp [StartFits, hrequested]
      rw [hfits, FailedStartsWhole, Garrison.startMission_of_some hrequested]
      have hmissions : (∀ i, (c.garrison.missions.insert dbId (mission.begun now)).lookup i =
          c.garrison.missions.lookup i) ↔ mission.begun now = mission := by
        constructor
        · intro hsame
          have hself := hsame dbId
          rw [AList.lookup_insert, hfind] at hself
          exact Option.some.inj hself
        · intro hsame i
          by_cases hi : i = dbId
          · rw [hi, AList.lookup_insert, hsame, hfind]
          · exact AList.lookup_insert_ne hi
      cases hsent : (Garrison.sendFollowers garrMissionId ids c.garrison.followers).1 with
      | true => exact iff_of_true (fun hfail => by cases hfail) (.inl (hsends.succeeds_iff.mp hsent))
      | false =>
        have hready : ¬Ready c.garrison.followers ids := by
          rw [← hsends.succeeds_iff, hsent]
          exact Bool.false_ne_true
        rw [or_iff_right hready, ← hsends.unchanged_iff hzero hsent, ← hmissions]
        exact ⟨fun hwhole => hwhole rfl, fun hwhole _ => hwhole⟩
  | _ => exact Iff.rfl

theorem lookup_ne_none_of_find {r : Request} (h : c.garrison.missions.lookup dbId = some mission)
    (hremoved : (c.next store r).garrison.missions.lookup dbId = none) :
    ∃ garrMissionId drawn found, r = .missionBonusRoll garrMissionId drawn ∧
      c.garrison.requested store garrMissionId = some found := by
  have hinsert : ∀ (missions : AList fun _ : Nat => Mission) (i : Nat) (m : Mission),
      missions.lookup dbId = some mission → (missions.insert i m).lookup dbId ≠ none := by
    intro missions i m hm
    by_cases hi : dbId = i
    · simp [hi]
    · simp [AList.lookup_insert_ne hi, hm]
  cases r with
  | addMission garrMissionId now =>
    rw [Course.next, Garrison.handle, Garrison.addMission] at hremoved
    cases hentry : store.lookupEntry garrMissionId with
    | none => simp [hentry, h] at hremoved
    | some entry =>
      by_cases hmem : garrMissionId ∈ c.garrison.missionIds
      · simp [hentry, hmem, h] at hremoved
      · rw [hentry] at hremoved
        simp only [if_neg hmem] at hremoved
        exact absurd hremoved (hinsert _ _ _ h)
  | startMission garrMissionId ids now =>
    rw [Course.next, Garrison.handle] at hremoved
    cases hrequested : c.garrison.requested store garrMissionId with
    | none => simp [Garrison.startMission_of_none hrequested, h] at hremoved
    | some found =>
      rw [Garrison.startMission_of_some hrequested] at hremoved
      exact absurd hremoved (hinsert _ _ _ h)
  | completeMission garrMissionId now drawn =>
    rw [Course.next, Garrison.handle] at hremoved
    cases Garrison.completeMission_cases store c.garrison garrMissionId now drawn with
    | inl hrefused => simp [hrefused, h] at hremoved
    | inr hcompleted =>
      obtain ⟨i, m, success, _, _, _, hresult⟩ := hcompleted
      rw [hresult] at hremoved
      exact absurd hremoved (hinsert _ _ _ h)
  | missionBonusRoll garrMissionId drawn =>
    cases hrequested : c.garrison.requested store garrMissionId with
    | none => simp [Course.next, Garrison.handle, Garrison.bonusRoll_of_none hrequested, h] at hremoved
    | some found => exact ⟨garrMissionId, drawn, found, rfl, hrequested⟩

/-- No reward can be earned without a follower that keeps the mission. -/
theorem Inv.noneKept_iff (h : Inv c) (r : Request) :
    RewardsEarned store c r ∧ NoneKept store c r ↔ RollFindsNone store c r := by
  constructor
  · rintro ⟨hearned, hnone⟩
    cases r with
    | missionBonusRoll garrMissionId drawn =>
      rw [RollFindsNone, Option.eq_none_iff_forall_ne_some]
      rintro ⟨dbId, mission⟩ hrequested
      obtain ⟨hfind, _, _⟩ := Garrison.lookup_of_requested hrequested
      have hsuccess := (h.rewardsEarned_iff _).mp hearned dbId mission hrequested
      obtain ⟨k, f, hf, hmission⟩ := h.kept dbId mission hfind hsuccess
      obtain ⟨withOvermaxReward, hresult⟩ := Garrison.bonusRoll_of_some hrequested drawn
      refine hnone dbId mission hfind ?_ k f ?_ hmission
      · simp [Course.next, Garrison.handle, hresult]
      · simpa [Course.next, Garrison.handle, hresult] using hf
    | _ => trivial
  · intro hfinds
    have hno : ∀ garrMissionId drawn found, r = .missionBonusRoll garrMissionId drawn →
        c.garrison.requested store garrMissionId ≠ some found := by
      rintro garrMissionId drawn found rfl hfound
      rw [RollFindsNone, hfound] at hfinds
      cases hfinds
    constructor
    · intro dbId withOvermaxReward hmem
      obtain ⟨garrMissionId, drawn, mission, hr, hrequested⟩ := rewarded_of_mem hmem
      exact absurd hrequested (hno _ drawn _ hr)
    · intro dbId mission hfind hremoved
      obtain ⟨garrMissionId, drawn, found, hr, hrequested⟩ :=
        lookup_ne_none_of_find hfind hremoved
      exact absurd hrequested (hno _ drawn _ hr)

/-- Over every run of a garrison: every reward is earned and given once, and every start that is
reported as a failure leaves all as it was, exactly if every start is of followers that can be
sent and every bonus roll is of a mission completed with success; and if besides no follower is to
keep a mission that ends, exactly if no bonus roll finds a mission. -/
theorem garrison_run_iff (store : MissionStore) (buildings : AList fun _ : Nat => Nat)
    (requests : List Request) :
    ((∀ before r later, requests = before ++ r :: later →
        let c := before.foldl (Course.next store) (newCourse buildings)
        RewardsEarned store c r ∧ FailedStartsWhole store c r) ↔
      ∀ before r later, requests = before ++ r :: later →
        let c := before.foldl (Course.next store) (newCourse buildings)
        RollSucceeded store c r ∧ StartFits store c r) ∧
    ((∀ before r later, requests = before ++ r :: later →
        let c := before.foldl (Course.next store) (newCourse buildings)
        (RewardsEarned store c r ∧ NoneKept store c r) ∧ FailedStartsWhole store c r) ↔
      ∀ before r later, requests = before ++ r :: later →
        let c := before.foldl (Course.next store) (newCourse buildings)
        RollFindsNone store c r ∧ StartFits store c r) := by
  constructor
  · exact forall_steps_iff Inv (Inv.newCourse buildings)
      (fun c r h => and_congr (h.rewardsEarned_iff r) (failedStartsWhole_iff store c r))
      (fun c r h hfits => h.next hfits.2) requests
  · exact forall_steps_iff Inv (Inv.newCourse buildings)
      (fun c r h => and_congr (h.noneKept_iff r) (failedStartsWhole_iff store c r))
      (fun c r h hfits => h.next hfits.2) requests

def oneMission : MissionStore where
  lookupEntry id := if id = 5 then some ⟨10, 0, 0⟩ else none
  lookupEntry_zero := rfl

/-- A mission that nobody was sent on is rewarded. -/
theorem rewarded_without_start : ¬∀ before r later,
    [.addMission 5 0, .missionBonusRoll 5 0] = before ++ r :: later →
      let c := before.foldl (Course.next oneMission) (newCourse ∅)
      (RewardsEarned oneMission c r ∧ NoneKept oneMission c r) ∧ FailedStartsWhole oneMission c r := by
  intro h
  obtain ⟨⟨hearned, _⟩, _⟩ := h [.addMission 5 0] (.missionBonusRoll 5 0) [] rfl
  obtain ⟨⟨mission, _, start, time, haccount, _⟩, _⟩ := hearned 1 false (by decide)
  have hstart : none = some start := congrArg Account.start haccount
  cases hstart

end Ashamane.Garrisons
