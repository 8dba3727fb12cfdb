import Ashamane.DungeonFinding.MatchedRun

/-! The checks of a request to join, and what the request does to the queue and to the state of
the guid that joins. -/
namespace Ashamane.DungeonFinding

open Ashamane.Lib

inductive LfgJoinResult where
  | ok
  | noLfgObject
  | noSlotsPlayer
  | mismatchedSlots
  | membersNotPresent
  | invalidSlot
  | deserterPlayer
  | deserterParty
  | randomCooldownPlayer
  | randomCooldownParty
  | tooManyMembers
  | cantUseDungeons
  | partyNotMeetReqs
  deriving DecidableEq, Repr

inductive LfgType where
  | none
  | dungeon
  | raid
  | heroic
  | random
  deriving DecidableEq, Repr

/-- A player in the game: `inBattleground` also stands for arenas and their queues, and the last
three are auras. -/
structure Joiner where
  guid : Guid
  hasPermission : Bool := true
  inBattleground : Bool := false
  deserter : Bool := false
  cooldown : Bool := false
  frozen : Bool := false
  deriving DecidableEq, Repr

/-- A group: a member who is not in the game is counted in `membersCount` only. -/
structure JoiningGroup where
  guid : Guid
  isLFGGroup : Bool
  members : List Joiner
  membersCount : Nat
  deriving DecidableEq, Repr

structure JoinPacket where
  player : Joiner
  group : Option JoiningGroup
  roles : Nat
  dungeons : List Nat
  deriving DecidableEq, Repr

structure LfgDungeons where
  getDungeonType : Nat → LfgType
  getDungeonsByRandom : Nat → List Nat
  getDungeon : Guid → Nat
  lockedDungeons : Guid → List (Nat × Bool)
  boundInstance : Guid → Nat → Option Nat

section Checks

variable (d : LfgDungeons)

def checkPlayer (player : Joiner) (dungeons : List Nat) : LfgJoinResult :=
  if !player.hasPermission then .noSlotsPlayer
  else if player.inBattleground then .cantUseDungeons
  else if player.deserter then .deserterPlayer
  else if player.cooldown then .randomCooldownPlayer
  else if dungeons.isEmpty then .noSlotsPlayer
  else if player.frozen then .noSlotsPlayer
  else .ok

def checkMember (member : Joiner) : LfgJoinResult :=
  if member.deserter then .deserterParty
  else if member.cooldown then .randomCooldownParty
  else if member.inBattleground then .cantUseDungeons
  else if member.frozen then .partyNotMeetReqs
  else if !member.hasPermission then .noLfgObject
  else .ok

def checkParty (group : JoiningGroup) : LfgJoinResult :=
  if maxGroupSize < group.membersCount then .tooManyMembers
  else
    match group.members.find? fun member => checkMember member != .ok with
    | some member => checkMember member
    | none => if group.members.length ≠ group.membersCount then .membersNotPresent else .ok

/-- The loop over the dungeons, with `isRaid` and `isDungeon`. -/
def checkTypes (size : Nat) : List Nat → Bool → Bool → LfgJoinResult × Bool
  | [], isRaid, _ => (.ok, isRaid)
  | id :: rest, isRaid, isDungeon =>
    let dungeon := if isRaid then (LfgJoinResult.mismatchedSlots, isRaid)
      else checkTypes size rest isRaid true
    match d.getDungeonType id with
    | .random => if 1 < size then (if isRaid then .mismatchedSlots else .invalidSlot, isRaid) else dungeon
    | .heroic | .dungeon => dungeon
    | .raid => if isDungeon then (.mismatchedSlots, true) else checkTypes size rest true isDungeon
    | .none => (.invalidSlot, isRaid)

/-- `GetCompatibleDungeons` for one lock of a player. A dungeon that is to be continued stays if
the players are bound to one instance. -/
def dropLocked (isContinue : Bool) (guid : Guid) (state : List Nat × (Nat → Option Nat))
    (lock : Nat × Bool) : List Nat × (Nat → Option Nat) :=
  let id := lock.1 % 2 ^ 24
  if id ∉ state.1 then state
  else
    match (if lock.2 && isContinue then d.boundInstance guid id else none) with
    | some instanceId =>
      let keep := (state.2 id).all (· == instanceId)
      (if keep then state.1 else state.1.filter (· != id), Function.update state.2 id (some instanceId))
    | none => (state.1.filter (· != id), state.2)

def getCompatibleDungeons (dungeons : List Nat) (players : List Guid) (isContinue : Bool) : List Nat :=
  (players.foldl (fun state guid => (d.lockedDungeons guid).foldl (dropLocked d isContinue guid) state)
    (dungeons, fun _ => none)).1

end Checks

namespace JoinPacket

def joinGuid (pkt : JoinPacket) : Guid := pkt.group.elim pkt.player.guid JoiningGroup.guid

def isContinue (s : State) (pkt : JoinPacket) : Bool :=
  pkt.group.any fun g => g.isLFGGroup && s.getState g.guid != .finishedDungeon

def check (d : LfgDungeons) (s : State) (pkt : JoinPacket) : LfgJoinResult × Bool × List Nat :=
  let isContinue := pkt.isContinue s
  let dungeons := if isContinue then [d.getDungeon pkt.joinGuid] else pkt.dungeons
  let single := checkPlayer pkt.player dungeons
  let first := if single = .ok then (pkt.group.map checkParty).getD .ok else single
  if first ≠ .ok then (first, false, dungeons)
  else
    let types := checkTypes d dungeons.length dungeons false false
    if types.1 ≠ .ok then (types.1, types.2, dungeons)
    else
      let random := dungeons.filter fun id => d.getDungeonType id == .random
      let expanded := match random with
        | id :: _ => if id = 0 then dungeons else d.getDungeonsByRandom id
        | [] => dungeons
      let players := match pkt.group with
        | some group => group.members.map Joiner.guid
        | none => [pkt.player.guid]
      let compatible := getCompatibleDungeons d expanded players isContinue
      if compatible.isEmpty then
        (if pkt.group.isSome then .noLfgObject else .noSlotsPlayer, types.2, compatible)
      else (.ok, types.2, compatible)

def request (d : LfgDungeons) (s : State) (pkt : JoinPacket) : JoinRequest :=
  let checked := pkt.check d s
  { guid := pkt.player.guid
    group := pkt.group.map fun g => (g.guid, g.members.map Joiner.guid)
    roles := pkt.roles
    dungeons := checked.2.2.toFinset
    isRaid := checked.2.1
    allowed := checked.1 == .ok }

def refused (d : LfgDungeons) (s : State) (pkt : JoinPacket) : Bool :=
  (pkt.check d s).1 != .ok || (pkt.check d s).2.1

end JoinPacket

namespace State

/-- `LFGMgr::JoinLfg` from its beginning. -/
def handleJoin (w : World) (d : LfgDungeons) (s : State) (pkt : JoinPacket) : State :=
  if pkt.dungeons.isEmpty then s else s.joinLfg w (pkt.request d s)

variable {w : World} {s : State} {g : Guid}

def Agrees (w : World) (s : State) (g : Guid) : Prop :=
  s.Listed (w.queueId g) g ↔ s.getState g = .queued

theorem statesOf_setState (state : LfgState) (guid : Guid) : (s.setState state guid).statesOf g =
    if g = guid then (s.statesOf guid).setState state else s.statesOf g := by
  unfold statesOf setState
  by_cases h : g = guid
  · subst h
    rw [AList.lookup_insert, if_pos rfl]
    rfl
  · rw [AList.lookup_insert_ne h, if_neg h]

theorem statesOf_restoreState (guid : Guid) : (s.restoreState guid).statesOf g =
    if g = guid then (s.statesOf guid).restoreState else s.statesOf g := by
  unfold statesOf restoreState
  by_cases h : g = guid
  · subst h
    rw [AList.lookup_insert, if_pos rfl]
    rfl
  · rw [AList.lookup_insert_ne h, if_neg h]

theorem getState_setState_self (state : LfgState) : (s.setState state g).getState g = state := by
  unfold getState
  rw [statesOf_setState, if_pos rfl]
  cases state <;> rfl

theorem getOldState_setState {state : LfgState} (hstate : state = .roleCheck ∨ state = .queued)
    (guid : Guid) : (s.setState state guid).getOldState g = s.getOldState g := by
  unfold getOldState
  rw [statesOf_setState]
  split
  · next h =>
    subst h
    obtain rfl | rfl := hstate <;> rfl
  · rfl

theorem getOldState_restoreState (guid : Guid) :
    (s.restoreState guid).getOldState g = s.getOldState g := by
  unfold getOldState
  rw [statesOf_restoreState]
  split
  · next h =>
    subst h
    rfl
  · rfl

theorem getState_restoreState_self : (s.restoreState g).getState g = s.getOldState g := by
  unfold getState
  rw [statesOf_restoreState, if_pos rfl]
  rfl

theorem getState_setStates {state : LfgState} (h : s.getState g = state) (guids : List Guid) :
    (s.setStates state guids).getState g = state := by
  unfold setStates
  induction guids generalizing s with
  | nil => exact h
  | cons guid rest ih =>
    refine ih ?_
    unfold getState
    rw [statesOf_setState]
    split
    · cases state <;> rfl
    · exact h

theorem getOldState_setStates {state : LfgState} (hstate : state = .roleCheck ∨ state = .queued)
    (guids : List Guid) : (s.setStates state guids).getOldState g = s.getOldState g := by
  unfold setStates
  induction guids generalizing s with
  | nil => rfl
  | cons guid rest ih => exact ih.trans (getOldState_setState hstate guid)

theorem getOldState_restoreStates (guids : List Guid) :
    (s.restoreStates guids).getOldState g = s.getOldState g := by
  unfold restoreStates
  induction guids generalizing s with
  | nil => rfl
  | cons guid rest ih => exact ih.trans (getOldState_restoreState guid)

theorem SameQueues.listed {s' : State} (h : SameQueues s s') (q : Nat) :
    s'.Listed q g ↔ s.Listed q g := by
  unfold Listed
  rw [h.queues]

theorem listed_addQueueData (dungeons : LfgDungeonSet) (roles : LfgRolesMap) :
    (s.modifyQueueOf w g (·.addQueueData g dungeons roles)).Listed (w.queueId g) g := by
  unfold modifyQueueOf
  rw [listed_modifyQueue, if_pos rfl, LFGQueue.addQueueData_eq]
  exact .inl (List.mem_append_right _ (List.mem_singleton_self g))

theorem leaveBeforeJoin_states (g : Guid) : (s.leaveBeforeJoin w g).states = s.states := by
  unfold leaveBeforeJoin
  split <;> rfl

theorem leaveBeforeJoin_not_listed (h : s.Agrees w g) :
    ¬ (s.leaveBeforeJoin w g).Listed (w.queueId g) g := by
  unfold leaveBeforeJoin
  split
  · unfold modifyQueueOf
    rw [listed_modifyQueue, if_pos rfl]
    rintro (hin | hin)
    · exact absurd (List.mem_filter.mp hin).2 (by simp)
    · exact absurd (List.mem_filter.mp hin).2 (by simp)
  · next hstate => exact fun hlisted => hstate (h.mp hlisted)

theorem agrees_roleCheck {leader : Guid} {members : List Guid} {dungeons : LfgDungeonSet} {roles : Nat}
    (hlisted : ¬ s.Listed (w.queueId g) g) (hold : s.getOldState g ≠ .queued) :
    Agrees w ((s.beginRoleCheck g leader members dungeons).updateRoleCheck w g (some leader) roles) g := by
  let asked := (s.setState .roleCheck g).setStates .roleCheck members
  have hsame : SameQueues s asked :=
    (sameQueues_setState _ _ _).trans (sameQueues_setStates _ _ _)
  have hstate : asked.getState g = .roleCheck := getState_setStates (getState_setState_self _) _
  have hasked : asked.getOldState g = s.getOldState g :=
    (getOldState_setStates (.inl rfl) _).trans (getOldState_setState (.inl rfl) _)
  unfold updateRoleCheck beginRoleCheck
  simp only [AList.lookup_insert]
  generalize answerRoleCheck _ (some leader) roles = answered
  have hrestored : ∀ t : State, t.queuesStore = s.queuesStore → t.getOldState g = s.getOldState g →
      Agrees w ((t.restoreStates (answered.roles.entries.map (·.1))).restoreState g) g := by
    intro t hqueues ht
    refine iff_of_false (fun hin => hlisted ?_) ?_
    · have hin := (((sameQueues_restoreStates _ t).trans (sameQueues_restoreState _ _)).listed _).mp hin
      unfold Listed at hin ⊢
      rwa [hqueues] at hin
    · rw [getState_restoreState_self, getOldState_restoreStates, ht]
      exact hold
  cases answered.state with
  | initialiting =>
    refine iff_of_false (fun hin => hlisted ((hsame.listed _).mp hin)) fun hq => ?_
    exact absurd (hstate.symm.trans hq) (by decide)
  | finished =>
    exact iff_of_true (listed_addQueueData answered.dungeons answered.roles)
      (getState_setState_self _)
  | wrongRoles => exact hrestored _ hsame.queues hasked
  | aborted => exact hrestored _ hsame.queues hasked
  | noRole => exact hrestored _ hsame.queues hasked

/-- A request is handled well unless it takes a queued guid off the lists and is refused then. -/
theorem handleJoin_iff {d : LfgDungeons} {pkt : JoinPacket} (hagrees : s.Agrees w pkt.joinGuid)
    (hold : s.getOldState pkt.joinGuid ≠ .queued) :
    ((s.handleJoin w d pkt).Agrees w pkt.joinGuid ∧
        (pkt.refused d s = true → s.handleJoin w d pkt = s)) ↔
      ¬ (pkt.dungeons ≠ [] ∧ pkt.refused d s = true ∧ s.getState pkt.joinGuid = .queued) := by
  have hguid : joinGuid (pkt.request d s) = pkt.joinGuid := by
    unfold joinGuid JoinPacket.joinGuid JoinPacket.request
    cases pkt.group <;> rfl
  unfold handleJoin
  cases hempty : pkt.dungeons.isEmpty with
  | true => exact iff_of_true ⟨hagrees, fun _ => rfl⟩ fun h => h.1 (List.isEmpty_iff.mp hempty)
  | false =>
    have hsome : pkt.dungeons ≠ [] := fun h => by rw [h] at hempty; cases hempty
    simp only [Bool.false_eq_true, if_false]
    unfold joinLfg
    simp only [hguid]
    have hrefused : ((! (pkt.request d s).allowed) = true ∨ (pkt.request d s).isRaid = true) ↔
        pkt.refused d s = true := by
      unfold JoinPacket.request JoinPacket.refused
      rw [Bool.or_eq_true]
      rfl
    have hnot := leaveBeforeJoin_not_listed hagrees
    have hstates := @leaveBeforeJoin_states w s pkt.joinGuid
    by_cases hr : pkt.refused d s = true
    · rw [if_pos (hrefused.mpr hr)]
      by_cases hq : s.getState pkt.joinGuid = .queued
      · refine iff_of_false (fun h => hnot (h.1.mpr ?_)) fun h => h ⟨hsome, hr, hq⟩
        unfold getState statesOf at hq ⊢
        rwa [hstates]
      · have hsame : s.leaveBeforeJoin w pkt.joinGuid = s := if_neg hq
        rw [hsame]
        exact iff_of_true ⟨hagrees, fun _ => rfl⟩ fun h => hq h.2.2
    · rw [if_neg fun h => hr (hrefused.mp h)]
      refine iff_of_true ⟨?_, fun h => absurd h hr⟩ fun h => hr h.2.1
      have hold' : (s.leaveBeforeJoin w pkt.joinGuid).getOldState pkt.joinGuid ≠ .queued := by
        unfold getOldState statesOf at hold ⊢
        rwa [hstates]
      generalize s.leaveBeforeJoin w pkt.joinGuid = left at hnot hold'
      cases hgroup : pkt.group with
      | some group =>
        have hparty : (pkt.request d s).group = some (group.guid, group.members.map Joiner.guid) := by
          unfold JoinPacket.request
          rw [hgroup]
          rfl
        have hjoin : pkt.joinGuid = group.guid := by
          unfold JoinPacket.joinGuid
          rw [hgroup]
          rfl
        rw [hjoin] at hnot hold' ⊢
        simp only [hparty]
        exact agrees_roleCheck hnot hold'
      | none =>
        have hsolo : (pkt.request d s).group = none := by
          unfold JoinPacket.request
          rw [hgroup]
          rfl
        have hjoin : pkt.joinGuid = (pkt.request d s).guid := by
          unfold JoinPacket.joinGuid
          rw [hgroup]
          rfl
        rw [hjoin]
        simp only [hsolo]
        exact iff_of_true (listed_addQueueData (pkt.request d s).dungeons
          (AList.singleton _ (pkt.request d s).roles)) (getState_setState_self _)

end State

section Example

def openDungeons : LfgDungeons :=
  ⟨fun _ => .dungeon, fun _ => [], fun _ => 0, fun _ => [], fun _ _ => none⟩

def alone (player : Joiner) : JoinPacket := ⟨player, none, 8, [10]⟩

def queuedAlone : State := noOne.handleJoin oneTeam openDungeons (alone { guid := .player 1 })

theorem handleJoin_iff_alone : (queuedAlone.getState (.player 1) = .queued) ∧
    queuedAlone.Agrees oneTeam (.player 1) := by
  have h := (@State.handleJoin_iff oneTeam noOne openDungeons (alone { guid := .player 1 })
    (iff_of_false (fun h => h.elim nofun nofun) (by decide)) (by decide)).mpr fun h =>
      absurd h.2.2 (by decide)
  exact ⟨by decide +kernel, h.1⟩

/-- He joins again as a deserter and is refused: he is off the lists and still in the state. -/
theorem handleJoin_fails_deserter :
    let s := queuedAlone.handleJoin oneTeam openDungeons (alone { guid := .player 1, deserter := true })
    s.getState (.player 1) = .queued ∧ (s.queuesStore 0).newToQueueStore = [] ∧
      (s.queuesStore 0).currentQueueStore = [] ∧ ¬ s.Agrees oneTeam (.player 1) := by
  have hstate : (queuedAlone.handleJoin oneTeam openDungeons
      (alone { guid := .player 1, deserter := true })).getState (.player 1) = .queued := by
    decide +kernel
  have hnew : ((queuedAlone.handleJoin oneTeam openDungeons
      (alone { guid := .player 1, deserter := true })).queuesStore 0).newToQueueStore = [] := by
    decide +kernel
  have hcurrent : ((queuedAlone.handleJoin oneTeam openDungeons
      (alone { guid := .player 1, deserter := true })).queuesStore 0).currentQueueStore = [] := by
    decide +kernel
  refine ⟨hstate, hnew, hcurrent, fun h => ?_⟩
  obtain hin | hin := h.mpr hstate
  · exact absurd (hnew ▸ hin) List.not_mem_nil
  · exact absurd (hcurrent ▸ hin) List.not_mem_nil

end Example

end Ashamane.DungeonFinding
