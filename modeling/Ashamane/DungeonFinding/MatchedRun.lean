import Ashamane.DungeonFinding.Matched

/-! The operations of the dungeon finder keep what it has matched apart. -/
namespace Ashamane.DungeonFinding

open Ashamane.Lib

namespace State

variable {w : World} {s s' : State}

structure SameQueues (s s' : State) : Prop where
  queues : s'.queuesStore = s.queuesStore
  proposals : s'.proposalsStore = s.proposalsStore
  roleChecks : s'.roleChecksStore = s.roleChecksStore

theorem SameQueues.refl (s : State) : SameQueues s s := ⟨rfl, rfl, rfl⟩

theorem SameQueues.trans {s'' : State} (h : SameQueues s s') (h' : SameQueues s' s'') :
    SameQueues s s'' :=
  ⟨h'.queues.trans h.queues, h'.proposals.trans h.proposals, h'.roleChecks.trans h.roleChecks⟩

theorem sameQueues_setState (state : LfgState) (guid : Guid) (s : State) :
    SameQueues s (s.setState state guid) := ⟨rfl, rfl, rfl⟩

theorem sameQueues_restoreState (guid : Guid) (s : State) : SameQueues s (s.restoreState guid) :=
  ⟨rfl, rfl, rfl⟩

theorem sameQueues_setStates (state : LfgState) (guids : List Guid) (s : State) :
    SameQueues s (s.setStates state guids) := by
  unfold setStates
  induction guids generalizing s with
  | nil => exact .refl s
  | cons g rest ih => exact (sameQueues_setState state g s).trans (ih (s.setState state g))

theorem sameQueues_restoreStates (guids : List Guid) (s : State) :
    SameQueues s (s.restoreStates guids) := by
  unfold restoreStates
  induction guids generalizing s with
  | nil => exact .refl s
  | cons g rest ih => exact (sameQueues_restoreState g s).trans (ih (s.restoreState g))

theorem sameQueues_failStates (toRemove : List Guid) (s : State)
    (l : List (Sigma fun _ : Guid => LfgProposalPlayer)) : SameQueues s (failStates toRemove s l) := by
  induction l generalizing s with
  | nil => exact .refl s
  | cons e rest ih =>
    simp only [failStates]
    split
    · exact (sameQueues_restoreStates _ s).trans (ih _)
    · exact (sameQueues_setStates _ _ s).trans (ih _)

theorem sameQueues_makeNewGroup (proposal : LfgProposal) (newGroup : Guid) (s : State) :
    SameQueues s (s.makeNewGroup proposal newGroup) := by
  unfold makeNewGroup
  split <;> exact ⟨rfl, rfl, rfl⟩

theorem sameQueues_beginProposals (getGroup : Guid → Option Guid) (s : State) :
    SameQueues s (s.beginProposals getGroup) := by
  unfold beginProposals
  split
  · exact .refl s
  next hlast =>
    clear hlast
    generalize s.proposalsStore.entries.filter _ = l
    induction l generalizing s with
    | nil => exact .refl s
    | cons e rest ih => exact (sameQueues_setStates _ _ s).trans (ih _)

theorem Free.mono {g : Guid} {roles : LfgRolesMap} (h : s.Free g roles)
    (hcovers : ∀ q g p, s'.Covers q g p → s.Covers q g p)
    (hproposals : s'.proposalsStore = s.proposalsStore) : s'.Free g roles where
  proposals := fun id proposal hlive => h.proposals id proposal (by rwa [Live, hproposals] at hlive)
  queues := fun q g' p hg' hp => h.queues q g' p (hcovers q g' p hg') hp

theorem Free.congr {g : Guid} {roles : LfgRolesMap} (h : s.Free g roles) (hsame : SameQueues s s') :
    s'.Free g roles :=
  h.mono (fun q g p ⟨data, hd, hp⟩ => ⟨data, by rwa [queueData, hsame.queues] at hd, hp⟩) hsame.proposals

def finishedRoleCheck (s : State) (gguid : Guid) (guid : Option Guid) (roles : Nat) :
    Option (Guid × LfgRolesMap) :=
  match s.roleChecksStore.lookup gguid with
  | none => none
  | some roleCheck =>
    if (answerRoleCheck roleCheck guid roles).state = .finished then
      some (gguid, (answerRoleCheck roleCheck guid roles).roles)
    else none

end State

def Op.enqueues (w : World) (s : State) : Op → Option (Guid × LfgRolesMap)
  | .joinLfg r =>
    if !r.allowed ∨ r.isRaid then none
    else
      match r.group with
      | some (gguid, members) =>
        ((s.leaveBeforeJoin w (State.joinGuid r)).beginRoleCheck gguid r.guid members r.dungeons
          ).finishedRoleCheck gguid (some r.guid) r.roles
      | none => some (r.guid, AList.singleton r.guid r.roles)
  | .updateRoleCheck gguid guid roles => s.finishedRoleCheck gguid guid roles
  | _ => none

structure Op.KeepsApart (w : World) (s : State) (op : Op) : Prop where
  free : ∀ g roles, op.enqueues w s = some (g, roles) → s.Free g roles
  waiting : ∀ view q, op = .findGroups view q → s.NoGroupWaiting view q

namespace LfgInv

variable {w : World} {s s' : State}

theorem sameQueues (h : LfgInv w s) (hsame : State.SameQueues s s') : LfgInv w s' :=
  h.congr hsame.queues hsame.proposals

theorem updateRoleCheck {gguid : Guid} {guid : Option Guid} {roles : Nat} (h : LfgInv w s)
    (hfree : ∀ g joined, s.finishedRoleCheck gguid guid roles = some (g, joined) → s.Free g joined) :
    LfgInv w (s.updateRoleCheck w gguid guid roles) := by
  unfold State.updateRoleCheck
  split
  · exact h
  next roleCheck hcheck =>
  generalize hanswered : State.answerRoleCheck roleCheck guid roles = answered
  simp only
  split
  · exact h.congr rfl rfl
  next hfinished =>
    have hfree := hfree gguid answered.roles (by
      simp only [State.finishedRoleCheck, hcheck, hanswered, hfinished, if_true])
    have hsame := (State.sameQueues_setStates .queued (answered.roles.entries.map (·.1)) s).trans
      (State.sameQueues_setState .queued gguid _)
    exact ((h.sameQueues hsame).enqueue (hfree.congr hsame)).congr rfl rfl
  · have hsame := State.sameQueues_restoreStates (answered.roles.entries.map (·.1)) s
    exact (h.sameQueues hsame).congr rfl rfl

theorem leaveBeforeJoin (h : LfgInv w s) (g : Guid) : LfgInv w (s.leaveBeforeJoin w g) := by
  unfold State.leaveBeforeJoin
  split
  · exact h.removeFromQueue _ g
  · exact h

theorem joinLfg {r : JoinRequest} (h : LfgInv w s) (hok : (Op.joinLfg r).KeepsApart w s) :
    LfgInv w (s.joinLfg w r) := by
  have hleft := h.leaveBeforeJoin (State.joinGuid r)
  -- leaving the queue keeps the others free
  have hcovers : ∀ q g p, (s.leaveBeforeJoin w (State.joinGuid r)).Covers q g p → s.Covers q g p := by
    intro q g p ⟨data, hd, hp⟩
    unfold State.leaveBeforeJoin at hd
    split at hd
    · rw [State.modifyQueueOf, State.queueData_modifyQueue] at hd
      split at hd
      next heq =>
        exact ⟨data, heq ▸ (LFGQueue.removeAll _ [State.joinGuid r]).1 g data hd, hp⟩
      · exact ⟨data, hd, hp⟩
    · exact ⟨data, hd, hp⟩
  have hproposals : (s.leaveBeforeJoin w (State.joinGuid r)).proposalsStore = s.proposalsStore := by
    unfold State.leaveBeforeJoin
    split <;> rfl
  have hfree := hok.free
  simp only [Op.enqueues] at hfree
  unfold State.joinLfg
  simp only
  split
  · exact hleft
  next hallowed =>
  rw [if_neg hallowed] at hfree
  generalize s.leaveBeforeJoin w (State.joinGuid r) = left at hleft hcovers hproposals hfree ⊢
  split
  next gguid members hgroup =>
    simp only [hgroup] at hfree
    have hsame : State.SameQueues left ((left.setState .roleCheck gguid).setStates .roleCheck members) :=
      (State.sameQueues_setState .roleCheck gguid left).trans (State.sameQueues_setStates _ _ _)
    refine LfgInv.updateRoleCheck ((hleft.sameQueues hsame).congr rfl rfl) fun g joined hjoined => ?_
    refine (hfree g joined hjoined).mono (fun q g' p hg' => hcovers q g' p ?_) ?_
    · obtain ⟨data, hd, hp⟩ := hg'
      refine ⟨data, ?_, hp⟩
      rw [State.queueData, ← hsame.queues]
      exact hd
    · exact hsame.proposals.trans hproposals
  next hgroup =>
    have hfree := hfree r.guid (AList.singleton r.guid r.roles) (by rw [hgroup])
    exact (hleft.enqueue (hfree.mono hcovers hproposals)).congr rfl rfl

theorem removeRoleCheck {gguid : Guid} (h : LfgInv w s) : LfgInv w (s.removeRoleCheck gguid) := by
  unfold State.removeRoleCheck
  split
  · exact h
  · exact (h.sameQueues (State.sameQueues_restoreStates _ s)).congr rfl rfl

theorem eraseProposal (h : LfgInv w s) (id : Nat) :
    LfgInv w { s with proposalsStore := s.proposalsStore.erase id } := by
  refine h.shrink (fun _ _ _ hd => hd) (fun _ _ hlist => .inl hlist) fun id' proposal hlive => ?_
  have hne : id' ≠ id := by
    rintro rfl
    exact absurd ((AList.lookup_erase _ _).symm.trans hlive) (by simp)
  exact ⟨proposal, (AList.lookup_erase_ne hne).symm.trans hlive, rfl, fun _ hp => hp⟩

/-- An answer of a player keeps the players and the guids of the proposal. -/
theorem answer {id : Nat} {proposal : LfgProposal} (h : LfgInv w s) (hlive : s.Live id proposal)
    (guid : Guid) (accept : LfgAnswer) :
    LfgInv w { s with
      proposalsStore := s.proposalsStore.insert id (State.answerProposal proposal guid accept) } := by
  refine h.shrink (fun _ _ _ hd => hd) (fun _ _ hlist => .inl hlist) fun id' found hfound => ?_
  by_cases hid : id' = id
  · subst hid
    have heq := (AList.lookup_insert _).symm.trans hfound
    cases heq
    exact ⟨proposal, hlive, rfl, fun p hp => Assoc.mem_mapVal.mp hp⟩
  · exact ⟨found, (AList.lookup_insert_ne hid).symm.trans hfound, rfl, fun _ hp => hp⟩

/-- The guids of a failed proposal that are put back are in no other proposal. -/
theorem removeProposal {id : Nat} {type : LfgUpdateType} (h : LfgInv w s) :
    LfgInv w (s.removeProposal w id type) := by
  unfold State.removeProposal
  split
  · exact h
  next proposal hlive =>
  simp only
  generalize State.guidsToRemove (State.closeAnswers type proposal.players) = toRemove
  generalize (State.closeAnswers type proposal.players).entries = players
  have hsame := State.sameQueues_failStates toRemove s players
  have herased := (h.sameQueues hsame).eraseProposal id
  split
  · exact herased
  next first player rest =>
  refine herased.onQueue (fun g data hd => ?_) fun g hg => ?_
  · rw [(LFGQueue.reAddAll _ _).1] at hd
    exact (LFGQueue.removeAll _ _).1 g data hd
  · rw [(LFGQueue.reAddAll _ _).2.1] at hg
    obtain hnew | hcurrent := hg
    · exact .inl (.inl ((LFGQueue.removeAll _ _).2.1 g hnew))
    obtain hcurrent | ⟨hin, hsome⟩ := (LFGQueue.reAddAll _ _).2.2 g hcurrent
    · exact .inl (.inr ((LFGQueue.removeAll _ _).2.2 g hcurrent))
    obtain ⟨data, hd⟩ := Option.isSome_iff_exists.mp hsome
    refine .inr ⟨?_, fun id' proposal' hlive' hin' => ?_⟩
    · rw [State.queueData, (LFGQueue.removeAll _ _).1 g data hd]
      rfl
    · have hne : id' ≠ id := by
        rintro rfl
        exact absurd ((AList.lookup_erase _ _).symm.trans hlive') (by simp)
      have hold : s.Live id' proposal' := by
        have hkept := (AList.lookup_erase_ne hne).symm.trans hlive'
        rwa [hsame.proposals] at hkept
      exact (h.proposals id proposal id' proposal' hlive hold hne.symm).2 g (List.mem_of_mem_filter hin) hin'

theorem updateProposal {testing accept : Bool} {id : Nat} {guid newGroup : Guid} (h : LfgInv w s) :
    LfgInv w (s.updateProposal w testing id guid accept newGroup) := by
  unfold State.updateProposal
  split
  · exact h
  next proposal hlive =>
  split
  · exact h
  cases accept with
  | false => exact (h.answer hlive guid .deny).removeProposal
  | true =>
    have hstored := h.answer (w := w) hlive guid .agree
    simp only [Bool.not_true, Bool.false_eq_true, if_false, if_true]
    split
    · exact hstored
    · refine LfgInv.eraseProposal (LfgInv.sameQueues ?_ (State.sameQueues_makeNewGroup _ _ _)) id
      exact (hstored.sameQueues (State.sameQueues_setStates _ _ _)).removeAll _ _

theorem leaveLfg {guid leader : Guid} {group : Option Guid} {players : List Guid} {disconnected : Bool}
    (h : LfgInv w s) : LfgInv w (s.leaveLfg w guid group leader players disconnected) := by
  unfold State.leaveLfg
  generalize (if guid.isParty = true then some guid else group) = gguid
  simp only
  split
  · split
    next gguid =>
      refine LfgInv.sameQueues ?_ (State.sameQueues_setStates _ _ _)
      exact (h.removeFromQueue _ gguid).congr rfl rfl
    · exact (h.removeFromQueue _ guid).congr rfl rfl
  · split
    · refine h.updateRoleCheck fun g joined hjoined => ?_
      -- an aborted role check queues nobody
      unfold State.finishedRoleCheck at hjoined
      split at hjoined <;> cases hjoined
    · exact h
  · split
    · exact h
    next id proposal hfound =>
      obtain ⟨e, he, heq⟩ := Option.map_eq_some_iff.mp hfound
      cases heq
      exact (h.answer (Assoc.mem_entries_iff.mp (List.mem_of_find?_eq_some he)) _ .deny).removeProposal
  · split
    · exact h.congr rfl rfl
    · exact h
  · split
    · exact h.congr rfl rfl
    · exact h
  · exact h
  · exact h

theorem step {op : Op} (h : LfgInv w s) (hok : op.KeepsApart w s) (hs : Step w s op s') :
    LfgInv w s' := by
  subst hs
  cases op with
  | joinLfg request => exact h.joinLfg hok
  | updateRoleCheck gguid guid roles => exact h.updateRoleCheck hok.free
  | removeRoleCheck gguid => exact h.removeRoleCheck
  | findGroups view q => exact h.findGroups (hok.waiting view q rfl)
  | beginProposals getGroup => exact h.sameQueues (State.sameQueues_beginProposals getGroup s)
  | updateProposal testing id guid accept newGroup => exact h.updateProposal
  | removeProposal id type => exact h.removeProposal
  | leaveLfg guid group leader players disconnected => exact h.leaveLfg
  | otherStates states => exact h.congr rfl rfl

end LfgInv

structure Started (s : State) : Prop where
  queues : ∀ q, (s.queuesStore q).queueDataStore = ∅ ∧ (s.queuesStore q).newToQueueStore = [] ∧
    (s.queuesStore q).currentQueueStore = []
  proposals : s.proposalsStore = ∅

theorem Started.lfgInv {s : State} (w : World) (h : Started s) : LfgInv w s := by
  have hdata : ∀ q g, s.queueData q g = none := fun q g => by
    rw [State.queueData, (h.queues q).1]
    rfl
  have hlisted : ∀ q g, ¬ s.Listed q g := fun q g hlist => by
    rw [State.Listed, (h.queues q).2.1, (h.queues q).2.2] at hlist
    exact hlist.elim List.not_mem_nil List.not_mem_nil
  have hlive : ∀ id proposal, ¬ s.Live id proposal := fun id proposal hl => by
    rw [State.Live, h.proposals] at hl
    cases hl
  constructor
  case home =>
    intro q g hg
    rw [hdata] at hg
    cases hg
  case listed => exact fun q g hlist => absurd hlist (hlisted q g)
  case apart =>
    rintro q g _ _ _ ⟨data, hd, _⟩
    rw [hdata] at hd
    cases hd
  case inProposal => exact fun id proposal _ _ _ hl => absurd hl (hlive id proposal)
  case notListed => exact fun id proposal _ _ hl => absurd hl (hlive id proposal)
  case proposals => exact fun id proposal _ _ hl => absurd hl (hlive id proposal)

structure MatchedOnce (s : State) : Prop where
  oneProposal : ∀ id proposal id' proposal' p, s.Live id proposal → s.Live id' proposal' →
    p ∈ proposal.players → p ∈ proposal'.players → id = id'
  notQueued : ∀ id proposal p q g, s.Live id proposal → p ∈ proposal.players → s.Listed q g →
    ¬ s.Covers q g p
  oneQueued : ∀ p q g q' g', s.Listed q g → s.Listed q' g' → s.Covers q g p → s.Covers q' g' p →
    q = q' ∧ g = g'

theorem LfgInv.matchedOnce {w : World} {s : State} (h : LfgInv w s) : MatchedOnce s where
  oneProposal := fun id proposal id' proposal' p hl hl' hp hp' => by
    by_contra hne
    exact (h.proposals id proposal id' proposal' hl hl' hne).1 p hp hp'
  notQueued := fun id proposal p q g hl hp hlist hcover =>
    h.notListed id proposal q g hl (h.inProposal id proposal q g p hl hcover hp) hlist
  oneQueued := fun p q g q' g' hlist hlist' hcover hcover' => by
    have hguid := h.apart q g q' g' p hcover hcover'
    subst hguid
    exact ⟨(h.listed q g hlist).symm.trans (h.listed q' g hlist'), rfl⟩

/-- As long as only the free join and every search begins with no group waiting, no player is
matched twice or can be. -/
theorem matchedOnce_run {w : World} {s₀ s : State} {ops : List Op} (hstarted : Started s₀)
    (hrun : Run (Step w) (fun s op => op.KeepsApart w s) s₀ ops s) : MatchedOnce s :=
  (hrun.invariant (LfgInv w) (hstarted.lfgInv w) fun _ _ _ h hok hs => h.step hok hs).matchedOnce

section Example

def oneTeam : World := ⟨fun _ => 0⟩

def noOne : State := ⟨∅, ∅, ∅, 0, fun _ => .empty⟩

theorem started_noOne : Started noOne := ⟨fun _ => ⟨rfl, rfl, rfl⟩, rfl⟩

def search : Op := .findGroups ⟨false, fun _ _ => false⟩ 0

def joins (n roles : Nat) : Op :=
  .joinLfg ⟨.player n, none, roles, {10}, false, true⟩

/-- The leader of party `n` joins, and the members choose their roles. -/
def partyJoins (n leader roles : Nat) (members : List (Nat × Nat)) : List Op :=
  let party : Guid × List Guid := (.party n, .player leader :: members.map fun m => .player m.1)
  .joinLfg ⟨.player leader, some party, roles, {10}, false, true⟩ ::
    members.map fun m => .updateRoleCheck (.party n) (some (.player m.1)) m.2

theorem run_foldl (w : World) (s : State) (ops : List Op) :
    Run (Step w) always s ops (ops.foldl (Op.apply w) s) := by
  induction ops generalizing s with
  | nil => exact .nil s
  | cons op ops ih => exact .cons trivial rfl (ih (op.apply w s))

/-- A party of five joins, and the search makes a proposal of it. -/
theorem matchedOnce_run_party :
    ∃ s ops, MatchedOnce s ∧ ops = partyJoins 1 1 2 [(2, 4), (3, 8), (4, 8), (5, 8)] ++ [search] ∧
      (s.proposalsStore.lookup 1).map (fun p => p.players.entries.length) = some 5 ∧
      Run (Step oneTeam) (fun s op => op.KeepsApart oneTeam s) noOne ops s := by
  have hquiet : ∀ {op : Op} {s : State}, (op.enqueues oneTeam s).isNone = true →
      (∀ view q, op ≠ .findGroups view q) → op.KeepsApart oneTeam s := by
    intro op s hnone hop
    refine ⟨fun g roles hjoins => ?_, fun view q heq => absurd heq (hop view q)⟩
    rw [hjoins] at hnone
    cases hnone
  have hrun : ∃ s, Run (Step oneTeam) (fun s op => op.KeepsApart oneTeam s) noOne
      (partyJoins 1 1 2 [(2, 4), (3, 8), (4, 8), (5, 8)] ++ [search]) s ∧
      (s.proposalsStore.lookup 1).map (fun p => p.players.entries.length) = some 5 := by
    refine ⟨_, .cons (hquiet (by decide +kernel) (by simp)) rfl
      (.cons (hquiet (by decide +kernel) (by simp)) rfl
      (.cons (hquiet (by decide +kernel) (by simp)) rfl
      (.cons (hquiet (by decide +kernel) (by simp)) rfl
      (.cons ⟨fun g roles _ => ⟨fun _ _ hl => ?_, fun _ _ _ hcover => ?_⟩, fun _ _ h => (by cases h)⟩ rfl
      (.cons ⟨fun _ _ h => (by cases h), fun view q h check hsub hlen => ?_⟩ rfl (.nil _)))))),
      by decide +kernel⟩
    · cases hl
    · obtain ⟨_, hd, _⟩ := hcover
      cases hd
    · cases h
      have hnil : check = [] := List.sublist_nil.mp hsub
      rw [hnil] at hlen
      cases hlen
  obtain ⟨s, hrun, hfive⟩ := hrun
  exact ⟨s, _, matchedOnce_run started_noOne hrun, rfl, hfive, hrun⟩

def rejoinRun : List Op :=
  [joins 1 2, search, joins 2 4, search, joins 3 8, search, joins 4 8, search, joins 5 8, search,
    .beginProposals fun _ => none, joins 1 2]

theorem matchedOnce_fails_rejoin :
    ¬ ∀ (w : World) (s₀ s : State) (ops : List Op), Started s₀ → Run (Step w) always s₀ ops s →
      MatchedOnce s := by
  intro hall
  have hmatched := hall oneTeam noOne _ rejoinRun started_noOne (run_foldl oneTeam noOne rejoinRun)
  have hproposal : ((rejoinRun.foldl (Op.apply oneTeam) noOne).proposalsStore.lookup 1).any
      (fun p => decide (Guid.player 1 ∈ p.players)) = true := by decide +kernel
  have hcovers : ((rejoinRun.foldl (Op.apply oneTeam) noOne).queueData 0 (.player 1)).any
      (fun data => decide (Guid.player 1 ∈ data.roles)) = true := by decide +kernel
  have hlisted : Guid.player 1 ∈
      ((rejoinRun.foldl (Op.apply oneTeam) noOne).queuesStore 0).newToQueueStore := by decide +kernel
  obtain ⟨proposal, hlive, hplayer⟩ := (Option.any_eq_true _ _).mp hproposal
  obtain ⟨data, hdata, hrole⟩ := (Option.any_eq_true _ _).mp hcovers
  exact hmatched.notQueued 1 proposal (.player 1) 0 (.player 1) hlive (of_decide_eq_true hplayer)
    (.inl hlisted) ⟨data, hdata, of_decide_eq_true hrole⟩

end Example

end Ashamane.DungeonFinding
