import Ashamane.DungeonFinding.WellFormed

/-! A proposal that fails: which of its guids leave the queue, and which are put back into it. -/
namespace Ashamane.DungeonFinding

open Ashamane.Lib

namespace LFGQueue

theorem reAddAll_current (l : List Guid) (queue : LFGQueue) :
    (l.foldl (fun queue guid => queue.addToQueue guid true) queue).currentQueueStore =
      (l.filter fun g => (queue.queueDataStore.lookup g).isSome).reverse ++ queue.currentQueueStore := by
  induction l generalizing queue with
  | nil => rfl
  | cons g rest ih =>
    rw [List.foldl_cons, ih]
    cases hdata : queue.queueDataStore.lookup g with
    | none => simp [addToQueue, hdata]
    | some found => simp [addToQueue, hdata]

end LFGQueue

def LfgProposal.Drops (type : LfgUpdateType) (proposal : LfgProposal) (g : Guid) : Prop :=
  ∃ p player, proposal.players.lookup p = some player ∧ State.queuedGuid p player = g ∧
    (player.accept = .deny ∨ type = .proposalFailed ∧ player.accept = .pending)

namespace State

variable {w : World} {s t : State} {x : Guid}

def closedAnswer (type : LfgUpdateType) (player : LfgProposalPlayer) : LfgProposalPlayer :=
  if type = .proposalFailed ∧ player.accept = .pending then { player with accept := .deny } else player

@[simp] theorem closedAnswer_group (type : LfgUpdateType) (player : LfgProposalPlayer) :
    (closedAnswer type player).group = player.group := by
  unfold closedAnswer
  split <;> rfl

@[simp] theorem queuedGuid_closedAnswer (type : LfgUpdateType) (p : Guid) (player : LfgProposalPlayer) :
    queuedGuid p (closedAnswer type player) = queuedGuid p player := by
  rw [queuedGuid, closedAnswer_group, queuedGuid]

theorem closedAnswer_deny (type : LfgUpdateType) (player : LfgProposalPlayer) :
    (closedAnswer type player).accept = .deny ↔
      player.accept = .deny ∨ type = .proposalFailed ∧ player.accept = .pending := by
  unfold closedAnswer
  split
  next h => exact ⟨fun _ => .inr h, fun _ => rfl⟩
  next h => exact ⟨.inl, fun h' => h'.resolve_right h⟩

theorem closeAnswers_eq (type : LfgUpdateType) (players : AList fun _ : Guid => LfgProposalPlayer) :
    closeAnswers type players = Assoc.mapVal (fun _ => closedAnswer type) players := rfl

theorem mem_guidsToRemove {type : LfgUpdateType} {proposal : LfgProposal} {g : Guid} :
    g ∈ guidsToRemove (closeAnswers type proposal.players) ↔ proposal.Drops type g := by
  rw [closeAnswers_eq, guidsToRemove, List.mem_map]
  constructor
  · rintro ⟨e, hin, rfl⟩
    obtain ⟨hin, hdeny⟩ := List.mem_filter.mp hin
    obtain ⟨e, hold, rfl⟩ := List.mem_map.mp hin
    refine ⟨e.1, e.2, Assoc.mem_entries_iff.mp hold, (queuedGuid_closedAnswer type _ _).symm, ?_⟩
    exact (closedAnswer_deny type e.2).mp (eq_of_beq hdeny)
  · rintro ⟨p, player, hlookup, rfl, hdrop⟩
    refine ⟨⟨p, closedAnswer type player⟩, List.mem_filter.mpr ⟨List.mem_map.mpr ⟨⟨p, player⟩, ?_, rfl⟩, ?_⟩,
      queuedGuid_closedAnswer type p player⟩
    · exact Assoc.mem_entries_iff.mpr hlookup
    · exact beq_iff_eq.mpr ((closedAnswer_deny type player).mpr hdrop)

instance (type : LfgUpdateType) (proposal : LfgProposal) : DecidablePred (proposal.Drops type) :=
  fun _ => decidable_of_iff _ mem_guidsToRemove

section States

theorem statesOf_setQueued (guids : List Guid) : (s.setStates .queued guids).statesOf x =
    if x ∈ guids then (s.statesOf x).setState .queued else s.statesOf x := by
  unfold setStates
  induction guids generalizing s with
  | nil => simp
  | cons g rest ih =>
    rw [List.foldl_cons, ih, statesOf_setState]
    by_cases hg : x = g
    · subst hg
      simp [LfgStates.setState]
    · simp [hg]

theorem statesOf_restoreStates (guids : List Guid) : (s.restoreStates guids).statesOf x =
    if x ∈ guids then (s.statesOf x).restoreState else s.statesOf x := by
  unfold restoreStates
  induction guids generalizing s with
  | nil => simp
  | cons g rest ih =>
    rw [List.foldl_cons, ih, statesOf_restoreState]
    by_cases hg : x = g
    · subst hg
      simp [LfgStates.restoreState]
    · simp [hg]

def failedStates (dropped : Bool) (d : LfgStates) : LfgStates :=
  if dropped then d.restoreState else d.setState .queued

theorem failedStates_failedStates (dropped : Bool) (d : LfgStates) :
    failedStates dropped (failedStates dropped d) = failedStates dropped d := by
  cases dropped <;> rfl

/-- When all players who touch the states of `x` are of one kind, so is `x`. -/
theorem statesOf_failStates {toRemove : List Guid} {dropped : Bool}
    {l : List (Sigma fun _ : Guid => LfgProposalPlayer)}
    (hall : ∀ e ∈ l, x ∈ e.1 :: e.2.group.toList → (queuedGuid e.1 e.2 ∈ toRemove ↔ dropped)) :
    (failStates toRemove s l).statesOf x =
      if ∃ e ∈ l, x ∈ e.1 :: e.2.group.toList then failedStates dropped (s.statesOf x)
      else s.statesOf x := by
  induction l generalizing s with
  | nil => simp [failStates]
  | cons e rest ih =>
    obtain ⟨guid, player⟩ := e
    have hrest := fun s => @ih s fun e he => hall e (List.mem_cons_of_mem _ he)
    have hfirst := hall ⟨guid, player⟩ List.mem_cons_self
    rw [failStates]
    by_cases htouch : x ∈ guid :: player.group.toList
    · have hone : (if queuedGuid guid player ∈ toRemove then s.restoreStates (guid :: player.group.toList)
          else s.setStates .queued (guid :: player.group.toList)).statesOf x =
            failedStates dropped (s.statesOf x) := by
        have hkind := hfirst htouch
        split
        next hin => rw [statesOf_restoreStates, if_pos htouch, failedStates, if_pos (hkind.mp hin)]
        next hout =>
          rw [statesOf_setQueued, if_pos htouch, failedStates, if_neg fun h => hout (hkind.mpr h)]
      have hany : ∃ e ∈ (⟨guid, player⟩ :: rest : List (Sigma fun _ : Guid => LfgProposalPlayer)),
          x ∈ e.1 :: e.2.group.toList := ⟨_, List.mem_cons_self, htouch⟩
      rw [if_pos hany, ← apply_ite (failStates toRemove · rest), hrest, hone]
      split
      · exact failedStates_failedStates dropped _
      · rfl
    · have hone : (if queuedGuid guid player ∈ toRemove then s.restoreStates (guid :: player.group.toList)
          else s.setStates .queued (guid :: player.group.toList)).statesOf x = s.statesOf x := by
        split
        · rw [statesOf_restoreStates, if_neg htouch]
        · rw [statesOf_setQueued, if_neg htouch]
      have hany : (∃ e ∈ (⟨guid, player⟩ :: rest : List (Sigma fun _ : Guid => LfgProposalPlayer)),
          x ∈ e.1 :: e.2.group.toList) ↔ ∃ e ∈ rest, x ∈ e.1 :: e.2.group.toList := by
        rw [List.exists_mem_cons_iff]
        exact or_iff_right htouch
      rw [← apply_ite (failStates toRemove · rest), hrest, hone]
      simp only [hany]

end States

/-- What becomes of the guids of a proposal that is removed. Those that are dropped leave their queue
with their members, whose states are reset. The others are queued again: their members are in the state
for that, and each with queue data has been put once in front of the current guids. -/
structure Partitioned (w : World) (s : State) (type : LfgUpdateType) (id : Nat)
    (proposal : LfgProposal) (t : State) : Prop where
  erased : t.proposalsStore.lookup id = none
  nodup : proposal.queues.Nodup
  members : ∀ g ∈ proposal.queues, proposal.Member g g
  dropped : ∀ g ∈ proposal.queues, proposal.Drops type g →
    t.queueData (w.queueId g) g = none ∧ ¬t.Listed (w.queueId g) g ∧
      ∀ x, proposal.Member g x → t.getState x = s.getOldState x
  kept : ∀ g ∈ proposal.queues, ¬proposal.Drops type g →
    t.queueData (w.queueId g) g = s.queueData (w.queueId g) g ∧
      ∀ x, proposal.Member g x → t.getState x = .queued
  new : ∀ g ∈ proposal.queues, t.newOf (w.queueId g) =
    (s.newOf (w.queueId g)).filter fun g' => decide (¬proposal.Drops type g')
  current : ∀ g ∈ proposal.queues, t.currentOf (w.queueId g) =
    (proposal.queues.filter fun g' =>
      decide (¬proposal.Drops type g') && (s.queueData (w.queueId g) g').isSome).reverse ++
      (s.currentOf (w.queueId g)).filter fun g' => decide (¬proposal.Drops type g')

theorem getState_failStates {type : LfgUpdateType} {proposal : LfgProposal} {g : Guid}
    (hproposal : proposal.WellFormed w) (hmember : proposal.Member g x) :
    ((s.failStates (guidsToRemove (closeAnswers type proposal.players))
      (closeAnswers type proposal.players).entries).statesOf x) =
        failedStates (decide (proposal.Drops type g)) (s.statesOf x) := by
  rw [@statesOf_failStates _ x _ (decide (proposal.Drops type g)), if_pos]
  · obtain ⟨p, player, hlookup, -, hx⟩ := hmember
    refine ⟨⟨p, closedAnswer type player⟩, List.mem_map.mpr ⟨⟨p, player⟩, ?_, rfl⟩, ?_⟩
    · exact Assoc.mem_entries_iff.mpr hlookup
    · rwa [closedAnswer_group]
  · intro e he hx
    obtain ⟨⟨p, player⟩, hold, rfl⟩ := List.mem_map.mp he
    change x ∈ p :: (closedAnswer type player).group.toList at hx
    rw [closedAnswer_group] at hx
    have hother : proposal.Member (queuedGuid p player) x :=
      ⟨p, player, Assoc.mem_entries_iff.mp hold, rfl, hx⟩
    obtain rfl := hproposal.member_unique hmember hother
    rw [mem_guidsToRemove, decide_eq_true_iff]
    exact Iff.of_eq (congrArg _ (queuedGuid_closedAnswer type p player))

theorem removed_queue {type : LfgUpdateType} {proposal : LfgProposal} (queue : LFGQueue) :
    let toRemove := guidsToRemove (closeAnswers type proposal.players)
    let left := (proposal.queues.filter fun guid => decide (guid ∉ toRemove)).foldl
      (fun queue guid => queue.addToQueue guid true)
      (toRemove.foldl (fun queue guid => queue.removeFromQueue guid) queue)
    (∀ g, left.queueDataStore.lookup g =
        if proposal.Drops type g then none else queue.queueDataStore.lookup g) ∧
      left.newToQueueStore = queue.newToQueueStore.filter (fun g => decide (¬proposal.Drops type g)) ∧
      left.currentQueueStore = (proposal.queues.filter fun g =>
        decide (¬proposal.Drops type g) && (queue.queueDataStore.lookup g).isSome).reverse ++
          queue.currentQueueStore.filter fun g => decide (¬proposal.Drops type g) := by
  obtain ⟨hnew, hcurrent, hdata⟩ :=
    LFGQueue.removeAll_lists (guidsToRemove (closeAnswers type proposal.players)) queue
  simp only [mem_guidsToRemove] at hnew hcurrent hdata
  refine ⟨fun g => ?_, ?_, ?_⟩
  · rw [(LFGQueue.reAddAll _ _).1, hdata]
  · rw [(LFGQueue.reAddAll _ _).2.1, hnew]
  · rw [LFGQueue.reAddAll_current, hcurrent]
    simp only [mem_guidsToRemove, List.filter_filter, hdata]
    congr 2
    refine List.filter_congr fun g _ => ?_
    by_cases hdrops : proposal.Drops type g <;> simp [hdrops]

/-- A live proposal of a well formed state is partitioned by its removal. -/
theorem removeProposal_partitioned {type : LfgUpdateType} {id : Nat} {proposal : LfgProposal}
    (h : Typed w s) (hlive : s.Live id proposal) :
    Partitioned w s type id proposal (s.removeProposal w id type) := by
  have hproposal := h.proposals id proposal hlive
  have hmembers : ∀ g ∈ proposal.queues, ∃ p, p ∈ proposal.players := by
    intro g hg
    obtain ⟨p, player, hlookup, -⟩ := hproposal.members g hg
    exact ⟨p, AList.lookup_isSome.mp (Option.isSome_iff_exists.mpr ⟨player, hlookup⟩)⟩
  have hsame := sameQueues_failStates (guidsToRemove (closeAnswers type proposal.players)) s
    (closeAnswers type proposal.players).entries
  have hstates := fun g x => @getState_failStates w s x type proposal g hproposal
  rw [removeProposal, hlive]
  simp only
  split
  next hempty =>
    have hnone : ∀ g, g ∉ proposal.queues := by
      intro g hg
      obtain ⟨p, hp⟩ := hmembers g hg
      obtain ⟨player, hplayer⟩ := Option.isSome_iff_exists.mp
        (AList.lookup_isSome.mpr (Assoc.mem_mapVal.mpr hp : p ∈ closeAnswers type proposal.players))
      exact List.not_mem_nil (hempty ▸ Assoc.mem_entries_iff.mpr hplayer)
    exact ⟨AList.lookup_erase _ _, hproposal.nodup, fun g hg => absurd hg (hnone g),
      fun g hg => absurd hg (hnone g), fun g hg => absurd hg (hnone g), fun g hg => absurd hg (hnone g),
      fun g hg => absurd hg (hnone g)⟩
  next first player rest hentries =>
    have hfirst : first ∈ proposal.players := by
      refine Assoc.mem_mapVal.mp (AList.lookup_isSome.mp (Option.isSome_iff_exists.mpr ⟨player, ?_⟩) :
        first ∈ closeAnswers type proposal.players)
      exact Assoc.mem_entries_iff.mp (hentries ▸ List.mem_cons_self)
    have hqueue : ∀ g ∈ proposal.queues, w.queueId g = w.queueId first := fun g hg =>
      (hproposal.queue g hg first hfirst).2.symm
    obtain ⟨hdata, hnew, hcurrent⟩ := @removed_queue type proposal (s.queuesStore (w.queueId first))
    refine ⟨AList.lookup_erase _ _, hproposal.nodup, hproposal.members, fun g hg hdrops => ?_,
      fun g hg hkept => ?_, fun g hg => ?_, fun g hg => ?_⟩
    · refine ⟨?_, ?_, fun x hx => ?_⟩
      · rw [hqueue g hg, modifyQueueOf, queueData_modifyQueue, if_pos rfl]
        simp only [hsame.queues]
        rw [hdata, if_pos hdrops]
      · rw [hqueue g hg, modifyQueueOf, listed_modifyQueue, if_pos rfl]
        simp only [hsame.queues]
        rw [hnew, hcurrent]
        simp [hdrops]
      · refine (congrArg LfgStates.state (hstates g x hx)).trans ?_
        rw [failedStates, if_pos (decide_eq_true hdrops)]
        rfl
    · refine ⟨?_, fun x hx => ?_⟩
      · rw [hqueue g hg, modifyQueueOf, queueData_modifyQueue, if_pos rfl]
        simp only [hsame.queues]
        rw [hdata, if_neg hkept, queueData]
      · refine (congrArg LfgStates.state (hstates g x hx)).trans ?_
        rw [failedStates, if_neg (by simpa using hkept)]
        rfl
    · rw [hqueue g hg, newOf, modifyQueueOf, modifyQueue]
      simp only [Function.update_self, hsame.queues]
      exact hnew
    · rw [hqueue g hg, currentOf, modifyQueueOf, modifyQueue]
      simp only [Function.update_self, hsame.queues]
      exact hcurrent

theorem typed_run {s₀ : State} {ops : List Op} (hstarted : Started s₀)
    (hchecks : s₀.roleChecksStore = ∅) (hrun : Run (Step w) (fun s op => op.Proper w s) s₀ ops s) :
    Typed w s := by
  refine hrun.invariant (Typed w) ⟨fun q g found hd => ?_, fun g roleCheck hc => ?_,
    fun id proposal hl => ?_⟩ fun s op t h hok hs => h.step hok hs
  · rw [queueData, (hstarted.queues q).1] at hd
    cases hd
  · rw [hchecks] at hc
    cases hc
  · rw [Live, hstarted.proposals] at hl
    cases hl

/-- In every state that is reached, the removal of a live proposal partitions its guids, for every
reason, and also after one more answer of a player. -/
theorem removeProposal_run {s₀ : State} {ops : List Op} (hstarted : Started s₀)
    (hchecks : s₀.roleChecksStore = ∅) (hrun : Run (Step w) (fun s op => op.Proper w s) s₀ ops s)
    {id : Nat} {proposal : LfgProposal} (hlive : s.Live id proposal) (type : LfgUpdateType) :
    Partitioned w s type id proposal (s.removeProposal w id type) ∧
      ∀ guid answer,
        let answered := answerProposal proposal guid answer
        let stored := { s with proposalsStore := s.proposalsStore.insert id answered }
        Partitioned w stored type id answered (stored.removeProposal w id type) := by
  have htyped := typed_run hstarted hchecks hrun
  refine ⟨removeProposal_partitioned htyped hlive, fun guid answer => ?_⟩
  exact removeProposal_partitioned (htyped.answer hlive guid answer) (AList.lookup_insert _)

def fiveMatched : State := (List.replicate 5 search).foldl (Op.apply oneTeam) fiveNew

theorem removeProposal_run_five : ∃ proposal, fiveMatched.Live 1 proposal ∧
    Partitioned oneTeam fiveMatched .proposalFailed 1 proposal
      (fiveMatched.removeProposal oneTeam 1 .proposalFailed) := by
  have hjoin : ∀ n roles s, (joins n roles).Proper oneTeam s := fun _ _ _ => ⟨rfl, nofun⟩
  have hsearch : ∀ n ≤ 5, search.Proper oneTeam ((List.replicate n search).foldl (Op.apply oneTeam) fiveNew) := by
    intro n hn
    refine countable_of_entries ?_
    revert n
    decide +kernel
  have hrun : Run (Step oneTeam) (fun s op => op.Proper oneTeam s) noOne
      ([joins 1 2, joins 2 4, joins 3 8, joins 4 8, joins 5 8] ++ List.replicate 5 search) fiveMatched :=
    .cons (hjoin _ _ _) rfl <| .cons (hjoin _ _ _) rfl <| .cons (hjoin _ _ _) rfl <|
      .cons (hjoin _ _ _) rfl <| .cons (hjoin _ _ _) rfl <|
      .cons (hsearch 0 (by decide)) rfl <| .cons (hsearch 1 (by decide)) rfl <|
      .cons (hsearch 2 (by decide)) rfl <| .cons (hsearch 3 (by decide)) rfl <|
      .cons (hsearch 4 (by decide)) rfl (.nil _)
  obtain ⟨proposal, hlive⟩ : ∃ proposal, fiveMatched.Live 1 proposal :=
    Option.isSome_iff_exists.mp (by decide +kernel)
  exact ⟨proposal, hlive, (removeProposal_run started_noOne rfl hrun hlive .proposalFailed).1⟩

def leftRun : List Op :=
  [joins 1 2, joins 2 4, joins 3 8, joins 4 8, joins 5 8, joins 11 2, joins 12 4, joins 13 8,
    joins 14 8, joins 15 8] ++ List.replicate 10 search ++
    [.beginProposals fun _ => none, .leaveLfg (.player 1) none (.player 1) [] false,
      .updateProposal false 1 (.player 2) false (.party 1)]

/-- The guids that are put back are not among the new ones, and one without queue data is not put
back at all. -/
theorem removeProposal_fails_new :
    ((fiveMatched.updateProposal oneTeam false 1 (.player 1) false (.party 1)).newOf 0 = [] ∧
      (fiveMatched.updateProposal oneTeam false 1 (.player 1) false (.party 1)).currentOf 0 =
        [.player 4, .player 3, .player 2, .player 5]) ∧
      (leftRun.foldl (Op.apply oneTeam) noOne).getState (.player 1) = .queued ∧
      (leftRun.foldl (Op.apply oneTeam) noOne).queueData 0 (.player 1) = none ∧
      (leftRun.foldl (Op.apply oneTeam) noOne).newOf 0 = [] ∧
      (leftRun.foldl (Op.apply oneTeam) noOne).currentOf 0 = [.player 4, .player 3, .player 5] := by
  refine ⟨⟨by decide +kernel, by decide +kernel⟩, by decide +kernel, ?_, by decide +kernel,
    by decide +kernel⟩
  exact Option.isNone_iff_eq_none.mp (by decide +kernel)

end State

end Ashamane.DungeonFinding
