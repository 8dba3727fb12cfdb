import Ashamane.DungeonFinding.Matched

/-! The proposals that a search of a queue creates, and what the search does to the queue: a guid
leaves its lists only for one of them. -/
namespace Ashamane.DungeonFinding

namespace State

variable (view : LfgView) (q : Nat)

def checkGroupCreated (s : State) (check : List Guid) : List LfgProposal :=
  match countPlayers (s.queueData q) s.isLfgGroup check 0 0 with
  | .error _ => []
  | .ok (numPlayers, numLfgGroups) =>
    if compatibilityOf (s.queueData q) view s.allQueued check numPlayers numLfgGroups = .matched then
      [s.newProposal q check numLfgGroups ((proposalRoles (s.queueData q) view check).getD ∅)]
    else []

def checkCompatibilityCreated : List Guid → State → List LfgProposal
  | [], _ => []
  | guid :: rest, s =>
    if maxGroupSize < rest.length + 1 then []
    else if 1 < rest.length then
      let child := s.checkCompatibility view q rest
      checkCompatibilityCreated rest s ++
        if child.1.compatible then child.2.checkGroupCreated view q (guid :: rest) else []
    else s.checkGroupCreated view q (guid :: rest)

def findCompatibilityCreated (check : List Guid) (s : State) : List LfgProposal :=
  if (s.queuesStore q).getCompatibles check = .pending then
    s.checkCompatibilityCreated view q check
  else []

def matchQueuedCreated (check : List Guid) : List Guid → State → List LfgProposal
  | [], _ => []
  | guid :: all, s =>
    let sub := s.findCompatibility view q (check ++ [guid])
    s.findCompatibilityCreated view q (check ++ [guid]) ++
      if sub.1 = .matched then []
      else if sub.1 = .withLessPlayers then matchQueuedCreated (check ++ [guid]) all sub.2
      else matchQueuedCreated check all sub.2

def findNewGroupsCreated (check all : List Guid) (s : State) : List LfgProposal :=
  let first := s.findCompatibility view q check
  s.findCompatibilityCreated view q check ++
    if first.1 = .withLessPlayers then matchQueuedCreated view q check all first.2 else []

def findGroupsCreated (s : State) : List LfgProposal :=
  match (s.queuesStore q).newToQueueStore with
  | [] => []
  | frontguid :: _ =>
    let taken := s.modifyQueue q (·.removeFromNewQueue frontguid)
    taken.findNewGroupsCreated view q [frontguid] (taken.queuesStore q).currentQueueStore

def findGroupsPasses : Nat → State → State
  | 0, s => s
  | n + 1, s => findGroupsPasses n (s.findGroups view q)

def findGroupsPassesCreated : Nat → State → List LfgProposal
  | 0, _ => []
  | n + 1, s => s.findGroupsCreated view q ++ findGroupsPassesCreated n (s.findGroups view q)

/-- `LFGQueue::FindGroups`. Each pass takes a guid from the new ones, so there are at most as many
passes as these. -/
def findAllGroups (s : State) : State :=
  s.findGroupsPasses view q (s.queuesStore q).newToQueueStore.length

def findAllGroupsCreated (s : State) : List LfgProposal :=
  s.findGroupsPassesCreated view q (s.queuesStore q).newToQueueStore.length

abbrev newOf (s : State) (q : Nat) : List Guid := (s.queuesStore q).newToQueueStore

abbrev currentOf (s : State) (q : Nat) : List Guid := (s.queuesStore q).currentQueueStore

def HasData (s : State) (q : Nat) (g : Guid) : Prop := (s.queueData q g).isSome = true

/-- `FindNewGroups` answers with a match for `check` without a proposal: a match is stored, or bad
states that are gone by now. -/
def StoredMatch (s : State) (q : Nat) (check : List Guid) : Prop :=
  (s.queuesStore q).getCompatibles check = .matched ∨
    (s.queuesStore q).getCompatibles check = .badStates ∧ s.allQueued check = true

def Backed (s : State) (q : Nat) (created : List LfgProposal) (check : List Guid) : Prop :=
  s.StoredMatch q check ∨ ∃ p ∈ created, ∀ g ∈ check, g ∈ p.queues

/-- A guid with queue data leaves the list `l` only for a proposal of `created`. -/
structure Keeps (s : State) (q : Nat) (created : List LfgProposal) (l l' : List Guid) : Prop where
  sublist : l'.Sublist l
  kept : ∀ g ∈ l, s.HasData q g → g ∈ l' ∨ ∃ p ∈ created, g ∈ p.queues

structure Trail (s : State) (q : Nat) (created : List LfgProposal) (t : State) : Prop where
  states : t.states = s.states
  data : ∀ q' g, t.queueData q' g = s.queueData q' g
  new : Keeps s q created (s.newOf q) (t.newOf q)
  current : Keeps s q created (s.currentOf q) (t.currentOf q)
  stored : ∀ check, t.StoredMatch q check → s.Backed q created check

variable {q} {s t u : State} {created : List LfgProposal}

def Adds (s : State) (created : List LfgProposal) (t : State) : Prop :=
  t.proposalId = (created.foldl addProposal s).proposalId ∧
    t.proposalsStore = (created.foldl addProposal s).proposalsStore

namespace Adds

theorem refl (s : State) : Adds s [] s := ⟨rfl, rfl⟩

theorem trans {created' : List LfgProposal} (h : Adds s created u) (h' : Adds u created' t) :
    Adds s (created ++ created') t := by
  have hcongr : ∀ (l : List LfgProposal) (x y : State), x.proposalId = y.proposalId →
      x.proposalsStore = y.proposalsStore → Adds y l (l.foldl addProposal x) := by
    intro l
    induction l with
    | nil => exact fun _ _ hid hstore => ⟨hid, hstore⟩
    | cons p l ih =>
      exact fun x y hid hstore => ih _ _ (by simp [addProposal, hid])
        (by simp [addProposal, hid, hstore])
  obtain ⟨hid, hstore⟩ := hcongr created' u (created.foldl addProposal s) h.1 h.2
  unfold Adds
  rw [List.foldl_append]
  exact ⟨h'.1.trans hid, h'.2.trans hstore⟩

theorem modifyQueue (h : Adds s created t) (q : Nat) (f : LFGQueue → LFGQueue) :
    Adds s created (t.modifyQueue q f) := h

end Adds

theorem checkGroup_adds (s : State) (check : List Guid) :
    Adds s (s.checkGroupCreated view q check) (s.checkGroup view q check).2 := by
  cases hcount : countPlayers (s.queueData q) s.isLfgGroup check 0 0 with
  | error guid =>
    simp only [checkGroup, checkGroupCreated, hcount]
    exact (Adds.refl s).modifyQueue q _
  | ok n =>
    simp only [checkGroup, checkGroupCreated, hcount]
    split
    · exact ⟨rfl, rfl⟩
    · exact (Adds.refl s).modifyQueue q _

theorem checkCompatibility_adds (s : State) (check : List Guid) :
    Adds s (s.checkCompatibilityCreated view q check) (s.checkCompatibility view q check).2 := by
  induction check with
  | nil => exact .refl s
  | cons guid rest ih =>
    unfold checkCompatibility checkCompatibilityCreated
    split
    · exact .refl s
    split
    · dsimp only
      split
      · exact ih.trans (checkGroup_adds view _ _)
      · rw [List.append_nil]
        exact ih.modifyQueue q _
    · exact checkGroup_adds view s _

theorem findCompatibility_adds (s : State) (check : List Guid) :
    Adds s (s.findCompatibilityCreated view q check) (s.findCompatibility view q check).2 := by
  unfold findCompatibility findCompatibilityCreated
  by_cases hpending : (s.queuesStore q).getCompatibles check = .pending
  · have hchecked := checkCompatibility_adds view (q := q) s check
    simp only [if_pos hpending]
    split
    · exact hchecked.modifyQueue q _
    · exact hchecked
  · simp only [if_neg hpending]
    split
    · exact (Adds.refl s).modifyQueue q _
    · exact .refl s

theorem matchQueued_adds (check all : List Guid) (s : State) :
    Adds s (s.matchQueuedCreated view q check all) (s.matchQueued view q check all).2 := by
  induction all generalizing check s with
  | nil => exact .refl s
  | cons guid all ih =>
    have hsub := findCompatibility_adds view s (q := q) (check ++ [guid])
    unfold matchQueued matchQueuedCreated
    dsimp only
    split
    · rw [List.append_nil]
      exact hsub
    · split
      · exact hsub.trans (ih _ _)
      · exact hsub.trans (ih _ _)

theorem findNewGroups_adds (check all : List Guid) (s : State) :
    Adds s (s.findNewGroupsCreated view q check all) (s.findNewGroups view q check all).2 := by
  have hfirst := findCompatibility_adds view s (q := q) check
  unfold findNewGroups findNewGroupsCreated
  dsimp only
  split
  · exact hfirst.trans (matchQueued_adds view check all _)
  · rw [List.append_nil]
    exact hfirst

theorem findGroups_adds (s : State) :
    Adds s (s.findGroupsCreated view q) (s.findGroups view q) := by
  unfold findGroups findGroupsCreated
  cases (s.queuesStore q).newToQueueStore with
  | nil => exact .refl s
  | cons frontguid rest =>
    have htaken : Adds s [] (s.modifyQueue q (·.removeFromNewQueue frontguid)) := .refl s
    have hfound := htaken.trans (findNewGroups_adds view (q := q) [frontguid]
      ((s.modifyQueue q (·.removeFromNewQueue frontguid)).queuesStore q).currentQueueStore _)
    dsimp only
    split
    · exact hfound
    · exact hfound.modifyQueue q _

theorem findGroupsPasses_adds (n : Nat) (s : State) :
    Adds s (s.findGroupsPassesCreated view q n) (s.findGroupsPasses view q n) := by
  induction n generalizing s with
  | zero => exact .refl s
  | succ n ih => exact (findGroups_adds view s).trans (ih _)

theorem findAllGroups_adds (s : State) :
    Adds s (s.findAllGroupsCreated view q) (s.findAllGroups view q) :=
  findGroupsPasses_adds view _ s

theorem allQueued_congr {check check' : List Guid} (h : check.toFinset = check'.toFinset) :
    s.allQueued check = s.allQueued check' := by
  have hmem : ∀ g, g ∈ check ↔ g ∈ check' := fun g => by
    rw [← List.mem_toFinset, h, List.mem_toFinset]
  have hempty : check = [] ↔ check' = [] := by
    rw [← List.toFinset_eq_empty_iff, h, List.toFinset_eq_empty_iff]
  rw [Bool.eq_iff_iff]
  simp only [allQueued, Bool.and_eq_true, Bool.not_eq_true', List.isEmpty_eq_false_iff, ne_eq,
    List.all_eq_true, hempty, hmem]

theorem Backed.congr {check check' : List Guid} (h : s.Backed q created check)
    (heq : check.toFinset = check'.toFinset) : s.Backed q created check' := by
  refine h.imp (fun h => ?_) fun ⟨p, hp, hin⟩ => ⟨p, hp, fun g hg => hin g ?_⟩
  · rwa [StoredMatch, LFGQueue.getCompatibles, ← heq, ← allQueued_congr heq]
  · rwa [← List.mem_toFinset, heq, List.mem_toFinset]

namespace Keeps

variable {l l' m : List Guid}

theorem refl (s : State) (q : Nat) (l : List Guid) : Keeps s q [] l l :=
  ⟨.refl l, fun _ hg _ => .inl hg⟩

theorem trans {created' : List LfgProposal} (h : Keeps s q created l m)
    (h' : Keeps u q created' m l') (hdata : ∀ g, s.HasData q g → u.HasData q g) :
    Keeps s q (created ++ created') l l' := by
  refine ⟨h'.sublist.trans h.sublist, fun g hg hs => ?_⟩
  obtain hm | ⟨p, hp, hin⟩ := h.kept g hg hs
  · obtain hl' | ⟨p, hp, hin⟩ := h'.kept g hm (hdata g hs)
    · exact .inl hl'
    · exact .inr ⟨p, List.mem_append_right _ hp, hin⟩
  · exact .inr ⟨p, List.mem_append_left _ hp, hin⟩

theorem filter {p : Guid → Bool} (h : ∀ g ∈ l, s.HasData q g → p g = false →
    ∃ p ∈ created, g ∈ p.queues) : Keeps s q created l (l.filter p) := by
  refine ⟨List.filter_sublist, fun g hg hdata => ?_⟩
  cases hp : p g with
  | true => exact .inl (List.mem_filter.2 ⟨hg, hp⟩)
  | false => exact .inr (h g hg hdata hp)

end Keeps

namespace Trail

theorem refl (s : State) (q : Nat) : Trail s q [] s :=
  ⟨rfl, fun _ _ => rfl, .refl s q _, .refl s q _, fun _ h => .inl h⟩

theorem hasData (h : Trail s q created t) {g : Guid} (hdata : s.HasData q g) : t.HasData q g := by
  rw [HasData, h.data]
  exact hdata

theorem backed {created' : List LfgProposal} {check : List Guid} (h : Trail s q created u)
    (h' : u.Backed q created' check) : s.Backed q (created ++ created') check := by
  obtain hstored | ⟨p, hp, hin⟩ := h'
  · exact (h.stored check hstored).imp_right fun ⟨p, hp, hin⟩ =>
      ⟨p, List.mem_append_left _ hp, hin⟩
  · exact .inr ⟨p, List.mem_append_right _ hp, hin⟩

theorem trans {created' : List LfgProposal} (h : Trail s q created u)
    (h' : Trail u q created' t) : Trail s q (created ++ created') t where
  states := h'.states.trans h.states
  data q' g := (h'.data q' g).trans (h.data q' g)
  new := h.new.trans h'.new fun _ => h.hasData
  current := h.current.trans h'.current fun _ => h.hasData
  stored check ht := h.backed (h'.stored check ht)

theorem allQueued_eq (h : Trail s q created t) : t.allQueued = s.allQueued := by
  funext check
  simp only [State.allQueued, State.getState, State.statesOf, h.states]

theorem setCompatibles (h : Trail s q created t) (check : List Guid) (c : LfgCompatibility)
    (hc : c = .matched ∨ c = .badStates ∧ s.allQueued check = true → s.Backed q created check) :
    Trail s q created (t.modifyQueue q (·.setCompatibles check c)) := by
  have hnew : (t.modifyQueue q (·.setCompatibles check c)).newOf q = t.newOf q := by
    simp [newOf, modifyQueue, LFGQueue.setCompatibles]
  have hcurrent : (t.modifyQueue q (·.setCompatibles check c)).currentOf q = t.currentOf q := by
    simp [currentOf, modifyQueue, LFGQueue.setCompatibles]
  refine ⟨h.states, fun q' g => ?_, hnew ▸ h.new, hcurrent ▸ h.current, fun check' hstored => ?_⟩
  · rw [State.queueData_modifyQueue, ← h.data q' g]
    split
    next heq =>
      rw [heq]
      rfl
    · rfl
  · have hall : (t.modifyQueue q (·.setCompatibles check c)).allQueued check' =
        t.allQueued check' := rfl
    rw [StoredMatch, hall] at hstored
    simp only [modifyQueue, LFGQueue.getCompatibles, LFGQueue.setCompatibles,
      Function.update_self] at hstored
    by_cases heq : check'.toFinset = check.toFinset
    · rw [heq, Function.update_self, h.allQueued_eq, allQueued_congr heq] at hstored
      exact (hc hstored).congr heq.symm
    · rw [Function.update_of_ne heq] at hstored
      exact h.stored check' hstored

/-- A guid that is listed without queue data is taken off the queue. -/
theorem removeFromQueue {g : Guid} (hnone : s.queueData q g = none) :
    Trail s q [] (s.modifyQueue q (·.removeFromQueue g)) := by
  have hqueue : (s.modifyQueue q (·.removeFromQueue g)).queuesStore q =
      (s.queuesStore q).removeFromQueue g := Function.update_self _ _ _
  have hkeeps : ∀ l : List Guid, Keeps s q [] l (l.filter (· != g)) := by
    refine fun l => .filter fun g' _ hdata hg => ?_
    rw [bne_eq_false_iff_eq.1 hg, HasData, hnone] at hdata
    cases hdata
  have hquiet : Quiet s s := ⟨fun _ _ => rfl, rfl, rfl, fun _ _ h => h⟩
  refine ⟨rfl, (hquiet.removeFromQueue hnone).data, ?_, ?_, fun check h => .inl ?_⟩
  · rw [newOf, newOf, hqueue]
    exact hkeeps _
  · rw [currentOf, currentOf, hqueue]
    exact hkeeps _
  · have hstored : ((s.queuesStore q).removeFromQueue g).getCompatibles check =
        if g ∈ check.toFinset then .pending else (s.queuesStore q).getCompatibles check := rfl
    rw [StoredMatch, hqueue, hstored] at h
    split at h
    · obtain h | ⟨h, -⟩ := h <;> cases h
    · exact h

end Trail

theorem take_compatibles (check : List Guid) (queue : LFGQueue) :
    (check.foldl (fun queue guid =>
      (queue.removeFromNewQueue guid).removeFromCurrentQueue guid) queue).compatibleMapStore =
      queue.compatibleMapStore := by
  induction check generalizing queue with
  | nil => rfl
  | cons g rest ih => exact ih _

theorem trail_form (s : State) (q : Nat) (p : LfgProposal) :
    Trail s q [p] ((s.takeFromQueue q p.queues).addProposal p) := by
  obtain ⟨hdata, hnew, hcurrent⟩ := LFGQueue.take_lists p.queues (s.queuesStore q)
  have hn : ((s.takeFromQueue q p.queues).addProposal p).newOf q =
      (s.newOf q).filter (· ∉ p.queues) := by
    rw [← hnew]
    simp [newOf, takeFromQueue, addProposal, modifyQueue]
  have hc : ((s.takeFromQueue q p.queues).addProposal p).currentOf q =
      (s.currentOf q).filter (· ∉ p.queues) := by
    rw [← hcurrent]
    simp [currentOf, takeFromQueue, addProposal, modifyQueue]
  have hkeeps : ∀ l : List Guid, Keeps s q [p] l (l.filter (· ∉ p.queues)) := fun l =>
    .filter fun g _ _ hin => ⟨p, List.mem_singleton.2 rfl, by simpa using hin⟩
  refine ⟨rfl, fun q' g => ?_, hn ▸ hkeeps _, hc ▸ hkeeps _, fun check h => .inl ?_⟩
  · change (s.takeFromQueue q p.queues).queueData q' g = s.queueData q' g
    rw [takeFromQueue, queueData_modifyQueue]
    split
    next heq => rw [hdata, heq, State.queueData]
    · rfl
  · have hall : ((s.takeFromQueue q p.queues).addProposal p).allQueued check =
        s.allQueued check := rfl
    rw [StoredMatch, hall] at h
    simpa only [takeFromQueue, addProposal, modifyQueue, LFGQueue.getCompatibles,
      Function.update_self, take_compatibles, StoredMatch] using h

end State

end Ashamane.DungeonFinding
