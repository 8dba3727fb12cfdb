import Ashamane.DungeonFinding.Begun

/-! The guids that are queued are players, or parties with players of one queue, and so are those
of the proposals. -/
namespace Ashamane.DungeonFinding

open Ashamane.Lib

/-- The guids of players of the queue that the guid `g` belongs to. -/
def PlayersOf (w : World) (g : Guid) (players : Guid → Prop) : Prop :=
  ∀ p, players p → p.isParty = false ∧ w.queueId p = w.queueId g

structure Entry (w : World) (g : Guid) (roles : LfgRolesMap) : Prop where
  players : PlayersOf w g (· ∈ roles)
  alone : g.isParty = false → ∀ p ∈ roles, p = g
  occupied : ∃ p, p ∈ roles

/-- The guid is queued by a player of the proposal, who is `x` or has joined with the party `x`. -/
def LfgProposal.Member (proposal : LfgProposal) (g x : Guid) : Prop :=
  ∃ p player, proposal.players.lookup p = some player ∧ State.queuedGuid p player = g ∧
    x ∈ p :: player.group.toList

structure LfgProposal.WellFormed (w : World) (proposal : LfgProposal) : Prop where
  nodup : proposal.queues.Nodup
  members : ∀ g ∈ proposal.queues, proposal.Member g g
  queued : ∀ p player, proposal.players.lookup p = some player →
    State.queuedGuid p player ∈ proposal.queues
  kinds : ∀ p player, proposal.players.lookup p = some player →
    p.isParty = false ∧ ∀ g, player.group = some g → g.isParty = true
  queue : ∀ g ∈ proposal.queues, PlayersOf w g (· ∈ proposal.players)

theorem LfgProposal.WellFormed.member_unique {w : World} {proposal : LfgProposal}
    (h : proposal.WellFormed w) {g g' x : Guid} (hg : proposal.Member g x)
    (hg' : proposal.Member g' x) : g = g' := by
  have hparty : ∀ {p player}, proposal.players.lookup p = some player → x ∈ player.group.toList →
      x.isParty = true ∧ State.queuedGuid p player = x := by
    intro p player hlookup hx
    have hgroup := Option.mem_toList.mp hx
    exact ⟨(h.kinds p player hlookup).2 x hgroup, by rw [State.queuedGuid, hgroup, Option.getD_some]⟩
  obtain ⟨p, player, hlookup, rfl, hx⟩ := hg
  obtain ⟨p', player', hlookup', rfl, hx'⟩ := hg'
  rcases List.mem_cons.mp hx with rfl | hx <;> rcases List.mem_cons.mp hx' with rfl | hx'
  · rw [Option.some.inj (hlookup.symm.trans hlookup')]
  · exact absurd (hparty hlookup' hx').1 (by simp [(h.kinds _ _ hlookup).1])
  · exact absurd (hparty hlookup hx).1 (by simp [(h.kinds _ _ hlookup').1])
  · exact (hparty hlookup hx).2.trans (hparty hlookup' hx').2.symm

section Match

variable {data : Guid → Option LfgQueueData} {view : LfgView} {isLfgGroup : Guid → Bool}
  {check : List Guid} {w : World} {g g' p : Guid} {found found' : LfgQueueData}

theorem mem_playersOf_entry (hguid : g ∈ check) (hdata : data g = some found) (hp : p ∈ found.roles) :
    p ∈ (playersOf data check).map (·.1) := by
  obtain ⟨role, hrole⟩ := Option.isSome_iff_exists.mp (AList.lookup_isSome.mpr hp)
  refine List.mem_map.mpr ⟨⟨p, role⟩, List.mem_flatMap.mpr ⟨g, hguid, ?_⟩, rfl⟩
  rw [hdata]
  exact Assoc.mem_entries_iff.mpr hrole

theorem Match.disjoint (h : Match data view isLfgGroup check) :
    check.Pairwise fun g g' => ∀ found found' p, data g = some found → data g' = some found' →
      p ∈ found.roles → p ∉ found'.roles := by
  have hnodup := h.nodup
  rw [playersOf, List.map_flatMap, List.nodup_flatMap] at hnodup
  refine hnodup.2.imp fun {g g'} hdisjoint found found' p hdata hdata' hp hp' => ?_
  refine hdisjoint (a := p) ?_ ?_
  · simp only [hdata, Option.elim_some]
    exact AList.mem_keys.mp hp
  · simp only [hdata', Option.elim_some]
    exact AList.mem_keys.mp hp'

theorem Match.eq_of_mem (h : Match data view isLfgGroup check) (hg : g ∈ check) (hg' : g' ∈ check)
    (hdata : data g = some found) (hdata' : data g' = some found') (hp : p ∈ found.roles)
    (hp' : p ∈ found'.roles) : g = g' := by
  have hsymm : Std.Symm fun g g' => ∀ found found' p, data g = some found → data g' = some found' →
      p ∈ found.roles → p ∉ found'.roles :=
    ⟨fun _ _ h found found' p hd hd' hp hp' => h found' found p hd' hd hp' hp⟩
  by_contra hne
  exact h.disjoint.forall hg hg' hne found found' p hdata hdata' hp hp'

theorem Match.check_nodup (h : Match data view isLfgGroup check)
    (hentry : ∀ g found, data g = some found → Entry w g found.roles) : check.Nodup := by
  refine h.disjoint.imp_of_mem fun {g g'} hg _ hdisjoint heq => ?_
  subst heq
  obtain ⟨found, hdata⟩ := Option.isSome_iff_exists.mp (h.queued g hg)
  obtain ⟨p, hp⟩ := (hentry g found hdata).occupied
  exact hdisjoint found found p hdata hdata hp hp

theorem Match.proposalGroup_eq (h : Match data view isLfgGroup check) (hg : g ∈ check)
    (hdata : data g = some found) (hp : p ∈ found.roles) :
    proposalGroup data check p = if g.isParty then some g else none := by
  have hhas : (data g).any (fun found => decide (p ∈ found.roles)) = true := by
    rw [hdata]
    exact decide_eq_true hp
  cases hfind : check.reverse.find? fun g => (data g).any fun found => decide (p ∈ found.roles) with
  | none => exact absurd hhas (List.find?_eq_none.mp hfind g (List.mem_reverse.mpr hg))
  | some other =>
    have hother := List.find?_some hfind
    obtain ⟨found', hdata', hp'⟩ := (Option.any_eq_true _ _).mp hother
    obtain rfl := h.eq_of_mem (List.mem_reverse.mp (List.mem_of_find?_eq_some hfind)) hg hdata' hdata
      (of_decide_eq_true hp') hp
    rw [proposalGroup, hfind, Option.filter_some]

end Match

namespace State

structure Typed (w : World) (s : State) : Prop where
  data : ∀ q g found, s.queueData q g = some found → w.queueId g = q ∧ Entry w g found.roles
  roleChecks : ∀ g roleCheck, s.roleChecksStore.lookup g = some roleCheck →
    g.isParty = true ∧ PlayersOf w g (· ∈ roleCheck.roles)
  proposals : ∀ id proposal, s.Live id proposal → proposal.WellFormed w

variable {w : World} {s t : State}

theorem newProposal_wellFormed {view : LfgView} {q : Nat} {check : List Guid}
    (h : Match (s.queueData q) view s.isLfgGroup check)
    (htyped : ∀ g found, s.queueData q g = some found → w.queueId g = q ∧ Entry w g found.roles)
    (numLfgGroups : Nat) : (s.newProposal q check numLfgGroups
      ((proposalRoles (s.queueData q) view check).getD ∅)).WellFormed w := by
  have hplayer : ∀ p player, (s.newProposal q check numLfgGroups
      ((proposalRoles (s.queueData q) view check).getD ∅)).players.lookup p = some player →
        ∃ g ∈ check, ∃ found, s.queueData q g = some found ∧ p ∈ found.roles ∧
          player.group = if g.isParty then some g else none := by
    intro p player hlookup
    obtain ⟨role, hrole, rfl⟩ := Option.map_eq_some_iff.mp ((Assoc.lookup_mapVal _ _ _).symm.trans hlookup)
    obtain ⟨g, hg, found, hdata, hp⟩ := mem_playersOf ((h.mem_roles p).mp
      (AList.lookup_isSome.mp (Option.isSome_iff_exists.mpr ⟨role, hrole⟩)))
    exact ⟨g, hg, found, hdata, hp, h.proposalGroup_eq hg hdata hp⟩
  have hqueued : ∀ {p player g found}, s.queueData q g = some found → p ∈ found.roles →
      (player : LfgProposalPlayer).group = (if g.isParty then some g else none) →
        queuedGuid p player = g := by
    intro p player g found hdata hp hgroup
    rw [queuedGuid, hgroup]
    cases hparty : g.isParty with
    | true => rfl
    | false => exact (htyped g found hdata).2.alone hparty p hp
  refine ⟨h.check_nodup fun g found hdata => (htyped g found hdata).2, fun g hg => ?_,
    fun p player hlookup => ?_, fun p player hlookup => ?_, fun g hg p hp => ?_⟩
  · obtain ⟨found, hdata⟩ := Option.isSome_iff_exists.mp (h.queued g hg)
    obtain ⟨p, hp⟩ := (htyped g found hdata).2.occupied
    have hin := (h.mem_roles p).mpr (mem_playersOf_entry hg hdata hp)
    obtain ⟨player, hlookup⟩ := Option.isSome_iff_exists.mp (AList.lookup_isSome.mpr
      (Assoc.mem_mapVal.mpr hin : p ∈ (s.newProposal q check numLfgGroups _).players))
    obtain ⟨g', hg', found', hdata', hp', hgroup⟩ := hplayer p player hlookup
    obtain rfl := h.eq_of_mem hg hg' hdata hdata' hp hp'
    refine ⟨p, player, hlookup, hqueued hdata' hp' hgroup, ?_⟩
    rw [hgroup]
    cases hparty : g.isParty with
    | true => simp
    | false => simp [(htyped g found hdata).2.alone hparty p hp]
  · obtain ⟨g, hg, found, hdata, hp, hgroup⟩ := hplayer p player hlookup
    exact hqueued hdata hp hgroup ▸ hg
  · obtain ⟨g, hg, found, hdata, hp, hgroup⟩ := hplayer p player hlookup
    refine ⟨((htyped g found hdata).2.players p hp).1, fun g' hg' => ?_⟩
    rw [hgroup] at hg'
    split at hg'
    next hparty => exact Option.some.inj hg' ▸ hparty
    · cases hg'
  · obtain ⟨player, hlookup⟩ := Option.isSome_iff_exists.mp (AList.lookup_isSome.mpr hp)
    obtain ⟨g', hg', found', hdata', hp', hgroup⟩ := hplayer p player hlookup
    obtain ⟨found, hdata⟩ := Option.isSome_iff_exists.mp (h.queued g hg)
    obtain ⟨hkind, hteam⟩ := (htyped g' found' hdata').2.players p hp'
    exact ⟨hkind, hteam.trans ((htyped g' found' hdata').1.trans (htyped g found hdata).1.symm)⟩

theorem Adds.live {created : List LfgProposal} (h : Adds s created t) {id : Nat}
    {proposal : LfgProposal} (hlive : t.Live id proposal) : s.Live id proposal ∨ proposal ∈ created := by
  have hfold : ∀ (created : List LfgProposal) (s : State),
      (created.foldl addProposal s).Live id proposal → s.Live id proposal ∨ proposal ∈ created := by
    intro created
    induction created with
    | nil => exact fun _ hlive => .inl hlive
    | cons p rest ih =>
      intro s hlive
      rcases ih _ hlive with hlive | hin
      · rcases Assoc.lookup_insert_some hlive with ⟨-, rfl⟩ | ⟨-, hold⟩
        · exact .inr List.mem_cons_self
        · exact .inl hold
      · exact .inr (List.mem_cons_of_mem _ hin)
  rw [Live, h.2] at hlive
  exact hfold created s hlive

namespace Typed

theorem shrink (h : Typed w s)
    (hdata : ∀ q g found, t.queueData q g = some found → s.queueData q g = some found)
    (hchecks : ∀ g roleCheck, t.roleChecksStore.lookup g = some roleCheck →
      s.roleChecksStore.lookup g = some roleCheck)
    (hlive : ∀ id proposal, t.Live id proposal → s.Live id proposal) : Typed w t :=
  ⟨fun q g found hd => h.data q g found (hdata q g found hd),
    fun g roleCheck hc => h.roleChecks g roleCheck (hchecks g roleCheck hc),
    fun id proposal hl => h.proposals id proposal (hlive id proposal hl)⟩

theorem sameQueues (h : Typed w s) (hsame : SameQueues s t) : Typed w t := by
  refine h.shrink (fun q g found hd => ?_) (fun g roleCheck hc => ?_) fun id proposal hl => ?_
  · rwa [queueData, hsame.queues] at hd
  · rwa [hsame.roleChecks] at hc
  · rwa [Live, hsame.proposals] at hl

theorem onQueue {q : Nat} {f : LFGQueue → LFGQueue} (h : Typed w s)
    (hdata : ∀ g found, (f (s.queuesStore q)).queueDataStore.lookup g = some found →
      s.queueData q g = some found) : Typed w (s.modifyQueue q f) := by
  refine h.shrink (fun q' g found hd => ?_) (fun _ _ hc => hc) fun _ _ hl => hl
  rw [queueData_modifyQueue] at hd
  split at hd
  next heq => exact heq ▸ hdata g found hd
  · exact hd

theorem removeAll (h : Typed w s) (q : Nat) (l : List Guid) :
    Typed w (s.modifyQueue q fun queue => l.foldl (fun queue guid => queue.removeFromQueue guid) queue) :=
  h.onQueue (LFGQueue.removeAll (s.queuesStore q) l).1

theorem enqueue (h : Typed w s) {g : Guid} {dungeons : LfgDungeonSet} {roles : LfgRolesMap}
    (hentry : Entry w g roles) : Typed w (s.modifyQueueOf w g (·.addQueueData g dungeons roles)) := by
  refine ⟨fun q g' found hd => ?_, h.roleChecks, h.proposals⟩
  rw [modifyQueueOf, queueData_modifyQueue] at hd
  split at hd
  next heq =>
    rw [LFGQueue.addQueueData_eq] at hd
    rcases Assoc.lookup_insert_some hd with ⟨rfl, rfl⟩ | ⟨-, hold⟩
    · exact ⟨heq.symm, hentry⟩
    · exact heq ▸ h.data _ _ _ hold
  · exact h.data q g' found hd

theorem eraseRoleCheck (h : Typed w s) (g : Guid) :
    Typed w { s with roleChecksStore := s.roleChecksStore.erase g } :=
  h.shrink (fun _ _ _ hd => hd) (fun _ _ hc => (Assoc.lookup_erase_some hc).2) fun _ _ hl => hl

theorem insertRoleCheck (h : Typed w s) {g : Guid} {roleCheck : LfgRoleCheck} (hg : g.isParty = true)
    (hroles : PlayersOf w g (· ∈ roleCheck.roles)) :
    Typed w { s with roleChecksStore := s.roleChecksStore.insert g roleCheck } := by
  refine ⟨h.data, fun g' roleCheck' hc => ?_, h.proposals⟩
  rcases Assoc.lookup_insert_some hc with ⟨rfl, rfl⟩ | ⟨-, hold⟩
  · exact ⟨hg, hroles⟩
  · exact h.roleChecks g' roleCheck' hold

theorem insertProposal (h : Typed w s) {id : Nat} {proposal : LfgProposal}
    (hproposal : proposal.WellFormed w) :
    Typed w { s with proposalsStore := s.proposalsStore.insert id proposal } := by
  refine ⟨h.data, h.roleChecks, fun id' proposal' hl => ?_⟩
  rcases Assoc.lookup_insert_some hl with ⟨-, rfl⟩ | ⟨-, hold⟩
  · exact hproposal
  · exact h.proposals id' proposal' hold

theorem eraseProposal (h : Typed w s) (id : Nat) :
    Typed w { s with proposalsStore := s.proposalsStore.erase id } :=
  h.shrink (fun _ _ _ hd => hd) (fun _ _ hc => hc) fun _ _ hl => (Assoc.lookup_erase_some hl).2

end Typed

theorem mem_answerRoleCheck {roleCheck : LfgRoleCheck} {guid : Option Guid} {roles : Nat} {p : Guid}
    (h : p ∈ (answerRoleCheck roleCheck guid roles).roles) : p ∈ roleCheck.roles ∨ guid = some p := by
  unfold answerRoleCheck at h
  split at h
  · exact .inl h
  · split at h
    · exact .inl h
    · rcases (AList.mem_insert _).mp h with rfl | h
      · exact .inr rfl
      · exact .inl h

theorem answerRoleCheck_finished {roleCheck : LfgRoleCheck} {guid : Option Guid} {roles : Nat}
    (h : (answerRoleCheck roleCheck guid roles).state = .finished) :
    ∃ p, p ∈ (answerRoleCheck roleCheck guid roles).roles := by
  unfold answerRoleCheck at h ⊢
  split at h
  · cases h
  next guid =>
    split at h
    · cases h
    next hroles =>
      simp only [if_neg hroles]
      exact ⟨guid, (AList.mem_insert _).mpr (.inl rfl)⟩

theorem answerProposal_wellFormed {proposal : LfgProposal} (h : proposal.WellFormed w) (guid : Guid)
    (accept : LfgAnswer) : (answerProposal proposal guid accept).WellFormed w := by
  have hback : ∀ p player, (answerProposal proposal guid accept).players.lookup p = some player →
      ∃ old, proposal.players.lookup p = some old ∧ old.group = player.group := by
    intro p player hlookup
    rw [answerProposal, Assoc.lookup_modify] at hlookup
    split at hlookup
    · obtain ⟨old, hold, rfl⟩ := Option.map_eq_some_iff.mp hlookup
      exact ⟨old, hold, rfl⟩
    · exact ⟨player, hlookup, rfl⟩
  refine ⟨h.nodup, fun g hg => ?_, fun p player hlookup => ?_, fun p player hlookup => ?_,
    fun g hg p hp => h.queue g hg p (Assoc.mem_mapVal.mp hp)⟩
  · obtain ⟨p, player, hlookup, hqueued, hin⟩ := h.members g hg
    by_cases hp : p = guid
    · refine ⟨p, { player with accept := accept }, ?_, hqueued, hin⟩
      rw [answerProposal, Assoc.lookup_modify, if_pos hp, hlookup, Option.map_some]
    · refine ⟨p, player, ?_, hqueued, hin⟩
      rw [answerProposal, Assoc.lookup_modify, if_neg hp, hlookup]
  · obtain ⟨old, hold, hgroup⟩ := hback p player hlookup
    have hqueued := h.queued p old hold
    rwa [queuedGuid, hgroup] at hqueued
  · obtain ⟨old, hold, hgroup⟩ := hback p player hlookup
    exact hgroup ▸ h.kinds p old hold

end State

def Op.Proper (w : World) (s : State) : Op → Prop
  | .joinLfg r => r.guid.isParty = false ∧ ∀ gguid members, r.group = some (gguid, members) →
      gguid.isParty = true ∧ PlayersOf w gguid (· ∈ r.guid :: members)
  | .updateRoleCheck gguid guid _ => PlayersOf w gguid (guid = some ·)
  | .findGroups _ q => Countable (s.queueData q)
  | _ => True

namespace State.Typed

variable {w : World} {s t : State}

theorem updateRoleCheck {gguid : Guid} {guid : Option Guid} {roles : Nat} (h : Typed w s)
    (hguid : PlayersOf w gguid (guid = some ·)) : Typed w (s.updateRoleCheck w gguid guid roles) := by
  unfold State.updateRoleCheck
  split
  · exact h
  next roleCheck hcheck =>
  obtain ⟨hparty, hroles⟩ := h.roleChecks gguid roleCheck hcheck
  have hanswered : PlayersOf w gguid (· ∈ (answerRoleCheck roleCheck guid roles).roles) :=
    fun p hp => (mem_answerRoleCheck hp).elim (hroles p) (hguid p)
  have hfinished := @answerRoleCheck_finished roleCheck guid roles
  generalize answerRoleCheck roleCheck guid roles = answered at hanswered hfinished
  simp only
  split
  · exact h.insertRoleCheck hparty hanswered
  next hstate =>
    have hentry : Entry w gguid answered.roles :=
      ⟨hanswered, fun halone => by simp [hparty] at halone, hfinished hstate⟩
    have hsame := (sameQueues_setStates .queued (answered.roles.entries.map (·.1)) s).trans
      (sameQueues_setState .queued gguid _)
    exact ((h.sameQueues hsame).enqueue hentry).eraseRoleCheck gguid
  · have hsame := (sameQueues_restoreStates (answered.roles.entries.map (·.1)) s).trans
      (sameQueues_restoreState gguid _)
    exact (h.sameQueues hsame).eraseRoleCheck gguid

theorem leaveBeforeJoin (h : Typed w s) (g : Guid) : Typed w (s.leaveBeforeJoin w g) := by
  unfold State.leaveBeforeJoin
  split
  · exact h.removeAll _ [g]
  · exact h

/-- The members are asked, and those who have been asked before. -/
theorem beginRoleCheck {gguid leader : Guid} {members : List Guid} {dungeons : LfgDungeonSet}
    (h : Typed w s) (hparty : gguid.isParty = true) (hmembers : PlayersOf w gguid (· ∈ members)) :
    Typed w (s.beginRoleCheck gguid leader members dungeons) := by
  have hkept : PlayersOf w gguid (· ∈ (s.roleChecksStore.lookup gguid).elim ∅ (·.roles)) := by
    intro p hp
    cases hlookup : s.roleChecksStore.lookup gguid with
    | none =>
      rw [hlookup] at hp
      exact absurd hp (AList.notMem_empty p)
    | some roleCheck =>
      rw [hlookup] at hp
      exact (h.roleChecks gguid roleCheck hlookup).2 p hp
  have hasked : ∀ (members : List Guid) (kept : LfgRolesMap), PlayersOf w gguid (· ∈ members) →
      PlayersOf w gguid (· ∈ kept) →
      PlayersOf w gguid (· ∈ members.foldl (fun roles guid => roles.insert guid 0) kept) := by
    intro members
    induction members with
    | nil => exact fun _ _ hkept => hkept
    | cons guid rest ih =>
      intro kept hmembers hkept
      refine ih _ (fun p hp => hmembers p (List.mem_cons_of_mem _ hp)) fun p hp => ?_
      rcases (AList.mem_insert _).mp hp with rfl | hp
      · exact hmembers p List.mem_cons_self
      · exact hkept p hp
  have hsame := (sameQueues_setState .roleCheck gguid s).trans (sameQueues_setStates .roleCheck members _)
  exact (h.sameQueues hsame).insertRoleCheck hparty (hasked members _ hmembers hkept)

theorem joinLfg {r : JoinRequest} (h : Typed w s) (hr : (Op.joinLfg r).Proper w s) :
    Typed w (s.joinLfg w r) := by
  have hleft := h.leaveBeforeJoin (joinGuid r)
  obtain ⟨hguid, hgroup⟩ := hr
  unfold State.joinLfg
  simp only
  split
  · exact hleft
  split
  next gguid members hsome =>
    obtain ⟨hparty, hmembers⟩ := hgroup gguid members hsome
    refine (hleft.beginRoleCheck hparty fun p hp =>
      hmembers p (List.mem_cons_of_mem _ hp)).updateRoleCheck fun p hp => ?_
    exact hmembers p (Option.some.inj hp ▸ List.mem_cons_self)
  next hnone =>
    have halone : ∀ p, p ∈ (AList.singleton r.guid r.roles : LfgRolesMap) → p = r.guid := by
      intro p hp
      simpa using AList.mem_keys.mp hp
    have hentry : Entry w r.guid (AList.singleton r.guid r.roles) := by
      refine ⟨fun p hp => ?_, fun _ => halone, r.guid, AList.mem_keys.mpr (by simp)⟩
      rw [halone p hp]
      exact ⟨hguid, rfl⟩
    exact (hleft.enqueue hentry).sameQueues (sameQueues_setState .queued r.guid _)

theorem removeRoleCheck {gguid : Guid} (h : Typed w s) : Typed w (s.removeRoleCheck gguid) := by
  unfold State.removeRoleCheck
  split
  · exact h
  · exact Typed.eraseRoleCheck (h.sameQueues ((sameQueues_restoreStates _ s).trans
      (sameQueues_restoreState gguid _))) gguid

/-- The search makes its proposals of matches, and leaves the queue data. -/
theorem findGroups {view : LfgView} {q : Nat} (h : Typed w s) (hcountable : Countable (s.queueData q)) :
    Typed w (s.findGroups view q) := by
  have hsame := SameData.findGroups q view s
  have hcreated : ∀ p ∈ s.findGroupsCreated view q, p.WellFormed w := by
    refine findGroupsCreated_all (fun u hu check _ n hcount hmatched => ?_) (.refl s)
    have hdata := hu.queueData_eq q
    refine newProposal_wellFormed (compatibilityOf_matched (hdata ▸ hcountable) hcount hmatched) ?_ n
    exact fun g found hd => h.data q g found (hdata ▸ hd)
  refine ⟨fun q' g found hd => h.data q' g found (hsame.data q' g ▸ hd), fun g roleCheck hc => ?_,
    fun id proposal hl => ?_⟩
  · rw [hsame.roleChecks] at hc
    exact h.roleChecks g roleCheck hc
  · exact ((findGroups_adds view s).live hl).elim (h.proposals id proposal) (hcreated proposal)

theorem removeProposal {id : Nat} {type : LfgUpdateType} (h : Typed w s) :
    Typed w (s.removeProposal w id type) := by
  unfold State.removeProposal
  split
  · exact h
  next proposal hlive =>
  simp only
  have herased := (h.sameQueues (sameQueues_failStates
    (guidsToRemove (closeAnswers type proposal.players)) s
      (closeAnswers type proposal.players).entries)).eraseProposal id
  split
  · exact herased
  · refine herased.onQueue fun g found hd => ?_
    rw [(LFGQueue.reAddAll _ _).1] at hd
    exact (LFGQueue.removeAll _ _).1 g found hd

theorem answer {id : Nat} {proposal : LfgProposal} (h : Typed w s) (hlive : s.Live id proposal)
    (guid : Guid) (accept : LfgAnswer) :
    Typed w { s with proposalsStore := s.proposalsStore.insert id (answerProposal proposal guid accept) } :=
  h.insertProposal (answerProposal_wellFormed (h.proposals id proposal hlive) guid accept)

theorem updateProposal {testing accept : Bool} {id : Nat} {guid newGroup : Guid} (h : Typed w s) :
    Typed w (s.updateProposal w testing id guid accept newGroup) := by
  unfold State.updateProposal
  split
  · exact h
  next proposal hlive =>
  split
  · exact h
  cases accept with
  | false => exact (h.answer hlive guid .deny).removeProposal
  | true =>
    have hstored := h.answer hlive guid .agree
    simp only [Bool.not_true, Bool.false_eq_true, if_false, if_true]
    split
    · exact hstored
    · refine Typed.eraseProposal (Typed.sameQueues ?_ (sameQueues_makeNewGroup _ _ _)) id
      exact (hstored.sameQueues (sameQueues_setStates _ _ _)).removeAll _ _

theorem leaveLfg {guid leader : Guid} {group : Option Guid} {players : List Guid} {disconnected : Bool}
    (h : Typed w s) : Typed w (s.leaveLfg w guid group leader players disconnected) := by
  have hleft : ∀ q g, Typed w (s.modifyQueue q (·.removeFromQueue g)) := fun q g => h.removeAll q [g]
  unfold State.leaveLfg
  generalize (if guid.isParty = true then some guid else group) = gguid
  simp only
  split
  · split
    next gguid =>
      exact (hleft _ gguid).sameQueues ((sameQueues_setState .none gguid _).trans
        (sameQueues_setStates .none players _))
    · exact (hleft _ guid).sameQueues (sameQueues_setState .none guid _)
  · split
    · exact h.updateRoleCheck nofun
    · exact h
  · split
    · exact h
    next id proposal hfound =>
      obtain ⟨e, he, heq⟩ := Option.map_eq_some_iff.mp hfound
      cases heq
      exact (h.answer (Assoc.mem_entries_iff.mp (List.mem_of_find?_eq_some he)) _ .deny).removeProposal
  · split
    · exact h.sameQueues (sameQueues_setState .none guid s)
    · exact h
  · split
    · exact h.sameQueues (sameQueues_setState .none guid s)
    · exact h
  · exact h
  · exact h

theorem step {op : Op} (h : Typed w s) (hok : op.Proper w s) (hs : Step w s op t) : Typed w t := by
  subst hs
  cases op with
  | joinLfg request => exact h.joinLfg hok
  | updateRoleCheck gguid guid roles => exact h.updateRoleCheck hok
  | removeRoleCheck gguid => exact h.removeRoleCheck
  | findGroups view q => exact h.findGroups hok
  | beginProposals getGroup => exact h.sameQueues (sameQueues_beginProposals getGroup s)
  | updateProposal testing id guid accept newGroup => exact h.updateProposal
  | removeProposal id type => exact h.removeProposal
  | leaveLfg guid group leader players disconnected => exact h.leaveLfg
  | otherStates states => exact h.sameQueues ⟨rfl, rfl, rfl⟩

end State.Typed

end Ashamane.DungeonFinding
