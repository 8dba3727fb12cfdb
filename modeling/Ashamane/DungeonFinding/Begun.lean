import Ashamane.DungeonFinding.Proposals
import Ashamane.DungeonFinding.Join

/-! An update of the dungeon finder: the searches of all queues, and which of the proposals they
create are begun. -/
namespace Ashamane.DungeonFinding.State

variable (view : LfgView)

def searchQueues : List Nat → State → State
  | [], s => s
  | q :: queues, s => searchQueues queues (s.findAllGroups view q)

def searchQueuesCreated : List Nat → State → List LfgProposal
  | [], _ => []
  | q :: queues, s =>
    s.findAllGroupsCreated view q ++ searchQueuesCreated queues (s.findAllGroups view q)

def begunProposals (s : State) : List (Nat × LfgProposal) :=
  match s.proposalsStore.lookup s.proposalId with
  | none => []
  | some _ =>
    (s.proposalsStore.entries.filter fun e => decide (s.proposalId ≤ e.1)).map fun e => (e.1, e.2)

/-- `LFGMgr::Update`, once the role checks, the proposals and the votes that have expired are
removed. -/
def update (getGroup : Guid → Option Guid) (queues : List Nat) (s : State) : State :=
  let found := s.searchQueues view queues
  if found.proposalId = s.proposalId then found else found.beginProposals getGroup

def updateBegun (queues : List Nat) (s : State) : List (Nat × LfgProposal) :=
  let found := s.searchQueues view queues
  if found.proposalId = s.proposalId then [] else found.begunProposals

def notified (begun : List (Nat × LfgProposal)) : List (Guid × Nat) :=
  begun.flatMap fun e => e.2.players.entries.map fun player => (player.1, e.1)

structure Begun (getGroup : Guid → Option Guid) (t : State) (begun : List (Nat × LfgProposal))
    (id : Nat) (p : LfgProposal) : Prop where
  visited : (id, p) ∈ begun
  players : ∀ g ∈ p.players, t.getState g = .proposal
  groups : ∀ g ∈ p.players, ∀ gguid, getGroup g = some gguid → t.getState gguid = .proposal
  notified : ∀ g ∈ p.players, (g, id) ∈ notified begun

def Answered (p : LfgProposal) : Prop :=
  ∀ e ∈ p.players.entries, e.2.accept =
    if !p.isNew && e.2.group.isSome && e.2.group == p.group then .agree else .pending

def BeginsAll (getGroup : Guid → Option Guid) (queues : List Nat) (s : State) : Prop :=
  ∀ k p, (s.searchQueuesCreated view queues)[k]? = some p → Answered p ∧
    Begun getGroup (s.update view getGroup queues) (s.updateBegun view queues)
      ((s.proposalId + k + 1) % 2 ^ 32) p

variable {view} {s : State}

theorem searchQueuesCreated_all {P : LfgProposal → Prop}
    (hnew : ∀ (s : State) q check numLfgGroups roles, P (s.newProposal q check numLfgGroups roles))
    (queues : List Nat) : ∀ p ∈ s.searchQueuesCreated view queues, P p := by
  have hpasses : ∀ (q n : Nat) (s : State), ∀ p ∈ s.findGroupsPassesCreated view q n, P p := by
    intro q n
    induction n with
    | zero => exact fun _ => nofun
    | succ n ih =>
      intro s p hp
      obtain hp | hp := List.mem_append.1 hp
      · exact findGroupsCreated_all (fun s _ check _ n _ _ => hnew s q check n _) (.refl s) p hp
      · exact ih _ p hp
  induction queues generalizing s with
  | nil => exact nofun
  | cons q queues ih =>
    intro p hp
    obtain hp | hp := List.mem_append.1 hp
    · exact hpasses q _ s p hp
    · exact ih p hp

theorem newProposal_answered (s : State) (q : Nat) (check : List Guid) (numLfgGroups : Nat)
    (roles : LfgRolesMap) : Answered (s.newProposal q check numLfgGroups roles) := by
  intro e he
  obtain ⟨e, -, rfl⟩ := List.mem_map.1 he
  rfl

theorem searchQueues_adds (queues : List Nat) (s : State) :
    Adds s (s.searchQueuesCreated view queues) (s.searchQueues view queues) := by
  induction queues generalizing s with
  | nil => exact .refl s
  | cons q queues ih => exact (findAllGroups_adds view s).trans (ih _)

theorem addAll_proposalId (created : List LfgProposal) (hne : created ≠ []) (s : State) :
    (created.foldl addProposal s).proposalId = (s.proposalId + created.length) % 2 ^ 32 := by
  induction created generalizing s with
  | nil => exact absurd rfl hne
  | cons p rest ih =>
    cases rest with
    | nil => rfl
    | cons p' rest =>
      rw [List.foldl_cons, ih (by simp)]
      simp only [addProposal, List.length_cons]
      omega

theorem getState_setStates_mem {state : LfgState} {g : Guid} {guids : List Guid}
    (hg : g ∈ guids) (s : State) : (s.setStates state guids).getState g = state := by
  induction guids generalizing s with
  | nil => exact nomatch hg
  | cons guid rest ih =>
    obtain rfl | hg := List.mem_cons.1 hg
    · exact getState_setStates (getState_setState_self state) rest
    · exact ih hg _

theorem getState_setAll {β : Type} {state : LfgState} {g : Guid} (guids : β → List Guid)
    {l : List β} {e : β} (he : e ∈ l) (hg : g ∈ guids e) (s : State) :
    (l.foldl (fun s e => s.setStates state (guids e)) s).getState g = state := by
  have hkeep : ∀ (l : List β) (s : State), s.getState g = state →
      (l.foldl (fun s e => s.setStates state (guids e)) s).getState g = state := by
    intro l
    induction l with
    | nil => exact fun _ h => h
    | cons e l ih => exact fun s h => ih _ (getState_setStates h _)
  induction l generalizing s with
  | nil => exact nomatch he
  | cons e' l ih =>
    obtain rfl | he := List.mem_cons.1 he
    · exact hkeep l _ (getState_setStates_mem hg s)
    · exact ih he _

/-- The last proposal is in the store, and the loop comes to it. -/
theorem last_begun (created : List LfgProposal) {p : LfgProposal} {t : State}
    (h : Adds s (created ++ [p]) t) : (t.proposalId, p) ∈ t.begunProposals := by
  have hlookup : t.proposalsStore.lookup t.proposalId = some p := by
    rw [h.1, h.2, List.foldl_append]
    simp [addProposal]
  unfold begunProposals
  rw [hlookup]
  refine List.mem_map.2 ⟨⟨t.proposalId, p⟩, List.mem_filter.2 ⟨?_, by simp⟩, rfl⟩
  exact (List.mem_dlookup_iff t.proposalsStore.nodupKeys).1 hlookup

theorem begun_of_mem (getGroup : Guid → Option Guid) {t : State} {id : Nat} {p : LfgProposal}
    (h : (id, p) ∈ t.begunProposals) :
    Begun getGroup (t.beginProposals getGroup) t.begunProposals id p := by
  have hnotified : ∀ g ∈ p.players, (g, id) ∈ notified t.begunProposals := by
    intro g hg
    obtain ⟨player, hplayer⟩ := Option.isSome_iff_exists.1 (AList.lookup_isSome.2 hg)
    refine List.mem_flatMap.2 ⟨_, h, List.mem_map.2 ⟨⟨g, player⟩, ?_, rfl⟩⟩
    exact (List.mem_dlookup_iff p.players.nodupKeys).1 hplayer
  have hmoved : ∀ g, (∃ e ∈ p.players.entries, g ∈ e.1 :: (getGroup e.1).toList) →
      (t.beginProposals getGroup).getState g = .proposal := by
    rintro g ⟨e, he, hg⟩
    have hmem := h
    unfold begunProposals at hmem
    unfold beginProposals
    split
    · rename_i hnone
      rw [hnone] at hmem
      exact nomatch hmem
    · rename_i last hsome
      rw [hsome] at hmem
      obtain ⟨entry, hentry, heq⟩ := List.mem_map.1 hmem
      obtain ⟨-, rfl⟩ := Prod.mk.inj heq
      exact getState_setAll (fun e : Sigma fun _ : Nat => LfgProposal =>
        e.2.players.entries.flatMap fun player => player.1 :: (getGroup player.1).toList) hentry
        (List.mem_flatMap.2 ⟨e, he, hg⟩) t
  have hentry : ∀ g ∈ p.players, ∃ e ∈ p.players.entries, e.1 = g := by
    intro g hg
    obtain ⟨player, hplayer⟩ := Option.isSome_iff_exists.1 (AList.lookup_isSome.2 hg)
    exact ⟨⟨g, player⟩, (List.mem_dlookup_iff p.players.nodupKeys).1 hplayer, rfl⟩
  refine ⟨h, fun g hg => ?_, fun g hg gguid hgroup => ?_, hnotified⟩
  · obtain ⟨e, he, rfl⟩ := hentry g hg
    exact hmoved _ ⟨e, he, List.mem_cons_self⟩
  · obtain ⟨e, he, rfl⟩ := hentry g hg
    exact hmoved gguid ⟨e, he, List.mem_cons_of_mem _ (by simp [hgroup])⟩

/-- Only the last proposal of an update is begun, with any view, parties and queues: an update
begins all that it creates exactly when that is at most one (as long as the ids are in order). -/
theorem update_beginsAll (getGroup : Guid → Option Guid) (queues : List Nat) (s : State) :
    ((s.searchQueuesCreated view queues).length ≤ 1 → s.BeginsAll view getGroup queues) ∧
      (s.proposalId + (s.searchQueuesCreated view queues).length < 2 ^ 32 →
        s.BeginsAll view getGroup queues → (s.searchQueuesCreated view queues).length ≤ 1) := by
  have hadds := @searchQueues_adds view queues s
  refine ⟨fun hone k p hp => ⟨?_, ?_⟩, fun hbound hall => ?_⟩
  · exact searchQueuesCreated_all newProposal_answered queues p (List.mem_of_getElem? hp)
  · obtain ⟨p', hp'⟩ : ∃ p', s.searchQueuesCreated view queues = [p'] := by
      refine List.length_eq_one_iff.1 (Nat.le_antisymm hone ?_)
      exact List.length_pos_of_mem (List.mem_of_getElem? hp)
    rw [hp'] at hp hadds
    obtain ⟨rfl, rfl⟩ : k = 0 ∧ p' = p := by
      cases k with
      | zero => exact ⟨rfl, Option.some.inj hp⟩
      | succ k => exact nomatch hp
    have hid : (s.searchQueues view queues).proposalId = (s.proposalId + 0 + 1) % 2 ^ 32 := hadds.1
    have hne : (s.searchQueues view queues).proposalId ≠ s.proposalId := by omega
    have hbegun := begun_of_mem getGroup (last_begun [] hadds)
    simp only [update, updateBegun, if_neg hne]
    rw [← hid]
    exact hbegun
  · by_contra hmany
    have hne : s.searchQueuesCreated view queues ≠ [] := by
      intro h
      simp [h] at hmany
    obtain ⟨p, hp⟩ : ∃ p, (s.searchQueuesCreated view queues)[0]? = some p :=
      ⟨_, List.getElem?_eq_getElem (List.length_pos_iff.2 hne)⟩
    have hvisited := (hall 0 p hp).2.visited
    have hid : (s.searchQueues view queues).proposalId =
        s.proposalId + (s.searchQueuesCreated view queues).length := by
      rw [hadds.1, addAll_proposalId _ hne, Nat.mod_eq_of_lt hbound]
    have hlater : (s.searchQueues view queues).proposalId ≠ s.proposalId := by omega
    simp only [updateBegun, if_neg hlater, begunProposals] at hvisited
    split at hvisited
    · exact nomatch hvisited
    · obtain ⟨e, he, heq⟩ := List.mem_map.1 hvisited
      have hle := of_decide_eq_true (List.mem_filter.1 he).2
      have hfirst : e.1 = (s.proposalId + 0 + 1) % 2 ^ 32 := congrArg Prod.fst heq
      rw [Nat.mod_eq_of_lt (by omega)] at hfirst
      omega

theorem update_beginsAll_five : fiveNew.BeginsAll nobodyIgnored (fun _ => none) [0] ∧
    (fiveNew.searchQueuesCreated nobodyIgnored [0]).length = 1 :=
  ⟨(@update_beginsAll nobodyIgnored (fun _ => none) [0] fiveNew).1 (by decide +kernel),
    by decide +kernel⟩

def twoParties : State :=
  (partyJoins 1 1 2 [(2, 4), (3, 8), (4, 8), (5, 8)] ++
    partyJoins 2 11 2 [(12, 4), (13, 8), (14, 8), (15, 8)]).foldl (Op.apply oneTeam) noOne

/-- The first of two proposals is not begun, and its players are still queued. -/
theorem update_skips_first :
    (twoParties.update nobodyIgnored (fun _ => none) [0]).getState (.player 1) = .queued ∧
      ¬ twoParties.BeginsAll nobodyIgnored (fun _ => none) [0] := by
  have hlength : (twoParties.searchQueuesCreated nobodyIgnored [0]).length = 2 := by decide +kernel
  refine ⟨by decide +kernel, fun h => ?_⟩
  obtain ⟨p, hp⟩ : ∃ p, (twoParties.searchQueuesCreated nobodyIgnored [0])[0]? = some p :=
    ⟨_, List.getElem?_eq_getElem (by omega)⟩
  have hvisited := List.mem_map_of_mem (f := Prod.fst) (h 0 p hp).2.visited
  have hbegun : (twoParties.updateBegun nobodyIgnored [0]).map Prod.fst = [2] := by decide +kernel
  rw [hbegun] at hvisited
  exact nomatch List.mem_singleton.1 hvisited

end Ashamane.DungeonFinding.State
