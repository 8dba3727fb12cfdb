import Ashamane.DungeonFinding.Manager

/-! Nobody is matched twice as long as only players join who are free, and as long as the guids
that wait in a queue hold no complete group. -/
namespace Ashamane.DungeonFinding

open Ashamane.Lib

theorem tryRole_error {check : LfgRolesMap → Option LfgRolesMap} {groles assigned : LfgRolesMap}
    {guid : Guid} {role bit needed count : Nat}
    (h : tryRole check groles guid role bit needed count = .error (some assigned)) :
    check (Assoc.modify guid (fun value => value - bit) groles) = some assigned := by
  unfold tryRole at h
  split at h
  · cases h
  split at h
  · split at h
    next hcheck =>
      cases h
      exact hcheck
    · cases h
  · split at h <;> cases h

theorem mem_roleLoop {check : LfgRolesMap → Option LfgRolesMap} {groles : LfgRolesMap} {p : Guid}
    (hcheck : ∀ guid bit assigned, check (Assoc.modify guid (fun value => value - bit) groles) =
      some assigned → (p ∈ assigned ↔ p ∈ groles))
    {l : List (Sigma fun _ : Guid => Nat)} {damage healer tank : Nat} {assigned : LfgRolesMap}
    (h : roleLoop check groles l damage healer tank = some assigned) :
    p ∈ assigned ↔ p ∈ groles := by
  induction l generalizing damage healer tank with
  | nil =>
    simp only [roleLoop] at h
    split at h
    · cases h
      rfl
    · cases h
  | cons e rest ih =>
    obtain ⟨guid, value⟩ := e
    simp only [roleLoop] at h
    split at h
    · cases h
    split at h
    next htry => exact hcheck _ _ _ (tryRole_error (htry.trans (congrArg Except.error h)))
    split at h
    next htry => exact hcheck _ _ _ (tryRole_error (htry.trans (congrArg Except.error h)))
    split at h
    next htry => exact hcheck _ _ _ (tryRole_error (htry.trans (congrArg Except.error h)))
    exact ih h

theorem mem_checkGroupRoles {groles assigned : LfgRolesMap} {p : Guid}
    (h : checkGroupRoles groles = some assigned) : p ∈ assigned ↔ p ∈ groles := by
  have hfuel : ∀ (fuel : Nat) (groles assigned : LfgRolesMap),
      checkGroupRolesFuel fuel groles = some assigned → (p ∈ assigned ↔ p ∈ groles) := by
    intro fuel
    induction fuel with
    | zero => exact fun _ _ h => by cases h
    | succ fuel ih =>
      intro groles assigned h
      simp only [checkGroupRolesFuel] at h
      split at h
      · cases h
      · refine mem_roleLoop (fun guid bit assigned h => ?_) h
        rw [ih _ _ h, Assoc.modify, Assoc.mem_mapVal]
  exact hfuel _ _ _ h

theorem mem_mergeRoles {view : LfgView} {p : Guid} {l : List (Sigma fun _ : Guid => Nat)}
    {roles : LfgRolesMap} (h : p ∈ mergeRoles view roles l) : p ∈ roles ∨ p ∈ l.map (·.1) := by
  induction l generalizing roles with
  | nil => exact .inl h
  | cons e rest ih =>
    obtain ⟨guid, role⟩ := e
    rw [List.map_cons, List.mem_cons]
    simp only [mergeRoles] at h
    split at h
    · exact (ih h).imp_right .inr
    · refine (ih h).elim (fun hin => ?_) fun hin => .inr (.inr hin)
      exact (AList.mem_insert _).mp hin |>.elim (fun heq => .inr (.inl heq)) .inl

theorem mem_mergeAll {data : Guid → Option LfgQueueData} {view : LfgView} {p : Guid}
    {check : List Guid} {roles : LfgRolesMap} (h : p ∈ mergeAll data view roles check) :
    p ∈ roles ∨ ∃ g ∈ check, ∃ found, data g = some found ∧ p ∈ found.roles := by
  induction check generalizing roles with
  | nil => exact .inl h
  | cons g rest ih =>
    obtain hin | ⟨g', hg', hfound⟩ := ih h
    · obtain hin | hin := mem_mergeRoles hin
      · exact .inl hin
      · cases hdata : data g with
        | none =>
          rw [hdata] at hin
          cases hin
        | some found =>
          rw [hdata] at hin
          exact .inr ⟨g, List.mem_cons_self .., found, hdata, hin⟩
    · exact .inr ⟨g', List.mem_cons_of_mem _ hg', hfound⟩

theorem mem_proposalRoles {data : Guid → Option LfgQueueData} {view : LfgView} {p : Guid}
    {check : List Guid} (h : p ∈ (proposalRoles data view check).getD ∅) :
    ∃ g ∈ check, ∃ found, data g = some found ∧ p ∈ found.roles := by
  have hempty : p ∉ (∅ : LfgRolesMap) := AList.notMem_empty p
  unfold proposalRoles at h
  split at h
  next g =>
    cases hdata : data g with
    | none =>
      rw [hdata] at h
      cases hroles : checkGroupRoles (∅ : LfgRolesMap) with
      | none =>
        simp [hroles] at h
      | some assigned =>
        simp only [Option.elim_none, hroles, Option.getD_some] at h
        exact absurd ((mem_checkGroupRoles hroles).mp h) hempty
    | some found =>
      refine ⟨g, List.mem_singleton_self g, found, hdata, ?_⟩
      rw [hdata] at h
      cases hroles : checkGroupRoles found.roles with
      | none => simpa [hroles] using h
      | some assigned =>
        simp only [Option.elim_some, hroles, Option.getD_some] at h
        exact (mem_checkGroupRoles hroles).mp h
  · cases hroles : checkGroupRoles (mergeAll data view ∅ check) with
    | none =>
      rw [hroles] at h
      exact absurd h hempty
    | some assigned =>
      rw [hroles] at h
      exact (mem_mergeAll ((mem_checkGroupRoles hroles).mp h)).resolve_left hempty

theorem LFGQueue.addQueueData_eq (queue : LFGQueue) (g : Guid) (dungeons : LfgDungeonSet)
    (roles : LfgRolesMap) : queue.addQueueData g dungeons roles = { queue with
      queueDataStore := queue.queueDataStore.insert g ⟨dungeons, roles⟩
      newToQueueStore := queue.newToQueueStore ++ [g] } := by
  simp [LFGQueue.addQueueData, LFGQueue.addToQueue]

theorem LFGQueue.take_lists (check : List Guid) (queue : LFGQueue) :
    let taken := check.foldl (fun queue guid =>
      (queue.removeFromNewQueue guid).removeFromCurrentQueue guid) queue
    taken.queueDataStore = queue.queueDataStore ∧
      taken.newToQueueStore = queue.newToQueueStore.filter (· ∉ check) ∧
      taken.currentQueueStore = queue.currentQueueStore.filter (· ∉ check) := by
  induction check generalizing queue with
  | nil => simp
  | cons g rest ih =>
    obtain ⟨hdata, hnew, hcurrent⟩ := ih ((queue.removeFromNewQueue g).removeFromCurrentQueue g)
    refine ⟨hdata, ?_, ?_⟩
    · refine hnew.trans ?_
      simp only [LFGQueue.removeFromNewQueue, LFGQueue.removeFromCurrentQueue, List.filter_filter]
      refine List.filter_congr fun a _ => ?_
      by_cases h : a = g <;> simp [h]
    · refine hcurrent.trans ?_
      simp only [LFGQueue.removeFromNewQueue, LFGQueue.removeFromCurrentQueue, List.filter_filter]
      refine List.filter_congr fun a _ => ?_
      by_cases h : a = g <;> simp [h]

theorem LFGQueue.mem_take {check : List Guid} {queue : LFGQueue} :
    let taken := check.foldl (fun queue guid =>
      (queue.removeFromNewQueue guid).removeFromCurrentQueue guid) queue
    taken.queueDataStore = queue.queueDataStore ∧
      (∀ g ∈ taken.newToQueueStore, g ∈ queue.newToQueueStore ∧ g ∉ check) ∧
      ∀ g ∈ taken.currentQueueStore, g ∈ queue.currentQueueStore ∧ g ∉ check := by
  obtain ⟨hdata, hnew, hcurrent⟩ := LFGQueue.take_lists check queue
  refine ⟨hdata, fun g hg => ?_, fun g hg => ?_⟩
  · obtain ⟨hin, hout⟩ := List.mem_filter.mp (hnew ▸ hg)
    exact ⟨hin, of_decide_eq_true hout⟩
  · obtain ⟨hin, hout⟩ := List.mem_filter.mp (hcurrent ▸ hg)
    exact ⟨hin, of_decide_eq_true hout⟩

theorem LFGQueue.removeAll_lists (l : List Guid) (queue : LFGQueue) :
    let removed := l.foldl (fun queue guid => queue.removeFromQueue guid) queue
    removed.newToQueueStore = queue.newToQueueStore.filter (· ∉ l) ∧
      removed.currentQueueStore = queue.currentQueueStore.filter (· ∉ l) ∧
      ∀ g, removed.queueDataStore.lookup g = if g ∈ l then none else queue.queueDataStore.lookup g := by
  induction l generalizing queue with
  | nil => simp
  | cons g' rest ih =>
    obtain ⟨hnew, hcurrent, hdata⟩ := ih (queue.removeFromQueue g')
    have hsame : ∀ list : List Guid,
        (list.filter (· != g')).filter (· ∉ rest) = list.filter (· ∉ g' :: rest) := by
      intro list
      rw [List.filter_filter]
      refine List.filter_congr fun g _ => ?_
      by_cases h : g = g' <;> simp [h]
    refine ⟨hnew.trans (hsame _), hcurrent.trans (hsame _), fun g => (hdata g).trans ?_⟩
    have hone : (queue.removeFromQueue g').queueDataStore.lookup g =
        if g = g' then none else queue.queueDataStore.lookup g := Assoc.lookup_erase _ _ _
    rw [hone]
    by_cases h : g = g' <;> simp [h]

theorem LFGQueue.removeAll (queue : LFGQueue) (l : List Guid) :
    let removed := l.foldl (fun queue guid => queue.removeFromQueue guid) queue
    (∀ g data, removed.queueDataStore.lookup g = some data → queue.queueDataStore.lookup g = some data) ∧
      (∀ g ∈ removed.newToQueueStore, g ∈ queue.newToQueueStore) ∧
      ∀ g ∈ removed.currentQueueStore, g ∈ queue.currentQueueStore := by
  obtain ⟨hnew, hcurrent, hdata⟩ := LFGQueue.removeAll_lists l queue
  refine ⟨fun g data hd => ?_, fun g hg => List.mem_of_mem_filter (hnew ▸ hg),
    fun g hg => List.mem_of_mem_filter (hcurrent ▸ hg)⟩
  rw [hdata] at hd
  split at hd
  · cases hd
  · exact hd

theorem LFGQueue.reAddAll (queue : LFGQueue) (l : List Guid) :
    let added := l.foldl (fun queue guid => queue.addToQueue guid true) queue
    added.queueDataStore = queue.queueDataStore ∧ added.newToQueueStore = queue.newToQueueStore ∧
      ∀ g ∈ added.currentQueueStore, g ∈ queue.currentQueueStore ∨
        g ∈ l ∧ (queue.queueDataStore.lookup g).isSome = true := by
  induction l generalizing queue with
  | nil => exact ⟨rfl, rfl, fun _ hg => .inl hg⟩
  | cons g' rest ih =>
    have hone : (queue.addToQueue g' true).queueDataStore = queue.queueDataStore ∧
        (queue.addToQueue g' true).newToQueueStore = queue.newToQueueStore ∧
        ∀ g ∈ (queue.addToQueue g' true).currentQueueStore, g ∈ queue.currentQueueStore ∨
          g = g' ∧ (queue.queueDataStore.lookup g).isSome = true := by
      unfold LFGQueue.addToQueue
      split
      · exact ⟨rfl, rfl, fun _ hg => .inl hg⟩
      next hfound =>
        refine ⟨rfl, rfl, fun g hg => (List.mem_cons.mp hg).symm.imp_right fun heq => ⟨heq, ?_⟩⟩
        rw [heq, hfound]
        rfl
    obtain ⟨hdata, hnew, hcurrent⟩ := ih (queue.addToQueue g' true)
    refine ⟨hdata.trans hone.1, hnew.trans hone.2.1, fun g hg => ?_⟩
    obtain hin | ⟨hin, hsome⟩ := hcurrent g hg
    · exact (hone.2.2 g hin).imp_right fun hsome => ⟨List.mem_cons.mpr (.inl hsome.1), hsome.2⟩
    · exact .inr ⟨List.mem_cons_of_mem _ hin, hone.1 ▸ hsome⟩

namespace State

def Listed (s : State) (q : Nat) (g : Guid) : Prop :=
  g ∈ (s.queuesStore q).newToQueueStore ∨ g ∈ (s.queuesStore q).currentQueueStore

def Covers (s : State) (q : Nat) (g p : Guid) : Prop :=
  ∃ data, s.queueData q g = some data ∧ p ∈ data.roles

theorem queueData_modifyQueue (s : State) (q q' : Nat) (f : LFGQueue → LFGQueue) (g : Guid) :
    (s.modifyQueue q f).queueData q' g =
      if q' = q then (f (s.queuesStore q)).queueDataStore.lookup g else s.queueData q' g := by
  by_cases h : q' = q
  · subst h
    simp [queueData, modifyQueue]
  · simp [queueData, modifyQueue, h]

theorem listed_modifyQueue (s : State) (q q' : Nat) (f : LFGQueue → LFGQueue) (g : Guid) :
    (s.modifyQueue q f).Listed q' g ↔
      if q' = q then g ∈ (f (s.queuesStore q)).newToQueueStore ∨
        g ∈ (f (s.queuesStore q)).currentQueueStore else s.Listed q' g := by
  by_cases h : q' = q
  · subst h
    simp [Listed, modifyQueue]
  · simp [Listed, modifyQueue, h]

def Live (s : State) (id : Nat) (proposal : LfgProposal) : Prop :=
  s.proposalsStore.lookup id = some proposal

structure Free (s : State) (g : Guid) (roles : LfgRolesMap) : Prop where
  proposals : ∀ id proposal, s.Live id proposal →
    g ∉ proposal.queues ∧ ∀ p ∈ roles, p ∉ proposal.players
  queues : ∀ q g' p, s.Covers q g' p → p ∈ roles → g' = g

def FormsGroup (view : LfgView) (s : State) (q : Nat) (check : List Guid) : Prop :=
  ∃ numPlayers numLfgGroups,
    countPlayers (s.queueData q) s.isLfgGroup check 0 0 = .ok (numPlayers, numLfgGroups) ∧
    compatibilityOf (s.queueData q) view s.allQueued check numPlayers numLfgGroups = .matched

def NoGroupWaiting (view : LfgView) (s : State) (q : Nat) : Prop :=
  ∀ check : List Guid, check.Sublist (s.queuesStore q).currentQueueStore → 1 < check.length →
    ¬ s.FormsGroup view q check

end State

structure LfgInv (w : World) (s : State) : Prop where
  home : ∀ q g, (s.queueData q g).isSome = true → w.queueId g = q
  listed : ∀ q g, s.Listed q g → w.queueId g = q
  apart : ∀ q g q' g' p, s.Covers q g p → s.Covers q' g' p → g = g'
  inProposal : ∀ id proposal q g p, s.Live id proposal → s.Covers q g p → p ∈ proposal.players →
    g ∈ proposal.queues
  notListed : ∀ id proposal q g, s.Live id proposal → g ∈ proposal.queues → ¬ s.Listed q g
  proposals : ∀ id proposal id' proposal', s.Live id proposal → s.Live id' proposal' → id ≠ id' →
    (∀ p ∈ proposal.players, p ∉ proposal'.players) ∧ ∀ g ∈ proposal.queues, g ∉ proposal'.queues

namespace LfgInv

variable {w : World} {s s' : State}

/-- Steps that only take queue data and proposals away, and that list only guids which are
in no proposal any more. -/
theorem shrink (h : LfgInv w s)
    (hdata : ∀ q g data, s'.queueData q g = some data → s.queueData q g = some data)
    (hlisted : ∀ q g, s'.Listed q g → s.Listed q g ∨
      w.queueId g = q ∧ ∀ id proposal, s'.Live id proposal → g ∉ proposal.queues)
    (hproposals : ∀ id proposal', s'.Live id proposal' → ∃ proposal, s.Live id proposal ∧
      proposal'.queues = proposal.queues ∧ ∀ p ∈ proposal'.players, p ∈ proposal.players) :
    LfgInv w s' := by
  have hcovers : ∀ q g p, s'.Covers q g p → s.Covers q g p := fun q g p ⟨data, hd, hp⟩ =>
    ⟨data, hdata q g data hd, hp⟩
  constructor
  case home =>
    intro q g hg
    obtain ⟨data, hd⟩ := Option.isSome_iff_exists.mp hg
    exact h.home q g (by rw [hdata q g data hd]; rfl)
  case listed =>
    intro q g hg
    exact (hlisted q g hg).elim (h.listed q g) And.left
  case apart =>
    intro q g q' g' p hg hg'
    exact h.apart q g q' g' p (hcovers q g p hg) (hcovers q' g' p hg')
  case inProposal =>
    intro id proposal' q g p hlive hg hp
    obtain ⟨proposal, hold, hqueues, hplayers⟩ := hproposals id proposal' hlive
    rw [hqueues]
    exact h.inProposal id proposal q g p hold (hcovers q g p hg) (hplayers p hp)
  case notListed =>
    intro id proposal' q g hlive hg hlist
    obtain ⟨proposal, hold, hqueues, _⟩ := hproposals id proposal' hlive
    refine (hlisted q g hlist).elim (fun hlist => ?_) fun hnew => hnew.2 id proposal' hlive hg
    exact h.notListed id proposal q g hold (hqueues ▸ hg) hlist
  case proposals =>
    intro id a' id' b' ha hb hne
    obtain ⟨a, hola, hqa, hpa⟩ := hproposals id a' ha
    obtain ⟨b, holb, hqb, hpb⟩ := hproposals id' b' hb
    obtain ⟨hplayers, hqueues⟩ := h.proposals id a id' b hola holb hne
    refine ⟨fun p hp hp' => hplayers p (hpa p hp) (hpb p hp'), ?_⟩
    rw [hqa, hqb]
    exact hqueues

theorem congr (h : LfgInv w s) (hqueues : s'.queuesStore = s.queuesStore)
    (hproposals : s'.proposalsStore = s.proposalsStore) : LfgInv w s' := by
  refine h.shrink (fun q g data hd => ?_) (fun q g hlist => .inl ?_) fun id proposal hlive => ?_
  · rwa [State.queueData, hqueues] at hd
  · rwa [State.Listed, hqueues] at hlist
  · rw [State.Live, hproposals] at hlive
    exact ⟨proposal, hlive, rfl, fun _ hp => hp⟩

theorem enqueue {g : Guid} {dungeons : LfgDungeonSet} {roles : LfgRolesMap} (h : LfgInv w s)
    (hfree : s.Free g roles) :
    LfgInv w (s.modifyQueueOf w g (·.addQueueData g dungeons roles)) := by
  have hdata : ∀ q g', (s.modifyQueueOf w g (·.addQueueData g dungeons roles)).queueData q g' =
      if q = w.queueId g ∧ g' = g then some ⟨dungeons, roles⟩ else s.queueData q g' := by
    intro q g'
    rw [State.modifyQueueOf, State.queueData_modifyQueue, LFGQueue.addQueueData_eq]
    by_cases hq : q = w.queueId g
    · by_cases hg : g' = g
      · subst hg
        simp [hq]
      · simp [hq, hg, State.queueData]
    · simp [hq]
  have hlisted : ∀ q g', (s.modifyQueueOf w g (·.addQueueData g dungeons roles)).Listed q g' →
      s.Listed q g' ∨ q = w.queueId g ∧ g' = g := by
    intro q g' hlist
    rw [State.modifyQueueOf, State.listed_modifyQueue, LFGQueue.addQueueData_eq] at hlist
    split at hlist
    next hq =>
      subst hq
      simp only [List.mem_append, List.mem_singleton] at hlist
      obtain (hnew | rfl) | hcurrent := hlist
      · exact .inl (.inl hnew)
      · exact .inr ⟨rfl, rfl⟩
      · exact .inl (.inr hcurrent)
    · exact .inl hlist
  have hcovers : ∀ q g' p, (s.modifyQueueOf w g (·.addQueueData g dungeons roles)).Covers q g' p →
      q = w.queueId g ∧ g' = g ∧ p ∈ roles ∨ s.Covers q g' p := by
    intro q g' p ⟨data, hd, hp⟩
    rw [hdata] at hd
    split at hd
    next heq =>
      cases hd
      exact .inl ⟨heq.1, heq.2, hp⟩
    · exact .inr ⟨data, hd, hp⟩
  constructor
  case home =>
    intro q g' hg'
    rw [hdata] at hg'
    split at hg'
    next heq => rw [heq.1, heq.2]
    · exact h.home q g' hg'
  case listed =>
    intro q g' hlist
    obtain hold | ⟨hq, hg⟩ := hlisted q g' hlist
    · exact h.listed q g' hold
    · rw [hq, hg]
  case apart =>
    intro q g₁ q' g₂ p hg₁ hg₂
    obtain ⟨_, rfl, hp⟩ | hold₁ := hcovers q g₁ p hg₁
    · obtain ⟨_, rfl, _⟩ | hold₂ := hcovers q' g₂ p hg₂
      · rfl
      · exact (hfree.queues q' g₂ p hold₂ hp).symm
    · obtain ⟨_, rfl, hp⟩ | hold₂ := hcovers q' g₂ p hg₂
      · exact hfree.queues q g₁ p hold₁ hp
      · exact h.apart q g₁ q' g₂ p hold₁ hold₂
  case inProposal =>
    intro id proposal q g' p hlive hg' hp
    obtain ⟨_, rfl, hroles⟩ | hold := hcovers q g' p hg'
    · exact absurd hp ((hfree.proposals id proposal hlive).2 p hroles)
    · exact h.inProposal id proposal q g' p hlive hold hp
  case notListed =>
    intro id proposal q g' hlive hg' hlist
    obtain hold | ⟨_, rfl⟩ := hlisted q g' hlist
    · exact h.notListed id proposal q g' hlive hg' hold
    · exact (hfree.proposals id proposal hlive).1 hg'
  case proposals => exact h.proposals

theorem formed {q id : Nat} {check : List Guid} {proposal : LfgProposal} (h : LfgInv w s)
    (hcheck : ∀ g ∈ check, w.queueId g = q ∧ ∀ id proposal, s.Live id proposal → g ∉ proposal.queues)
    (hdata : ∀ q' g, s'.queueData q' g = s.queueData q' g)
    (hlisted : ∀ q' g, s'.Listed q' g → s.Listed q' g ∧ ¬ (q' = q ∧ g ∈ check))
    (hproposals : s'.proposalsStore = s.proposalsStore.insert id proposal)
    (hqueues : proposal.queues = check)
    (hplayers : ∀ p ∈ proposal.players, ∃ g ∈ check, s.Covers q g p) : LfgInv w s' := by
  have hcovers : ∀ q' g p, s'.Covers q' g p → s.Covers q' g p := fun q' g p ⟨data, hd, hp⟩ =>
    ⟨data, hdata q' g ▸ hd, hp⟩
  have hlive : ∀ id' found, s'.Live id' found →
      id' = id ∧ found = proposal ∨ id' ≠ id ∧ s.Live id' found := by
    intro id' found hl
    rw [State.Live, hproposals] at hl
    by_cases hid : id' = id
    · rw [hid, AList.lookup_insert, Option.some.injEq] at hl
      exact .inl ⟨hid, hl.symm⟩
    · rw [AList.lookup_insert_ne hid] at hl
      exact .inr ⟨hid, hl⟩
  -- another live proposal has none of the players and none of the guids
  have hother : ∀ id' found, s.Live id' found →
      (∀ p ∈ proposal.players, p ∉ found.players) ∧ ∀ g ∈ proposal.queues, g ∉ found.queues := by
    intro id' found hl
    refine ⟨fun p hp hp' => ?_, fun g hg => (hcheck g (hqueues ▸ hg)).2 id' found hl⟩
    obtain ⟨g, hg, hcover⟩ := hplayers p hp
    exact (hcheck g hg).2 id' found hl (h.inProposal id' found q g p hl hcover hp')
  constructor
  case home =>
    intro q' g hg
    rw [hdata] at hg
    exact h.home q' g hg
  case listed => exact fun q' g hlist => h.listed q' g (hlisted q' g hlist).1
  case apart =>
    intro q₁ g₁ q₂ g₂ p h₁ h₂
    exact h.apart q₁ g₁ q₂ g₂ p (hcovers q₁ g₁ p h₁) (hcovers q₂ g₂ p h₂)
  case inProposal =>
    intro id' found q' g p hl hg hp
    obtain ⟨_, rfl⟩ | ⟨_, hold⟩ := hlive id' found hl
    · obtain ⟨g', hg', hcover⟩ := hplayers p hp
      rw [hqueues, h.apart q' g q g' p (hcovers q' g p hg) hcover]
      exact hg'
    · exact h.inProposal id' found q' g p hold (hcovers q' g p hg) hp
  case notListed =>
    intro id' found q' g hl hg hlist
    obtain ⟨hlist, hnot⟩ := hlisted q' g hlist
    obtain ⟨_, rfl⟩ | ⟨_, hold⟩ := hlive id' found hl
    · rw [hqueues] at hg
      exact hnot ⟨(h.listed q' g hlist).symm.trans (hcheck g hg).1, hg⟩
    · exact h.notListed id' found q' g hold hg hlist
  case proposals =>
    intro id₁ found₁ id₂ found₂ hl₁ hl₂ hne
    obtain ⟨rfl, rfl⟩ | ⟨_, hold₁⟩ := hlive id₁ found₁ hl₁
    · obtain ⟨rfl, rfl⟩ | ⟨_, hold₂⟩ := hlive id₂ found₂ hl₂
      · exact absurd rfl hne
      · exact hother id₂ found₂ hold₂
    · obtain ⟨rfl, rfl⟩ | ⟨_, hold₂⟩ := hlive id₂ found₂ hl₂
      · obtain ⟨hp, hg⟩ := hother id₁ found₁ hold₁
        exact ⟨fun p hp₁ hp₂ => hp p hp₂ hp₁, fun g hg₁ hg₂ => hg g hg₂ hg₁⟩
      · exact h.proposals id₁ found₁ id₂ found₂ hold₁ hold₂ hne

end LfgInv

/-- What the search of queue `q` leaves alone as long as it makes no proposal. -/
structure Quiet (s t : State) : Prop where
  data : ∀ q g, t.queueData q g = s.queueData q g
  states : t.states = s.states
  proposals : t.proposalsStore = s.proposalsStore
  listed : ∀ q g, t.Listed q g → s.Listed q g

structure Formed (s : State) (q : Nat) (check : List Guid) (t : State) : Prop where
  data : ∀ q g, t.queueData q g = s.queueData q g
  listed : ∀ q' g, t.Listed q' g → s.Listed q' g ∧ ¬ (q' = q ∧ g ∈ check)
  proposal : ∃ id proposal, t.proposalsStore = s.proposalsStore.insert id proposal ∧
    proposal.queues = check ∧ ∀ p ∈ proposal.players, ∃ g ∈ check, s.Covers q g p

namespace Quiet

variable {s t : State}

theorem setCompatibles (h : Quiet s t) (q : Nat) (check : List Guid) (c : LfgCompatibility) :
    Quiet s (t.modifyQueue q (·.setCompatibles check c)) where
  data := fun q' g => by
    rw [State.queueData_modifyQueue, ← h.data q' g]
    split
    next heq => rw [heq]; rfl
    · rfl
  states := h.states
  proposals := h.proposals
  listed := fun q' g hlist => by
    rw [State.listed_modifyQueue] at hlist
    split at hlist
    next heq =>
      subst heq
      exact h.listed q' g hlist
    · exact h.listed q' g hlist

theorem removeFromQueue (h : Quiet s t) {q : Nat} {g : Guid} (hnone : t.queueData q g = none) :
    Quiet s (t.modifyQueue q (·.removeFromQueue g)) where
  data := fun q' g' => by
    rw [State.queueData_modifyQueue, ← h.data q' g']
    split
    next heq =>
      subst heq
      by_cases hg : g' = g
      · subst hg
        exact (AList.lookup_erase _ _).trans hnone.symm
      · exact AList.lookup_erase_ne hg
    · rfl
  states := h.states
  proposals := h.proposals
  listed := fun q' g' hlist => by
    rw [State.listed_modifyQueue] at hlist
    split at hlist
    next heq =>
      subst heq
      exact h.listed q' g' (hlist.imp List.mem_of_mem_filter List.mem_of_mem_filter)
    · exact h.listed q' g' hlist

theorem queueData_eq (h : Quiet s t) (q : Nat) : t.queueData q = s.queueData q :=
  funext (h.data q)

theorem isLfgGroup_eq (h : Quiet s t) : t.isLfgGroup = s.isLfgGroup := by
  funext g
  rw [State.isLfgGroup, State.isLfgGroup, State.getOldState, State.getOldState, State.statesOf,
    State.statesOf, h.states]

theorem allQueued_eq (h : Quiet s t) : t.allQueued = s.allQueued := by
  funext check
  simp only [State.allQueued, State.getState, State.statesOf, h.states]

theorem form (h : Quiet s t) {q : Nat} {check : List Guid} {proposal : LfgProposal}
    (c : LfgCompatibility) (hqueues : proposal.queues = check)
    (hplayers : ∀ p ∈ proposal.players, ∃ g ∈ check, s.Covers q g p) :
    Formed s q check
      (((t.takeFromQueue q check).addProposal proposal).modifyQueue q (·.setCompatibles check c)) where
  data := fun q' g => by
    have htaken : (t.takeFromQueue q check).queueData q' g = t.queueData q' g := by
      rw [State.takeFromQueue, State.queueData_modifyQueue]
      split
      next heq => rw [LFGQueue.mem_take.1, heq, State.queueData]
      · rfl
    rw [State.queueData_modifyQueue, ← h.data q' g, ← htaken]
    split
    next heq => rw [heq]; rfl
    · rfl
  listed := fun q' g hlist => by
    have htaken : (t.takeFromQueue q check).Listed q' g := by
      rw [State.listed_modifyQueue] at hlist
      split at hlist
      next heq =>
        subst heq
        exact hlist
      · exact hlist
    rw [State.takeFromQueue, State.listed_modifyQueue] at htaken
    split at htaken
    next heq =>
      subst heq
      obtain hnew | hcurrent := htaken
      · obtain ⟨hin, hnot⟩ := LFGQueue.mem_take.2.1 g hnew
        exact ⟨h.listed q' g (.inl hin), fun hcheck => hnot hcheck.2⟩
      · obtain ⟨hin, hnot⟩ := LFGQueue.mem_take.2.2 g hcurrent
        exact ⟨h.listed q' g (.inr hin), fun hcheck => hnot hcheck.2⟩
    next hne => exact ⟨h.listed q' g htaken, fun hcheck => hne hcheck.1⟩
  proposal := ⟨(t.proposalId + 1) % 2 ^ 32, proposal, by rw [← h.proposals]; rfl, hqueues, hplayers⟩

/-- The check of one list either makes a proposal of it or changes nothing that matters. -/
theorem checkGroup (h : Quiet s t) (view : LfgView) (q : Nat) (check : List Guid) :
    Quiet s (t.checkGroup view q check).2 ∧ (t.checkGroup view q check).1 ≠ .matched ∨
      (t.checkGroup view q check).1 = .matched ∧ s.FormsGroup view q check ∧
        Formed s q check (t.checkGroup view q check).2 := by
  unfold State.checkGroup
  rw [h.queueData_eq q, h.isLfgGroup_eq, h.allQueued_eq]
  split
  next g hcount =>
    refine .inl ⟨h.removeFromQueue ?_, by simp⟩
    rw [h.data]
    exact countPlayers_error hcount
  next numPlayers numLfgGroups hcount =>
    by_cases hmatched : compatibilityOf (s.queueData q) view s.allQueued check numPlayers numLfgGroups =
        .matched
    · simp only [hmatched, if_true]
      refine .inr ⟨trivial, ⟨numPlayers, numLfgGroups, hcount, hmatched⟩, h.form _ rfl fun p hp => ?_⟩
      exact mem_proposalRoles (Assoc.mem_mapVal.mp hp)
    · simp only [hmatched, if_false]
      exact .inl ⟨h.setCompatibles q check _, hmatched⟩

/-- The checks without the new guid make no proposal if no group is waiting. -/
theorem checkCompatibility_waiting {view : LfgView} {q : Nat} {check : List Guid} (h : Quiet s t)
    (hwaiting : s.NoGroupWaiting view q)
    (hsub : check.Sublist (s.queuesStore q).currentQueueStore) (hlen : 1 < check.length) :
    Quiet s (t.checkCompatibility view q check).2 := by
  have hgroup : ∀ {u : State}, Quiet s u → Quiet s (u.checkGroup view q check).2 := fun hu =>
    (hu.checkGroup view q check).elim And.left fun hmatch => absurd hmatch.2.1 (hwaiting check hsub hlen)
  induction check generalizing t with
  | nil => cases hlen
  | cons g rest ih =>
    simp only [State.checkCompatibility]
    split
    · exact h
    split
    next hrest =>
      have hsub' := (List.sublist_cons_self g rest).trans hsub
      have hchild := ih h hsub' hrest fun hu => (hu.checkGroup view q rest).elim And.left
        fun hmatch => absurd hmatch.2.1 (hwaiting rest hsub' hrest)
      split
      · exact hgroup hchild
      · exact hchild.setCompatibles q _ _
    · exact hgroup h

theorem checkCompatibility {view : LfgView} {q : Nat} {front : Guid} {sub : List Guid}
    (h : Quiet s t) (hwaiting : s.NoGroupWaiting view q)
    (hsub : sub.Sublist (s.queuesStore q).currentQueueStore) :
    Quiet s (t.checkCompatibility view q (front :: sub)).2 ∧
        (t.checkCompatibility view q (front :: sub)).1 ≠ .matched ∨
      (t.checkCompatibility view q (front :: sub)).1 = .matched ∧
        Formed s q (front :: sub) (t.checkCompatibility view q (front :: sub)).2 := by
  simp only [State.checkCompatibility]
  split
  · exact .inl ⟨h, by simp⟩
  split
  next hrest =>
    have hchild := h.checkCompatibility_waiting hwaiting hsub hrest
    split
    · exact (hchild.checkGroup view q _).imp_right fun hmatch => ⟨hmatch.1, hmatch.2.2⟩
    next hbad =>
      refine .inl ⟨hchild.setCompatibles q _ _, fun hmatched => hbad ?_⟩
      simp only at hmatched
      rw [hmatched]
      rfl
  · exact (h.checkGroup view q _).imp_right fun hmatch => ⟨hmatch.1, hmatch.2.2⟩

theorem findCompatibility {view : LfgView} {q : Nat} (front : Guid) {sub : List Guid}
    (h : Quiet s t) (hwaiting : s.NoGroupWaiting view q)
    (hsub : sub.Sublist (s.queuesStore q).currentQueueStore) :
    Quiet s (t.findCompatibility view q (front :: sub)).2 ∨
      (t.findCompatibility view q (front :: sub)).1 = .matched ∧
        Formed s q (front :: sub) (t.findCompatibility view q (front :: sub)).2 := by
  simp only [State.findCompatibility]
  generalize hknown : (if (t.queuesStore q).getCompatibles (front :: sub) = .pending then
    t.checkCompatibility view q (front :: sub)
    else ((t.queuesStore q).getCompatibles (front :: sub), t)) = known
  have hcases : Quiet s known.2 ∨ known.1 = .matched ∧ Formed s q (front :: sub) known.2 := by
    rw [← hknown]
    split
    · exact (h.checkCompatibility hwaiting hsub).imp_left And.left
    · exact .inl h
  split
  next hbad =>
    obtain hquiet | hmatch := hcases
    · exact .inl (hquiet.setCompatibles q _ _)
    · rw [hmatch.1] at hbad
      cases hbad.1
  · exact hcases

theorem matchQueued {view : LfgView} {q : Nat} {front : Guid} {all sub : List Guid}
    (h : Quiet s t) (hwaiting : s.NoGroupWaiting view q)
    (hsub : (sub ++ all).Sublist (s.queuesStore q).currentQueueStore) :
    Quiet s (t.matchQueued view q (front :: sub) all).2 ∨
      (t.matchQueued view q (front :: sub) all).1 = true ∧
        ∃ sub', sub'.Sublist (s.queuesStore q).currentQueueStore ∧
          Formed s q (front :: sub') (t.matchQueued view q (front :: sub) all).2 := by
  induction all generalizing t sub with
  | nil => exact .inl h
  | cons g all ih =>
    have hnext : (sub ++ [g]).Sublist (s.queuesStore q).currentQueueStore := by
      refine List.Sublist.trans ?_ hsub
      exact (List.singleton_sublist.mpr (List.mem_cons_self ..)).append_left sub
    have hskip : (sub ++ all).Sublist (s.queuesStore q).currentQueueStore :=
      List.Sublist.trans ((List.sublist_cons_self g all).append_left sub) hsub
    have hdeeper : ((sub ++ [g]) ++ all).Sublist (s.queuesStore q).currentQueueStore := by
      rwa [List.append_assoc, List.singleton_append]
    have hfind := Quiet.findCompatibility front h hwaiting hnext
    simp only [State.matchQueued, List.cons_append]
    split
    · exact hfind.imp_right fun hmatch => ⟨rfl, sub ++ [g], hnext, hmatch.2⟩
    next hne =>
    have hquiet := hfind.resolve_right fun hmatch => hne hmatch.1
    split
    · exact ih hquiet hdeeper
    · exact ih hquiet hskip

theorem findNewGroups {view : LfgView} {q : Nat} (front : Guid) (h : Quiet s t)
    (hwaiting : s.NoGroupWaiting view q) {all : List Guid}
    (hall : all.Sublist (s.queuesStore q).currentQueueStore) :
    Quiet s (t.findNewGroups view q [front] all).2 ∨
      (t.findNewGroups view q [front] all).1 = true ∧
        ∃ sub', sub'.Sublist (s.queuesStore q).currentQueueStore ∧
          Formed s q (front :: sub') (t.findNewGroups view q [front] all).2 := by
  have hfind := Quiet.findCompatibility front h hwaiting (List.nil_sublist _)
  simp only [State.findNewGroups]
  split
  next hless =>
    have hquiet := hfind.resolve_right fun hmatch => by
      rw [hless] at hmatch
      cases hmatch.1
    exact hquiet.matchQueued hwaiting hall
  · exact hfind.imp_right fun hmatch => ⟨by simp [hmatch.1], [], List.nil_sublist _, hmatch.2⟩

end Quiet

namespace LfgInv

variable {w : World} {s s' : State}

theorem quiet (h : LfgInv w s) (hquiet : Quiet s s') : LfgInv w s' := by
  refine h.shrink (fun q g data hd => hquiet.data q g ▸ hd) (fun q g hl => .inl (hquiet.listed q g hl))
    fun id proposal hlive => ?_
  rw [State.Live, hquiet.proposals] at hlive
  exact ⟨proposal, hlive, rfl, fun _ hp => hp⟩

theorem findGroups {view : LfgView} {q : Nat} (h : LfgInv w s) (hwaiting : s.NoGroupWaiting view q) :
    LfgInv w (s.findGroups view q) := by
  unfold State.findGroups
  split
  · exact h
  next front rest hnew =>
  have hfront : s.Listed q front := .inl (hnew ▸ List.mem_cons_self ..)
  have htaken : Quiet s (s.modifyQueue q (·.removeFromNewQueue front)) := by
    refine ⟨fun q' g => ?_, rfl, rfl, fun q' g hlist => ?_⟩
    · rw [State.queueData_modifyQueue]
      split
      next heq => rw [heq]; rfl
      · rfl
    · rw [State.listed_modifyQueue] at hlist
      split at hlist
      next heq =>
        subst heq
        exact hlist.imp_left List.mem_of_mem_filter
      · exact hlist
  have hcurrent : ((s.modifyQueue q (·.removeFromNewQueue front)).queuesStore q).currentQueueStore =
      (s.queuesStore q).currentQueueStore := by
    simp [State.modifyQueue, LFGQueue.removeFromNewQueue]
  have hfound := Quiet.findNewGroups front htaken hwaiting (List.Sublist.refl _)
  simp only [hcurrent]
  split
  · obtain hquiet | ⟨_, sub, hsub, hformed⟩ := hfound
    · exact h.quiet hquiet
    · obtain ⟨id, proposal, hproposals, hqueues, hplayers⟩ := hformed.proposal
      refine h.formed (fun g hg => ?_) hformed.data hformed.listed hproposals hqueues hplayers
      have hlist : s.Listed q g := (List.mem_cons.mp hg).elim (fun heq => heq ▸ hfront) fun hin =>
        .inr (hsub.subset hin)
      exact ⟨h.listed q g hlist, fun id proposal hlive hin => h.notListed id proposal q g hlive hin hlist⟩
  next hnone =>
    have hquiet := hfound.resolve_right fun hmatch => hnone hmatch.1
    refine (h.quiet hquiet).shrink (fun q' g data hd => ?_) (fun q' g hlist => ?_) fun id p hlive =>
      ⟨p, hlive, rfl, fun _ hp => hp⟩
    · rw [State.queueData_modifyQueue] at hd
      split at hd
      next heq =>
        subst heq
        exact hd
      · exact hd
    · rw [State.listed_modifyQueue] at hlist
      split at hlist
      next heq =>
        subst heq
        obtain hin | hin := hlist
        · exact .inl (.inl hin)
        · obtain hin | hin := List.mem_append.mp hin
          · exact .inl (.inr hin)
          · rw [List.mem_singleton.mp hin]
            refine .inr ⟨h.listed q' front hfront, fun id proposal hlive hin => ?_⟩
            have hlive' : s.Live id proposal := by
              rw [State.Live, ← hquiet.proposals]
              exact hlive
            exact h.notListed id proposal q' front hlive' hin hfront
      · exact .inl hlist

/-- A change of one queue that takes queue data away and lists again only guids that are in
no proposal. -/
theorem onQueue {q : Nat} {f : LFGQueue → LFGQueue} (h : LfgInv w s)
    (hdata : ∀ g data, (f (s.queuesStore q)).queueDataStore.lookup g = some data →
      s.queueData q g = some data)
    (hlisted : ∀ g, g ∈ (f (s.queuesStore q)).newToQueueStore ∨
      g ∈ (f (s.queuesStore q)).currentQueueStore → s.Listed q g ∨
        (s.queueData q g).isSome = true ∧ ∀ id proposal, s.Live id proposal → g ∉ proposal.queues) :
    LfgInv w (s.modifyQueue q f) := by
  refine h.shrink (fun q' g data hd => ?_) (fun q' g hlist => ?_) fun id p hlive =>
    ⟨p, hlive, rfl, fun _ hp => hp⟩
  · rw [State.queueData_modifyQueue] at hd
    split at hd
    next heq => exact heq ▸ hdata g data hd
    · exact hd
  · rw [State.listed_modifyQueue] at hlist
    split at hlist
    next heq =>
      subst heq
      exact (hlisted g hlist).imp_right fun hnew => ⟨h.home q' g hnew.1, hnew.2⟩
    · exact .inl hlist

theorem removeAll (h : LfgInv w s) (q : Nat) (l : List Guid) :
    LfgInv w (s.modifyQueue q fun queue => l.foldl (fun queue guid => queue.removeFromQueue guid) queue) := by
  obtain ⟨hdata, hnew, hcurrent⟩ := LFGQueue.removeAll (s.queuesStore q) l
  exact h.onQueue hdata fun g hg => .inl (hg.imp (hnew g) (hcurrent g))

theorem removeFromQueue (h : LfgInv w s) (q : Nat) (g : Guid) :
    LfgInv w (s.modifyQueue q (·.removeFromQueue g)) := h.removeAll q [g]

end LfgInv

end Ashamane.DungeonFinding
