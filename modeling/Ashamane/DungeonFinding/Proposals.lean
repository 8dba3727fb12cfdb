import Ashamane.DungeonFinding.Lossless

/-! What the proposals are like that a search creates. -/
namespace Ashamane.DungeonFinding

open Ashamane.Lib

section Merge

variable {data : Guid → Option LfgQueueData} {view : LfgView} {isLfgGroup : Guid → Bool}
  {check : List Guid} {roles : LfgRolesMap}

def playersOf (data : Guid → Option LfgQueueData) (check : List Guid) :
    List (Sigma fun _ : Guid => Nat) :=
  check.flatMap fun guid => ((data guid).elim ∅ (·.roles)).entries

theorem playersOf_cons (guid : Guid) (rest : List Guid) : playersOf data (guid :: rest) =
    ((data guid).elim ∅ (·.roles)).entries ++ playersOf data rest := List.flatMap_cons

def Countable (data : Guid → Option LfgQueueData) : Prop :=
  ∀ guid found, data guid = some found → maxGroupSize + found.roles.entries.length < 2 ^ 8

theorem countPlayers_eq (hcountable : Countable data) {numPlayers numLfgGroups n m : Nat}
    (hn : n ≤ maxGroupSize) (hm : m ≤ 1)
    (h : countPlayers data isLfgGroup check numPlayers numLfgGroups = .ok (n, m)) :
    (∀ guid ∈ check, (data guid).isSome = true) ∧
      n = numPlayers + (playersOf data check).length ∧ m = numLfgGroups + check.countP isLfgGroup := by
  induction check generalizing numPlayers numLfgGroups with
  | nil =>
    simp only [countPlayers, Except.ok.injEq, Prod.mk.injEq] at h
    simp [playersOf, h.1, h.2]
  | cons guid rest ih =>
    rw [countPlayers] at h
    split at h
    next hroom =>
      cases hdata : data guid with
      | none =>
        rw [hdata] at h
        cases h
      | some found =>
        rw [hdata] at h
        have hsmall := hcountable guid found hdata
        obtain ⟨hall, hplayers, hgroups⟩ := ih h
        rw [Nat.mod_eq_of_lt (by omega)] at hplayers
        refine ⟨fun g hg => ?_, ?_, ?_⟩
        · rcases List.mem_cons.mp hg with rfl | hg
          · rw [hdata, Option.isSome_some]
          · exact hall g hg
        · rw [hplayers, playersOf_cons, List.length_append, hdata, Option.elim_some]
          omega
        · rw [hgroups, List.countP_cons]
          cases isLfgGroup guid <;> simp
          omega
    next hfull =>
      simp only [Except.ok.injEq, Prod.mk.injEq] at h
      omega

theorem mergeRoles_append (l l' : List (Sigma fun _ : Guid => Nat)) :
    mergeRoles view roles (l ++ l') = mergeRoles view (mergeRoles view roles l) l' := by
  induction l generalizing roles with
  | nil => rfl
  | cons e l ih =>
    obtain ⟨guid, role⟩ := e
    simp only [List.cons_append, mergeRoles]
    split
    · exact ih
    · exact ih

theorem mergeAll_eq : mergeAll data view roles check = mergeRoles view roles (playersOf data check) := by
  induction check generalizing roles with
  | nil => rfl
  | cons guid rest ih =>
    rw [mergeAll, ih, playersOf_cons, mergeRoles_append]

theorem insert_length (roles : LfgRolesMap) (guid : Guid) (role : Nat) :
    (roles.insert guid role).entries.length =
      roles.entries.length + if guid ∈ roles then 0 else 1 := by
  split
  next hin =>
    obtain ⟨role', hrole'⟩ := Option.isSome_iff_exists.mp (AList.lookup_isSome.mpr hin)
    have hmem := Assoc.mem_entries_iff.mpr hrole'
    have hpos := List.length_pos_of_mem hmem
    rw [AList.entries_insert, List.length_cons, List.kerase,
      List.length_eraseP_of_mem hmem (by simp)]
    omega
  next hout => rw [AList.entries_insert_of_notMem hout, List.length_cons]

theorem mergeRoles_length (l : List (Sigma fun _ : Guid => Nat)) (roles : LfgRolesMap) :
    (mergeRoles view roles l).entries.length ≤ roles.entries.length + l.length := by
  induction l generalizing roles with
  | nil => exact Nat.le_refl _
  | cons e l ih =>
    obtain ⟨guid, role⟩ := e
    rw [mergeRoles, List.length_cons]
    split
    · have hrest := ih roles
      omega
    · have hrest := ih (roles.insert guid role)
      have hinsert := insert_length roles guid role
      split at hinsert <;> omega

structure Merged (view : LfgView) (roles : LfgRolesMap) (l : List (Sigma fun _ : Guid => Nat)) :
    Prop where
  fresh : ∀ e ∈ l, e.1 ∉ roles
  nodup : (l.map (·.1)).Nodup
  before : ∀ e ∈ l, ∀ p ∈ roles, view.hasIgnore e.1 p = false
  among : l.Pairwise fun a b => view.hasIgnore b.1 a.1 = false
  players : ∀ p, p ∈ mergeRoles view roles l ↔ p ∈ roles ∨ p ∈ l.map (·.1)

theorem merged_of_length {l : List (Sigma fun _ : Guid => Nat)}
    (h : (mergeRoles view roles l).entries.length = roles.entries.length + l.length) :
    Merged view roles l := by
  induction l generalizing roles with
  | nil => exact ⟨by simp, by simp, by simp, by simp, by simp [mergeRoles]⟩
  | cons e l ih =>
    obtain ⟨guid, role⟩ := e
    rw [mergeRoles, List.length_cons] at h
    split at h
    · have hle := @mergeRoles_length view l roles
      omega
    next hkept =>
      have hle := @mergeRoles_length view l (roles.insert guid role)
      have hinsert := insert_length roles guid role
      have hnew : guid ∉ roles := by
        intro hin
        rw [if_pos hin] at hinsert
        omega
      rw [if_neg hnew] at hinsert
      obtain ⟨hfresh, hnodup, hbefore, hamong, hplayers⟩ :=
        @ih (roles.insert guid role) (by omega)
      have hignore : ∀ p ∈ roles, view.hasIgnore guid p = false := by
        intro p hp
        by_contra hignores
        rw [Bool.not_eq_false] at hignores
        refine hkept (List.any_eq_true.mpr ?_)
        obtain ⟨v, hv⟩ := AList.lookup_isSome.mpr hp |> Option.isSome_iff_exists.mp
        refine ⟨⟨p, v⟩, Assoc.mem_entries_iff.mpr hv, ?_⟩
        have hne : guid ≠ p := fun heq => hnew (heq ▸ hp)
        simp [hne, hignores]
      refine ⟨fun e he => ?_, ?_, fun e he p hp => ?_, ?_, fun p => ?_⟩
      · rcases List.mem_cons.mp he with rfl | he
        · exact hnew
        · exact fun hin => hfresh e he ((AList.mem_insert _).mpr (.inr hin))
      · rw [List.map_cons, List.nodup_cons]
        refine ⟨fun hin => ?_, hnodup⟩
        obtain ⟨e, he, heq⟩ := List.mem_map.mp hin
        exact hfresh e he ((AList.mem_insert _).mpr (.inl heq))
      · rcases List.mem_cons.mp he with rfl | he
        · exact hignore p hp
        · exact hbefore e he p ((AList.mem_insert _).mpr (.inr hp))
      · refine List.pairwise_cons.mpr ⟨fun e he => ?_, hamong⟩
        exact hbefore e he guid ((AList.mem_insert _).mpr (.inl rfl))
      · rw [mergeRoles, if_neg hkept, hplayers, AList.mem_insert, List.map_cons, List.mem_cons]
        tauto

structure Match (data : Guid → Option LfgQueueData) (view : LfgView) (isLfgGroup : Guid → Bool)
    (check : List Guid) : Prop where
  guids : check ≠ []
  queued : ∀ guid ∈ check, (data guid).isSome = true
  players : view.testing = false → (playersOf data check).length = maxGroupSize
  groups : check.countP isLfgGroup ≤ 1
  merged : 1 < check.length → Merged view ∅ (playersOf data check)
  roles : 1 < check.length → (checkGroupRoles (mergeAll data view ∅ check)).isSome = true
  dungeons : 1 < check.length → proposalDungeons data check ≠ ∅

theorem compatibilityOf_matched (hcountable : Countable data) {allQueued : List Guid → Bool}
    {numPlayers numLfgGroups : Nat}
    (hcount : countPlayers data isLfgGroup check 0 0 = .ok (numPlayers, numLfgGroups))
    (h : compatibilityOf data view allQueued check numPlayers numLfgGroups = .matched) :
    Match data view isLfgGroup check := by
  unfold compatibilityOf at h
  split at h
  · cases h
  split at h
  · cases h
  next hgroups =>
  split at h
  · cases h
  next hmuch =>
  split at h
  · cases h
  next hignores =>
  split at h
  · cases h
  next hroles =>
  split at h
  · cases h
  next hdungeons =>
  split at h
  · cases h
  next hless =>
  obtain ⟨hall, hplayers, hlfg⟩ :=
    countPlayers_eq hcountable (Nat.not_lt.mp hmuch) (Nat.not_lt.mp hgroups) hcount
  rw [Nat.zero_add] at hplayers hlfg
  refine ⟨?_, hall, fun htesting => ?_, hlfg ▸ Nat.not_lt.mp hgroups, fun hmany => ?_, fun hmany => ?_,
    fun hmany hempty => hdungeons ⟨hmany, hempty⟩⟩
  · rintro rfl
    exact hroles rfl
  · by_contra hne
    exact hless ⟨by rw [htesting]; rfl, hplayers ▸ hne⟩
  · have hle : (mergeAll data view ∅ check).entries.length ≤ 0 + (playersOf data check).length :=
      mergeAll_eq ▸ mergeRoles_length _ _
    have hsmall := Nat.not_lt.mp hmuch
    refine merged_of_length ?_
    by_contra hne
    refine hignores ⟨hmany, fun heq => hne ?_⟩
    rw [Nat.mod_eq_of_lt (by simp only [maxGroupSize] at hsmall; omega)] at heq
    rw [← mergeAll_eq, ← heq, hplayers]
    exact (Nat.zero_add _).symm
  · match check, hmany with
    | _ :: _ :: _, _ => exact Option.isSome_iff_ne_none.mpr (by simpa [proposalRoles] using hroles)

namespace Match

theorem nodup (h : Match data view isLfgGroup check) : ((playersOf data check).map (·.1)).Nodup := by
  match check, h with
  | [], _ => exact List.nodup_nil
  | [guid], _ =>
    rw [playersOf_cons, playersOf, List.flatMap_nil, List.append_nil]
    exact AList.keys_nodup _
  | _ :: _ :: _, h => exact (h.merged (by simp)).nodup

theorem mem_roles (h : Match data view isLfgGroup check) (p : Guid) :
    p ∈ (proposalRoles data view check).getD ∅ ↔ p ∈ (playersOf data check).map (·.1) := by
  match check, h with
  | [], _ => simp [proposalRoles, mergeAll, playersOf, checkGroupRoles, checkGroupRolesFuel]
  | [guid], _ =>
    rw [playersOf_cons, playersOf, List.flatMap_nil, List.append_nil, proposalRoles]
    cases hroles : checkGroupRoles ((data guid).elim ∅ (·.roles)) with
    | none =>
      simp only [Option.getD_none, Option.getD_some]
      exact AList.mem_keys
    | some assigned =>
      simp only [Option.getD_some]
      rw [mem_checkGroupRoles hroles]
      exact AList.mem_keys
  | g :: g' :: rest, h =>
    have hmerged := h.merged (by simp)
    obtain ⟨assigned, hassigned⟩ := Option.isSome_iff_exists.mp (h.roles (by simp))
    rw [proposalRoles, hassigned, Option.getD_some, mem_checkGroupRoles hassigned, mergeAll_eq,
      hmerged.players]
    · exact or_iff_right (AList.notMem_empty p)
    · simp

theorem length_roles (h : Match data view isLfgGroup check) :
    ((proposalRoles data view check).getD ∅).entries.length = (playersOf data check).length := by
  have hperm : ((proposalRoles data view check).getD ∅).keys.Perm ((playersOf data check).map (·.1)) :=
    (List.perm_ext_iff_of_nodup (AList.keys_nodup _) h.nodup).mpr fun p =>
      AList.mem_keys.symm.trans (h.mem_roles p)
  have hlength := hperm.length_eq
  rwa [List.length_map, AList.keys, List.keys, List.length_map] at hlength

end Match

theorem mem_proposalDungeons {d : Nat} (h : d ∈ proposalDungeons data check) :
    ∀ guid ∈ check, ∃ found, data guid = some found ∧ d ∈ found.dungeons := by
  have hown : ∀ guid, d ∈ (data guid).elim ∅ (·.dungeons) →
      ∃ found, data guid = some found ∧ d ∈ found.dungeons := by
    intro guid hd
    cases hdata : data guid with
    | none =>
      rw [hdata] at hd
      exact absurd hd (Finset.notMem_empty d)
    | some found =>
      rw [hdata] at hd
      exact ⟨found, rfl, hd⟩
  have hfold : ∀ (rest : List Guid) (dungeons : LfgDungeonSet),
      d ∈ rest.foldl (fun dungeons guid => dungeons ∩ (data guid).elim ∅ (·.dungeons)) dungeons →
        d ∈ dungeons ∧ ∀ guid ∈ rest, d ∈ (data guid).elim ∅ (·.dungeons) := by
    intro rest
    induction rest with
    | nil => exact fun _ hd => ⟨hd, by simp⟩
    | cons guid rest ih =>
      intro dungeons hd
      obtain ⟨hin, hrest⟩ := ih _ hd
      obtain ⟨hbefore, hguid⟩ := Finset.mem_inter.mp hin
      refine ⟨hbefore, fun g hg => ?_⟩
      rcases List.mem_cons.mp hg with rfl | hg
      · exact hguid
      · exact hrest g hg
  cases check with
  | nil => simp
  | cons guid rest =>
    obtain ⟨hfirst, hrest⟩ := hfold rest _ h
    intro g hg
    rcases List.mem_cons.mp hg with rfl | hg
    · exact hown g hfirst
    · exact hown g (hrest g hg)

end Merge

structure Social where
  connected : Guid → Bool
  ignores : Guid → Guid → Bool

def Social.hasIgnore (social : Social) (guid1 guid2 : Guid) : Bool :=
  social.connected guid1 && social.connected guid2 &&
    (social.ignores guid1 guid2 || social.ignores guid2 guid1)

theorem Social.hasIgnore_comm (social : Social) (guid1 guid2 : Guid) :
    social.hasIgnore guid1 guid2 = social.hasIgnore guid2 guid1 := by
  rw [hasIgnore, hasIgnore, Bool.and_comm (social.connected guid1), Bool.or_comm]

structure LfgProposal.Sound (data : Guid → Option LfgQueueData) (isLfgGroup : Guid → Bool)
    (view : LfgView) (proposal : LfgProposal) : Prop where
  players : proposal.players.entries.length = maxGroupSize
  groups : proposal.queues.countP isLfgGroup ≤ 1
  ignores : 1 < proposal.queues.length → ∀ p ∈ proposal.players, ∀ p' ∈ proposal.players, p ≠ p' →
    view.hasIgnore p p' = false
  roles : 1 < proposal.queues.length → checkGroupRoles (mergeAll data view ∅ proposal.queues) =
    some (Assoc.mapVal (fun _ player => player.role) proposal.players)
  someDungeon : 1 < proposal.queues.length → proposalDungeons data proposal.queues ≠ ∅
  dungeon : ∀ d ∈ proposalDungeons data proposal.queues, ∀ guid ∈ proposal.queues,
    ∃ found, data guid = some found ∧ d ∈ found.dungeons
  unlocked : ∀ locked : Guid → Nat → Prop,
    (∀ guid found, data guid = some found → ∀ p ∈ found.roles, ∀ d ∈ found.dungeons, ¬locked p d) →
      ∀ d ∈ proposalDungeons data proposal.queues, ∀ p ∈ proposal.players, ¬locked p d

namespace State

structure SameData (s t : State) : Prop where
  data : ∀ q g, t.queueData q g = s.queueData q g
  states : t.states = s.states
  roleChecks : t.roleChecksStore = s.roleChecksStore

namespace SameData

variable {s t u : State} {q : Nat}

theorem refl (s : State) : SameData s s := ⟨fun _ _ => rfl, rfl, rfl⟩

theorem trans (h : SameData s t) (h' : SameData t u) : SameData s u :=
  ⟨fun q g => (h'.data q g).trans (h.data q g), h'.states.trans h.states,
    h'.roleChecks.trans h.roleChecks⟩

theorem queueData_eq (h : SameData s t) (q : Nat) : t.queueData q = s.queueData q :=
  funext (h.data q)

theorem isLfgGroup_eq (h : SameData s t) : t.isLfgGroup = s.isLfgGroup := by
  funext g
  rw [State.isLfgGroup, State.isLfgGroup, State.getOldState, State.getOldState, State.statesOf,
    State.statesOf, h.states]

theorem modifyQueue (s : State) {f : LFGQueue → LFGQueue}
    (hf : ∀ queue : LFGQueue, (f queue).queueDataStore = queue.queueDataStore) :
    SameData s (s.modifyQueue q f) := by
  refine ⟨fun q' g => ?_, rfl, rfl⟩
  rw [queueData_modifyQueue]
  split
  next heq => rw [hf, heq, State.queueData]
  · rfl

theorem removeFromQueue {g : Guid} (h : s.queueData q g = none) :
    SameData s (s.modifyQueue q (·.removeFromQueue g)) := by
  refine ⟨fun q' g' => ?_, rfl, rfl⟩
  rw [queueData_modifyQueue]
  split
  next heq =>
    subst heq
    by_cases hg : g' = g
    · subst hg
      exact (AList.lookup_erase _ _).trans h.symm
    · exact AList.lookup_erase_ne hg
  · rfl

theorem takeFromQueue (s : State) (check : List Guid) : SameData s (s.takeFromQueue q check) :=
  modifyQueue s fun _ => LFGQueue.mem_take.1

theorem setCompatibles (s : State) (q : Nat) (check : List Guid) (c : LfgCompatibility) :
    SameData s (s.modifyQueue q (·.setCompatibles check c)) := modifyQueue s fun _ => rfl

variable (q) (view : LfgView)

theorem checkGroup (s : State) (check : List Guid) : SameData s (s.checkGroup view q check).2 := by
  unfold State.checkGroup
  split
  next hcount => exact removeFromQueue (countPlayers_error hcount)
  · dsimp only
    split
    · have htaken : ∀ p, SameData s ((s.takeFromQueue q check).addProposal p) := fun p =>
        ⟨(takeFromQueue s check).data, rfl, rfl⟩
      exact (htaken _).trans (setCompatibles _ q check _)
    · exact setCompatibles s q check _

theorem checkCompatibility (s : State) (check : List Guid) :
    SameData s (s.checkCompatibility view q check).2 := by
  induction check with
  | nil => exact .refl s
  | cons guid rest ih =>
    unfold State.checkCompatibility
    split
    · exact .refl s
    split
    · dsimp only
      split
      · exact ih.trans (checkGroup q view _ _)
      · exact ih.trans (setCompatibles _ q _ _)
    · exact checkGroup q view s _

theorem findCompatibility (s : State) (check : List Guid) :
    SameData s (s.findCompatibility view q check).2 := by
  unfold State.findCompatibility
  by_cases hpending : (s.queuesStore q).getCompatibles check = .pending
  · have hchecked := checkCompatibility q view s check
    simp only [if_pos hpending]
    split
    · exact hchecked.trans (setCompatibles _ q check _)
    · exact hchecked
  · simp only [if_neg hpending]
    split
    · exact setCompatibles s q check _
    · exact .refl s

theorem matchQueued (check all : List Guid) (s : State) :
    SameData s (s.matchQueued view q check all).2 := by
  induction all generalizing check s with
  | nil => exact .refl s
  | cons guid all ih =>
    have hsub := findCompatibility q view s (check ++ [guid])
    unfold State.matchQueued
    dsimp only
    split
    · exact hsub
    · split
      · exact hsub.trans (ih _ _)
      · exact hsub.trans (ih _ _)

theorem findNewGroups (check all : List Guid) (s : State) :
    SameData s (s.findNewGroups view q check all).2 := by
  have hfirst := findCompatibility q view s check
  unfold State.findNewGroups
  dsimp only
  split
  · exact hfirst.trans (matchQueued q view check all _)
  · exact hfirst

theorem findGroups (s : State) : SameData s (s.findGroups view q) := by
  unfold State.findGroups
  split
  · exact .refl s
  next frontguid rest hnew =>
    have htaken : SameData s (s.modifyQueue q (·.removeFromNewQueue frontguid)) :=
      modifyQueue s fun _ => rfl
    have hfound := htaken.trans (findNewGroups q view [frontguid]
      ((s.modifyQueue q (·.removeFromNewQueue frontguid)).queuesStore q).currentQueueStore _)
    have hlisted : ∀ t : State, SameData t (t.modifyQueue q (·.addToCurrentQueue frontguid)) :=
      fun t => modifyQueue t fun _ => rfl
    dsimp only
    split
    · exact hfound
    · exact hfound.trans (hlisted _)

end SameData

theorem mem_playersOf {data : Guid → Option LfgQueueData} {check : List Guid} {p : Guid}
    (h : p ∈ (playersOf data check).map (·.1)) :
    ∃ guid ∈ check, ∃ found, data guid = some found ∧ p ∈ found.roles := by
  obtain ⟨e, he, rfl⟩ := List.mem_map.mp h
  obtain ⟨guid, hguid, he⟩ := List.mem_flatMap.mp he
  cases hdata : data guid with
  | none =>
    rw [hdata] at he
    cases he
  | some found =>
    rw [hdata] at he
    exact ⟨guid, hguid, found, hdata, AList.mem_keys.mpr (List.mem_map_of_mem he)⟩

theorem newProposal_sound {social : Social} {s : State} {q : Nat} {check : List Guid}
    (h : Match (s.queueData q) ⟨false, social.hasIgnore⟩ s.isLfgGroup check) (numLfgGroups : Nat) :
    (s.newProposal q check numLfgGroups
      ((proposalRoles (s.queueData q) ⟨false, social.hasIgnore⟩ check).getD ∅)).Sound
        (s.queueData q) s.isLfgGroup ⟨false, social.hasIgnore⟩ := by
  have hplayer : ∀ p, p ∈ (s.newProposal q check numLfgGroups
      ((proposalRoles (s.queueData q) ⟨false, social.hasIgnore⟩ check).getD ∅)).players ↔
        p ∈ (playersOf (s.queueData q) check).map (·.1) := fun p =>
    Assoc.mem_mapVal.trans (h.mem_roles p)
  refine ⟨?_, h.groups, fun hmany p hp p' hp' hne => ?_, fun hmany => ?_, h.dungeons,
    fun d hd => mem_proposalDungeons hd, fun locked hopen d hd p hp => ?_⟩
  · rw [newProposal, Assoc.mapVal_entries, List.length_map, h.length_roles, h.players rfl]
  · have hsymm : Std.Symm fun e e' : Sigma fun _ : Guid => Nat =>
        social.hasIgnore e'.1 e.1 = false := ⟨fun e e' he => (social.hasIgnore_comm _ _).trans he⟩
    obtain ⟨e, he, rfl⟩ := List.mem_map.mp ((hplayer p).mp hp)
    obtain ⟨e', he', rfl⟩ := List.mem_map.mp ((hplayer p').mp hp')
    refine (h.merged hmany).among.forall he' he ?_
    rintro rfl
    exact hne rfl
  · obtain ⟨assigned, hassigned⟩ := Option.isSome_iff_exists.mp (h.roles hmany)
    have hroles : proposalRoles (s.queueData q) ⟨false, social.hasIgnore⟩ check = some assigned := by
      match check, hmany, hassigned with
      | _ :: _ :: _, _, hassigned => exact hassigned
    rw [hroles]
    refine hassigned.trans (congrArg some (AList.ext ?_))
    rw [newProposal, Assoc.mapVal_entries, Assoc.mapVal_entries, List.map_map]
    exact (List.map_id _).symm
  · obtain ⟨guid, hguid, found, hdata, hin⟩ := mem_playersOf ((hplayer p).mp hp)
    obtain ⟨found', hdata', hd'⟩ := mem_proposalDungeons hd guid hguid
    obtain rfl := Option.some.inj (hdata.symm.trans hdata')
    exact hopen guid found hdata p hin d hd'

theorem checkGroup_matched {view : LfgView} {s : State} {q : Nat} {check : List Guid}
    (hcountable : Countable (s.queueData q))
    (h : (s.checkGroup view q check).1 = .matched) :
    ∃ numLfgGroups, Match (s.queueData q) view s.isLfgGroup check ∧
      (s.checkGroup view q check).2.Live (s.checkGroup view q check).2.proposalId
        (s.newProposal q check numLfgGroups ((proposalRoles (s.queueData q) view check).getD ∅)) := by
  unfold checkGroup at h ⊢
  cases hcount : countPlayers (s.queueData q) s.isLfgGroup check 0 0 with
  | error guid =>
    rw [hcount] at h
    cases h
  | ok n =>
    obtain ⟨numPlayers, numLfgGroups⟩ := n
    rw [hcount] at h
    simp only at h ⊢
    refine ⟨numLfgGroups, compatibilityOf_matched hcountable hcount h, ?_⟩
    rw [if_pos h]
    exact AList.lookup_insert _

theorem checkCompatibility_matched {view : LfgView} {s : State} {q : Nat} {check : List Guid}
    (h : (s.checkCompatibility view q check).1 = .matched) :
    ∃ t, SameData s t ∧ s.checkCompatibility view q check = t.checkGroup view q check := by
  cases check with
  | nil => cases h
  | cons guid rest =>
    unfold checkCompatibility at h ⊢
    split at h
    · cases h
    next hsize =>
      rw [if_neg hsize]
      split at h
      next hmany =>
        rw [if_pos hmany]
        simp only at h ⊢
        split at h
        next hchild =>
          rw [if_pos hchild]
          exact ⟨_, SameData.checkCompatibility q view s rest, rfl⟩
        next hchild =>
          simp only at h
          rw [h] at hchild
          exact absurd rfl hchild
      next hfew =>
        rw [if_neg hfew]
        exact ⟨s, .refl s, rfl⟩

/-- Outside of a test every match of `CheckCompatibility` has made a proposal that is right. -/
theorem checkCompatibility_sound (social : Social) (s : State) (q : Nat) (check : List Guid)
    (hcountable : Countable (s.queueData q))
    (h : (s.checkCompatibility ⟨false, social.hasIgnore⟩ q check).1 = .matched) :
    ∃ proposal, (s.checkCompatibility ⟨false, social.hasIgnore⟩ q check).2.Live
        (s.checkCompatibility ⟨false, social.hasIgnore⟩ q check).2.proposalId proposal ∧
      proposal.queues = check ∧
      proposal.Sound (s.queueData q) s.isLfgGroup ⟨false, social.hasIgnore⟩ := by
  obtain ⟨t, hsame, heq⟩ := checkCompatibility_matched h
  rw [heq] at h ⊢
  rw [← hsame.queueData_eq q] at hcountable
  obtain ⟨numLfgGroups, hmatch, hlive⟩ := checkGroup_matched hcountable h
  refine ⟨_, hlive, rfl, ?_⟩
  rw [← hsame.queueData_eq q, ← hsame.isLfgGroup_eq]
  exact newProposal_sound hmatch numLfgGroups

section Examples

def nobody : Social := ⟨fun _ => true, fun _ _ => false⟩

def everyone : Social := ⟨fun _ => true, fun _ _ => true⟩

theorem countable_of_entries {s : State} {q : Nat}
    (h : ∀ e ∈ (s.queuesStore q).queueDataStore.entries,
      maxGroupSize + e.2.roles.entries.length < 2 ^ 8) : Countable (s.queueData q) :=
  fun _ _ hdata => h _ (Assoc.mem_entries_iff.mpr hdata)

def firstFive : List Guid := [.player 1, .player 2, .player 3, .player 4, .player 5]

theorem checkCompatibility_sound_five :
    ∃ proposal, (fiveNew.checkCompatibility ⟨false, nobody.hasIgnore⟩ 0 firstFive).2.Live
        (fiveNew.checkCompatibility ⟨false, nobody.hasIgnore⟩ 0 firstFive).2.proposalId proposal ∧
      proposal.queues = firstFive ∧
      proposal.Sound (fiveNew.queueData 0) fiveNew.isLfgGroup ⟨false, nobody.hasIgnore⟩ :=
  checkCompatibility_sound nobody fiveNew 0 firstFive (countable_of_entries (by decide +kernel))
    (by decide +kernel)

def lone : State := (joins 1 8).apply oneTeam noOne

def premade : State :=
  (partyJoins 1 1 2 [(2, 4), (3, 8), (4, 8), (5, 8)]).foldl (Op.apply oneTeam) noOne

/-- So many players without roles that a `uint8` counts five. -/
def manyRoles : LfgRolesMap where
  entries := (List.range 261).map fun n => ⟨.player n, 0⟩
  nodupKeys := by
    rw [List.NodupKeys, List.keys, List.map_map]
    exact List.nodup_range.map fun n m h => Guid.player.inj h

def crowd : State :=
  { noOne with
    states := AList.singleton (.party 1) ⟨.queued, .none⟩
    queuesStore := fun _ =>
      { LFGQueue.empty with queueDataStore := AList.singleton (.party 1) ⟨{10}, manyRoles⟩ } }

/-- In a test one player is enough. A party is matched though its players ignore each other and
though its dungeon is locked for them, and one with too many players though it has no roles. -/
theorem checkCompatibility_fails_single :
    (∃ proposal, (lone.checkCompatibility ⟨true, nobody.hasIgnore⟩ 0 [.player 1]).1 = .matched ∧
        (lone.checkCompatibility ⟨true, nobody.hasIgnore⟩ 0 [.player 1]).2.Live 1 proposal ∧
        proposal.players.keys = [.player 1]) ∧
      (∃ proposal, (premade.checkCompatibility ⟨false, everyone.hasIgnore⟩ 0 [.party 1]).1 = .matched ∧
        (premade.checkCompatibility ⟨false, everyone.hasIgnore⟩ 0 [.party 1]).2.Live 1 proposal ∧
        Guid.player 1 ∈ proposal.players ∧ Guid.player 2 ∈ proposal.players ∧
        everyone.hasIgnore (.player 1) (.player 2) = true ∧
        ¬∀ locked : Guid → Nat → Prop, ∀ d ∈ proposalDungeons (premade.queueData 0) proposal.queues,
          ∀ p ∈ proposal.players, ¬locked p d) ∧
      ∃ proposal, (crowd.checkCompatibility ⟨false, nobody.hasIgnore⟩ 0 [.party 1]).1 = .matched ∧
        (crowd.checkCompatibility ⟨false, nobody.hasIgnore⟩ 0 [.party 1]).2.Live 1 proposal ∧
        proposal.players.entries.length = 261 ∧ checkGroupRoles manyRoles = none := by
  refine ⟨⟨_, by decide +kernel, rfl, by decide +kernel⟩,
    ⟨_, by decide +kernel, rfl, by decide +kernel, by decide +kernel, rfl, fun h => ?_⟩,
    ⟨_, by decide +kernel, Option.eq_some_of_isSome (by decide +kernel), by decide +kernel,
      by decide +kernel⟩⟩
  exact h (fun _ _ => True) 10 (by decide +kernel) (.player 1) (by decide +kernel) trivial

end Examples

section Created

variable {view : LfgView} {q : Nat} {s₀ s : State} {P : LfgProposal → Prop}
  (hnew : ∀ s, SameData s₀ s → ∀ check numPlayers numLfgGroups,
    countPlayers (s.queueData q) s.isLfgGroup check 0 0 = .ok (numPlayers, numLfgGroups) →
    compatibilityOf (s.queueData q) view s.allQueued check numPlayers numLfgGroups = .matched →
      P (s.newProposal q check numLfgGroups ((proposalRoles (s.queueData q) view check).getD ∅)))

include hnew

theorem checkGroupCreated_all (hs : SameData s₀ s) (check : List Guid) :
    ∀ p ∈ s.checkGroupCreated view q check, P p := by
  unfold checkGroupCreated
  split
  · exact nofun
  next hcount =>
    split
    next hmatched =>
      intro p hp
      rw [List.mem_singleton.1 hp]
      exact hnew s hs check _ _ hcount hmatched
    · exact nofun

theorem checkCompatibilityCreated_all (hs : SameData s₀ s) (check : List Guid) :
    ∀ p ∈ s.checkCompatibilityCreated view q check, P p := by
  induction check with
  | nil => exact fun p hp => absurd hp List.not_mem_nil
  | cons guid rest ih =>
    unfold checkCompatibilityCreated
    split
    · exact fun p hp => absurd hp List.not_mem_nil
    split
    · intro p hp
      obtain hp | hp := List.mem_append.1 hp
      · exact ih p hp
      · split at hp
        · exact checkGroupCreated_all hnew (hs.trans (.checkCompatibility q view s rest)) _ p hp
        · cases hp
    · exact checkGroupCreated_all hnew hs _

theorem findCompatibilityCreated_all (hs : SameData s₀ s) (check : List Guid) :
    ∀ p ∈ s.findCompatibilityCreated view q check, P p := by
  unfold findCompatibilityCreated
  split
  · exact checkCompatibilityCreated_all hnew hs check
  · exact nofun

theorem matchQueuedCreated_all (hs : SameData s₀ s) (check all : List Guid) :
    ∀ p ∈ s.matchQueuedCreated view q check all, P p := by
  induction all generalizing check s with
  | nil => exact nofun
  | cons guid all ih =>
    have hsub := hs.trans (.findCompatibility q view s (check ++ [guid]))
    intro p hp
    obtain hp | hp := List.mem_append.1 hp
    · exact findCompatibilityCreated_all hnew hs _ p hp
    · split at hp
      · exact nomatch hp
      · split at hp
        · exact ih hsub _ p hp
        · exact ih hsub _ p hp

theorem findGroupsCreated_all (hs : SameData s₀ s) : ∀ p ∈ s.findGroupsCreated view q, P p := by
  unfold findGroupsCreated
  split
  · exact fun p hp => absurd hp List.not_mem_nil
  next frontguid rest hnewOf =>
    have htaken : SameData s₀ (s.modifyQueue q (·.removeFromNewQueue frontguid)) :=
      hs.trans (.modifyQueue s fun _ => rfl)
    intro p hp
    obtain hp | hp := List.mem_append.1 hp
    · exact findCompatibilityCreated_all hnew htaken _ p hp
    · split at hp
      · exact matchQueuedCreated_all hnew (htaken.trans (.findCompatibility q view _ _)) _ _ p hp
      · cases hp

end Created

end State

end Ashamane.DungeonFinding
