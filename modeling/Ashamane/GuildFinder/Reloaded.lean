import Ashamane.GuildFinder.Basic

/-! Both maps of requests hold the same, and what a restart restores. -/
namespace Ashamane.GuildFinder
open Ashamane.Lib

structure InStep (mgr : GuildFinderMgr) : Prop where
  transposed : Nested.Transposed mgr.membershipRequestsByGuild mgr.membershipRequestsByPlayer
  byGuild : mgr.membershipRequestsByGuild.Tidy
  byPlayer : mgr.membershipRequestsByPlayer.Tidy

structure Written (s : State) : Prop where
  inStep : InStep s.mgr
  applicants : ∀ guildId playerId, Stored 255 MembershipRequest.comment MembershipRequest.row
    ApplicantRow.comment (s.mgr.membershipRequestsByGuild.get guildId playerId)
    (s.db.applicants.lookup (guildId, playerId))
  request : ∀ guildId playerId request,
    s.mgr.membershipRequestsByGuild.get guildId playerId = some request →
      request.guildId = guildId ∧ request.playerGUID = playerId
  settings : ∀ guildId, Stored 255 LFGuildSettings.comment LFGuildSettings.row
    SettingsRow.comment (s.mgr.guildSettings.lookup guildId) (s.db.settings.lookup guildId)
  guild : ∀ guildId settings, s.mgr.guildSettings.lookup guildId = some settings →
    settings.guid = guildId

theorem written_empty : Written State.empty where
  inStep := ⟨fun _ _ => rfl, Nested.tidy_empty, Nested.tidy_empty⟩
  applicants := fun _ _ => .empty
  request := fun _ _ _ h => nomatch h
  settings := fun _ => .empty
  guild := fun _ _ h => nomatch h

theorem lookup_foldl_erase {γ : Type} (ks : List γ) (key : γ → GuildId × PlayerGuid)
    (rows : AList fun _ : GuildId × PlayerGuid => ApplicantRow) (k : GuildId × PlayerGuid) :
    (ks.foldl (fun rows k => rows.erase (key k)) rows).lookup k =
      if ∃ j ∈ ks, k = key j then none else rows.lookup k := by
  induction ks generalizing rows with
  | nil => simp
  | cons j ks ih =>
    rw [List.foldl_cons, ih, Assoc.lookup_erase]
    simp only [List.mem_cons, exists_eq_or_imp]
    by_cases hrest : ∃ j ∈ ks, k = key j
    · rw [if_pos hrest, if_pos (.inr hrest)]
    · rw [if_neg hrest]
      simp only [hrest, or_false]

namespace Written
variable {column : CommentColumn} {s : State}

theorem addMembershipRequest (h : Written s) {guildGuid : GuildId} {request : MembershipRequest}
    (hguild : request.guildId = guildGuid) :
    Written (GuildFinder.addMembershipRequest column guildGuid request s) where
  inStep := by
    refine ⟨fun guildId playerId => ?_, h.inStep.byGuild.insert _ _ _,
      h.inStep.byPlayer.insert _ _ _⟩
    unfold GuildFinder.addMembershipRequest
    rw [Nested.get_insert, Nested.get_insert, h.inStep.transposed]
    simp only [and_comm]
  applicants := by
    intro guildId playerId
    have hold := h.applicants guildId playerId
    unfold GuildFinder.addMembershipRequest
    rw [Nested.get_insert]
    split_ifs with hkey
    · obtain ⟨rfl, rfl⟩ := hkey
      have hwritten := hold.write column request (fun comment =>
        { request.row with comment }) rfl fun _ => rfl
      subst hguild
      dsimp only
      cases hwrite : column.write request.comment with
      | none =>
        rw [hwrite] at hwritten
        exact hwritten
      | some comment =>
        rw [hwrite] at hwritten
        rw [Option.elim_some, AList.lookup_insert]
        exact hwritten
    · dsimp only
      cases column.write request.comment with
      | none => exact hold
      | some comment =>
        rw [Option.elim_some, AList.lookup_insert_ne fun heq => hkey ?_]
        · exact hold
        · rw [hguild] at heq
          exact Prod.mk.inj heq
  request := by
    intro guildId playerId found hfound
    unfold GuildFinder.addMembershipRequest at hfound
    rw [Nested.get_insert] at hfound
    split_ifs at hfound with hkey
    · obtain rfl := Option.some.inj hfound
      exact ⟨hguild.trans hkey.1.symm, hkey.2.symm⟩
    · exact h.request guildId playerId found hfound
  settings := h.settings
  guild := h.guild

theorem removeMembershipRequest (h : Written s) (playerId : PlayerGuid) (guildId : GuildId) :
    Written (GuildFinder.removeMembershipRequest playerId guildId s) where
  inStep := by
    refine ⟨fun guildId' playerId' => ?_, h.inStep.byGuild.erase _ _, h.inStep.byPlayer.erase _ _⟩
    unfold GuildFinder.removeMembershipRequest
    rw [Nested.get_erase, Nested.get_erase, h.inStep.transposed]
    simp only [and_comm]
  applicants := by
    intro guildId' playerId'
    unfold GuildFinder.removeMembershipRequest
    rw [Nested.get_erase, Assoc.lookup_erase]
    simp only [Prod.mk.injEq]
    split_ifs
    · exact .empty
    · exact h.applicants guildId' playerId'
  request := by
    intro guildId' playerId' found hfound
    unfold GuildFinder.removeMembershipRequest at hfound
    rw [Nested.get_erase] at hfound
    split_ifs at hfound
    exact h.request guildId' playerId' found hfound
  settings := h.settings
  guild := h.guild

theorem mem_keys_iff (h : Written s) {playerId : PlayerGuid}
    {requests : AList fun _ : GuildId => MembershipRequest}
    (hrequests : s.mgr.membershipRequestsByPlayer.lookup playerId = some requests)
    (guildId : GuildId) : guildId ∈ requests.keys ↔
      s.mgr.membershipRequestsByGuild.get guildId playerId ≠ none := by
  rw [h.inStep.transposed, Nested.get, hrequests, Option.bind_some, Ne, AList.lookup_eq_none,
    not_not, AList.mem_keys]

theorem removeAll (h : Written s) (playerId : PlayerGuid) :
    Written (GuildFinder.removeAllMembershipRequestsFromPlayer playerId s) := by
  unfold removeAllMembershipRequestsFromPlayer
  cases hrequests : s.mgr.membershipRequestsByPlayer.lookup playerId with
  | none => exact h
  | some requests =>
    have hget : ∀ guildId' playerId', (requests.keys.foldl (fun byGuild guildId =>
        byGuild.erase guildId playerId) s.mgr.membershipRequestsByGuild).get guildId' playerId' =
          if playerId' = playerId then none
          else s.mgr.membershipRequestsByGuild.get guildId' playerId' := by
      intro guildId' playerId'
      rw [Nested.get_foldl_erase]
      simp only [h.mem_keys_iff hrequests]
      split_ifs with hgone hplayer hplayer
      · rfl
      · exact absurd hgone.2 hplayer
      · subst hplayer
        by_contra hne
        exact hgone ⟨hne, rfl⟩
      · rfl
    refine ⟨⟨fun guildId' playerId' => ?_, h.inStep.byGuild.foldl_erase _ _,
      h.inStep.byPlayer.eraseOuter _⟩, fun guildId' playerId' => ?_,
      fun guildId' playerId' found hfound => ?_, h.settings, h.guild⟩
    · rw [hget, Nested.get_eraseOuter, h.inStep.transposed]
    · dsimp only
      have hold := h.applicants guildId' playerId'
      rw [hget, lookup_foldl_erase]
      simp only [Prod.mk.injEq]
      split_ifs with hplayer hgone hgone
      · exact .empty
      · subst hplayer
        have hnone : s.mgr.membershipRequestsByGuild.get guildId' playerId' = none := by
          by_contra hne
          exact hgone ⟨guildId', (h.mem_keys_iff hrequests guildId').mpr hne, rfl, rfl⟩
        rw [hnone] at hold
        exact hold
      · obtain ⟨_, _, _, rfl⟩ := hgone
        exact absurd rfl hplayer
      · exact hold
    · dsimp only at hfound
      rw [hget] at hfound
      split_ifs at hfound
      exact h.request guildId' playerId' found hfound

theorem setGuildSettings (h : Written s) {guildGuid : GuildId} {settings : LFGuildSettings}
    (hguild : settings.guid = guildGuid) :
    Written (GuildFinder.setGuildSettings column guildGuid settings s) where
  inStep := ⟨h.inStep.transposed, h.inStep.byGuild, h.inStep.byPlayer⟩
  applicants := h.applicants
  request := h.request
  settings := by
    intro guildId
    have hold := h.settings guildId
    unfold GuildFinder.setGuildSettings
    rw [Assoc.lookup_insert]
    split_ifs with hkey
    · subst hkey hguild
      have hwritten := hold.write column settings (fun comment =>
        { settings.row with comment }) rfl fun _ => rfl
      dsimp only
      cases hwrite : column.write settings.comment with
      | none =>
        rw [hwrite] at hwritten
        exact hwritten
      | some comment =>
        rw [hwrite] at hwritten
        rw [Option.elim_some, AList.lookup_insert]
        exact hwritten
    · dsimp only
      cases column.write settings.comment with
      | none => exact hold
      | some comment =>
        rw [Option.elim_some, AList.lookup_insert_ne (hguild ▸ hkey)]
        exact hold
  guild := by
    intro guildId found hfound
    obtain ⟨rfl, rfl⟩ | ⟨-, hold⟩ := Assoc.lookup_insert_some hfound
    · exact hguild
    · exact h.guild guildId found hold

theorem mem_players_iff (s : State) (guildId : GuildId) (playerId : PlayerGuid) :
    playerId ∈ ((s.mgr.membershipRequestsByGuild.lookup guildId).map (·.keys)).getD [] ↔
      s.mgr.membershipRequestsByGuild.get guildId playerId ≠ none := by
  unfold Nested.get
  cases s.mgr.membershipRequestsByGuild.lookup guildId with
  | none => simp
  | some requests =>
    rw [Option.map_some, Option.getD_some, Option.bind_some, Ne, AList.lookup_eq_none, not_not,
      AList.mem_keys]

theorem deleteGuild (h : Written s) (guildId : GuildId) :
    Written (GuildFinder.deleteGuild guildId s) := by
  have hplayers := mem_players_iff s guildId
  unfold GuildFinder.deleteGuild
  generalize ((s.mgr.membershipRequestsByGuild.lookup guildId).map (·.keys)).getD [] = players
    at hplayers
  refine ⟨⟨fun guildId' playerId' => ?_, h.inStep.byGuild.eraseOuter _,
    h.inStep.byPlayer.foldl_erase _ _⟩, fun guildId' playerId' => ?_,
    fun guildId' playerId' found hfound => ?_, fun guildId' => ?_, fun guildId' found hfound => ?_⟩
  · dsimp only
    rw [Nested.get_eraseOuter, Nested.get_foldl_erase, ← h.inStep.transposed]
    simp only [hplayers]
    split_ifs with hguild hgone hgone
    · rfl
    · subst hguild
      by_contra hne
      exact hgone ⟨fun hnone => hne hnone.symm, rfl⟩
    · exact absurd hgone.2 hguild
    · rfl
  · dsimp only
    have hold := h.applicants guildId' playerId'
    rw [Nested.get_eraseOuter, lookup_foldl_erase]
    simp only [Prod.mk.injEq]
    split_ifs with hguild hgone hgone
    · exact .empty
    · subst hguild
      have hnone : s.mgr.membershipRequestsByGuild.get guildId' playerId' = none := by
        by_contra hne
        exact hgone ⟨playerId', (hplayers playerId').mpr hne, rfl, rfl⟩
      rw [hnone] at hold
      exact hold
    · obtain ⟨_, _, rfl, _⟩ := hgone
      exact absurd rfl hguild
    · exact hold
  · dsimp only at hfound
    rw [Nested.get_eraseOuter] at hfound
    split_ifs at hfound
    exact h.request guildId' playerId' found hfound
  · dsimp only
    rw [Assoc.lookup_erase, Assoc.lookup_erase]
    split_ifs
    · exact .empty
    · exact h.settings guildId'
  · exact h.guild guildId' found (Assoc.lookup_erase_some hfound).2

theorem step (h : Written s) {op : Op} (hop : op.Allowed) : Written (GuildFinder.step column s op) := by
  cases op with
  | addMembershipRequest guildGuid request => exact h.addMembershipRequest hop
  | removeMembershipRequest playerId guildId => exact h.removeMembershipRequest playerId guildId
  | removeAllMembershipRequestsFromPlayer playerId => exact h.removeAll playerId
  | setGuildSettings guildGuid settings => exact h.setGuildSettings hop
  | deleteGuild guildId => exact h.deleteGuild guildId

theorem run {ops : List Op} (h : Written s) (hops : ∀ op ∈ ops, op.Allowed) :
    Written (ops.foldl (GuildFinder.step column) s) := by
  induction ops generalizing s with
  | nil => exact h
  | cons op ops ih =>
    exact ih (h.step (hops op List.mem_cons_self)) fun op' h' =>
      hops op' (List.mem_cons_of_mem _ h')

end Written

def LFGuildSettings.teamless (settings : LFGuildSettings) : LFGuildSettings :=
  { settings with team := .neutral }

structure Restored (mgr loaded : GuildFinderMgr) : Prop where
  settings : ∀ guildId, (loaded.guildSettings.lookup guildId).map LFGuildSettings.teamless =
    (mgr.guildSettings.lookup guildId).map LFGuildSettings.teamless
  byGuild : ∀ guildId playerId, loaded.membershipRequestsByGuild.get guildId playerId =
    mgr.membershipRequestsByGuild.get guildId playerId
  inStep : InStep loaded

theorem loadGuildSettings_requests (w : World) (rows : List (GuildId × SettingsRow × UInt8))
    (mgr : GuildFinderMgr) :
    (loadGuildSettings w rows mgr).membershipRequestsByGuild = mgr.membershipRequestsByGuild ∧
      (loadGuildSettings w rows mgr).membershipRequestsByPlayer =
        mgr.membershipRequestsByPlayer := by
  unfold loadGuildSettings
  induction rows generalizing mgr with
  | nil => exact ⟨rfl, rfl⟩
  | cons row rows ih => exact ih _

theorem loadMembershipRequests_settings
    (rows : List (Sigma fun _ : GuildId × PlayerGuid => ApplicantRow)) (mgr : GuildFinderMgr) :
    (loadMembershipRequests rows mgr).guildSettings = mgr.guildSettings := by
  unfold loadMembershipRequests
  induction rows generalizing mgr with
  | nil => rfl
  | cons row rows ih => exact ih _

theorem loadMembershipRequests_inStep
    (rows : List (Sigma fun _ : GuildId × PlayerGuid => ApplicantRow)) {mgr : GuildFinderMgr}
    (h : InStep mgr) : InStep (loadMembershipRequests rows mgr) := by
  unfold loadMembershipRequests
  induction rows generalizing mgr with
  | nil => exact h
  | cons row rows ih =>
    refine ih ⟨fun guildId playerId => ?_, h.byGuild.insert _ _ _, h.byPlayer.insert _ _ _⟩
    rw [Nested.get_insert, Nested.get_insert, h.transposed]
    simp only [and_comm]

theorem get_loadMembershipRequests
    {rows : List (Sigma fun _ : GuildId × PlayerGuid => ApplicantRow)} (hrows : rows.NodupKeys)
    (mgr : GuildFinderMgr) (guildId : GuildId) (playerId : PlayerGuid) :
    (loadMembershipRequests rows mgr).membershipRequestsByGuild.get guildId playerId =
      ((rows.dlookup (guildId, playerId)).map (loadedRequest (guildId, playerId))).or
        (mgr.membershipRequestsByGuild.get guildId playerId) := by
  unfold loadMembershipRequests
  induction rows generalizing mgr with
  | nil => rfl
  | cons row rows ih =>
    obtain ⟨⟨rowGuild, rowPlayer⟩, row⟩ := row
    obtain ⟨hnew, hrows⟩ := List.nodupKeys_cons.mp hrows
    rw [List.foldl_cons, ih hrows, Nested.get_insert]
    by_cases hkey : (guildId, playerId) = (rowGuild, rowPlayer)
    · obtain ⟨rfl, rfl⟩ := Prod.mk.inj hkey
      rw [List.dlookup_cons_eq, List.dlookup_eq_none.mpr hnew, if_pos ⟨rfl, rfl⟩]
      rfl
    · rw [List.dlookup_cons_ne _ _ hkey, if_neg fun h => hkey (Prod.ext h.1 h.2)]

theorem mem_settingsJoined {w : World} {db : CharacterDatabase} {guildId : GuildId}
    {row : SettingsRow} {race : UInt8} (h : (guildId, row, race) ∈ settingsJoined w db) :
    db.settings.lookup guildId = some row := by
  obtain ⟨⟨guildId', row'⟩, he, h⟩ := List.mem_flatMap.mp h
  have hkey : guildId = guildId' ∧ row = row' := by
    dsimp only at h
    split at h
    · cases List.mem_singleton.mp h
      exact ⟨rfl, rfl⟩
    · obtain ⟨_, _, h⟩ := List.mem_map.mp h
      cases h
      exact ⟨rfl, rfl⟩
  rw [hkey.1, hkey.2]
  exact Assoc.mem_entries_iff.mp he

theorem exists_settingsJoined (w : World) {db : CharacterDatabase} {guildId : GuildId}
    {row : SettingsRow} (h : db.settings.lookup guildId = some row) :
    settingsJoined w db ≠ [] := by
  have he := Assoc.mem_entries_iff.mpr h
  intro hnil
  have hnone := List.flatMap_eq_nil_iff.mp hnil _ he
  dsimp only at hnone
  split at hnone
  · cases hnone
  · rename_i hraces
    exact hraces (List.map_eq_nil_iff.mp hnone)

theorem lookup_loadGuildSettings_take (w : World)
    (joined : List (GuildId × SettingsRow × UInt8)) (guildId : GuildId) :
    (loadGuildSettings w (joined.take 1) State.empty.mgr).guildSettings.lookup guildId =
      joined.head?.bind fun row =>
        if guildId = row.1 then some (loadedSettings w row.1 row.2.1 row.2.2) else none := by
  cases joined with
  | nil => rfl
  | cons row joined => exact Assoc.lookup_insert ∅ row.1 guildId _

theorem teamless_loadedSettings (w : World) {guildId : GuildId} {settings : LFGuildSettings}
    (hguild : settings.guid = guildId) (race : UInt8) :
    (loadedSettings w guildId settings.row race).teamless = settings.teamless := by
  subst hguild
  cases settings with
  | mk comment guid roles availability interests level listed team => cases listed <;> rfl

def OneGuild (mgr : GuildFinderMgr) : Prop :=
  ∀ guildId guildId', guildId ∈ mgr.guildSettings → guildId' ∈ mgr.guildSettings →
    guildId = guildId'

def TimesFit (mgr : GuildFinderMgr) : Prop :=
  ∀ guildId playerId request,
    mgr.membershipRequestsByGuild.get guildId playerId = some request → request.time < 2 ^ 32

def CommentsFit (mgr : GuildFinderMgr) : Prop :=
  (∀ guildId settings, mgr.guildSettings.lookup guildId = some settings →
    TextFits 255 settings.comment) ∧
  ∀ guildId playerId request,
    mgr.membershipRequestsByGuild.get guildId playerId = some request →
      TextFits 255 request.comment

section Restart
variable {s : State} {w : World} {joined : List (GuildId × SettingsRow × UInt8)}
  {applicants : List (Sigma fun _ : GuildId × PlayerGuid => ApplicantRow)}

theorem settings_restored_iff (h : Written s) (hjoined : joined.Perm (settingsJoined w s.db)) :
    (∀ guildId, ((loadFromDB w (joined.take 1) applicants).guildSettings.lookup guildId).map
      LFGuildSettings.teamless =
        (s.mgr.guildSettings.lookup guildId).map LFGuildSettings.teamless) ↔
      OneGuild s.mgr ∧ ∀ guildId settings, s.mgr.guildSettings.lookup guildId = some settings →
        TextFits 255 settings.comment := by
  have hloaded : ∀ guildId, (loadFromDB w (joined.take 1) applicants).guildSettings.lookup guildId =
      joined.head?.bind fun row =>
        if guildId = row.1 then some (loadedSettings w row.1 row.2.1 row.2.2) else none := by
    intro guildId
    unfold loadFromDB
    rw [loadMembershipRequests_settings, lookup_loadGuildSettings_take]
  constructor
  · intro hrestored
    -- a guild with settings is that of the first row, which has its comment
    have hfirst : ∀ g settings, s.mgr.guildSettings.lookup g = some settings →
        joined.head?.map (·.1) = some g ∧ TextFits 255 settings.comment := by
      intro g settings hsettings
      have hg := hrestored g
      rw [hloaded, hsettings] at hg
      cases hhead : joined.head? with
      | none =>
        rw [hhead] at hg
        cases hg
      | some row =>
        obtain ⟨rowGuild, row, race⟩ := row
        have hrow := mem_settingsJoined (hjoined.mem_iff.mp (List.mem_of_head? hhead))
        rw [hhead, Option.bind_some] at hg
        dsimp only at hg
        split_ifs at hg with hguild
        · subst hguild
          have hcomment : row.comment = settings.comment :=
            congrArg LFGuildSettings.comment (Option.some.inj hg)
          exact ⟨rfl, ((h.settings g).eq_of_text hsettings hrow hcomment).1⟩
        · cases hg
    refine ⟨fun guildId guildId' hmem hmem' => ?_, fun g settings hsettings =>
      (hfirst g settings hsettings).2⟩
    obtain ⟨_, hsettings⟩ := Option.isSome_iff_exists.mp (AList.lookup_isSome.mpr hmem)
    obtain ⟨_, hsettings'⟩ := Option.isSome_iff_exists.mp (AList.lookup_isSome.mpr hmem')
    exact Option.some.inj
      ((hfirst guildId _ hsettings).1.symm.trans (hfirst guildId' _ hsettings').1)
  · rintro ⟨hone, hfits⟩ guildId
    rw [hloaded]
    cases hhead : joined.head? with
    | none =>
      rw [List.head?_eq_none_iff.mp hhead] at hjoined
      cases hsettings : s.mgr.guildSettings.lookup guildId with
      | none => rfl
      | some settings =>
        have hrow := (h.settings guildId).kept settings hsettings (hfits guildId settings hsettings)
        exact absurd (List.nil_perm.mp hjoined) (exists_settingsJoined w hrow)
    | some row =>
      obtain ⟨rowGuild, row, race⟩ := row
      have hlookup := mem_settingsJoined (hjoined.mem_iff.mp (List.mem_of_head? hhead))
      have hstored := h.settings rowGuild
      cases hsettings : s.mgr.guildSettings.lookup rowGuild with
      | none =>
        rw [hstored.absent hsettings] at hlookup
        cases hlookup
      | some settings =>
        rw [hstored.kept settings hsettings (hfits rowGuild settings hsettings)] at hlookup
        obtain rfl := Option.some.inj hlookup
        have hmem : rowGuild ∈ s.mgr.guildSettings :=
          AList.lookup_isSome.mp (Option.isSome_iff_exists.mpr ⟨_, hsettings⟩)
        rw [Option.bind_some]
        dsimp only
        split_ifs with hguild
        · subst hguild
          rw [hsettings, Option.map_some, Option.map_some,
            teamless_loadedSettings w (h.guild _ _ hsettings)]
        · cases hother : s.mgr.guildSettings.lookup guildId with
          | none => rfl
          | some other =>
            exact absurd (hone guildId rowGuild
              (AList.lookup_isSome.mp (Option.isSome_iff_exists.mpr ⟨_, hother⟩)) hmem) hguild

theorem get_loadFromDB (happlicants : applicants.Perm s.db.applicants.entries)
    (settings : List (GuildId × SettingsRow × UInt8)) (guildId : GuildId)
    (playerId : PlayerGuid) :
    (loadFromDB w settings applicants).membershipRequestsByGuild.get guildId playerId =
      (s.db.applicants.lookup (guildId, playerId)).map (loadedRequest (guildId, playerId)) := by
  have hkeys : applicants.NodupKeys :=
    (List.perm_nodupKeys happlicants).mpr s.db.applicants.nodupKeys
  have hlookup : applicants.dlookup (guildId, playerId) =
      s.db.applicants.lookup (guildId, playerId) :=
    List.perm_dlookup _ hkeys happlicants
  unfold loadFromDB
  rw [get_loadMembershipRequests hkeys, hlookup, (loadGuildSettings_requests w settings _).1]
  simp [State.empty]

theorem loadedRequest_row_iff {guildId : GuildId} {playerId : PlayerGuid}
    {request : MembershipRequest} (hguild : request.guildId = guildId)
    (hplayer : request.playerGUID = playerId) :
    loadedRequest (guildId, playerId) request.row = request ↔ request.time < 2 ^ 32 := by
  subst hguild hplayer
  constructor
  · intro heq
    rw [← congrArg MembershipRequest.time heq]
    exact Nat.mod_lt _ (by decide)
  · intro hfits
    simp only [loadedRequest, MembershipRequest.row, Nat.mod_eq_of_lt hfits]

theorem requests_restored_iff (h : Written s)
    (happlicants : applicants.Perm s.db.applicants.entries)
    (settings : List (GuildId × SettingsRow × UInt8)) :
    (∀ guildId playerId,
      (loadFromDB w settings applicants).membershipRequestsByGuild.get guildId playerId =
        s.mgr.membershipRequestsByGuild.get guildId playerId) ↔
      TimesFit s.mgr ∧ ∀ guildId playerId request,
        s.mgr.membershipRequestsByGuild.get guildId playerId = some request →
          TextFits 255 request.comment := by
  simp only [get_loadFromDB happlicants]
  constructor
  · intro hrestored
    have hboth : ∀ guildId playerId request,
        s.mgr.membershipRequestsByGuild.get guildId playerId = some request →
          request.time < 2 ^ 32 ∧ TextFits 255 request.comment := by
      intro guildId playerId request hrequest
      have hloaded := hrestored guildId playerId
      rw [hrequest] at hloaded
      obtain ⟨row, hrow, heq⟩ := Option.map_eq_some_iff.mp hloaded
      obtain ⟨hfits, rfl⟩ := (h.applicants guildId playerId).eq_of_text hrequest hrow
        (congrArg MembershipRequest.comment heq)
      obtain ⟨hguild, hplayer⟩ := h.request guildId playerId request hrequest
      exact ⟨(loadedRequest_row_iff hguild hplayer).mp heq, hfits⟩
    exact ⟨fun g p request hrequest => (hboth g p request hrequest).1,
      fun g p request hrequest => (hboth g p request hrequest).2⟩
  · rintro ⟨htimes, hfits⟩ guildId playerId
    have hstored := h.applicants guildId playerId
    cases hrequest : s.mgr.membershipRequestsByGuild.get guildId playerId with
    | none => rw [hstored.absent hrequest, Option.map_none]
    | some request =>
      obtain ⟨hguild, hplayer⟩ := h.request guildId playerId request hrequest
      rw [hstored.kept request hrequest (hfits guildId playerId request hrequest), Option.map_some,
        (loadedRequest_row_iff hguild hplayer).mpr (htimes guildId playerId request hrequest)]

/-- The requests by guild and by player are the same, and a restart restores all exactly if one
guild at most has settings and the times and comments fit their columns. -/
theorem reload_iff {column : CommentColumn} {ops : List Op} (hops : ∀ op ∈ ops, op.Allowed)
    {settings : List (GuildId × SettingsRow × UInt8)}
    (hsettings : SettingsFetched w (ops.foldl (step column) State.empty).db settings)
    (happlicants : applicants.Perm (ops.foldl (step column) State.empty).db.applicants.entries) :
    InStep (ops.foldl (step column) State.empty).mgr ∧
      (Restored (ops.foldl (step column) State.empty).mgr (loadFromDB w settings applicants) ↔
        OneGuild (ops.foldl (step column) State.empty).mgr ∧
          TimesFit (ops.foldl (step column) State.empty).mgr ∧
          CommentsFit (ops.foldl (step column) State.empty).mgr) := by
  have h := @Written.run column _ _ written_empty hops
  obtain ⟨joined, hjoined, rfl⟩ := hsettings
  have hloaded : InStep (loadFromDB w (joined.take 1) applicants) := by
    refine loadMembershipRequests_inStep applicants ⟨?_, ?_, ?_⟩
    all_goals obtain ⟨hguild, hplayer⟩ := loadGuildSettings_requests w (joined.take 1) State.empty.mgr
    · rw [hguild, hplayer]
      exact written_empty.inStep.transposed
    · rw [hguild]
      exact written_empty.inStep.byGuild
    · rw [hplayer]
      exact written_empty.inStep.byPlayer
  have hrequests := @requests_restored_iff _ w _ h happlicants (joined.take 1)
  have hguilds := @settings_restored_iff _ w _ applicants h hjoined
  refine ⟨h.inStep, fun hrestored => ?_, fun ⟨hone, htimes, hcomments⟩ => ?_⟩
  · obtain ⟨hone, hsettings⟩ := hguilds.mp hrestored.settings
    obtain ⟨htimes, hfits⟩ := hrequests.mp hrestored.byGuild
    exact ⟨hone, htimes, hsettings, hfits⟩
  · exact ⟨hguilds.mpr ⟨hone, hcomments.1⟩, hrequests.mpr ⟨htimes, hcomments.2⟩, hloaded⟩

end Restart

def noMembers : World := ⟨fun _ => [], fun _ => none⟩

def oneGuild : State :=
  [Op.setGuildSettings 3 ⟨"Raids", 3, 1, 1, 1, 1, true, .horde⟩,
    .addMembershipRequest 3 ⟨"Hello", 3, 8, 1, 1, 1, 1500000000⟩].foldl (step (.strict 255)) State.empty

theorem reload_iff_request : Restored oneGuild.mgr
    (loadFromDB noMembers ((settingsJoined noMembers oneGuild.db).take 1)
      oneGuild.db.applicants.entries) := by
  have hguild : ∀ g settings, oneGuild.mgr.guildSettings.lookup g = some settings →
      g = 3 ∧ settings.comment = "Raids" := by
    intro g settings hsettings
    obtain ⟨rfl, rfl⟩ | ⟨-, hold⟩ := Assoc.lookup_insert_some hsettings
    · exact ⟨rfl, rfl⟩
    · cases hold
  have hrequest : ∀ guildId playerId request,
      oneGuild.mgr.membershipRequestsByGuild.get guildId playerId = some request →
        request = ⟨"Hello", 3, 8, 1, 1, 1, 1500000000⟩ := by
    intro guildId playerId request hrequest
    change Nested.get (Nested.insert 3 8 ⟨"Hello", 3, 8, 1, 1, 1, 1500000000⟩ ∅) guildId playerId =
      some request at hrequest
    rw [Nested.get_insert] at hrequest
    split_ifs at hrequest
    · exact (Option.some.inj hrequest).symm
    · cases hrequest
  refine (reload_iff (fun op hop => ?_) ⟨_, .refl _, rfl⟩ (.refl _)).2.mpr ⟨?_, ?_, ?_, ?_⟩
  · simp only [List.mem_cons, List.not_mem_nil, or_false] at hop
    obtain rfl | rfl := hop <;> rfl
  · intro guildId guildId' hmem hmem'
    obtain ⟨settings, hsettings⟩ := Option.isSome_iff_exists.mp (AList.lookup_isSome.mpr hmem)
    obtain ⟨settings', hsettings'⟩ := Option.isSome_iff_exists.mp (AList.lookup_isSome.mpr hmem')
    rw [(hguild guildId settings hsettings).1, (hguild guildId' settings' hsettings').1]
  · intro guildId playerId request hget
    rw [hrequest guildId playerId request hget]
    decide
  · intro guildId settings hsettings
    rw [(hguild guildId settings hsettings).2]
    decide
  · intro guildId playerId request hget
    rw [hrequest guildId playerId request hget]
    decide

def twoGuilds : State :=
  [Op.setGuildSettings 3 ⟨"", 3, 1, 1, 1, 1, true, .horde⟩,
    .setGuildSettings 4 ⟨"", 4, 1, 1, 1, 1, true, .alliance⟩].foldl (step (.strict 255)) State.empty

/-- Of two guilds one is forgotten. -/
theorem restart_fails_twoGuilds : ¬Restored twoGuilds.mgr
    (loadFromDB noMembers ((settingsJoined noMembers twoGuilds.db).take 1)
      twoGuilds.db.applicants.entries) := by
  intro hrestored
  have hlost := hrestored.settings 3
  revert hlost
  decide

end Ashamane.GuildFinder
