import Ashamane.Channels.Ownership
import Ashamane.Lib.Run

/-! Every run of requests about a custom channel. -/
namespace Ashamane.Channels
open Ashamane.Lib Channel

variable {c : Channel} {channel : Option Channel} {call : Call} {calls : List Call}

structure Owned (c : Channel) : Prop where
  owner : (∃ guid, guid ∈ c.playersStore) → ∃ owner ownerInfo, c.ownerGuid = some owner ∧
    c.playersStore.lookup owner = some ownerInfo ∧ ownerInfo.isModerator = true ∧
      ∀ guid info, c.playersStore.lookup guid = some info → (info.isOwner = true ↔ guid = owner)
  banned : ∀ guid ∈ c.bannedStore, guid ∉ c.playersStore

theorem Channel.Sane.owned_iff (h : c.Sane) : Owned c ↔ c.Kept := by
  constructor
  · intro howned hmem
    obtain ⟨owner, info, howner, hinfo, _, hflags⟩ := howned.owner hmem
    exact ⟨owner, info, howner, hinfo, (hflags owner info hinfo).mpr rfl⟩
  · intro hkept
    refine ⟨fun hmem => ?_, h.banned⟩
    obtain ⟨owner, info, howner, hinfo, hflag⟩ := hkept hmem
    refine ⟨owner, info, howner, hinfo, (h.flags owner info hinfo hflag).2, ?_⟩
    intro guid other hother
    constructor
    · intro hflag'
      exact Option.some.inj ((h.flags guid other hother hflag').1.symm.trans howner)
    · rintro rfl
      obtain rfl := Option.some.inj (hother.symm.trans hinfo)
      exact hflag

def Fits (channel : Option Channel) (call : Call) : Prop :=
  ∀ c ∈ channel, match call.request with
    -- nobody kicks or bans itself as the owner while others are in the channel
    | .kick badname | .ban badname =>
      call.world.findConnectedPlayerByName badname = some call.guid →
        c.ownerGuid = some call.guid → ∀ k ∈ c.playersStore, k = call.guid
    -- nobody comes into a channel that its owner has emptied so, unless it was invisible
    | .joinChannel pass _ _ =>
      (∀ k, k ∉ c.playersStore) → c.ownerGuid ≠ none → c.isOwnerInvisible = true ∨
        call.guid ∈ c.bannedStore ∨ (c.channelPassword ≠ "" ∧ pass ≠ c.channelPassword)
    | _ => True

def Harmless (channel : Option Channel) (call : Call) : Prop :=
  ∀ c ∈ channel, ∀ info, c.playersStore.lookup call.guid = some info →
    info.isModerator = false → call.world.changeChannelNotModerator call.guid = false →
      ∃ c', Call.apply channel call = some c' ∧
        c'.channelPassword = c.channelPassword ∧
        ∀ k, k ≠ call.guid → c'.playersStore.lookup k = c.playersStore.lookup k

theorem sane_new (pass : String) (banned : List ObjectGuid) : (Channel.new pass banned).Sane where
  enabled := rfl
  banned _ _ h := by cases h
  flags _ _ h := by cases h

theorem kept_new (pass : String) (banned : List ObjectGuid) : (Channel.new pass banned).Kept :=
  fun ⟨_, h⟩ => by cases h

theorem mem_leftChannel {c' : Channel} (h : c' ∈ leftChannel c) : c' = c := by
  unfold leftChannel at h
  split at h
  · cases h
  · exact (Option.some.inj h).symm

theorem sane_apply (h : ∀ c ∈ channel, c.Sane) : ∀ c ∈ Call.apply channel call, c.Sane := by
  obtain ⟨w, guid, request⟩ := call
  intro c hc
  cases request with
  | joinChannel pass storedPassword storedBanned =>
    obtain rfl := Option.some.inj hc
    refine Sane.joinChannel ?_ w guid pass
    cases channel with
    | none => exact sane_new storedPassword storedBanned
    | some c => exact h c rfl
  | leaveChannel =>
    obtain ⟨before, hbefore, hleft⟩ := Option.bind_eq_some_iff.mp hc
    exact mem_leftChannel hleft ▸ (h before hbefore).leaveChannel guid
  | kick badname =>
    obtain ⟨before, hbefore, rfl⟩ := Option.map_eq_some_iff.mp hc
    exact (h before hbefore).kickOrBan w guid badname false
  | ban badname =>
    obtain ⟨before, hbefore, rfl⟩ := Option.map_eq_some_iff.mp hc
    exact (h before hbefore).kickOrBan w guid badname true
  | unBan badname =>
    obtain ⟨before, hbefore, rfl⟩ := Option.map_eq_some_iff.mp hc
    exact (h before hbefore).unBan w guid badname
  | password pass =>
    obtain ⟨before, hbefore, rfl⟩ := Option.map_eq_some_iff.mp hc
    exact (h before hbefore).password w guid pass
  | setMode p2n mod set =>
    obtain ⟨before, hbefore, rfl⟩ := Option.map_eq_some_iff.mp hc
    exact (h before hbefore).setMode w guid p2n mod set
  | setInvisible on =>
    obtain ⟨before, hbefore, rfl⟩ := Option.map_eq_some_iff.mp hc
    exact (h before hbefore).setInvisible guid on
  | setOwner newname =>
    obtain ⟨before, hbefore, rfl⟩ := Option.map_eq_some_iff.mp hc
    exact (h before hbefore).setOwnerByName w guid newname

theorem kept_apply_iff (h : ∀ c ∈ channel, c.Sane ∧ c.Kept) :
    (∀ c ∈ Call.apply channel call, c.Kept) ↔ Fits channel call := by
  obtain ⟨w, guid, request⟩ := call
  cases channel with
  | none =>
    refine iff_of_true (fun c hc => ?_) fun c hc => by cases hc
    cases request with
    | joinChannel pass storedPassword storedBanned =>
      obtain rfl := Option.some.inj hc
      exact (Sane.kept_joinChannel_iff (sane_new _ _) (kept_new _ _) w guid pass).mpr
        fun _ hnone => absurd rfl hnone
    | _ => cases hc
  | some c =>
    obtain ⟨hsane, hkept⟩ := h c rfl
    cases request with
    | joinChannel pass storedPassword storedBanned =>
      simpa [Call.apply, handle, Fits] using
        hsane.kept_joinChannel_iff hkept w guid pass
    | kick badname =>
      simpa [Call.apply, handle, Fits] using
        hsane.kept_kickOrBan_iff hkept w guid badname false
    | ban badname =>
      simpa [Call.apply, handle, Fits] using
        hsane.kept_kickOrBan_iff hkept w guid badname true
    | leaveChannel =>
      refine iff_of_true (fun c' hc' => ?_) fun _ _ => trivial
      have hleft : c' = c.leaveChannel guid := mem_leftChannel hc'
      exact hleft ▸ hsane.kept_leaveChannel hkept guid
    | unBan badname =>
      refine iff_of_true (fun c' hc' => ?_) fun _ _ => trivial
      exact Option.some.inj hc' ▸ hkept.unBan w guid badname
    | password pass =>
      refine iff_of_true (fun c' hc' => ?_) fun _ _ => trivial
      exact Option.some.inj hc' ▸ hkept.password w guid pass
    | setMode p2n mod set =>
      refine iff_of_true (fun c' hc' => ?_) fun _ _ => trivial
      exact Option.some.inj hc' ▸ hkept.setMode w guid p2n mod set
    | setInvisible on =>
      refine iff_of_true (fun c' hc' => ?_) fun _ _ => trivial
      exact Option.some.inj hc' ▸ hkept.setInvisible guid on
    | setOwner newname =>
      refine iff_of_true (fun c' hc' => ?_) fun _ _ => trivial
      exact Option.some.inj hc' ▸ hkept.setOwnerByName w guid newname

theorem harmless_of_kept (h : ∀ c ∈ channel, c.Sane ∧ c.Kept) : Harmless channel call := by
  obtain ⟨w, guid, request⟩ := call
  intro c hc info hinfo hmoderator hpermission
  obtain ⟨hsane, hkept⟩ := h c hc
  obtain rfl := hc
  dsimp only at hinfo hpermission ⊢
  have hon : c.isOn guid = true := isOn_iff.mpr (mem_of_lookup hinfo)
  have hmay : c.mayModerate w guid = false := by
    simp [mayModerate, hinfo, hmoderator, hpermission]
  have hnotOwner : info.isOwner = false := by
    cases howner : info.isOwner with
    | false => rfl
    | true =>
      have hflag := (hsane.flags guid info hinfo howner).2
      rw [hmoderator] at hflag
      cases hflag
  have hother : c.ownerGuid ≠ some guid := by
    intro hguid
    obtain ⟨owner, ownerInfo, howner, hlookup, hflag⟩ := hkept ⟨guid, mem_of_lookup hinfo⟩
    obtain rfl := Option.some.inj (howner.symm.trans hguid)
    obtain rfl := Option.some.inj (hlookup.symm.trans hinfo)
    rw [hnotOwner] at hflag
    cases hflag
  cases request with
  | joinChannel pass storedPassword storedBanned =>
    exact ⟨c, congrArg some (if_pos hon), rfl, fun _ _ => rfl⟩
  | leaveChannel =>
    rcases hsane.leaveChannel_cases hinfo with ⟨_, hleave⟩ | ⟨howner, _⟩
    · refine ⟨c.removePlayer guid, ?_, rfl, fun k hk => lookup_removePlayer hk⟩
      obtain ⟨owner, ownerInfo, howner, hlookup, _⟩ := hkept ⟨guid, mem_of_lookup hinfo⟩
      have hne : owner ≠ guid := fun hsame => hother (hsame ▸ howner)
      have hmem : owner ∈ (c.removePlayer guid).playersStore :=
        mem_removePlayer.mpr ⟨hne, mem_of_lookup hlookup⟩
      refine (congrArg leftChannel hleave).trans (if_neg fun hempty => ?_)
      exact isEmpty_iff.mp hempty owner hmem
    · rw [hnotOwner] at howner
      cases howner
  | kick badname =>
    exact ⟨c, congrArg some (if_pos (by simp [hmay])), rfl, fun _ _ => rfl⟩
  | ban badname =>
    exact ⟨c, congrArg some (if_pos (by simp [hmay])), rfl, fun _ _ => rfl⟩
  | unBan badname =>
    exact ⟨c, congrArg some (if_pos (by simp [hmay])), rfl, fun _ _ => rfl⟩
  | password pass =>
    exact ⟨c, congrArg some (if_pos (by simp [hmay])), rfl, fun _ _ => rfl⟩
  | setMode p2n mod set =>
    exact ⟨c, congrArg some (if_pos (by simp [hmay])), rfl, fun _ _ => rfl⟩
  | setInvisible on =>
    refine ⟨c.modifyPlayer guid fun info => { info with isInvisible := on }, ?_, rfl, ?_⟩
    · exact congrArg some ((if_pos hon).trans (if_neg hother))
    · intro k hk
      rw [lookup_modifyPlayer, if_neg hk]
  | setOwner newname =>
    refine ⟨c, congrArg some ((if_neg (by simp [hon])).trans (if_pos ?_)), rfl, fun _ _ => rfl⟩
    exact ⟨by simp [hpermission], hother⟩

theorem run_concat (before : List Call) (call : Call) :
    run (before ++ [call]) = Call.apply (run before) call := by
  rw [run, List.foldl_append]
  rfl

theorem sane_run (calls : List Call) : ∀ c ∈ run calls, c.Sane := by
  induction calls using List.reverseRecOn with
  | nil =>
    intro c hc
    cases hc
  | append_singleton before call ih =>
    rw [run_concat]
    exact sane_apply ih

/-- The channel is owned, and its members safe from each other, all along the runs whose calls
fit. -/
theorem channel_run_iff (calls : List Call) :
    ((∀ before later, calls = before ++ later → ∀ c ∈ run before, Owned c) ∧
      ∀ before call later, calls = before ++ call :: later → Harmless (run before) call) ↔
        ∀ before call later, calls = before ++ call :: later → Fits (run before) call := by
  constructor
  · rintro ⟨howned, _⟩ before call later rfl
    have hkept : ∀ c ∈ run before, c.Sane ∧ c.Kept := fun c hc =>
      ⟨sane_run before c hc, (sane_run before c hc).owned_iff.mp (howned before _ rfl c hc)⟩
    refine (kept_apply_iff hkept).mp fun c hc => ?_
    rw [← run_concat] at hc
    exact (sane_run _ c hc).owned_iff.mp (howned (before ++ [call]) later (by simp) c hc)
  · intro hfits
    have hkept : ∀ before later, calls = before ++ later → ∀ c ∈ run before, c.Kept := by
      refine of_beginnings (fun c hc => by cases hc) fun before call later hcalls hkept => ?_
      rw [run_concat]
      refine (kept_apply_iff fun c hc => ?_).mpr (hfits before call later hcalls)
      exact ⟨sane_run before c hc, hkept c hc⟩
    refine ⟨fun before later hcalls c hc => ?_, fun before call later hcalls => ?_⟩
    · exact (sane_run before c hc).owned_iff.mpr (hkept before later hcalls c hc)
    · exact harmless_of_kept fun c hc => ⟨sane_run before c hc, hkept before _ hcalls c hc⟩

def annaAndBert : World where
  name guid := if guid = 1 then "Anna" else "Bert"
  team _ := 0
  gmVisible _ := true
  changeChannelNotModerator _ := false
  twoSideInteraction _ := false
  findConnectedPlayerByName n := if n = "Anna" then some 1 else none
  find_name n guid h := by
    split at h
    · rename_i hn
      obtain rfl := Option.some.inj h
      exact hn.symm
    · cases h

/-- Anna makes the channel, Bert joins it, and Anna kicks herself. -/
theorem kicked_owner_owns : ¬ ∀ c ∈ run [⟨annaAndBert, 1, .joinChannel "" "" []⟩,
    ⟨annaAndBert, 2, .joinChannel "" "" []⟩, ⟨annaAndBert, 1, .kick "Anna"⟩], Owned c := by
  intro hall
  obtain ⟨owner, info, howner, hinfo, _⟩ := (hall _ rfl).owner ⟨2, by decide⟩
  obtain rfl := Option.some.inj howner
  cases hinfo

/-- A call that does not lift the ban of `k`: nobody unbans it, and a channel that is made again
reads the ban back. -/
def Spares (k : ObjectGuid) (call : Call) : Prop :=
  match call.request with
  | .unBan badname => call.world.findConnectedPlayerByName badname ≠ some k
  | .joinChannel _ _ storedBanned => k ∈ storedBanned
  | _ => True

section Banned
variable {k : ObjectGuid}

theorem Channel.banned_joinChannel (w : World) (c : Channel) (guid : ObjectGuid) (pass : String) :
    (c.joinChannel w guid pass).bannedStore = c.bannedStore := by
  rcases joinChannel_cases w c guid pass with ⟨hsame, _⟩ | ⟨_, _, _, joined, rfl, hjoin⟩
  · rw [hsame]
  · rw [hjoin]
    split <;> simp

theorem Channel.banned_leaveChannel (c : Channel) (guid : ObjectGuid) :
    (c.leaveChannel guid).bannedStore = c.bannedStore := by
  unfold leaveChannel
  split
  · rfl
  dsimp only
  split
  · split
    · rfl
    · split <;> simp [removePlayer]
  · rfl

theorem Channel.mem_kickOrBan (h : k ∈ c.bannedStore) (w : World) (good : ObjectGuid)
    (badname : String) (ban : Bool) : k ∈ (c.kickOrBan w good badname ban).bannedStore := by
  unfold kickOrBan
  split
  · exact h
  split
  · exact h
  rename_i victim _
  split
  · exact h
  dsimp only
  split
  · exact h
  have hmore : k ∈ if (ban && !c.isBanned victim) = true then victim :: c.bannedStore
      else c.bannedStore := by
    split
    · exact List.mem_cons_of_mem _ h
    · exact h
  generalize (if (ban && !c.isBanned victim) = true then victim :: c.bannedStore
    else c.bannedStore) = banned at hmore ⊢
  split
  · rw [setOwner_banned, modifyPlayer_banned]
    exact hmore
  · exact hmore

theorem banned_apply (hbanned : ∀ c ∈ channel, k ∈ c.bannedStore) (hspares : Spares k call) :
    ∀ c ∈ Call.apply channel call, k ∈ c.bannedStore := by
  obtain ⟨w, guid, request⟩ := call
  intro c hc
  cases request with
  | joinChannel pass storedPassword storedBanned =>
    obtain rfl := Option.some.inj hc
    rw [banned_joinChannel]
    cases channel with
    | none => exact hspares
    | some c => exact hbanned c rfl
  | leaveChannel =>
    obtain ⟨before, hbefore, hleft⟩ := Option.bind_eq_some_iff.mp hc
    rw [mem_leftChannel hleft, banned_leaveChannel]
    exact hbanned before hbefore
  | kick badname =>
    obtain ⟨before, hbefore, rfl⟩ := Option.map_eq_some_iff.mp hc
    exact mem_kickOrBan (hbanned before hbefore) w guid badname false
  | ban badname =>
    obtain ⟨before, hbefore, rfl⟩ := Option.map_eq_some_iff.mp hc
    exact mem_kickOrBan (hbanned before hbefore) w guid badname true
  | unBan badname =>
    obtain ⟨before, hbefore, rfl⟩ := Option.map_eq_some_iff.mp hc
    unfold Channel.unBan
    split
    · exact hbanned before hbefore
    split
    · exact hbanned before hbefore
    · rename_i victim hfind
      refine List.mem_filter.mpr ⟨hbanned before hbefore, decide_eq_true fun hk => ?_⟩
      exact hspares (hk ▸ hfind)
  | password pass =>
    obtain ⟨before, hbefore, rfl⟩ := Option.map_eq_some_iff.mp hc
    unfold Channel.password
    split <;> exact hbanned before hbefore
  | setMode p2n mod set =>
    obtain ⟨before, hbefore, rfl⟩ := Option.map_eq_some_iff.mp hc
    unfold Channel.setMode
    repeat' split
    all_goals exact hbanned before hbefore
  | setInvisible on =>
    obtain ⟨before, hbefore, rfl⟩ := Option.map_eq_some_iff.mp hc
    unfold Channel.setInvisible
    dsimp only
    repeat' split
    all_goals exact hbanned before hbefore
  | setOwner newname =>
    obtain ⟨before, hbefore, rfl⟩ := Option.map_eq_some_iff.mp hc
    have hsame : (before.setOwnerByName w guid newname).bannedStore = before.bannedStore := by
      unfold Channel.setOwnerByName
      repeat' split
      all_goals simp
    exact hsame ▸ hbanned before hbefore

/-- Who is banned stays banned and outside, whatever is asked of the channel, until somebody lifts
the ban. -/
theorem banned_run {before later : List Call} (hbanned : ∀ c ∈ run before, k ∈ c.bannedStore)
    (hspares : ∀ call ∈ later, Spares k call) :
    ∀ c ∈ run (before ++ later), k ∈ c.bannedStore ∧ k ∉ c.playersStore := by
  have hstays : ∀ c ∈ run (before ++ later), k ∈ c.bannedStore := by
    induction later using List.reverseRecOn with
    | nil => rwa [List.append_nil]
    | append_singleton done call ih =>
      rw [← List.append_assoc, run_concat]
      have hdone := ih fun call hcall => hspares call (List.mem_append_left _ hcall)
      exact banned_apply hdone (hspares call (List.mem_append_right _ List.mem_cons_self))
  exact fun c hc => ⟨hstays c hc, (sane_run _ c hc).banned k (hstays c hc)⟩

end Banned

/-- Bert, who may moderate, bans Anna; she does not come in again. -/
theorem banned_run_anna :
    ∃ c, run [⟨annaAndBert, 2, .joinChannel "" "" []⟩, ⟨annaAndBert, 1, .joinChannel "" "" []⟩,
      ⟨annaAndBert, 2, .ban "Anna"⟩, ⟨annaAndBert, 1, .joinChannel "" "" [1]⟩] = some c ∧
        1 ∈ c.bannedStore ∧ 1 ∉ c.playersStore := by
  refine ⟨_, rfl, @banned_run 1 [⟨annaAndBert, 2, .joinChannel "" "" []⟩,
    ⟨annaAndBert, 1, .joinChannel "" "" []⟩, ⟨annaAndBert, 2, .ban "Anna"⟩]
    [⟨annaAndBert, 1, .joinChannel "" "" [1]⟩] ?_ ?_ _ rfl⟩
  · intro c hc
    obtain rfl := Option.some.inj hc
    decide
  · intro call hcall
    rw [List.mem_singleton.mp hcall]
    exact List.mem_cons_self

end Ashamane.Channels
