import Ashamane.Channels.Basic

/-! The owner of a custom channel, over all requests. -/
namespace Ashamane.Channels
open Ashamane.Lib

namespace Channel
variable {c : Channel} {w : World} {guid k : ObjectGuid} {f : PlayerInfo → PlayerInfo}

@[simp] theorem modifyPlayer_banned : (c.modifyPlayer guid f).bannedStore = c.bannedStore := rfl

theorem lookup_modifyPlayer : (c.modifyPlayer guid f).playersStore.lookup k =
    if k = guid then (c.playersStore.lookup k).map f else c.playersStore.lookup k :=
  Assoc.lookup_modify ..

@[simp] theorem mem_modifyPlayer :
    k ∈ (c.modifyPlayer guid f).playersStore ↔ k ∈ c.playersStore := Assoc.mem_mapVal

@[simp] theorem setOwner_enabled : (c.setOwner guid).ownershipEnabled = c.ownershipEnabled := by
  unfold setOwner
  cases c.ownerGuid <;> rfl

@[simp] theorem setOwner_banned : (c.setOwner guid).bannedStore = c.bannedStore := by
  unfold setOwner
  cases c.ownerGuid <;> rfl

theorem lookup_setOwner : (c.setOwner guid).playersStore.lookup k =
    if k = guid then (c.playersStore.lookup k).map fun info =>
      { info with isModerator := true, isOwner := true }
    else if c.ownerGuid = some k then (c.playersStore.lookup k).map fun info =>
      { info with isOwner := false }
    else c.playersStore.lookup k := by
  unfold setOwner
  rw [lookup_modifyPlayer]
  cases howner : c.ownerGuid with
  | none => simp
  | some owner =>
    dsimp only
    rw [lookup_modifyPlayer]
    by_cases hk : k = owner
    · subst hk
      simp [Function.comp_def]
    · have hne : owner ≠ k := fun h => hk h.symm
      simp [hk, hne]

@[simp] theorem mem_setOwner : k ∈ (c.setOwner guid).playersStore ↔ k ∈ c.playersStore := by
  rw [← AList.lookup_isSome, ← AList.lookup_isSome, lookup_setOwner]
  split
  · rw [Option.isSome_map]
  · split
    · rw [Option.isSome_map]
    · rfl

theorem isEmpty_iff {s : AList fun _ : ObjectGuid => PlayerInfo} :
    s.entries.isEmpty = true ↔ ∀ k, k ∉ s := by
  rw [List.isEmpty_iff]
  constructor
  · intro h k hk
    rw [AList.mem_keys, AList.keys, h] at hk
    cases hk
  · intro h
    refine List.eq_nil_iff_forall_not_mem.mpr fun entry hentry => h entry.1 ?_
    exact AList.mem_keys.mpr (List.mem_map_of_mem hentry)

structure Sane (c : Channel) : Prop where
  enabled : c.ownershipEnabled = true
  banned : ∀ guid ∈ c.bannedStore, guid ∉ c.playersStore
  flags : ∀ guid info, c.playersStore.lookup guid = some info → info.isOwner = true →
    c.ownerGuid = some guid ∧ info.isModerator = true

def Kept (c : Channel) : Prop :=
  (∃ guid, guid ∈ c.playersStore) → ∃ owner info, c.ownerGuid = some owner ∧
    c.playersStore.lookup owner = some info ∧ info.isOwner = true

theorem Sane.modifyPlayer (h : c.Sane) (hf : ∀ info, c.playersStore.lookup guid = some info →
    (f info).isOwner = info.isOwner ∧ (info.isOwner = true → (f info).isModerator = true)) :
    (c.modifyPlayer guid f).Sane where
  enabled := h.enabled
  banned k hk := by
    rw [mem_modifyPlayer]
    exact h.banned k hk
  flags k info hk howner := by
    rw [lookup_modifyPlayer] at hk
    split at hk
    · rename_i hsame
      subst hsame
      obtain ⟨before, hbefore, rfl⟩ := Option.map_eq_some_iff.mp hk
      obtain ⟨hflag, hmoderator⟩ := hf before hbefore
      rw [hflag] at howner
      exact ⟨(h.flags k before hbefore howner).1, hmoderator howner⟩
    · exact h.flags k info hk howner

theorem Sane.giveModerator (h : c.Sane) (guid : ObjectGuid) :
    (c.modifyPlayer guid fun info => { info with isModerator := true }).Sane :=
  h.modifyPlayer fun _ _ => ⟨rfl, fun _ => rfl⟩

theorem Sane.setOwner (h : c.Sane) (guid : ObjectGuid) : (c.setOwner guid).Sane where
  enabled := by rw [setOwner_enabled, h.enabled]
  banned k hk := by
    rw [setOwner_banned] at hk
    rw [mem_setOwner]
    exact h.banned k hk
  flags k info hk howner := by
    rw [lookup_setOwner] at hk
    by_cases hsame : k = guid
    · rw [if_pos hsame] at hk
      obtain ⟨before, _, rfl⟩ := Option.map_eq_some_iff.mp hk
      exact ⟨hsame ▸ rfl, rfl⟩
    · rw [if_neg hsame] at hk
      by_cases hold : c.ownerGuid = some k
      · rw [if_pos hold] at hk
        obtain ⟨before, _, rfl⟩ := Option.map_eq_some_iff.mp hk
        cases howner
      · rw [if_neg hold] at hk
        exact absurd (h.flags k info hk howner).1 hold

theorem kept_setOwner (hguid : guid ∈ c.playersStore) : (c.setOwner guid).Kept := by
  intro _
  obtain ⟨info, hinfo⟩ := Option.isSome_iff_exists.mp (AList.lookup_isSome.mpr hguid)
  refine ⟨guid, { info with isModerator := true, isOwner := true }, rfl, ?_, rfl⟩
  rw [lookup_setOwner, if_pos rfl, hinfo]
  rfl

theorem Kept.modifyPlayer (h : c.Kept) (hf : ∀ info, (f info).isOwner = info.isOwner) :
    (c.modifyPlayer guid f).Kept := by
  rintro ⟨k, hk⟩
  obtain ⟨owner, info, howner, hinfo, hflag⟩ := h ⟨k, mem_modifyPlayer.mp hk⟩
  by_cases hsame : owner = guid
  · refine ⟨owner, f info, howner, ?_, (hf info).trans hflag⟩
    rw [lookup_modifyPlayer, if_pos hsame, hinfo]
    rfl
  · exact ⟨owner, info, howner, by rw [lookup_modifyPlayer, if_neg hsame, hinfo], hflag⟩

@[simp] theorem mem_removePlayer :
    k ∈ (c.removePlayer guid).playersStore ↔ k ≠ guid ∧ k ∈ c.playersStore := AList.mem_erase

theorem lookup_removePlayer (h : k ≠ guid) :
    (c.removePlayer guid).playersStore.lookup k = c.playersStore.lookup k :=
  AList.lookup_erase_ne h

theorem mem_of_lookup {info : PlayerInfo} (h : c.playersStore.lookup k = some info) :
    k ∈ c.playersStore := AList.lookup_isSome.mp (Option.isSome_iff_exists.mpr ⟨info, h⟩)

theorem Kept.removePlayer (h : c.Kept) (hguid : c.ownerGuid ≠ some guid) :
    (c.removePlayer guid).Kept := by
  rintro ⟨k, hk⟩
  obtain ⟨owner, info, howner, hinfo, hflag⟩ := h ⟨k, (mem_removePlayer.mp hk).2⟩
  have hne : owner ≠ guid := fun hsame => hguid (hsame ▸ howner)
  exact ⟨owner, info, howner, (lookup_removePlayer hne).trans hinfo, hflag⟩

theorem Sane.removePlayer (h : c.Sane) (guid : ObjectGuid) : (c.removePlayer guid).Sane where
  enabled := h.enabled
  banned k hk hmem := h.banned k hk (mem_removePlayer.mp hmem).2
  flags k info hk := by
    rw [lookup_removePlayer (mem_removePlayer.mp (mem_of_lookup hk)).1] at hk
    exact h.flags k info hk

section Requests

theorem mayModerate_iff : c.mayModerate w guid = true ↔ ∃ info, c.playersStore.lookup guid =
    some info ∧ (info.isModerator = true ∨ w.changeChannelNotModerator guid = true) := by
  cases hinfo : c.playersStore.lookup guid with
  | none => simp [mayModerate, hinfo]
  | some info => simp [mayModerate, hinfo]

theorem isOn_iff : c.isOn guid = true ↔ guid ∈ c.playersStore := decide_eq_true_iff

/-- A join is refused, or the player is in, as the owner or not. -/
theorem joinChannel_cases (w : World) (c : Channel) (guid : ObjectGuid) (pass : String) :
    (c.joinChannel w guid pass = c ∧ (guid ∈ c.playersStore ∨ guid ∈ c.bannedStore ∨
        (c.channelPassword ≠ "" ∧ pass ≠ c.channelPassword))) ∨
      (guid ∉ c.playersStore ∧ guid ∉ c.bannedStore ∧
        ¬(c.channelPassword ≠ "" ∧ pass ≠ c.channelPassword) ∧
        ∃ joined, joined = { c with
            playersStore := c.playersStore.insert guid (.joined !w.gmVisible guid) } ∧
          c.joinChannel w guid pass =
            if c.ownershipEnabled = true ∧
                (c.playersStore.entries.isEmpty = true ∨ w.gmVisible guid = true) ∧
                (c.ownerGuid = none ∨ c.isOwnerInvisible = true) then
              ({ joined with isOwnerInvisible := !w.gmVisible guid }.setOwner guid).modifyPlayer
                guid fun info => { info with isModerator := true }
            else joined) := by
  unfold joinChannel isOn isBanned
  by_cases hon : guid ∈ c.playersStore
  · exact .inl ⟨by simp [hon], .inl hon⟩
  · by_cases hbanned : guid ∈ c.bannedStore
    · exact .inl ⟨by simp [hbanned], .inr (.inl hbanned)⟩
    · by_cases hpass : c.channelPassword ≠ "" ∧ pass ≠ c.channelPassword
      · refine .inl ⟨?_, .inr (.inr hpass)⟩
        rw [if_neg (by simpa using hon), if_neg (by simpa using hbanned), if_pos hpass]
      · refine .inr ⟨hon, hbanned, hpass, _, rfl, ?_⟩
        rw [if_neg (by simpa using hon), if_neg (by simpa using hbanned), if_neg hpass]
        simp only [Bool.and_eq_true, Bool.or_eq_true, Bool.not_not, Option.isNone_iff_eq_none,
          and_assoc]

theorem Sane.joined (h : c.Sane) (hguid : guid ∉ c.playersStore) (hbanned : guid ∉ c.bannedStore)
    (isInvisible : Bool) :
    { c with playersStore := c.playersStore.insert guid (.joined isInvisible) }.Sane where
  enabled := h.enabled
  banned k hk hmem := by
    cases (AList.mem_insert _).mp hmem with
    | inl hsame => exact hbanned (hsame ▸ hk)
    | inr hold => exact h.banned k hk hold
  flags k info hk howner := by
    by_cases hsame : k = guid
    · subst hsame
      rw [AList.lookup_insert] at hk
      obtain rfl := Option.some.inj hk
      cases howner
    · rw [AList.lookup_insert_ne hsame] at hk
      exact h.flags k info hk howner

theorem Sane.joinChannel (h : c.Sane) (w : World) (guid : ObjectGuid) (pass : String) :
    (c.joinChannel w guid pass).Sane := by
  rcases joinChannel_cases w c guid pass with ⟨hsame, _⟩ | ⟨hon, hbanned, _, joined, rfl, hjoin⟩
  · rwa [hsame]
  · rw [hjoin]
    have hjoined := h.joined hon hbanned (!w.gmVisible guid)
    split
    · refine Sane.giveModerator (Sane.setOwner ?_ guid) guid
      exact ⟨hjoined.enabled, hjoined.banned, hjoined.flags⟩
    · exact hjoined

/-- The channel that a player joins is kept, unless an owner that left it empty stands in the
way. -/
theorem Sane.kept_joinChannel_iff (h : c.Sane) (hkept : c.Kept) (w : World) (guid : ObjectGuid)
    (pass : String) : (c.joinChannel w guid pass).Kept ↔
      ((∀ k, k ∉ c.playersStore) → c.ownerGuid ≠ none → c.isOwnerInvisible = true ∨
        guid ∈ c.bannedStore ∨ (c.channelPassword ≠ "" ∧ pass ≠ c.channelPassword)) := by
  rcases joinChannel_cases w c guid pass with ⟨hsame, hwhy⟩ | ⟨hon, hbanned, hpass, joined, rfl, hjoin⟩
  · rw [hsame]
    refine iff_of_true hkept fun hempty _ => ?_
    exact .inr (hwhy.resolve_left (hempty guid))
  · rw [hjoin]
    by_cases hempty : ∀ k, k ∉ c.playersStore
    · have hisEmpty := isEmpty_iff.mpr hempty
      by_cases howner : c.ownerGuid = none ∨ c.isOwnerInvisible = true
      · rw [if_pos ⟨h.enabled, .inl hisEmpty, howner⟩]
        refine iff_of_true (Kept.modifyPlayer (kept_setOwner ?_) fun _ => rfl) fun _ hsome => ?_
        · exact (AList.mem_insert _).mpr (.inl rfl)
        · exact .inl (howner.resolve_left hsome)
      · rw [if_neg fun hall => howner hall.2.2]
        rw [not_or] at howner
        refine iff_of_false (fun hkept' => ?_) fun hall => ?_
        · obtain ⟨owner, info, _, hinfo, hflag⟩ :=
            hkept' ⟨guid, (AList.mem_insert _).mpr (.inl rfl)⟩
          cases (AList.mem_insert _).mp (mem_of_lookup hinfo) with
          | inl hsame =>
            subst hsame
            rw [AList.lookup_insert] at hinfo
            obtain rfl := Option.some.inj hinfo
            cases hflag
          | inr hold => exact hempty owner hold
        · rcases hall hempty howner.1 with hinvisible | hban | hwrong
          · exact howner.2 hinvisible
          · exact hbanned hban
          · exact hpass hwrong
    · refine iff_of_true ?_ fun hnone => absurd hnone hempty
      split
      · exact Kept.modifyPlayer (kept_setOwner ((AList.mem_insert _).mpr (.inl rfl))) fun _ => rfl
      · intro _
        push Not at hempty
        obtain ⟨owner, info, howner, hinfo, hflag⟩ := hkept hempty
        have hne : owner ≠ guid := by
          rintro rfl
          exact hon (AList.lookup_isSome.mp (hinfo ▸ rfl))
        exact ⟨owner, info, howner, (AList.lookup_insert_ne hne).trans hinfo, hflag⟩

theorem mem_of_nextOwner {k : ObjectGuid} (h : c.nextOwner = some k) : k ∈ c.playersStore := by
  unfold nextOwner at h
  cases Option.or_eq_some_iff.mp h with
  | inl hvisible =>
    exact AList.mem_keys.mpr (List.mem_filter.mp (List.min?_mem hvisible)).1
  | inr hfirst => exact AList.mem_keys.mpr (List.min?_mem hfirst.2)

theorem nextOwner_eq_none (h : c.nextOwner = none) (k : ObjectGuid) : k ∉ c.playersStore := by
  intro hk
  have hkeys := List.min?_eq_none_iff.mp (Option.or_eq_none_iff.mp h).2
  rw [AList.mem_keys, hkeys] at hk
  cases hk

/-- The owner that leaves is followed by another member; any other member only goes. -/
theorem Sane.leaveChannel_cases (h : c.Sane) {info : PlayerInfo}
    (hinfo : c.playersStore.lookup guid = some info) :
    (info.isOwner = false ∧ c.leaveChannel guid = c.removePlayer guid) ∨
      (info.isOwner = true ∧ (c.leaveChannel guid).Sane ∧ (c.leaveChannel guid).Kept) := by
  have henabled : (c.removePlayer guid).ownershipEnabled = true := h.enabled
  unfold leaveChannel
  rw [hinfo]
  dsimp only
  rw [henabled, Bool.and_true]
  cases howner : info.isOwner with
  | false => exact .inl ⟨rfl, if_neg (by simp)⟩
  | true =>
    refine .inr ⟨rfl, ?_⟩
    rw [if_pos rfl]
    have hleft := h.removePlayer guid
    cases hnext : (c.removePlayer guid).nextOwner with
    | none => exact ⟨hleft, fun ⟨k, hk⟩ => absurd hk (nextOwner_eq_none hnext k)⟩
    | some newowner =>
      dsimp only
      have hsane := (hleft.giveModerator newowner).setOwner newowner
      have hkept : (((c.removePlayer guid).modifyPlayer newowner fun info =>
          { info with isModerator := true }).setOwner newowner).Kept :=
        kept_setOwner (mem_modifyPlayer.mpr (mem_of_nextOwner hnext))
      split
      · exact ⟨⟨hsane.enabled, hsane.banned, hsane.flags⟩, hkept⟩
      · exact ⟨hsane, hkept⟩

theorem Sane.leaveChannel (h : c.Sane) (guid : ObjectGuid) : (c.leaveChannel guid).Sane := by
  cases hinfo : c.playersStore.lookup guid with
  | none =>
    unfold Channel.leaveChannel
    rwa [hinfo]
  | some info =>
    rcases h.leaveChannel_cases hinfo with ⟨_, hleave⟩ | ⟨_, hsane, _⟩
    · exact hleave ▸ h.removePlayer guid
    · exact hsane

theorem Sane.kept_leaveChannel (h : c.Sane) (hkept : c.Kept) (guid : ObjectGuid) :
    (c.leaveChannel guid).Kept := by
  cases hinfo : c.playersStore.lookup guid with
  | none =>
    unfold Channel.leaveChannel
    rwa [hinfo]
  | some info =>
    rcases h.leaveChannel_cases hinfo with ⟨hnot, hleave⟩ | ⟨_, _, hkept⟩
    · rw [hleave]
      refine hkept.removePlayer fun hguid => ?_
      obtain ⟨owner, ownerInfo, howner, hlookup, hflag⟩ := hkept ⟨guid, mem_of_lookup hinfo⟩
      obtain rfl := Option.some.inj (howner.symm.trans hguid)
      obtain rfl := Option.some.inj (hlookup.symm.trans hinfo)
      rw [hnot] at hflag
      cases hflag
    · exact hkept

def kicked (c : Channel) (victim : ObjectGuid) (banned : List ObjectGuid) : Channel :=
  { c with bannedStore := banned }.removePlayer victim

theorem Sane.kicked (h : c.Sane) {victim : ObjectGuid} {banned : List ObjectGuid}
    (hbanned : ∀ k ∈ banned, k ∈ c.bannedStore ∨ k = victim) : (c.kicked victim banned).Sane where
  enabled := h.enabled
  banned k hk hmem := by
    obtain ⟨hne, hmem⟩ := AList.mem_erase.mp hmem
    exact h.banned k ((hbanned k hk).resolve_right hne) hmem
  flags := (h.removePlayer victim).flags

/-- A kick or ban is refused, or the victim goes; the kicker follows an owner. -/
theorem Sane.kickOrBan_cases (h : c.Sane) (w : World) (good : ObjectGuid) (badname : String)
    (ban : Bool) : (c.kickOrBan w good badname ban = c ∧
        (w.findConnectedPlayerByName badname = some good → good ∈ c.playersStore →
          c.mayModerate w good = false)) ∨
      ∃ victim banned, w.findConnectedPlayerByName badname = some victim ∧
        victim ∈ c.playersStore ∧ c.mayModerate w good = true ∧
        (∀ k ∈ banned, k ∈ c.bannedStore ∨ k = victim) ∧
        ((c.ownerGuid = some victim ∧ (∃ k, k ∈ (c.kicked victim banned).playersStore) ∧
            c.kickOrBan w good badname ban = ((c.kicked victim banned).modifyPlayer good
              fun info => { info with isModerator := true }).setOwner good) ∨
          ((c.ownerGuid ≠ some victim ∨ ∀ k, k ∉ (c.kicked victim banned).playersStore) ∧
            c.kickOrBan w good badname ban = c.kicked victim banned)) := by
  unfold kickOrBan
  by_cases hmay : c.mayModerate w good = true
  · rw [if_neg (by simpa using hmay)]
    cases hfind : w.findConnectedPlayerByName badname with
    | none => exact .inl ⟨rfl, fun hnone => by cases hnone⟩
    | some victim =>
      dsimp only
      by_cases hon : c.isOn victim = true
      · rw [if_neg (by simpa using hon)]
        split
        · rename_i hrefused
          refine .inl ⟨rfl, fun hsame => ?_⟩
          obtain rfl := Option.some.inj hsame
          simp at hrefused
        · generalize hbanned : (if (ban && !c.isBanned victim) = true then victim :: c.bannedStore
            else c.bannedStore) = banned
          refine .inr ⟨victim, banned, rfl, isOn_iff.mp hon, hmay, fun k hk => ?_, ?_⟩
          · rw [← hbanned] at hk
            split at hk
            · exact (List.mem_cons.mp hk).symm
            · exact .inl hk
          change (_ ∧ _ ∧ (if _ ∧ c.ownershipEnabled = true ∧
            (!(c.kicked victim banned).playersStore.entries.isEmpty) = true then _ else _) = _) ∨
              (_ ∧ (if _ ∧ c.ownershipEnabled = true ∧
            (!(c.kicked victim banned).playersStore.entries.isEmpty) = true then _ else _) = _)
          by_cases howner : c.ownerGuid = some victim
          · by_cases hempty : ∀ k, k ∉ (c.kicked victim banned).playersStore
            · have hisEmpty := isEmpty_iff.mpr hempty
              exact .inr ⟨.inr hempty, if_neg (by simp [hisEmpty])⟩
            · have hisEmpty := (isEmpty_iff (s := (c.kicked victim banned).playersStore)).not.mpr
                hempty
              push Not at hempty
              exact .inl ⟨howner, hempty, if_pos ⟨by simp [howner], h.enabled, by simpa using hisEmpty⟩⟩
          · exact .inr ⟨.inl howner, if_neg (by simp [howner])⟩
      · refine .inl ⟨if_pos (by simpa using hon), fun hsame hgood => ?_⟩
        obtain rfl := Option.some.inj hsame
        exact absurd (isOn_iff.mpr hgood) hon
  · exact .inl ⟨if_pos (by simpa using hmay), fun _ _ => by simpa using hmay⟩

theorem Sane.kickOrBan (h : c.Sane) (w : World) (good : ObjectGuid) (badname : String)
    (ban : Bool) : (c.kickOrBan w good badname ban).Sane := by
  rcases h.kickOrBan_cases w good badname ban with
    ⟨hsame, _⟩ | ⟨victim, banned, _, _, _, hbanned, hcases⟩
  · rwa [hsame]
  · have hkicked := h.kicked hbanned
    rcases hcases with ⟨_, _, hkick⟩ | ⟨_, hkick⟩
    · exact hkick ▸ (hkicked.giveModerator good).setOwner good
    · exact hkick ▸ hkicked

theorem Sane.mayModerate_owner (h : c.Sane) (hkept : c.Kept) {owner : ObjectGuid}
    (howner : c.ownerGuid = some owner) (hmem : ∃ k, k ∈ c.playersStore) :
    owner ∈ c.playersStore ∧ c.mayModerate w owner = true := by
  obtain ⟨other, info, hother, hinfo, hflag⟩ := hkept hmem
  obtain rfl := Option.some.inj (hother.symm.trans howner)
  exact ⟨mem_of_lookup hinfo,
    mayModerate_iff.mpr ⟨info, hinfo, .inl (h.flags other info hinfo hflag).2⟩⟩

/-- An owner is followed unless it kicked or banned itself, with others in the channel. -/
theorem Sane.kept_kickOrBan_iff (h : c.Sane) (hkept : c.Kept) (w : World) (good : ObjectGuid)
    (badname : String) (ban : Bool) : (c.kickOrBan w good badname ban).Kept ↔
      (w.findConnectedPlayerByName badname = some good → c.ownerGuid = some good →
        ∀ k ∈ c.playersStore, k = good) := by
  rcases h.kickOrBan_cases w good badname ban with
    ⟨hsame, hrefused⟩ | ⟨victim, banned, hfind, hvictim, hmay, hbanned, hcases⟩
  · rw [hsame]
    refine iff_of_true hkept fun hfind howner k hk => ?_
    obtain ⟨hon, hmay⟩ := h.mayModerate_owner (w := w) hkept howner ⟨k, hk⟩
    rw [hrefused hfind hon] at hmay
    cases hmay
  rcases hcases with ⟨howner, ⟨k, hk⟩, hkick⟩ | ⟨hnobody, hkick⟩
  · rw [hkick]
    by_cases hself : good = victim
    · subst hself
      refine iff_of_false (fun hkept' => ?_) fun hall => ?_
      · obtain ⟨owner, info, howner', hinfo, _⟩ := hkept' ⟨k, by simpa using hk⟩
        obtain rfl := Option.some.inj howner'
        have hmem := mem_of_lookup hinfo
        rw [mem_setOwner, mem_modifyPlayer] at hmem
        exact (mem_removePlayer.mp hmem).1 rfl
      · obtain ⟨hne, hmem⟩ := mem_removePlayer.mp hk
        exact hne (hall hfind howner k hmem)
    · refine iff_of_true (kept_setOwner ?_) fun hfind' => ?_
      · obtain ⟨info, hinfo, _⟩ := mayModerate_iff.mp hmay
        exact mem_modifyPlayer.mpr (mem_removePlayer.mpr ⟨hself, mem_of_lookup hinfo⟩)
      · exact absurd (Option.some.inj (hfind'.symm.trans hfind)) hself
  · rw [hkick]
    refine iff_of_true ?_ fun hfind' howner k hk => ?_
    · cases hnobody with
      | inl hother =>
        have hremoved := hkept.removePlayer hother
        exact hremoved
      | inr hempty => exact fun ⟨k, hk⟩ => absurd hk (hempty k)
    · obtain rfl := Option.some.inj (hfind'.symm.trans hfind)
      by_contra hne
      exact (hnobody.resolve_left fun hother => hother howner) k (mem_removePlayer.mpr ⟨hne, hk⟩)

theorem Sane.unBan (h : c.Sane) (w : World) (good : ObjectGuid) (badname : String) :
    (c.unBan w good badname).Sane := by
  unfold Channel.unBan
  split
  · exact h
  · split
    · exact h
    · exact ⟨h.enabled, fun k hk => h.banned k (List.mem_filter.mp hk).1, h.flags⟩

theorem Sane.password (h : c.Sane) (w : World) (guid : ObjectGuid) (pass : String) :
    (c.password w guid pass).Sane := by
  unfold Channel.password
  split
  · exact h
  · exact ⟨h.enabled, h.banned, h.flags⟩

/-- No request of others, and none of its own, takes the moderator flag of the owner. -/
theorem Sane.setMode (h : c.Sane) (w : World) (guid : ObjectGuid) (p2n : String)
    (mod set : Bool) : (c.setMode w guid p2n mod set).Sane := by
  unfold Channel.setMode
  split
  · exact h
  split
  · exact h
  rename_i hown
  split
  · exact h
  rename_i victim hfind
  split
  · exact h
  split
  · exact h
  rename_i hother
  cases mod with
  | false =>
    refine h.modifyPlayer fun info hinfo => ⟨rfl, fun howner => ?_⟩
    exact (h.flags victim info hinfo howner).2
  | true =>
    refine h.modifyPlayer fun info hinfo => ⟨rfl, fun howner => ?_⟩
    obtain ⟨hvictim, _⟩ := h.flags victim info hinfo howner
    by_cases hguid : c.ownerGuid = some guid
    · obtain rfl := Option.some.inj (hvictim.symm.trans hguid)
      exact absurd ⟨hguid, (w.find_name p2n victim hfind).symm, rfl⟩ hown
    · exact absurd ⟨hvictim, hguid⟩ hother

theorem Sane.setInvisible (h : c.Sane) (guid : ObjectGuid) (on : Bool) :
    (c.setInvisible guid on).Sane := by
  have hmodified : (c.modifyPlayer guid fun info => { info with isInvisible := on }).Sane :=
    h.modifyPlayer fun info hinfo => ⟨rfl, fun howner => (h.flags guid info hinfo howner).2⟩
  unfold Channel.setInvisible
  split
  · dsimp only
    split
    · exact ⟨hmodified.enabled, hmodified.banned, hmodified.flags⟩
    · exact hmodified
  · exact h

theorem Sane.setOwnerByName (h : c.Sane) (w : World) (guid : ObjectGuid) (newname : String) :
    (c.setOwnerByName w guid newname).Sane := by
  unfold Channel.setOwnerByName
  split
  · exact h
  split
  · exact h
  split
  · exact h
  rename_i victim _
  split
  · exact h
  · exact (h.giveModerator victim).setOwner victim

theorem Kept.unBan (h : c.Kept) (w : World) (good : ObjectGuid) (badname : String) :
    (c.unBan w good badname).Kept := by
  unfold Channel.unBan
  split
  · exact h
  · split
    · exact h
    · exact h

theorem Kept.password (h : c.Kept) (w : World) (guid : ObjectGuid) (pass : String) :
    (c.password w guid pass).Kept := by
  unfold Channel.password
  split
  · exact h
  · exact h

theorem Kept.setMode (h : c.Kept) (w : World) (guid : ObjectGuid) (p2n : String)
    (mod set : Bool) : (c.setMode w guid p2n mod set).Kept := by
  unfold Channel.setMode
  split
  · exact h
  split
  · exact h
  split
  · exact h
  split
  · exact h
  split
  · exact h
  split
  · exact h.modifyPlayer fun _ => rfl
  · exact h.modifyPlayer fun _ => rfl

theorem Kept.setInvisible (h : c.Kept) (guid : ObjectGuid) (on : Bool) :
    (c.setInvisible guid on).Kept := by
  have hmodified : (c.modifyPlayer guid fun info => { info with isInvisible := on }).Kept :=
    h.modifyPlayer fun _ => rfl
  unfold Channel.setInvisible
  split
  · dsimp only
    split
    · exact hmodified
    · exact hmodified
  · exact h

theorem Kept.setOwnerByName (h : c.Kept) (w : World) (guid : ObjectGuid) (newname : String) :
    (c.setOwnerByName w guid newname).Kept := by
  unfold Channel.setOwnerByName
  split
  · exact h
  split
  · exact h
  split
  · exact h
  rename_i victim _
  split
  · exact h
  · rename_i hon
    simp only [Bool.or_eq_true, Bool.not_eq_true', not_or, Bool.not_eq_false] at hon
    exact kept_setOwner (mem_modifyPlayer.mpr (isOn_iff.mp hon.1))

end Requests

end Channel

end Ashamane.Channels
