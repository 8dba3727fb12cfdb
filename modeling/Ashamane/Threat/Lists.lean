import Ashamane.Threat.Changes
import Mathlib.Algebra.Ring.Int.Defs
import Mathlib.Algebra.Ring.Nat
import Mathlib.Algebra.Ring.Rat
import Mathlib.Data.Rat.Defs

/-! Every run of calls keeps the two threat lists apart and the current victim online. -/
namespace Ashamane.Threat.ThreatManager

open Ashamane.Lib

variable {F : Type}

theorem Sound.update_list {s : ThreatManager F} (hs : Sound s) {l : List Address}
    (hl : l.Perm s.online) (d : Bool) :
    Sound { s with iThreatContainer := { iThreatList := l, iDirty := d } } where
  online p hp := hs.online p (hl.mem_iff.1 hp)
  offline := hs.offline
  onlineNodup := hl.nodup_iff.2 hs.onlineNodup
  offlineNodup := hs.offlineNodup
  unique p q u b b' t t' hp hq :=
    hs.unique p q u b b' t t' (hp.imp_left hl.mem_iff.1) (hq.imp_left hl.mem_iff.1)
  victim v hv := hl.mem_iff.2 (hs.victim v hv)
  fresh := hs.fresh
  linked p u b t h := ⟨(hs.linked p u b t h).1.imp_left hl.mem_iff.2, (hs.linked p u b t h).2⟩

theorem Sound.clearReferences {s : ThreatManager F} (hs : Sound s) : Sound s.clearReferences where
  online p hp := nomatch hp
  offline p hp := nomatch hp
  onlineNodup := List.nodup_nil
  offlineNodup := List.nodup_nil
  unique p q u b b' l l' hp := (hp.elim nofun nofun)
  victim v hv := nomatch hv
  fresh p hp := by
    have h := hs.fresh p hp
    simp [ThreatManager.clearReferences, h]
  linked p u b t h := by
    by_cases hp : s.Listed p
    · have hnone : s.clearReferences.core p = none := by
        rw [core_eq_none]
        exact if_pos hp
      rw [hnone] at h
      exact nomatch h
    · have hsame : s.clearReferences.references p = s.references p := if_neg hp
      rw [ThreatManager.core, hsame] at h
      exact absurd (hs.linked p u b t h).1 hp

theorem Sound.remove {s : ThreatManager F} (hs : Sound s) {p : Address} {u : ObjectGuid}
    (hp : p ∈ s.offline) (hcut : s.core p = some (u, false, none)) :
    Sound { s with iThreatOfflineContainer := s.iThreatOfflineContainer.remove p } := by
  have hsub : ∀ q, q ∈ (s.iThreatOfflineContainer.remove p).iThreatList ↔ q ∈ s.offline ∧ q ≠ p :=
    fun q => by simp [ThreatContainer.remove]
  constructor
  case online => exact hs.online
  case offline => exact fun q hq => hs.offline q ((hsub q).1 hq).1
  case onlineNodup => exact hs.onlineNodup
  case offlineNodup => exact hs.offlineNodup.filter _
  case unique =>
    exact fun q q' u b b' l l' hq hq' => hs.unique q q' u b b' l l'
      (hq.imp_right fun h => ((hsub q).1 h).1) (hq'.imp_right fun h => ((hsub q').1 h).1)
  case victim => exact hs.victim
  case fresh => exact hs.fresh
  case linked =>
    intro q u' b t hq
    obtain ⟨hlisted, ht⟩ := hs.linked q u' b t hq
    have hne : q ≠ p := by
      rintro rfl
      have h : s.core q = some (u', b, some t) := hq
      simp [hcut] at h
    exact ⟨hlisted.imp_right fun h => (hsub q).2 ⟨h, hne⟩, ht⟩

theorem Sound.delete {s : ThreatManager F} (hs : Sound s) {p : Address} (hp : ¬ s.Listed p) :
    Sound { s with references := Function.update s.references p none } := by
  set t : ThreatManager F := { s with references := Function.update s.references p none } with ht
  have hcore : ∀ q, q ≠ p → t.core q = s.core q := fun q hq => by
    simp [ThreatManager.core, ht, hq]
  have hother : ∀ q, s.Listed q → q ≠ p := fun q hq h => hp (h ▸ hq)
  constructor
  case online => exact fun q hq => hcore q (hother q (.inl hq)) ▸ hs.online q hq
  case offline => exact fun q hq => hcore q (hother q (.inr hq)) ▸ hs.offline q hq
  case onlineNodup => exact hs.onlineNodup
  case offlineNodup => exact hs.offlineNodup
  case unique =>
    intro q q' u b b' l l' hq hq' hu hu'
    rw [hcore q (hother q hq)] at hu
    rw [hcore q' (hother q' hq')] at hu'
    exact hs.unique q q' u b b' l l' hq hq' hu hu'
  case victim => exact hs.victim
  case fresh =>
    intro q hq
    by_cases h : q = p
    · simp [ht, h]
    · simpa [ht, h] using hs.fresh q hq
  case linked =>
    intro q u b l hq
    by_cases h : q = p
    · simp [ThreatManager.core, ht, h] at hq
    · rw [hcore q h] at hq
      exact hs.linked q u b l hq

theorem Sound.noVictim {s : ThreatManager F} (hs : Sound s) : Sound (s.setCurrentVictim none) :=
  { hs with victim := nofun }

def Pass.From (list : List Address) (current : Option Address) : Pass → Prop
  | .ended next => ∀ q, next = some q → q ∈ list ∨ current = some q
  | .again current' => ∀ q, current' = some q → current = some q

theorem selectPass_mem [Float32 F] (w : World F) (s : ThreatManager F) (noPriority : Bool)
    (list : List Address) (current : Option Address) {pass : Pass}
    (h : s.selectPass w noPriority current list = some pass) : pass.From list current := by
  induction list generalizing current with
  | nil =>
    obtain rfl : Pass.ended none = pass := by simpa [selectPass] using h
    exact nofun
  | cons ref rest ih =>
    have hrest : ∀ c, (∀ q, c = some q → current = some q) →
        s.selectPass w noPriority c rest = some pass → pass.From (ref :: rest) current := by
      intro c hc hpass
      have hih := ih c hpass
      cases pass with
      | ended next =>
        exact fun q hq => (hih q hq).imp (List.mem_cons_of_mem ref) (hc q)
      | again current' => exact fun q hq => hc q (hih q hq)
    have hhead : (Pass.ended (some ref)).From (ref :: rest) current := by
      intro q hq
      exact .inl (Option.some.inj hq ▸ List.mem_cons_self)
    simp only [selectPass, Option.bind_eq_bind, Option.bind_eq_some_iff] at h
    obtain ⟨r, hr, target, htarget, h⟩ := h
    split at h
    · split at h
      · obtain rfl := Option.some.inj h
        exact fun q hq => hq
      · refine hrest (if current = some ref then none else current) (fun q hq => ?_) h
        split at hq
        · exact nomatch hq
        · exact hq
    · split at h
      · split at h
        · obtain rfl := Option.some.inj h
          exact hhead
        · obtain ⟨v, hv, h⟩ := Option.bind_eq_some_iff.1 h
          split at h
          · split at h
            · obtain ⟨victim, -, h⟩ := Option.bind_eq_some_iff.1 h
              obtain rfl := Option.some.inj h
              intro q hq
              split at hq
              · exact .inr hq
              · exact hhead q hq
            · obtain rfl := Option.some.inj h
              exact hhead
          · split at h
            · obtain rfl := Option.some.inj h
              exact hhead
            · exact hrest _ (fun q hq => hq) h
      · exact hrest _ (fun q hq => hq) h

theorem selectNextVictim_mem [Float32 F] (w : World F) {s : ThreatManager F}
    {current next : Option Address} (hcurrent : ∀ q, current = some q → q ∈ s.online)
    (h : s.selectNextVictim w current = some next) : ∀ q, next = some q → q ∈ s.online := by
  obtain ⟨pass, hpass, h⟩ := Option.bind_eq_some_iff.1 h
  have hmem := selectPass_mem w s false _ current hpass
  cases pass with
  | ended next' =>
    obtain rfl := Option.some.inj h
    exact fun q hq => (hmem q hq).elim id (hcurrent q)
  | again current' =>
    obtain ⟨pass', hpass', h⟩ := Option.bind_eq_some_iff.1 h
    have hmem' := selectPass_mem w s true _ current' hpass'
    cases pass' with
    | ended next' =>
      obtain rfl := Option.some.inj h
      exact fun q hq => (hmem' q hq).elim id fun hq => hcurrent q (hmem q hq)
    | again _ => exact nomatch h

variable {s t : ThreatManager F}

/-- A loop over the online container keeps what each visit keeps. -/
theorem eachOnline_keeps {visit : ThreatManager F → Address → Option (ThreatManager F)}
    (hvisit : ∀ s p t, Sound s → s.Listed p → visit s p = some t → Keeps s t) (fuel i : Nat)
    (hs : Sound s) (h : eachOnline visit fuel i s = some t) : Keeps s t := by
  induction fuel generalizing s i with
  | zero => exact nomatch h
  | succ fuel ih =>
    unfold eachOnline at h
    split at h
    · exact Option.some.inj h ▸ hs.keeps
    · rename_i p hp
      obtain ⟨s', hs', h⟩ := Option.bind_eq_some_iff.1 h
      have hk := hvisit s p s' hs (.inl (List.mem_of_getElem? hp)) hs'
      exact hk.trans (ih (i + 1) hk.1 h)

theorem Sound.listed (hs : Sound s) {p : Address} (hp : s.isValid p = true) : s.Listed p := by
  cases hr : s.references p with
  | none => simp [isValid, hr] at hp
  | some r =>
    obtain ⟨u, hu⟩ := Option.isSome_iff_exists.1 (show r.iRefTo.isSome = true by
      simpa [isValid, hr] using hp)
    exact (hs.linked p r.iUnitGuid r.iOnline u (by
      simp [ThreatManager.core, hr, HostileReference.core, hu])).1

theorem Sound.new (owner : ObjectGuid) : Sound ({ iOwner := owner } : ThreatManager F) where
  online := nofun
  offline := nofun
  onlineNodup := List.nodup_nil
  offlineNodup := List.nodup_nil
  unique _ _ _ _ _ _ _ hp := hp.elim nofun nofun
  victim := nofun
  fresh _ _ := rfl
  linked := nofun

def unitOf (s : ThreatManager F) (p : Address) : Option ObjectGuid :=
  (s.references p).map HostileReference.iUnitGuid

theorem Sound.nodup (hs : Sound s) : ((s.online ++ s.offline).map s.unitOf).Nodup := by
  have hdisjoint : ∀ p ∈ s.online, ∀ q ∈ s.offline, p ≠ q := by
    rintro p hp q hq rfl
    obtain ⟨u, hu⟩ := hs.online p hp
    obtain ⟨u', l, hu'⟩ := hs.offline p hq
    simp [hu] at hu'
  have hnodup : (s.online ++ s.offline).Nodup :=
    List.nodup_append.2 ⟨hs.onlineNodup, hs.offlineNodup, hdisjoint⟩
  refine hnodup.map_on fun p hp q hq heq => ?_
  have hp' : s.Listed p := List.mem_append.1 hp
  have hq' : s.Listed q := List.mem_append.1 hq
  obtain ⟨r, hr⟩ := hs.reference hp'
  obtain ⟨r', hr'⟩ := hs.reference hq'
  have hunit : r.iUnitGuid = r'.iUnitGuid := by simpa [unitOf, hr, hr'] using heq
  exact hs.unique p q r.iUnitGuid r.iOnline r'.iOnline r.iRefTo r'.iRefTo hp' hq'
    (by simp [ThreatManager.core, hr, HostileReference.core])
    (by simp [ThreatManager.core, hr', HostileReference.core, hunit])

variable [Float32 F]

theorem Sound.update (hs : Sound s) : Sound s.update := by
  refine hs.update_list ?_ false
  split
  · exact List.mergeSort_perm _ _
  · exact .refl _

theorem Sound.getHostilTarget (hs : Sound s) {w : World F} (h : s.getHostilTarget w = some t) :
    Sound t := by
  obtain ⟨next, hnext, h⟩ := Option.bind_eq_some_iff.1 h
  obtain rfl := Option.some.inj h
  have hupdate : Sound s.update := hs.update
  have hmem := selectNextVictim_mem w hupdate.victim hnext
  cases next with
  | none => exact hupdate.noVictim
  | some v => exact hupdate.setCurrentVictim (hmem v rfl)

theorem addTempThreat_keeps (hs : Sound s) {p : Address} (hp : s.Listed p) {threat : F}
    (h : s.addTempThreat p threat = some t) : Keeps s t := by
  obtain ⟨r, hr⟩ := hs.reference hp
  simp only [addTempThreat, hr, Option.bind_eq_bind, Option.bind_some] at h
  split at h
  · obtain rfl : s = t := by simpa using h
    exact hs.keeps
  · have hwrite : Alike s (s.write p
        { r with iTempThreatModifier := r.iTempThreatModifier + threat }) := alike_write hr rfl
    have hr' : (s.write p { r with
        iTempThreatModifier := r.iTempThreatModifier + threat }).references p = some { r with
          iTempThreatModifier := r.iTempThreatModifier + threat } := by simp [write]
    obtain ⟨t', ht', halike⟩ := processThreatEvent_threatChange hr' threat
    obtain rfl : t' = t := Option.some.inj (ht'.symm.trans h)
    exact (hwrite.trans halike).keeps hs

theorem resetTempThreat_keeps (hs : Sound s) {p : Address} (hp : s.Listed p)
    (h : s.resetTempThreat p = some t) : Keeps s t := by
  obtain ⟨r, -, h⟩ := Option.bind_eq_some_iff.1 h
  exact addTempThreat_keeps hs hp h

theorem applyTempThreat_sound (hs : Sound s) {p : Address} (hp : s.Listed p) {threat : F}
    {apply : Bool} (h : s.applyTempThreat p threat apply = some t) : Sound t := by
  obtain ⟨r, -, h⟩ := Option.bind_eq_some_iff.1 h
  split at h
  · split at h
    · exact (addTempThreat_keeps hs hp h).1
    · exact Option.some.inj h ▸ hs
  · exact (resetTempThreat_keeps hs hp h).1

theorem tauntApply_keeps (hs : Sound s) {taunter : ObjectGuid}
    (h : s.tauntApply taunter = some t) : Keeps s t := by
  unfold tauntApply at h
  split at h
  · rename_i current p _ hp
    obtain ⟨v, -, h⟩ := Option.bind_eq_some_iff.1 h
    obtain ⟨r, -, h⟩ := Option.bind_eq_some_iff.1 h
    split at h
    · obtain ⟨r', -, h⟩ := Option.bind_eq_some_iff.1 h
      exact addTempThreat_keeps hs (.inl (mem_of_getReferenceByTarget hp).1) h
    · exact Option.some.inj h ▸ hs.keeps
  · exact Option.some.inj h ▸ hs.keeps

theorem setThreat_keeps (hs : Sound s) {w : World F} {depth : Nat} {p : Address}
    (hp : s.Listed p) {threat : F} (h : s.setThreat w depth p threat = some t) : Keeps s t := by
  obtain ⟨r, -, h⟩ := Option.bind_eq_some_iff.1 h
  exact refAddThreat_safe w depth s p _ t hs hp h

theorem addThreatPercent_keeps (hs : Sound s) {w : World F} {depth : Nat} {p : Address}
    (hp : s.Listed p) {percent : Int} (h : s.addThreatPercent w depth p percent = some t) :
    Keeps s t := by
  obtain ⟨r, -, h⟩ := Option.bind_eq_some_iff.1 h
  exact refAddThreat_safe w depth s p _ t hs hp h

theorem resetAllAggro_keeps (hs : Sound s) {w : World F} {depth fuel : Nat}
    (h : s.resetAllAggro w depth fuel = some t) : Keeps s t := by
  simp only [resetAllAggro, Option.bind_eq_bind] at h
  split at h
  · obtain rfl : s = t := by simpa using h
    exact hs.keeps
  · obtain ⟨s', hs', h⟩ := Option.bind_eq_some_iff.1 h
    have hk := eachOnline_keeps (fun _ _ _ hs hp h => setThreat_keeps hs hp h) fuel 0 hs hs'
    exact hk.trans (Option.some.inj h ▸ (alike_setDirty s' true).keeps hk.1)

theorem resetAggro_keeps (hs : Sound s) {w : World F} {depth fuel : Nat}
    {predicate : Option ObjectGuid → Bool} (h : s.resetAggro w depth predicate fuel = some t) :
    Keeps s t := by
  refine eachOnline_keeps (fun s p t hs hp h => ?_) fuel 0 hs h
  obtain ⟨r, -, h⟩ := Option.bind_eq_some_iff.1 h
  split at h
  · obtain ⟨s', hs', h⟩ := Option.bind_eq_some_iff.1 h
    have hk := setThreat_keeps hs hp hs'
    exact hk.trans (Option.some.inj h ▸ (alike_setDirty s' true).keeps hk.1)
  · exact Option.some.inj h ▸ hs.keeps

theorem invalidate_sound (hs : Sound s) {p : Address} (hp : s.Listed p)
    (h : s.invalidate p = some t) :
    Sound t ∧ p ∈ t.offline ∧ ∃ u, t.core p = some (u, false, none) := by
  obtain ⟨r, hr⟩ := hs.reference hp
  obtain ⟨s', hs', hsettled, hcore⟩ := setOnlineOfflineState_settled hs hp hr false nofun
  obtain ⟨r', hr', hc'⟩ := reference_of_core hcore
  simp only [invalidate, hs', hr', Option.bind_eq_bind, Option.bind_some, Option.some.injEq] at h
  have hlisted := (hsettled.listed p).2 hp
  have honline : r'.iOnline = false := congrArg (fun c => c.2.1) hc'
  have hoff : p ∈ s'.offline := (hsettled.sound.status hlisted hr').2.2 honline
  refine h ▸ ⟨hsettled.sound.setLink hlisted hr' (.inr ⟨rfl, hoff⟩), hoff, r'.iUnitGuid, ?_⟩
  rw [core_write, if_pos rfl, ← honline]
  rfl

theorem removeReference_sound (hs : Sound s) {p : Address} (hp : s.Listed p)
    (h : s.removeReference p = some t) : Sound t ∧ ¬ t.Listed p := by
  obtain ⟨s', hs', h⟩ := Option.bind_eq_some_iff.1 h
  obtain ⟨hsound, hoff, u, hcore⟩ := invalidate_sound hs hp hs'
  obtain ⟨r, hr, hc⟩ := reference_of_core hcore
  have honline : r.iOnline = false := congrArg (fun c => c.2.1) hc
  have hnot : p ∉ s'.online := fun hon => by
    simp [(hsound.status (.inl hon) hr).1.1 hon] at honline
  -- an offline reference is not the victim
  have hvictim : s'.iCurrentVictim ≠ some p := fun hv => hnot (hsound.victim p hv)
  simp only [processThreatEvent, hr, Option.bind_eq_bind, Option.bind_some, if_neg hvictim, honline,
    Bool.false_eq_true, if_false, Option.some.injEq] at h
  refine h ▸ ⟨hsound.remove hoff hcore, ?_⟩
  rintro (hon | hmem)
  · exact hnot hon
  · simp [ThreatContainer.remove] at hmem

theorem deleteReference_sound (hs : Sound s) {p : Address} (hp : s.Listed p)
    (h : s.deleteReference p = some t) : Sound t := by
  obtain ⟨s', hs', h⟩ := Option.bind_eq_some_iff.1 h
  obtain ⟨hsound, hnot⟩ := removeReference_sound hs hp hs'
  exact Option.some.inj h ▸ hsound.delete hnot

theorem Sound.step (hs : Sound s) {c : Call F} (h : s.step c = some t) : Sound t := by
  have hvalid : ∀ {p : Address} {f : ThreatManager F → Address → Option (ThreatManager F)},
      (if s.isValid p = true then f s p else none) = some t →
      s.Listed p ∧ f s p = some t := by
    intro p f h
    split at h
    · rename_i hv
      exact ⟨hs.listed hv, h⟩
    · exact nomatch h
  have hremove : ∀ {p : Address} {f : ThreatManager F → Address → Option (ThreatManager F)},
      (if s.Listed p then f s p else none) = some t → s.Listed p ∧ f s p = some t := by
    intro p f h
    split at h
    · rename_i hp
      exact ⟨hp, h⟩
    · exact nomatch h
  obtain ⟨w, depth, fuel, act⟩ := c
  cases act with
  | addThreat victim threat schoolMask threatSpell =>
    exact (addThreatOver_keeps w (refAddThreat_safe w depth) hs h).1
  | doAddThreat victim threat => exact (doAddThreat_keeps w (refAddThreat_safe w depth) hs h).1
  | modifyThreatPercent victim percent =>
    dsimp only [ThreatManager.step, modifyThreatPercent] at h
    split at h
    · rename_i p hp
      exact (addThreatPercent_keeps hs (.inl (mem_of_getReferenceByTarget hp).1) h).1
    · exact Option.some.inj h ▸ hs
  | tauntApply taunter => exact (tauntApply_keeps hs h).1
  | tauntFadeOut taunter =>
    dsimp only [ThreatManager.step, tauntFadeOut] at h
    split at h
    · rename_i p hp
      exact (resetTempThreat_keeps hs (.inl (mem_of_getReferenceByTarget hp).1) h).1
    · exact Option.some.inj h ▸ hs
  | attackMe caster =>
    obtain rfl := Option.some.inj h
    unfold attackMe
    split
    · rename_i p hp
      exact hs.setCurrentVictim (mem_of_getReferenceByTarget hp).1
    · exact hs
  | resetAllAggro => exact (resetAllAggro_keeps hs h).1
  | resetAggro predicate => exact (resetAggro_keeps hs h).1
  | getHostilTarget => exact hs.getHostilTarget h
  | isNeedUpdateToClient time =>
    obtain rfl := Option.some.inj h
    unfold isNeedUpdateToClient
    split
    · exact hs
    · have htimer : ∀ time, Sound { s with iUpdateTimer := time } := fun time =>
        Alike.sound (s := s) ⟨rfl, rfl, rfl, rfl, rfl⟩ hs
      split
      · exact htimer 1000
      · exact htimer (s.iUpdateTimer - time)
  | clearReferences => exact Option.some.inj h ▸ hs.clearReferences
  | setOnlineOfflineState p isOnline =>
    dsimp only [ThreatManager.step] at h
    split at h
    · rename_i hv
      have hp := hs.listed hv
      obtain ⟨r, hr⟩ := hs.reference hp
      have hlink : r.iRefTo.isSome = true := by simpa [isValid, hr] using hv
      obtain ⟨t', ht', hsettled, -⟩ :=
        setOnlineOfflineState_settled hs hp hr isOnline fun _ => hlink
      exact Option.some.inj (ht'.symm.trans h) ▸ hsettled.sound
    · exact nomatch h
  | updateOnlineStatus p =>
    obtain ⟨hp, h⟩ := hvalid (f := updateOnlineStatus w) h
    obtain ⟨t', ht', hsettled⟩ := updateOnlineStatus_settled w hs hp
    exact Option.some.inj (ht'.symm.trans h) ▸ hsettled.sound
  | addThreatPercent p percent =>
    obtain ⟨hp, h⟩ := hvalid (f := fun s p => s.addThreatPercent w depth p percent) h
    exact (addThreatPercent_keeps hs hp h).1
  | applyTempThreat p threat apply =>
    obtain ⟨hp, h⟩ := hvalid (f := fun s p => s.applyTempThreat p threat apply) h
    exact applyTempThreat_sound hs hp h
  | invalidate p =>
    obtain ⟨hp, h⟩ := hvalid (f := invalidate) h
    exact (invalidate_sound hs hp h).1
  | removeReference p =>
    obtain ⟨hp, h⟩ := hremove (f := removeReference) h
    exact (removeReference_sound hs hp h).1
  | deleteReference p =>
    obtain ⟨hp, h⟩ := hremove (f := deleteReference) h
    exact deleteReference_sound hs hp h

/-- Over all runs of calls: one reference for each hated unit, in the list of its status, and the
victim is none or in the online list. -/
theorem lists_run {owner : ObjectGuid} {cs : List (Call F)}
    (hrun : Run (fun s c t => s.step c = some t) always { iOwner := owner } cs t) :
    ((t.online ++ t.offline).map t.unitOf).Nodup ∧
    (∀ p ∈ t.online ++ t.offline, ∃ r, t.references p = some r ∧
      (p ∈ t.online ↔ r.iOnline = true) ∧ (p ∈ t.offline ↔ r.iOnline = false)) ∧
    ∀ v, t.iCurrentVictim = some v → v ∈ t.online := by
  have hs := hrun.invariant Sound (.new owner) fun _ _ _ hu _ hstep => hu.step hstep
  refine ⟨hs.nodup, fun p hp => ?_, hs.victim⟩
  obtain ⟨r, hr⟩ := hs.reference (List.mem_append.1 hp)
  exact ⟨r, hr, hs.status (List.mem_append.1 hp) hr⟩

/-- Exact arithmetic. -/
instance : Float32 ℚ where
  decLT := inferInstance
  decLE := inferInstance

def pets : World ℚ where
  ownerAlive := true
  ownerIsCreature := true
  ownerSummon := none
  getUnit _ := true
  isGameMaster _ := false
  isAlive _ := true
  isInMap _ := true
  isInPhase _ := true
  inFlight u := u == 3
  isInAccessiblePlace _ := true
  isWithinCombatRange _ := true
  isWithinMeleeRange _ := true
  canCreatureAttack _ := true
  isImmunedToDamage _ := false
  hasInterruptAura _ := false
  charmerOrOwner u := if u = 1 then some 2 else none
  redirectThreatPercent u := if u = 3 then 50 else 0
  redirectThreatTarget u := if u = 3 then some 4 else none
  tempSummon _ := none
  hasThreatAura _ := false
  threatModifier _ _ := 1
  applySpellMod _ threat := threat

def petCalls : List (Call ℚ) :=
  [⟨pets, 2, 0, .addThreat 1 10 1 none⟩, ⟨pets, 2, 0, .addThreat 3 40 1 none⟩,
    ⟨pets, 2, 0, .updateOnlineStatus 3⟩, ⟨pets, 2, 0, .deleteReference 0⟩,
    ⟨pets, 2, 0, .setOnlineOfflineState 1 false⟩, ⟨pets, 2, 0, .getHostilTarget⟩]

theorem lists_run_pets : ∃ t : ThreatManager ℚ,
    (t.online = [2] ∧ t.offline = [3, 1] ∧ t.iCurrentVictim = some 2) ∧
    ((t.online ++ t.offline).map t.unitOf).Nodup ∧
    (∀ p ∈ t.online ++ t.offline, ∃ r, t.references p = some r ∧
      (p ∈ t.online ↔ r.iOnline = true) ∧ (p ∈ t.offline ↔ r.iOnline = false)) ∧
    ∀ v, t.iCurrentVictim = some v → v ∈ t.online := by
  have hlists : (petCalls.foldlM step ({ iOwner := 9 } : ThreatManager ℚ)).map
      (fun t => (t.online, t.offline, t.iCurrentVictim)) = some ([2], [3, 1], some 2) := by
    decide +kernel
  obtain ⟨t, ht, heq⟩ := Option.map_eq_some_iff.1 hlists
  simp only [Prod.mk.injEq] at heq
  exact ⟨t, heq, lists_run (Run.of_foldlM ht)⟩

end Ashamane.Threat.ThreatManager
