import Ashamane.Threat.Lists

/-! The calls come to an end: the references that they read are there, the targets that they
assert are there, and the threat on the owner of a pet goes no further. -/
namespace Ashamane.Threat.ThreatManager

open Ashamane.Lib

variable {F : Type} [Float32 F] {w : World F} {s t : ThreatManager F} {p : Address}

structure Usual (w : World F) : Prop where
  creature : w.ownerIsCreature = true
  zero_sub : ((0 : F) - 0 == 0) = true
  noThreat : ∀ u, (ThreatCalcHelper.calcThreat w u 0 SPELL_SCHOOL_MASK_NORMAL none == 0) = true
  notPositive : ∀ u, ¬0 < ThreatCalcHelper.calcThreat w u 0 SPELL_SCHOOL_MASK_NORMAL none

theorem isValidProcess_isSome (hw : Usual w) (owner hatedUnit : ObjectGuid)
    (threatSpell : Option (SpellInfo F)) :
    ∃ valid, ThreatCalcHelper.isValidProcess w owner hatedUnit threatSpell = some valid := by
  unfold ThreatCalcHelper.isValidProcess
  rw [hw.creature]
  split
  · exact ⟨_, rfl⟩
  split
  · exact ⟨_, rfl⟩
  split
  · exact ⟨_, rfl⟩
  split
  · exact ⟨_, rfl⟩
  split
  · exact ⟨_, rfl⟩
  · exact ⟨true, rfl⟩

/-- `HostileReference::addThreat` ends for the threat, whatever the reference. -/
def Ends (refAdd : ThreatManager F → Address → F → Option (ThreatManager F)) (threat : F) : Prop :=
  ∀ s p, Sound s → s.Listed p → ∃ t, refAdd s p threat = some t

variable {refAdd : ThreatManager F → Address → F → Option (ThreatManager F)}

omit [Float32 F] in
theorem containerAddThreat_ends {threat : F} (hends : Ends refAdd threat) (hs : Sound s)
    {c : ThreatContainer} (hc : ∀ p ∈ c.iThreatList, s.Listed p) (victim : ObjectGuid) :
    ∃ found t, s.containerAddThreat refAdd c victim threat = some (found, t) := by
  unfold containerAddThreat
  split
  · rename_i p hp
    obtain ⟨t, ht⟩ := hends s p hs (hc p (mem_of_getReferenceByTarget hp).1)
    exact ⟨_, _, by rw [ht]; rfl⟩
  · exact ⟨_, _, rfl⟩

section Calls

variable (hsafe : Safe refAdd)
include hsafe

theorem addThreatTo_ends {threat : F} (hends : Ends refAdd threat) (hs : Sound s)
    (victim : ObjectGuid) : ∃ t, s.addThreatTo w refAdd victim threat = some t := by
  obtain ⟨found, s₁, h₁⟩ := containerAddThreat_ends hends hs (fun p hp => .inl hp) victim
  obtain ⟨hk₁, hn₁⟩ := containerAddThreat_keeps hsafe hs (fun p hp => .inl hp) h₁
  simp only [addThreatTo, h₁, Option.bind_eq_bind, Option.bind_some]
  cases found with
  | some p => exact ⟨_, rfl⟩
  | none =>
    obtain ⟨rfl, hon⟩ := hn₁ rfl
    obtain ⟨found, s₂, h₂⟩ := containerAddThreat_ends hends hs (fun p hp => .inr hp) victim
    obtain ⟨hk₂, hn₂⟩ := containerAddThreat_keeps hsafe hs (fun p hp => .inr hp) h₂
    simp only [h₂, Option.bind_some, Option.isSome_none, Bool.false_eq_true, if_false]
    cases found with
    | some p => exact ⟨_, rfl⟩
    | none =>
      obtain ⟨rfl, hoff⟩ := hn₂ rfl
      have hnew := hs.newReference hon hoff
      have hmem : s₂.next ∈ ({ s₂.newReference victim with
          iThreatContainer :=
            (s₂.newReference victim).iThreatContainer.addReference s₂.next }).online :=
        List.mem_append_right _ (List.mem_singleton.2 rfl)
      obtain ⟨s₃, h₃⟩ := hends _ _ hnew (.inl hmem)
      obtain ⟨hsound, hsub⟩ := hsafe _ _ _ _ hnew (.inl hmem) h₃
      simp only [Option.isSome_none, Bool.false_eq_true, if_false, h₃, Option.bind_some]
      split
      · obtain ⟨r, hr⟩ := hsound.reference (.inl (hsub hmem))
        obtain ⟨t, ht, -⟩ := setOnlineOfflineState_settled hsound (.inl (hsub hmem)) hr false
          fun h => by cases h
        exact ⟨t, ht⟩
      · split <;> exact ⟨_, rfl⟩

theorem doAddThreat_ends (hends : ∀ threat, Ends refAdd threat) (hs : Sound s)
    (victim : ObjectGuid) (threat : F) : ∃ t, s.doAddThreat w refAdd victim threat = some t := by
  unfold doAddThreat
  split
  · rename_i pct target _
    split
    · obtain ⟨s₁, h₁⟩ := addThreatTo_ends (w := w) hsafe (hends (CalculatePct threat pct)) hs target
      have hk := addThreatTo_keeps w hsafe hs h₁
      obtain ⟨s₂, h₂⟩ := addThreatTo_ends (w := w) hsafe
        (hends (threat - CalculatePct threat pct)) hk.1 victim
      exact ⟨s₂, Option.bind_eq_some_iff.2 ⟨s₁, h₁, h₂⟩⟩
    · exact addThreatTo_ends hsafe (hends threat) hs victim
  · exact addThreatTo_ends hsafe (hends threat) hs victim

theorem doAddThreat_ends_of_notPositive {threat : F} (hthreat : ¬0 < threat)
    (hends : Ends refAdd threat) (hs : Sound s) (victim : ObjectGuid) :
    ∃ t, s.doAddThreat w refAdd victim threat = some t := by
  unfold doAddThreat
  split
  · rw [if_neg fun h => hthreat h.1]
    exact addThreatTo_ends hsafe hends hs victim
  · exact addThreatTo_ends hsafe hends hs victim

theorem threatChanged_ends (hw : Usual w)
    (hends : ∀ u, Ends refAdd (ThreatCalcHelper.calcThreat w u 0 SPELL_SCHOOL_MASK_NORMAL none))
    (hs : Sound s) (hp : s.Listed p) (modThreat : F) :
    ∃ t, s.threatChanged w refAdd p modThreat = some t := by
  obtain ⟨r, hr⟩ := hs.reference hp
  obtain ⟨s₁, h₁, halike⟩ := processThreatEvent_threatChange hr modThreat
  have hs₁ := halike.sound hs
  obtain ⟨r₁, hr₁⟩ := hs₁.reference ((halike.listed p).2 hp)
  simp only [threatChanged, h₁, hr₁, Option.bind_eq_bind, Option.bind_some]
  split
  · exact ⟨_, rfl⟩
  split
  · split
    · rename_i owner _
      split
      · obtain ⟨valid, hvalid⟩ := isValidProcess_isSome hw s₁.iOwner owner none
        simp only [addThreatOver, hvalid, Option.bind_eq_bind, Option.bind_some]
        split
        · exact doAddThreat_ends_of_notPositive hsafe (hw.notPositive owner) (hends owner) hs₁ owner
        · exact ⟨_, rfl⟩
      · exact ⟨_, rfl⟩
    · exact ⟨_, rfl⟩
  · exact ⟨_, rfl⟩

end Calls

theorem refAddThreat_zero (depth : Nat) {threat : F} (h : (threat == 0) = true) (s : ThreatManager F)
    (p : Address) : refAddThreat w (depth + 1) s p threat = some s := by
  simp [refAddThreat, h]

/-- One call for the owner of a pet is all that there is on the stack. -/
theorem refAddThreat_ends (hw : Usual w) (depth : Nat) (threat : F) :
    Ends (refAddThreat w (depth + 2)) threat := by
  intro s p hs hp
  have hinner : ∀ u, Ends (refAddThreat w (depth + 1))
      (ThreatCalcHelper.calcThreat w u 0 SPELL_SCHOOL_MASK_NORMAL none) :=
    fun u s p _ _ => ⟨s, refAddThreat_zero depth (hw.noThreat u) s p⟩
  obtain ⟨r, hr⟩ := hs.reference hp
  have hwrite : Alike s (s.write p { r with iThreat := r.iThreat + threat }) := alike_write hr rfl
  have hlisted := (hwrite.listed p).2 hp
  rw [refAddThreat]
  simp only [hr, Option.bind_eq_bind, Option.bind_some]
  split
  · exact ⟨_, rfl⟩
  split
  · exact threatChanged_ends (refAddThreat_safe w _) hw hinner (hwrite.sound hs) hlisted threat
  · obtain ⟨s₁, h₁, hsettled⟩ := updateOnlineStatus_settled w (hwrite.sound hs) hlisted
    rw [h₁, Option.bind_some]
    exact threatChanged_ends (refAddThreat_safe w _) hw hinner hsettled.sound
      ((hsettled.listed p).2 hlisted) threat

omit [Float32 F] in
theorem Sound.target (hs : Sound s) (hp : p ∈ s.online) :
    ∃ r u, s.references p = some r ∧ r.iRefTo = some u := by
  obtain ⟨u, hu⟩ := hs.online p hp
  obtain ⟨r, hr, hc⟩ := reference_of_core hu
  exact ⟨r, u, hr, congrArg (fun c => c.2.2) hc⟩

/-- A pass finds the targets that it asserts, and one that takes the second choices does not ask
for another. -/
theorem selectPass_ends (hs : Sound s) (noPriority : Bool) (list : List Address)
    (hlist : ∀ q ∈ list, q ∈ s.online) (current : Option Address)
    (hcurrent : ∀ q, current = some q → q ∈ s.online) :
    ∃ pass, s.selectPass w noPriority current list = some pass ∧
      (noPriority = true → ∃ next, pass = .ended next) := by
  induction list generalizing current with
  | nil => exact ⟨_, rfl, fun _ => ⟨none, rfl⟩⟩
  | cons ref rest ih =>
    have hrest := fun c hc => ih (fun q hq => hlist q (List.mem_cons_of_mem _ hq)) c hc
    obtain ⟨r, target, hr, htarget⟩ := hs.target (hlist ref List.mem_cons_self)
    simp only [selectPass, hr, htarget, Option.bind_eq_bind, Option.bind_some]
    split
    · rename_i hsecond
      split
      · refine ⟨_, rfl, fun h => ?_⟩
        simp [h] at hsecond
      · refine hrest _ fun q hq => ?_
        split at hq
        · cases hq
        · exact hcurrent q hq
    split
    · cases current with
      | none => exact ⟨_, rfl, fun _ => ⟨_, rfl⟩⟩
      | some v =>
        obtain ⟨rv, victim, hrv, hvictim⟩ := hs.target (hcurrent v rfl)
        simp only [hrv, hvictim, Option.bind_some]
        split
        · split <;> exact ⟨_, rfl, fun _ => ⟨_, rfl⟩⟩
        split
        · exact ⟨_, rfl, fun _ => ⟨_, rfl⟩⟩
        · exact hrest _ hcurrent
    · exact hrest _ hcurrent

/-- The choice of a victim ends: everyone being a second choice, the second pass takes one. -/
theorem getHostilTarget_ends (w : World F) (hs : Sound s) : ∃ t, s.getHostilTarget w = some t := by
  have hupdate : Sound s.update := hs.update
  obtain ⟨pass, hpass, -⟩ := selectPass_ends (w := w) hupdate false s.update.online
    (fun _ hq => hq) s.iCurrentVictim hupdate.victim
  have hselect : ∃ next, s.update.selectNextVictim w s.iCurrentVictim = some next := by
    unfold selectNextVictim
    rw [hpass]
    cases pass with
    | ended next => exact ⟨next, rfl⟩
    | again current =>
      have hcurrent := selectPass_mem w s.update false s.update.online s.iCurrentVictim hpass
      obtain ⟨pass', hpass', hended⟩ := selectPass_ends (w := w) hupdate true s.update.online
        (fun _ hq => hq) current fun q hq => hupdate.victim q (hcurrent q hq)
      obtain ⟨next, rfl⟩ := hended rfl
      exact ⟨next, by simp only [Option.bind_eq_bind, Option.bind_some, hpass']⟩
  obtain ⟨next, hnext⟩ := hselect
  exact ⟨_, Option.bind_eq_some_iff.2 ⟨next, hnext, rfl⟩⟩

theorem addTempThreat_ends (hs : Sound s) (hp : s.Listed p) (threat : F) :
    ∃ t, s.addTempThreat p threat = some t := by
  obtain ⟨r, hr⟩ := hs.reference hp
  simp only [addTempThreat, hr, Option.bind_eq_bind, Option.bind_some]
  split
  · exact ⟨_, rfl⟩
  · have hr' : (s.write p { r with
        iTempThreatModifier := r.iTempThreatModifier + threat }).references p = some { r with
          iTempThreatModifier := r.iTempThreatModifier + threat } := by simp [write]
    obtain ⟨t, ht, -⟩ := processThreatEvent_threatChange hr' threat
    exact ⟨t, ht⟩

theorem resetTempThreat_ends (hs : Sound s) (hp : s.Listed p) :
    ∃ t, s.resetTempThreat p = some t := by
  obtain ⟨r, hr⟩ := hs.reference hp
  obtain ⟨t, ht⟩ := addTempThreat_ends hs hp (-r.iTempThreatModifier)
  exact ⟨t, Option.bind_eq_some_iff.2 ⟨r, hr, ht⟩⟩

theorem tauntApply_ends (hs : Sound s) (taunter : ObjectGuid) :
    ∃ t, s.tauntApply taunter = some t := by
  unfold tauntApply
  split
  · rename_i current p hcurrent hp
    have hlisted : s.Listed p := .inl (mem_of_getReferenceByTarget hp).1
    obtain ⟨v, hv⟩ := hs.reference (.inl (hs.victim current hcurrent))
    obtain ⟨r, hr⟩ := hs.reference hlisted
    simp only [hv, hr, Option.bind_eq_bind, Option.bind_some]
    split
    · obtain ⟨t, ht⟩ := addTempThreat_ends hs hlisted (v.getThreat - r.iTempThreatModifier)
      exact ⟨t, Option.bind_eq_some_iff.2 ⟨r, hr, ht⟩⟩
    · exact ⟨_, rfl⟩
  · exact ⟨_, rfl⟩

theorem applyTempThreat_ends (hs : Sound s) (hp : s.Listed p) (threat : F) (apply : Bool) :
    ∃ t, s.applyTempThreat p threat apply = some t := by
  obtain ⟨r, hr⟩ := hs.reference hp
  simp only [applyTempThreat, hr, Option.bind_eq_bind, Option.bind_some]
  split
  · split
    · exact addTempThreat_ends hs hp threat
    · exact ⟨_, rfl⟩
  · exact resetTempThreat_ends hs hp

theorem invalidate_ends (hs : Sound s) (hp : s.Listed p) : ∃ t, s.invalidate p = some t := by
  obtain ⟨r, hr⟩ := hs.reference hp
  obtain ⟨s', hs', -, hcore⟩ := setOnlineOfflineState_settled hs hp hr false nofun
  obtain ⟨r', hr', -⟩ := reference_of_core hcore
  exact ⟨_, Option.bind_eq_some_iff.2 ⟨s', hs', Option.bind_eq_some_iff.2 ⟨r', hr', rfl⟩⟩⟩

theorem removeReference_ends (hs : Sound s) (hp : s.Listed p) :
    ∃ t, s.removeReference p = some t := by
  obtain ⟨s', hs'⟩ := invalidate_ends hs hp
  obtain ⟨-, -, u, hcore⟩ := invalidate_sound hs hp hs'
  obtain ⟨r, hr, -⟩ := reference_of_core hcore
  simp only [removeReference, hs', processThreatEvent, hr, Option.bind_eq_bind, Option.bind_some]
  split <;> exact ⟨_, rfl⟩

section Loops

def threatOf (s : ThreatManager F) (p : Address) : Option F :=
  (s.references p).map HostileReference.iThreat

structure Visited (p : Address) (s t : ThreatManager F) : Prop where
  online : ∃ new, t.online = s.online ++ new ∧ new.length ≤ 1 ∧ ∀ q ∈ new, t.threatOf q = some 0
  threats : ∀ q, q ≠ p → q ≠ s.next → t.threatOf q = s.threatOf q

theorem Visited.same (p : Address) (hon : t.online = s.online)
    (hthreats : ∀ q, q ≠ p → t.threatOf q = s.threatOf q) : Visited p s t where
  online := ⟨[], by rw [hon, List.append_nil], Nat.zero_le 1, nofun⟩
  threats q hq _ := hthreats q hq

omit [Float32 F] in
theorem threatOf_write (s : ThreatManager F) (p q : Address) (r : HostileReference F) :
    (s.write p r).threatOf q = if q = p then some r.iThreat else s.threatOf q := by
  by_cases h : q = p
  · subst h
    simp [threatOf, write]
  · simp [threatOf, write, h]

theorem setOffline_threats {r : HostileReference F} (hr : s.references p = some r)
    (honline : r.iOnline = true) (h : s.setOnlineOfflineState p false = some t) :
    t.online = s.online.filter (· ≠ p) ∧ t.threatOf = s.threatOf := by
  have hsame : ∀ r' : HostileReference F, r'.iThreat = r.iThreat →
      (s.write p r').threatOf = s.threatOf := by
    intro r' hr'
    funext q
    rw [threatOf_write]
    split
    · rename_i hq
      simp [threatOf, hq, hr, hr']
    · rfl
  have hevent : ∀ r' : HostileReference F, r'.iOnline = false → r'.iThreat = r.iThreat →
      (s.write p r').processThreatEvent p .onlineStatus = some t →
      t.online = s.online.filter (· ≠ p) ∧ t.threatOf = s.threatOf := by
    intro r' hoff hthreat ht
    have hw : (s.write p r').references p = some r' := by simp [write]
    simp only [processThreatEvent, hw, hoff, Option.bind_eq_bind, Option.bind_some, Bool.not_false,
      if_true, Option.some.injEq] at ht
    rw [← ht, ← hsame r' hthreat]
    split <;> exact ⟨rfl, rfl⟩
  simp only [setOnlineOfflineState, hr, honline, Option.bind_eq_bind, Option.bind_some, ne_eq,
    Bool.true_eq_false, not_false_eq_true, if_true, Bool.not_false] at h
  obtain ⟨s₁, h₁, h⟩ := Option.bind_eq_some_iff.1 h
  have hw : (s.write p { r with iOnline := false }).references p =
      some { r with iOnline := false } := by simp [write]
  simp only [setAccessibleState, hw, Option.bind_eq_bind, Option.bind_some] at h₁
  split at h₁
  · simp only [processThreatEvent, write, Function.update_self, Option.bind_eq_bind,
      Option.bind_some, Option.some.injEq, Function.update_idem] at h₁
    subst h₁
    exact hevent { r with iOnline := false, iAccessible := false } rfl rfl h
  · obtain rfl := Option.some.inj h₁
    exact hevent { r with iOnline := false } rfl rfl h

theorem addThreatTo_visited {threat : F} (hzero : ∀ s p, refAdd s p threat = some s) (hs : Sound s)
    {victim : ObjectGuid} (h : s.addThreatTo w refAdd victim threat = some t) (p : Address) :
    Visited p s t := by
  have hcontainer : ∀ c, s.containerAddThreat refAdd c victim threat =
      some (s.getReferenceByTarget c victim, s) := by
    intro c
    unfold containerAddThreat
    split
    · rename_i q hq
      rw [hzero, hq]
      rfl
    · rename_i hnone
      rw [hnone]
  simp only [addThreatTo, hcontainer, Option.bind_eq_bind, Option.bind_some] at h
  split at h
  · obtain rfl : s = t := by simpa using h
    exact .same p rfl fun _ _ => rfl
  split at h
  · obtain rfl : s = t := by simpa using h
    exact .same p rfl fun _ _ => rfl
  rw [hzero, Option.bind_some] at h
  have hthreat : ∀ q, ({ s.newReference victim with
      iThreatContainer := (s.newReference victim).iThreatContainer.addReference s.next } :
        ThreatManager F).threatOf q = if q = s.next then some 0 else s.threatOf q :=
    fun q => threatOf_write s s.next q _
  split at h
  · -- a game master: the new reference goes offline at once
    have hr : ({ s.newReference victim with
        iThreatContainer := (s.newReference victim).iThreatContainer.addReference s.next } :
          ThreatManager F).references s.next = some
            { iThreat := 0, iTempThreatModifier := 0, iUnitGuid := victim, iOnline := true,
              iAccessible := true, iRefTo := some victim } := by simp [ThreatManager.newReference, write]
    obtain ⟨hon, hthreats⟩ := setOffline_threats hr rfl h
    have hnew : s.next ∉ s.online := by
      intro hmem
      obtain ⟨r, hr⟩ := hs.reference (.inl hmem)
      simp [hs.fresh s.next le_rfl] at hr
    refine ⟨⟨[], ?_, Nat.zero_le 1, fun q hq => absurd hq List.not_mem_nil⟩, fun q _ hq => ?_⟩
    · rw [hon]
      change (s.online ++ [s.next]).filter _ = _
      rw [List.filter_append, List.append_nil, List.filter_eq_self.2 fun q hq => ?_]
      · simp
      · exact decide_eq_true fun heq => hnew (heq ▸ hq)
    · rw [hthreats, hthreat, if_neg hq]
  · obtain ⟨victim', rfl⟩ : ∃ v, t = { s.newReference victim with
        iThreatContainer := (s.newReference victim).iThreatContainer.addReference s.next
        iCurrentVictim := v } := by
      split at h
      · exact ⟨_, (Option.some.inj h).symm⟩
      · exact ⟨_, (Option.some.inj h).symm⟩
    refine ⟨⟨[s.next], rfl, le_rfl, fun q hq => ?_⟩, fun q _ hq => ?_⟩
    · rw [List.mem_singleton.1 hq]
      exact (hthreat s.next).trans (if_pos rfl)
    · exact (hthreat q).trans (if_neg hq)

theorem doAddThreat_visited {threat : F} (hthreat : ¬0 < threat)
    (hzero : ∀ s p, refAdd s p threat = some s) (hs : Sound s) {victim : ObjectGuid}
    (h : s.doAddThreat w refAdd victim threat = some t) (p : Address) : Visited p s t := by
  unfold doAddThreat at h
  split at h
  · rw [if_neg fun h => hthreat h.1] at h
    exact addThreatTo_visited hzero hs h p
  · exact addThreatTo_visited hzero hs h p

theorem threatChanged_visited (hw : Usual w)
    (hzero : ∀ u s p, refAdd s p
      (ThreatCalcHelper.calcThreat w u 0 SPELL_SCHOOL_MASK_NORMAL none) = some s)
    (hs : Sound s) (hp : s.Listed p) {modThreat : F}
    (h : s.threatChanged w refAdd p modThreat = some t) (q : Address) : Visited q s t := by
  obtain ⟨r, hr⟩ := hs.reference hp
  obtain ⟨d, hd⟩ : ∃ d, s.processThreatEvent p (.threatChange modThreat) = some (s.setDirty d) := by
    simp only [processThreatEvent, hr, Option.bind_eq_bind, Option.bind_some]
    split
    · exact ⟨true, rfl⟩
    · exact ⟨s.iThreatContainer.iDirty, rfl⟩
  have hdirty : Sound (s.setDirty d) := (alike_setDirty s d).sound hs
  have hr' : (s.setDirty d).references p = some r := hr
  simp only [threatChanged, hd, hr', Option.bind_eq_bind, Option.bind_some] at h
  have hsame : some (s.setDirty d) = some t → Visited q s t := fun h =>
    Option.some.inj h ▸ .same q rfl fun _ _ => rfl
  split at h
  · exact hsame h
  split at h
  · split at h
    · split at h
      · obtain ⟨valid, -, h⟩ := Option.bind_eq_some_iff.1 h
        split at h
        · have hvisited := doAddThreat_visited (hw.notPositive _) (hzero _) hdirty h q
          exact ⟨hvisited.online, hvisited.threats⟩
        · exact hsame h
      · exact hsame h
    · exact hsame h
  · exact hsame h

theorem refAddThreat_visited (hw : Usual w) (depth : Nat) (hs : Sound s) (hp : p ∈ s.online)
    {threat : F} (h : refAddThreat w (depth + 2) s p threat = some t) : Visited p s t := by
  obtain ⟨r, hr⟩ := hs.reference (.inl hp)
  have honline := (hs.status (.inl hp) hr).1.1 hp
  rw [refAddThreat] at h
  simp only [hr, Option.bind_eq_bind, Option.bind_some, if_pos honline] at h
  split at h
  · obtain rfl : s = t := by simpa using h
    exact .same p rfl fun _ _ => rfl
  · have hwrite : Alike s (s.write p { r with iThreat := r.iThreat + threat }) := alike_write hr rfl
    have hvisited := threatChanged_visited hw
      (fun u s p => refAddThreat_zero (w := w) depth (hw.noThreat u) s p) (hwrite.sound hs)
      ((hwrite.listed p).2 (.inl hp)) h p
    refine ⟨hvisited.online, fun q hq hnew => ?_⟩
    rw [hvisited.threats q hq hnew, threatOf_write, if_neg hq]

def NoThreatFrom (s : ThreatManager F) (i : Nat) : Prop :=
  ∀ j q, i ≤ j → s.online[j]? = some q → s.threatOf q = some 0

/-- The loop over the online container ends: a visit adds one reference at most, which has no
threat, and those without threat add none. -/
theorem eachOnline_ends {visit : ThreatManager F → Address → Option (ThreatManager F)}
    (hvisit : ∀ s p, Sound s → p ∈ s.online →
      ∃ t, visit s p = some t ∧ Sound t ∧ Visited p s t)
    (hzero : ∀ s p, Sound s → p ∈ s.online → s.threatOf p = some 0 →
      ∃ t, visit s p = some t ∧ Sound t ∧ t.online = s.online ∧ t.threatOf = s.threatOf)
    (fuel k i : Nat) (hs : Sound s) (hnone : s.NoThreatFrom (i + k))
    (hfuel : s.online.length - i + k < fuel) : ∃ t, eachOnline visit fuel i s = some t := by
  induction fuel generalizing s i k with
  | zero => omega
  | succ fuel ih =>
    unfold eachOnline
    split
    · exact ⟨_, rfl⟩
    · rename_i p hi
      obtain ⟨hlt, -⟩ := List.getElem?_eq_some_iff.1 hi
      have hlength : i < s.online.length := hlt
      have hp : p ∈ s.online := List.mem_of_getElem? hi
      cases k with
      | zero =>
        obtain ⟨t, ht, hsound, hon, hthreats⟩ := hzero s p hs hp (hnone i p (Nat.le_refl _) hi)
        have hnext : t.NoThreatFrom (i + 1 + 0) := by
          intro j q hj hq
          rw [hthreats]
          exact hnone j q (by omega) (hon ▸ hq)
        obtain ⟨u, hu⟩ := ih 0 (i + 1) hsound hnext (by rw [hon]; omega)
        exact ⟨u, Option.bind_eq_some_iff.2 ⟨t, ht, hu⟩⟩
      | succ k =>
        obtain ⟨t, ht, hsound, hvisited⟩ := hvisit s p hs hp
        obtain ⟨new, hon, hone, hnew⟩ := hvisited.online
        have hnext : t.NoThreatFrom (i + 1 + k) := by
          intro j q hj hq
          rw [hon, List.getElem?_append] at hq
          split at hq
          · have hq' : q ∈ s.online := List.mem_of_getElem? hq
            have hne : q ≠ p := by
              rintro rfl
              have := (List.getElem?_inj hlt hs.onlineNodup).1 (hi.trans hq.symm)
              omega
            have hold : q ≠ s.next := by
              rintro rfl
              obtain ⟨r, hr⟩ := hs.reference (.inl hq')
              simp [hs.fresh s.next le_rfl] at hr
            rw [hvisited.threats q hne hold]
            exact hnone j q (by omega) hq
          · exact hnew q (List.mem_of_getElem? hq)
        obtain ⟨u, hu⟩ := ih k (i + 1) hsound hnext (by
          rw [hon, List.length_append]
          omega)
        exact ⟨u, Option.bind_eq_some_iff.2 ⟨t, ht, hu⟩⟩

end Loops

theorem setThreat_ends (hw : Usual w) (depth : Nat) (hs : Sound s) (hp : p ∈ s.online)
    (threat : F) : ∃ t, s.setThreat w (depth + 2) p threat = some t ∧ Sound t ∧ Visited p s t := by
  obtain ⟨r, hr⟩ := hs.reference (.inl hp)
  obtain ⟨t, ht⟩ := refAddThreat_ends hw depth (threat - r.iThreat) s p hs (.inl hp)
  exact ⟨t, Option.bind_eq_some_iff.2 ⟨r, hr, ht⟩, (refAddThreat_safe w _ s p _ t hs (.inl hp) ht).1,
    refAddThreat_visited hw depth hs hp ht⟩

theorem setThreat_zero (hw : Usual w) (depth : Nat) (hzero : s.threatOf p = some 0) :
    s.setThreat w (depth + 2) p 0 = some s := by
  obtain ⟨r, hr, hthreat⟩ := Option.map_eq_some_iff.1 hzero
  simp only [setThreat, hr, hthreat, Option.bind_eq_bind, Option.bind_some]
  exact refAddThreat_zero (depth + 1) hw.zero_sub s p

theorem resetAllAggro_ends (hw : Usual w) (depth : Nat) {fuel : Nat} (hs : Sound s)
    (hfuel : 2 * s.online.length < fuel) : ∃ t, s.resetAllAggro w (depth + 2) fuel = some t := by
  obtain ⟨t, ht⟩ := eachOnline_ends (fun s p hs hp => setThreat_ends hw depth hs hp 0)
    (fun s p hs _ hzero => ⟨s, setThreat_zero hw depth hzero, hs, rfl, rfl⟩) fuel s.online.length 0 hs
    (fun j q hj hq => by
      obtain ⟨hlt, -⟩ := List.getElem?_eq_some_iff.1 hq
      omega) (by omega)
  unfold resetAllAggro
  split
  · exact ⟨_, rfl⟩
  · exact ⟨_, Option.bind_eq_some_iff.2 ⟨t, ht, rfl⟩⟩

theorem resetAggro_ends (hw : Usual w) (depth : Nat) (predicate : Option ObjectGuid → Bool)
    {fuel : Nat} (hs : Sound s) (hfuel : 2 * s.online.length < fuel) :
    ∃ t, s.resetAggro w (depth + 2) predicate fuel = some t := by
  refine eachOnline_ends (fun s p hs hp => ?_) (fun s p hs hp hzero => ?_) fuel s.online.length 0 hs
    (fun j q hj hq => by
      obtain ⟨hlt, -⟩ := List.getElem?_eq_some_iff.1 hq
      omega) (by omega)
  · obtain ⟨r, hr⟩ := hs.reference (.inl hp)
    simp only [hr, Option.bind_eq_bind, Option.bind_some]
    split
    · obtain ⟨t, ht, hsound, hvisited⟩ := setThreat_ends hw depth hs hp 0
      exact ⟨t.setDirty true, Option.bind_eq_some_iff.2 ⟨t, ht, rfl⟩,
        (alike_setDirty t true).sound hsound, hvisited.online, hvisited.threats⟩
    · exact ⟨s, rfl, hs, .same p rfl fun _ _ => rfl⟩
  · obtain ⟨r, hr⟩ := hs.reference (.inl hp)
    simp only [hr, Option.bind_eq_bind, Option.bind_some]
    split
    · rw [setThreat_zero hw depth hzero, Option.bind_some]
      exact ⟨_, rfl, (alike_setDirty s true).sound hs, rfl, rfl⟩
    · exact ⟨s, rfl, hs, rfl, rfl⟩

def Answers (s : ThreatManager F) : Act F → Prop
  | .setOnlineOfflineState ref _ | .updateOnlineStatus ref | .addThreatPercent ref _
  | .applyTempThreat ref _ _ | .invalidate ref => s.isValid ref = true
  | .removeReference ref | .deleteReference ref => s.Listed ref
  | _ => True

/-- Every call ends: a call of its own and one for an owner are all those of `addThreat` on the
stack, and the loops visit each reference and one new one for it at most. -/
theorem step_ends (hs : Sound s) {c : Call F} (hw : Usual c.world) (hdepth : 2 ≤ c.depth)
    (hfuel : 2 * s.online.length < c.fuel) (hact : s.Answers c.act) : ∃ t, s.step c = some t := by
  obtain ⟨w, depth, fuel, act⟩ := c
  obtain ⟨depth, rfl⟩ : ∃ d, depth = d + 2 := ⟨depth - 2, (Nat.sub_add_cancel hdepth).symm⟩
  have hends := refAddThreat_ends (w := w) hw depth
  have hsafe := refAddThreat_safe w (depth + 2)
  have hpercent : ∀ p percent, s.Listed p →
      ∃ t, s.addThreatPercent w (depth + 2) p percent = some t := by
    intro p percent hp
    obtain ⟨r, hr⟩ := hs.reference hp
    obtain ⟨t, ht⟩ := hends (CalculatePct r.iThreat percent) s p hs hp
    exact ⟨t, Option.bind_eq_some_iff.2 ⟨r, hr, ht⟩⟩
  cases act with
  | addThreat victim threat schoolMask threatSpell =>
    obtain ⟨valid, hvalid⟩ := isValidProcess_isSome hw s.iOwner victim threatSpell
    dsimp only [ThreatManager.step, addThreat, addThreatOver]
    rw [hvalid, Option.bind_eq_bind, Option.bind_some]
    split
    · exact doAddThreat_ends hsafe hends hs victim _
    · exact ⟨_, rfl⟩
  | doAddThreat victim threat => exact doAddThreat_ends hsafe hends hs victim threat
  | modifyThreatPercent victim percent =>
    dsimp only [ThreatManager.step, modifyThreatPercent]
    split
    · rename_i p hp
      exact hpercent p percent (.inl (mem_of_getReferenceByTarget hp).1)
    · exact ⟨_, rfl⟩
  | tauntApply taunter => exact tauntApply_ends hs taunter
  | tauntFadeOut taunter =>
    dsimp only [ThreatManager.step, tauntFadeOut]
    split
    · rename_i p hp
      exact resetTempThreat_ends hs (.inl (mem_of_getReferenceByTarget hp).1)
    · exact ⟨_, rfl⟩
  | attackMe caster => exact ⟨_, rfl⟩
  | resetAllAggro => exact resetAllAggro_ends hw depth hs hfuel
  | resetAggro predicate => exact resetAggro_ends hw depth predicate hs hfuel
  | getHostilTarget => exact getHostilTarget_ends w hs
  | isNeedUpdateToClient time => exact ⟨_, rfl⟩
  | clearReferences => exact ⟨_, rfl⟩
  | setOnlineOfflineState p isOnline =>
    have hp := hs.listed hact
    obtain ⟨r, hr⟩ := hs.reference hp
    obtain ⟨t, ht, -⟩ := setOnlineOfflineState_settled hs hp hr isOnline fun _ => by
      simpa [Answers, isValid, hr] using hact
    exact ⟨t, (if_pos hact).trans ht⟩
  | updateOnlineStatus p =>
    obtain ⟨t, ht, -⟩ := updateOnlineStatus_settled w hs (hs.listed hact)
    exact ⟨t, (if_pos hact).trans ht⟩
  | addThreatPercent p percent =>
    obtain ⟨t, ht⟩ := hpercent p percent (hs.listed hact)
    exact ⟨t, (if_pos hact).trans ht⟩
  | applyTempThreat p threat apply =>
    obtain ⟨t, ht⟩ := applyTempThreat_ends hs (hs.listed hact) threat apply
    exact ⟨t, (if_pos hact).trans ht⟩
  | invalidate p =>
    obtain ⟨t, ht⟩ := invalidate_ends hs (hs.listed hact)
    exact ⟨t, (if_pos hact).trans ht⟩
  | removeReference p =>
    obtain ⟨t, ht⟩ := removeReference_ends hs hact
    exact ⟨t, (if_pos hact).trans ht⟩
  | deleteReference p =>
    obtain ⟨t, ht⟩ := removeReference_ends hs hact
    exact ⟨_, (if_pos hact).trans (Option.bind_eq_some_iff.2 ⟨t, ht, rfl⟩)⟩

/-- In a creature's list every call ends, whatever was called before. -/
theorem reached_ends {owner : ObjectGuid} {cs : List (Call F)} {c : Call F}
    (hrun : Run (fun s c t => s.step c = some t) always { iOwner := owner } cs s)
    (hw : Usual c.world) (hdepth : 2 ≤ c.depth) (hfuel : 2 * s.online.length < c.fuel)
    (hact : s.Answers c.act) : ∃ t, s.step c = some t :=
  step_ends (hrun.invariant Sound (.new owner) fun _ _ _ hs _ h => hs.step h) hw hdepth hfuel hact

/-- The threat of a pet, its owner and a third unit is taken away. -/
theorem reached_ends_pets : ∃ s t : ThreatManager ℚ, petCalls.foldlM step { iOwner := 9 } = some s ∧
    s.online = [2] ∧ s.step ⟨pets, 2, 3, .resetAllAggro⟩ = some t := by
  have honline : (petCalls.foldlM step ({ iOwner := 9 } : ThreatManager ℚ)).map
      (fun s => s.online) = some [2] := by
    decide +kernel
  obtain ⟨s, hs, hone⟩ := Option.map_eq_some_iff.1 honline
  have hplain : ∀ u, ThreatCalcHelper.calcThreat pets u 0 SPELL_SCHOOL_MASK_NORMAL none = 0 := by
    intro u
    simp [ThreatCalcHelper.calcThreat, ThreatCalcHelper.ApplyTotalThreatModifier, pets]
  have husual : Usual pets := ⟨rfl, by decide +kernel, fun u => by rw [hplain]; decide +kernel,
    fun u => by rw [hplain]; decide +kernel⟩
  obtain ⟨t, ht⟩ := reached_ends (c := ⟨pets, 2, 3, .resetAllAggro⟩) (Run.of_foldlM hs) husual
    (by decide) (by rw [hone]; decide) trivial
  exact ⟨s, t, hs, hone, ht⟩

end Ashamane.Threat.ThreatManager
