import Ashamane.Threat.Chosen

/-! What the events do to the online list, and to the flag that asks for it to be sorted. -/
namespace Ashamane.Threat.ThreatManager
open Ashamane.Lib

variable {w : World ℚ} {s t : ThreatManager ℚ} {p : Address}

section Events

structure Went (s : ThreatManager ℚ) (p : Address) (t : ThreatManager ℚ) : Prop where
  online : t.online = s.online.filter (· ≠ p)
  victim : t.iCurrentVictim = if s.iCurrentVictim = some p then none else s.iCurrentVictim
  references : t.references = s.references
  dirty : t.dirty = true ↔ s.dirty = true ∨ s.iCurrentVictim = some p

structure Came (s : ThreatManager ℚ) (p : Address) (t : ThreatManager ℚ) : Prop where
  online : t.online = s.online ++ [p]
  victim : t.iCurrentVictim = s.iCurrentVictim
  references : t.references = s.references
  dirty : t.dirty = true ↔
    s.dirty = true ∨ ∃ v, s.iCurrentVictim = some v ∧ 11 / 10 * s.threat v < s.threat p

theorem processThreatEvent_went {event : ThreatRefStatusChangeEvent ℚ} {r : HostileReference ℚ}
    (hr : s.references p = some r)
    (hevent : event = .onlineStatus ∧ r.iOnline = false ∨
      event = .removeFromList ∧ r.iOnline = true)
    (h : s.processThreatEvent p event = some t) : Went s p t := by
  have hvictim : ∀ u : ThreatManager ℚ,
      (if s.iCurrentVictim = some p then (s.setCurrentVictim none).setDirty true else s) = u →
        t.online = u.online.filter (· ≠ p) → t.iCurrentVictim = u.iCurrentVictim →
          t.references = u.references → t.dirty = u.dirty → Went s p t := by
    rintro u rfl honline hv href hdirty
    by_cases hp : s.iCurrentVictim = some p
    · simp only [hp, if_true] at honline hv href hdirty
      exact ⟨honline, by rw [hv, if_pos hp]; rfl, href,
        iff_of_true hdirty (.inr hp)⟩
    · simp only [hp, if_false] at honline hv href hdirty
      exact ⟨honline, by rw [hv, if_neg hp], href, by
        rw [hdirty]
        exact (or_iff_left hp).symm⟩
  obtain ⟨r', hr', h⟩ := Option.bind_eq_some_iff.mp h
  obtain rfl := Option.some.inj (hr.symm.trans hr')
  rcases hevent with ⟨rfl, hoff⟩ | ⟨rfl, hon⟩
  · simp only [hoff, Bool.not_false, if_true] at h
    obtain rfl := Option.some.inj h
    exact hvictim _ rfl rfl rfl rfl rfl
  · simp only [hon, if_true] at h
    obtain rfl := Option.some.inj h
    exact hvictim _ rfl rfl rfl rfl rfl

theorem processThreatEvent_came {r : HostileReference ℚ} (hr : s.references p = some r)
    (hon : r.iOnline = true) (h : s.processThreatEvent p .onlineStatus = some t) : Came s p t := by
  obtain ⟨r', hr', h⟩ := Option.bind_eq_some_iff.mp h
  obtain rfl := Option.some.inj (hr.symm.trans hr')
  simp only [hon, Bool.not_true, Bool.false_eq_true, if_false] at h
  cases hv : s.iCurrentVictim with
  | none =>
    simp only [hv] at h
    obtain rfl := Option.some.inj h
    refine ⟨rfl, rfl, rfl, (or_iff_left ?_).symm⟩
    rintro ⟨v, hv', -⟩
    rw [hv] at hv'
    cases hv'
  | some current =>
    simp only [hv] at h
    obtain ⟨v, hvr, h⟩ := Option.bind_eq_some_iff.mp h
    have habove : (∃ v, s.iCurrentVictim = some v ∧ 11 / 10 * s.threat v < s.threat p) ↔
        tenths 11 v.getThreat < r.getThreat := by
      rw [threat_eq hr]
      constructor
      · rintro ⟨v', hv', hlt⟩
        obtain rfl := Option.some.inj (hv.symm.trans hv')
        rw [threat_eq hvr] at hlt
        exact hlt
      · intro hlt
        refine ⟨current, hv, ?_⟩
        rw [threat_eq hvr]
        exact hlt
    by_cases hlt : tenths 11 v.getThreat < r.getThreat
    · rw [if_pos hlt] at h
      obtain rfl := Option.some.inj h
      exact ⟨rfl, rfl, rfl, iff_of_true rfl (.inr (habove.mpr hlt))⟩
    · rw [if_neg hlt] at h
      obtain rfl := Option.some.inj h
      exact ⟨rfl, rfl, rfl, (or_iff_left fun h => hlt (habove.mp h)).symm⟩

theorem processThreatEvent_change {x : ℚ}
    (h : s.processThreatEvent p (.threatChange x) = some t) :
    ((s.iCurrentVictim = some p ∧ x < 0 ∨ s.iCurrentVictim ≠ some p ∧ 0 < x) ∧
      t = s.setDirty true) ∨
      (¬(s.iCurrentVictim = some p ∧ x < 0 ∨ s.iCurrentVictim ≠ some p ∧ 0 < x) ∧ t = s) := by
  obtain ⟨r, -, h⟩ := Option.bind_eq_some_iff.mp h
  dsimp only at h
  split at h
  · rename_i hcond
    exact .inl ⟨hcond, (Option.some.inj h).symm⟩
  · rename_i hcond
    exact .inr ⟨hcond, (Option.some.inj h).symm⟩

structure Same (s t : ThreatManager ℚ) : Prop where
  online : t.online = s.online
  offline : t.offline = s.offline
  victim : t.iCurrentVictim = s.iCurrentVictim
  threat : ∀ q, t.threat q = s.threat q
  dirty : t.dirty = s.dirty

theorem Same.refl (s : ThreatManager ℚ) : Same s s := ⟨rfl, rfl, rfl, fun _ => rfl, rfl⟩

theorem Same.trans {u : ThreatManager ℚ} (h : Same s t) (h' : Same t u) : Same s u :=
  ⟨h'.online.trans h.online, h'.offline.trans h.offline, h'.victim.trans h.victim,
    fun q => (h'.threat q).trans (h.threat q), h'.dirty.trans h.dirty⟩

theorem threat_write (s : ThreatManager ℚ) (p q : Address) (r : HostileReference ℚ) :
    (s.write p r).threat q = if q = p then r.getThreat else s.threat q := by
  by_cases h : q = p
  · subst h
    rw [if_pos rfl]
    exact threat_eq (Function.update_self ..)
  · have href : (s.write p r).references q = s.references q := Function.update_of_ne h ..
    rw [if_neg h, threat, threat, href]

theorem same_write {r r' : HostileReference ℚ} (hr : s.references p = some r)
    (hthreat : r'.getThreat = r.getThreat) : Same s (s.write p r') where
  online := rfl
  offline := rfl
  victim := rfl
  threat q := by
    rw [threat_write]
    by_cases h : q = p
    · rw [if_pos h, hthreat, h, threat_eq hr]
    · rw [if_neg h]
  dirty := rfl

theorem setAccessibleState_same {b : Bool} (h : s.setAccessibleState p b = some t) :
    Same s t ∧ ∀ r, s.references p = some r →
      ∃ r', t.references p = some r' ∧ r'.iOnline = r.iOnline := by
  obtain ⟨r, hr, h⟩ := Option.bind_eq_some_iff.mp h
  split at h
  · obtain ⟨r', -, h⟩ := Option.bind_eq_some_iff.mp h
    obtain rfl := Option.some.inj h
    refine ⟨same_write hr rfl, fun r₀ hr₀ => ⟨_, Function.update_self .., ?_⟩⟩
    rw [Option.some.inj (hr₀.symm.trans hr)]
  · obtain rfl := Option.some.inj h
    exact ⟨Same.refl s, fun r₀ hr₀ => ⟨r₀, hr₀, rfl⟩⟩

theorem setOnlineOfflineState_cases {b : Bool} (h : s.setOnlineOfflineState p b = some t) :
    ∃ r, s.references p = some r ∧ (r.iOnline = b ∧ t = s ∨
      r.iOnline ≠ b ∧ ∃ u, Same s u ∧ (∃ r', u.references p = some r' ∧ r'.iOnline = b) ∧
        u.processThreatEvent p .onlineStatus = some t) := by
  obtain ⟨r, hr, h⟩ := Option.bind_eq_some_iff.mp h
  refine ⟨r, hr, ?_⟩
  have hsame : Same s (s.write p { r with iOnline := b }) := same_write hr rfl
  have hself : (s.write p { r with iOnline := b }).references p = some { r with iOnline := b } :=
    Function.update_self ..
  split at h
  · rename_i hne
    refine .inr ⟨hne, ?_⟩
    cases b with
    | false =>
      obtain ⟨u, hu, h⟩ := Option.bind_eq_some_iff.mp h
      obtain ⟨hu, hon⟩ := setAccessibleState_same hu
      exact ⟨u, hsame.trans hu, hon _ hself, h⟩
    | true => exact ⟨_, hsame, ⟨_, hself, rfl⟩, h⟩
  · rename_i heq
    exact .inl ⟨not_not.mp heq, (Option.some.inj h).symm⟩

end Events

section Flag

variable {refAdd : ThreatManager ℚ → Address → ℚ → Option (ThreatManager ℚ)} {x : ℚ} {b : Bool}

def Raises (s t : ThreatManager ℚ) : Prop := s.dirty = true → t.dirty = true

theorem Raises.refl (s : ThreatManager ℚ) : Raises s s := id

theorem Raises.trans {u : ThreatManager ℚ} (h : Raises s t) (h' : Raises t u) : Raises s u :=
  fun hs => h' (h hs)

theorem processThreatEvent_raises {event : ThreatRefStatusChangeEvent ℚ}
    (h : s.processThreatEvent p event = some t) : Raises s t := by
  intro hs
  obtain ⟨r, hr, hbody⟩ := Option.bind_eq_some_iff.mp h
  cases event with
  | threatChange value =>
    rcases processThreatEvent_change h with ⟨-, rfl⟩ | ⟨-, rfl⟩
    · rfl
    · exact hs
  | onlineStatus =>
    cases hon : r.iOnline with
    | false => exact (processThreatEvent_went hr (.inl ⟨rfl, hon⟩) h).dirty.mpr (.inl hs)
    | true => exact (processThreatEvent_came hr hon h).dirty.mpr (.inl hs)
  | accessibleStatus =>
    obtain rfl := Option.some.inj hbody
    exact hs
  | removeFromList =>
    cases hon : r.iOnline with
    | true => exact (processThreatEvent_went hr (.inr ⟨rfl, hon⟩) h).dirty.mpr (.inl hs)
    | false =>
      simp only [hon, Bool.false_eq_true, if_false] at hbody
      obtain rfl := Option.some.inj hbody
      by_cases hp : s.iCurrentVictim = some p
      · simp only [hp, if_true]
        rfl
      · simp only [hp, if_false]
        exact hs

theorem Same.raises (h : Same s t) : Raises s t := fun hs => h.dirty.trans hs

theorem setOnlineOfflineState_raises (h : s.setOnlineOfflineState p b = some t) : Raises s t := by
  obtain ⟨r, -, h⟩ := setOnlineOfflineState_cases h
  rcases h with ⟨-, rfl⟩ | ⟨-, u, hu, -, h⟩
  · exact Raises.refl t
  · exact hu.raises.trans (processThreatEvent_raises h)

theorem relink_raises (w : World ℚ) (s : ThreatManager ℚ) (p : Address)
    (r : HostileReference ℚ) : Raises s (s.relink w p r) := by
  unfold relink
  split
  · exact id
  · exact id

theorem updateOnlineStatus_raises (h : s.updateOnlineStatus w p = some t) : Raises s t := by
  obtain ⟨r, -, h⟩ := Option.bind_eq_some_iff.mp h
  obtain ⟨r', -, h⟩ := Option.bind_eq_some_iff.mp h
  obtain ⟨u, hu, h⟩ := Option.bind_eq_some_iff.mp h
  exact (relink_raises w s p r).trans
    ((setAccessibleState_same hu).1.raises.trans (setOnlineOfflineState_raises h))

theorem containerAddThreat_raises (hadd : ∀ s p x t, refAdd s p x = some t → Raises s t)
    {c : ThreatContainer} {u : ObjectGuid} {found : Option Address}
    (h : s.containerAddThreat refAdd c u x = some (found, t)) : Raises s t := by
  unfold containerAddThreat at h
  split at h
  · obtain ⟨t', ht', heq⟩ := Option.map_eq_some_iff.mp h
    obtain ⟨-, rfl⟩ := Prod.mk.inj heq
    exact hadd _ _ _ _ ht'
  · obtain ⟨-, rfl⟩ := Prod.mk.inj (Option.some.inj h)
    exact Raises.refl s

theorem addThreatTo_raises (hadd : ∀ s p x t, refAdd s p x = some t → Raises s t)
    {u : ObjectGuid} (h : s.addThreatTo w refAdd u x = some t) : Raises s t := by
  simp only [addThreatTo, Option.bind_eq_bind, Option.bind_eq_some_iff, Prod.exists] at h
  obtain ⟨found, s₁, h₁, h⟩ := h
  have hk₁ := containerAddThreat_raises hadd h₁
  split at h
  · obtain rfl : s₁ = t := by simpa using h
    exact hk₁
  · simp only [Option.bind_eq_some_iff, Prod.exists] at h
    obtain ⟨found, s₂, h₂, h⟩ := h
    have hk₂ := hk₁.trans (containerAddThreat_raises hadd h₂)
    split at h
    · obtain rfl : s₂ = t := by simpa using h
      exact hk₂
    · simp only [Option.bind_eq_some_iff] at h
      obtain ⟨s₃, h₃, h⟩ := h
      have hk₃ : Raises s s₃ := hk₂.trans fun hs => hadd _ _ _ _ h₃ hs
      split at h
      · exact hk₃.trans (setOnlineOfflineState_raises h)
      · split at h
        · obtain rfl := Option.some.inj h
          exact hk₃
        · obtain rfl := Option.some.inj h
          exact hk₃

theorem doAddThreat_raises (hadd : ∀ s p x t, refAdd s p x = some t → Raises s t)
    {u : ObjectGuid} (h : s.doAddThreat w refAdd u x = some t) : Raises s t := by
  unfold doAddThreat at h
  split at h
  · split at h
    · obtain ⟨s₁, h₁, h₂⟩ := Option.bind_eq_some_iff.mp h
      exact (addThreatTo_raises hadd h₁).trans (addThreatTo_raises hadd h₂)
    · exact addThreatTo_raises hadd h
  · exact addThreatTo_raises hadd h

theorem addThreatOver_raises (hadd : ∀ s p x t, refAdd s p x = some t → Raises s t)
    {u : ObjectGuid} {mask : Nat} {spell : Option (SpellInfo ℚ)}
    (h : s.addThreatOver w refAdd u x mask spell = some t) : Raises s t := by
  obtain ⟨valid, -, h⟩ := Option.bind_eq_some_iff.mp h
  split at h
  · exact doAddThreat_raises hadd h
  · obtain rfl := Option.some.inj h
    exact Raises.refl s

/-- What is added for the owner keeps the flag up that the event raises. -/
theorem threatChanged_raises (hadd : ∀ s p x t, refAdd s p x = some t → Raises s t)
    (h : s.threatChanged w refAdd p x = some t) :
    ∃ u, s.processThreatEvent p (.threatChange x) = some u ∧ Raises u t := by
  obtain ⟨u, hu, h⟩ := Option.bind_eq_some_iff.mp h
  refine ⟨u, hu, ?_⟩
  obtain ⟨r, -, h⟩ := Option.bind_eq_some_iff.mp h
  have hsame : some u = some t → Raises u t := fun h => Option.some.inj h ▸ Raises.refl u
  split at h
  · exact hsame h
  · split at h
    · split at h
      · split at h
        · exact addThreatOver_raises hadd h
        · exact hsame h
      · exact hsame h
    · exact hsame h

theorem refAddThreat_raises (w : World ℚ) (depth : Nat) :
    ∀ s p x t, refAddThreat w depth s p x = some t → Raises s t := by
  induction depth with
  | zero =>
    intro s p x t h
    cases h
  | succ depth ih =>
    intro s p x t h
    unfold refAddThreat at h
    split at h
    · obtain rfl : s = t := by simpa using h
      exact Raises.refl s
    · obtain ⟨r, -, h⟩ := Option.bind_eq_some_iff.mp h
      split at h
      · obtain ⟨u, hu, hraises⟩ := threatChanged_raises ih h
        exact Raises.trans (t := u) (processThreatEvent_raises (s := s.write p _) hu) hraises
      · obtain ⟨s₁, h₁, h⟩ := Option.bind_eq_some_iff.mp h
        obtain ⟨u, hu, hraises⟩ := threatChanged_raises ih h
        exact Raises.trans (t := s₁) (updateOnlineStatus_raises (s := s.write p _) h₁)
          ((processThreatEvent_raises hu).trans hraises)

end Flag

end Ashamane.Threat.ThreatManager
