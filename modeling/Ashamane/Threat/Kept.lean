import Ashamane.Threat.Flagged

/-! The changes of threat that leave the online list in order, or raise the flag. -/
namespace Ashamane.Threat.ThreatManager
open Ashamane.Lib

variable {w : World ℚ} {s t : ThreatManager ℚ} {p : Address}

section Order

def Overtaken (s : ThreatManager ℚ) (p : Address) (x : ℚ) : Prop :=
  x < 0 ∧ s.iCurrentVictim ≠ some p ∧
    ∃ q, [p, q].Sublist s.online ∧ s.Counts q ∧ s.threat p + x < s.threat q

def Displaces (s : ThreatManager ℚ) (p : Address) (threat : ℚ) : Prop :=
  s.iCurrentVictim = none ∧ p ∈ s.offline ∧ ∃ q ∈ s.online, s.threat q < threat

/-- A change by `x` of the threat of `p` that is no raise leaves the order right. -/
def ChangeKept (s : ThreatManager ℚ) (p : Address) (x : ℚ) : Prop :=
  ¬ s.Overtaken p x ∧ (x < 0 → ¬ s.Displaces p (s.threat p + x))

theorem changeKept_of_nonneg {x : ℚ} (hx : 0 ≤ x) : s.ChangeKept p x :=
  ⟨fun h => absurd h.1 (not_lt.mpr hx), fun h => absurd h (not_lt.mpr hx)⟩

theorem counts_iff (hvictim : t.iCurrentVictim = s.iCurrentVictim)
    (hthreat : ∀ q ∈ t.online, t.threat q = s.threat q)
    (hmem : ∀ v, t.iCurrentVictim = some v → v ∈ t.online) (hp : p ∈ t.online) :
    t.Counts p ↔ s.Counts p := by
  rw [Counts, Counts, hthreat p hp, hvictim]
  refine forall_congr' fun v => imp_congr_right fun hv => ?_
  rw [hthreat v (hmem v (hvictim.trans hv))]

structure Shrunk (s t : ThreatManager ℚ) : Prop where
  online : t.online.Sublist s.online
  victim : t.dirty = true ∨ t.iCurrentVictim = s.iCurrentVictim
  threat : ∀ q ∈ t.online, t.threat q = s.threat q
  dirty : Raises s t

theorem Shrunk.trans {u : ThreatManager ℚ} (h : Shrunk s t) (h' : Shrunk t u) : Shrunk s u where
  online := h'.online.trans h.online
  victim := by
    rcases h'.victim with hdirty | hvictim
    · exact .inl hdirty
    · exact h.victim.imp h'.dirty hvictim.trans
  threat q hq := (h'.threat q hq).trans (h.threat q (h'.online.subset hq))
  dirty := h.dirty.trans h'.dirty

theorem Same.shrunk (h : Same s t) : Shrunk s t :=
  ⟨h.online ▸ List.Sublist.refl _, .inr h.victim, fun q _ => h.threat q, h.raises⟩

theorem Same.calm (h : Same s t) (hs : s.Calm) : t.Calm := by
  have hthreat : t.threat = s.threat := funext h.threat
  have hcounts : t.Counts = s.Counts := by
    funext q
    rw [Counts, Counts, h.victim, hthreat]
  rw [Calm, hcounts, hthreat, h.online]
  exact hs

theorem Same.inOrder (h : Same s t) (hs : s.InOrder) : t.InOrder :=
  hs.imp h.raises h.calm

theorem Went.shrunk (h : Went s p t) : Shrunk s t where
  online := h.online ▸ List.filter_sublist
  victim := by
    by_cases hp : s.iCurrentVictim = some p
    · exact .inl (h.dirty.mpr (.inr hp))
    · exact .inr (h.victim.trans (if_neg hp))
  threat q _ := by rw [threat, threat, h.references]
  dirty hs := h.dirty.mpr (.inl hs)

theorem Shrunk.calm (h : Shrunk s t) (ht : Sound t) (hs : s.Calm)
    (hvictim : t.iCurrentVictim = s.iCurrentVictim) : t.Calm := by
  refine (List.Pairwise.and_mem.mp (List.Pairwise.sublist h.online hs)).imp ?_
  rintro q r ⟨hq, hr, hle⟩ hcounts
  rw [h.threat q hq, h.threat r hr]
  exact hle ((counts_iff hvictim h.threat ht.victim hr).mp hcounts)

theorem Shrunk.inOrder (h : Shrunk s t) (ht : Sound t) (hs : s.InOrder) : t.InOrder := by
  rcases hs with hdirty | hcalm
  · exact .inl (h.dirty hdirty)
  · exact h.victim.imp id (h.calm ht hcalm)

theorem Came.inOrder (h : Came s p t) (ht : Sound t) (hs : s.InOrder)
    (hplace : s.iCurrentVictim = none → ∀ q ∈ s.online, s.threat p ≤ s.threat q) : t.InOrder := by
  have hthreat : ∀ q, t.threat q = s.threat q := fun q => by rw [threat, threat, h.references]
  rcases hs with hdirty | hcalm
  · exact .inl (h.dirty.mpr (.inl hdirty))
  · by_cases hraised : t.dirty = true
    · exact .inl hraised
    refine .inr ?_
    have hcounts : ∀ q ∈ t.online, t.Counts q ↔ s.Counts q := fun q =>
      counts_iff h.victim (fun q _ => hthreat q) ht.victim
    rw [Calm, h.online, List.pairwise_append]
    refine ⟨?_, List.pairwise_singleton _ p, ?_⟩
    · refine (List.Pairwise.and_mem.mp hcalm).imp ?_
      rintro q r ⟨-, hr, hle⟩ hcount
      rw [hthreat, hthreat]
      exact hle ((hcounts r (h.online ▸ List.mem_append_left _ hr)).mp hcount)
    · intro q hq r hr hcount
      obtain rfl := List.mem_singleton.mp hr
      rw [hthreat, hthreat]
      cases hv : s.iCurrentVictim with
      | none => exact hplace hv q hq
      | some v =>
        refine absurd (h.dirty.mpr (.inr ⟨v, hv, ?_⟩)) hraised
        have habove := hcount v (h.victim.trans hv)
        rwa [hthreat, hthreat] at habove

theorem calm_of_higher (hs : s.Calm) (honline : t.online = s.online)
    (hthreat : ∀ q ∈ s.online, t.threat q = s.threat q)
    (hvictim : ∀ v, s.iCurrentVictim = some v → ∃ v', t.iCurrentVictim = some v' ∧
      s.threat v ≤ t.threat v') : t.Calm := by
  rw [Calm, honline]
  refine (List.Pairwise.and_mem.mp hs).imp ?_
  rintro q r ⟨hq, hr, hle⟩ hcounts
  rw [hthreat q hq, hthreat r hr]
  refine hle fun v hv => ?_
  obtain ⟨v', hv', hhigher⟩ := hvictim v hv
  have habove := hcounts v' hv'
  rw [hthreat r hr] at habove
  linarith

end Order

section Adds

variable {refAdd : ThreatManager ℚ → Address → ℚ → Option (ThreatManager ℚ)} {x : ℚ}
  {u : ObjectGuid}

def Bears (s t : ThreatManager ℚ) : Prop :=
  s.Calm → s.NoneNegative → t.dirty = true ∨ t.Calm ∧ t.NoneNegative

theorem Bears.refl (s : ThreatManager ℚ) : Bears s s := fun hcalm hnone => .inr ⟨hcalm, hnone⟩

theorem Bears.trans {u : ThreatManager ℚ} (h : Bears s t) (h' : Bears t u) (hu : Raises t u) :
    Bears s u := by
  intro hcalm hnone
  rcases h hcalm hnone with hdirty | ⟨hcalm, hnone⟩
  · exact .inl (hu hdirty)
  · exact h' hcalm hnone

def created (s : ThreatManager ℚ) (u : ObjectGuid) : ThreatManager ℚ :=
  { s.newReference u with
    iThreatContainer := (s.newReference u).iThreatContainer.addReference s.next }

theorem created_online : (s.created u).online = s.online ++ [s.next] := rfl

theorem created_threat (q : Address) :
    (s.created u).threat q = if q = s.next then 0 else s.threat q := by
  refine (threat_write s s.next q _).trans (if_congr Iff.rfl ?_ rfl)
  exact add_zero (0 : ℚ)

theorem Sound.next_not_mem (hs : Sound s) : s.next ∉ s.online := by
  intro hmem
  obtain ⟨r, hr⟩ := hs.reference (.inl hmem)
  rw [hs.fresh s.next le_rfl] at hr
  cases hr

theorem Sound.threat_created (hs : Sound s) {q : Address} (hq : q ∈ s.online) :
    (s.created u).threat q = s.threat q := by
  rw [created_threat, if_neg fun h : q = s.next => hs.next_not_mem (h ▸ hq)]

/-- What `_addThreat` does: a change of the reference that is there, or a new one. -/
theorem addThreatTo_cases (h : s.addThreatTo w refAdd u x = some t) :
    (∃ p, (s.getReferenceByTarget s.iThreatContainer u = some p ∨
        s.getReferenceByTarget s.iThreatOfflineContainer u = some p) ∧ refAdd s p x = some t) ∨
      s.getReferenceByTarget s.iThreatContainer u = none ∧
        s.getReferenceByTarget s.iThreatOfflineContainer u = none ∧
          ∃ s', refAdd (s.created u) s.next x = some s' ∧
            (w.isGameMaster u = true ∧ s'.setOnlineOfflineState s.next false = some t ∨
              s.online = [] ∧ t = s'.setCurrentVictim (some s.next) ∨ t = s') := by
  simp only [addThreatTo, Option.bind_eq_bind, Option.bind_eq_some_iff, Prod.exists] at h
  obtain ⟨found, s₁, h₁, h⟩ := h
  unfold containerAddThreat at h₁
  cases hon : s.getReferenceByTarget s.iThreatContainer u with
  | some p =>
    rw [hon] at h₁
    obtain ⟨t', ht', heq⟩ := Option.map_eq_some_iff.mp h₁
    obtain ⟨rfl, rfl⟩ := Prod.mk.inj heq
    obtain rfl : t' = t := by simpa using h
    exact .inl ⟨p, .inl rfl, ht'⟩
  | none =>
    rw [hon] at h₁
    obtain ⟨rfl, rfl⟩ := Prod.mk.inj (Option.some.inj h₁)
    simp only [Option.isSome_none, Bool.false_eq_true, if_false, Option.bind_eq_some_iff,
      Prod.exists] at h
    obtain ⟨found, s₂, h₂, h⟩ := h
    unfold containerAddThreat at h₂
    cases hoff : s.getReferenceByTarget s.iThreatOfflineContainer u with
    | some p =>
      rw [hoff] at h₂
      obtain ⟨t', ht', heq⟩ := Option.map_eq_some_iff.mp h₂
      obtain ⟨rfl, rfl⟩ := Prod.mk.inj heq
      obtain rfl : t' = t := by simpa using h
      exact .inl ⟨p, .inr rfl, ht'⟩
    | none =>
      rw [hoff] at h₂
      obtain ⟨rfl, rfl⟩ := Prod.mk.inj (Option.some.inj h₂)
      simp only [Option.isSome_none, Bool.false_eq_true, if_false, Option.bind_eq_some_iff] at h
      obtain ⟨s₃, h₃, h⟩ := h
      refine .inr ⟨rfl, rfl, s₃, h₃, ?_⟩
      split at h
      · rename_i hmaster
        exact .inl ⟨hmaster, h⟩
      · split at h
        · rename_i hempty
          exact .inr (.inl ⟨List.isEmpty_iff.mp hempty, (Option.some.inj h).symm⟩)
        · exact .inr (.inr (Option.some.inj h).symm)

theorem setOffline_shrunk (h : s.setOnlineOfflineState p false = some t) :
    Shrunk s t ∧ (Sound t → Bears s t) := by
  obtain ⟨r, hr, ⟨-, rfl⟩ | ⟨-, s', hsame, ⟨r', hr', hoff⟩, h⟩⟩ := setOnlineOfflineState_cases h
  · exact ⟨(Same.refl t).shrunk, fun _ => Bears.refl t⟩
  · have hwent := processThreatEvent_went hr' (.inl ⟨rfl, hoff⟩) h
    have hshrunk := hsame.shrunk.trans hwent.shrunk
    refine ⟨hshrunk, fun ht hcalm hnone => hshrunk.victim.imp_right fun hvictim =>
      ⟨hshrunk.calm ht hcalm hvictim, fun q hq => ?_⟩⟩
    rw [hshrunk.threat q hq]
    exact hnone q (hshrunk.online.subset hq)

theorem created_bears (hs : Sound s) : Bears s (s.created u) := by
  intro hcalm hnone
  refine .inr ⟨?_, fun q hq => ?_⟩
  · rw [Calm, created_online, List.pairwise_append]
    have hsame : ∀ v, s.iCurrentVictim = some v → (s.created u).threat v = s.threat v :=
      fun v hv => hs.threat_created (hs.victim v hv)
    refine ⟨?_, List.pairwise_singleton _ _, ?_⟩
    · refine (List.Pairwise.and_mem.mp hcalm).imp ?_
      rintro q r ⟨hq, hr, hle⟩ hcount
      rw [hs.threat_created hq, hs.threat_created hr]
      refine hle fun v hv => ?_
      have habove := hcount v hv
      rwa [hsame v hv, hs.threat_created hr] at habove
    · intro q hq r hr hcount
      obtain rfl := List.mem_singleton.mp hr
      rw [created_threat, if_pos rfl, hs.threat_created hq]
      exact hnone q hq
  · rw [created_threat]
    by_cases h : q = s.next
    · rw [if_pos h]
    · rw [if_neg h]
      rw [created_online] at hq
      exact hnone q ((List.mem_append.mp hq).resolve_right fun hnew =>
        h (List.mem_singleton.mp hnew))

theorem calm_of_single (h : s.online = [p]) : s.Calm := by
  rw [Calm, h]
  exact List.pairwise_singleton _ p

theorem addThreatTo_zero (hadd : ∀ s p t, refAdd s p 0 = some t → t = s) (hsafe : Safe refAdd)
    (hs : Sound s) (h : s.addThreatTo w refAdd u 0 = some t) : Bears s t := by
  have ht : Sound t := (addThreatTo_keeps w hsafe hs h).1
  obtain ⟨p, -, h⟩ | ⟨hon, hoff, s', h', hend⟩ := addThreatTo_cases h
  · obtain rfl := hadd s p t h
    exact Bears.refl t
  · obtain rfl := hadd _ _ _ h'
    rcases hend with ⟨-, hend⟩ | ⟨hempty, rfl⟩ | rfl
    · obtain ⟨hshrunk, hbears⟩ := setOffline_shrunk hend
      exact (created_bears hs).trans (hbears ht) hshrunk.dirty
    · intro hcalm hnone
      refine (created_bears (u := u) hs hcalm hnone).imp_right fun hkept => ?_
      have hsingle : ((s.created u).setCurrentVictim (some s.next)).online = [s.next] := by
        show s.online ++ [s.next] = [s.next]
        rw [hempty, List.nil_append]
      exact ⟨calm_of_single hsingle, hkept.2⟩
    · exact created_bears hs

end Adds

section Changes

variable {x : ℚ} {r : HostileReference ℚ}

theorem threat_write_self : (s.write p r).threat p = r.getThreat := by
  rw [threat_write, if_pos rfl]

theorem threat_write_of_ne {q : Address} (h : q ≠ p) : (s.write p r).threat q = s.threat q := by
  rw [threat_write, if_neg h]

/-- A raise of the victim: it counts as little as before, and others less. -/
theorem calm_of_raise (hcalm : s.Calm) (hv : s.iCurrentVictim = some p) (h0 : 0 ≤ s.threat p)
    (hr : r.getThreat = s.threat p + x) (hx : 0 < x) : (s.write p r).Calm := by
  refine List.pairwise_iff_forall_sublist.mpr fun {q q'} hpair hcount => ?_
  have habove := hcount p hv
  rw [threat_write_self, hr] at habove
  have hlower : q' ≠ p := by
    rintro rfl
    rw [threat_write_self, hr] at habove
    linarith
  rw [threat_write_of_ne hlower] at habove ⊢
  have hbefore : s.threat q' ≤ s.threat q := by
    refine List.pairwise_iff_forall_sublist.mp hcalm hpair fun v hv' => ?_
    obtain rfl := Option.some.inj (hv.symm.trans hv')
    linarith
  by_cases hq : q = p
  · subst hq
    linarith
  · rwa [threat_write_of_ne hq]

/-- A drop of another reference that does not fall below one that counts. -/
theorem calm_of_drop (hcalm : s.Calm) (hv : s.iCurrentVictim ≠ some p)
    (hr : r.getThreat = s.threat p + x) (hx : x < 0) (hkept : ¬ s.Overtaken p x) :
    (s.write p r).Calm := by
  refine List.pairwise_iff_forall_sublist.mpr fun {q q'} hpair hcount => ?_
  have hle := List.pairwise_iff_forall_sublist.mp hcalm hpair
  have hvictim : ∀ v, s.iCurrentVictim = some v → (s.write p r).threat v = s.threat v := by
    rintro v hv'
    exact threat_write_of_ne fun h => hv (h ▸ hv')
  have hcounts : s.Counts q' := by
    intro v hv'
    have habove := hcount v hv'
    rw [hvictim v hv', threat_write] at habove
    by_cases hq : q' = p
    · rw [if_pos hq, hr] at habove
      rw [hq]
      linarith
    · rwa [if_neg hq] at habove
  have hold := hle hcounts
  by_cases hq' : q' = p
  · subst hq'
    rw [threat_write_self, hr]
    by_cases hq : q = q'
    · rw [hq, threat_write_self, hr]
    · rw [threat_write_of_ne hq]
      linarith
  · rw [threat_write_of_ne hq']
    by_cases hq : q = p
    · subst hq
      rw [threat_write_self, hr]
      exact not_lt.mp fun hlt => hkept ⟨hx, hv, q', hpair, hcounts, hlt⟩
    · rwa [threat_write_of_ne hq]

theorem change_online (hcalm : s.Calm) (hnone : s.NoneNegative) (hp : p ∈ s.online)
    (hr : r.getThreat = s.threat p + x) (hx : x ≠ 0) (hkept : ¬ s.Overtaken p x)
    (h : (s.write p r).processThreatEvent p (.threatChange x) = some t) :
    t.dirty = true ∨ t = s.write p r ∧ t.Calm ∧ (0 < x → t.NoneNegative) := by
  rcases processThreatEvent_change h with ⟨-, rfl⟩ | ⟨hnot, rfl⟩
  · exact .inl rfl
  refine .inr ⟨rfl, ?_⟩
  have hvictim : (s.write p r).iCurrentVictim = s.iCurrentVictim := rfl
  rw [hvictim, not_or, not_and, not_and] at hnot
  rcases lt_or_gt_of_ne hx with hneg | hpos
  · have hv : s.iCurrentVictim ≠ some p := fun hv => hnot.1 hv hneg
    exact ⟨calm_of_drop hcalm hv hr hneg hkept, fun hpos => absurd hpos (not_lt.mpr hneg.le)⟩
  · have hv : s.iCurrentVictim = some p := not_not.mp fun hv => hnot.2 hv hpos
    refine ⟨calm_of_raise hcalm hv (hnone p hp) hr hpos, fun _ q hq => ?_⟩
    rw [threat_write]
    by_cases hq' : q = p
    · rw [if_pos hq', hr]
      have := hnone p hp
      linarith
    · rw [if_neg hq']
      exact hnone q hq

theorem calm_write_offline (hs : Sound s) (hcalm : s.Calm) (hp : p ∉ s.online) :
    (s.write p r).Calm := by
  have hne : ∀ q ∈ s.online, q ≠ p := fun q hq h => hp (h ▸ hq)
  refine calm_of_higher hcalm rfl (fun q hq => threat_write_of_ne (hne q hq)) fun v hv =>
    ⟨v, hv, ?_⟩
  rw [threat_write_of_ne (hne v (hs.victim v hv))]

theorem change_offline (hs : Sound s) (hcalm : s.Calm) (hp : p ∉ s.online)
    (h : (s.write p r).processThreatEvent p (.threatChange x) = some t) : t.InOrder := by
  rcases processThreatEvent_change h with ⟨-, rfl⟩ | ⟨-, rfl⟩
  · exact .inl rfl
  · exact .inr (calm_write_offline hs hcalm hp)

theorem updateOnlineStatus_cases (h : s.updateOnlineStatus w p = some t) :
    ∃ r, s.references p = some r ∧ ∃ v r', Same s v ∧ v.references p = some r' ∧
      r'.iOnline = r.iOnline ∧ ∃ b, v.setOnlineOfflineState p b = some t := by
  obtain ⟨r, hr, h⟩ := Option.bind_eq_some_iff.mp h
  obtain ⟨r₁, hr₁, h⟩ := Option.bind_eq_some_iff.mp h
  obtain ⟨v, hv, h⟩ := Option.bind_eq_some_iff.mp h
  have hrelink : Same s (s.relink w p r) ∧ r₁.iOnline = r.iOnline := by
    unfold relink at hr₁ ⊢
    split at hr₁
    · rename_i hcond
      rw [if_pos hcond]
      have hself : (s.link p r r.iUnitGuid).references p =
          some { r with iRefTo := some r.iUnitGuid } := Function.update_self ..
      obtain rfl := Option.some.inj (hself.symm.trans hr₁)
      exact ⟨same_write hr rfl, rfl⟩
    · rename_i hcond
      rw [if_neg hcond]
      obtain rfl := Option.some.inj (hr.symm.trans hr₁)
      exact ⟨Same.refl s, rfl⟩
  obtain ⟨hsame, hon⟩ := setAccessibleState_same hv
  obtain ⟨r', hr', hon'⟩ := hon r₁ hr₁
  exact ⟨r, hr, v, r', hrelink.1.trans hsame, hr', hon'.trans hrelink.2, _, h⟩

theorem setOnline_inOrder {b : Bool} (hin : s.InOrder) (ht : Sound t)
    (hplace : b = true → (∃ r, s.references p = some r ∧ r.iOnline = false) →
      s.iCurrentVictim = none → ∀ q ∈ s.online, s.threat p ≤ s.threat q)
    (h : s.setOnlineOfflineState p b = some t) : t.InOrder := by
  obtain ⟨r, hr, ⟨-, rfl⟩ | ⟨hne, v, hsame, ⟨r', hr', hon⟩, hevent⟩⟩ :=
    setOnlineOfflineState_cases h
  · exact hin
  · cases b with
    | false =>
      have hwent := processThreatEvent_went hr' (.inl ⟨rfl, hon⟩) hevent
      exact (hsame.shrunk.trans hwent.shrunk).inOrder ht hin
    | true =>
      have hcame := processThreatEvent_came hr' hon hevent
      refine hcame.inOrder ht (hsame.inOrder hin) fun hv q hq => ?_
      rw [hsame.threat, hsame.threat]
      exact hplace rfl ⟨r, hr, Bool.eq_false_iff.mpr hne⟩ (hsame.victim.symm.trans hv) q
        (hsame.online ▸ hq)

end Changes

section Additions

variable {refAdd : ThreatManager ℚ → Address → ℚ → Option (ThreatManager ℚ)} {x : ℚ}
  {u : ObjectGuid} {depth : Nat}

theorem refAddThreat_zero_eq : ∀ s p t, refAddThreat w depth s p (0 : ℚ) = some t → t = s := by
  intro s p t h
  cases depth with
  | zero => cases h
  | succ depth =>
    unfold refAddThreat at h
    simpa using h.symm

theorem threatChanged_cases (h : s.threatChanged w refAdd p x = some t) :
    ∃ v, s.processThreatEvent p (.threatChange x) = some v ∧ (t = v ∨ 0 < x ∧
      ∃ owner, v.addThreatOver w refAdd owner 0 SPELL_SCHOOL_MASK_NORMAL none = some t) := by
  obtain ⟨v, hv, h⟩ := Option.bind_eq_some_iff.mp h
  refine ⟨v, hv, ?_⟩
  obtain ⟨r, -, h⟩ := Option.bind_eq_some_iff.mp h
  have hsame : some v = some t → t = v := fun h => (Option.some.inj h).symm
  split at h
  · exact .inl (hsame h)
  · split at h
    · rename_i hpos
      split at h
      · rename_i owner _
        split at h
        · exact .inr ⟨hpos, owner, h⟩
        · exact .inl (hsame h)
      · exact .inl (hsame h)
    · exact .inl (hsame h)

theorem addThreatOver_zero {mask : Nat} (hadd : ∀ s p t, refAdd s p 0 = some t → t = s)
    (hsafe : Safe refAdd) (hs : Sound s)
    (h : s.addThreatOver w refAdd u 0 mask none = some t) : Bears s t := by
  obtain ⟨valid, -, h⟩ := Option.bind_eq_some_iff.mp h
  have hcalc : ThreatCalcHelper.calcThreat w u (0 : ℚ) mask none = 0 := by
    rw [ThreatCalcHelper.calcThreat, ThreatCalcHelper.ApplyTotalThreatModifier]
    split
    · rfl
    · exact zero_mul _
  rw [hcalc] at h
  split at h
  · unfold doAddThreat at h
    split at h
    · rw [if_neg fun h => lt_irrefl _ h.1] at h
      exact addThreatTo_zero hadd hsafe hs h
    · exact addThreatTo_zero hadd hsafe hs h
  · obtain rfl := Option.some.inj h
    exact Bears.refl s

theorem getThreat_add (r : HostileReference ℚ) (x : ℚ) :
    HostileReference.getThreat { r with iThreat := r.iThreat + x } = r.getThreat + x :=
  add_right_comm r.iThreat x r.iTempThreatModifier

theorem setOnline_victim {b : Bool} (h : s.setOnlineOfflineState p b = some t) :
    t.iCurrentVictim = s.iCurrentVictim ∨ t.iCurrentVictim = none := by
  obtain ⟨r, hr, ⟨-, rfl⟩ | ⟨-, v, hsame, ⟨r', hr', hon⟩, hevent⟩⟩ :=
    setOnlineOfflineState_cases h
  · exact .inl rfl
  · cases b with
    | false =>
      have hwent := processThreatEvent_went hr' (.inl ⟨rfl, hon⟩) hevent
      rw [hwent.victim]
      split
      · exact .inr rfl
      · exact .inl hsame.victim
    | true => exact .inl ((processThreatEvent_came hr' hon hevent).victim.trans hsame.victim)

theorem Sound.writeThreat (hs : Sound s) {r : HostileReference ℚ} (hr : s.references p = some r)
    (x : ℚ) : Sound (s.write p { r with iThreat := r.iThreat + x }) := by
  have halike : Alike s (s.write p { r with iThreat := r.iThreat + x }) := alike_write hr rfl
  exact halike.sound hs

theorem Sound.not_online (hs : Sound s) (hp : p ∈ s.offline) : p ∉ s.online := by
  intro hon
  obtain ⟨u, hu⟩ := hs.online p hon
  obtain ⟨u', l, hu'⟩ := hs.offline p hp
  simp [hu] at hu'

/-- The threat of a reference that is not the victim rises: the flag goes up. -/
theorem refAddThreat_dirty (hx : 0 < x) (hv : s.iCurrentVictim ≠ some p)
    (h : refAddThreat w depth s p x = some t) : t.dirty = true := by
  have hraised : ∀ {s' : ThreatManager ℚ} {depth : Nat}, s'.iCurrentVictim ≠ some p →
      s'.threatChanged w (refAddThreat w depth) p x = some t → t.dirty = true := by
    intro s' depth hv h
    obtain ⟨v, hevent, hraises⟩ := threatChanged_raises (refAddThreat_raises w depth) h
    rcases processThreatEvent_change hevent with ⟨-, rfl⟩ | ⟨hnot, -⟩
    · exact hraises rfl
    · exact absurd (.inr ⟨hv, hx⟩) hnot
  cases depth with
  | zero => cases h
  | succ depth =>
    unfold refAddThreat at h
    rw [if_neg (by simpa using hx.ne')] at h
    obtain ⟨r, hr, h⟩ := Option.bind_eq_some_iff.mp h
    split at h
    · exact hraised (show (s.write p _).iCurrentVictim ≠ some p from hv) h
    · obtain ⟨v, hstatus, h⟩ := Option.bind_eq_some_iff.mp h
      refine hraised (fun hvictim => ?_) h
      obtain ⟨-, -, v', -, hsame, -, -, b, hset⟩ := updateOnlineStatus_cases hstatus
      rcases setOnline_victim hset with hkeep | hnone
      · exact hv ((hkeep.trans hsame.victim).symm.trans hvictim)
      · rw [hnone] at hvictim
        cases hvictim

theorem refAddThreat_bears (hs : Sound s) (hp : s.Listed p) (hx : 0 ≤ x)
    (h : refAddThreat w depth s p x = some t) : Bears s t := by
  rcases hx.eq_or_lt with rfl | hpos
  · rw [refAddThreat_zero_eq s p t h]
    exact Bears.refl s
  by_cases hv : s.iCurrentVictim = some p
  · intro hcalm hnone
    have hon : p ∈ s.online := hs.victim p hv
    cases depth with
    | zero => cases h
    | succ depth =>
      unfold refAddThreat at h
      rw [if_neg (by simpa using hpos.ne')] at h
      obtain ⟨r, hr, h⟩ := Option.bind_eq_some_iff.mp h
      rw [if_pos ((hs.status hp hr).1.mp hon)] at h
      obtain ⟨v, hevent, hend⟩ := threatChanged_cases h
      have hthreat : HostileReference.getThreat { r with iThreat := r.iThreat + x } =
          s.threat p + x := by rw [getThreat_add, threat_eq hr]
      obtain ⟨v', hv', hraises⟩ := threatChanged_raises (refAddThreat_raises w depth) h
      obtain rfl := Option.some.inj (hevent.symm.trans hv')
      rcases change_online hcalm hnone hon hthreat hpos.ne' (changeKept_of_nonneg hx).1 hevent with
        hdirty | ⟨hsame, hcalm', hnone'⟩
      · exact .inl (hraises hdirty)
      · rcases hend with rfl | ⟨-, owner, howner⟩
        · exact .inr ⟨hcalm', hnone' hpos⟩
        · have hsound : Sound v := hsame ▸ hs.writeThreat hr x
          exact addThreatOver_zero refAddThreat_zero_eq (refAddThreat_safe w depth) hsound howner
            hcalm' (hnone' hpos)
  · exact fun _ _ => .inl (refAddThreat_dirty hpos hv h)

theorem threatChanged_neg (hneg : x < 0) (h : s.threatChanged w refAdd p x = some t) :
    s.processThreatEvent p (.threatChange x) = some t := by
  obtain ⟨v, hevent, rfl | ⟨hpos, -⟩⟩ := threatChanged_cases h
  · exact hevent
  · exact absurd hpos (not_lt.mpr hneg.le)

theorem refAddThreat_drop (hs : Sound s) (hp : p ∈ s.online) (hneg : x < 0)
    (h : refAddThreat w depth s p x = some t) : ∃ r, s.references p = some r ∧
      (s.write p { r with iThreat := r.iThreat + x }).processThreatEvent p (.threatChange x) =
        some t := by
  cases depth with
  | zero => cases h
  | succ depth =>
    unfold refAddThreat at h
    rw [if_neg (by simpa using hneg.ne)] at h
    obtain ⟨r, hr, h⟩ := Option.bind_eq_some_iff.mp h
    rw [if_pos ((hs.status (.inl hp) hr).1.mp hp)] at h
    exact ⟨r, hr, threatChanged_neg hneg h⟩

/-- Any change by `refAddThreat` that is kept. -/
theorem refAddThreat_inOrder (hs : Sound s) (hp : s.Listed p) (hcalm : s.Calm)
    (hnone : s.NoneNegative) (hkept : s.ChangeKept p x)
    (h : refAddThreat w depth s p x = some t) : t.InOrder := by
  rcases le_or_gt 0 x with hx | hneg
  · exact (refAddThreat_bears hs hp hx h hcalm hnone).imp_right And.left
  by_cases hon : p ∈ s.online
  · obtain ⟨r, hr, hevent⟩ := refAddThreat_drop hs hon hneg h
    have hthreat : HostileReference.getThreat { r with iThreat := r.iThreat + x } =
        s.threat p + x := by rw [getThreat_add, threat_eq hr]
    exact (change_online hcalm hnone hon hthreat hneg.ne hkept.1 hevent).imp_right
      fun hchange => hchange.2.1
  have hoff : p ∈ s.offline := hp.resolve_left hon
  cases depth with
  | zero => cases h
  | succ depth =>
    unfold refAddThreat at h
    rw [if_neg (by simpa using hneg.ne)] at h
    obtain ⟨r, hr, h⟩ := Option.bind_eq_some_iff.mp h
    rw [if_neg fun h => hon ((hs.status hp hr).1.mpr h)] at h
    have hthreat : HostileReference.getThreat { r with iThreat := r.iThreat + x } =
        s.threat p + x := by rw [getThreat_add, threat_eq hr]
    obtain ⟨v, hstatus, h⟩ := Option.bind_eq_some_iff.mp h
    obtain ⟨v', hv', hsettled⟩ := updateOnlineStatus_settled w (hs.writeThreat hr x) hp
    obtain rfl := Option.some.inj (hstatus.symm.trans hv')
    obtain ⟨-, -, v₁, r₁, hsame, -, -, b, hset⟩ := updateOnlineStatus_cases hstatus
    have hin : v.InOrder := by
      refine setOnline_inOrder (hsame.inOrder (.inr (calm_write_offline hs hcalm hon)))
        hsettled.sound (fun _ _ hvictim q hq => ?_) hset
      rw [hsame.victim] at hvictim
      rw [hsame.online] at hq
      rw [hsame.threat, hsame.threat, threat_write_self, hthreat,
        threat_write_of_ne fun h : q = p => hon (h ▸ hq)]
      exact not_lt.mp fun hlt => hkept.2 hneg ⟨hvictim, hoff, q, hq, hlt⟩
    rcases processThreatEvent_change (threatChanged_neg hneg h) with ⟨-, rfl⟩ | ⟨-, rfl⟩
    · exact .inl rfl
    · exact hin

def Found (s : ThreatManager ℚ) (u : ObjectGuid) (p : Address) : Prop :=
  s.getReferenceByTarget s.iThreatContainer u = some p ∨
    s.getReferenceByTarget s.iThreatOfflineContainer u = some p

theorem Found.listed (h : s.Found u p) : s.Listed p :=
  h.imp (fun h => (mem_of_getReferenceByTarget h).1) fun h => (mem_of_getReferenceByTarget h).1

def AddKept (s : ThreatManager ℚ) (u : ObjectGuid) (x : ℚ) : Prop :=
  ∀ p, s.Found u p → s.ChangeKept p x

theorem addThreatTo_bears (hs : Sound s) (hx : 0 ≤ x)
    (h : s.addThreatTo w (refAddThreat w depth) u x = some t) : Bears s t := by
  rcases hx.eq_or_lt with rfl | hpos
  · exact addThreatTo_zero refAddThreat_zero_eq (refAddThreat_safe w depth) hs h
  obtain ⟨p, hp, h⟩ | ⟨-, -, s', h', hend⟩ := addThreatTo_cases h
  · exact refAddThreat_bears hs (Found.listed hp) hx h
  · have hdirty : s'.dirty = true := by
      have hv : (s.created u).iCurrentVictim ≠ some s.next := fun hv =>
        hs.next_not_mem (hs.victim _ hv)
      exact refAddThreat_dirty hpos hv h'
    refine fun _ _ => .inl ?_
    rcases hend with ⟨-, hend⟩ | ⟨-, rfl⟩ | rfl
    · exact setOnlineOfflineState_raises hend hdirty
    · exact hdirty
    · exact hdirty

theorem addThreatTo_inOrder (hs : Sound s) (hcalm : s.Calm) (hnone : s.NoneNegative)
    (hkept : s.AddKept u x) (h : s.addThreatTo w (refAddThreat w depth) u x = some t) :
    t.InOrder := by
  rcases le_or_gt 0 x with hx | hneg
  · exact (addThreatTo_bears hs hx h hcalm hnone).imp_right And.left
  have ht : Sound t := (addThreatTo_keeps w (refAddThreat_safe w depth) hs h).1
  obtain ⟨p, hp, h⟩ | ⟨hon, hoff, s', h', hend⟩ := addThreatTo_cases h
  · exact refAddThreat_inOrder hs (Found.listed hp) hcalm hnone (hkept p hp) h
  have hnew : Sound (s.created u) := hs.newReference hon hoff
  have hmem : s.next ∈ (s.created u).online := List.mem_append_right _ (List.mem_singleton.mpr rfl)
  -- nothing is behind the new reference
  have hlast : (s.created u).ChangeKept s.next x := by
    refine ⟨?_, fun _ hdisplaces => hnew.not_online hdisplaces.2.1 hmem⟩
    rintro ⟨-, -, q, hpair, -⟩
    rw [created_online] at hpair
    obtain ⟨l, l', heq, hl, hl'⟩ := List.sublist_append_iff.mp hpair
    cases l with
    | nil =>
      rw [List.nil_append] at heq
      have hlen := hl'.length_le
      rw [← heq] at hlen
      exact absurd hlen (by simp)
    | cons a l =>
      obtain ⟨rfl, -⟩ := List.cons.inj heq
      exact hs.next_not_mem (hl.subset List.mem_cons_self)
  have hin : s'.InOrder := by
    rcases created_bears (u := u) hs hcalm hnone with hdirty | ⟨hcalm', hnone'⟩
    · exact .inl (refAddThreat_raises w depth _ _ _ _ h' hdirty)
    · exact refAddThreat_inOrder hnew (.inl hmem) hcalm' hnone' hlast h'
  rcases hend with ⟨-, hend⟩ | ⟨hempty, rfl⟩ | rfl
  · exact (setOffline_shrunk hend).1.inOrder ht hin
  · obtain ⟨r, -, hevent⟩ := refAddThreat_drop hnew hmem hneg h'
    rcases processThreatEvent_change hevent with ⟨-, rfl⟩ | ⟨-, rfl⟩
    · exact .inl rfl
    · refine .inr (calm_of_single (p := s.next) ?_)
      show s.online ++ [s.next] = [s.next]
      rw [hempty, List.nil_append]
  · exact hin

end Additions

end Ashamane.Threat.ThreatManager
