import Ashamane.Threat.Kept

/-! Over every run of calls that keep the order, the victim is chosen as from the ordered list. -/
namespace Ashamane.Threat.ThreatManager
open Ashamane.Lib

variable {w : World ℚ} {s t : ThreatManager ℚ} {l : List Address} {p : Address}

section Calls

variable {x : ℚ} {u : ObjectGuid} {depth : Nat} {c : Call ℚ}

def DoAddKept (w : World ℚ) (depth : Nat) (s : ThreatManager ℚ) (u : ObjectGuid) (x : ℚ) : Prop :=
  match redirect w u with
  | (pct, some target) =>
    if 0 < x ∧ pct ≠ 0 then
      ∀ s', s.addThreatTo w (refAddThreat w depth) target (CalculatePct x pct) = some s' →
        s'.AddKept u (x - CalculatePct x pct)
    else s.AddKept u x
  | (_, none) => s.AddKept u x

theorem doAddThreat_inOrder (hs : Sound s) (hcalm : s.Calm) (hnone : s.NoneNegative)
    (hkept : DoAddKept w depth s u x)
    (h : s.doAddThreat w (refAddThreat w depth) u x = some t) : t.InOrder := by
  unfold doAddThreat at h
  unfold DoAddKept at hkept
  split at h
  · rename_i pct target hredirect
    rw [hredirect] at hkept
    dsimp only at hkept
    split at h
    · rename_i hcond
      rw [if_pos hcond] at hkept
      obtain ⟨s₁, h₁, h₂⟩ := Option.bind_eq_some_iff.mp h
      have hpart : 0 ≤ CalculatePct x (pct : Int) := by
        have hpos : (0 : ℚ) < x := hcond.1
        exact div_nonneg (mul_nonneg hpos.le (Int.cast_nonneg (Int.natCast_nonneg pct)))
          (Nat.cast_nonneg 100)
      have hs₁ := (addThreatTo_keeps w (refAddThreat_safe w depth) hs h₁).1
      rcases addThreatTo_bears hs hpart h₁ hcalm hnone with hdirty | ⟨hcalm, hnone⟩
      · exact .inl (addThreatTo_raises (refAddThreat_raises w depth) h₂ hdirty)
      · exact addThreatTo_inOrder hs₁ hcalm hnone (hkept s₁ h₁) h₂
    · rename_i hcond
      rw [if_neg hcond] at hkept
      exact addThreatTo_inOrder hs hcalm hnone hkept h
  · rename_i hredirect
    rw [hredirect] at hkept
    exact addThreatTo_inOrder hs hcalm hnone hkept h

theorem addTempThreat_cases (h : s.addTempThreat p x = some t) : x = 0 ∧ t = s ∨
    x ≠ 0 ∧ ∃ r, s.references p = some r ∧
      (s.write p { r with iTempThreatModifier := r.iTempThreatModifier + x }).processThreatEvent p
        (.threatChange x) = some t := by
  unfold addTempThreat at h
  split at h
  · rename_i hzero
    exact .inl ⟨by simpa using hzero, (by simpa using h.symm)⟩
  · rename_i hne
    obtain ⟨r, hr, h⟩ := Option.bind_eq_some_iff.mp h
    exact .inr ⟨by simpa using hne, r, hr, h⟩

theorem addTempThreat_raises (h : s.addTempThreat p x = some t) : Raises s t := by
  rcases addTempThreat_cases h with ⟨-, rfl⟩ | ⟨-, r, -, h⟩
  · exact Raises.refl t
  · exact fun hs => processThreatEvent_raises h hs

theorem addTempThreat_inOrder (hs : Sound s) (hcalm : s.Calm) (hnone : s.NoneNegative)
    (hkept : ¬ s.Overtaken p x) (h : s.addTempThreat p x = some t) : t.InOrder := by
  rcases addTempThreat_cases h with ⟨-, rfl⟩ | ⟨hne, r, hr, h⟩
  · exact .inr hcalm
  · by_cases hon : p ∈ s.online
    · have hthreat : HostileReference.getThreat
          { r with iTempThreatModifier := r.iTempThreatModifier + x } = s.threat p + x := by
        rw [threat_eq hr]
        exact (add_assoc r.iThreat r.iTempThreatModifier x).symm
      exact (change_online hcalm hnone hon hthreat hne hkept h).imp_right fun hchange =>
        hchange.2.1
    · exact change_offline hs hcalm hon h

theorem eachOnline_cases {visit : ThreatManager ℚ → Address → Option (ThreatManager ℚ)}
    (hvisit : ∀ s p t, visit s p = some t → t = s ∨ t.dirty = true) (fuel i : Nat)
    (h : eachOnline visit fuel i s = some t) : t = s ∨ t.dirty = true := by
  induction fuel generalizing s i with
  | zero => cases h
  | succ fuel ih =>
    unfold eachOnline at h
    split at h
    · exact .inl (Option.some.inj h).symm
    · obtain ⟨s', hs', hrest⟩ := Option.bind_eq_some_iff.mp h
      rcases hvisit _ _ _ hs' with rfl | hdirty
      · exact ih _ hrest
      · rcases ih _ hrest with rfl | hdirty'
        · exact .inr hdirty
        · exact .inr hdirty'

theorem resetAllAggro_cases {fuel : Nat} (h : s.resetAllAggro w depth fuel = some t) :
    t = s ∨ t.dirty = true := by
  unfold resetAllAggro at h
  split at h
  · exact .inl (by simpa using h.symm)
  · obtain ⟨s', -, h⟩ := Option.bind_eq_some_iff.mp h
    obtain rfl := Option.some.inj h
    exact .inr rfl

theorem resetAggro_cases {predicate : Option ObjectGuid → Bool} {fuel : Nat}
    (h : s.resetAggro w depth predicate fuel = some t) : t = s ∨ t.dirty = true := by
  refine eachOnline_cases (fun s p t h => ?_) fuel 0 h
  obtain ⟨r, -, h⟩ := Option.bind_eq_some_iff.mp h
  split at h
  · obtain ⟨s', -, h⟩ := Option.bind_eq_some_iff.mp h
    obtain rfl := Option.some.inj h
    exact .inr rfl
  · exact .inl (Option.some.inj h).symm

theorem processThreatEvent_remove (h : s.processThreatEvent p .removeFromList = some t) :
    Shrunk s t := by
  obtain ⟨r, hr, hbody⟩ := Option.bind_eq_some_iff.mp h
  cases hon : r.iOnline with
  | true => exact (processThreatEvent_went hr (.inr ⟨rfl, hon⟩) h).shrunk
  | false =>
    simp only [hon, Bool.false_eq_true, if_false] at hbody
    by_cases hp : s.iCurrentVictim = some p
    · simp only [hp, if_true] at hbody
      obtain rfl := Option.some.inj hbody
      exact ⟨List.Sublist.refl _, .inl rfl, fun _ _ => rfl, processThreatEvent_raises h⟩
    · simp only [hp, if_false] at hbody
      obtain rfl := Option.some.inj hbody
      exact ⟨List.Sublist.refl _, .inr rfl, fun _ _ => rfl, processThreatEvent_raises h⟩

theorem invalidate_shrunk (h : s.invalidate p = some t) : Shrunk s t := by
  obtain ⟨s', hs', h⟩ := Option.bind_eq_some_iff.mp h
  obtain ⟨r, hr, h⟩ := Option.bind_eq_some_iff.mp h
  obtain rfl := Option.some.inj h
  have hcut : Same s' (s'.write p { r with iRefTo := none }) := same_write hr rfl
  exact (setOffline_shrunk hs').1.trans hcut.shrunk

theorem removeReference_shrunk (h : s.removeReference p = some t) : Shrunk s t := by
  obtain ⟨s', hs', h⟩ := Option.bind_eq_some_iff.mp h
  exact (invalidate_shrunk hs').trans (processThreatEvent_remove h)

theorem deleteReference_shrunk (ht : Sound t) (h : s.deleteReference p = some t) : Shrunk s t := by
  obtain ⟨s', hs', h⟩ := Option.bind_eq_some_iff.mp h
  refine (removeReference_shrunk hs').trans ?_
  obtain rfl := Option.some.inj h
  refine ⟨List.Sublist.refl _, .inr rfl, fun q hq => ?_, id⟩
  have hne : q ≠ p := by
    rintro rfl
    obtain ⟨r, hr⟩ := ht.reference (.inl hq)
    simp at hr
  simp [threat, Function.update_of_ne hne]

theorem getHostilTarget_inOrder (hs : Sound s) (hin : s.InOrder)
    (hkept : s.dirty = true ∨ s.Sorted ∨ s.Holds w) (h : s.getHostilTarget w = some t) :
    t.InOrder := by
  obtain ⟨next, hnext, h⟩ := Option.bind_eq_some_iff.mp h
  obtain rfl := Option.some.inj h
  refine .inr ?_
  by_cases hdirty : s.dirty = true
  · have honline : (s.update.setCurrentVictim next).online = s.ordered := by
      refine Eq.trans (b := s.update.online) rfl ?_
      rw [update_online, if_pos hdirty]
    refine Sorted.calm ?_
    rw [Sorted, honline]
    exact s.pairwise_ordered
  · have hcalm := hin.resolve_left hdirty
    have honline : s.update.online = s.online := by rw [update_online, if_neg hdirty]
    rcases hkept.resolve_left hdirty with hsorted | hold
    · refine Sorted.calm ?_
      rw [Sorted, show (s.update.setCurrentVictim next).online = s.online from honline]
      exact hsorted
    refine calm_of_higher hcalm honline (fun _ _ => rfl) fun v hv => ?_
    have hchoice := selectNextVictim_calm (t := s.update) hs hold hv (.of_eq honline) rfl
      (congrArg _ honline) (honline ▸ hcalm)
    have hnext' : s.update.selectNextVictim w (some v) = some next := hv ▸ hnext
    refine ⟨_, Option.some.inj (hnext'.symm.trans hchoice), ?_⟩
    show s.threat v ≤ s.threat _
    cases hfind : s.online.find? (overtakes w s v) with
    | none => exact le_rfl
    | some q =>
      have h0 := (hold v hv).1
      have habove := counts_of_overtakes hv h0 (List.find?_some hfind) v hv
      rw [Option.getD_some]
      linarith

end Calls

section Runs

variable {x : ℚ} {u : ObjectGuid} {depth : Nat} {c : Call ℚ}

def Kept (s : ThreatManager ℚ) (c : Call ℚ) : Prop :=
  s.dirty = true ∨ s.NoneNegative ∧
    match c.act with
    | .addThreat u threat schoolMask threatSpell => DoAddKept c.world c.depth s u
        (ThreatCalcHelper.calcThreat c.world u threat schoolMask threatSpell)
    | .doAddThreat u threat => DoAddKept c.world c.depth s u threat
    | .modifyThreatPercent u percent =>
      ∀ p, s.getReferenceByTarget s.iThreatContainer u = some p →
        ∀ r, s.references p = some r → s.ChangeKept p (CalculatePct r.iThreat percent)
    | .addThreatPercent p percent =>
      ∀ r, s.references p = some r → s.ChangeKept p (CalculatePct r.iThreat percent)
    | .tauntFadeOut u =>
      ∀ p, s.getReferenceByTarget s.iThreatContainer u = some p →
        ∀ r, s.references p = some r → ¬ s.Overtaken p (-r.iTempThreatModifier)
    | .applyTempThreat p threat apply =>
      ∀ r, s.references p = some r →
        (apply = true → r.iTempThreatModifier = 0 → ¬ s.Overtaken p threat) ∧
          (apply = false → ¬ s.Overtaken p (-r.iTempThreatModifier))
    | .attackMe u =>
      ∀ p, s.getReferenceByTarget s.iThreatContainer u = some p →
        (s.setCurrentVictim (some p)).Calm
    | .getHostilTarget => s.Sorted ∨ s.Holds c.world
    | .setOnlineOfflineState p isOnline => isOnline = true → ¬ s.Displaces p (s.threat p)
    | .updateOnlineStatus p => ¬ s.Displaces p (s.threat p)
    | _ => True

theorem updateOnlineStatus_inOrder (hs : Sound s) (hp : s.Listed p) (hin : s.InOrder)
    (hkept : ¬ s.Displaces p (s.threat p)) (h : s.updateOnlineStatus w p = some t) :
    t.InOrder := by
  obtain ⟨t', ht', hsettled⟩ := updateOnlineStatus_settled w hs hp
  obtain rfl := Option.some.inj (h.symm.trans ht')
  obtain ⟨r, hr, v, r', hsame, hr', hon, b, hset⟩ := updateOnlineStatus_cases h
  refine setOnline_inOrder (hsame.inOrder hin) hsettled.sound ?_ hset
  rintro - ⟨r₁, hr₁, hoff⟩ hvictim q hq
  obtain rfl := Option.some.inj (hr'.symm.trans hr₁)
  rw [hsame.threat, hsame.threat]
  exact not_lt.mp fun hlt => hkept ⟨hsame.victim.symm.trans hvictim,
    (hs.status hp hr).2.mpr (hon.symm.trans hoff), q, hsame.online ▸ hq, hlt⟩

theorem step_raises (hact : c.act ≠ .getHostilTarget) (h : s.step c = some t) : Raises s t := by
  have hadd := refAddThreat_raises c.world c.depth
  have hcases : t = s ∨ t.dirty = true → Raises s t := fun hcase hs =>
    hcase.elim (fun heq => heq ▸ hs) id
  obtain ⟨w, depth, fuel, act⟩ := c
  cases act with
  | addThreat u threat schoolMask threatSpell => exact addThreatOver_raises hadd h
  | doAddThreat u threat => exact doAddThreat_raises hadd h
  | modifyThreatPercent u percent =>
    dsimp only [ThreatManager.step, modifyThreatPercent] at h
    split at h
    · obtain ⟨r, -, h⟩ := Option.bind_eq_some_iff.mp h
      exact hadd _ _ _ _ h
    · exact Option.some.inj h ▸ Raises.refl s
  | tauntApply u =>
    dsimp only [ThreatManager.step, tauntApply] at h
    split at h
    · obtain ⟨v, -, h⟩ := Option.bind_eq_some_iff.mp h
      obtain ⟨r, -, h⟩ := Option.bind_eq_some_iff.mp h
      split at h
      · obtain ⟨r', -, h⟩ := Option.bind_eq_some_iff.mp h
        exact addTempThreat_raises h
      · exact Option.some.inj h ▸ Raises.refl s
    · exact Option.some.inj h ▸ Raises.refl s
  | tauntFadeOut u =>
    dsimp only [ThreatManager.step, tauntFadeOut] at h
    split at h
    · obtain ⟨r, -, h⟩ := Option.bind_eq_some_iff.mp h
      exact addTempThreat_raises h
    · exact Option.some.inj h ▸ Raises.refl s
  | attackMe u =>
    obtain rfl := Option.some.inj h
    unfold attackMe
    split
    · exact id
    · exact id
  | resetAllAggro => exact hcases (resetAllAggro_cases h)
  | resetAggro predicate => exact hcases (resetAggro_cases h)
  | getHostilTarget => exact absurd rfl hact
  | isNeedUpdateToClient time =>
    obtain rfl := Option.some.inj h
    unfold isNeedUpdateToClient
    split
    · exact id
    · split
      · exact id
      · exact id
  | clearReferences =>
    obtain rfl := Option.some.inj h
    exact id
  | setOnlineOfflineState p isOnline =>
    dsimp only [ThreatManager.step] at h
    split at h
    · exact setOnlineOfflineState_raises h
    · cases h
  | updateOnlineStatus p =>
    dsimp only [ThreatManager.step] at h
    split at h
    · exact updateOnlineStatus_raises h
    · cases h
  | addThreatPercent p percent =>
    dsimp only [ThreatManager.step] at h
    split at h
    · obtain ⟨r, -, h⟩ := Option.bind_eq_some_iff.mp h
      exact hadd _ _ _ _ h
    · cases h
  | applyTempThreat p threat apply =>
    dsimp only [ThreatManager.step] at h
    split at h
    · obtain ⟨r, -, h⟩ := Option.bind_eq_some_iff.mp h
      split at h
      · split at h
        · exact addTempThreat_raises h
        · exact Option.some.inj h ▸ Raises.refl s
      · obtain ⟨r', -, h⟩ := Option.bind_eq_some_iff.mp h
        exact addTempThreat_raises h
    · cases h
  | invalidate p =>
    dsimp only [ThreatManager.step] at h
    split at h
    · exact (invalidate_shrunk h).dirty
    · cases h
  | removeReference p =>
    dsimp only [ThreatManager.step] at h
    split at h
    · exact (removeReference_shrunk h).dirty
    · cases h
  | deleteReference p =>
    dsimp only [ThreatManager.step] at h
    split at h
    · obtain ⟨s', hs', h⟩ := Option.bind_eq_some_iff.mp h
      obtain rfl := Option.some.inj h
      exact (removeReference_shrunk hs').dirty
    · cases h

theorem InOrder.step (hs : Sound s) (hin : s.InOrder) (hkept : s.Kept c) (h : s.step c = some t) :
    t.InOrder := by
  have ht : Sound t := hs.step h
  by_cases hact : c.act = .getHostilTarget
  · obtain ⟨w, depth, fuel, act⟩ := c
    obtain rfl : act = .getHostilTarget := hact
    exact getHostilTarget_inOrder hs hin (hkept.imp_right And.right) h
  by_cases hdirty : s.dirty = true
  · exact .inl (step_raises hact h hdirty)
  have hcalm := hin.resolve_left hdirty
  obtain ⟨hnone, hkept⟩ := hkept.resolve_left hdirty
  have hcases : t = s ∨ t.dirty = true → t.InOrder := fun hcase =>
    hcase.elim (fun heq => heq ▸ hin) .inl
  obtain ⟨w, depth, fuel, act⟩ := c
  cases act with
  | addThreat u threat schoolMask threatSpell =>
    obtain ⟨valid, -, h⟩ := Option.bind_eq_some_iff.mp h
    split at h
    · exact doAddThreat_inOrder hs hcalm hnone hkept h
    · exact Option.some.inj h ▸ hin
  | doAddThreat u threat => exact doAddThreat_inOrder hs hcalm hnone hkept h
  | modifyThreatPercent u percent =>
    dsimp only [ThreatManager.step, modifyThreatPercent] at h
    split at h
    · rename_i p hp
      obtain ⟨r, hr, h⟩ := Option.bind_eq_some_iff.mp h
      exact refAddThreat_inOrder hs (.inl (mem_of_getReferenceByTarget hp).1) hcalm hnone
        (hkept p hp r hr) h
    · exact Option.some.inj h ▸ hin
  | tauntApply u =>
    dsimp only [ThreatManager.step, tauntApply] at h
    split at h
    · rename_i v p hv hp
      obtain ⟨rv, hrv, h⟩ := Option.bind_eq_some_iff.mp h
      obtain ⟨r, hr, h⟩ := Option.bind_eq_some_iff.mp h
      split at h
      · rename_i hcond
        obtain ⟨r', hr', h⟩ := Option.bind_eq_some_iff.mp h
        obtain rfl := Option.some.inj (hr.symm.trans hr')
        have hzero : r.iTempThreatModifier = 0 := by simpa using hcond.2
        -- the victim's threat is added
        refine addTempThreat_inOrder hs hcalm hnone (fun hover => ?_) h
        have hneg : rv.getThreat - r.iTempThreatModifier < 0 := hover.1
        have h0 : 0 ≤ s.threat v := hnone v (hs.victim v hv)
        rw [threat_eq hrv] at h0
        rw [hzero] at hneg
        linarith
      · exact Option.some.inj h ▸ hin
    · exact Option.some.inj h ▸ hin
  | tauntFadeOut u =>
    dsimp only [ThreatManager.step, tauntFadeOut] at h
    split at h
    · rename_i p hp
      obtain ⟨r, hr, h⟩ := Option.bind_eq_some_iff.mp h
      exact addTempThreat_inOrder hs hcalm hnone (hkept p hp r hr) h
    · exact Option.some.inj h ▸ hin
  | attackMe u =>
    obtain rfl := Option.some.inj h
    unfold attackMe
    split
    · rename_i p hp
      exact .inr (hkept p hp)
    · exact hin
  | resetAllAggro => exact hcases (resetAllAggro_cases h)
  | resetAggro predicate => exact hcases (resetAggro_cases h)
  | getHostilTarget => exact absurd rfl hact
  | isNeedUpdateToClient time =>
    obtain rfl := Option.some.inj h
    unfold isNeedUpdateToClient
    split
    · exact hin
    · split
      · exact hin
      · exact hin
  | clearReferences =>
    obtain rfl := Option.some.inj h
    exact .inr List.Pairwise.nil
  | setOnlineOfflineState p isOnline =>
    dsimp only [ThreatManager.step] at h
    split at h
    · rename_i hvalid
      have hp := hs.listed hvalid
      refine setOnline_inOrder hin ht ?_ h
      rintro hb ⟨r, hr, hoff⟩ hvictim q hq
      exact not_lt.mp fun hlt => hkept hb ⟨hvictim, (hs.status hp hr).2.mpr hoff, q, hq, hlt⟩
    · cases h
  | updateOnlineStatus p =>
    dsimp only [ThreatManager.step] at h
    split at h
    · rename_i hvalid
      exact updateOnlineStatus_inOrder hs (hs.listed hvalid) hin hkept h
    · cases h
  | addThreatPercent p percent =>
    dsimp only [ThreatManager.step] at h
    split at h
    · rename_i hvalid
      obtain ⟨r, hr, h⟩ := Option.bind_eq_some_iff.mp h
      exact refAddThreat_inOrder hs (hs.listed hvalid) hcalm hnone (hkept r hr) h
    · cases h
  | applyTempThreat p threat apply =>
    dsimp only [ThreatManager.step] at h
    split at h
    · obtain ⟨r, hr, h⟩ := Option.bind_eq_some_iff.mp h
      obtain ⟨hraise, hreset⟩ := hkept r hr
      split at h
      · rename_i happly
        split at h
        · rename_i hzero
          exact addTempThreat_inOrder hs hcalm hnone (hraise happly (by simpa using hzero)) h
        · exact Option.some.inj h ▸ hin
      · rename_i happly
        have hreset := hreset (Bool.eq_false_iff.mpr happly)
        obtain ⟨r', hr', h⟩ := Option.bind_eq_some_iff.mp h
        obtain rfl := Option.some.inj (hr.symm.trans hr')
        exact addTempThreat_inOrder hs hcalm hnone hreset h
    · cases h
  | invalidate p =>
    dsimp only [ThreatManager.step] at h
    split at h
    · exact (invalidate_shrunk h).inOrder ht hin
    · cases h
  | removeReference p =>
    dsimp only [ThreatManager.step] at h
    split at h
    · exact (removeReference_shrunk h).inOrder ht hin
    · cases h
  | deleteReference p =>
    dsimp only [ThreatManager.step] at h
    split at h
    · exact (deleteReference_shrunk ht h).inOrder ht hin
    · cases h

/-- Over every run of calls that are kept: the victim that is chosen is the one that the rule
gives on the ordered references. -/
theorem run_ruled {owner : ObjectGuid} {cs : List (Call ℚ)} {fuel : Nat}
    (hrun : Run (fun s c t => s.step c = some t) Kept { iOwner := owner } cs t)
    (hkept : t.Kept ⟨w, depth, fuel, .getHostilTarget⟩) :
    (t.getHostilTarget w).map iCurrentVictim = t.ruled w := by
  have hinv : Sound t ∧ t.InOrder := by
    refine hrun.invariant (fun s => Sound s ∧ s.InOrder) ⟨.new owner, .inr .nil⟩ ?_
    intro s c u ⟨hs, hin⟩ hkept hstep
    exact ⟨hs.step hstep, hin.step hs hkept hstep⟩
  exact hinv.2.ruled hinv.1 (hkept.imp_right And.right)

end Runs

section Example

/-- All units can be attacked; only unit 2 comes into melee range, when `near`. -/
def arena (near : Bool) : World ℚ where
  ownerAlive := true
  ownerIsCreature := true
  ownerSummon := none
  getUnit _ := true
  isGameMaster _ := false
  isAlive _ := true
  isInMap _ := true
  isInPhase _ := true
  inFlight _ := false
  isInAccessiblePlace _ := true
  isWithinCombatRange _ := true
  isWithinMeleeRange u := near && u == 2
  canCreatureAttack _ := true
  isImmunedToDamage _ := false
  hasInterruptAura _ := false
  charmerOrOwner _ := none
  redirectThreatPercent _ := 0
  redirectThreatTarget _ := none
  tempSummon _ := none
  hasThreatAura _ := false
  threatModifier _ _ := 1
  applySpellMod _ threat := threat

def arenaCall (act : Act ℚ) : Call ℚ := ⟨arena false, 1, 0, act⟩

def threeCalls : List (Call ℚ) :=
  [arenaCall (.addThreat 3 100 1 none), arenaCall (.addThreat 1 125 1 none),
    arenaCall (.addThreat 2 120 1 none)]

def three : ThreatManager ℚ :=
  (threeCalls.foldlM step { iOwner := 9 }).getD { iOwner := 9 }

theorem threeCalls_run : threeCalls.foldlM step ({ iOwner := 9 } : ThreatManager ℚ) = some three :=
  rfl

def threeOrdered : ThreatManager ℚ :=
  { three with
    iCurrentVictim := some 0
    iThreatContainer := { iThreatList := [1, 2, 0] } }

theorem ordered_eq (hperm : l.Perm s.online)
    (hsorted : l.Pairwise fun q r => s.threat r ≤ s.threat q)
    (hinj : ∀ a ∈ l, ∀ b ∈ l, s.threat a = s.threat b → a = b) : s.ordered = l := by
  have hmem : ∀ {a}, a ∈ s.ordered ↔ a ∈ l := (s.ordered_perm.trans hperm.symm).mem_iff
  exact List.Perm.eq_of_pairwise
    (fun a b ha hb hba hab => hinj a (hmem.mp ha) b hb (le_antisymm hab hba))
    s.pairwise_ordered hsorted (s.ordered_perm.trans hperm.symm)

theorem three_getHostilTarget : three.getHostilTarget (arena false) = some threeOrdered := by
  have hordered : three.ordered = [1, 2, 0] :=
    ordered_eq (by decide +kernel) (by decide +kernel) (by decide +kernel)
  have hlist : three.update.online = [1, 2, 0] := by
    rw [update_online, if_pos (by decide +kernel), hordered]
  have hupdate : three.update =
      { three with iThreatContainer := { iThreatList := three.update.online } } := rfl
  rw [hlist] at hupdate
  have hnext : ThreatManager.selectNextVictim (arena false)
      { three with iThreatContainer := { iThreatList := [1, 2, 0] } } three.iCurrentVictim =
        some (some 0) := by decide +kernel
  rw [getHostilTarget, hupdate]
  dsimp only
  rw [hnext]
  rfl

def dropped : ThreatManager ℚ :=
  (threeOrdered.step (arenaCall (.modifyThreatPercent 1 (-60)))).getD { iOwner := 9 }

theorem dropped_run :
    threeOrdered.step (arenaCall (.modifyThreatPercent 1 (-60))) = some dropped := by
  have hends : (threeOrdered.step (arenaCall (.modifyThreatPercent 1 (-60)))).isSome = true := by
    decide +kernel
  obtain ⟨t, ht⟩ := Option.isSome_iff_exists.mp hends
  rw [dropped, ht, Option.getD_some]

/-- Then unit 2 comes into melee range, with 120% of the victim's threat, and is passed over. -/
theorem dropped_passed_over :
    Run (fun s c t => s.step c = some t) always { iOwner := 9 }
        (threeCalls ++ [arenaCall .getHostilTarget, arenaCall (.modifyThreatPercent 1 (-60))])
        dropped ∧
      (dropped.getHostilTarget (arena true)).map iCurrentVictim = some (some 0) ∧
        dropped.ruled (arena true) = some (some 2) := by
  have hordered : dropped.ordered = [2, 0, 1] :=
    ordered_eq (by decide +kernel) (by decide +kernel) (by decide +kernel)
  refine ⟨?_, by decide +kernel, ?_⟩
  · refine (Run.of_foldlM threeCalls_run).append ?_
    exact .cons trivial three_getHostilTarget (.cons trivial dropped_run (.nil dropped))
  · rw [ruled, reordered, hordered]
    decide +kernel

def raised : ThreatManager ℚ :=
  (threeOrdered.step (arenaCall (.addThreat 3 5 1 none))).getD { iOwner := 9 }

theorem raised_run : threeOrdered.step (arenaCall (.addThreat 3 5 1 none)) = some raised := by
  have hends : (threeOrdered.step (arenaCall (.addThreat 3 5 1 none))).isSome = true := by
    decide +kernel
  obtain ⟨t, ht⟩ := Option.isSome_iff_exists.mp hends
  rw [raised, ht, Option.getD_some]

theorem doAddKept_arena {near : Bool} {x : ℚ} {u : ObjectGuid} {depth : Nat} (hx : 0 ≤ x) :
    DoAddKept (arena near) depth s u x := fun _ _ => changeKept_of_nonneg hx

theorem three_run : Run (fun s c t => s.step c = some t) Kept { iOwner := 9 } threeCalls three := by
  have hrun := threeCalls_run
  simp only [threeCalls, List.foldlM_cons, List.foldlM_nil, Option.bind_eq_bind,
    Option.bind_eq_some_iff] at hrun
  obtain ⟨s₁, h₁, s₂, h₂, s₃, h₃, hend⟩ := hrun
  obtain rfl := Option.some.inj hend
  have hfirst : (step { iOwner := 9 } (arenaCall (.addThreat 3 100 1 none))).map dirty =
      some true := by decide +kernel
  rw [h₁, Option.map_some, Option.some.injEq] at hfirst
  have hsecond : s₂.dirty = true := step_raises (by simp [arenaCall]) h₂ hfirst
  exact .cons (.inr ⟨nofun, doAddKept_arena (by decide +kernel)⟩) h₁
    (.cons (.inl hfirst) h₂ (.cons (.inl hsecond) h₃ (.nil three)))

/-- A raise of the victim is kept: unit 2 is chosen when it comes into melee range. -/
theorem raised_ruled : (raised.getHostilTarget (arena true)).map iCurrentVictim = some (some 2) ∧
    (raised.getHostilTarget (arena true)).map iCurrentVictim = raised.ruled (arena true) := by
  have hnone : threeOrdered.NoneNegative := by
    show ∀ p ∈ threeOrdered.online, 0 ≤ threeOrdered.threat p
    decide +kernel
  have hrun : Run (fun s c t => s.step c = some t) Kept three
      [arenaCall .getHostilTarget, arenaCall (.addThreat 3 5 1 none)] raised :=
    .cons (.inl (by decide +kernel)) three_getHostilTarget
      (.cons (.inr ⟨hnone, doAddKept_arena (by decide +kernel)⟩) raised_run (.nil raised))
  have hkept : raised.Kept ⟨arena true, 1, 0, .getHostilTarget⟩ := by
    refine .inr ⟨?_, .inr fun v hv => ?_⟩
    · show ∀ p ∈ raised.online, 0 ≤ raised.threat p
      decide +kernel
    · have hvictim : raised.iCurrentVictim = some 0 := by decide +kernel
      obtain rfl := Option.some.inj (hvictim.symm.trans hv)
      exact ⟨by decide +kernel, by decide +kernel⟩
  exact ⟨by decide +kernel, run_ruled (three_run.append hrun) hkept⟩

end Example

end Ashamane.Threat.ThreatManager
