import Ashamane.Threat.Sound
import Mathlib.Order.Basic
import Mathlib.Order.Nat

/-! What the calls that change a threat do to the invariant: the chain from a reference over its
owner's, the redirections, and a new reference. -/
namespace Ashamane.Threat.ThreatManager

variable {F : Type}

theorem Sound.setLink {s : ThreatManager F} (hs : Sound s) {p : Address} {r : HostileReference F}
    (hp : s.Listed p) (hr : s.references p = some r) {l : Option ObjectGuid}
    (hl : l = some r.iUnitGuid ∨ l = none ∧ p ∈ s.offline) :
    Sound (s.write p { r with iRefTo := l }) := by
  have hcore : s.core p = some (r.iUnitGuid, r.iOnline, r.iRefTo) := by
    simp [ThreatManager.core, hr, HostileReference.core]
  have hcore' : ∀ q, (s.write p { r with iRefTo := l }).core q =
      if q = p then some (r.iUnitGuid, r.iOnline, l) else s.core q := fun q => core_write s p q _
  have hunit : ∀ q u b l', (s.write p { r with iRefTo := l }).core q = some (u, b, l') →
      ∃ l'', s.core q = some (u, b, l'') := by
    intro q u b l' hq
    rw [hcore'] at hq
    split at hq
    · rename_i h
      simp_all
    · exact ⟨_, hq⟩
  obtain ⟨hon, hoff⟩ := hs.status hp hr
  constructor
  case online =>
    intro q hq
    rw [hcore']
    split
    · rename_i h
      subst h
      obtain rfl | ⟨-, hmem⟩ := hl
      · exact ⟨_, by rw [hon.1 hq]⟩
      · have h := hon.1 hq
        rw [hoff.1 hmem] at h
        cases h
    · exact hs.online q hq
  case offline =>
    intro q hq
    rw [hcore']
    split
    · rename_i h
      subst h
      exact ⟨_, _, by rw [hoff.1 hq]⟩
    · exact hs.offline q hq
  case onlineNodup => exact hs.onlineNodup
  case offlineNodup => exact hs.offlineNodup
  case unique =>
    intro q q' u b b' _ _ hq hq' hu hu'
    obtain ⟨_, h⟩ := hunit q u b _ hu
    obtain ⟨_, h'⟩ := hunit q' u b' _ hu'
    exact hs.unique q q' u b b' _ _ hq hq' h h'
  case victim => exact hs.victim
  case fresh =>
    intro q hq
    have hne : q ≠ p := by
      rintro rfl
      simp [hs.fresh q hq] at hr
    rw [← core_eq_none, hcore', if_neg hne, core_eq_none]
    exact hs.fresh q hq
  case linked =>
    intro q u b t hq
    rw [hcore'] at hq
    split at hq
    · rename_i h
      subst h
      obtain rfl | ⟨rfl, -⟩ := hl
      · obtain ⟨hu, -, ht⟩ : r.iUnitGuid = u ∧ r.iOnline = b ∧ r.iUnitGuid = t := by simpa using hq
        exact ⟨hp, ht.symm.trans hu⟩
      · simp at hq
    · exact hs.linked q u b t hq

theorem relink_settled (w : World F) {s : ThreatManager F} (hs : Sound s) {p : Address}
    {r : HostileReference F} (hp : s.Listed p) (hr : s.references p = some r) :
    Settled s p (s.relink w p r) := by
  unfold relink
  split
  · exact ⟨hs.setLink hp hr (.inl rfl), fun _ => Iff.rfl, fun _ _ => Iff.rfl⟩
  · exact (Alike.refl s).settled hs p

def Keeps (s t : ThreatManager F) : Prop := Sound t ∧ s.online ⊆ t.online

theorem Keeps.trans {s t u : ThreatManager F} (h : Keeps s t) (h' : Keeps t u) : Keeps s u :=
  ⟨h'.1, List.Subset.trans h.2 h'.2⟩

theorem Sound.keeps {s : ThreatManager F} (hs : Sound s) : Keeps s s := ⟨hs, List.Subset.refl _⟩

theorem Alike.keeps {s t : ThreatManager F} (h : Alike s t) (hs : Sound s) : Keeps s t :=
  ⟨h.sound hs, fun _ hq => h.online ▸ hq⟩

theorem mem_of_getReferenceByTarget {s : ThreatManager F} {c : ThreatContainer}
    {victim : ObjectGuid} {p : Address} (h : s.getReferenceByTarget c victim = some p) :
    p ∈ c.iThreatList ∧ ∃ r, s.references p = some r ∧ r.iUnitGuid = victim := by
  refine ⟨List.mem_of_find?_eq_some h, ?_⟩
  have hp := List.find?_some h
  cases hr : s.references p with
  | none => simp [hr] at hp
  | some r => exact ⟨r, rfl, by simpa [hr] using hp⟩

theorem getReferenceByTarget_none {s : ThreatManager F} {c : ThreatContainer}
    {victim : ObjectGuid} (h : s.getReferenceByTarget c victim = none) {p : Address}
    (hp : p ∈ c.iThreatList) (b : Bool) (l : Option ObjectGuid) :
    s.core p ≠ some (victim, b, l) := by
  intro hcore
  obtain ⟨r, hr, hc⟩ := reference_of_core hcore
  have hnot := List.find?_eq_none.1 h p hp
  simp only [hr, Option.any_some, beq_iff_eq] at hnot
  exact hnot (congrArg Prod.fst hc)

theorem Sound.setCurrentVictim {s : ThreatManager F} (hs : Sound s) {p : Address}
    (hp : p ∈ s.online) : Sound (s.setCurrentVictim (some p)) where
  online := hs.online
  offline := hs.offline
  onlineNodup := hs.onlineNodup
  offlineNodup := hs.offlineNodup
  unique := hs.unique
  victim v hv := by
    obtain rfl : p = v := Option.some.inj hv
    exact hp
  fresh := hs.fresh
  linked := hs.linked

/-- What is asked of `HostileReference::addThreat` where it is called. -/
def Safe (refAdd : ThreatManager F → Address → F → Option (ThreatManager F)) : Prop :=
  ∀ s p threat t, Sound s → s.Listed p → refAdd s p threat = some t → Keeps s t

theorem containerAddThreat_keeps {refAdd : ThreatManager F → Address → F → Option (ThreatManager F)}
    (h : Safe refAdd) {s t : ThreatManager F} (hs : Sound s) {c : ThreatContainer}
    (hc : ∀ p ∈ c.iThreatList, s.Listed p) {victim : ObjectGuid} {threat : F}
    {found : Option Address}
    (ht : s.containerAddThreat refAdd c victim threat = some (found, t)) :
    Keeps s t ∧ (found = none → t = s ∧ s.getReferenceByTarget c victim = none) := by
  unfold containerAddThreat at ht
  split at ht
  · rename_i p hp
    obtain ⟨t', ht', heq⟩ := Option.map_eq_some_iff.1 ht
    obtain ⟨rfl, rfl⟩ := Prod.mk.inj heq
    exact ⟨h s p threat t' hs (hc p (mem_of_getReferenceByTarget hp).1) ht', nofun⟩
  · rename_i hnone
    obtain ⟨rfl, rfl⟩ := Prod.mk.inj (Option.some.inj ht)
    exact ⟨hs.keeps, fun _ => ⟨rfl, hnone⟩⟩

variable [Float32 F]

theorem updateOnlineStatus_settled (w : World F) {s : ThreatManager F} (hs : Sound s)
    {p : Address} (hp : s.Listed p) :
    ∃ t, s.updateOnlineStatus w p = some t ∧ Settled s p t := by
  obtain ⟨r, hr⟩ := hs.reference hp
  have h₁ := relink_settled w hs hp hr
  obtain ⟨r₁, hr₁⟩ := h₁.sound.reference ((h₁.listed p).2 hp)
  obtain ⟨s₂, hs₂, halike⟩ := setAccessibleState_alike hr₁ (onlineStatus w r₁).2
  have h₂ := halike.settled h₁.sound p
  obtain ⟨r₂, hr₂⟩ := h₂.sound.reference ((h₂.listed p).2 ((h₁.listed p).2 hp))
  have hlink : r₂.iRefTo = r₁.iRefTo := by
    have h := congrFun halike.core p
    simp only [ThreatManager.core, hr₁, hr₂, Option.map_some, HostileReference.core,
      Option.some.injEq, Prod.mk.injEq] at h
    exact h.2.2
  obtain ⟨t, ht, h₃, -⟩ := setOnlineOfflineState_settled h₂.sound
    ((h₂.listed p).2 ((h₁.listed p).2 hp)) hr₂ (onlineStatus w r₁).1 (by
      intro honline
      rw [hlink]
      cases hto : r₁.iRefTo with
      | none => simp [onlineStatus, hto] at honline
      | some _ => rfl)
  refine ⟨t, ?_, (h₁.trans h₂).trans h₃⟩
  simp only [updateOnlineStatus, hr, hr₁, Option.bind_eq_bind, Option.bind_some, hs₂, ht]

theorem Sound.newReference {s : ThreatManager F} (hs : Sound s) {victim : ObjectGuid}
    (hon : s.getReferenceByTarget s.iThreatContainer victim = none)
    (hoff : s.getReferenceByTarget s.iThreatOfflineContainer victim = none) :
    Sound { s.newReference victim with
      iThreatContainer := (s.newReference victim).iThreatContainer.addReference s.next } := by
  set t : ThreatManager F := { s.newReference victim with
    iThreatContainer := (s.newReference victim).iThreatContainer.addReference s.next } with ht
  have hnone : s.core s.next = none := core_eq_none.2 (hs.fresh s.next le_rfl)
  have hcore : ∀ q, t.core q = if q = s.next then some (victim, true, some victim) else s.core q :=
    fun q => core_write s s.next q _
  have htonline : t.online = s.online ++ [s.next] := rfl
  have htoffline : t.offline = s.offline := rfl
  have hnew : ¬ s.Listed s.next := fun h => by
    obtain ⟨r, hr⟩ := hs.reference h
    simp [hs.fresh s.next le_rfl] at hr
  have hlisted : ∀ q, t.Listed q ↔ q = s.next ∨ s.Listed q := by
    intro q
    change q ∈ t.online ∨ q ∈ t.offline ↔ q = s.next ∨ (q ∈ s.online ∨ q ∈ s.offline)
    rw [htonline, htoffline, List.mem_append, List.mem_singleton]
    tauto
  have hother : ∀ q, s.Listed q → q ≠ s.next := fun q hq h => hnew (h ▸ hq)
  have hfree : ∀ q b l, s.Listed q → s.core q ≠ some (victim, b, l) := by
    rintro q b l (hq | hq)
    · exact getReferenceByTarget_none hon hq b l
    · exact getReferenceByTarget_none hoff hq b l
  constructor
  case online =>
    intro q hq
    rw [htonline, List.mem_append, List.mem_singleton] at hq
    rw [hcore]
    obtain hq | rfl := hq
    · rw [if_neg (hother q (.inl hq))]
      exact hs.online q hq
    · exact ⟨victim, if_pos rfl⟩
  case offline =>
    intro q hq
    rw [hcore, if_neg (hother q (.inr hq))]
    exact hs.offline q hq
  case onlineNodup =>
    rw [htonline]
    rw [← List.concat_eq_append]
    exact hs.onlineNodup.concat fun hmem => hother _ (.inl hmem) rfl
  case offlineNodup => exact hs.offlineNodup
  case unique =>
    intro q q' u b b' l l' hq hq' hu hu'
    rw [hcore] at hu hu'
    rw [hlisted] at hq hq'
    obtain rfl | hq := hq
    · rw [if_pos rfl, Option.some.injEq, Prod.mk.injEq] at hu
      obtain rfl | hq' := hq'
      · rfl
      · rw [if_neg (hother q' hq'), ← hu.1] at hu'
        exact absurd hu' (hfree q' b' l' hq')
    · rw [if_neg (hother q hq)] at hu
      obtain rfl | hq' := hq'
      · rw [if_pos rfl, Option.some.injEq, Prod.mk.injEq] at hu'
        rw [← hu'.1] at hu
        exact absurd hu (hfree q b l hq)
      · rw [if_neg (hother q' hq')] at hu'
        exact hs.unique q q' u b b' l l' hq hq' hu hu'
  case victim =>
    intro v hv
    rw [htonline, List.mem_append]
    exact .inl (hs.victim v hv)
  case fresh =>
    intro q hq
    have hlt : s.next < q := hq
    rw [← core_eq_none, hcore, if_neg hlt.ne', core_eq_none]
    exact hs.fresh q hlt.le
  case linked =>
    intro q u b l hq
    rw [hcore] at hq
    rw [hlisted]
    split at hq
    · rename_i h
      rw [Option.some.injEq, Prod.mk.injEq, Prod.mk.injEq, Option.some.injEq] at hq
      exact ⟨.inl h, hq.2.2.symm.trans hq.1⟩
    · exact ⟨.inr (hs.linked q u b l hq).1, (hs.linked q u b l hq).2⟩

/-- `_addThreat`: a new reference is made only when no list has one, and the new one, if it is the
first, is online when it becomes the victim. -/
theorem addThreatTo_keeps (w : World F)
    {refAdd : ThreatManager F → Address → F → Option (ThreatManager F)} (h : Safe refAdd)
    {s t : ThreatManager F} (hs : Sound s) {victim : ObjectGuid} {threat : F}
    (ht : s.addThreatTo w refAdd victim threat = some t) : Keeps s t := by
  simp only [addThreatTo, Option.bind_eq_bind, Option.bind_eq_some_iff, Prod.exists] at ht
  obtain ⟨found, s₁, h₁, ht⟩ := ht
  obtain ⟨hk₁, hn₁⟩ := containerAddThreat_keeps h hs (fun p hp => .inl hp) h₁
  cases found with
  | some p =>
    obtain rfl : s₁ = t := by simpa using ht
    exact hk₁
  | none =>
    obtain ⟨rfl, hon⟩ := hn₁ rfl
    simp only [Option.isSome_none, Bool.false_eq_true, if_false, Option.bind_eq_some_iff,
      Prod.exists] at ht
    obtain ⟨found, s₂, h₂, ht⟩ := ht
    obtain ⟨hk₂, hn₂⟩ := containerAddThreat_keeps h hs (fun p hp => .inr hp) h₂
    cases found with
    | some p =>
      obtain rfl : s₂ = t := by simpa using ht
      exact hk₂
    | none =>
      obtain ⟨rfl, hoff⟩ := hn₂ rfl
      simp only [Option.isSome_none, Bool.false_eq_true, if_false, Option.bind_eq_some_iff] at ht
      obtain ⟨s₃, h₃, ht⟩ := ht
      have hnew := hs.newReference hon hoff
      have hmem : s₂.next ∈ ({ s₂.newReference victim with
          iThreatContainer :=
            (s₂.newReference victim).iThreatContainer.addReference s₂.next }).online :=
        List.mem_append_right _ (List.mem_singleton.2 rfl)
      obtain ⟨hsound, hsub⟩ := h _ _ _ _ hnew (.inl hmem) h₃
      have hold : s₂.online ⊆ s₃.online :=
        fun q hq => hsub (List.mem_append_left _ hq)
      have hin : s₂.next ∈ s₃.online := hsub hmem
      split at ht
      · obtain ⟨r, hr⟩ := hsound.reference (.inl hin)
        obtain ⟨t', ht', hsettled, -⟩ :=
          setOnlineOfflineState_settled hsound (.inl hin) hr false nofun
        obtain rfl : t' = t := Option.some.inj (ht'.symm.trans ht)
        refine ⟨hsettled.sound, fun q hq => ?_⟩
        have hne : q ≠ s₂.next := by
          rintro rfl
          obtain ⟨r', hr'⟩ := hs.reference (.inl hq)
          simp [hs.fresh s₂.next le_rfl] at hr'
        exact (hsettled.others q hne).2 (hold hq)
      · split at ht
        · obtain rfl := Option.some.inj ht
          exact ⟨hsound.setCurrentVictim hin, hold⟩
        · obtain rfl := Option.some.inj ht
          exact ⟨hsound, hold⟩

theorem doAddThreat_keeps (w : World F)
    {refAdd : ThreatManager F → Address → F → Option (ThreatManager F)} (h : Safe refAdd)
    {s t : ThreatManager F} (hs : Sound s) {victim : ObjectGuid} {threat : F}
    (ht : s.doAddThreat w refAdd victim threat = some t) : Keeps s t := by
  unfold doAddThreat at ht
  split at ht
  · split at ht
    · obtain ⟨s₁, h₁, h₂⟩ := Option.bind_eq_some_iff.1 ht
      have hk₁ := addThreatTo_keeps w h hs h₁
      exact hk₁.trans (addThreatTo_keeps w h hk₁.1 h₂)
    · exact addThreatTo_keeps w h hs ht
  · exact addThreatTo_keeps w h hs ht

theorem addThreatOver_keeps (w : World F)
    {refAdd : ThreatManager F → Address → F → Option (ThreatManager F)} (h : Safe refAdd)
    {s t : ThreatManager F} (hs : Sound s) {victim : ObjectGuid} {threat : F} {schoolMask : Nat}
    {threatSpell : Option (SpellInfo F)}
    (ht : s.addThreatOver w refAdd victim threat schoolMask threatSpell = some t) :
    Keeps s t := by
  obtain ⟨valid, -, ht⟩ := Option.bind_eq_some_iff.1 ht
  split at ht
  · exact doAddThreat_keeps w h hs ht
  · obtain rfl := Option.some.inj ht
    exact hs.keeps

theorem threatChanged_keeps (w : World F)
    {refAdd : ThreatManager F → Address → F → Option (ThreatManager F)} (h : Safe refAdd)
    {s t : ThreatManager F} (hs : Sound s) {p : Address} (hp : s.Listed p) {threat : F}
    (ht : s.threatChanged w refAdd p threat = some t) : Keeps s t := by
  obtain ⟨r, hr⟩ := hs.reference hp
  obtain ⟨s₁, h₁, halike⟩ := processThreatEvent_threatChange hr threat
  have hk₁ : Keeps s s₁ := halike.keeps hs
  obtain ⟨r₁, hr₁⟩ := hk₁.1.reference ((halike.listed p).2 hp)
  simp only [threatChanged, h₁, hr₁, Option.bind_eq_bind, Option.bind_some] at ht
  have hsame : some s₁ = some t → Keeps s t := fun h => Option.some.inj h ▸ hk₁
  split at ht
  · exact hsame ht
  · split at ht
    · split at ht
      · split at ht
        · exact hk₁.trans (addThreatOver_keeps w h hk₁.1 ht)
        · exact hsame ht
      · exact hsame ht
    · exact hsame ht

/-- Induction on the depth of the stack: the call for the owner is one for its reference. -/
theorem refAddThreat_safe (w : World F) (depth : Nat) : Safe (refAddThreat w depth) := by
  induction depth with
  | zero =>
    intro s p threat t _ _ ht
    simp [refAddThreat] at ht
  | succ depth ih =>
    intro s p threat t hs hp ht
    obtain ⟨r, hr⟩ := hs.reference hp
    simp only [refAddThreat, hr, Option.bind_eq_bind, Option.bind_some] at ht
    have hwrite : Alike s (s.write p { r with iThreat := r.iThreat + threat }) :=
      alike_write hr rfl
    have hlisted := (hwrite.listed p).2 hp
    split at ht
    · obtain rfl : s = t := by simpa using ht
      exact hs.keeps
    · split at ht
      · exact (hwrite.keeps hs).trans (threatChanged_keeps w ih (hwrite.sound hs) hlisted ht)
      · -- only an offline reference has its status looked up, so no online one moves
        rename_i hoffline
        obtain ⟨s₁, h₁, hsettled⟩ := updateOnlineStatus_settled w (hwrite.sound hs) hlisted
        rw [h₁, Option.bind_some] at ht
        have hk₁ : Keeps s s₁ := ⟨hsettled.sound, fun q hq => by
          have hne : q ≠ p := by
            rintro rfl
            exact hoffline ((hs.status hp hr).1.1 hq)
          exact (hsettled.others q hne).2 (hwrite.online ▸ hq)⟩
        exact hk₁.trans (threatChanged_keeps w ih hk₁.1 ((hsettled.listed p).2 hlisted) ht)

end Ashamane.Threat.ThreatManager
