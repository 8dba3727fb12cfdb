import Ashamane.Threat.Calls
import Mathlib.Data.List.Nodup

/-! The invariant of the threat lists and what a change of status does to it. -/
namespace Ashamane.Threat

variable {F : Type}

/-- What the lists depend on: the hated unit, the status and the link. -/
def HostileReference.core (r : HostileReference F) : ObjectGuid × Bool × Option ObjectGuid :=
  (r.iUnitGuid, r.iOnline, r.iRefTo)

namespace ThreatManager

def core (s : ThreatManager F) (p : Address) : Option (ObjectGuid × Bool × Option ObjectGuid) :=
  (s.references p).map HostileReference.core

abbrev online (s : ThreatManager F) : List Address := s.iThreatContainer.iThreatList

abbrev offline (s : ThreatManager F) : List Address := s.iThreatOfflineContainer.iThreatList

structure Sound (s : ThreatManager F) : Prop where
  online : ∀ p ∈ s.online, ∃ u, s.core p = some (u, true, some u)
  offline : ∀ p ∈ s.offline, ∃ u l, s.core p = some (u, false, l)
  onlineNodup : s.online.Nodup
  offlineNodup : s.offline.Nodup
  unique : ∀ p q u b b' l l', s.Listed p → s.Listed q →
    s.core p = some (u, b, l) → s.core q = some (u, b', l') → p = q
  victim : ∀ v, s.iCurrentVictim = some v → v ∈ s.online
  fresh : ∀ p, s.next ≤ p → s.references p = none
  linked : ∀ p u b t, s.core p = some (u, b, some t) → s.Listed p ∧ t = u

structure Alike (s t : ThreatManager F) : Prop where
  online : t.online = s.online
  offline : t.offline = s.offline
  victim : t.iCurrentVictim = s.iCurrentVictim
  next : t.next = s.next
  core : t.core = s.core

theorem Alike.refl (s : ThreatManager F) : Alike s s := ⟨rfl, rfl, rfl, rfl, rfl⟩

theorem Alike.trans {s t u : ThreatManager F} (h : Alike s t) (h' : Alike t u) : Alike s u :=
  ⟨h'.online.trans h.online, h'.offline.trans h.offline, h'.victim.trans h.victim,
    h'.next.trans h.next, h'.core.trans h.core⟩

theorem Alike.listed {s t : ThreatManager F} (h : Alike s t) (p : Address) :
    t.Listed p ↔ s.Listed p := by
  have hon := h.online
  have hoff := h.offline
  simp only [ThreatManager.online, ThreatManager.offline] at hon hoff
  simp only [Listed, hon, hoff]

theorem core_eq_none {s : ThreatManager F} {p : Address} :
    s.core p = none ↔ s.references p = none := by simp [ThreatManager.core]

theorem Alike.sound {s t : ThreatManager F} (h : Alike s t) (hs : Sound s) : Sound t where
  online p hp := by
    rw [h.core]
    exact hs.online p (h.online ▸ hp)
  offline p hp := by
    rw [h.core]
    exact hs.offline p (h.offline ▸ hp)
  onlineNodup := h.online ▸ hs.onlineNodup
  offlineNodup := h.offline ▸ hs.offlineNodup
  unique p q u b b' l l' hp hq hu hu' := by
    rw [h.core] at hu hu'
    exact hs.unique p q u b b' l l' ((h.listed p).1 hp) ((h.listed q).1 hq) hu hu'
  victim v hv := by
    rw [h.victim] at hv
    exact h.online ▸ hs.victim v hv
  fresh p hp := by
    rw [← core_eq_none, h.core, core_eq_none]
    exact hs.fresh p (h.next ▸ hp)
  linked p u b l hl := by
    rw [h.core] at hl
    exact ⟨(h.listed p).2 (hs.linked p u b l hl).1, (hs.linked p u b l hl).2⟩

theorem core_write (s : ThreatManager F) (p q : Address) (r : HostileReference F) :
    (s.write p r).core q = if q = p then some r.core else s.core q := by
  by_cases h : q = p
  · subst h
    simp [ThreatManager.core, write]
  · simp [ThreatManager.core, write, h]

theorem alike_write {s : ThreatManager F} {p : Address} {r r' : HostileReference F}
    (hr : s.references p = some r) (hcore : r'.core = r.core) : Alike s (s.write p r') where
  online := rfl
  offline := rfl
  victim := rfl
  next := rfl
  core := by
    funext q
    rw [core_write]
    split
    · rename_i h
      simp [ThreatManager.core, h, hr, hcore]
    · rfl

theorem alike_setDirty (s : ThreatManager F) (d : Bool) : Alike s (s.setDirty d) :=
  ⟨rfl, rfl, rfl, rfl, rfl⟩

theorem Sound.reference {s : ThreatManager F} (hs : Sound s) {p : Address} (hp : s.Listed p) :
    ∃ r, s.references p = some r := by
  cases h : s.references p with
  | some r => exact ⟨r, rfl⟩
  | none =>
    rw [← core_eq_none] at h
    obtain hon | hoff := hp
    · obtain ⟨u, hu⟩ := hs.online p hon
      simp [h] at hu
    · obtain ⟨u, l, hu⟩ := hs.offline p hoff
      simp [h] at hu

theorem Sound.status {s : ThreatManager F} (hs : Sound s) {p : Address} {r : HostileReference F}
    (hp : s.Listed p) (hr : s.references p = some r) :
    (p ∈ s.online ↔ r.iOnline = true) ∧ (p ∈ s.offline ↔ r.iOnline = false) := by
  have hcore : s.core p = some (r.iUnitGuid, r.iOnline, r.iRefTo) := by
    simp [ThreatManager.core, hr, HostileReference.core]
  have hon : p ∈ s.online → r.iOnline = true := fun h => by
    obtain ⟨u, hu⟩ := hs.online p h
    rw [hcore] at hu
    simp_all
  have hoff : p ∈ s.offline → r.iOnline = false := fun h => by
    obtain ⟨u, l, hu⟩ := hs.offline p h
    rw [hcore] at hu
    simp_all
  refine ⟨⟨hon, fun h => ?_⟩, ⟨hoff, fun h => ?_⟩⟩
  · obtain h' | h' := hp
    · exact h'
    · simp [hoff h'] at h
  · obtain h' | h' := hp
    · simp [hon h'] at h
    · exact h'

def moved (s : ThreatManager F) (p : Address) (r : HostileReference F) (isOnline : Bool) :
    ThreatManager F :=
  let s := s.write p { r with iOnline := isOnline }
  if isOnline then
    { s with
      iThreatContainer := s.iThreatContainer.addReference p
      iThreatOfflineContainer := s.iThreatOfflineContainer.remove p }
  else
    { s with
      iCurrentVictim := if s.iCurrentVictim = some p then none else s.iCurrentVictim
      iThreatContainer := s.iThreatContainer.remove p
      iThreatOfflineContainer := s.iThreatOfflineContainer.addReference p }

section Moved

variable (s : ThreatManager F) (p q : Address) (r : HostileReference F) (b : Bool)

theorem core_moved :
    (s.moved p r b).core q = if q = p then some (r.iUnitGuid, b, r.iRefTo) else s.core q := by
  cases b <;> exact core_write s p q _

theorem mem_online_moved :
    q ∈ (s.moved p r b).online ↔ q ≠ p ∧ q ∈ s.online ∨ q = p ∧ b = true := by
  cases b
  · simp [moved, write, ThreatContainer.remove, ThreatManager.online, and_comm]
  · by_cases h : q = p <;> simp [moved, write, ThreatContainer.addReference, ThreatManager.online, h]

theorem mem_offline_moved :
    q ∈ (s.moved p r b).offline ↔ q ≠ p ∧ q ∈ s.offline ∨ q = p ∧ b = false := by
  cases b
  · by_cases h : q = p <;> simp [moved, write, ThreatContainer.addReference, ThreatManager.offline, h]
  · simp [moved, write, ThreatContainer.remove, ThreatManager.offline, and_comm]

end Moved

theorem listed_moved {s : ThreatManager F} {p : Address} (hp : s.Listed p) (q : Address)
    (r : HostileReference F) (b : Bool) : (s.moved p r b).Listed q ↔ s.Listed q := by
  have hon := mem_online_moved s p q r b
  have hoff := mem_offline_moved s p q r b
  by_cases h : q = p
  · subst h
    cases b <;> simp_all [Listed]
  · simp_all [Listed]

/-- A change of the status keeps the invariant, when only linked references come online. -/
theorem Sound.moved {s : ThreatManager F} (hs : Sound s) {p : Address} {r : HostileReference F}
    {b : Bool} (hp : s.Listed p) (hr : s.references p = some r) (hb : r.iOnline ≠ b)
    (hlink : b = true → r.iRefTo.isSome = true) : Sound (s.moved p r b) := by
  have hcore : s.core p = some (r.iUnitGuid, r.iOnline, r.iRefTo) := by
    simp [ThreatManager.core, hr, HostileReference.core]
  have hstatus := hs.status hp hr
  constructor
  case online =>
    intro q hq
    rw [core_moved]
    obtain ⟨hne, hq⟩ | ⟨rfl, hb'⟩ := (mem_online_moved s p q r b).1 hq
    · rw [if_neg hne]
      exact hs.online q hq
    · obtain ⟨t, ht⟩ := Option.isSome_iff_exists.1 (hlink hb')
      obtain ⟨-, rfl⟩ := hs.linked q r.iUnitGuid r.iOnline t (ht ▸ hcore)
      rw [if_pos rfl, ht, hb']
      exact ⟨_, rfl⟩
  case offline =>
    intro q hq
    rw [core_moved]
    obtain ⟨hne, hq⟩ | ⟨rfl, hb'⟩ := (mem_offline_moved s p q r b).1 hq
    · rw [if_neg hne]
      exact hs.offline q hq
    · rw [if_pos rfl, hb']
      exact ⟨_, _, rfl⟩
  case onlineNodup =>
    cases b with
    | false => exact hs.onlineNodup.filter _
    | true =>
      change (s.online ++ [p]).Nodup
      rw [← List.concat_eq_append]
      exact hs.onlineNodup.concat fun hp => hb (hstatus.1.1 hp)
  case offlineNodup =>
    cases b with
    | true => exact hs.offlineNodup.filter _
    | false =>
      change (s.offline ++ [p]).Nodup
      rw [← List.concat_eq_append]
      exact hs.offlineNodup.concat fun hp => hb (hstatus.2.1 hp)
  case unique =>
    -- the unit of a reference does not change
    have hunit : ∀ q u b' l, (s.moved p r b).core q = some (u, b', l) →
        ∃ b'' l', s.core q = some (u, b'', l') := by
      intro q u b' l hq
      rw [core_moved] at hq
      split at hq
      · rename_i h
        rw [h, hcore]
        simp_all
      · exact ⟨_, _, hq⟩
    intro q q' u b₁ b₂ l₁ l₂ hq hq' hu hu'
    obtain ⟨_, _, h₁⟩ := hunit _ _ _ _ hu
    obtain ⟨_, _, h₂⟩ := hunit _ _ _ _ hu'
    exact hs.unique q q' u _ _ _ _ ((listed_moved hp q r b).1 hq) ((listed_moved hp q' r b).1 hq')
      h₁ h₂
  case victim =>
    intro v hv
    rw [mem_online_moved]
    cases b with
    | true =>
      have hmem := hs.victim v hv
      by_cases h : v = p
      · exact .inr ⟨h, rfl⟩
      · exact .inl ⟨h, hmem⟩
    | false =>
      by_cases h : s.iCurrentVictim = some p
      · simp [ThreatManager.moved, write, h] at hv
      · have hv' : s.iCurrentVictim = some v := by
          simpa [ThreatManager.moved, write, h] using hv
        refine .inl ⟨fun hvp => h (hvp ▸ hv'), hs.victim v hv'⟩
  case fresh =>
    intro q hq
    have hnext : (s.moved p r b).next = s.next := by cases b <;> rfl
    rw [hnext] at hq
    have hne : q ≠ p := by
      rintro rfl
      simp [hs.fresh q hq] at hr
    rw [← core_eq_none, core_moved, if_neg hne, core_eq_none]
    exact hs.fresh q hq
  case linked =>
    intro q u b' t hq
    rw [core_moved] at hq
    rw [listed_moved hp]
    split at hq
    · rename_i h
      subst h
      refine ⟨hp, ?_⟩
      obtain ⟨hu, -, ht⟩ : r.iUnitGuid = u ∧ b = b' ∧ r.iRefTo = some t := by simpa using hq
      exact hu ▸ (hs.linked q r.iUnitGuid r.iOnline t (ht ▸ hcore)).2
    · exact hs.linked q u b' t hq

theorem reference_of_core {s : ThreatManager F} {p : Address}
    {c : ObjectGuid × Bool × Option ObjectGuid} (h : s.core p = some c) :
    ∃ r, s.references p = some r ∧ r.core = c := by
  simpa [ThreatManager.core] using h

structure Settled (s : ThreatManager F) (p : Address) (t : ThreatManager F) : Prop where
  sound : Sound t
  listed : ∀ q, t.Listed q ↔ s.Listed q
  others : ∀ q, q ≠ p → (q ∈ t.online ↔ q ∈ s.online)

theorem Alike.settled {s t : ThreatManager F} (h : Alike s t) (hs : Sound s) (p : Address) :
    Settled s p t :=
  ⟨h.sound hs, h.listed, fun q _ => by rw [h.online]⟩

theorem Settled.trans {s t u : ThreatManager F} {p : Address} (h : Settled s p t)
    (h' : Settled t p u) : Settled s p u :=
  ⟨h'.sound, fun q => (h'.listed q).trans (h.listed q),
    fun q hq => (h'.others q hq).trans (h.others q hq)⟩

variable [Float32 F]

theorem processThreatEvent_threatChange {s : ThreatManager F} {p : Address}
    {r : HostileReference F} (hr : s.references p = some r) (value : F) :
    ∃ t, s.processThreatEvent p (.threatChange value) = some t ∧ Alike s t := by
  simp only [processThreatEvent, hr, Option.bind_eq_bind, Option.bind_some]
  split
  · exact ⟨_, rfl, alike_setDirty s true⟩
  · exact ⟨_, rfl, Alike.refl s⟩

theorem setAccessibleState_alike {s : ThreatManager F} {p : Address} {r : HostileReference F}
    (hr : s.references p = some r) (isAccessible : Bool) :
    ∃ t, s.setAccessibleState p isAccessible = some t ∧ Alike s t := by
  simp only [setAccessibleState, hr, Option.bind_eq_bind, Option.bind_some]
  split
  · refine ⟨s.write p { r with iAccessible := isAccessible }, ?_, alike_write hr rfl⟩
    simp [processThreatEvent, ThreatManager.write]
  · exact ⟨_, rfl, Alike.refl s⟩

/-- The event of a new status moves the reference, also when its accessibility has changed on the
way. -/
theorem processThreatEvent_onlineStatus {s s' : ThreatManager F} (hs : Sound s) {p : Address}
    {r : HostileReference F} (b : Bool)
    (h : Alike (s.write p { r with iOnline := b }) s') :
    ∃ t, s'.processThreatEvent p .onlineStatus = some t ∧ Alike (s.moved p r b) t := by
  have hcore : s'.core p = some (r.iUnitGuid, b, r.iRefTo) := by
    rw [h.core, core_write, if_pos rfl]
    rfl
  obtain ⟨r', hr', hc'⟩ := reference_of_core hcore
  have hb : r'.iOnline = b := congrArg (fun c => c.2.1) hc'
  have hvictim : s'.iCurrentVictim = s.iCurrentVictim := h.victim
  have hon : s'.iThreatContainer.iThreatList = s.iThreatContainer.iThreatList := h.online
  have hoff : s'.iThreatOfflineContainer.iThreatList = s.iThreatOfflineContainer.iThreatList :=
    h.offline
  cases b with
  | false =>
    simp only [processThreatEvent, hr', Option.bind_eq_bind, Option.bind_some, hb, Bool.not_false,
      if_true]
    refine ⟨_, rfl, ?_⟩
    split
    · rename_i hv
      exact ⟨by simp [moved, write, setDirty, ThreatContainer.remove, hon, setCurrentVictim],
        by simp [moved, write, ThreatContainer.addReference, setDirty, hoff, setCurrentVictim],
        by simp [moved, write, setDirty, setCurrentVictim, ← hvictim, hv], h.next, h.core⟩
    · rename_i hv
      exact ⟨by simp [moved, write, ThreatContainer.remove, hon],
        by simp [moved, write, ThreatContainer.addReference, hoff],
        by simp [moved, write, ← hvictim, hv], h.next, h.core⟩
  | true =>
    have hafter : ∀ d : ThreatManager F, Alike s' d → Alike (s.moved p r true) { d with
        iThreatContainer := d.iThreatContainer.addReference p
        iThreatOfflineContainer := d.iThreatOfflineContainer.remove p } := by
      intro d hd
      have hdon : d.iThreatContainer.iThreatList = s'.iThreatContainer.iThreatList := hd.online
      have hdoff : d.iThreatOfflineContainer.iThreatList = s'.iThreatOfflineContainer.iThreatList :=
        hd.offline
      exact ⟨by simp [moved, write, ThreatContainer.addReference, hdon, hon],
        by simp [moved, write, ThreatContainer.remove, hdoff, hoff],
        by simp [moved, write, hd.victim, hvictim], hd.next.trans h.next, hd.core.trans h.core⟩
    simp only [processThreatEvent, hr', Option.bind_eq_bind, Option.bind_some, hb, Bool.not_true,
      Bool.false_eq_true, if_false]
    split
    · exact ⟨_, rfl, hafter s' (Alike.refl s')⟩
    · rename_i current hv
      obtain ⟨u, hu⟩ := hs.online current (hs.victim current (hvictim ▸ hv))
      -- the victim is another reference, or this one
      have hthere : ∃ c, s'.core current = some c := by
        rw [h.core, core_write]
        split
        · exact ⟨_, rfl⟩
        · exact ⟨_, hu⟩
      obtain ⟨c, hc⟩ := hthere
      obtain ⟨v, hv', -⟩ := reference_of_core hc
      simp only [hv', Option.bind_some]
      split
      · exact ⟨_, rfl, hafter _ (alike_setDirty s' true)⟩
      · exact ⟨_, rfl, hafter s' (Alike.refl s')⟩

/-- `setOnlineOfflineState` of a reference of the lists. -/
theorem setOnlineOfflineState_settled {s : ThreatManager F} (hs : Sound s) {p : Address}
    {r : HostileReference F} (hp : s.Listed p) (hr : s.references p = some r) (b : Bool)
    (hlink : b = true → r.iRefTo.isSome = true) :
    ∃ t, s.setOnlineOfflineState p b = some t ∧ Settled s p t ∧
      t.core p = some (r.iUnitGuid, b, r.iRefTo) := by
  simp only [setOnlineOfflineState, hr, Option.bind_eq_bind, Option.bind_some]
  split
  · rename_i hne
    have hwrite : (s.write p { r with iOnline := b }).references p =
        some { r with iOnline := b } := by simp [write]
    obtain ⟨s', hs', halike⟩ : ∃ s', (if !b then
        (s.write p { r with iOnline := b }).setAccessibleState p false
        else some (s.write p { r with iOnline := b })) = some s' ∧
        Alike (s.write p { r with iOnline := b }) s' := by
      cases b with
      | false => exact setAccessibleState_alike hwrite false
      | true => exact ⟨_, rfl, Alike.refl _⟩
    obtain ⟨t, ht, hmoved⟩ := processThreatEvent_onlineStatus hs b halike
    have hsound := hs.moved hp hr hne hlink
    refine ⟨t, ?_, ⟨hmoved.sound hsound, fun q => ?_, fun q hq => ?_⟩,
      ?_⟩
    · cases b with
      | false =>
        simp only [Bool.not_false, if_true] at hs' ⊢
        rw [hs', Option.bind_some, ht]
      | true =>
        simp only [Bool.not_true, Bool.false_eq_true, if_false, Option.some.injEq] at hs' ⊢
        exact hs' ▸ ht
    · exact (hmoved.listed q).trans (listed_moved hp q r b)
    · rw [hmoved.online, mem_online_moved]
      simp [hq]
    · rw [hmoved.core, core_moved, if_pos rfl]
  · rename_i heq
    have hb : r.iOnline = b := not_not.1 heq
    exact ⟨s, rfl, (Alike.refl s).settled hs p, by
      simp [ThreatManager.core, hr, HostileReference.core, hb]⟩

end ThreatManager

end Ashamane.Threat
