import Ashamane.DamageEvents.Basic
import Ashamane.Events.Groups
import Ashamane.Events.Phases

/-! What a script gets to see of the events below a health percentage, and what stays. -/
namespace Ashamane.DamageEvents
open Ashamane.Events (Occurs IsGroup)
open Ashamane.Events.EventMap (groupBit_low phaseMask_low)

namespace DamageEventMap
variable {m m' : DamageEventMap} {target : Target} {damageTaken : BitVec 32}

/-- `OnDamageTaken` is called until it returns zero. -/
inductive Drained (target : Target) (damageTaken : BitVec 32) :
    DamageEventMap → DamageEventMap → Prop
  | last {m : DamageEventMap} (hid : (m.onDamageTaken target damageTaken).1 = 0) :
      Drained target damageTaken m (m.onDamageTaken target damageTaken).2
  | next {m m' : DamageEventMap} (hid : (m.onDamageTaken target damageTaken).1 ≠ 0)
      (hrest : Drained target damageTaken (m.onDamageTaken target damageTaken).2 m') :
      Drained target damageTaken m m'

def Waiting (m : DamageEventMap) (target : Target) (damageTaken : BitVec 32) (e : Entry) : Prop :=
  Occurs m.phase e.origin.phase ∧ target.healthBelowPctDamaged e.healthPct damageTaken = true

/-- What a call in this state owes, `later` being the calls after it. -/
def Honoured (m : DamageEventMap) (later : List Op) : Op → Prop
  | .onDamageTaken target damageTaken =>
    (∀ e, m.found target damageTaken = some e → Occurs m.phase e.origin.phase ∧
      ∀ calls target' damage', calls <+: later →
        ∀ x, ((m.onDamageTaken target damageTaken).2.run calls).found target' damage' = some x →
          x.origin.serial ≠ e.origin.serial) ∧
    ∃ m', Drained target damageTaken m m' ∧
      ∀ e ∈ m'.eventMap, ¬m.Waiting target damageTaken e
  | .cancelEventGroup group => IsGroup group →
    (m.cancelEventGroup group).eventMap = m.eventMap.filter fun e => e.origin.group ≠ group
  | _ => True

def Fits (m : DamageEventMap) : Op → Prop
  | .onDamageTaken target damageTaken =>
    (∀ e, m.eventMap.head? = some e →
      target.healthWillBeBelowPctDamaged e.healthPct damageTaken = true →
        Occurs m.phase e.origin.phase) ∧
    ∀ before e after, m.eventMap = before ++ e :: after → m.Waiting target damageTaken e →
      target.healthWillBeBelowPctDamaged e.healthPct damageTaken = true ∧
      ∀ x ∈ before, target.healthWillBeBelowPctDamaged x.healthPct damageTaken = true ∧
        x.origin.eventId ≠ 0
  | .cancelEventGroup group => IsGroup group → ∀ e ∈ m.eventMap, e.origin.group ≠ group
  | _ => True

theorem BareIds.cancelEventGroup_eq (h : BareIds m) {group : BitVec 16} (hgroup : IsGroup group) :
    (m.cancelEventGroup group).eventMap = m.eventMap := by
  unfold cancelEventGroup
  split
  · rfl
  · refine List.filter_eq_self.mpr fun e he => ?_
    simp [h.and_eq_zero he (groupBit_low hgroup)]

/-- In a map that was filled by calls the loop stops at the first entry. -/
theorem BareIds.nextEvent_eq (h : BareIds m) : nextEvent target damageTaken m.phase m.eventMap =
    match m.eventMap with
    | [] => (none, [])
    | e :: store =>
      if target.healthWillBeBelowPctDamaged e.healthPct damageTaken then (some e, store)
      else (none, e :: store) := by
  cases hstore : m.eventMap with
  | nil => rfl
  | cons e store =>
    have hbare := h.and_eq_zero (hstore ▸ List.mem_cons_self) phaseMask_low
    by_cases hreached : target.healthWillBeBelowPctDamaged e.healthPct damageTaken = true
    · simp [nextEvent, hreached, hbare]
    · simp [nextEvent, hreached]

theorem BareIds.found_iff (h : BareIds m) (e : Entry) : m.found target damageTaken = some e ↔
    m.eventMap.head? = some e ∧
      target.healthWillBeBelowPctDamaged e.healthPct damageTaken = true := by
  rw [found, h.nextEvent_eq]
  cases m.eventMap with
  | nil => exact ⟨fun h => (nomatch h), fun h => nomatch h.1⟩
  | cons x store =>
    rw [List.head?_cons]
    dsimp only
    split
    next hreached =>
      constructor
      · rintro ⟨⟩
        exact ⟨rfl, hreached⟩
      · exact fun h => h.1
    next hnot =>
      refine ⟨fun h => (nomatch h), fun h => ?_⟩
      obtain rfl := Option.some.inj h.1
      exact absurd h.2 hnot

section Once
variable {serial : Nat}

def Gone (serial : Nat) (m : DamageEventMap) : Prop :=
  serial < m.scheduled ∧ ∀ e ∈ m.eventMap, e.origin.serial ≠ serial

theorem Gone.run (h : Gone serial m) (ops : List Op) : Gone serial (m.run ops) := by
  induction ops generalizing m with
  | nil => exact h
  | cons op ops ih =>
    refine ih ?_
    obtain ⟨hsub, hscheduled⟩ | ⟨_, _, _, _, store, hsub, -, hstore, hscheduled⟩ :=
      m.apply_cases op
    · exact ⟨hscheduled ▸ h.1, fun e he => h.2 e (hsub.subset he)⟩
    · refine ⟨hscheduled ▸ Nat.lt_succ_of_lt h.1, fun e he => ?_⟩
      rw [hstore] at he
      obtain rfl | he := List.mem_cons.mp ((DamageEventStore.insert_perm _ _).mem_iff.mp he)
      · exact Nat.ne_of_gt h.1
      · exact h.2 e (hsub.subset he)

theorem found_mem {e : Entry} (h : m.found target damageTaken = some e)
    (hbare : BareIds m) : e ∈ m.eventMap :=
  List.mem_of_mem_head? ((hbare.found_iff e).mp h).1

theorem BareIds.gone (h : BareIds m) {e : Entry} (he : m.found target damageTaken = some e) :
    Gone e.origin.serial (m.onDamageTaken target damageTaken).2 := by
  refine ⟨onDamageTaken_scheduled.symm ▸ h.serial e (found_mem he h), fun x hx => ?_⟩
  obtain ⟨hhead, hreached⟩ := (h.found_iff e).mp he
  have hdistinct := h.distinct
  rw [onDamageTaken_eventMap, h.nextEvent_eq] at hx
  obtain ⟨store, hstore⟩ := List.head?_eq_some_iff.mp hhead
  rw [hstore] at hx hdistinct
  simp only [hreached, if_true] at hx
  intro hserial
  exact (List.nodup_cons.mp hdistinct).1 (List.mem_map.mpr ⟨x, hx, hserial⟩)

end Once

section Drain

def leftOver (target : Target) (damageTaken : BitVec 32) : DamageEventStore → DamageEventStore
  | [] => []
  | e :: store =>
    if target.healthWillBeBelowPctDamaged e.healthPct damageTaken then
      if e.origin.eventId = 0 then store else leftOver target damageTaken store
    else e :: store

theorem BareIds.drained (h : BareIds m) : ∃ m', Drained target damageTaken m m' ∧
    m'.eventMap = leftOver target damageTaken m.eventMap := by
  generalize hstore : m.eventMap = store
  induction store generalizing m with
  | nil =>
    refine ⟨_, .last ?_, ?_⟩
    · unfold onDamageTaken
      rw [hstore]
      rfl
    · rw [onDamageTaken_eventMap, hstore]
      rfl
  | cons e store ih =>
    have hnext := @BareIds.nextEvent_eq m target damageTaken h
    rw [hstore] at hnext
    dsimp only at hnext
    have hid := h.eventId (hstore ▸ List.mem_cons_self : e ∈ m.eventMap)
    rw [leftOver]
    by_cases hreached : target.healthWillBeBelowPctDamaged e.healthPct damageTaken = true
    · rw [if_pos hreached] at hnext ⊢
      have hafter : (m.onDamageTaken target damageTaken).1 = e.origin.eventId ∧
          (m.onDamageTaken target damageTaken).2.eventMap = store := by
        unfold onDamageTaken
        rw [hstore, hnext]
        exact ⟨hid, rfl⟩
      by_cases hzero : e.origin.eventId = 0
      · rw [if_pos hzero]
        exact ⟨_, .last (hafter.1.trans hzero), hafter.2⟩
      · rw [if_neg hzero]
        obtain ⟨m', hdrained, hleft⟩ := ih (h.apply (.onDamageTaken target damageTaken)) hafter.2
        exact ⟨m', .next (hafter.1 ▸ hzero) hdrained, hleft⟩
    · rw [if_neg hreached] at hnext ⊢
      have hafter : (m.onDamageTaken target damageTaken).1 = 0 ∧
          (m.onDamageTaken target damageTaken).2.eventMap = e :: store := by
        unfold onDamageTaken
        rw [hstore, hnext]
        exact ⟨rfl, rfl⟩
      exact ⟨_, .last hafter.1, hafter.2⟩

theorem Drained.unique {m₁ m₂ : DamageEventMap} (h₁ : Drained target damageTaken m m₁)
    (h₂ : Drained target damageTaken m m₂) : m₁ = m₂ := by
  induction h₁ with
  | last hid =>
    cases h₂ with
    | last _ => rfl
    | next hid' _ => exact absurd hid hid'
  | next hid _ ih =>
    cases h₂ with
    | last hid' => exact absurd hid' hid
    | next _ hrest => exact ih hrest

/-- What is left does not wait if and only if what waits stood behind nothing that ends the
calls. -/
theorem leftOver_iff (waiting : Entry → Prop) (store : DamageEventStore) :
    (∀ e ∈ leftOver target damageTaken store, ¬waiting e) ↔
      ∀ before e after, store = before ++ e :: after → waiting e →
        target.healthWillBeBelowPctDamaged e.healthPct damageTaken = true ∧
        ∀ x ∈ before, target.healthWillBeBelowPctDamaged x.healthPct damageTaken = true ∧
          x.origin.eventId ≠ 0 := by
  induction store with
  | nil =>
    refine iff_of_true (fun e he => (List.not_mem_nil he).elim) fun before e after h => ?_
    cases before <;> cases h
  | cons x store ih =>
    rw [leftOver]
    by_cases hreached : target.healthWillBeBelowPctDamaged x.healthPct damageTaken = true
    · rw [if_pos hreached]
      by_cases hzero : x.origin.eventId = 0
      · rw [if_pos hzero]
        constructor
        · intro hleft before e after hsplit hwaiting
          cases before with
          | nil =>
            obtain ⟨rfl, -⟩ := List.cons.inj hsplit
            exact ⟨hreached, fun _ h => nomatch h⟩
          | cons y before =>
            obtain ⟨-, rfl⟩ := List.cons.inj hsplit
            exact absurd hwaiting (hleft e (List.mem_append_right _ List.mem_cons_self))
        · intro hall e he hwaiting
          obtain ⟨before, after, rfl⟩ := List.append_of_mem he
          exact (((hall (x :: before) e after rfl hwaiting).2 x List.mem_cons_self).2) hzero
      · rw [if_neg hzero, ih]
        constructor
        · intro hstore before e after hsplit hwaiting
          cases before with
          | nil =>
            obtain ⟨rfl, -⟩ := List.cons.inj hsplit
            exact ⟨hreached, fun _ h => nomatch h⟩
          | cons y before =>
            obtain ⟨rfl, hrest⟩ := List.cons.inj hsplit
            obtain ⟨he, hbefore⟩ := hstore before e after hrest hwaiting
            refine ⟨he, fun z hz => ?_⟩
            obtain rfl | hz := List.mem_cons.mp hz
            · exact ⟨hreached, hzero⟩
            · exact hbefore z hz
        · intro hall before e after hsplit hwaiting
          obtain ⟨he, hbefore⟩ := hall (x :: before) e after (by rw [hsplit]; rfl) hwaiting
          exact ⟨he, fun z hz => hbefore z (List.mem_cons_of_mem x hz)⟩
    · rw [if_neg hreached]
      constructor
      · intro hleft before e after hsplit hwaiting
        exact absurd hwaiting (hleft e (hsplit ▸ List.mem_append_right _ List.mem_cons_self))
      · intro hall e he hwaiting
        obtain ⟨before, after, hsplit⟩ := List.append_of_mem he
        obtain ⟨he, hbefore⟩ := hall before e after hsplit hwaiting
        cases before with
        | nil =>
          obtain ⟨rfl, -⟩ := List.cons.inj hsplit
          exact hreached he
        | cons y before =>
          obtain ⟨rfl, -⟩ := List.cons.inj hsplit
          exact hreached (hbefore _ List.mem_cons_self).1

end Drain

/-- In a map that was filled by calls, a call does what it owes if and only if it is one that
the map is made for. -/
theorem BareIds.honoured_iff (h : BareIds m) (later : List Op) (op : Op) :
    m.Honoured later op ↔ m.Fits op := by
  cases op with
  | onDamageTaken target damageTaken =>
    have hphase : (∀ e, m.found target damageTaken = some e → Occurs m.phase e.origin.phase ∧
        ∀ calls target' damage', calls <+: later →
          ∀ x, ((m.onDamageTaken target damageTaken).2.run calls).found target' damage' = some x →
            x.origin.serial ≠ e.origin.serial) ↔
        ∀ e, m.eventMap.head? = some e →
          target.healthWillBeBelowPctDamaged e.healthPct damageTaken = true →
            Occurs m.phase e.origin.phase := by
      constructor
      · exact fun hall e hhead hreached => (hall e ((h.found_iff e).mpr ⟨hhead, hreached⟩)).1
      · intro hall e he
        obtain ⟨hhead, hreached⟩ := (h.found_iff e).mp he
        refine ⟨hall e hhead hreached, fun calls target' damage' _ x hx => ?_⟩
        have hrun := (h.apply (.onDamageTaken target damageTaken)).run calls
        exact ((h.gone he).run calls).2 x (found_mem hx hrun)
    have hdrain : (∃ m', Drained target damageTaken m m' ∧
        ∀ e ∈ m'.eventMap, ¬m.Waiting target damageTaken e) ↔
        ∀ e ∈ leftOver target damageTaken m.eventMap, ¬m.Waiting target damageTaken e := by
      obtain ⟨left, hleft, hstore⟩ := @BareIds.drained m target damageTaken h
      constructor
      · rintro ⟨m', hdrained, hnone⟩
        rw [← hstore, hleft.unique hdrained]
        exact hnone
      · exact fun hnone => ⟨left, hleft, hstore ▸ hnone⟩
    exact and_congr hphase (hdrain.trans (leftOver_iff _ _))
  | cancelEventGroup group =>
    refine imp_congr_right fun hgroup => ?_
    rw [h.cancelEventGroup_eq hgroup, eq_comm, List.filter_eq_self]
    exact forall₂_congr fun e _ => decide_eq_true_iff
  | _ => exact Iff.rfl

end DamageEventMap

open DamageEventMap in
/-- The calls of a run do what they owe if and only if they are calls the map is made for. -/
theorem damage_run_iff (ops : List Op) :
    (∀ before op later, ops = before ++ op :: later → (new.run before).Honoured later op) ↔
      ∀ before op later, ops = before ++ op :: later → (new.run before).Fits op :=
  forall₄_congr fun before op later _ => (bareIds_new.run before).honoured_iff later op

/-- Events wait below 20 and below 50 percent; the health falls from 60 to 40 percent and
neither is returned. -/
theorem damage_fails_smallestFirst : ¬∀ before op later,
    (DamageEventMap.new.run before).Honoured later op := by
  intro hall
  obtain ⟨-, m', hdrained, hnone⟩ := hall
    [.scheduleEventBelowHealthPct 1 20 0 0, .scheduleEventBelowHealthPct 2 50 0 0]
    (.onDamageTaken ⟨60, fun pct => pct.setWidth 64⟩ 20) []
  have hlast : m' = ((DamageEventMap.new.run [.scheduleEventBelowHealthPct 1 20 0 0,
      .scheduleEventBelowHealthPct 2 50 0 0]).onDamageTaken
        ⟨60, fun pct => pct.setWidth 64⟩ 20).2 :=
    hdrained.unique (.last (by decide))
  rw [hlast] at hnone
  exact hnone ⟨50, 2, ⟨2, 2, 0, 0⟩⟩ (by decide) ⟨by decide, by decide⟩

end Ashamane.DamageEvents
