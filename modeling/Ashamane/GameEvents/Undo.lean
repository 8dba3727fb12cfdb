import Ashamane.GameEvents.Basic
import Mathlib.Algebra.BigOperators.Group.List.Basic
import Mathlib.Algebra.Ring.Int.Defs
import Mathlib.Algebra.Ring.Nat
import Mathlib.Data.List.Count
import Mathlib.Data.List.Perm.Basic

/-! What the active events have added, and what is left when they have stopped. -/
namespace Ashamane.GameEvents

open Lib

theorem perm_insertRelation (r : Nat × Nat) (l : List (Nat × Nat)) :
    (insertRelation r l).Perm (r :: l) := by
  induction l with
  | nil => exact List.Perm.refl _
  | cons x rest ih =>
    unfold insertRelation
    split
    · exact List.Perm.refl _
    · exact (ih.cons x).trans (List.Perm.swap ..)

section Quests

variable {quests : Nat → List (Nat × Nat)} {active : List Nat} {e : Nat}
  {relations : List (Nat × Nat)}

theorem count_updateQuests_true (r : Nat × Nat) :
    (updateQuests quests active e true relations).count r =
      relations.count r + (quests e).count r := by
  unfold updateQuests
  induction quests e generalizing relations with
  | nil => rfl
  | cons x l ih =>
    rw [List.foldl_cons, if_pos rfl, ih, (perm_insertRelation x relations).count_eq,
      List.count_cons, List.count_cons]
    omega

def Alone (quests : Nat → List (Nat × Nat)) (active : List Nat) (e : Nat) : Prop :=
  ∀ other ∈ active, other ≠ e → ∀ x ∈ quests e, ∀ y ∈ quests other, y.2 ≠ x.2

theorem count_updateQuests_false (halone : Alone quests active e) (r : Nat × Nat) :
    (updateQuests quests active e false relations).count r =
      relations.count r - (quests e).count r := by
  have hdiff : updateQuests quests active e false relations = relations.diff (quests e) := by
    have hnone : ∀ x ∈ quests e, hasQuestActiveEventExcept quests active x.2 e = false := by
      intro x hx
      unfold hasQuestActiveEventExcept
      simp only [List.any_eq_false, Bool.and_eq_true, bne_iff_ne, List.any_eq_true, beq_iff_eq,
        not_and, not_exists]
      exact fun other hother hne y hy => halone other hother hne x hx y hy
    unfold updateQuests
    generalize quests e = l at hnone
    induction l generalizing relations with
    | nil => rfl
    | cons x l ih =>
      rw [List.foldl_cons, List.diff_cons, hnone x (List.mem_cons_self ..)]
      exact ih fun y hy => hnone y (List.mem_cons_of_mem _ hy)
  rw [hdiff, List.count_diff]

end Quests

section Models

variable {data : Nat → Option CreatureData} {l : List (Nat × ModelEquip)} {g : Nat}

def changed (data : Nat → Option CreatureData) (l : List (Nat × ModelEquip)) : List Nat :=
  (l.filter fun x => (data x.1).isSome).map Prod.fst

def restore (l : List (Nat × ModelEquip)) (data : Nat → Option CreatureData) :
    Nat → Option CreatureData := (changeEquipOrModel false l data).2

theorem changeEquipOrModel_false : (changeEquipOrModel false l data).1 = l := by
  induction l generalizing data with
  | nil => rfl
  | cons x rest ih =>
    obtain ⟨guid, entry⟩ := x
    unfold changeEquipOrModel
    split
    · exact congr_arg _ ih
    · exact congr_arg _ ih

theorem changeEquipOrModel_isSome (data : Nat → Option CreatureData)
    (l : List (Nat × ModelEquip)) (activate : Bool) (g : Nat) :
    ((changeEquipOrModel activate l data).2 g).isSome = (data g).isSome := by
  induction l generalizing data with
  | nil => rfl
  | cons x rest ih =>
    obtain ⟨guid, entry⟩ := x
    have hset : ∀ new : CreatureData, (data guid).isSome →
        (Function.update data guid (some new) g).isSome = (data g).isSome := by
      intro new hsome
      by_cases hg : g = guid
      · subst hg
        rw [Function.update_self, hsome]
        rfl
      · rw [Function.update_of_ne hg]
    unfold changeEquipOrModel
    split
    · exact ih data
    · rename_i old hold
      split <;> exact (ih _).trans (hset _ (by rw [hold]; rfl))

theorem changeEquipOrModel_fst (activate : Bool) :
    (changeEquipOrModel activate l data).1.map Prod.fst = l.map Prod.fst := by
  induction l generalizing data with
  | nil => rfl
  | cons x rest ih =>
    obtain ⟨guid, entry⟩ := x
    unfold changeEquipOrModel
    split
    · exact congr_arg (List.cons guid) ih
    · split <;> exact congr_arg (List.cons guid) ih

def restoreOne (x : Nat × ModelEquip) (data : Nat → Option CreatureData) :
    Nat → Option CreatureData := fun g =>
  if g = x.1 then (data g).map fun _ => ⟨x.2.modelidPrev, x.2.equipementIdPrev⟩ else data g

theorem restore_cons (x : Nat × ModelEquip) :
    restore (x :: l) data = restore l (restoreOne x data) := by
  obtain ⟨guid, entry⟩ := x
  unfold restore
  rw [changeEquipOrModel]
  split
  · rename_i hnone
    refine congr_arg (fun d => (changeEquipOrModel false l d).2) (funext fun g => ?_)
    unfold restoreOne
    split
    · rename_i hg
      rw [hg, hnone]
      rfl
    · rfl
  · rename_i old hold
    refine congr_arg (fun d => (changeEquipOrModel false l d).2) (funext fun g => ?_)
    unfold restoreOne
    split
    · rename_i hg
      rw [hg, hold, Function.update_self]
      rfl
    · rename_i hg
      exact Function.update_of_ne hg ..

theorem restore_congr {data' : Nat → Option CreatureData} (h : data g = data' g) :
    restore l data g = restore l data' g := by
  induction l generalizing data data' with
  | nil => exact h
  | cons x rest ih =>
    rw [restore_cons, restore_cons]
    refine ih ?_
    unfold restoreOne
    rw [h]

theorem mem_changed : g ∈ changed data l ↔ (data g).isSome ∧ g ∈ l.map Prod.fst := by
  unfold changed
  simp only [List.mem_map, List.mem_filter]
  constructor
  · rintro ⟨x, ⟨hx, hsome⟩, rfl⟩
    exact ⟨hsome, x, hx, rfl⟩
  · rintro ⟨hsome, x, hx, rfl⟩
    exact ⟨x, ⟨hx, hsome⟩, rfl⟩

theorem restore_of_notMem (h : g ∉ changed data l) : restore l data g = data g := by
  cases hg : data g with
  | none =>
    have hsome := changeEquipOrModel_isSome data l false g
    rw [hg] at hsome
    exact Option.isSome_eq_false_iff.mp hsome |> Option.isNone_iff_eq_none.mp
  | some old =>
    have hlist : g ∉ l.map Prod.fst := fun hm => h (mem_changed.mpr ⟨by rw [hg]; rfl, hm⟩)
    rw [← hg]
    clear hg h
    induction l generalizing data with
    | nil => rfl
    | cons x rest ih =>
      rw [List.map_cons, List.mem_cons, not_or] at hlist
      rw [restore_cons, ih hlist.2]
      exact if_neg hlist.1

/-- Stopping an event right after its start leaves the data of every creature that it has once. -/
theorem restore_change (h : (changed data l).Nodup) :
    restore (changeEquipOrModel true l data).1 (changeEquipOrModel true l data).2 = data := by
  funext g
  induction l generalizing data with
  | nil => rfl
  | cons x rest ih =>
    obtain ⟨guid, entry⟩ := x
    unfold changed at h
    rw [changeEquipOrModel]
    split
    · rename_i hnone
      rw [List.filter_cons_of_neg (by simp [hnone])] at h
      rw [restore_cons]
      have hone : ∀ d : Nat → Option CreatureData, d guid = none →
          restoreOne (guid, entry) d = d := by
        intro d hd
        funext g'
        unfold restoreOne
        split
        · rename_i hg
          rw [hg, hd]
          rfl
        · rfl
      rw [hone]
      · exact ih h
      · have hsome := changeEquipOrModel_isSome data rest true guid
        rw [hnone] at hsome
        exact Option.isNone_iff_eq_none.mp (Option.isSome_eq_false_iff.mp hsome)
    · rename_i old hold
      rw [List.filter_cons_of_pos (by simp [hold]), List.map_cons, List.nodup_cons] at h
      dsimp only
      generalize hnew : Function.update data guid (some ⟨entry.modelid, entry.equipmentId⟩) = new
      have hsame : ∀ g', (new g').isSome = (data g').isSome := by
        intro g'
        rw [← hnew]
        by_cases hg : g' = guid
        · rw [hg, Function.update_self, hold]
          rfl
        · rw [Function.update_of_ne hg]
      have hchanged : changed new rest = changed data rest := by
        unfold changed
        refine congr_arg (List.map Prod.fst) (List.filter_congr fun x _ => hsame x.1)
      have hrest := @ih new (hchanged ▸ h.2)
      rw [if_pos rfl, restore_cons]
      by_cases hg : g = guid
      · subst hg
        have hnot : g ∉ rest.map Prod.fst := fun hm =>
          h.1 (mem_changed.mpr ⟨by rw [hold]; rfl, hm⟩)
        rw [restore_of_notMem]
        · unfold restoreOne
          rw [if_pos rfl]
          have hsome := changeEquipOrModel_isSome new rest true g
          rw [hsame, hold] at hsome
          obtain ⟨d, hd⟩ := Option.isSome_iff_exists.mp hsome
          rw [hd, hold]
          rfl
        · intro hm
          have := (mem_changed.mp hm).2
          rw [changeEquipOrModel_fst] at this
          exact hnot this
      · have hcongr : restoreOne (guid, { entry with
            modelidPrev := old.displayid, equipementIdPrev := old.equipmentId })
            (changeEquipOrModel true rest new).2 g = (changeEquipOrModel true rest new).2 g :=
          if_neg hg
        rw [restore_congr hcongr, hrest, ← hnew, Function.update_of_ne hg]

end Models

namespace GameEventMgr

variable {base s t : GameEventMgr} {a : Act} {e : Nat}

def undo (equip : Nat → List (Nat × ModelEquip)) (active : List Nat)
    (data : Nat → Option CreatureData) : Nat → Option CreatureData :=
  active.foldl (fun data e => restore (equip e) data) data

theorem undo_congr {equip equip' : Nat → List (Nat × ModelEquip)} {active : List Nat}
    (h : ∀ e ∈ active, equip e = equip' e) (data : Nat → Option CreatureData) :
    undo equip active data = undo equip' active data := by
  unfold undo
  induction active generalizing data with
  | nil => rfl
  | cons e active ih =>
    rw [List.foldl_cons, List.foldl_cons, h e (List.mem_cons_self ..)]
    exact ih (fun e he => h e (List.mem_cons_of_mem _ he)) _

theorem restore_comm {l l' : List (Nat × ModelEquip)} {data : Nat → Option CreatureData}
    (h : ∀ g ∈ changed data l, g ∉ changed data l') :
    restore l (restore l' data) = restore l' (restore l data) := by
  have hchanged : ∀ m : List (Nat × ModelEquip), ∀ g k, g ∈ changed (restore m data) k ↔ g ∈ changed data k := by
    intro m g k
    rw [mem_changed, mem_changed, restore, changeEquipOrModel_isSome]
  funext g
  by_cases hg : g ∈ changed data l
  · rw [restore_congr (restore_of_notMem (h g hg))]
    exact (restore_of_notMem fun hm => h g hg ((hchanged l g l').mp hm)).symm
  · rw [restore_congr (l := l') (restore_of_notMem hg)]
    exact restore_of_notMem fun hm => hg ((hchanged l' g l).mp hm)

theorem restore_undo (equip : Nat → List (Nat × ModelEquip)) {l : List (Nat × ModelEquip)}
    {before : List Nat} (data : Nat → Option CreatureData)
    (h : ∀ e ∈ before, ∀ g ∈ changed data l, g ∉ changed data (equip e)) :
    restore l (undo equip before data) = undo equip before (restore l data) := by
  unfold undo
  induction before generalizing data with
  | nil => rfl
  | cons e before ih =>
    have hcomm := restore_comm (h e (List.mem_cons_self ..))
    rw [List.foldl_cons, List.foldl_cons, ← hcomm]
    refine ih _ fun e' he' g hg => ?_
    rw [mem_changed, restore, changeEquipOrModel_isSome, ← mem_changed] at hg ⊢
    exact h e' (List.mem_cons_of_mem _ he') g hg

def Counted (baseRelations relations : List (Nat × Nat)) (quests : Nat → List (Nat × Nat))
    (active : List Nat) : Prop :=
  ∀ r, relations.count r = baseRelations.count r + (active.map fun e => (quests e).count r).sum

theorem Counted.start {base relations : List (Nat × Nat)} {quests : Nat → List (Nat × Nat)}
    {active : List Nat} (h : Counted base relations quests active) (active' : List Nat) (e : Nat) :
    Counted base (updateQuests quests active' e true relations) quests (e :: active) := by
  intro r
  rw [count_updateQuests_true, h r, List.map_cons, List.sum_cons]
  omega

theorem Counted.stop {base relations : List (Nat × Nat)} {quests : Nat → List (Nat × Nat)}
    {active : List Nat} (h : Counted base relations quests active) (he : e ∈ active)
    (halone : Alone quests active e) :
    Counted base (updateQuests quests (active.erase e) e false relations) quests (active.erase e) := by
  intro r
  have hsum := ((List.perm_cons_erase he).map fun e => (quests e).count r).sum_eq
  rw [List.map_cons, List.sum_cons] at hsum
  rw [count_updateQuests_false fun other hother => halone other (List.mem_of_mem_erase hother), h r,
    hsum]
  omega

theorem Counted.mem_iff {base relations : List (Nat × Nat)} {quests : Nat → List (Nat × Nat)}
    {active : List Nat} (h : Counted base relations quests active) (r : Nat × Nat) :
    r ∈ relations ↔ r ∈ base ∨ ∃ e ∈ active, r ∈ quests e := by
  have hsum : 0 < (active.map fun e => (quests e).count r).sum ↔ ∃ e ∈ active, r ∈ quests e := by
    rw [List.sum_pos_iff_exists_pos_nat]
    simp only [List.mem_map, exists_exists_and_eq_and, List.count_pos_iff]
  rw [← List.count_pos_iff, h r, ← hsum, ← List.count_pos_iff]
  omega

def Allowed (s : GameEventMgr) : Act → Prop
  | .start e => (changed s.creatureData (s.gameEventModelEquip e)).Nodup
  | .stop e => Alone s.gameEventCreatureQuests s.activeEvents e ∧
      Alone s.gameEventGameObjectQuests s.activeEvents e ∧
      ∀ later ∈ s.activeEvents.takeWhile (· != e),
        ∀ g ∈ changed s.creatureData (s.gameEventModelEquip e),
          g ∉ changed s.creatureData (s.gameEventModelEquip later)

structure Applied (base s : GameEventMgr) : Prop where
  nodup : s.activeEvents.Nodup
  creatureQuests : s.gameEventCreatureQuests = base.gameEventCreatureQuests
  goQuests : s.gameEventGameObjectQuests = base.gameEventGameObjectQuests
  creature : Counted base.creatureQuestRelations s.creatureQuestRelations
    s.gameEventCreatureQuests s.activeEvents
  gameObject : Counted base.goQuestRelations s.goQuestRelations s.gameEventGameObjectQuests
    s.activeEvents
  data : undo s.gameEventModelEquip s.activeEvents s.creatureData = base.creatureData

theorem Applied.refl (hidle : base.activeEvents = []) : Applied base base := by
  have hcounted : ∀ l quests, Counted l l quests base.activeEvents := by
    intro l quests r
    rw [hidle]
    rfl
  exact ⟨by rw [hidle]; exact List.nodup_nil, rfl, rfl, hcounted _ _, hcounted _ _,
    by rw [hidle]; rfl⟩

theorem Applied.start (h : Applied base s) (he : e ∉ s.activeEvents) (hok : s.Allowed (.start e)) :
    Applied base (s.startEvent e) where
  nodup := List.nodup_cons.mpr ⟨he, h.nodup⟩
  creatureQuests := h.creatureQuests
  goQuests := h.goQuests
  creature := h.creature.start _ _
  gameObject := h.gameObject.start _ _
  data := by
    have hback := restore_change hok
    unfold startEvent applyEvent
    dsimp only
    unfold undo
    rw [List.foldl_cons, Function.update_self, hback]
    refine Eq.trans (undo_congr (fun other hother => ?_) _) h.data
    have hne : other ≠ e := fun heq => he (heq ▸ hother)
    exact Function.update_of_ne hne ..

theorem Applied.stop (h : Applied base s) (he : e ∈ s.activeEvents) (hok : s.Allowed (.stop e)) :
    Applied base (s.stopEvent e) where
  nodup := h.nodup.erase e
  creatureQuests := h.creatureQuests
  goQuests := h.goQuests
  creature := h.creature.stop he hok.1
  gameObject := h.gameObject.stop he hok.2.1
  data := by
    obtain ⟨before, after, hsplit, hbefore⟩ := List.eq_append_cons_of_mem he
    have htake : s.activeEvents.takeWhile (· != e) = before := by
      rw [hsplit, List.takeWhile_append_of_pos]
      · simp
      · intro x hx
        exact bne_iff_ne.mpr fun heq => hbefore (heq ▸ hx)
    have hdata := h.data
    unfold stopEvent applyEvent
    dsimp only
    rw [changeEquipOrModel_false, Function.update_eq_self]
    rw [hsplit] at hdata
    rw [hsplit, List.erase_append_right _ hbefore, List.erase_cons_head]
    unfold undo at hdata ⊢
    rw [List.foldl_append] at hdata ⊢
    rw [List.foldl_cons] at hdata
    have hswap := restore_undo s.gameEventModelEquip s.creatureData
      (fun other hother => hok.2.2 other (htake ▸ hother))
    unfold undo at hswap
    rw [hswap] at hdata
    exact hdata

theorem Applied.step (h : Applied base s) (hok : s.Allowed a) (hstep : s.step a = some t) :
    Applied base t := by
  cases a with
  | start e =>
    obtain ⟨he, ht⟩ := Option.ite_none_left_eq_some.mp hstep
    exact Option.some.inj ht ▸ h.start he hok
  | stop e =>
    obtain ⟨he, ht⟩ := Option.ite_none_right_eq_some.mp hstep
    exact Option.some.inj ht ▸ h.stop he hok

structure Undone (base s : GameEventMgr) : Prop where
  idle : s.activeEvents = [] →
    s.creatureQuestRelations.Perm base.creatureQuestRelations ∧
      s.goQuestRelations.Perm base.goQuestRelations ∧ s.creatureData = base.creatureData
  creature : ∀ r, r ∈ s.creatureQuestRelations ↔ r ∈ base.creatureQuestRelations ∨
    ∃ e ∈ s.activeEvents, r ∈ base.gameEventCreatureQuests e
  gameObject : ∀ r, r ∈ s.goQuestRelations ↔ r ∈ base.goQuestRelations ∨
    ∃ e ∈ s.activeEvents, r ∈ base.gameEventGameObjectQuests e

theorem Applied.undone (h : Applied base s) : Undone base s where
  idle hidle := by
    have hperm : ∀ {l l' : List (Nat × Nat)} {quests : Nat → List (Nat × Nat)},
        Counted l l' quests s.activeEvents → l'.Perm l := by
      intro l l' quests hcounted
      refine List.perm_iff_count.mpr fun r => ?_
      rw [hcounted r, hidle]
      rfl
    refine ⟨hperm h.creature, hperm h.gameObject, ?_⟩
    have hdata := h.data
    rw [hidle] at hdata
    exact hdata
  creature r := h.creatureQuests ▸ h.creature.mem_iff r
  gameObject r := h.goQuests ▸ h.gameObject.mem_iff r

/-- Over all runs from a state without active events. -/
theorem events_run {as : List Act} (hidle : base.activeEvents = [])
    (hrun : Run (fun s a t => s.step a = some t) Allowed base as s) : Undone base s :=
  (hrun.invariant (Applied base) (Applied.refl hidle)
    fun _ _ _ hu hok hstep => hu.step hok hstep).undone

def twoEvents (quests : Nat → List (Nat × Nat)) (creature : Nat → Nat) : GameEventMgr where
  gameEventCreatureQuests := quests
  gameEventGameObjectQuests _ := []
  gameEventModelEquip e := if e = 1 ∨ e = 2 then [(creature e, ⟨10 * e, 0, 5, 0⟩)] else []
  creatureQuestRelations := [(1, 100)]
  goQuestRelations := []
  creatureData _ := some ⟨7, 3⟩

/-- The two events overlap, and the one that was started first is stopped first. -/
theorem events_run_two : ∃ s : GameEventMgr,
    (s.activeEvents = [] ∧ s.creatureQuestRelations = [(1, 100)]) ∧
      Undone (twoEvents (fun e => [(1, 99 + e)]) id) s := by
  refine ⟨_, ⟨?_, ?_⟩, @events_run _ _ [.start 1, .start 2, .stop 1, .stop 2] rfl
    (.cons ?_ rfl (.cons ?_ rfl (.cons ?_ rfl (.cons ?_ rfl (.nil _)))))⟩
  · rfl
  · rfl
  · unfold Allowed
    decide
  · unfold Allowed
    decide
  · unfold Allowed Alone
    decide
  · unfold Allowed Alone
    decide

/-- Two events have one quest, which neither takes away while the other is active: the first one's
is left. Two events change one creature, and the first one is stopped first: the model that it
gave comes back. -/
theorem events_fail_overlap : ∃ s : GameEventMgr,
    Run (fun s a t => s.step a = some t) always (twoEvents (fun e => [(e, 50)]) fun _ => 1)
      [.start 1, .start 2, .stop 1, .stop 2] s ∧
    s.activeEvents = [] ∧ s.creatureQuestRelations = [(1, 100), (1, 50)] ∧
    (s.creatureData 1).map CreatureData.displayid = some 10 ∧
    ¬Undone (twoEvents (fun e => [(e, 50)]) fun _ => 1) s := by
  refine ⟨_, .cons trivial rfl (.cons trivial rfl (.cons trivial rfl (.cons trivial rfl (.nil _)))),
    rfl, ?_, ?_, fun h => ?_⟩
  · decide
  · decide
  · have hperm := (h.idle rfl).1
    exact absurd hperm.length_eq (by decide)

end GameEventMgr

end Ashamane.GameEvents
