import Ashamane.Quests.Fits

/-! The item checks, and what never happens to the log while calls run into each other. -/
namespace Ashamane.Quests
open Ashamane.Lib

variable {templates : Templates} {p t u : Player} {q slot entry count : Nat} {quest : Quest}
  {obj : QuestObjective} {within : List Nat} {around : Around} {counts : Nat → Bool}

theorem itemObjective_some (h : p.itemObjective templates counts entry = some (q, obj)) :
    ∃ slot quest, slot < maxQuestLogSize ∧ (p.log slot).questId = q ∧ q ≠ 0 ∧ counts q = true ∧
      templates q = some quest := by
  obtain ⟨slot, hslot, hfound⟩ := List.exists_of_findSome?_eq_some h
  simp only at hfound
  split at hfound
  · cases hfound
  next hcounts =>
    obtain ⟨quest, hquest, hobj⟩ := Option.bind_eq_some_iff.mp hfound
    split at hobj
    · obtain ⟨_, _, hsame⟩ := Option.map_eq_some_iff.mp hobj
      obtain ⟨rfl, rfl⟩ := Prod.mk.inj hsame
      rw [not_or] at hcounts
      exact ⟨slot, quest, List.mem_range.mp hslot, rfl, hcounts.1, by simpa using hcounts.2, hquest⟩
    · cases hobj

theorem Touches.itemRemoved (templates : Templates) (around : Around) (p : Player)
    (entry count : Nat) : p.itemRemovedQuestCheck templates around entry count = p ∨
      ∃ q, p.findQuestSlot q ≠ none ∧ q ≠ 0 ∧
        Touches q p (p.itemRemovedQuestCheck templates around entry count) := by
  rw [Player.itemRemovedQuestCheck]
  cases hobj : p.itemObjective templates (fun _ => true) entry with
  | none => exact .inl rfl
  | some found =>
    obtain ⟨q, obj⟩ := found
    obtain ⟨slot, _, hi, hid, hq, _, _⟩ := itemObjective_some hobj
    simp only
    split
    · exact .inr ⟨q, findQuestSlot_ne_none hi hid, hq,
        (Touches.setQuestObjectiveData p q obj _).trans (.incompleteQuest templates _ q)⟩
    · exact .inl rfl

theorem Touches.itemAdded (templates : Templates) (around : Around) (p : Player)
    (entry count : Nat) :
    p.itemAddedQuestCheck templates around entry count = (p, none) ∨
      ∃ q, p.findQuestSlot q ≠ none ∧ q ≠ 0 ∧
        Touches q p (p.itemAddedQuestCheck templates around entry count).1 ∧
        ∀ q', (p.itemAddedQuestCheck templates around entry count).2 = some q' → q' = q := by
  rw [Player.itemAddedQuestCheck]
  cases hobj : p.itemObjective templates (fun questId => p.status questId = .incomplete) entry with
  | none => exact .inl rfl
  | some found =>
    obtain ⟨q, obj⟩ := found
    obtain ⟨slot, _, hi, hid, hq, _, _⟩ := itemObjective_some hobj
    refine .inr ⟨q, findQuestSlot_ne_none hi hid, hq, ?_, fun q' hq' => ?_⟩
    · simp only
      split
      · exact .setQuestObjectiveData p q obj _
      · exact .refl q p
    · exact (Option.some.inj (Option.ite_none_right_eq_some.mp hq').2).symm

/-! What becomes of the log -/

def Fades (p t : Player) : Prop :=
  ∀ i, (t.log i).questId = (p.log i).questId ∨ (t.log i).questId = 0

theorem Fades.trans (h : Fades p u) (h' : Fades u t) : Fades p t := by
  intro i
  cases h' i with
  | inl hsame => rw [hsame]; exact h i
  | inr hzero => exact .inr hzero

theorem Touches.fades (h : Touches q p t) : Fades p t := fun i => .inl (h.ids i)

theorem Fades.findQuestSlot (h : Fades p t) (hq : q ≠ 0) (hnone : p.findQuestSlot q = none) :
    t.findQuestSlot q = none := by
  by_contra hsome
  obtain ⟨i, hi⟩ := Option.ne_none_iff_exists'.mp hsome
  obtain ⟨hlt, hid⟩ := findQuestSlot_some hi
  cases h i with
  | inl hsame => exact findQuestSlot_none hnone i hlt (hsame.symm.trans hid)
  | inr hzero => exact hq (hid.symm.trans hzero)

theorem fades_setQuestSlot_zero (p : Player) (slot : Nat) : Fades p (p.setQuestSlot slot 0) := by
  intro i
  rw [Player.setQuestSlot, modifySlot_log]
  by_cases hi : i = slot
  · rw [if_pos hi]
    exact .inr rfl
  · rw [if_neg hi]
    exact .inl rfl

theorem removeActiveQuest_log (p : Player) (q : Nat) (quest : Quest) :
    (p.removeActiveQuest q quest).log = p.log := by
  rw [Player.removeActiveQuest]
  cases p.questStatus.lookup q with
  | none => rfl
  | some data =>
    simp only
    split <;> rfl

theorem removeActiveQuest_lookup (p : Player) (q : Nat) (quest : Quest) {q' : Nat}
    (hq : q' ≠ q) :
    (p.removeActiveQuest q quest).questStatus.lookup q' = p.questStatus.lookup q' := by
  rw [Player.removeActiveQuest]
  cases p.questStatus.lookup q with
  | none => rfl
  | some data =>
    simp only
    split
    · exact AList.lookup_erase_ne hq
    · exact AList.lookup_insert_ne hq

theorem removeActiveQuest_status (p : Player) (q : Nat) (quest : Quest) :
    (p.removeActiveQuest q quest).status q = .none := by
  rw [Player.removeActiveQuest]
  cases hlookup : p.questStatus.lookup q with
  | none => simp [Player.status, hlookup]
  | some data =>
    simp only
    split <;> simp [Player.status]

theorem rewarded_log (p : Player) (q : Nat) (quest : Quest) :
    (p.rewarded q quest).log =
      (match p.findQuestSlot q with | none => p | some i => p.setQuestSlot i 0).log := by
  rw [Player.rewarded, removeActiveQuest_log]
  split <;> rfl

theorem rewarded_lookup (p : Player) (q : Nat) (quest : Quest) {q' : Nat} (hq : q' ≠ q) :
    (p.rewarded q quest).questStatus.lookup q' = p.questStatus.lookup q' := by
  rw [Player.rewarded, removeActiveQuest_lookup _ _ _ hq]
  cases p.findQuestSlot q <;> simp only <;> split <;> rfl

theorem fades_rewarded (p : Player) (q : Nat) (quest : Quest) : Fades p (p.rewarded q quest) := by
  intro i
  rw [rewarded_log]
  cases p.findQuestSlot q with
  | none => exact .inl rfl
  | some slot => exact fades_setQuestSlot_zero p slot i

def Call.names : Call → Nat → Prop
  | .addQuest questId _ _, q => q = questId
  | .setQuestObjectiveData questId _ _, q => q = questId
  | .completeQuest questId, q => q = questId
  | .incompleteQuest questId, q => q = questId
  | .failQuest questId, q => q = questId
  | .rewardQuest questId, q => q = questId
  | .removeQuest _, _ => False
  | .items, _ => False
  | .criteriaQuests _, _ => False

structure Leaves (named : Nat → Prop) (p t : Player) : Prop where
  fades : Fades p t
  lookup : ∀ q, q ≠ 0 → p.findQuestSlot q = none → ¬named q →
    t.questStatus.lookup q = p.questStatus.lookup q

theorem Leaves.refl (named : Nat → Prop) (p : Player) : Leaves named p p :=
  ⟨fun _ => .inl rfl, fun _ _ _ _ => rfl⟩

theorem Leaves.trans {N L : Nat → Prop} (h : Leaves N p u) (h' : Leaves L u t)
    (hnames : ∀ q, L q → N q ∨ p.findQuestSlot q ≠ none) : Leaves N p t where
  fades := h.fades.trans h'.fades
  lookup q hq hnone hnamed := by
    rw [h'.lookup q hq (h.fades.findQuestSlot hq hnone), h.lookup q hq hnone hnamed]
    intro hlater
    exact (hnames q hlater).elim hnamed fun hslot => hslot hnone

theorem Leaves.of_names {L N : Nat → Prop} (h : Leaves L p t)
    (hnames : ∀ q, L q → N q ∨ p.findQuestSlot q ≠ none) : Leaves N p t :=
  (Leaves.refl N p).trans h hnames

theorem Touches.leaves {N : Nat → Prop} (h : Touches q p t)
    (hq : N q ∨ p.findQuestSlot q ≠ none) : Leaves N p t where
  fades := h.fades
  lookup q' _ hnone hnamed := by
    refine h.lookup q' ?_
    rintro rfl
    exact hq.elim hnamed fun hslot => hslot hnone

theorem leaves_rewarded (p : Player) (q : Nat) (quest : Quest) :
    Leaves (fun q' => q' = q) p (p.rewarded q quest) where
  fades := fades_rewarded p q quest
  lookup _ _ _ hnamed := rewarded_lookup p q quest hnamed

theorem leaves_removed (p : Player) (q slot : Nat) (quest : Quest) :
    Leaves (fun q' => q' = q) p ((p.removeActiveQuest q quest).setQuestSlot slot 0) where
  fades := by
    have hfades := fades_setQuestSlot_zero (p.removeActiveQuest q quest) slot
    rwa [Fades, removeActiveQuest_log] at hfades
  lookup _ _ _ hnamed := removeActiveQuest_lookup p q quest hnamed

variable {ok : List Nat → Player → Call → Prop} {okItem : List Nat → Player → ItemCheck → Prop}
  {call : Call}

theorem Runs.leaves (h : Runs templates ok okItem within call p t)
    (hcall : ∀ q timer getItemCount, call ≠ .addQuest q timer getItemCount) :
    Leaves call.names p t := by
  induction h with
  | noItems => exact .refl _ _
  | itemRemoved around entry count _ _ ih =>
    refine Leaves.trans ?_ (ih hcall) fun _ hnames => hnames.elim
    rcases Touches.itemRemoved templates around _ entry count with hsame | ⟨q, hslot, _, htouch⟩
    · rw [hsame]
      exact .refl _ _
    · exact htouch.leaves (.inr hslot)
  | itemAdded around entry count _ _ _ ih =>
    refine Leaves.trans ?_ (ih hcall) fun _ hnames => hnames.elim
    rcases Touches.itemAdded templates around _ entry count with
      hsame | ⟨q, hslot, _, htouch, _⟩
    · rw [hsame]
      exact .refl _ _
    · exact htouch.leaves (.inr hslot)
  | itemCompletes around entry count _ hsome _ _ ihcomplete ih =>
    rcases Touches.itemAdded templates around _ entry count with
      hsame | ⟨q, hslot, _, htouch, hq⟩
    · rw [hsame] at hsome
      cases hsome
    · obtain rfl := hq _ hsome
      have hcompleted := (htouch.leaves (.inr hslot)).trans (ihcomplete (by simp))
        (N := Call.items.names) fun _ hnames => .inr (hnames ▸ hslot)
      exact hcompleted.trans (ih hcall) fun _ hnames => hnames.elim
  | completeNothing => exact .refl _ _
  | complete => exact (Touches.completed ..).leaves (.inl rfl)
  | completeRewards _ _ _ _ _ ih =>
    refine Leaves.trans ?_ (ih (by simp)) fun _ hnames => .inl hnames
    exact (Touches.completed ..).leaves (.inl rfl)
  | reward _ _ _ _ ihitems ihcriteria =>
    refine Leaves.trans ?_ (ihcriteria (by simp)) fun _ hnames => hnames.elim
    refine Leaves.trans ?_ (leaves_rewarded _ _ _) fun _ hnames => .inl hnames
    exact (ihitems (by simp)).of_names fun _ hnames => hnames.elim
  | criteriaDone => exact .refl _ _
  | criteriaSkipped _ _ _ _ ih => exact (ih (by simp)).of_names fun _ hnames => hnames.elim
  | criteriaCompletes _ hslot _ _ _ _ _ ihcomplete ih =>
    have hcompleted := (ihcomplete (by simp)).of_names
      (N := fun _ => False) fun _ hnames => .inr (findQuestSlot_ne_none hslot hnames.symm)
    exact hcompleted.trans (ih (by simp)) fun _ hnames => hnames.elim
  | add => exact absurd rfl (hcall _ _ _)
  | credit => exact (Touches.setQuestObjectiveData ..).leaves (.inl rfl)
  | incomplete => exact (Touches.incompleteQuest ..).leaves (.inl rfl)
  | failRefused => exact .refl _ _
  | fail _ _ _ _ _ ih =>
    refine Leaves.trans ?_ (ih (by simp)) fun _ hnames => hnames.elim
    exact (Touches.failed ..).leaves (.inl rfl)
  | removeRefused => exact .refl _ _
  | removeEmpty => exact ⟨fades_setQuestSlot_zero _ _, fun _ _ _ _ => rfl⟩
  | remove hslot _ _ _ ih =>
    have hitems := ih (by simp)
    refine hitems.trans (leaves_removed _ _ _ _) fun _ hnames => ?_
    exact .inr (findQuestSlot_ne_none hslot hnames.symm)

end Ashamane.Quests
