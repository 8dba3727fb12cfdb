import Ashamane.Quests.Basic

/-! When the log of a player and the status of a quest agree, and what changes one quest only. -/
namespace Ashamane.Quests
open Ashamane.Lib

variable {templates : Templates} {p p' p'' : Player} {q slot : Nat} {quest : Quest}
  {obj : QuestObjective} {data : Nat} {within : List Nat}

structure Agreed (templates : Templates) (p : Player) (q : Nat) : Prop where
  listed : (∃ slot, slot < maxQuestLogSize ∧ (p.log slot).questId = q) ↔ p.status q ≠ .none
  complete : ∀ slot, slot < maxQuestLogSize → (p.log slot).questId = q →
    ((p.log slot).state.getLsbD 0 = true ↔ p.status q = .complete)
  fail : ∀ slot, slot < maxQuestLogSize → (p.log slot).questId = q →
    ((p.log slot).state.getLsbD 1 = true ↔ p.status q = .failed)
  counters : ∀ slot, slot < maxQuestLogSize → (p.log slot).questId = q →
    ∀ quest obj, templates q = some quest → obj ∈ quest.objectives → obj.isStoringFlag = false →
      0 ≤ obj.storageIndex → p.getQuestSlotCounter slot obj.storageIndex.toNat =
        p.getQuestObjectiveData q obj.storageIndex

structure Inv (templates : Templates) (within : List Nat) (p : Player) : Prop where
  once : ∀ i j, i < maxQuestLogSize → j < maxQuestLogSize →
    (p.log i).questId = (p.log j).questId → (p.log i).questId ≠ 0 → i = j
  known : ∀ i, i < maxQuestLogSize → (p.log i).questId ≠ 0 → templates (p.log i).questId ≠ none
  agreed : ∀ q, q ≠ 0 → q ∉ within → Agreed templates p q

theorem Inv.mono (h : Inv templates within p) (q : Nat) : Inv templates (q :: within) p where
  once := h.once
  known := h.known
  agreed q' hq' hout := h.agreed q' hq' fun hin => hout (List.mem_cons_of_mem _ hin)

/-- Only the quest `q` is changed, and it stays where it is in the log. -/
structure Touches (q : Nat) (p p' : Player) : Prop where
  ids : ∀ i, (p'.log i).questId = (p.log i).questId
  lookup : ∀ q', q' ≠ q → p'.questStatus.lookup q' = p.questStatus.lookup q'
  slots : ∀ i, (p.log i).questId ≠ q → p'.log i = p.log i

theorem Touches.refl (q : Nat) (p : Player) : Touches q p p :=
  ⟨fun _ => rfl, fun _ _ => rfl, fun _ _ => rfl⟩

theorem Touches.trans (h : Touches q p p') (h' : Touches q p' p'') : Touches q p p'' where
  ids i := (h'.ids i).trans (h.ids i)
  lookup q' hq' := (h'.lookup q' hq').trans (h.lookup q' hq')
  slots i hi := (h'.slots i (by rwa [h.ids i])).trans (h.slots i hi)

theorem Agreed.elsewhere (h : Agreed templates p q)
    (hlookup : p'.questStatus.lookup q = p.questStatus.lookup q)
    (hslots : ∀ i, (p.log i).questId = q ∨ (p'.log i).questId = q → p'.log i = p.log i) :
    Agreed templates p' q := by
  have hstatus : p'.status q = p.status q := by rw [Player.status, hlookup]; rfl
  have hdata : ∀ k, p'.getQuestObjectiveData q k = p.getQuestObjectiveData q k := by
    intro k
    simp only [Player.getQuestObjectiveData, hlookup]
  have hids : ∀ i, (p'.log i).questId = q ↔ (p.log i).questId = q := by
    intro i
    constructor
    · intro hi
      rw [← hslots i (.inr hi), hi]
    · intro hi
      rw [hslots i (.inl hi), hi]
  constructor
  · simp only [hids, hstatus]
    exact h.listed
  · intro i hi hid
    rw [hslots i (.inr hid), hstatus]
    exact h.complete i hi ((hids i).mp hid)
  · intro i hi hid
    rw [hslots i (.inr hid), hstatus]
    exact h.fail i hi ((hids i).mp hid)
  · intro i hi hid quest obj hquest hobj hflag hindex
    rw [hdata, ← h.counters i hi ((hids i).mp hid) quest obj hquest hobj hflag hindex]
    simp only [Player.getQuestSlotCounter, hslots i (.inr hid)]

theorem Touches.agreed (h : Touches q p p') {q' : Nat} (hq : q' ≠ q)
    (hagreed : Agreed templates p q') : Agreed templates p' q' := by
  refine hagreed.elsewhere (h.lookup q' hq) fun i hi => h.slots i ?_
  rw [h.ids i, or_self] at hi
  exact hi ▸ hq

theorem Inv.touched (h : Inv templates within p) (htouch : Touches q p p')
    (hq : q ≠ 0 → q ∉ within → Agreed templates p' q) : Inv templates within p' where
  once i j hi hj := by
    rw [htouch.ids i, htouch.ids j]
    exact h.once i j hi hj
  known i hi := by
    rw [htouch.ids i]
    exact h.known i hi
  agreed q' hq' hout := by
    by_cases hsame : q' = q
    · exact hsame ▸ hq (hsame ▸ hq') (hsame ▸ hout)
    · exact htouch.agreed hsame (h.agreed q' hq' hout)

/-! Slots -/

theorem findQuestSlot_some (h : p.findQuestSlot q = some slot) :
    slot < maxQuestLogSize ∧ (p.log slot).questId = q := by
  rw [Player.findQuestSlot] at h
  exact ⟨List.mem_range.mp (List.mem_of_find?_eq_some h), by simpa using List.find?_some h⟩

theorem findQuestSlot_none (h : p.findQuestSlot q = none) (i : Nat) (hi : i < maxQuestLogSize) :
    (p.log i).questId ≠ q := by
  rw [Player.findQuestSlot, List.find?_eq_none] at h
  simpa using h i (List.mem_range.mpr hi)

theorem findQuestSlot_ne_none (hi : slot < maxQuestLogSize) (hid : (p.log slot).questId = q) :
    p.findQuestSlot q ≠ none := fun h => findQuestSlot_none h slot hi hid

theorem findQuestSlot_congr (h : ∀ i, (p'.log i).questId = (p.log i).questId) (q : Nat) :
    p'.findQuestSlot q = p.findQuestSlot q := by
  simp only [Player.findQuestSlot, h]

theorem modifySlot_log (p : Player) (slot i : Nat) (f : QuestSlot → QuestSlot) :
    (p.modifySlot slot f).log i = if i = slot then f (p.log slot) else p.log i := by
  simp only [Player.modifySlot, Function.update_apply]

theorem Touches.modifySlot (hid : (p.log slot).questId = q) {f : QuestSlot → QuestSlot}
    (hf : ∀ s, (f s).questId = s.questId) : Touches q p (p.modifySlot slot f) where
  ids i := by
    rw [modifySlot_log]
    by_cases hi : i = slot
    · rw [if_pos hi, hf, hi]
    · rw [if_neg hi]
  lookup _ _ := rfl
  slots i hi := by
    rw [modifySlot_log, if_neg]
    rintro rfl
    exact hi hid

theorem Touches.setStatus (p : Player) (q : Nat) (data : QuestStatusData) :
    Touches q p { p with questStatus := p.questStatus.insert q data } where
  ids _ := rfl
  lookup _ hq' := AList.lookup_insert_ne hq'
  slots _ _ := rfl

theorem Touches.setQuestStatus (templates : Templates) (p : Player) (q : Nat)
    (status : QuestStatus) : Touches q p (p.setQuestStatus templates q status) := by
  rw [Player.setQuestStatus]
  cases templates q with
  | none => exact .refl q p
  | some quest => exact .setStatus p q _

theorem Touches.inSlot (p : Player) (q : Nat) {f : QuestSlot → QuestSlot}
    (hf : ∀ s, (f s).questId = s.questId) :
    Touches q p (match p.findQuestSlot q with | none => p | some slot => p.modifySlot slot f) := by
  cases hslot : p.findQuestSlot q with
  | none => exact .refl q p
  | some slot => exact .modifySlot (findQuestSlot_some hslot).2 hf

theorem Touches.setQuestObjectiveData (p : Player) (q : Nat) (obj : QuestObjective)
    (data : Nat) : Touches q p (p.setQuestObjectiveData q obj data) := by
  unfold Player.setQuestObjectiveData
  split
  · exact .refl q p
  cases hstatus : p.questStatus.lookup q with
  | none => exact .refl q p
  | some statusData =>
    simp only
    cases hold : statusData.objectiveData[obj.storageIndex.toNat]? with
    | none => exact .refl q p
    | some oldData =>
      simp only
      split
      · exact .refl q p
      refine (Touches.setStatus p q { statusData with
        objectiveData := statusData.objectiveData.set obj.storageIndex.toNat data }).trans ?_
      split
      · exact .refl q _
      next slot hslot =>
        have hid := (findQuestSlot_some hslot).2
        split
        · rw [Player.setQuestSlotCounter]
          split
          · exact .refl q _
          · exact .modifySlot hid fun _ => rfl
        split
        · exact .modifySlot hid fun _ => rfl
        · exact .modifySlot hid fun _ => rfl

theorem Touches.completed (templates : Templates) (p : Player) (q : Nat) :
    Touches q p (p.completed templates q) :=
  (Touches.setQuestStatus templates p q .complete).trans (.inSlot _ q fun _ => rfl)

theorem Touches.incompleteQuest (templates : Templates) (p : Player) (q : Nat) :
    Touches q p (p.incompleteQuest templates q) := by
  rw [Player.incompleteQuest]
  split
  · exact .refl q p
  · exact (Touches.setQuestStatus templates p q .incomplete).trans (.inSlot _ q fun _ => rfl)

theorem Touches.failed (templates : Templates) (p : Player) (q : Nat) (quest : Quest) :
    Touches q p (p.failed templates q quest) := by
  have htimed : ∀ p : Player, Touches q p (if quest.timed then
      { p with
        questStatus := p.questStatus.insert q
          { (p.questStatus.lookup q).getD {} with timer := 0 } }
      else p) := by
    intro p
    split
    · exact .setStatus p q _
    · exact .refl q p
  exact ((Touches.setQuestStatus templates p q .failed).trans
    (.inSlot (f := fun s => { s with state := s.state ||| stateFail }) _ q fun _ => rfl)).trans
    (htimed _)

end Ashamane.Quests
