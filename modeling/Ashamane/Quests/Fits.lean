import Ashamane.Quests.Log

/-! Which changes of a quest keep its slot and its status in agreement. -/
namespace Ashamane.Quests
open Ashamane.Lib

variable {templates : Templates} {p p' : Player} {q slot : Nat} {quest : Quest}
  {obj : QuestObjective} {data : Nat} {within : List Nat} {s : QuestSlot}

/-! Bits of a slot -/

theorem complete_of_setComplete (state : BitVec 32) :
    (state ||| stateComplete).getLsbD 0 = true := by
  simp [stateComplete]

theorem fail_of_setComplete (state : BitVec 32) :
    (state ||| stateComplete).getLsbD 1 = state.getLsbD 1 := by
  simp [stateComplete]

theorem complete_of_setFail (state : BitVec 32) :
    (state ||| stateFail).getLsbD 0 = state.getLsbD 0 := by
  simp [stateFail]

theorem fail_of_setFail (state : BitVec 32) : (state ||| stateFail).getLsbD 1 = true := by
  simp [stateFail]

theorem complete_of_removeComplete (state : BitVec 32) :
    (state &&& ~~~stateComplete).getLsbD 0 = false := by
  simp [stateComplete]

theorem fail_of_removeComplete (state : BitVec 32) :
    (state &&& ~~~stateComplete).getLsbD 1 = state.getLsbD 1 := by
  simp [stateComplete]

theorem getLsbD_flag (k i : Nat) (hi : i < 8) : (256#32 <<< k).getLsbD i = false := by
  rw [BitVec.getLsbD_shiftLeft]
  by_cases hk : i < k
  · simp [hk]
  · have hlt : i - k < 8 := by omega
    have hbits : ∀ j, j < 8 → (256#32).getLsbD j = false := by decide
    rw [hbits _ hlt, Bool.and_false]

theorem getLsbD_setFlag (state : BitVec 32) (k i : Nat) (hi : i < 8) :
    (state ||| 256#32 <<< k).getLsbD i = state.getLsbD i := by
  rw [BitVec.getLsbD_or, getLsbD_flag k i hi, Bool.or_false]

theorem getLsbD_removeFlag (state : BitVec 32) (k i : Nat) (hi : i < 8) :
    (state &&& ~~~(256#32 <<< k)).getLsbD i = state.getLsbD i := by
  rw [BitVec.getLsbD_and, BitVec.getLsbD_not, getLsbD_flag k i hi]
  by_cases hstate : state.getLsbD i <;> simp [hstate]
  omega

/-! Another status -/

theorem status_setQuestStatus (hquest : templates q = some quest) (status : QuestStatus) :
    (p.setQuestStatus templates q status).status q = status := by
  simp [Player.setQuestStatus, hquest, Player.status]

theorem data_setQuestStatus (templates : Templates) (p : Player) (q : Nat) (status : QuestStatus)
    (k : Int) : (p.setQuestStatus templates q status).getQuestObjectiveData q k =
      p.getQuestObjectiveData q k := by
  rw [Player.setQuestStatus]
  cases templates q with
  | none => rfl
  | some quest =>
    cases hlookup : p.questStatus.lookup q <;> simp [Player.getQuestObjectiveData, hlookup]

theorem Agreed.restate (h : Agreed templates p q) (htouch : Touches q p p')
    (hlisted : p.status q ≠ .none) (hstatus : p'.status q ≠ .none)
    (hdata : ∀ k, p'.getQuestObjectiveData q k = p.getQuestObjectiveData q k)
    (hslot : ∀ i, i < maxQuestLogSize → (p.log i).questId = q →
      (p'.log i).counters = (p.log i).counters ∧
      ((p'.log i).state.getLsbD 0 = true ↔ p'.status q = .complete) ∧
      ((p'.log i).state.getLsbD 1 = true ↔ p'.status q = .failed)) : Agreed templates p' q where
  listed := by
    simp only [htouch.ids]
    exact iff_of_true (h.listed.mpr hlisted) hstatus
  complete i hi hid := (hslot i hi ((htouch.ids i).symm.trans hid)).2.1
  fail i hi hid := (hslot i hi ((htouch.ids i).symm.trans hid)).2.2
  counters i hi hid quest obj hquest hobj hflag hindex := by
    have hid' := (htouch.ids i).symm.trans hid
    rw [hdata, ← h.counters i hi hid' quest obj hquest hobj hflag hindex]
    simp only [Player.getQuestSlotCounter, (hslot i hi hid').1]

theorem log_inSlot (honce : ∀ i j, i < maxQuestLogSize → j < maxQuestLogSize →
      (p.log i).questId = (p.log j).questId → (p.log i).questId ≠ 0 → i = j)
    (hq : q ≠ 0) (hi : slot < maxQuestLogSize) (hid : (p.log slot).questId = q)
    (f : QuestSlot → QuestSlot) :
    (match p.findQuestSlot q with | none => p | some i => p.modifySlot i f).log slot =
      f (p.log slot) := by
  cases hslot : p.findQuestSlot q with
  | none => exact absurd hslot (findQuestSlot_ne_none hi hid)
  | some i =>
    obtain ⟨hi', hid'⟩ := findQuestSlot_some hslot
    obtain rfl := honce i slot hi' hi (hid'.trans hid.symm) (hid' ▸ hq)
    simp only [modifySlot_log, if_true]

theorem setQuestStatus_log (templates : Templates) (p : Player) (q : Nat) (status : QuestStatus) :
    (p.setQuestStatus templates q status).log = p.log := by
  rw [Player.setQuestStatus]
  cases templates q <;> rfl

theorem status_inSlot (p : Player) (q : Nat) (f : QuestSlot → QuestSlot) :
    (match p.findQuestSlot q with | none => p | some i => p.modifySlot i f).questStatus =
      p.questStatus := by
  cases p.findQuestSlot q <;> rfl

def Player.Open (p : Player) (q : Nat) : Prop :=
  p.findQuestSlot q ≠ none ∧ p.status q ≠ .failed

theorem Inv.status_of_listed (h : Inv templates within p) (hq : q ≠ 0) (hout : q ∉ within)
    (hslot : p.findQuestSlot q ≠ none) : p.status q ≠ .none := by
  obtain ⟨slot, hslot⟩ := Option.ne_none_iff_exists'.mp hslot
  exact (h.agreed q hq hout).listed.mp ⟨slot, findQuestSlot_some hslot⟩

theorem Inv.restated (h : Inv templates within p) (hq : q ≠ 0) (hout : q ∉ within)
    (hquest : templates q = some quest) (hslot : p.findQuestSlot q ≠ none) {status : QuestStatus}
    (hstatus : status ≠ .none) {f : QuestSlot → QuestSlot}
    (hids : ∀ s, (f s).questId = s.questId) (hcounters : ∀ s, (f s).counters = s.counters)
    (hbits : ∀ i, i < maxQuestLogSize → (p.log i).questId = q →
      ((f (p.log i)).state.getLsbD 0 = true ↔ status = .complete) ∧
      ((f (p.log i)).state.getLsbD 1 = true ↔ status = .failed)) :
    Agreed templates (match (p.setQuestStatus templates q status).findQuestSlot q with
      | none => p.setQuestStatus templates q status
      | some i => (p.setQuestStatus templates q status).modifySlot i f) q := by
  have hlog := setQuestStatus_log templates p q status
  have honce : ∀ i j, i < maxQuestLogSize → j < maxQuestLogSize →
      ((p.setQuestStatus templates q status).log i).questId =
        ((p.setQuestStatus templates q status).log j).questId →
      ((p.setQuestStatus templates q status).log i).questId ≠ 0 → i = j := by
    rw [hlog]
    exact h.once
  have hkeep := status_inSlot (p.setQuestStatus templates q status) q f
  have hset : Player.status (match (p.setQuestStatus templates q status).findQuestSlot q with
      | none => p.setQuestStatus templates q status
      | some i => (p.setQuestStatus templates q status).modifySlot i f) q = status := by
    rw [Player.status, hkeep]
    exact status_setQuestStatus hquest status
  refine (h.agreed q hq hout).restate
    ((Touches.setQuestStatus templates p q status).trans (.inSlot _ q hids))
    (h.status_of_listed hq hout hslot) ?_ (fun k => ?_) fun i hi hid => ?_
  · rw [hset]
    exact hstatus
  · rw [← data_setQuestStatus templates p q status k]
    simp only [Player.getQuestObjectiveData, hkeep]
  · rw [log_inSlot honce hq hi (by rw [hlog]; exact hid) f, hset, hlog]
    exact ⟨hcounters _, hbits i hi hid⟩

theorem Inv.completed (h : Inv templates within p) (hq : q ≠ 0) (hout : q ∉ within)
    (hquest : templates q = some quest) (hopen : p.Open q) :
    Agreed templates (p.completed templates q) q := by
  refine h.restated hq hout hquest hopen.1 (by simp)
    (f := fun s => { s with state := s.state ||| stateComplete })
    (fun _ => rfl) (fun _ => rfl) fun i hi hid => ⟨?_, ?_⟩
  · simp only [complete_of_setComplete]
  simp only [fail_of_setComplete]
  rw [(h.agreed q hq hout).fail i hi hid]
  exact iff_of_false hopen.2 (by simp)

theorem Inv.incompleted (h : Inv templates within p) (hq : q ≠ 0) (hout : q ∉ within)
    (hquest : templates q = some quest) (hopen : p.Open q) :
    Agreed templates (p.incompleteQuest templates q) q := by
  rw [Player.incompleteQuest, if_neg hq]
  refine h.restated hq hout hquest hopen.1 (by simp)
    (f := fun s => { s with state := s.state &&& ~~~stateComplete })
    (fun _ => rfl) (fun _ => rfl) fun i hi hid => ⟨?_, ?_⟩
  · simp only [complete_of_removeComplete]
    simp
  · simp only [fail_of_removeComplete]
    rw [(h.agreed q hq hout).fail i hi hid]
    exact iff_of_false hopen.2 (by simp)

theorem Agreed.congr (h : Agreed templates p q) (hlog : p'.log = p.log)
    (hstatus : p'.status q = p.status q)
    (hdata : ∀ k, p'.getQuestObjectiveData q k = p.getQuestObjectiveData q k) :
    Agreed templates p' q where
  listed := by
    rw [hlog, hstatus]
    exact h.listed
  complete := by
    rw [hlog, hstatus]
    exact h.complete
  fail := by
    rw [hlog, hstatus]
    exact h.fail
  counters := by
    simp only [Player.getQuestSlotCounter, hlog, hdata]
    exact h.counters

theorem status_setTimer (p : Player) (q timer : Nat) :
    Player.status { p with
      questStatus := p.questStatus.insert q
        { (p.questStatus.lookup q).getD {} with timer := timer } } q = p.status q := by
  cases hlookup : p.questStatus.lookup q <;> simp [Player.status, hlookup]

theorem data_setTimer (p : Player) (q timer : Nat) (k : Int) :
    Player.getQuestObjectiveData { p with
      questStatus := p.questStatus.insert q
        { (p.questStatus.lookup q).getD {} with timer := timer } } q k =
      p.getQuestObjectiveData q k := by
  cases hlookup : p.questStatus.lookup q <;> simp [Player.getQuestObjectiveData, hlookup]

theorem Agreed.setTimer (h : Agreed templates p q) (timer : Nat) :
    Agreed templates { p with
      questStatus := p.questStatus.insert q
        { (p.questStatus.lookup q).getD {} with timer := timer } } q :=
  h.congr rfl (status_setTimer p q timer) (data_setTimer p q timer)

theorem Inv.failed (h : Inv templates within p) (hq : q ≠ 0) (hout : q ∉ within)
    (hquest : templates q = some quest) (hnone : p.status q ≠ .none)
    (hcomplete : p.status q ≠ .complete) :
    Agreed templates (p.failed templates q quest) q := by
  obtain ⟨slot, hi, hid⟩ := (h.agreed q hq hout).listed.mpr hnone
  have hfailed := h.restated hq hout hquest (findQuestSlot_ne_none hi hid)
    (show QuestStatus.failed ≠ .none by simp) (f := fun s => { s with state := s.state ||| stateFail })
    (fun _ => rfl) (fun _ => rfl) fun i hi hid => by
      simp only [complete_of_setFail, fail_of_setFail]
      rw [(h.agreed q hq hout).complete i hi hid]
      exact ⟨iff_of_false hcomplete (by simp), by simp⟩
  rw [Player.failed]
  split
  · exact hfailed.setTimer 0
  · exact hfailed

/-! Credits -/

def Player.Credits (p : Player) (q : Nat) (obj : QuestObjective) (data : Nat) : Prop :=
  0 ≤ obj.storageIndex ∧ ∃ statusData oldData, p.questStatus.lookup q = some statusData ∧
    statusData.objectiveData[obj.storageIndex.toNat]? = some oldData ∧ oldData ≠ data

def Player.CreditFits (templates : Templates) (p : Player) (q : Nat) (obj : QuestObjective)
    (data : Nat) : Prop :=
  p.findQuestSlot q ≠ none → p.Credits q obj data →
    if obj.isStoringFlag then
      ∀ quest other, templates q = some quest → other ∈ quest.objectives →
        other.isStoringFlag = false → other.storageIndex ≠ obj.storageIndex
    else data < 65536 ∧ (obj.storageIndex.toNat < maxQuestCounts ∨ data = 0)

def QuestSlot.credited (s : QuestSlot) (obj : QuestObjective) (data : Nat) : QuestSlot :=
  let index := obj.storageIndex.toNat
  if !obj.isStoringFlag then
    if maxQuestCounts ≤ index then s
    else { s with counters := Function.update s.counters index (data % 65536) }
  else if data ≠ 0 then { s with state := s.state ||| 256#32 <<< index }
  else { s with state := s.state &&& ~~~(256#32 <<< index) }

theorem QuestSlot.credited_state (s : QuestSlot) (obj : QuestObjective) (data i : Nat)
    (hi : i < 8) : (s.credited obj data).state.getLsbD i = s.state.getLsbD i := by
  unfold credited
  simp only
  split
  · split <;> rfl
  · split
    · exact getLsbD_setFlag s.state _ i hi
    · exact getLsbD_removeFlag s.state _ i hi

theorem QuestSlot.credited_counters (s : QuestSlot) (obj : QuestObjective) (data k : Nat) :
    (s.credited obj data).counters k =
      if k = obj.storageIndex.toNat ∧ k < maxQuestCounts ∧ obj.isStoringFlag = false then
        data % 65536
      else s.counters k := by
  unfold credited
  cases hflag : obj.isStoringFlag with
  | true =>
    simp only [Bool.not_true, Bool.false_eq_true, if_false, Bool.true_eq_false, and_false]
    split <;> rfl
  | false =>
    simp only [Bool.not_false, if_true]
    by_cases hindex : maxQuestCounts ≤ obj.storageIndex.toNat
    · rw [if_pos hindex, if_neg fun h => by omega]
    · simp only [if_neg hindex, Function.update_apply]
      by_cases hk : k = obj.storageIndex.toNat
      · rw [if_pos hk, if_pos ⟨hk, by omega, trivial⟩]
      · rw [if_neg hk, if_neg fun h => hk h.1]

theorem modifySlot_self (p : Player) (slot : Nat) : p.modifySlot slot (fun s => s) = p := by
  rw [Player.modifySlot, Function.update_eq_self]

/-- The credit changes the number that is stored, and the slot with it. -/
theorem setQuestObjectiveData_of_credits (h : p.Credits q obj data) :
    (∀ k, (p.setQuestObjectiveData q obj data).getQuestObjectiveData q k =
      if k = obj.storageIndex then data else p.getQuestObjectiveData q k) ∧
    (p.setQuestObjectiveData q obj data).status q = p.status q ∧
    (p.setQuestObjectiveData q obj data).log = (match p.findQuestSlot q with
      | none => p
      | some i => p.modifySlot i (·.credited obj data)).log := by
  obtain ⟨hindex, statusData, oldData, hlookup, hold, hne⟩ := h
  have hlen := (List.getElem?_eq_some_iff.mp hold).1
  have hresult : p.setQuestObjectiveData q obj data = (match p.findQuestSlot q with
      | none => { p with
          questStatus := p.questStatus.insert q { statusData with
            objectiveData := statusData.objectiveData.set obj.storageIndex.toNat data } }
      | some i => { p.modifySlot i (·.credited obj data) with
          questStatus := p.questStatus.insert q { statusData with
            objectiveData := statusData.objectiveData.set obj.storageIndex.toNat data } }) := by
    unfold Player.setQuestObjectiveData
    rw [if_neg (by omega), hlookup]
    simp only [hold, if_neg hne]
    rw [show Player.findQuestSlot { p with
        questStatus := p.questStatus.insert q { statusData with
          objectiveData := statusData.objectiveData.set obj.storageIndex.toNat data } } q =
      p.findQuestSlot q from rfl]
    cases p.findQuestSlot q with
    | none => rfl
    | some i =>
      simp only [QuestSlot.credited, Player.setQuestSlotCounter, Player.setQuestSlotState,
        Player.removeQuestSlotState]
      split
      · split
        · rw [modifySlot_self]
        · rfl
      · split <;> rfl
  have hstored : (p.setQuestObjectiveData q obj data).questStatus = p.questStatus.insert q
      { statusData with
        objectiveData := statusData.objectiveData.set obj.storageIndex.toNat data } := by
    rw [hresult]
    cases p.findQuestSlot q <;> rfl
  refine ⟨fun k => ?_, ?_, ?_⟩
  · simp only [Player.getQuestObjectiveData, hstored, AList.lookup_insert, hlookup,
      Option.bind_some]
    by_cases hk : k = obj.storageIndex
    · rw [if_pos hk, hk, if_neg (by omega), List.getElem?_set_self hlen]
      rfl
    · rw [if_neg hk]
      by_cases hneg : k < 0
      · rw [if_pos hneg, if_pos hneg]
      · rw [if_neg hneg, if_neg hneg, List.getElem?_set_ne (by omega)]
  · simp only [Player.status, hstored, AList.lookup_insert, hlookup, Option.map_some]
  · rw [hresult]
    cases p.findQuestSlot q <;> rfl

theorem setQuestObjectiveData_of_not (h : ¬p.Credits q obj data) :
    p.setQuestObjectiveData q obj data = p := by
  unfold Player.setQuestObjectiveData
  split
  · rfl
  next hindex =>
    cases hlookup : p.questStatus.lookup q with
    | none => rfl
    | some statusData =>
      simp only
      cases hold : statusData.objectiveData[obj.storageIndex.toNat]? with
      | none => rfl
      | some oldData =>
        by_cases hsame : oldData = data
        · simp only [if_pos hsame]
        · exact absurd ⟨by omega, statusData, oldData, hlookup, hold, hsame⟩ h

theorem Inv.credited (h : Inv templates within p) (hq : q ≠ 0) (hout : q ∉ within)
    (hfits : p.CreditFits templates q obj data) :
    Agreed templates (p.setQuestObjectiveData q obj data) q := by
  have hagreed := h.agreed q hq hout
  by_cases hcredits : p.Credits q obj data
  · obtain ⟨hdata, hstatus, hlog⟩ := setQuestObjectiveData_of_credits hcredits
    have htouch := Touches.setQuestObjectiveData p q obj data
    have hslot : ∀ i, i < maxQuestLogSize → (p.log i).questId = q →
        (p.setQuestObjectiveData q obj data).log i = (p.log i).credited obj data := by
      intro i hi hid
      rw [hlog]
      exact log_inSlot h.once hq hi hid _
    constructor
    · simp only [htouch.ids, hstatus]
      exact hagreed.listed
    · intro i hi hid
      have hid' := (htouch.ids i).symm.trans hid
      rw [hslot i hi hid', QuestSlot.credited_state _ _ _ _ (by omega), hstatus]
      exact hagreed.complete i hi hid'
    · intro i hi hid
      have hid' := (htouch.ids i).symm.trans hid
      rw [hslot i hi hid', QuestSlot.credited_state _ _ _ _ (by omega), hstatus]
      exact hagreed.fail i hi hid'
    · intro i hi hid quest other hquest hother hflag hindex
      have hid' := (htouch.ids i).symm.trans hid
      have hcounter := hagreed.counters i hi hid' quest other hquest hother hflag hindex
      have hallowed := hfits (findQuestSlot_ne_none hi hid') hcredits
      rw [hdata]
      simp only [Player.getQuestSlotCounter, hslot i hi hid', QuestSlot.credited_counters]
      rw [Player.getQuestSlotCounter] at hcounter
      obtain ⟨hpos, _⟩ := hcredits
      by_cases hsame : other.storageIndex = obj.storageIndex
      · rw [if_pos hsame, hsame]
        by_cases hstoring : obj.isStoringFlag = true
        · rw [if_pos hstoring] at hallowed
          exact absurd hsame (hallowed quest other hquest hother hflag)
        · rw [if_neg hstoring] at hallowed
          obtain ⟨hsmall, hcounts⟩ := hallowed
          by_cases hlt : obj.storageIndex.toNat < maxQuestCounts
          · rw [if_pos hlt, if_pos ⟨rfl, hlt, by simpa using hstoring⟩, Nat.mod_eq_of_lt hsmall]
          · rw [if_neg hlt]
            exact (hcounts.resolve_left hlt).symm
      · rw [if_neg hsame, ← hcounter]
        by_cases hlt : other.storageIndex.toNat < maxQuestCounts
        · rw [if_pos hlt, if_pos hlt, if_neg fun hk => hsame (by omega)]
        · rw [if_neg hlt, if_neg hlt]
  · rw [setQuestObjectiveData_of_not hcredits]
    exact hagreed

end Ashamane.Quests
