import Ashamane.Lib.Run
import Ashamane.Quests.Runs

/-! Quests that ask for items, as the items come and go: what the item checks make of the log. -/
namespace Ashamane.Quests
open Ashamane.Lib

def Templates.Small (templates : Templates) : Prop :=
  ∀ q quest obj, templates q = some quest → obj ∈ quest.objectives → obj.type = .item →
    obj.amount < 65536

def Quest.Held (quest : Quest) (held : Nat → Nat) : Prop :=
  ∀ obj ∈ quest.objectives, obj.amount ≤ held obj.objectID

def Quest.Required (quest : Quest) (held : Nat → Nat) : Prop :=
  ∀ obj ∈ quest.objectives, obj.optional = true ∨ obj.partOfProgressBar = true ∨
    obj.amount ≤ held obj.objectID

def Quest.ItemsOnly (quest : Quest) : Prop := ∀ obj ∈ quest.objectives, obj.type = .item

namespace Player

def Active (p : Player) (q : Nat) : Prop :=
  q ≠ 0 ∧ (∃ slot, slot < maxQuestLogSize ∧ (p.log slot).questId = q) ∧
    (p.status q = .incomplete ∨ p.status q = .complete)

structure Delivers (templates : Templates) (p : Player) (q : Nat) (quest : Quest) : Prop where
  active : p.Active q
  template : templates q = some quest
  deliver : quest.deliver = true

structure Gathered (templates : Templates) (p : Player) (held : Nat → Nat) : Prop where
  counts : ∀ q quest obj, p.Delivers templates q quest → obj ∈ quest.objectives →
    obj.type = .item →
      p.getQuestObjectiveData q obj.storageIndex = min (held obj.objectID) obj.amount
  complete : ∀ q quest, p.Delivers templates q quest → quest.ItemsOnly →
    (p.status q = .complete ↔ quest.Held held)

structure Shows (templates : Templates) (p : Player) (q : Nat) (obj : QuestObjective) :
    Prop where
  index : 0 ≤ obj.storageIndex
  stored : ∃ data, p.questStatus.lookup q = some data ∧
    obj.storageIndex.toNat < data.objectiveData.length
  apart : ∀ quest other, templates q = some quest → other ∈ quest.objectives →
    other.type = .item → other.storageIndex = obj.storageIndex → other = obj

/-- What else `CanCompleteQuest` asks of an incomplete quest, apart from its objectives. -/
structure CanFinish (p : Player) (q : Nat) (quest : Quest) : Prop where
  fresh : quest.repeatable = true ∨ q ∉ p.rewardedQuests
  data : ∃ data, p.questStatus.lookup q = some data ∧
    (quest.explorationOrEvent = true → data.explored = true) ∧
    (quest.timed = true → data.timer ≠ 0)

end Player

/-! Gains and losses -/

structure Gatherer where
  player : Player
  held : Nat → Nat

inductive Event where
  | gained (around : Around) (entry count : Nat)
  /-- With whether the check sees what was held before. -/
  | lost (entry count : Nat) (before : Bool)
  /-- A quest that is rewarded, as some are when they are completed. -/
  | rewarded (questId : Nat)
  /-- A quest with a criteria tree that is completed at the end of `RewardQuest`. -/
  | criteriaCompleted (questId : Nat)

namespace Gatherer

/-- What `GetItemCount` finds when an item is lost. -/
def seen (s : Gatherer) (entry count : Nat) (before : Bool) : Nat :=
  if before then s.held entry else s.held entry - count

/-- What `ItemRemovedQuestCheck` reads. -/
def bags (seen : Nat) : Around where
  canTakeQuest _ := false
  met _ := false
  getItemCount _ := seen

def step (templates : Templates) (s : Gatherer) : Event → Gatherer
  | .gained around entry count =>
    let checked := s.player.itemAddedQuestCheck templates around entry count
    { player :=
        match checked.2 with
        | none => checked.1
        | some questId => checked.1.completed templates questId
      held := Function.update s.held entry (s.held entry + count) }
  | .lost entry count before =>
    { player :=
        s.player.itemRemovedQuestCheck templates (bags (s.seen entry count before)) entry count
      held := Function.update s.held entry (s.held entry - count) }
  | .rewarded questId =>
    match templates questId with
    | none => s
    | some quest => { s with player := s.player.rewarded questId quest }
  | .criteriaCompleted questId => { s with player := s.player.completed templates questId }

def Possible (templates : Templates) (s : Gatherer) : Event → Prop
  | .gained around entry count =>
    (∀ q, around.canTakeQuest q = true → s.player.status q = .none) ∧
      s.held entry + count < 4294967296
  | .lost entry count _ => count ≤ s.held entry
  | .rewarded _ => True
  | .criteriaCompleted questId =>
    s.player.status questId = .incomplete ∧ ∃ quest obj, templates questId = some quest ∧
      obj ∈ quest.objectives ∧ obj.type = .criteriaTree

def OnlyFound (templates : Templates) (s : Gatherer) (found : Option (Nat × QuestObjective))
    (held' : Nat → Nat) : Prop :=
  ∀ q quest obj, s.player.Delivers templates q quest → obj ∈ quest.objectives →
    obj.type = .item → found ≠ some (q, obj) →
      min (held' obj.objectID) obj.amount = min (s.held obj.objectID) obj.amount

def Served (templates : Templates) (s : Gatherer) : Event → Prop
  | .gained _ entry count =>
    let found := s.player.itemObjective templates (fun q => s.player.status q = .incomplete) entry
    let held' := Function.update s.held entry (s.held entry + count)
    s.OnlyFound templates found held' ∧
      ∀ q obj, found = some (q, obj) → s.player.Shows templates q obj ∧
        ∀ quest, templates q = some quest → quest.ItemsOnly →
          (quest.Held held' ↔ s.player.CanFinish q quest ∧ quest.Required held')
  | .lost entry count before =>
    let found := s.player.itemObjective templates (fun _ => true) entry
    let seen := s.seen entry count before % 65536
    s.OnlyFound templates found (Function.update s.held entry (s.held entry - count)) ∧
      ∀ q obj, found = some (q, obj) →
        if s.player.status q = .incomplete ∨ s.player.status q = .complete then
          s.player.Shows templates q obj ∧ (s.held entry < obj.amount ∨
            min (seen - count) obj.amount = min (s.held entry - count) obj.amount)
        else
          obj.amount ≤ s.player.getQuestObjectiveData q obj.storageIndex % 65536 ∧
            obj.amount ≤ seen - count
  | .rewarded _ => True
  | .criteriaCompleted _ => True

end Gatherer

variable {templates : Templates} {p p' : Player} {q q' entry count : Nat} {quest : Quest}
  {obj : QuestObjective} {held held' : Nat → Nat} {around : Around} {counts : Nat → Bool}

/-! What a change of one quest leaves -/

theorem Touches.status_ne (h : Touches q p p') (hq : q' ≠ q) : p'.status q' = p.status q' := by
  rw [Player.status, h.lookup q' hq, Player.status]

theorem Touches.data_ne (h : Touches q p p') (hq : q' ≠ q) (k : Int) :
    p'.getQuestObjectiveData q' k = p.getQuestObjectiveData q' k := by
  rw [Player.getQuestObjectiveData, h.lookup q' hq, Player.getQuestObjectiveData]

theorem Touches.active_iff (h : Touches q p p')
    (hq : (p'.status q = .incomplete ∨ p'.status q = .complete) ↔
      (p.status q = .incomplete ∨ p.status q = .complete)) (q' : Nat) :
    p'.Active q' ↔ p.Active q' := by
  have hstatus : (p'.status q' = .incomplete ∨ p'.status q' = .complete) ↔
      (p.status q' = .incomplete ∨ p.status q' = .complete) := by
    by_cases hsame : q' = q
    · rw [hsame]
      exact hq
    · rw [h.status_ne hsame]
  simp only [Player.Active, h.ids, hstatus]

theorem itemObjective_delivers (h : p.itemObjective templates counts entry = some (q, obj)) :
    ∃ quest, templates q = some quest ∧ quest.deliver = true ∧ obj ∈ quest.objectives ∧
      obj.type = .item ∧ obj.objectID = entry := by
  obtain ⟨slot, _, hfound⟩ := List.exists_of_findSome?_eq_some h
  simp only at hfound
  split at hfound
  · cases hfound
  · obtain ⟨quest, hquest, hobj⟩ := Option.bind_eq_some_iff.mp hfound
    split at hobj
    next hdeliver =>
      obtain ⟨other, hother, hsame⟩ := Option.map_eq_some_iff.mp hobj
      obtain ⟨rfl, rfl⟩ := Prod.mk.inj hsame
      have hasks := List.find?_some hother
      simp only [decide_eq_true_eq] at hasks
      exact ⟨quest, hquest, hdeliver, List.mem_of_find?_eq_some hother, hasks⟩
    · cases hobj

theorem Quest.held_congr (h : ∀ obj ∈ quest.objectives,
      min (held' obj.objectID) obj.amount = min (held obj.objectID) obj.amount) :
    quest.Held held' ↔ quest.Held held := by
  refine forall₂_congr fun obj hobj => ?_
  have hmin := h obj hobj
  omega

theorem completed_questStatus (templates : Templates) (p : Player) (q : Nat) :
    (p.completed templates q).questStatus =
      (p.setQuestStatus templates q .complete).questStatus := by
  rw [Player.completed]
  exact status_inSlot _ q fun s => { s with state := s.state ||| stateComplete }

theorem incompleteQuest_questStatus (hq : q ≠ 0) :
    (p.incompleteQuest templates q).questStatus =
      (p.setQuestStatus templates q .incomplete).questStatus := by
  rw [Player.incompleteQuest, if_neg hq]
  exact status_inSlot _ q fun s => { s with state := s.state &&& ~~~stateComplete }

theorem restated (hquest : templates q = some quest) {status : QuestStatus}
    (h : p'.questStatus = (p.setQuestStatus templates q status).questStatus) :
    p'.status q = status ∧
      ∀ k, p'.getQuestObjectiveData q k = p.getQuestObjectiveData q k := by
  refine ⟨?_, fun k => ?_⟩
  · rw [Player.status, h]
    exact status_setQuestStatus hquest status
  · rw [Player.getQuestObjectiveData, h]
    exact data_setQuestStatus templates p q status k

theorem Player.Shows.data (h : p.Shows templates q obj) (n : Nat) (k : Int) :
    (p.setQuestObjectiveData q obj n).getQuestObjectiveData q k =
      if k = obj.storageIndex then n else p.getQuestObjectiveData q k := by
  by_cases hcredits : p.Credits q obj n
  · exact (setQuestObjectiveData_of_credits hcredits).1 k
  · rw [setQuestObjectiveData_of_not hcredits]
    obtain ⟨data, hlookup, hlength⟩ := h.stored
    have hold : data.objectiveData[obj.storageIndex.toNat]? =
        some data.objectiveData[obj.storageIndex.toNat] := List.getElem?_eq_getElem hlength
    have hsame : data.objectiveData[obj.storageIndex.toNat] = n := by
      by_contra hne
      exact hcredits ⟨h.index, data, _, hlookup, hold, hne⟩
    by_cases hk : k = obj.storageIndex
    · have hindex := h.index
      rw [if_pos hk, hk, Player.getQuestObjectiveData, if_neg (by omega), hlookup,
        Option.bind_some, hold, Option.getD_some, hsame]
    · rw [if_neg hk]

theorem creditedSlot_kept (p : Player) (slot index n : Nat) (obj : QuestObjective) :
    let t :=
      if !obj.isStoringFlag then p.setQuestSlotCounter slot index n
      else if n ≠ 0 then p.setQuestSlotState slot (256#32 <<< index)
      else p.removeQuestSlotState slot (256#32 <<< index)
    t.questStatus = p.questStatus ∧ t.rewardedQuests = p.rewardedQuests := by
  simp only [Player.setQuestSlotCounter]
  split_ifs <;> exact ⟨rfl, rfl⟩

theorem setQuestObjectiveData_kept (p : Player) (q : Nat) (obj : QuestObjective) (n : Nat) :
    p.setQuestObjectiveData q obj n = p ∨ ∃ data, p.questStatus.lookup q = some data ∧
      (p.setQuestObjectiveData q obj n).questStatus = p.questStatus.insert q
        { data with objectiveData := data.objectiveData.set obj.storageIndex.toNat n } ∧
      (p.setQuestObjectiveData q obj n).rewardedQuests = p.rewardedQuests := by
  by_cases hcredits : p.Credits q obj n
  · obtain ⟨hindex, data, oldData, hlookup, hold, hne⟩ := hcredits
    refine .inr ⟨data, hlookup, ?_⟩
    unfold Player.setQuestObjectiveData
    rw [if_neg (by omega), hlookup]
    simp only [hold, if_neg hne]
    split
    · exact ⟨rfl, rfl⟩
    · exact creditedSlot_kept _ _ _ _ _
  · exact .inl (setQuestObjectiveData_of_not hcredits)

theorem Player.CanFinish.credited (obj : QuestObjective) (n : Nat) :
    (p.setQuestObjectiveData q obj n).CanFinish q quest ↔ p.CanFinish q quest := by
  rcases setQuestObjectiveData_kept p q obj n with hsame | ⟨data, hlookup, hstatus, hrewarded⟩
  · rw [hsame]
  · constructor
    · rintro ⟨hfresh, data', hdata', hexplored, htimer⟩
      rw [hstatus, AList.lookup_insert] at hdata'
      obtain rfl := Option.some.inj hdata'
      exact ⟨hrewarded ▸ hfresh, data, hlookup, hexplored, htimer⟩
    · rintro ⟨hfresh, data', hdata', hexplored, htimer⟩
      obtain rfl := Option.some.inj (hlookup.symm.trans hdata')
      refine ⟨hrewarded.symm ▸ hfresh, { data with
        objectiveData := data.objectiveData.set obj.storageIndex.toNat n }, ?_, hexplored, htimer⟩
      rw [hstatus, AList.lookup_insert]

theorem canCompleteQuest_items (hq : q ≠ 0) (hquest : templates q = some quest)
    (honly : quest.ItemsOnly) (hstatus : p.status q = .incomplete)
    (htake : around.canTakeQuest q = false)
    (hcounts : ∀ obj ∈ quest.objectives,
      p.getQuestObjectiveData q obj.storageIndex = min (held obj.objectID) obj.amount) :
    p.canCompleteQuest templates around q = true ↔ p.CanFinish q quest ∧ quest.Required held := by
  have hobjectives : (quest.objectives.all fun obj => obj.optional || obj.partOfProgressBar ||
      p.isQuestObjectiveComplete around q obj) = true ↔ quest.Required held := by
    rw [List.all_eq_true]
    refine forall₂_congr fun obj hobj => ?_
    simp only [Player.isQuestObjectiveComplete, honly obj hobj, hcounts obj hobj, Bool.or_eq_true,
      decide_eq_true_eq, Nat.le_min, Nat.le_refl, and_true, or_assoc]
  rw [Player.status] at hstatus
  cases hlookup : p.questStatus.lookup q with
  | none => simp [hlookup] at hstatus
  | some data =>
    rw [hlookup, Option.map_some, Option.getD_some] at hstatus
    rw [Player.canCompleteQuest, if_neg hq, hquest]
    simp only [htake, Bool.false_eq_true, and_false, if_false, hlookup]
    split
    next hrewarded =>
      refine iff_of_false Bool.false_ne_true fun hboth => ?_
      obtain ⟨hfinish, -⟩ := hboth
      simp only [Bool.not_eq_true'] at hrewarded
      exact hfinish.fresh.elim (by simp [hrewarded.1]) fun hnot => hnot hrewarded.2
    next hrewarded =>
      rw [Bool.and_eq_true, hobjectives]
      refine and_congr_left fun _ => ?_
      simp only [hstatus, decide_true, Bool.true_and, Bool.and_eq_true, Bool.not_eq_true',
        Bool.and_eq_false_iff, Bool.not_eq_false', decide_eq_false_iff_not]
      constructor
      · rintro ⟨hexplored, htimer⟩
        refine ⟨?_, data, hlookup, fun h => ?_, fun h => ?_⟩
        · by_contra hnot
          push Not at hnot
          exact hrewarded ⟨by simpa using hnot.1, hnot.2⟩
        · exact hexplored.resolve_left (by simp [h])
        · exact htimer.resolve_left (by simp [h])
      · rintro ⟨-, data', hdata', hexplored, htimer⟩
        obtain rfl := Option.some.inj (hlookup.symm.trans hdata')
        constructor
        · cases hevent : quest.explorationOrEvent with
          | false => exact .inl rfl
          | true => exact .inr (hexplored hevent)
        · cases htimed : quest.timed with
          | false => exact .inl rfl
          | true => exact .inr (htimer htimed)

/-! What a check does -/

theorem Player.Gathered.of_touches (h : p.Gathered templates held) (htouch : Touches q p p')
    (hactive : ∀ q', p'.Active q' ↔ p.Active q')
    (hmin : ∀ q' quest obj, p.Delivers templates q' quest → obj ∈ quest.objectives →
      obj.type = .item → q' ≠ q →
        min (held' obj.objectID) obj.amount = min (held obj.objectID) obj.amount)
    (hown : ∀ quest, p.Delivers templates q quest →
      (∀ obj ∈ quest.objectives, obj.type = .item →
        p'.getQuestObjectiveData q obj.storageIndex = min (held' obj.objectID) obj.amount) ∧
      (quest.ItemsOnly → (p'.status q = .complete ↔ quest.Held held'))) :
    p'.Gathered templates held' where
  counts q' quest obj hdelivers hobj hitem := by
    have hbefore : p.Delivers templates q' quest :=
      ⟨(hactive q').mp hdelivers.active, hdelivers.template, hdelivers.deliver⟩
    by_cases hq : q' = q
    · obtain rfl := hq
      exact (hown quest hbefore).1 obj hobj hitem
    · rw [htouch.data_ne hq, h.counts q' quest obj hbefore hobj hitem,
        hmin q' quest obj hbefore hobj hitem hq]
  complete q' quest hdelivers honly := by
    have hbefore : p.Delivers templates q' quest :=
      ⟨(hactive q').mp hdelivers.active, hdelivers.template, hdelivers.deliver⟩
    by_cases hq : q' = q
    · obtain rfl := hq
      exact (hown quest hbefore).2 honly
    · rw [htouch.status_ne hq, h.complete q' quest hbefore honly]
      exact (Quest.held_congr fun obj hobj =>
        hmin q' quest obj hbefore hobj (honly obj hobj) hq).symm

theorem Player.Gathered.of_min (h : p.Gathered templates held)
    (hmin : ∀ q quest obj, p.Delivers templates q quest → obj ∈ quest.objectives →
      obj.type = .item → min (held' obj.objectID) obj.amount = min (held obj.objectID) obj.amount) :
    p.Gathered templates held' where
  counts q quest obj hdelivers hobj hitem := by
    rw [h.counts q quest obj hdelivers hobj hitem, hmin q quest obj hdelivers hobj hitem]
  complete q quest hdelivers honly := by
    rw [h.complete q quest hdelivers honly]
    exact (Quest.held_congr fun obj hobj =>
      hmin q quest obj hdelivers hobj (honly obj hobj)).symm

/-- The number of the objective found is set, and those of the others of its quest are right. -/
theorem Player.Gathered.found (h : p.Gathered templates held)
    (hdelivers : p.Delivers templates q quest) (hshows : p.Shows templates q obj)
    (hmin : ∀ other ∈ quest.objectives, other.type = .item → other ≠ obj →
      min (held' other.objectID) other.amount = min (held other.objectID) other.amount)
    (hdata : ∀ k, p'.getQuestObjectiveData q k =
      if k = obj.storageIndex then min (held' obj.objectID) obj.amount
      else p.getQuestObjectiveData q k) :
    ∀ other ∈ quest.objectives, other.type = .item →
      p'.getQuestObjectiveData q other.storageIndex = min (held' other.objectID) other.amount := by
  intro other hother hitem
  rw [hdata]
  by_cases hindex : other.storageIndex = obj.storageIndex
  · rw [if_pos hindex, hshows.apart quest other hdelivers.template hother hitem hindex]
  · have hne : other ≠ obj := fun hsame => hindex (hsame ▸ rfl)
    rw [if_neg hindex, h.counts q quest other hdelivers hother hitem, hmin other hother hitem hne]

namespace Gatherer

variable {s t : Gatherer}

theorem OnlyFound.others {found : Option (Nat × QuestObjective)}
    (h : s.OnlyFound templates found held') (hfound : found = some (q, obj)) :
    (∀ q' quest other, s.player.Delivers templates q' quest → other ∈ quest.objectives →
      other.type = .item → q' ≠ q →
        min (held' other.objectID) other.amount = min (s.held other.objectID) other.amount) ∧
    (∀ quest, s.player.Delivers templates q quest → ∀ other ∈ quest.objectives,
      other.type = .item → other ≠ obj →
        min (held' other.objectID) other.amount = min (s.held other.objectID) other.amount) := by
  refine ⟨fun q' quest other hdelivers hother hitem hq => ?_,
    fun quest hdelivers other hother hitem hne => ?_⟩
  · refine h q' quest other hdelivers hother hitem ?_
    rw [hfound]
    intro hsame
    exact hq (Prod.mk.inj (Option.some.inj hsame)).1.symm
  · refine h q quest other hdelivers hother hitem ?_
    rw [hfound]
    intro hsame
    exact hne (Prod.mk.inj (Option.some.inj hsame)).2.symm

def counted (p : Player) (q : Nat) (obj : QuestObjective) (count : Nat) : Player :=
  if p.getQuestObjectiveData q obj.storageIndex < obj.amount then
    p.setQuestObjectiveData q obj
      (min (p.getQuestObjectiveData q obj.storageIndex + count) obj.amount)
  else p

theorem gained_player (hfound : s.player.itemObjective templates
      (fun q => s.player.status q = .incomplete) entry = some (q, obj)) :
    (s.step templates (.gained around entry count)).player =
      if (counted s.player q obj count).canCompleteQuest templates around q then
        (counted s.player q obj count).completed templates q
      else counted s.player q obj count := by
  simp only [step, Player.itemAddedQuestCheck, hfound, counted]
  split_ifs <;> rfl

theorem counted_touches (p : Player) (q : Nat) (obj : QuestObjective) (count : Nat) :
    Touches q p (counted p q obj count) := by
  rw [counted]
  split
  · exact .setQuestObjectiveData ..
  · exact .refl ..

theorem counted_kept (p : Player) (q : Nat) (obj : QuestObjective) (count : Nat)
    (quest : Quest) :
    (counted p q obj count).status q = p.status q ∧
      ((counted p q obj count).CanFinish q quest ↔ p.CanFinish q quest) := by
  rw [counted]
  split
  · exact ⟨status_setQuestObjectiveData .., Player.CanFinish.credited _ _⟩
  · exact ⟨rfl, Iff.rfl⟩

theorem counted_data (count : Nat) (hshows : p.Shows templates q obj)
    (hcur : p.getQuestObjectiveData q obj.storageIndex = min (held entry) obj.amount) (k : Int) :
    (counted p q obj count).getQuestObjectiveData q k =
      if k = obj.storageIndex then min (held entry + count) obj.amount
      else p.getQuestObjectiveData q k := by
  rw [counted]
  split
  next hless =>
    rw [hshows.data, hcur]
    congr 1
    omega
  next hfull =>
    by_cases hk : k = obj.storageIndex
    · rw [if_pos hk, hk, hcur]
      omega
    · rw [if_neg hk]

theorem delivers_found (hfound : p.itemObjective templates counts entry = some (q, obj))
    (hquest : templates q = some quest)
    (hstatus : p.status q = .incomplete ∨ p.status q = .complete) :
    p.Delivers templates q quest ∧ obj ∈ quest.objectives ∧ obj.type = .item ∧
      obj.objectID = entry := by
  obtain ⟨slot, _, hslot, hid, hq, _, _⟩ := itemObjective_some hfound
  obtain ⟨quest', hquest', hdeliver, hasks⟩ := itemObjective_delivers hfound
  obtain rfl := Option.some.inj (hquest.symm.trans hquest')
  exact ⟨⟨⟨hq, ⟨slot, hslot, hid⟩, hstatus⟩, hquest, hdeliver⟩, hasks⟩

theorem gathered_gained (h : s.player.Gathered templates s.held)
    (hpossible : s.Possible templates (.gained around entry count))
    (hserved : s.Served templates (.gained around entry count)) :
    (s.step templates (.gained around entry count)).player.Gathered templates
        (s.step templates (.gained around entry count)).held ∧
      ∀ q, (s.step templates (.gained around entry count)).player.Active q ↔
        s.player.Active q := by
  obtain ⟨honly, hright⟩ := hserved
  cases hfound : s.player.itemObjective templates
      (fun q => s.player.status q = .incomplete) entry with
  | none =>
    have hplayer : (s.step templates (.gained around entry count)).player = s.player := by
      simp only [step, Player.itemAddedQuestCheck, hfound]
    rw [hplayer]
    refine ⟨h.of_min fun q quest obj hdelivers hobj hitem => ?_, fun _ => Iff.rfl⟩
    exact honly q quest obj hdelivers hobj hitem (by rw [hfound]; simp)
  | some found =>
    obtain ⟨q, obj⟩ := found
    obtain ⟨_, _, _, _, hq, hincomplete, _⟩ := itemObjective_some hfound
    have hincomplete : s.player.status q = .incomplete := by simpa using hincomplete
    obtain ⟨quest, hquest, _⟩ := itemObjective_delivers hfound
    obtain ⟨hdelivers, hobj, hitem, hentry⟩ := delivers_found hfound hquest (.inl hincomplete)
    obtain ⟨hshows, hfinish⟩ := hright q obj hfound
    obtain ⟨hothers, hown⟩ := honly.others hfound
    have hheld : Function.update s.held entry (s.held entry + count) obj.objectID =
        s.held entry + count := by rw [hentry, Function.update_self]
    have hcur := h.counts q quest obj hdelivers hobj hitem
    rw [hentry] at hcur
    have htouch := counted_touches s.player q obj count
    obtain ⟨hstatus, hcanFinish⟩ := counted_kept s.player q obj count quest
    have hdata := counted_data count hshows hcur
    rw [← hheld] at hdata
    have hcounts := h.found hdelivers hshows (hown quest hdelivers) hdata
    have hcomplete : quest.ItemsOnly →
        ((counted s.player q obj count).canCompleteQuest templates around q = true ↔
          quest.Held (Function.update s.held entry (s.held entry + count))) := by
      intro hitems
      have htake : around.canTakeQuest q = false := by
        by_contra htake
        rw [hpossible.1 q (by simpa using htake)] at hincomplete
        cases hincomplete
      rw [canCompleteQuest_items hq hquest hitems (hstatus.trans hincomplete) htake
        fun other hother => hcounts other hother (hitems other hother), hcanFinish]
      exact (hfinish quest hquest hitems).symm
    rw [gained_player hfound]
    generalize counted s.player q obj count = p' at *
    split
    next hcompletes =>
      obtain ⟨hnow, hsame⟩ := restated hquest (completed_questStatus templates p' q)
      have hboth := htouch.trans (.completed templates p' q)
      have hactive := hboth.active_iff (by rw [hnow, hincomplete]; simp)
      refine ⟨h.of_touches hboth hactive hothers fun quest' hdelivers' => ?_, hactive⟩
      obtain rfl := Option.some.inj (hquest.symm.trans hdelivers'.template)
      refine ⟨fun other hother hitem => ?_, fun hitems => ?_⟩
      · rw [hsame]
        exact hcounts other hother hitem
      · exact iff_of_true hnow ((hcomplete hitems).mp hcompletes)
    next hnot =>
      have hactive := htouch.active_iff (by rw [hstatus])
      refine ⟨h.of_touches htouch hactive hothers fun quest' hdelivers' => ?_, hactive⟩
      obtain rfl := Option.some.inj (hquest.symm.trans hdelivers'.template)
      refine ⟨hcounts, fun hitems => iff_of_false ?_ fun hheld => ?_⟩
      · rw [hstatus, hincomplete]
        exact QuestStatus.noConfusion
      · exact hnot ((hcomplete hitems).mpr hheld)

theorem countAfterRemoval_eq {seen : Nat} (hsmall : obj.amount < 65536)
    (hcur : p.getQuestObjectiveData q obj.storageIndex = min (held entry) obj.amount)
    (hseen : held entry < obj.amount ∨
      min (seen % 65536 - count) obj.amount = min (held entry - count) obj.amount) :
    min (p.countAfterRemoval (bags seen) q obj entry count) obj.amount =
      min (held entry - count) obj.amount := by
  have hmod : min (held entry) obj.amount % 65536 = min (held entry) obj.amount :=
    Nat.mod_eq_of_lt (by omega)
  simp only [Player.countAfterRemoval, hcur, hmod, bags]
  split
  next hfull => exact hseen.resolve_left (by omega)
  next hless =>
    congr 2
    omega

/-- An active quest that the check takes up has the number that is left, and is incomplete. -/
theorem gathered_removed (h : p.Gathered templates held) (hdelivers : p.Delivers templates q quest)
    (hobj : obj ∈ quest.objectives) (hshows : p.Shows templates q obj)
    (hothers : ∀ q' quest other, p.Delivers templates q' quest → other ∈ quest.objectives →
      other.type = .item → q' ≠ q →
        min (held' other.objectID) other.amount = min (held other.objectID) other.amount)
    (hown : ∀ other ∈ quest.objectives, other.type = .item → other ≠ obj →
      min (held' other.objectID) other.amount = min (held other.objectID) other.amount)
    (hless : held' obj.objectID < obj.amount) :
    ((p.setQuestObjectiveData q obj (held' obj.objectID)).incompleteQuest templates q).Gathered
        templates held' ∧
      ∀ q', ((p.setQuestObjectiveData q obj (held' obj.objectID)).incompleteQuest templates
        q).Active q' ↔ p.Active q' := by
  have htouch : Touches q p (p.setQuestObjectiveData q obj (held' obj.objectID)) :=
    .setQuestObjectiveData ..
  obtain ⟨hnow, hsame⟩ := restated hdelivers.template (incompleteQuest_questStatus
    (p := p.setQuestObjectiveData q obj (held' obj.objectID)) hdelivers.active.1)
  have hboth := htouch.trans (.incompleteQuest templates _ q)
  have hactive := hboth.active_iff (by rw [hnow]; simp [hdelivers.active.2.2])
  refine ⟨h.of_touches hboth hactive hothers fun quest' hdelivers' => ?_, hactive⟩
  obtain rfl := Option.some.inj (hdelivers.template.symm.trans hdelivers'.template)
  refine ⟨fun other hother hitem => ?_, fun _ => iff_of_false ?_ fun hheld => ?_⟩
  · rw [hsame]
    refine h.found hdelivers hshows hown (fun k => ?_) other hother hitem
    rw [hshows.data, Nat.min_eq_left (by omega)]
  · rw [hnow]
    simp
  · exact absurd (hheld obj hobj) (by omega)

theorem gathered_lost {before : Bool} (hsmall : templates.Small)
    (h : s.player.Gathered templates s.held)
    (hserved : s.Served templates (.lost entry count before)) :
    (s.step templates (.lost entry count before)).player.Gathered templates
        (s.step templates (.lost entry count before)).held ∧
      ∀ q, (s.step templates (.lost entry count before)).player.Active q ↔ s.player.Active q := by
  obtain ⟨honly, hright⟩ := hserved
  cases hfound : s.player.itemObjective templates (fun _ => true) entry with
  | none =>
    have hplayer : (s.step templates (.lost entry count before)).player = s.player := by
      simp only [step, Player.itemRemovedQuestCheck, hfound]
    rw [hplayer]
    refine ⟨h.of_min fun q quest obj hdelivers hobj hitem => ?_, fun _ => Iff.rfl⟩
    exact honly q quest obj hdelivers hobj hitem (by rw [hfound]; simp)
  | some found =>
    obtain ⟨q, obj⟩ := found
    obtain ⟨_, _, _, _, hq, _, _⟩ := itemObjective_some hfound
    obtain ⟨quest, hquest, _⟩ := itemObjective_delivers hfound
    obtain ⟨hothers, hown⟩ := honly.others hfound
    have hfits := hright q obj hfound
    have hplayer : (s.step templates (.lost entry count before)).player =
        if s.player.countAfterRemoval (bags (s.seen entry count before)) q obj entry count <
            obj.amount then
          (s.player.setQuestObjectiveData q obj (s.player.countAfterRemoval
            (bags (s.seen entry count before)) q obj entry count)).incompleteQuest templates q
        else s.player := by
      simp only [step, Player.itemRemovedQuestCheck, hfound]
    rw [hplayer]
    split at hfits
    next hstatus =>
      obtain ⟨hshows, hseen⟩ := hfits
      obtain ⟨hdelivers, hobj, hitem, rfl⟩ := delivers_found hfound hquest hstatus
      have hcur := h.counts q quest obj hdelivers hobj hitem
      have hcount := countAfterRemoval_eq (hsmall q quest obj hquest hobj hitem) hcur hseen
      have hheld : Function.update s.held obj.objectID (s.held obj.objectID - count) obj.objectID =
          s.held obj.objectID - count := Function.update_self ..
      split
      next hless =>
        have hleft : s.player.countAfterRemoval (bags (s.seen obj.objectID count before)) q obj
            obj.objectID count =
            Function.update s.held obj.objectID (s.held obj.objectID - count) obj.objectID := by
          rw [hheld]
          omega
        rw [hleft] at hless ⊢
        exact gathered_removed h hdelivers hobj hshows hothers (hown quest hdelivers) hless
      next henough =>
        refine ⟨h.of_min fun q' quest' other hdelivers' hother hitem' => ?_, fun _ => Iff.rfl⟩
        by_cases hsame : (q', other) = (q, obj)
        · obtain ⟨rfl, rfl⟩ := Prod.mk.inj hsame
          simp only [step, hheld]
          omega
        · refine honly q' quest' other hdelivers' hother hitem' ?_
          rw [hfound]
          exact fun heq => hsame (Option.some.inj heq).symm
    next hstatus =>
      have hleft : ¬s.player.countAfterRemoval (bags (s.seen entry count before)) q obj entry
          count < obj.amount := by
        simp only [Player.countAfterRemoval, if_pos hfits.1, bags]
        omega
      rw [if_neg hleft]
      refine ⟨h.of_min fun q' quest' other hdelivers' hother hitem' => ?_, fun _ => Iff.rfl⟩
      refine honly q' quest' other hdelivers' hother hitem' ?_
      rw [hfound]
      intro hsame
      obtain ⟨rfl, -⟩ := Prod.mk.inj (Option.some.inj hsame)
      exact hstatus hdelivers'.active.2.2

theorem rewarded_active (p : Player) (q : Nat) (quest : Quest) (q' : Nat) :
    (p.rewarded q quest).Active q' ↔ p.Active q' ∧ q' ≠ q := by
  by_cases hq : q' = q
  · rw [hq]
    refine iff_of_false (fun hactive => ?_) fun hactive => hactive.2 rfl
    obtain ⟨_, _, hstatus⟩ := hactive
    rw [rewarded_status] at hstatus
    simp at hstatus
  have hstatus : (p.rewarded q quest).status q' = p.status q' := by
    rw [Player.status, rewarded_lookup p q quest hq, Player.status]
  rw [and_iff_left hq, Player.Active, Player.Active, hstatus]
  refine and_congr_right fun hne => and_congr_left fun _ => exists_congr fun slot =>
    and_congr_right fun hslot => ⟨fun hid => ?_, fun hid => ?_⟩
  · exact (fades_rewarded p q quest slot).elim (fun hsame => hsame ▸ hid)
      fun hzero => absurd (hid.symm.trans hzero) hne
  · rw [rewarded_log]
    cases hfound : p.findQuestSlot q with
    | none => exact hid
    | some other =>
      have hother := (findQuestSlot_some hfound).2
      simp only [Player.setQuestSlot, modifySlot_log]
      rw [if_neg]
      · exact hid
      · rintro rfl
        exact hq (hid.symm.trans hother)

theorem gathered_rewarded (h : p.Gathered templates held) (q : Nat) (quest : Quest) :
    (p.rewarded q quest).Gathered templates held := by
  have hkept : ∀ q' quest', (p.rewarded q quest).Delivers templates q' quest' →
      p.Delivers templates q' quest' ∧ (p.rewarded q quest).questStatus.lookup q' =
        p.questStatus.lookup q' := by
    rintro q' quest' ⟨hactive, hquest', hdeliver⟩
    obtain ⟨hbefore, hne⟩ := (rewarded_active p q quest q').mp hactive
    exact ⟨⟨hbefore, hquest', hdeliver⟩, rewarded_lookup p q quest hne⟩
  constructor
  · intro q' quest' obj hdelivers hobj hitem
    obtain ⟨hbefore, hlookup⟩ := hkept q' quest' hdelivers
    rw [Player.getQuestObjectiveData, hlookup]
    exact h.counts q' quest' obj hbefore hobj hitem
  · intro q' quest' hdelivers honly
    obtain ⟨hbefore, hlookup⟩ := hkept q' quest' hdelivers
    rw [Player.status, hlookup]
    exact h.complete q' quest' hbefore honly

theorem gathered_criteriaCompleted (h : s.player.Gathered templates s.held)
    (hpossible : s.Possible templates (.criteriaCompleted q)) :
    (s.player.completed templates q).Gathered templates s.held ∧
      ∀ q', (s.player.completed templates q).Active q' ↔ s.player.Active q' := by
  obtain ⟨hincomplete, quest, obj, hquest, hobj, htree⟩ := hpossible
  obtain ⟨hnow, hsame⟩ := restated hquest (completed_questStatus templates s.player q)
  have htouch := Touches.completed templates s.player q
  have hactive := htouch.active_iff (by rw [hnow, hincomplete]; simp)
  refine ⟨h.of_touches htouch hactive (fun _ _ _ _ _ _ _ => rfl) fun quest' hdelivers => ?_,
    hactive⟩
  obtain rfl := Option.some.inj (hquest.symm.trans hdelivers.template)
  refine ⟨fun other hother hitem => ?_, fun honly => ?_⟩
  · rw [hsame]
    exact h.counts q quest other hdelivers hother hitem
  · rw [honly obj hobj] at htree
    cases htree

/-- A step that the check serves keeps what the log shows, whichever quests are in it. -/
theorem gathered_step (hsmall : templates.Small) (event : Event)
    (h : s.player.Gathered templates s.held) (hpossible : s.Possible templates event)
    (hserved : s.Served templates event) :
    (s.step templates event).player.Gathered templates (s.step templates event).held ∧
      ∀ q, (s.step templates event).player.Active q ↔ s.player.Active q ∧
        ¬(event = .rewarded q ∧ templates q ≠ none) := by
  cases event with
  | gained around entry count =>
    obtain ⟨hgathered, hactive⟩ := gathered_gained h hpossible hserved
    exact ⟨hgathered, fun q => by simp [hactive q]⟩
  | lost entry count before =>
    obtain ⟨hgathered, hactive⟩ := gathered_lost hsmall h hserved
    exact ⟨hgathered, fun q => by simp [hactive q]⟩
  | rewarded questId =>
    cases hquest : templates questId with
    | none =>
      simp only [step, hquest]
      refine ⟨h, fun q => ⟨fun hactive => ⟨hactive, ?_⟩, fun hactive => hactive.1⟩⟩
      rintro ⟨hsame, hne⟩
      obtain rfl := Event.rewarded.inj hsame
      exact hne hquest
    | some quest =>
      simp only [step, hquest]
      refine ⟨gathered_rewarded h questId quest, fun q => ?_⟩
      rw [rewarded_active, Event.rewarded.injEq]
      refine and_congr_right fun _ => not_congr ⟨fun hsame => ⟨hsame.symm, ?_⟩, fun hq => hq.1.symm⟩
      rw [hsame, hquest]
      exact Option.some_ne_none quest
  | criteriaCompleted questId =>
    obtain ⟨hgathered, hactive⟩ := gathered_criteriaCompleted h hpossible
    exact ⟨hgathered, fun q => by
      simp only [step, hactive q, reduceCtorEq, false_and, not_false_eq_true, and_true]⟩

structure Agree (templates : Templates) (p p' : Player) : Prop where
  active : ∀ q, p.Active q ↔ p'.Active q
  counts : ∀ q quest obj, p.Delivers templates q quest → obj ∈ quest.objectives →
    obj.type = .item →
      p.getQuestObjectiveData q obj.storageIndex = p'.getQuestObjectiveData q obj.storageIndex
  complete : ∀ q quest, p.Delivers templates q quest → quest.ItemsOnly →
    (p.status q = .complete ↔ p'.status q = .complete)

theorem Agree.of_gathered (h : p.Gathered templates held) (h' : p'.Gathered templates held)
    (hactive : ∀ q, p.Active q ↔ p'.Active q) : Agree templates p p' where
  active := hactive
  counts q quest obj hdelivers hobj hitem := by
    rw [h.counts q quest obj hdelivers hobj hitem,
      h'.counts q quest obj ⟨(hactive q).mp hdelivers.active, hdelivers.2, hdelivers.3⟩ hobj hitem]
  complete q quest hdelivers honly := by
    rw [h.complete q quest hdelivers honly,
      h'.complete q quest ⟨(hactive q).mp hdelivers.active, hdelivers.2, hdelivers.3⟩ honly]

abbrev Steps (templates : Templates) : Gatherer → List Event → Gatherer → Prop :=
  Run (fun s event t => s.Possible templates event ∧ t = s.step templates event)
    (Served templates)

theorem step_held {s s' : Gatherer} (hheld : s'.held = s.held) (event : Event) :
    (s'.step templates event).held = (s.step templates event).held := by
  cases event with
  | gained around entry count => simp only [step, hheld]
  | lost entry count before => simp only [step, hheld]
  | rewarded questId =>
    simp only [step]
    split <;> exact hheld
  | criteriaCompleted questId => exact hheld

/-- As long as the checks are served the log shows what is held, in whatever order the quests are in
it. -/
theorem gathered_run (hsmall : templates.Small) {s t : Gatherer} {events : List Event}
    (h0 : s.player.Gathered templates s.held) (hrun : Steps templates s events t) :
    t.player.Gathered templates t.held ∧ ∀ s' t' : Gatherer,
      s'.held = s.held → s'.player.Gathered templates s'.held →
      (∀ q, s.player.Active q ↔ s'.player.Active q) → Steps templates s' events t' →
        t'.held = t.held ∧ Agree templates t.player t'.player := by
  have hgathered : ∀ {s t : Gatherer} {events : List Event}, Steps templates s events t →
      s.player.Gathered templates s.held → t.player.Gathered templates t.held :=
    fun hrun h0 => hrun.invariant (fun s => s.player.Gathered templates s.held) h0
      fun s event t h hserved ⟨hpossible, ht⟩ =>
        ht ▸ (gathered_step hsmall event h hpossible hserved).1
  refine ⟨hgathered hrun h0, fun s' t' hheld h0' hactive hrun' => ?_⟩
  suffices hsame : t'.held = t.held ∧ ∀ q, t.player.Active q ↔ t'.player.Active q by
    refine ⟨hsame.1, .of_gathered (hgathered hrun h0) ?_ hsame.2⟩
    rw [← hsame.1]
    exact hgathered hrun' h0'
  induction hrun generalizing s' with
  | nil s =>
    cases hrun'
    exact ⟨hheld, hactive⟩
  | @cons s u t event events hserved hstep _ ih =>
    obtain ⟨hpossible, rfl⟩ := hstep
    cases hrun' with
    | cons hserved' hstep' hrest =>
      obtain ⟨hpossible', rfl⟩ := hstep'
      obtain ⟨hnext, hkept⟩ := gathered_step hsmall event h0 hpossible hserved
      obtain ⟨hnext', hkept'⟩ := gathered_step hsmall event h0' hpossible' hserved'
      refine ih hnext _ (step_held hheld event) hnext' (fun q => ?_) hrest
      rw [hkept, hkept', hactive q]

/-! One quest, and two that share an item -/

def nowhere : Around where
  canTakeQuest _ := false
  met _ := false
  getItemCount _ := 0

def pieces : QuestObjective where
  type := .item
  storageIndex := 0
  objectID := 42
  amount := 5
  optional := false
  partOfProgressBar := false

def fivePiecesEach (ids : List Nat) : Templates :=
  fun q => if q ∈ ids then some fivePieces else none

theorem eq_fivePieces {ids : List Nat} (hquest : fivePiecesEach ids q = some quest) :
    q ∈ ids ∧ quest = fivePieces := by
  rw [fivePiecesEach] at hquest
  split at hquest
  next hq => exact ⟨hq, (Option.some.inj hquest).symm⟩
  next => cases hquest

theorem fivePiecesEach_small (ids : List Nat) : (fivePiecesEach ids).Small := by
  intro q quest obj hquest hobj _
  obtain ⟨-, rfl⟩ := eq_fivePieces hquest
  obtain rfl := List.mem_singleton.mp hobj
  decide

theorem gathered_fivePiecesEach {ids : List Nat} (h : ∀ q ∈ ids,
      p.getQuestObjectiveData q 0 = min (held 42) 5 ∧ (p.status q = .complete ↔ 5 ≤ held 42)) :
    p.Gathered (fivePiecesEach ids) held := by
  constructor
  · intro q quest obj hdelivers hobj _
    obtain ⟨hq, rfl⟩ := eq_fivePieces hdelivers.template
    obtain rfl := List.mem_singleton.mp hobj
    exact (h q hq).1
  · intro q quest hdelivers _
    obtain ⟨hq, rfl⟩ := eq_fivePieces hdelivers.template
    refine (h q hq).2.trans ⟨fun hheld obj hobj => ?_, fun hheld => hheld _ List.mem_cons_self⟩
    obtain rfl := List.mem_singleton.mp hobj
    exact hheld

theorem onlyFound_first (s : Gatherer) (held' : Nat → Nat) :
    s.OnlyFound (fivePiecesEach [7]) (some (7, pieces)) held' := by
  intro q quest obj hdelivers hobj _ hne
  obtain ⟨hq, rfl⟩ := eq_fivePieces hdelivers.template
  obtain rfl := List.mem_singleton.mp hq
  obtain rfl := List.mem_singleton.mp hobj
  exact absurd rfl hne

theorem shows_first {data : QuestStatusData} (hlookup : p.questStatus.lookup 7 = some data)
    (hlength : 0 < data.objectiveData.length) : p.Shows (fivePiecesEach [7]) 7 pieces where
  index := by decide
  stored := ⟨data, hlookup, hlength⟩
  apart quest other hquest hother _ _ := by
    obtain ⟨-, rfl⟩ := eq_fivePieces hquest
    exact List.mem_singleton.mp hother

def noPieces : Gatherer := { player := gathering 0, held := fun _ => 0 }

/-- Two pieces are gained, and one of them is lost. -/
theorem gathered_run_two_pieces :
    ((noPieces.step (fivePiecesEach [7]) (.gained nowhere 42 2)).step (fivePiecesEach [7])
      (.lost 42 1 true)).player.Gathered (fivePiecesEach [7])
      ((noPieces.step (fivePiecesEach [7]) (.gained nowhere 42 2)).step (fivePiecesEach [7])
        (.lost 42 1 true)).held := by
  have hfirst : noPieces.player.Gathered (fivePiecesEach [7]) noPieces.held := by
    refine gathered_fivePiecesEach fun q hq => ?_
    obtain rfl := List.mem_singleton.mp hq
    decide +kernel
  have hgained : noPieces.Served (fivePiecesEach [7]) (.gained nowhere 42 2) := by
    have hfound : noPieces.player.itemObjective (fivePiecesEach [7])
        (fun q => noPieces.player.status q = .incomplete) 42 = some (7, pieces) := by
      decide +kernel
    rw [Served, hfound]
    refine ⟨onlyFound_first _ _, ?_⟩
    rintro q obj ⟨⟩
    refine ⟨shows_first rfl (by decide +kernel), fun quest hquest _ => ?_⟩
    obtain ⟨-, rfl⟩ := eq_fivePieces hquest
    refine iff_of_false (fun hheld => ?_) fun hboth => ?_
    · exact absurd (hheld pieces List.mem_cons_self) (by decide)
    · exact absurd (hboth.2 pieces List.mem_cons_self) (by decide)
  have hlost : (noPieces.step (fivePiecesEach [7]) (.gained nowhere 42 2)).Served
      (fivePiecesEach [7]) (.lost 42 1 true) := by
    have hfound : (noPieces.step (fivePiecesEach [7])
        (.gained nowhere 42 2)).player.itemObjective (fivePiecesEach [7]) (fun _ => true) 42 =
        some (7, pieces) := by
      decide +kernel
    rw [Served, hfound]
    refine ⟨onlyFound_first _ _, ?_⟩
    rintro q obj ⟨⟩
    rw [if_pos (.inl (by decide +kernel))]
    exact ⟨shows_first rfl (by decide +kernel), .inl (by decide +kernel)⟩
  have hpossible : noPieces.Possible (fivePiecesEach [7]) (.gained nowhere 42 2) := by
    refine ⟨fun q hq => ?_, by decide⟩
    cases hq
  have hpossible' : 1 ≤ (noPieces.step (fivePiecesEach [7]) (.gained nowhere 42 2)).held 42 := by
    decide +kernel
  exact (gathered_run (fivePiecesEach_small _) hfirst
    (.cons hgained ⟨hpossible, rfl⟩ (.cons hlost ⟨hpossible', rfl⟩ (.nil _)))).1

def bothLogged : Gatherer where
  player := ((gathering 0).accepted 8 fivePieces).logged (fun _ => 0) 8 fivePieces 1 0
  held _ := 0

/-- The second of them gets nothing. -/
theorem second_quest_behind :
    (fivePiecesEach [7, 8]).Small ∧
      bothLogged.player.Gathered (fivePiecesEach [7, 8]) bothLogged.held ∧
      bothLogged.Possible (fivePiecesEach [7, 8]) (.gained nowhere 42 1) ∧
      ¬(bothLogged.step (fivePiecesEach [7, 8]) (.gained nowhere 42 1)).player.Gathered
        (fivePiecesEach [7, 8])
        (bothLogged.step (fivePiecesEach [7, 8]) (.gained nowhere 42 1)).held := by
  refine ⟨fivePiecesEach_small _, ?_, ⟨?_, by decide⟩, fun h => ?_⟩
  · refine gathered_fivePiecesEach fun q hq => ?_
    revert q
    decide +kernel
  · intro q hq
    cases hq
  · have hdelivers : (bothLogged.step (fivePiecesEach [7, 8])
        (.gained nowhere 42 1)).player.Delivers (fivePiecesEach [7, 8]) 8 fivePieces :=
      ⟨⟨by decide, ⟨1, by decide, by decide +kernel⟩, .inl (by decide +kernel)⟩, rfl, rfl⟩
    exact absurd (h.counts 8 fivePieces pieces hdelivers List.mem_cons_self rfl) (by decide +kernel)

end Gatherer

end Ashamane.Quests
