import Ashamane.Quests.Items

/-! What accepting, rewarding and abandoning a quest leave, with the items that come and go in
between. -/
namespace Ashamane.Quests
open Ashamane.Lib

variable {templates : Templates} {p p' t u : Player} {q slot timer : Nat} {quest : Quest}
  {obj : QuestObjective} {within : List Nat} {getItemCount : Nat → Nat}

/-! Rewarding and abandoning -/

theorem Inv.dropped (h : Inv templates (q :: within) u) (hstatus : p'.status q = .none)
    (hlookup : ∀ q', q' ≠ q → p'.questStatus.lookup q' = u.questStatus.lookup q')
    (hslots : ∀ i, p'.log i = u.log i ∨
      (p'.log i).questId = 0 ∧ ((u.log i).questId = q ∨ (u.log i).questId = 0))
    (hgone : q ≠ 0 → ∀ i, i < maxQuestLogSize → (p'.log i).questId ≠ q) :
    Inv templates within p' where
  once i j hi hj hsame hne := by
    have hold : ∀ k, (p'.log k).questId ≠ 0 → p'.log k = u.log k :=
      fun k hk => (hslots k).resolve_right fun hzero => hk hzero.1
    have hi' := hold i hne
    have hj' := hold j (hsame ▸ hne)
    rw [hi'] at hsame hne
    rw [hj'] at hsame
    exact h.once i j hi hj hsame hne
  known i hi hne := by
    have hi' := (hslots i).resolve_right fun hzero => hne hzero.1
    rw [hi'] at hne ⊢
    exact h.known i hi hne
  agreed q' hq' hout := by
    by_cases hsame : q' = q
    · obtain rfl := hsame
      have hnot := hgone hq'
      refine ⟨?_, fun i hi hid => ?_, fun i hi hid => ?_, fun i hi hid => ?_⟩
      · rw [hstatus]
        exact iff_of_false (fun ⟨i, hi, hid⟩ => hnot i hi hid) (fun hne => hne rfl)
      · exact absurd hid (hnot i hi)
      · exact absurd hid (hnot i hi)
      · exact absurd hid (hnot i hi)
    · refine (h.agreed q' hq' ?_).elsewhere (hlookup q' hsame) fun i hi => ?_
      · rw [List.mem_cons, not_or]
        exact ⟨hsame, hout⟩
      · refine (hslots i).resolve_right fun hzero => ?_
        rcases hi with hi | hi
        · exact hzero.2.elim (fun hid => hsame (hi.symm.trans hid)) fun hid =>
            hq' (hi.symm.trans hid)
        · exact hq' (hi.symm.trans hzero.1)

theorem rewarded_status (p : Player) (q : Nat) (quest : Quest) :
    (p.rewarded q quest).status q = .none := removeActiveQuest_status _ q quest

theorem Inv.rewarded (h : Inv templates (q :: within) u) :
    Inv templates within (u.rewarded q quest) := by
  refine h.dropped (rewarded_status u q quest)
    (fun q' hq' => rewarded_lookup u q quest hq') (fun i => ?_) fun hq i hi => ?_
  · rw [rewarded_log]
    cases hslot : u.findQuestSlot q with
    | none => exact .inl rfl
    | some slot =>
      simp only [Player.setQuestSlot, modifySlot_log]
      by_cases his : i = slot
      · rw [if_pos his, his]
        exact .inr ⟨rfl, .inl (findQuestSlot_some hslot).2⟩
      · rw [if_neg his]
        exact .inl rfl
  · rw [rewarded_log]
    cases hslot : u.findQuestSlot q with
    | none => exact findQuestSlot_none hslot i hi
    | some slot =>
      obtain ⟨hlt, hid⟩ := findQuestSlot_some hslot
      simp only [Player.setQuestSlot, modifySlot_log]
      by_cases his : i = slot
      · rw [if_pos his]
        exact hq.symm
      · rw [if_neg his]
        intro hsame
        exact his (h.once i slot hi hlt (hsame.trans hid.symm) (hsame ▸ hq))

/-- The slot of an abandoned quest is cleared last, whatever became of it in between. -/
theorem Inv.removed (hp : Inv templates within p) (hslot : slot < maxQuestLogSize)
    (hid : (p.log slot).questId = q) (hq : q ≠ 0) (hfades : Fades p u)
    (h : Inv templates (q :: within) u) :
    Inv templates within ((u.removeActiveQuest q quest).setQuestSlot slot 0) := by
  have hlog : ∀ i, ((u.removeActiveQuest q quest).setQuestSlot slot 0).log i =
      if i = slot then {} else u.log i := by
    intro i
    rw [Player.setQuestSlot, modifySlot_log, removeActiveQuest_log]
  refine h.dropped (removeActiveQuest_status u q quest)
    (fun q' hq' => removeActiveQuest_lookup u q quest hq') (fun i => ?_) fun _ i hi => ?_
  · rw [hlog]
    by_cases his : i = slot
    · rw [if_pos his, his, ← hid]
      exact .inr ⟨rfl, hfades slot⟩
    · rw [if_neg his]
      exact .inl rfl
  · rw [hlog]
    by_cases his : i = slot
    · rw [if_pos his]
      exact hq.symm
    · rw [if_neg his]
      intro hsame
      have hbefore : (p.log i).questId = q := by
        rcases hfades i with hkept | hzero
        · exact hkept.symm.trans hsame
        · exact absurd (hsame.symm.trans hzero) hq
      exact his (hp.once i slot hi hslot (hbefore.trans hid.symm) (hbefore ▸ hq))

theorem Inv.removedEmpty (h : Inv templates within p) (hid : (p.log slot).questId = 0) :
    Inv templates within (p.setQuestSlot slot 0) := by
  have htouch : Touches 0 p (p.setQuestSlot slot 0) := by
    refine ⟨fun i => ?_, fun _ _ => rfl, fun i hi => ?_⟩
    · rw [Player.setQuestSlot, modifySlot_log]
      by_cases his : i = slot
      · rw [if_pos his, his, hid]
      · rw [if_neg his]
    · rw [Player.setQuestSlot, modifySlot_log, if_neg]
      rintro rfl
      exact hi hid
  exact h.touched htouch fun hne => absurd rfl hne

/-! Accepting -/

def Player.StartsEmpty (p : Player) (q : Nat) (quest : Quest) (getItemCount : Nat → Nat) : Prop :=
  ∀ obj ∈ quest.objectives,
    if quest.deliver ∧ obj.type = .item then
      obj.storageIndex < 0 ∨ getItemCount obj.objectID = 0 ∨ obj.amount = 0
    else p.getQuestObjectiveData q obj.storageIndex = 0

def Player.Fresh (p : Player) (q : Nat) (quest : Quest) (getItemCount : Nat → Nat) : Prop :=
  ∀ obj ∈ quest.objectives,
    if quest.deliver ∧ obj.type = .item then
      p.getQuestObjectiveData q obj.storageIndex ≤ getItemCount obj.objectID
    else p.getQuestObjectiveData q obj.storageIndex = 0

theorem getD_take_append_replicate {l : List Nat} {k : Nat} (hk : l[k]?.getD 0 = 0) (n : Nat) :
    (((l ++ List.replicate n 0).take n)[k]?).getD 0 = 0 := by
  rw [List.getElem?_take]
  split
  · rw [List.getElem?_append]
    split
    · exact hk
    · rw [List.getElem?_replicate]
      split <;> rfl
  · rfl

theorem accepted_status (p : Player) (q : Nat) (quest : Quest) :
    (p.accepted q quest).status q = .incomplete := by
  simp [Player.accepted, Player.status]

theorem accepted_data {k : Int} (hk : p.getQuestObjectiveData q k = 0) (quest : Quest) :
    (p.accepted q quest).getQuestObjectiveData q k = 0 := by
  rw [Player.getQuestObjectiveData] at hk ⊢
  by_cases hneg : k < 0
  · rw [if_pos hneg]
  rw [if_neg hneg] at hk ⊢
  simp only [Player.accepted, AList.lookup_insert, Option.bind_some]
  refine getD_take_append_replicate ?_ _
  cases hlookup : p.questStatus.lookup q with
  | none => simp
  | some data => simpa [hlookup] using hk

theorem data_creditZero (p : Player) (q : Nat) (obj : QuestObjective) (k : Int) :
    (p.setQuestObjectiveData q obj 0).getQuestObjectiveData q k =
      if k = obj.storageIndex then 0 else p.getQuestObjectiveData q k := by
  by_cases hcredits : p.Credits q obj 0
  · exact (setQuestObjectiveData_of_credits hcredits).1 k
  · rw [setQuestObjectiveData_of_not hcredits]
    by_cases hk : k = obj.storageIndex
    · rw [if_pos hk, hk, Player.getQuestObjectiveData]
      by_cases hneg : obj.storageIndex < 0
      · rw [if_pos hneg]
      rw [if_neg hneg]
      cases hlookup : p.questStatus.lookup q with
      | none => rfl
      | some statusData =>
        simp only [Option.bind_some]
        cases hold : statusData.objectiveData[obj.storageIndex.toNat]? with
        | none => rfl
        | some oldData =>
          by_contra hne
          exact hcredits ⟨by omega, statusData, oldData, hlookup, hold, hne⟩
    · rw [if_neg hk]

theorem status_setQuestObjectiveData (p : Player) (q : Nat) (obj : QuestObjective) (data : Nat) :
    (p.setQuestObjectiveData q obj data).status q = p.status q := by
  by_cases hcredits : p.Credits q obj data
  · exact (setQuestObjectiveData_of_credits hcredits).2.1
  · rw [setQuestObjectiveData_of_not hcredits]

theorem setQuestObjectiveData_log (hnone : p.findQuestSlot q = none) (obj : QuestObjective)
    (data : Nat) : (p.setQuestObjectiveData q obj data).log = p.log := by
  by_cases hcredits : p.Credits q obj data
  · rw [(setQuestObjectiveData_of_credits hcredits).2.2, hnone]
  · rw [setQuestObjectiveData_of_not hcredits]

theorem adjusted_of {P : Player → Prop} (h0 : P p)
    (hstep : ∀ p obj data, P p → P (p.setQuestObjectiveData q obj data)) (quest : Quest)
    (getItemCount : Nat → Nat) : P (p.adjustQuestReqItemCount getItemCount q quest) := by
  rw [Player.adjustQuestReqItemCount]
  split
  · exact List.foldlRecOn _ _ h0 fun p hp obj _ => hstep p obj _ hp
  · exact h0

/-- A quest without a slot keeps its status, and so do the log and the other quests. -/
theorem adjusted_kept (hnone : p.findQuestSlot q = none) (quest : Quest)
    (getItemCount : Nat → Nat) :
    (p.adjustQuestReqItemCount getItemCount q quest).log = p.log ∧
      (p.adjustQuestReqItemCount getItemCount q quest).status q = p.status q ∧
      Touches q p (p.adjustQuestReqItemCount getItemCount q quest) := by
  refine adjusted_of (P := fun p' => p'.log = p.log ∧ p'.status q = p.status q ∧ Touches q p p')
    ⟨rfl, rfl, .refl q p⟩ ?_ quest getItemCount
  rintro p' obj data ⟨hlog, hstatus, htouch⟩
  have hnone' : p'.findQuestSlot q = none := by
    rw [findQuestSlot_congr htouch.ids]
    exact hnone
  refine ⟨(setQuestObjectiveData_log hnone' obj data).trans hlog, ?_, ?_⟩
  · rw [status_setQuestObjectiveData, hstatus]
  · exact htouch.trans (.setQuestObjectiveData p' q obj data)

theorem data_foldl_creditZero (objs : List QuestObjective) (p : Player)
    (hobjs : ∀ obj ∈ objs,
      obj.storageIndex < 0 ∨ getItemCount obj.objectID = 0 ∨ obj.amount = 0) {k : Int}
    (hk : p.getQuestObjectiveData q k = 0 ∨ ∃ obj ∈ objs, obj.storageIndex = k) :
    (objs.foldl (fun p obj =>
      p.setQuestObjectiveData q obj (min (getItemCount obj.objectID) obj.amount)) p
      ).getQuestObjectiveData q k = 0 := by
  induction objs generalizing p with
  | nil => simpa using hk
  | cons obj objs ih =>
    have hzero : p.setQuestObjectiveData q obj (min (getItemCount obj.objectID) obj.amount) =
        p.setQuestObjectiveData q obj 0 := by
      rcases hobjs obj List.mem_cons_self with hneg | hcount | hamount
      · simp only [Player.setQuestObjectiveData, if_pos hneg]
      · rw [hcount, Nat.zero_min]
      · rw [hamount, Nat.min_zero]
    rw [List.foldl_cons, hzero]
    refine ih _ (fun other hother => hobjs other (List.mem_cons_of_mem _ hother)) ?_
    rw [data_creditZero]
    by_cases hsame : k = obj.storageIndex
    · exact .inl (if_pos hsame)
    · rw [if_neg hsame]
      refine hk.imp_right ?_
      rintro ⟨other, hother, rfl⟩
      rcases List.mem_cons.mp hother with rfl | hother
      · exact absurd rfl hsame
      · exact ⟨other, hother, rfl⟩

theorem Player.StartsEmpty.adjusted (h : p.StartsEmpty q quest getItemCount)
    (hdata : ∀ k, p.getQuestObjectiveData q k = 0 → u.getQuestObjectiveData q k = 0)
    (hobj : obj ∈ quest.objectives) :
    (u.adjustQuestReqItemCount getItemCount q quest).getQuestObjectiveData q obj.storageIndex =
      0 := by
  have hempty := h obj hobj
  rw [Player.adjustQuestReqItemCount]
  by_cases hdeliver : quest.deliver = true
  · rw [if_pos hdeliver]
    refine data_foldl_creditZero _ u (fun item hitem => ?_) ?_
    · obtain ⟨hmem, htype⟩ := List.mem_filter.mp hitem
      have hnothing := h item hmem
      rwa [if_pos ⟨hdeliver, by simpa using htype⟩] at hnothing
    · by_cases htype : obj.type = .item
      · exact .inr ⟨obj, List.mem_filter.mpr ⟨hobj, by simpa using htype⟩, rfl⟩
      · rw [if_neg fun hboth => htype hboth.2] at hempty
        exact .inl (hdata _ hempty)
  · rw [if_neg hdeliver]
    rw [if_neg fun hboth => hdeliver hboth.1] at hempty
    exact hdata _ hempty

theorem logged_data (p : Player) (q : Nat) (quest : Quest) (getItemCount : Nat → Nat)
    (slot timer : Nat) (k : Int) :
    (p.logged getItemCount q quest slot timer).getQuestObjectiveData q k =
      (p.adjustQuestReqItemCount getItemCount q quest).getQuestObjectiveData q k :=
  data_setTimer (p.adjustQuestReqItemCount getItemCount q quest) q _ k

theorem Inv.logged (h : Inv templates (q :: within) u) (hq : q ≠ 0)
    (hquest : templates q = some quest) (hnone : u.findQuestSlot q = none)
    (hslot : slot < maxQuestLogSize) (hfree : (u.log slot).questId = 0)
    (hstatus : u.status q = .incomplete)
    (hdata : ∀ obj ∈ quest.objectives, (u.adjustQuestReqItemCount getItemCount q quest
      ).getQuestObjectiveData q obj.storageIndex = 0) :
    Inv templates within (u.logged getItemCount q quest slot timer) := by
  obtain ⟨hadjusted, hincomplete, htouch⟩ := adjusted_kept hnone quest getItemCount
  have hlog : ∀ i, (u.logged getItemCount q quest slot timer).log i =
      if i = slot then { questId := q } else u.log i := by
    intro i
    rw [← hadjusted]
    simp only [Player.logged, Player.setQuestSlot, modifySlot_log]
  have hstatus' : (u.logged getItemCount q quest slot timer).status q = .incomplete :=
    (status_setTimer _ q _).trans (hincomplete.trans hstatus)
  have hlookup : ∀ q', q' ≠ q →
      (u.logged getItemCount q quest slot timer).questStatus.lookup q' =
        u.questStatus.lookup q' := fun q' hq' =>
    (AList.lookup_insert_ne hq').trans (htouch.lookup q' hq')
  have hother : ∀ i, i < maxQuestLogSize → i ≠ slot → (u.log i).questId ≠ q :=
    fun i hi _ => findQuestSlot_none hnone i hi
  have hin : ∀ i, i < maxQuestLogSize →
      ((u.logged getItemCount q quest slot timer).log i).questId = q → i = slot := by
    intro i hi hid
    by_contra his
    rw [hlog, if_neg his] at hid
    exact hother i hi his hid
  refine ⟨fun i j hi hj hsame hne => ?_, fun i hi hne => ?_, fun q' hq' hout => ?_⟩
  · by_cases hid : ((u.logged getItemCount q quest slot timer).log i).questId = q
    · rw [hin i hi hid, hin j hj (hsame.symm.trans hid)]
    · have his : i ≠ slot := by
        rintro rfl
        rw [hlog, if_pos rfl] at hid
        exact hid rfl
      have hjs : j ≠ slot := by
        rintro rfl
        rw [hsame, hlog, if_pos rfl] at hid
        exact hid rfl
      rw [hlog, if_neg his] at hsame hne
      rw [hlog, if_neg hjs] at hsame
      exact h.once i j hi hj hsame hne
  · rw [hlog] at hne ⊢
    by_cases his : i = slot
    · rw [if_pos his, hquest]
      simp
    · rw [if_neg his] at hne ⊢
      exact h.known i hi hne
  · by_cases hsame : q' = q
    · obtain rfl := hsame
      have hempty : (u.logged getItemCount q' quest slot timer).log slot = { questId := q' } := by
        rw [hlog, if_pos rfl]
      refine ⟨?_, fun i hi hid => ?_, fun i hi hid => ?_,
        fun i hi hid quest' obj hquest' hobj _ _ => ?_⟩
      · rw [hstatus']
        exact iff_of_true ⟨slot, hslot, by rw [hempty]⟩ (by simp)
      · obtain rfl := hin i hi hid
        rw [hempty, hstatus']
        simp
      · obtain rfl := hin i hi hid
        rw [hempty, hstatus']
        simp
      · obtain rfl := hin i hi hid
        obtain rfl := Option.some.inj (hquest.symm.trans hquest')
        rw [logged_data, hdata obj hobj, Player.getQuestSlotCounter, hempty]
        exact ite_self 0
    · refine (h.agreed q' hq' ?_).elsewhere (hlookup q' hsame) fun i hi => ?_
      · rw [List.mem_cons, not_or]
        exact ⟨hsame, hout⟩
      · rw [hlog] at hi ⊢
        refine if_neg ?_
        rintro rfl
        rw [if_pos rfl, hfree] at hi
        rcases hi with hi | hi
        · exact hq' hi.symm
        · exact hsame hi.symm

theorem Player.Fresh.of_empty (h : ∀ obj ∈ quest.objectives,
      p.getQuestObjectiveData q obj.storageIndex = 0) : p.Fresh q quest getItemCount := by
  intro obj hobj
  rw [h obj hobj]
  split
  · exact Nat.zero_le _
  · rfl

end Ashamane.Quests
