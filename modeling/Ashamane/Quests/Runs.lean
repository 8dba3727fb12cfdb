import Ashamane.Quests.Calls
import Ashamane.Lib.Run

/-! The calls that keep the log and the status of every quest in agreement, and the runs of them. -/
namespace Ashamane.Quests
open Ashamane.Lib

variable {templates : Templates} {p p₀ t u : Player} {q slot timer : Nat} {quest : Quest}
  {obj : QuestObjective} {within : List Nat} {getItemCount : Nat → Nat} {call : Call}

/-- The calls that fit the state they are made in. The quests `within` are just accepted, abandoned
or rewarded. -/
def Fits (templates : Templates) (within : List Nat) (p : Player) : Call → Prop
  | .addQuest q _ getItemCount =>
    ∀ quest, templates q = some quest → p.StartsEmpty q quest getItemCount
  | .setQuestObjectiveData q obj data => q ∉ within → p.CreditFits templates q obj data
  | .completeQuest q => q ∉ within →
    ∀ quest, templates q = some quest → quest.tracking ∨ quest.task ∨ p.Open q
  | .incompleteQuest q => q ∉ within → ∀ quest, templates q = some quest → p.Open q
  | .failQuest q => q ∉ within → p.status q ≠ .complete
  | .rewardQuest _ => True
  | .removeQuest _ => True
  | .items => True
  | .criteriaQuests _ => True

def FitsItem (templates : Templates) (within : List Nat) (p : Player) : ItemCheck → Prop
  | .removed around entry count =>
    ∀ q obj, p.itemObjective templates (fun _ => true) entry = some (q, obj) → q ∉ within →
      p.countAfterRemoval around q obj entry count < obj.amount →
        p.status q ≠ .failed ∧
          p.CreditFits templates q obj (p.countAfterRemoval around q obj entry count)
  | .added _ entry count =>
    ∀ q obj, p.itemObjective templates (fun questId => p.status questId = .incomplete) entry =
        some (q, obj) → q ∉ within →
      p.getQuestObjectiveData q obj.storageIndex < obj.amount →
        p.CreditFits templates q obj
          (min (p.getQuestObjectiveData q obj.storageIndex + count) obj.amount)

theorem Inv.itemRemoved (h : Inv templates within p) {around : Around} {entry count : Nat}
    (hfits : FitsItem templates within p (.removed around entry count)) :
    Inv templates within (p.itemRemovedQuestCheck templates around entry count) := by
  rw [Player.itemRemovedQuestCheck]
  cases hobj : p.itemObjective templates (fun _ => true) entry with
  | none => exact h
  | some found =>
    obtain ⟨q, obj⟩ := found
    simp only
    split
    next hless =>
      have hcredit := Touches.setQuestObjectiveData p q obj
        (p.countAfterRemoval around q obj entry count)
      refine h.touched (hcredit.trans (.incompleteQuest templates _ q)) fun hq hout => ?_
      obtain ⟨slot, quest, hi, hid, _, _, hquest⟩ := itemObjective_some hobj
      obtain ⟨hfailed, hcreditFits⟩ := hfits q obj hobj hout hless
      have hcredited := h.touched hcredit fun hq hout => h.credited hq hout hcreditFits
      refine hcredited.incompleted hq hout hquest ⟨?_, ?_⟩
      · rw [findQuestSlot_congr hcredit.ids]
        exact findQuestSlot_ne_none hi hid
      · rw [status_setQuestObjectiveData]
        exact hfailed
    · exact h

theorem Inv.itemAdded (h : Inv templates within p) {around : Around} {entry count : Nat}
    (hfits : FitsItem templates within p (.added around entry count)) :
    Inv templates within (p.itemAddedQuestCheck templates around entry count).1 := by
  rw [Player.itemAddedQuestCheck]
  cases hobj : p.itemObjective templates (fun questId => p.status questId = .incomplete) entry with
  | none => exact h
  | some found =>
    obtain ⟨q, obj⟩ := found
    simp only
    split
    next hless =>
      exact h.touched (.setQuestObjectiveData p q obj _) fun hq hout =>
        h.credited hq hout (hfits q obj hobj hout hless)
    · exact h

theorem Inv.not_listed (h : Inv templates within p) (hq : q ≠ 0) (hquest : templates q = none) :
    p.findQuestSlot q = none := by
  by_contra hsome
  obtain ⟨slot, hslot⟩ := Option.ne_none_iff_exists'.mp hsome
  obtain ⟨hi, hid⟩ := findQuestSlot_some hslot
  exact h.known slot hi (hid ▸ hq) (hid ▸ hquest)

def Call.begun (within : List Nat) : Call → List Nat
  | .rewardQuest q => q :: within
  | _ => within

/-- `AddQuest`, with the items that are given. -/
theorem Inv.added (hinv : Inv templates within p) (hout : q ∉ within) (hq : q ≠ 0)
    (hquest : templates q = some quest) (hcan : p.CanAddQuest q slot)
    (hempty : p.StartsEmpty q quest getItemCount)
    (hleaves : Leaves Call.items.names (p.accepted q quest) u)
    (hu : Inv templates (q :: within) u) :
    Inv templates within (u.logged getItemCount q quest slot timer) ∧
      (u.logged getItemCount q quest slot timer).Fresh q quest getItemCount := by
  have hnone : (p.accepted q quest).findQuestSlot q = none := by
    by_contra hsome
    exact hinv.status_of_listed hq hout hsome hcan.1
  have hlookup := hleaves.lookup q hq hnone fun hnames => hnames
  have hdata : ∀ obj ∈ quest.objectives, (u.adjustQuestReqItemCount getItemCount q quest
      ).getQuestObjectiveData q obj.storageIndex = 0 := by
    intro obj hobj
    refine hempty.adjusted (fun k hk => ?_) hobj
    rw [← accepted_data hk quest]
    simp only [Player.getQuestObjectiveData, hlookup]
  have hstatus : u.status q = .incomplete := by
    rw [← accepted_status p q quest, Player.status, Player.status, hlookup]
  obtain ⟨hslot, hfree⟩ := findQuestSlot_some hcan.2
  have hfree' : (u.log slot).questId = 0 := (hleaves.fades slot).elim (·.trans hfree) id
  refine ⟨hu.logged hq hquest (hleaves.fades.findQuestSlot hq hnone) hslot hfree' hstatus hdata,
    .of_empty fun obj hobj => ?_⟩
  rw [logged_data]
  exact hdata obj hobj

/-- Every call that fits, with the fitting calls that it leads to, keeps the agreement. -/
theorem Runs.inv (h : Runs templates (Fits templates) (FitsItem templates) within call p t)
    (hout : ∀ q timer getItemCount, call = .addQuest q timer getItemCount → q ∉ within)
    (hinv : Inv templates (call.begun within) p) : Inv templates within t := by
  induction h with
  | noItems => exact hinv
  | itemRemoved around entry count hfits _ ih => exact ih hout (Inv.itemRemoved hinv hfits)
  | itemAdded around entry count hfits _ _ ih => exact ih hout (Inv.itemAdded hinv hfits)
  | itemCompletes around entry count hfits _ _ _ ihcomplete ih =>
    exact ih hout (ihcomplete (by simp) (Inv.itemAdded hinv hfits))
  | completeNothing => exact hinv
  | @complete within p q hfits hq hplain =>
    refine Inv.touched hinv (.completed templates p q) fun _ hout => ?_
    cases hquest : templates q with
    | none =>
      have hnone := Inv.not_listed hinv hq hquest
      simp only [Player.completed, Player.setQuestStatus, hquest, hnone]
      exact hinv.agreed q hq hout
    | some quest =>
      have hopen := hfits hout quest hquest
      rw [← or_assoc] at hopen
      exact Inv.completed hinv hq hout hquest (hopen.resolve_left (hplain quest hquest))
  | @completeRewards within p t q quest hfits hq hquest hrewards _ ih =>
    refine ih (by simp) ((Inv.mono hinv q).touched (.completed templates p q) fun _ hout => ?_)
    exact absurd List.mem_cons_self hout
  | reward _ _ _ _ ihitems ihcriteria =>
    exact ihcriteria (by simp) (ihitems (by simp) hinv).rewarded
  | criteriaDone => exact hinv
  | criteriaSkipped _ _ _ _ ih => exact ih (by simp) hinv
  | criteriaCompletes _ _ _ _ _ _ _ ihcomplete ih =>
    exact ih (by simp) (ihcomplete (by simp) hinv)
  | @add within p u q timer slot quest getItemCount hfits hq hquest hcan hitems ih =>
    have haccepted : Inv templates (q :: within) (p.accepted q quest) :=
      (Inv.mono hinv q).touched (.setStatus p q _) fun _ hout =>
        absurd List.mem_cons_self hout
    exact (Inv.added hinv (hout _ _ _ rfl) hq hquest hcan (hfits quest hquest)
      (hitems.leaves (by simp)) (ih (by simp) haccepted)).1
  | credit hfits =>
    exact Inv.touched hinv (.setQuestObjectiveData ..) fun hq hout =>
      Inv.credited hinv hq hout (hfits hout)
  | @incomplete within p q hfits =>
    refine Inv.touched hinv (.incompleteQuest templates p q) fun hq hout => ?_
    cases hquest : templates q with
    | none =>
      have hnone := Inv.not_listed hinv hq hquest
      simp only [Player.incompleteQuest, Player.setQuestStatus, hquest, hnone, if_neg hq]
      exact hinv.agreed q hq hout
    | some quest => exact Inv.incompleted hinv hq hout hquest (hfits hout quest hquest)
  | failRefused => exact hinv
  | @fail within p t q quest hfits hquest _ hlisted _ ih =>
    refine ih (by simp) (Inv.touched hinv (.failed templates p q quest) fun hq hout => ?_)
    exact Inv.failed hinv hq hout hquest hlisted (hfits hout)
  | removeRefused => exact hinv
  | removeEmpty _ hid => exact Inv.removedEmpty hinv hid
  | remove hslot hq _ hitems ih =>
    exact Inv.removed hinv hslot rfl hq (hitems.leaves (by simp)).fades
      (ih (by simp) (Inv.mono hinv _))

structure LogAgrees (templates : Templates) (p : Player) : Prop where
  once : ∀ i j, i < maxQuestLogSize → j < maxQuestLogSize →
    (p.log i).questId = (p.log j).questId → (p.log i).questId ≠ 0 → i = j
  agreed : ∀ q, q ≠ 0 → Agreed templates p q

theorem Inv.new (templates : Templates) : Inv templates [] Player.new where
  once _ _ _ _ _ hne := absurd rfl hne
  known _ _ hne := absurd rfl hne
  agreed _ hq _ :=
    { listed := iff_of_false (fun ⟨_, _, hid⟩ => hq hid.symm) fun hne => hne rfl
      complete := fun _ _ hid => absurd hid.symm hq
      fail := fun _ _ hid => absurd hid.symm hq
      counters := fun _ _ hid => absurd hid.symm hq }

/-- After every run of calls that fit, the log and the status agree, and a quest that is accepted
then starts without progress. -/
theorem log_run_agrees (calls : List Call) (h0 : Inv templates [] p₀)
    (hrun : Run (fun p call t => Runs templates (Fits templates) (FitsItem templates) [] call p t)
      always p₀ calls p) :
    LogAgrees templates p ∧
      ∀ q timer getItemCount t quest, templates q = some quest →
        Runs templates (Fits templates) (FitsItem templates) [] (.addQuest q timer getItemCount) p t →
          t.Fresh q quest getItemCount := by
  have hinv : Inv templates [] p := by
    refine hrun.invariant (Inv templates []) h0 fun p call t hp _ hcall => ?_
    refine Runs.inv hcall (fun _ _ _ _ => List.not_mem_nil) ?_
    cases call with
    | rewardQuest q => exact hp.mono q
    | _ => exact hp
  refine ⟨⟨hinv.once, fun q hq => hinv.agreed q hq List.not_mem_nil⟩, ?_⟩
  intro q timer getItemCount t quest hquest hadd
  cases hadd with
  | @add _ _ u _ _ slot quest' _ hfits hq hquest' hcan hitems =>
    obtain rfl := Option.some.inj (hquest.symm.trans hquest')
    have haccepted : Inv templates [q] (p.accepted q quest) :=
      (hinv.mono q).touched (.setStatus p q _) fun _ hout => absurd List.mem_cons_self hout
    exact (hinv.added List.not_mem_nil hq hquest hcan (hfits quest hquest)
      (hitems.leaves (by simp)) (Runs.inv hitems (by simp) haccepted)).2

def fivePieces : Quest where
  objectives := [{
    type := .item
    storageIndex := 0
    objectID := 42
    amount := 5
    optional := false
    partOfProgressBar := false }]
  repeatable := false
  autoComplete := false
  explorationOrEvent := false
  timed := false
  deliver := true
  tracking := false
  task := false
  canIncreaseRewardedQuestCounters := true

def onlyFivePieces : Templates := fun q => if q = 7 then some fivePieces else none

def gathering (held : Nat) : Player :=
  (Player.new.accepted 7 fivePieces).logged (fun _ => held) 7 fivePieces 0 0

theorem gathering_runs {ok : List Nat → Player → Call → Prop}
    {okItem : List Nat → Player → ItemCheck → Prop} (held : Nat)
    (hok : ok [] Player.new (.addQuest 7 0 fun _ => held)) :
    Runs onlyFivePieces ok okItem [] (.addQuest 7 0 fun _ => held) Player.new (gathering held) :=
  .add hok (by decide) rfl ⟨rfl, rfl⟩ (.noItems _ _)

def gathered (held : Nat) : Player :=
  (gathering 0).setQuestObjectiveData 7 (fivePieces.objectives.head (by decide)) held

/-- The quest is accepted, three and then all five pieces are credited, and it is completed. -/
theorem log_run_agrees_completed :
    let p := ((gathered 3).setQuestObjectiveData 7 (fivePieces.objectives.head (by decide))
      5).completed onlyFivePieces 7
    p.status 7 = .complete ∧ p.getQuestSlotCounter 0 0 = 5 ∧ LogAgrees onlyFivePieces p ∧
      ∀ q timer getItemCount t quest, onlyFivePieces q = some quest →
        Runs onlyFivePieces (Fits onlyFivePieces) (FitsItem onlyFivePieces) []
          (.addQuest q timer getItemCount) p t → t.Fresh q quest getItemCount := by
  intro p
  set piece := fivePieces.objectives.head (by decide)
  have hcredit : ∀ u n, n < 65536 →
      Fits onlyFivePieces [] u (.setQuestObjectiveData 7 piece n) := fun u n hn _ _ _ => by
    rw [if_neg (by decide)]
    exact ⟨hn, .inl (by decide)⟩
  refine ⟨by decide, by decide, log_run_agrees [.addQuest 7 0 fun _ => 0,
    .setQuestObjectiveData 7 piece 3, .setQuestObjectiveData 7 piece 5, .completeQuest 7]
    (Inv.new onlyFivePieces) (.cons trivial (gathering_runs 0 ?_)
      (.cons trivial (.credit (hcredit _ 3 (by decide)))
        (.cons trivial (.credit (hcredit _ 5 (by decide)))
          (.cons trivial (.complete ?_ (by decide) ?_) (.nil _)))))⟩
  · intro quest hquest obj hobj
    obtain rfl : fivePieces = quest := Option.some.inj hquest
    obtain rfl := List.mem_singleton.mp hobj
    exact .inr (.inl rfl)
  · exact fun _ quest _ => .inr (.inr ⟨by decide, by decide⟩)
  · intro quest hquest
    obtain rfl : fivePieces = quest := Option.some.inj hquest
    decide

/-- Three pieces that are held already are in the status and not in the slot. -/
theorem held_pieces_disagree :
    ∃ t, Runs onlyFivePieces (fun _ _ _ => True) (fun _ _ _ => True) []
        (.addQuest 7 0 fun _ => 3) Player.new t ∧ ¬LogAgrees onlyFivePieces t := by
  refine ⟨gathering 3, gathering_runs 3 trivial, fun h => ?_⟩
  have hcounter := (h.agreed 7 (by decide)).counters 0 (by decide) rfl fivePieces _ rfl
    List.mem_cons_self rfl (by decide)
  exact absurd hcounter (by decide)

end Ashamane.Quests
