import Ashamane.Rolls.Votes
import Ashamane.Lib.Fuel

/-! The end of all rolls for a loot when its time is over. -/
namespace Ashamane.Rolls

open Lib

/-- The early return of `CountTheRoll`: the winner is to disenchant the item, and there is no
disenchant loot for it. -/
def Roll.leavesEarly (r : Roll) (w : World) : Bool :=
  r.totalNeed == 0 && r.totalGreed != 0 && !r.playerVote.entries.isEmpty &&
    w.connected (r.winner w fun v => v == .greed || v == .disenchant).1 &&
    (r.winner w fun v => v == .greed || v == .disenchant).2 == .disenchant && !w.disenchantLoot

namespace State

variable {s s' : State} {w : World} {i g : Nat} {r : Roll}

def unlooted (s : State) (lootGuid : Nat) : Nat :=
  ((s.loots lootGuid).map Loot.unlootedCount).getD 0

theorem setLoot_isSome (s : State) (r : Roll) (f : Loot → Loot) (g : Nat) :
    ((s.setLoot r f).loots g).isSome = (s.loots g).isSome := by
  simp only [setLoot, loot, Function.update_apply]
  split
  next h => rw [Option.isSome_map, h]
  · rfl

theorem unlooted_setLoot (s : State) (r : Roll) (f : Loot → Loot) :
    (s.setLoot r f).unlooted r.lootGuid =
      ((s.loot r).map fun loot => (f loot).unlootedCount).getD 0 := by
  simp only [unlooted, setLoot, Function.update_self, Option.map_map]
  rfl

theorem modifyItem_unlootedCount (loot : Loot) (slot : Nat) (f : LootItem → LootItem) :
    (loot.modifyItem slot f).unlootedCount = loot.unlootedCount := by
  unfold Loot.modifyItem
  split <;> rfl

theorem unlooted_unblock (s : State) (r : Roll) :
    (s.setLoot r (·.unblock r.itemSlot)).unlooted r.lootGuid = s.unlooted r.lootGuid := by
  rw [unlooted_setLoot]
  simp only [Loot.unblock, modifyItem_unlootedCount]
  rfl

theorem decrement_mod (n : Nat) : ((n + 2 ^ 32 - 1) % 2 ^ 32 + 1) % 2 ^ 32 = n % 2 ^ 32 := by
  omega

theorem take_unlootedCount (loot : Loot) (slot : Nat) :
    (loot.take slot).unlootedCount = (loot.unlootedCount + 2 ^ 32 - 1) % 2 ^ 32 := by
  rw [Loot.take]

theorem unlooted_take (hlive : (s.loot r).isSome = true) :
    ((s.setLoot r (·.take r.itemSlot)).unlooted r.lootGuid + 1) % 2 ^ 32 =
      s.unlooted r.lootGuid % 2 ^ 32 := by
  obtain ⟨loot, hloot⟩ := Option.isSome_iff_exists.mp hlive
  have hbefore : s.unlooted r.lootGuid = loot.unlootedCount := by
    rw [unlooted, ← State.loot, hloot, Option.map_some, Option.getD_some]
  rw [unlooted_setLoot, hbefore, hloot, Option.map_some, Option.getD_some, take_unlootedCount]
  exact decrement_mod _

structure Resolved (s : State) (g : Nat) (s' : State) : Prop where
  awarded : ∃ new, s'.awards = new ++ s.awards ∧ new.length ≤ 1 ∧
    (s'.unlooted g + new.length) % 2 ^ 32 = s.unlooted g % 2 ^ 32

theorem Resolved.of_same (hawards : s'.awards = s.awards) (hunlooted : s'.unlooted g = s.unlooted g) :
    Resolved s g s' :=
  ⟨[], by rw [hawards, List.nil_append], by simp, by rw [hunlooted, List.length_nil, Nat.add_zero]⟩

theorem giveItem_resolved (hlive : (s.loot r).isSome = true) (guid : Nat) (v : RollVote) :
    Resolved s r.lootGuid ((s.giveItem w r guid v).eraseRoll i) := by
  unfold giveItem
  split
  · exact ⟨[(guid, v)], rfl, Nat.le_refl 1, unlooted_take hlive⟩
  · exact .of_same rfl (unlooted_unblock s r)

theorem giveItem_rollId (guid : Nat) (v : RollVote) :
    ((s.giveItem w r guid v).eraseRoll i).rollId = s.rollId.eraseIdx i := by
  unfold giveItem
  split <;> rfl

theorem giveItem_isSome (guid : Nat) (v : RollVote) (g : Nat) :
    (((s.giveItem w r guid v).eraseRoll i).loots g).isSome = (s.loots g).isSome := by
  unfold giveItem
  split <;> exact setLoot_isSome ..

structure Ended (w : World) (i : Nat) (s : State) (r : Roll) (s' : State) : Prop where
  rollId : s'.rollId =
    if (s.loot r).isSome = true ∧ r.leavesEarly w = true then s.rollId else s.rollId.eraseIdx i
  counted : s'.counted = r :: s.counted
  live : ∀ g, (s'.loots g).isSome = (s.loots g).isSome
  resolved : (s.loot r).isSome = true → r.leavesEarly w = false → Resolved s r.lootGuid s'

theorem Ended.erased (hrolls : s'.rollId = s.rollId.eraseIdx i) (hcounted : s'.counted = r :: s.counted)
    (hlive : ∀ g, (s'.loots g).isSome = (s.loots g).isSome)
    (hearly : (s.loot r).isSome = true → r.leavesEarly w = false)
    (hresolved : (s.loot r).isSome = true → Resolved s r.lootGuid s') : Ended w i s r s' := by
  refine ⟨?_, hcounted, hlive, fun h _ => hresolved h⟩
  rw [if_neg fun h => by simp [hearly h.1] at h, hrolls]

theorem countTheRoll_ended (w : World) (s : State) (i : Nat) (r : Roll) :
    Ended w i s r (s.countTheRoll w i r) := by
  unfold countTheRoll
  dsimp only
  -- the state after the roll is noted as counted differs in that only
  have hgive : ∀ (guid : Nat) (v : RollVote), r.leavesEarly w = false →
      Ended w i s r (({ s with counted := r :: s.counted }.giveItem w r guid v).eraseRoll i) := by
    intro guid v hearly
    refine .erased (giveItem_rollId guid v) ?_ (giveItem_isSome guid v) (fun _ => hearly)
      fun hlive => ?_
    · unfold giveItem
      split <;> rfl
    · exact ⟨(giveItem_resolved (s := { s with counted := r :: s.counted }) hlive guid v).awarded⟩
  have herase : (s.loot r).isSome = false ∨ r.leavesEarly w = false →
      Ended w i s r ({ s with counted := r :: s.counted }.eraseRoll i) := by
    intro hearly
    refine .erased rfl rfl (fun _ => rfl) (fun hlive => hearly.resolve_left ?_)
      fun _ => .of_same rfl rfl
    rw [hlive]
    simp
  rw [show State.loot { s with counted := r :: s.counted } r = s.loot r from rfl]
  by_cases hdead : (s.loot r).isNone = true
  · rw [if_pos hdead]
    exact herase (.inl (by simpa using hdead))
  have hlive : (s.loot r).isSome = true := Option.isSome_iff_ne_none.mpr fun h => hdead (by simp [h])
  rw [if_neg hdead]
  split
  next hneed =>
    have hearly : r.leavesEarly w = false := by
      simp only [Roll.leavesEarly, beq_eq_false_iff_ne.mpr (Nat.ne_of_gt hneed), Bool.false_and]
    split
    · exact hgive _ _ hearly
    · exact herase (.inr hearly)
  split
  next hneed hgreed =>
    split
    next hwon =>
      split
      next hvote =>
        refine hgive _ _ ?_
        simp [Roll.leavesEarly, hvote]
      next hvote =>
        split
        next hloot =>
          refine .erased rfl rfl (setLoot_isSome _ r _) (fun _ => ?_) fun hlive => ?_
          · simp [Roll.leavesEarly, hloot]
          · exact ⟨[_], rfl, Nat.le_refl 1, unlooted_take hlive⟩
        next hloot =>
          have hearly : r.leavesEarly w = true := by
            have hzero : r.totalNeed = 0 := Nat.eq_zero_of_not_pos hneed
            simp [Roll.leavesEarly, hvote, hloot, hzero, hwon.1, hwon.2, Nat.ne_of_gt hgreed]
          refine ⟨?_, rfl, setLoot_isSome _ r _, fun _ hlate => ?_⟩
          · rw [if_pos ⟨hlive, hearly⟩]
            rfl
          · rw [hearly] at hlate
            cases hlate
      next hgreedy hdisenchant =>
        refine herase (.inr ?_)
        simp only [Roll.leavesEarly, beq_eq_false_iff_ne.mpr hdisenchant, Bool.and_false,
          Bool.false_and]
    next hlost =>
      refine herase (.inr ?_)
      rw [not_and_or, not_not] at hlost
      rcases hlost with hempty | hgone
      · simp [Roll.leavesEarly, hempty]
      · simp [Roll.leavesEarly, hgone]
  next hneed hgreed =>
    refine .erased rfl rfl (setLoot_isSome _ r _) (fun _ => ?_) fun _ =>
      .of_same rfl (unlooted_unblock s r)
    simp [Roll.leavesEarly, Nat.eq_zero_of_not_pos hgreed]

/-- The loop of `EndRoll`: how many rolls were counted, the iterator and the group. A roll that is
counted next meets the next of the worlds. -/
def endRollBody (worlds : Nat → World) (lootGuid : Nat)
    (endRoll : Nat × Nat × State → Option State) : Nat × Nat × State → Option State
  | (count, itr, s) =>
    match s.rollId[itr]? with
    | none => some s
    | some r =>
      if (s.loot r).isSome ∧ r.lootGuid = lootGuid then
        endRoll (count + 1, 0, s.countTheRoll (worlds count) itr r)
      else endRoll (count, itr + 1, s)

def EndRoll (worlds : Nat → World) (lootGuid : Nat) (s s' : State) : Prop :=
  Fuel.Returns (endRollBody worlds lootGuid) (0, 0, s) s'

def ofLoot (s : State) (lootGuid : Nat) (r : Roll) : Bool :=
  (s.loot r).isSome && r.lootGuid == lootGuid

def rollsOf (s : State) (lootGuid : Nat) : List Roll := s.rollId.filter (s.ofLoot lootGuid)

structure AllResolved (lootGuid : Nat) (s s' : State) : Prop where
  others : s'.rollId = s.rollId.filter fun r => !s.ofLoot lootGuid r
  once : s'.counted = (s.rollsOf lootGuid).reverse ++ s.counted
  awarded : ∃ new, s'.awards = new ++ s.awards ∧ new.length ≤ (s.rollsOf lootGuid).length ∧
    (s'.unlooted lootGuid + new.length) % 2 ^ 32 = s.unlooted lootGuid % 2 ^ 32

structure First (s : State) (lootGuid itr : Nat) (r : Roll) : Prop where
  found : s.rollId[itr]? = some r
  before : ∀ x ∈ s.rollId.take itr, s.ofLoot lootGuid x = false
  live : (s.loot r).isSome = true
  guid : r.lootGuid = lootGuid

theorem First.ofLoot (h : s.First g i r) : s.ofLoot g r = true := by
  rw [State.ofLoot, h.live, h.guid, beq_self_eq_true, Bool.and_self]

theorem First.split (h : s.First g i r) :
    s.rollId = s.rollId.take i ++ r :: s.rollId.drop (i + 1) := by
  obtain ⟨hi, hr⟩ := List.getElem?_eq_some_iff.mp h.found
  rw [← hr, List.getElem_cons_drop, List.take_append_drop]

theorem First.filter_take (h : s.First g i r) :
    (s.rollId.take i).filter (s.ofLoot g) = [] :=
  List.filter_eq_nil_iff.mpr fun x hx => by simp [h.before x hx]

theorem First.rollsOf (h : s.First g i r) :
    s.rollsOf g = r :: (s.rollId.drop (i + 1)).filter (s.ofLoot g) := by
  rw [State.rollsOf]
  conv_lhs => rw [h.split]
  rw [List.filter_append, h.filter_take, List.nil_append, List.filter_cons_of_pos h.ofLoot]

theorem Ended.ofLoot (h : Ended w i s r s') (g : Nat) : s'.ofLoot g = s.ofLoot g := by
  funext x
  rw [State.ofLoot, State.ofLoot, State.loot, State.loot, h.live]

theorem First.counted (h : s.First g i r) (hended : Ended w i s r s')
    (hearly : r.leavesEarly w = false) :
    s.rollsOf g = r :: s'.rollsOf g ∧
      (s'.rollId.filter fun x => !s'.ofLoot g x) = s.rollId.filter fun x => !s.ofLoot g x := by
  have hrolls : s'.rollId = s.rollId.take i ++ s.rollId.drop (i + 1) := by
    rw [hended.rollId, if_neg (by simp [hearly]), List.eraseIdx_eq_take_drop_succ]
  refine ⟨?_, ?_⟩
  · rw [h.rollsOf, State.rollsOf, hended.ofLoot, hrolls, List.filter_append, h.filter_take,
      List.nil_append]
  · rw [hended.ofLoot, hrolls]
    conv_rhs => rw [h.split]
    rw [List.filter_append, List.filter_append, List.filter_cons_of_neg (by simp [h.ofLoot])]

theorem endRoll_turn (s : State) (g itr : Nat)
    (hbefore : ∀ x ∈ s.rollId.take itr, s.ofLoot g x = false) :
    (s.rollId[itr]? = none ∧ s.rollsOf g = []) ∨ (∃ r, s.First g itr r) ∨
      ∃ r, s.rollId[itr]? = some r ∧ ¬((s.loot r).isSome ∧ r.lootGuid = g) ∧
        ∀ x ∈ s.rollId.take (itr + 1), s.ofLoot g x = false := by
  cases hitr : s.rollId[itr]? with
  | none =>
    have hall := List.take_of_length_le (List.getElem?_eq_none_iff.mp hitr)
    rw [hall] at hbefore
    exact .inl ⟨rfl, List.filter_eq_nil_iff.mpr fun x hx => by simp [hbefore x hx]⟩
  | some r =>
    by_cases hr : (s.loot r).isSome ∧ r.lootGuid = g
    · exact .inr (.inl ⟨r, hitr, hbefore, hr.1, hr.2⟩)
    · refine .inr (.inr ⟨r, rfl, hr, fun x hx => ?_⟩)
      rw [List.take_add_one, hitr] at hx
      rcases List.mem_append.mp hx with hx | hx
      · exact hbefore x hx
      · obtain rfl := List.mem_singleton.mp hx
        rwa [ofLoot, ← Bool.not_eq_true, Bool.and_eq_true, beq_iff_eq]

variable {worlds : Nat → World} {lootGuid count itr : Nat}

theorem endRoll_scan (s : State) (itr : Nat)
    (hbefore : ∀ x ∈ s.rollId.take itr, s.ofLoot lootGuid x = false) :
    (s.rollsOf lootGuid = [] ∧
        Fuel.Returns (endRollBody worlds lootGuid) (count, itr, s) s) ∨
      ∃ i r, s.First lootGuid i r ∧ ∀ s',
        Fuel.Returns (endRollBody worlds lootGuid)
          (count + 1, 0, s.countTheRoll (worlds count) i r) s' →
        Fuel.Returns (endRollBody worlds lootGuid) (count, itr, s) s' := by
  rcases endRoll_turn s lootGuid itr hbefore with ⟨hnone, hempty⟩ | ⟨r, hfirst⟩ | ⟨r, hr, hother, hnext⟩
  · exact .inl ⟨hempty, .of_answer fun f => by simp only [endRollBody, hnone]⟩
  · refine .inr ⟨itr, r, hfirst, fun s' => .of_call fun f => ?_⟩
    simp only [endRollBody, hfirst.found, if_pos (And.intro hfirst.live hfirst.guid)]
  · have hlt := (List.getElem?_eq_some_iff.mp hr).1
    have hstep : ∀ s', Fuel.Returns (endRollBody worlds lootGuid) (count, itr + 1, s) s' →
        Fuel.Returns (endRollBody worlds lootGuid) (count, itr, s) s' :=
      fun s' => .of_call fun f => by simp only [endRollBody, hr, if_neg hother]
    rcases endRoll_scan s (itr + 1) hnext with ⟨hempty, hdone⟩ | ⟨i, r', hfirst, hgo⟩
    · exact .inl ⟨hempty, hstep s hdone⟩
    · exact .inr ⟨i, r', hfirst, fun s' hs' => hstep s' (hgo s' hs')⟩
termination_by s.rollId.length - itr

theorem AllResolved.of_none (h : s.rollsOf g = []) : AllResolved g s s where
  others := by
    refine (List.filter_eq_self.mpr fun r hr => ?_).symm
    have hnot := List.filter_eq_nil_iff.mp h r hr
    simpa using hnot
  once := by rw [h, List.reverse_nil, List.nil_append]
  awarded := ⟨[], rfl, Nat.zero_le _, rfl⟩

theorem AllResolved.cons {t : State} (hfirst : s.First g i r) (hended : Ended w i s r t)
    (hearly : r.leavesEarly w = false) (h : AllResolved g t s') : AllResolved g s s' := by
  obtain ⟨hrolls, hothers⟩ := hfirst.counted hended hearly
  refine ⟨h.others.trans hothers, ?_, ?_⟩
  · rw [h.once, hended.counted, hrolls, List.reverse_cons, List.append_assoc, List.singleton_append]
  · obtain ⟨new, hnew, hle, hcount⟩ := h.awarded
    obtain ⟨new', hnew', hle', hcount'⟩ := (hended.resolved hfirst.live hearly).awarded
    rw [hfirst.guid] at hcount'
    refine ⟨new ++ new', ?_, ?_, ?_⟩
    · rw [hnew, hnew', List.append_assoc]
    · rw [hrolls, List.length_append, List.length_cons]
      omega
    · rw [List.length_append]
      omega

/-- If no roll is left early, the loop ends with all of them resolved. -/
theorem endRoll_ends (s : State) (itr : Nat)
    (hbefore : ∀ x ∈ s.rollId.take itr, s.ofLoot lootGuid x = false)
    (hearly : ∀ (j : Nat) (r : Roll), (s.rollsOf lootGuid)[j]? = some r →
      r.leavesEarly (worlds (count + j)) = false) :
    ∃ s', Fuel.Returns (endRollBody worlds lootGuid) (count, itr, s) s' ∧
      AllResolved lootGuid s s' := by
  induction hn : (s.rollsOf lootGuid).length generalizing count itr s with
  | zero =>
    rcases endRoll_scan s itr hbefore with ⟨hempty, hdone⟩ | ⟨i, r, hfirst, _⟩
    · exact ⟨s, hdone, .of_none hempty⟩
    · rw [hfirst.rollsOf] at hn
      cases hn
  | succ n ihn =>
    rcases endRoll_scan s itr hbefore with ⟨hempty, hdone⟩ | ⟨i, r, hfirst, hgo⟩
    · exact ⟨s, hdone, .of_none hempty⟩
    · have hended := countTheRoll_ended (worlds count) s i r
      have hlate := hearly 0 r (by rw [hfirst.rollsOf]; rfl)
      obtain ⟨hrolls, _⟩ := hfirst.counted hended hlate
      obtain ⟨s', hs', hresolved⟩ : ∃ s', Fuel.Returns (endRollBody worlds lootGuid)
          (count + 1, 0, s.countTheRoll (worlds count) i r) s' ∧
          AllResolved lootGuid (s.countTheRoll (worlds count) i r) s' := by
        refine ihn _ 0 (by simp) (fun j r' hr' => ?_) ?_
        · rw [Nat.add_assoc, Nat.add_comm 1]
          exact hearly (j + 1) r' (by rw [hrolls]; exact hr')
        · rw [hrolls] at hn
          exact Nat.succ.inj hn
      exact ⟨s', hgo s' hs', hresolved.cons hfirst hended hlate⟩

def CountsAll (worlds : Nat → World) (lootGuid : Nat) : Nat × Nat × State → State → Prop
  | (count, itr, s), s' =>
    (∀ x ∈ s.rollId.take itr, s.ofLoot lootGuid x = false) →
      (s.rollsOf lootGuid).length + s.counted.length ≤ s'.counted.length ∧
        ((s.rollsOf lootGuid).length + s.counted.length = s'.counted.length →
          ∀ (j : Nat) (r : Roll), (s.rollsOf lootGuid)[j]? = some r →
            r.leavesEarly (worlds (count + j)) = false)

theorem endRoll_counted {a : Nat × Nat × State}
    (h : Fuel.Returns (endRollBody worlds lootGuid) a s') : CountsAll worlds lootGuid a s' := by
  refine h.induct (P := CountsAll worlds lootGuid) fun f ih a s' hbody => ?_
  obtain ⟨count, itr, s⟩ := a
  intro hbefore
  rcases endRoll_turn s lootGuid itr hbefore with ⟨hnone, hempty⟩ | ⟨r, hfirst⟩ | ⟨r, hr, hother, hnext⟩
  · simp only [endRollBody, hnone, Option.some.injEq] at hbody
    obtain rfl := hbody
    rw [hempty]
    exact ⟨by simp, fun _ j r hr => by simp at hr⟩
  · simp only [endRollBody, hfirst.found, if_pos (And.intro hfirst.live hfirst.guid)] at hbody
    have hended := countTheRoll_ended (worlds count) s itr r
    obtain ⟨hle, hexact⟩ := ih _ _ hbody (by simp)
    rw [hended.counted, List.length_cons] at hle hexact
    cases hearly : r.leavesEarly (worlds count) with
    | true =>
      have hsame : (s.countTheRoll (worlds count) itr r).rollsOf lootGuid = s.rollsOf lootGuid := by
        rw [rollsOf, hended.ofLoot, hended.rollId, if_pos ⟨hfirst.live, hearly⟩, rollsOf]
      rw [hsame] at hle
      exact ⟨by omega, fun heq => by omega⟩
    | false =>
      obtain ⟨hrolls, _⟩ := hfirst.counted hended hearly
      rw [hrolls, List.length_cons]
      refine ⟨by omega, fun heq j r' hr' => ?_⟩
      cases j with
      | zero =>
        obtain rfl := Option.some.inj hr'
        exact hearly
      | succ j =>
        rw [Nat.add_comm j 1, ← Nat.add_assoc]
        exact hexact (by omega) j r' hr'
  · simp only [endRollBody, hr, if_neg hother] at hbody
    exact ih _ _ hbody hnext

/-- `EndRoll` ends with every roll of the loot resolved once, exactly if none of them is won by a
disenchanter whose item has no disenchant loot. -/
theorem endRoll_iff (worlds : Nat → World) (lootGuid : Nat) (s : State) :
    (∃ s', EndRoll worlds lootGuid s s' ∧ AllResolved lootGuid s s') ↔
      ∀ (j : Nat) (r : Roll), (s.rollsOf lootGuid)[j]? = some r →
        r.leavesEarly (worlds j) = false := by
  constructor
  · rintro ⟨s', hend, hresolved⟩
    have hcounted := (endRoll_counted hend (by simp)).2
    simp only [Nat.zero_add] at hcounted
    exact hcounted (by rw [hresolved.once, List.length_append, List.length_reverse])
  · intro hearly
    exact endRoll_ends s 0 (by simp) fun j r hr => by
      rw [Nat.zero_add]
      exact hearly j r hr

def loneRoll : Roll where
  lootGuid := 7
  itemSlot := 0
  playerVote := AList.singleton 1 .disenchant
  totalPlayersRolling := 1
  totalNeed := 0
  totalGreed := 1
  totalPass := 0
  rollVoteMask := rollAllTypeNoDisenchant ||| rollFlagTypeDisenchant

def noDisenchantLoot : World := ⟨fun _ => 50, fun _ => true, fun _ => true, false⟩

/-- The roll of a lone disenchanter is counted for ever if the item has no disenchant loot. -/
theorem endRoll_fails_disenchant :
    ¬∃ s', EndRoll (fun _ => noDisenchantLoot) 7
      ⟨[loneRoll], fun _ => some ⟨[{ isBlocked := true }], [], 1⟩, [], []⟩ s' := by
  rintro ⟨s', hend⟩
  refine hend.induct (P := fun a _ => ¬(a.2.1 = 0 ∧ a.2.2.rollId = [loneRoll] ∧
    (a.2.2.loots 7).isSome = true)) (fun f ih a s' hbody => ?_) ⟨rfl, rfl, rfl⟩
  obtain ⟨count, itr, s⟩ := a
  rintro ⟨hitr, hrolls, hlive⟩
  simp only at hitr hrolls hlive
  obtain rfl := hitr
  have hfound : s.rollId[0]? = some loneRoll := by
    rw [hrolls]
    rfl
  have hlive' : (s.loot loneRoll).isSome = true := hlive
  simp only [endRollBody, hfound] at hbody
  rw [if_pos ⟨hlive', rfl⟩] at hbody
  have hended := countTheRoll_ended noDisenchantLoot s 0 loneRoll
  refine ih _ _ hbody ⟨rfl, ?_, (hended.live 7).trans hlive⟩
  rw [hended.rollId, if_pos ⟨hlive', by decide⟩, hrolls]

end State

end Ashamane.Rolls
