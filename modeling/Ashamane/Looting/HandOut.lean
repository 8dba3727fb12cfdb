import Ashamane.Lib.Run
import Ashamane.Looting.Basic

/-! The three paths that hand a loot slot out: a player's own take, the master
looter's gift and the end of a group roll. -/
namespace Ashamane.Looting

open Ashamane.Lib

namespace Loot

variable {loot : Loot} {lootSlot : Nat} {f : LootItem → LootItem}

theorem getItemInSlot_modifyItem (slot : Nat) :
    (loot.modifyItem lootSlot f).getItemInSlot slot =
      if slot = lootSlot then (loot.getItemInSlot slot).map f else loot.getItemInSlot slot := by
  by_cases hl : lootSlot < loot.items.length
  · simp only [modifyItem, if_pos hl, getItemInSlot, List.length_modify, List.getElem?_modify]
    grind
  · simp only [modifyItem, if_neg hl, getItemInSlot, List.getElem?_modify]
    grind

end Loot

inductive RollVote where
  | pass
  | need
  | greed
  | disenchant
  | notEmitedYet
  | notValid
  deriving DecidableEq, Repr

structure Roll where
  itemid : Nat
  itemSlot : Nat
  playerVote : List (ObjectGuid × RollVote)
  totalNeed : Nat
  totalGreed : Nat
  deriving DecidableEq, Repr

namespace Roll

def winner (roll : Roll) (counts : RollVote → Bool) (urand : ObjectGuid → Nat) :
    Option (ObjectGuid × RollVote) :=
  match roll.playerVote with
  | [] => none
  | (first, _) :: _ =>
    let best := roll.playerVote.foldl (fun (best : ObjectGuid × Nat × RollVote) vote =>
      if counts vote.2 && decide (best.2.1 < urand vote.1) then (vote.1, urand vote.1, vote.2)
      else best) (first, 0, .notValid)
    some (best.1, best.2.2)

def award (roll : Roll) (urand : ObjectGuid → Nat) : Option (ObjectGuid × RollVote) :=
  if 0 < roll.totalNeed then
    (roll.winner (· == .need) urand).map fun w => (w.1, .need)
  else if 0 < roll.totalGreed then
    roll.winner (fun vote => vote == .greed || vote == .disenchant) urand
  else none

def allPassed (roll : Roll) : Bool := roll.totalNeed == 0 && roll.totalGreed == 0

end Roll

inductive RollResult where
  | kept
  | stored (guid : ObjectGuid) (count : Nat)
  | disenchanted (guid : ObjectGuid)
  | disenchantError
  deriving DecidableEq, Repr

namespace Loot

def unblock (loot : Loot) (lootSlot : Nat) : Loot :=
  loot.modifyItem lootSlot ({ · with isBlocked := false })

def markAwarded (loot : Loot) (lootSlot : Nat) : Loot :=
  let marked := loot.modifyItem lootSlot ({ · with isLooted := true })
  { marked with unlootedCount := marked.unlootedCount - 1 }

/-- `Group::CountTheRoll`; `disenchant` tells whether the item has a disenchant entry.
No result when the slot of the roll is no slot of the loot. -/
def countTheRoll (loot : Loot) (roll : Roll) (urand : ObjectGuid → Nat)
    (findConnectedPlayer : ObjectGuid → Option Player) (disenchant : Bool) :
    Option (Loot × RollResult) := do
  let item ← loot.getItemInSlot roll.itemSlot
  if roll.allPassed then
    return (loot.unblock roll.itemSlot, .kept)
  else
    match roll.award urand with
    | none => return (loot, .kept)
    | some (maxguid, rollvote) =>
      match findConnectedPlayer maxguid with
      | none => return (loot, .kept)
      | some player =>
        match rollvote with
        | .need | .greed =>
          if player.canStoreNewItem roll.itemid item.count then
            return (loot.markAwarded roll.itemSlot, .stored maxguid item.count)
          else return (loot.unblock roll.itemSlot, .kept)
        | .disenchant =>
          if disenchant then return (loot.markAwarded roll.itemSlot, .disenchanted maxguid)
          else return (loot.markAwarded roll.itemSlot, .disenchantError)
        | _ => return (loot, .kept)

/-- `WorldSession::HandleLootMasterGiveOpcode`: the loot after the request, and the slot's
count if the item moved to the target. `sameRaid` stands for the checks on where the target is. -/
def handleLootMasterGive (store : ItemStore) (loot : Loot) (master target : Player)
    (sameRaid : Bool) (slotid : Nat) : Loot × Option Nat :=
  match master.group with
  | none => (loot, none)
  | some group =>
    if group.masterLooterGuid != master.guid || group.lootMethod != .masterLoot then (loot, none)
    else if !sameRaid then (loot, none)
    else
      match loot.getItemInSlot slotid with
      | none => (loot, none)
      | some item =>
        if item.followLootRules && !item.allowedForPlayer store target then (loot, none)
        else if !target.canStoreNewItem item.itemid item.count then (loot, none)
        else
          let given := loot.modifyItem slotid ({ · with count := 0, isLooted := true })
          ({ given with unlootedCount := given.unlootedCount - 1 }, some item.count)

end Loot

structure Distribution where
  loot : Loot
  rolls : List Roll
  handedOut : List (Nat × ObjectGuid)

namespace Distribution

def log (s : Distribution) (count slot : Nat) (guid : ObjectGuid) : List (Nat × ObjectGuid) :=
  if count = 0 then s.handedOut else (slot, guid) :: s.handedOut

def afterTake (s : Distribution) (guid : ObjectGuid) : Loot × Take → Distribution
  | (loot, .item slot count) => { s with loot := loot, handedOut := s.log count slot guid }
  | (loot, _) => { s with loot := loot }

def afterGive (s : Distribution) (slotid : Nat) (guid : ObjectGuid) :
    Loot × Option Nat → Distribution
  | (loot, some count) => { s with loot := loot, handedOut := s.log count slotid guid }
  | (loot, none) => { s with loot := loot }

def afterRoll (s : Distribution) (i slot : Nat) : Loot × RollResult → Distribution
  | (loot, .stored guid count) => ⟨loot, s.rolls.eraseIdx i, s.log count slot guid⟩
  | (loot, .disenchanted guid) => ⟨loot, s.rolls.eraseIdx i, (slot, guid) :: s.handedOut⟩
  | (loot, .disenchantError) => { s with loot := loot }
  | (loot, .kept) => ⟨loot, s.rolls.eraseIdx i, s.handedOut⟩

def handOuts (s : Distribution) (slot : Nat) : Nat := (s.handedOut.map Prod.fst).count slot

end Distribution

/-- One request of a player, of a master looter, or the end of the `i`-th roll. -/
inductive HandOut where
  | storeLootItem (player : Player) (lootSlot : Nat)
  | masterGive (master target : Player) (sameRaid : Bool) (slotid : Nat)
  | countTheRoll (i : Nat) (urand : ObjectGuid → Nat)
      (findConnectedPlayer : ObjectGuid → Option Player) (disenchant : Bool)

inductive HandOut.Step (store : ItemStore) : Distribution → HandOut → Distribution → Prop
  | storeLootItem (s : Distribution) (player : Player) (lootSlot : Nat) :
      Step store s (.storeLootItem player lootSlot)
        (s.afterTake player.guid (s.loot.storeLootItem store lootSlot player))
  | masterGive (s : Distribution) (master target : Player) (sameRaid : Bool) (slotid : Nat) :
      Step store s (.masterGive master target sameRaid slotid)
        (s.afterGive slotid target.guid
          (s.loot.handleLootMasterGive store master target sameRaid slotid))
  | countTheRoll {s : Distribution} {i : Nat} {roll : Roll} {urand : ObjectGuid → Nat}
      {find : ObjectGuid → Option Player} {disenchant : Bool} {r : Loot × RollResult} :
      s.rolls[i]? = some roll → s.loot.countTheRoll roll urand find disenchant = some r →
      Step store s (.countTheRoll i urand find disenchant) (s.afterRoll i roll.itemSlot r)

def SlotOpen (loot : Loot) (slot : Nat) : Prop :=
  ∀ item, loot.getItemInSlot slot = some item → item.freeforall = false →
    item.isLooted = true → item.count = 0

def HandOut.NotLooted (s : Distribution) : HandOut → Prop
  | .storeLootItem player lootSlot =>
    ∀ v, s.loot.lootItemInSlot lootSlot player = some v → SlotOpen s.loot v.slot
  | .masterGive _ _ _ slotid => SlotOpen s.loot slotid
  | .countTheRoll i urand find _ =>
    ∀ roll, s.rolls[i]? = some roll → ∀ guid vote, roll.award urand = some (guid, vote) →
      (find guid).isSome → SlotOpen s.loot roll.itemSlot ∧
        (vote = .disenchant → ∀ item, s.loot.getItemInSlot roll.itemSlot = some item →
          item.freeforall = false → item.isLooted = false)

end Ashamane.Looting

/-! No item that is for one player only is handed out twice. -/
namespace Ashamane.Looting

open Ashamane.Lib

def Keeps (loot loot' : Loot) : Prop :=
  ∀ k item', loot'.getItemInSlot k = some item' → ∃ item, loot.getItemInSlot k = some item ∧
    item.freeforall = item'.freeforall ∧ (item.isLooted = true → item'.isLooted = true)

def Marked (loot : Loot) (slot : Nat) : Prop :=
  ∀ item, loot.getItemInSlot slot = some item → item.freeforall = false → item.isLooted = true

namespace Keeps

variable {loot : Loot} {lootSlot : Nat} {f : LootItem → LootItem}

theorem refl (loot : Loot) : Keeps loot loot := fun _ item' h => ⟨item', h, rfl, id⟩

theorem modifyItem (hffa : ∀ item, (f item).freeforall = item.freeforall)
    (hlooted : ∀ item, item.isLooted = true → (f item).isLooted = true) :
    Keeps loot (loot.modifyItem lootSlot f) := by
  intro k item' h
  rw [Loot.getItemInSlot_modifyItem] at h
  split at h
  · obtain ⟨item, hitem, rfl⟩ := Option.map_eq_some_iff.mp h
    exact ⟨item, hitem, (hffa item).symm, hlooted item⟩
  · exact ⟨item', h, rfl, id⟩

end Keeps

theorem marked_modifyItem {loot : Loot} {slot : Nat} {f : LootItem → LootItem}
    (h : ∀ item, (f item).isLooted = true) : Marked (loot.modifyItem slot f) slot := by
  intro item' hitem' _
  rw [Loot.getItemInSlot_modifyItem, if_pos rfl] at hitem'
  obtain ⟨item, _, rfl⟩ := Option.map_eq_some_iff.mp hitem'
  exact h item

namespace Loot

variable {loot : Loot}

theorem takeItem_keeps (v : SlotView) (guid : ObjectGuid) : Keeps loot (loot.takeItem v guid) := by
  unfold takeItem
  cases v.copy <;> cases hffa : v.item.freeforall
  · exact Keeps.modifyItem (fun _ => rfl) fun _ _ => rfl
  · exact Keeps.refl loot
  · exact @Keeps.modifyItem (loot.lootCopy guid _) _ _ (fun _ => rfl) fun _ _ => rfl
  · exact Keeps.refl loot

theorem takeItem_marked {v : SlotView} (hv : loot.getItemInSlot v.slot = some v.item)
    (guid : ObjectGuid) : Marked (loot.takeItem v guid) v.slot := by
  unfold takeItem
  cases v.copy <;> cases hffa : v.item.freeforall
  · exact marked_modifyItem fun _ => rfl
  · intro item hitem hitemffa
    cases hv.symm.trans hitem
    simp_all
  · exact marked_modifyItem fun _ => rfl
  · intro item hitem hitemffa
    cases hv.symm.trans hitem
    simp_all

/-- Either the master looter's request changes nothing, or the named slot has an item
and is marked. -/
theorem handleLootMasterGive_cases (store : ItemStore) (loot : Loot) (master target : Player)
    (sameRaid : Bool) (slotid : Nat) :
    loot.handleLootMasterGive store master target sameRaid slotid = (loot, none) ∨
    ∃ item loot', loot.getItemInSlot slotid = some item ∧
      loot.handleLootMasterGive store master target sameRaid slotid = (loot', some item.count) ∧
      Keeps loot loot' ∧ Marked loot' slotid := by
  unfold handleLootMasterGive
  split
  · exact .inl rfl
  split
  · exact .inl rfl
  split
  · exact .inl rfl
  split
  · exact .inl rfl
  next item hitem =>
  split
  · exact .inl rfl
  split
  · exact .inl rfl
  · exact .inr ⟨item, _, hitem, rfl, Keeps.modifyItem (fun _ => rfl) fun _ _ => rfl,
      marked_modifyItem fun _ => rfl⟩

theorem markAwarded_keeps (loot : Loot) (slot : Nat) : Keeps loot (loot.markAwarded slot) :=
  Keeps.modifyItem (fun _ => rfl) fun _ _ => rfl

theorem markAwarded_marked (loot : Loot) (slot : Nat) : Marked (loot.markAwarded slot) slot :=
  marked_modifyItem fun _ => rfl

/-- How a roll can end: the item is kept, or its winner is connected and it is marked. -/
theorem countTheRoll_cases {roll : Roll} {urand : ObjectGuid → Nat}
    {find : ObjectGuid → Option Player} {disenchant : Bool} {r : Loot × RollResult}
    (h : loot.countTheRoll roll urand find disenchant = some r) :
    (Keeps loot r.1 ∧ r.2 = .kept) ∨
    ∃ item guid vote, loot.getItemInSlot roll.itemSlot = some item ∧
      roll.award urand = some (guid, vote) ∧ (find guid).isSome ∧
      r.1 = loot.markAwarded roll.itemSlot ∧
      (r.2 = .stored guid item.count ∨
        vote = .disenchant ∧ (r.2 = .disenchanted guid ∨ r.2 = .disenchantError)) := by
  obtain ⟨item, hitem, h⟩ := Option.bind_eq_some_iff.mp h
  have hkept : ∀ loot', Keeps loot loot' → r = (loot', .kept) →
      Keeps loot r.1 ∧ r.2 = .kept := by
    rintro loot' hk rfl
    exact ⟨hk, rfl⟩
  have hunblock : Keeps loot (loot.unblock roll.itemSlot) :=
    Keeps.modifyItem (fun _ => rfl) fun _ => id
  split at h
  · exact .inl (hkept _ hunblock (Option.some.inj h).symm)
  cases haward : roll.award urand with
  | none =>
    rw [haward] at h
    exact .inl (hkept _ (Keeps.refl loot) (Option.some.inj h).symm)
  | some w =>
    obtain ⟨guid, vote⟩ := w
    rw [haward] at h
    cases hfind : find guid with
    | none =>
      simp only [hfind] at h
      exact .inl (hkept _ (Keeps.refl loot) (Option.some.inj h).symm)
    | some player =>
      simp only [hfind] at h
      have hsome : (find guid).isSome = true := by rw [hfind]; rfl
      cases vote
      case need | greed =>
        simp only at h
        split at h
        · cases h
          exact .inr ⟨item, guid, _, hitem, rfl, hsome, rfl, .inl rfl⟩
        · exact .inl (hkept _ hunblock (Option.some.inj h).symm)
      case disenchant =>
        simp only at h
        split at h
        · cases h
          exact .inr ⟨item, guid, _, hitem, rfl, hsome, rfl, .inr ⟨rfl, .inl rfl⟩⟩
        · cases h
          exact .inr ⟨item, guid, _, hitem, rfl, hsome, rfl, .inr ⟨rfl, .inr rfl⟩⟩
      all_goals exact .inl (hkept _ (Keeps.refl loot) (Option.some.inj h).symm)

end Loot

def HandedOutOnce (s : Distribution) : Prop :=
  ∀ slot item, s.loot.getItemInSlot slot = some item → item.freeforall = false →
    s.handOuts slot ≤ 1 ∧ (0 < s.handOuts slot → item.isLooted = true)

namespace HandedOutOnce

variable {s s' : Distribution}

theorem keep (h : HandedOutOnce s) (hk : Keeps s.loot s'.loot)
    (hlog : s'.handedOut = s.handedOut) : HandedOutOnce s' := by
  intro slot item' hitem' hffa
  obtain ⟨item, hitem, hffa', hlooted⟩ := hk slot item' hitem'
  obtain ⟨hle, hpos⟩ := h slot item hitem (hffa'.trans hffa)
  have hcount : s'.handOuts slot = s.handOuts slot := by
    rw [Distribution.handOuts, Distribution.handOuts, hlog]
  rw [hcount]
  exact ⟨hle, fun hp => hlooted (hpos hp)⟩

/-- Handing a slot out once more is fine if its item was not looted before and is
marked after. -/
theorem handOut (h : HandedOutOnce s) {slot : Nat} {guid : ObjectGuid}
    (hk : Keeps s.loot s'.loot) (hm : Marked s'.loot slot)
    (hopen : ∀ item, s.loot.getItemInSlot slot = some item → item.freeforall = false →
      item.isLooted = false)
    (hlog : s'.handedOut = (slot, guid) :: s.handedOut) : HandedOutOnce s' := by
  intro k item' hitem' hffa
  obtain ⟨item, hitem, hffa', hlooted⟩ := hk k item' hitem'
  obtain ⟨hle, hpos⟩ := h k item hitem (hffa'.trans hffa)
  have hcount : s'.handOuts k = s.handOuts k + if slot = k then 1 else 0 := by
    rw [Distribution.handOuts, Distribution.handOuts, hlog, List.map_cons, List.count_cons]
    simp
  by_cases hslot : slot = k
  · subst hslot
    have hnone : s.handOuts slot = 0 := by
      by_contra hne
      have hl := hpos (Nat.pos_of_ne_zero hne)
      rw [hopen item hitem (hffa'.trans hffa)] at hl
      cases hl
    rw [hcount, if_pos rfl, hnone]
    exact ⟨Nat.le_refl 1, fun _ => hm item' hitem' hffa⟩
  · rw [hcount, if_neg hslot]
    exact ⟨hle, fun hp => hlooted (hpos hp)⟩

/-- The log after a path that hands out `count` of the item in `slot`. -/
theorem logged (h : HandedOutOnce s) {slot : Nat} {guid : ObjectGuid} {item : LootItem}
    (hitem : s.loot.getItemInSlot slot = some item) (hopen : SlotOpen s.loot slot)
    (hk : Keeps s.loot s'.loot) (hm : Marked s'.loot slot)
    (hlog : s'.handedOut = s.log item.count slot guid) : HandedOutOnce s' := by
  by_cases hzero : item.count = 0
  · refine h.keep hk ?_
    rw [hlog, Distribution.log, if_pos hzero]
  · rw [Distribution.log, if_neg hzero] at hlog
    refine h.handOut hk hm ?_ hlog
    intro item₁ hitem₁ hffa
    cases hitem.symm.trans hitem₁
    by_contra hl
    exact hzero (hopen item hitem hffa (by simpa using hl))

theorem step {store : ItemStore} {op : HandOut} (h : HandedOutOnce s)
    (hok : op.NotLooted s) (hs : HandOut.Step store s op s') : HandedOutOnce s' := by
  cases hs with
  | storeLootItem player lootSlot =>
    rcases Loot.storeLootItem_cases store s.loot lootSlot player with
      heq | ⟨v, hv, _, ⟨pos, _, heq⟩ | ⟨_, _, heq⟩⟩
    · rw [heq]
      exact h.keep (Keeps.refl s.loot) rfl
    · rw [heq]
      exact h.keep (Keeps.refl s.loot) rfl
    · have hitem := Loot.getItemInSlot_of_lootItemInSlot hv
      rw [heq]
      exact h.logged hitem (hok v hv) (Loot.takeItem_keeps v player.guid)
        (Loot.takeItem_marked hitem player.guid) rfl
  | masterGive master target sameRaid slotid =>
    rcases Loot.handleLootMasterGive_cases store s.loot master target
      sameRaid slotid with heq | ⟨item, loot', hitem, heq, hk, hm⟩
    · rw [heq]
      exact h.keep (Keeps.refl s.loot) rfl
    · rw [heq]
      exact h.logged hitem hok hk hm rfl
  | countTheRoll hroll hr =>
    rename_i i roll urand find disenchant r
    rcases Loot.countTheRoll_cases hr with
      ⟨hk, hres⟩ | ⟨item, guid, vote, hitem, haward, hfind, hloot, hres⟩
    · obtain ⟨loot', res⟩ := r
      cases hres
      exact h.keep hk rfl
    · obtain ⟨hopen, hdis⟩ := hok roll hroll guid vote haward hfind
      obtain ⟨loot', res⟩ := r
      cases hloot
      have hk := Loot.markAwarded_keeps s.loot roll.itemSlot
      have hm := Loot.markAwarded_marked s.loot roll.itemSlot
      rcases hres with rfl | ⟨hvote, rfl | rfl⟩
      · exact h.logged hitem hopen hk hm rfl
      · exact h.handOut hk hm (hdis hvote) rfl
      · exact h.keep hk rfl

end HandedOutOnce

/-- In every run within the condition, a slot that one player only may have is handed
out at most once by all three paths together. -/
theorem handOuts_run {store : ItemStore} {s₀ s : Distribution} {ops : List HandOut}
    (hnone : s₀.handedOut = [])
    (hrun : Run (HandOut.Step store) (fun s op => op.NotLooted s) s₀ ops s) :
    ∀ slot item, s.loot.getItemInSlot slot = some item → item.freeforall = false →
      s.handOuts slot ≤ 1 := by
  have h₀ : HandedOutOnce s₀ := by
    intro slot item _ _
    rw [Distribution.handOuts, hnone]
    exact ⟨Nat.zero_le 1, fun hp => absurd hp (Nat.lt_irrefl 0)⟩
  have h := hrun.invariant HandedOutOnce h₀ fun _ _ _ h hok hs => h.step hok hs
  exact fun slot item hitem hffa => (h slot item hitem hffa).1

section Example

def plainItem (needsQuest : Bool) : LootItem :=
  { LootItem.new plainStore ⟨100, false, needsQuest, []⟩ with count := 1 }

def questLoot : Loot :=
  let loot : Loot := { Loot.new 0 with
    items := [plainItem false], questItems := [plainItem true], unlootedCount := 3 }
  (loot.setCopies .quest 1 [⟨0, false⟩]).setCopies .quest 2 [⟨0, false⟩]

/-- The plain item is taken by player 1 and the quest item is given to player 2, after
which player 1's request for it finds nothing. -/
theorem handOuts_run_both :
    ∃ s ops, (∀ slot item, s.loot.getItemInSlot slot = some item → item.freeforall = false →
        s.handOuts slot ≤ 1) ∧ ops.length = 3 ∧ s.handedOut = [(1, 2), (0, 1)] ∧
      Run (HandOut.Step plainStore) (fun s op => op.NotLooted s) ⟨questLoot, [], []⟩ ops s := by
  have hrun : ∃ s, Run (HandOut.Step plainStore) (fun s op => op.NotLooted s)
      ⟨questLoot, [], []⟩
      [.storeLootItem (questPlayer 1 .masterLoot) 0,
        .masterGive (questPlayer 1 .masterLoot) (questPlayer 2 .masterLoot) true 1,
        .storeLootItem (questPlayer 1 .masterLoot) 0] s ∧ s.handedOut = [(1, 2), (0, 1)] := by
    refine ⟨_, .cons ?_ (.storeLootItem ..) (.cons ?_ (.masterGive ..) (.cons ?_
      (.storeLootItem ..) (.nil _))), by decide⟩
    · rintro v hv item hitem _ hl
      cases hv
      cases hitem
      cases hl
    · rintro item hitem _ hl
      cases hitem
      cases hl
    · rintro v hv
      cases hv
  obtain ⟨s, hrun, hlog⟩ := hrun
  exact ⟨s, _, handOuts_run rfl hrun, rfl, hlog, hrun⟩

/-- Players 1 and 2 both take the quest item, each through the own copy. -/
theorem handOuts_fails_ownCopy :
    ¬ ∀ (store : ItemStore) (s₀ s : Distribution) (ops : List HandOut), s₀.handedOut = [] →
      Run (HandOut.Step store) always s₀ ops s →
      ∀ slot item, s.loot.getItemInSlot slot = some item → item.freeforall = false →
        s.handOuts slot ≤ 1 := by
  intro hall
  have hrun : Run (HandOut.Step plainStore) always ⟨questLoot, [], []⟩
      [.storeLootItem (questPlayer 1 .groupLoot) 1, .storeLootItem (questPlayer 2 .groupLoot) 1] _ :=
    .cons trivial (.storeLootItem ..) (.cons trivial (.storeLootItem ..) (.nil _))
  have hle := hall plainStore _ _ _ rfl hrun 1 { plainItem true with isLooted := true } rfl rfl
  exact absurd hle (by decide)

end Example

end Ashamane.Looting
