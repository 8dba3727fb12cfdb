import Ashamane.Lib.Assoc
import Ashamane.Lib.Count
import Ashamane.Lib.Run

/-! The rolls of a group for the items of a loot, with the votes of the players. -/
namespace Ashamane.Rolls

open Lib

inductive RollVote where
  | pass
  | need
  | greed
  | disenchant
  | notEmitedYet
  | notValid
  deriving DecidableEq, Repr

/-- `ROLL_PASS` to `ROLL_DISENCHANT`, by the number in the message. -/
def rollVote : Nat → Option RollVote
  | 0 => some .pass
  | 1 => some .need
  | 2 => some .greed
  | 3 => some .disenchant
  | _ => none

def rollFlagTypeNeed : BitVec 8 := 0x02
def rollFlagTypeDisenchant : BitVec 8 := 0x08
def rollAllTypeNoDisenchant : BitVec 8 := 0x07

structure Roll where
  lootGuid : Nat
  itemSlot : Nat
  playerVote : AList fun _ : Nat => RollVote
  totalPlayersRolling : Nat
  totalNeed : Nat
  totalGreed : Nat
  totalPass : Nat
  rollVoteMask : BitVec 8

structure LootItem where
  isLooted : Bool := false
  isBlocked : Bool := false
  deriving DecidableEq, Repr

structure Loot where
  items : List LootItem
  questItems : List LootItem
  unlootedCount : Nat
  deriving DecidableEq, Repr

structure State where
  rollId : List Roll
  loots : Nat → Option Loot
  counted : List Roll
  awards : List (Nat × RollVote)

structure World where
  urand : Nat → Nat
  connected : Nat → Bool
  canStore : Nat → Bool
  disenchantLoot : Bool

namespace Loot

def modifyItem (loot : Loot) (slot : Nat) (f : LootItem → LootItem) : Loot :=
  if slot < loot.items.length then { loot with items := loot.items.modify slot f }
  else { loot with questItems := loot.questItems.modify (slot - loot.items.length) f }

def take (loot : Loot) (slot : Nat) : Loot :=
  { loot.modifyItem slot fun item => { item with isLooted := true } with
    unlootedCount := (loot.unlootedCount + 2 ^ 32 - 1) % 2 ^ 32 }

def unblock (loot : Loot) (slot : Nat) : Loot :=
  loot.modifyItem slot fun item => { item with isBlocked := false }

end Loot

namespace Roll

def countVote (r : Roll) : RollVote → Roll
  | .pass => { r with totalPass := (r.totalPass + 1) % 2 ^ 8 }
  | .need => { r with totalNeed := (r.totalNeed + 1) % 2 ^ 8 }
  | .greed | .disenchant => { r with totalGreed := (r.totalGreed + 1) % 2 ^ 8 }
  | .notEmitedYet | .notValid => r

/-- The roll that `GroupLoot` begins, with the players who may have the item and whether they
pass on group loot. -/
def begun (lootGuid itemSlot : Nat) (rollVoteMask : BitVec 8) (players : AList fun _ : Nat => Bool) :
    Roll where
  lootGuid
  itemSlot
  playerVote := Assoc.mapVal (fun _ pass => if pass then .pass else .notEmitedYet) players
  totalPlayersRolling := players.entries.length % 2 ^ 8
  totalNeed := 0
  totalGreed := 0
  totalPass := Assoc.total Bool.toNat players % 2 ^ 8
  rollVoteMask

def vote (r : Roll) (guid : Nat) (v : RollVote) : Roll :=
  { r.countVote v with playerVote := Assoc.modify guid (fun _ => v) r.playerVote }

def isComplete (r : Roll) : Bool :=
  r.totalPlayersRolling ≤ r.totalPass + r.totalNeed + r.totalGreed

/-- Who has drawn the highest number among the votes that take part; it is the first of the map
when nobody does. It is not asked for without votes. -/
def winner (w : World) (r : Roll) (takesPart : RollVote → Bool) : Nat × RollVote :=
  let best := r.playerVote.entries.foldl (fun best e =>
    if takesPart e.2 && best.1 < w.urand e.1 then (w.urand e.1, e.1, e.2) else best)
    (0, (r.playerVote.entries.head?.map (·.1)).getD 0, RollVote.notValid)
  best.2

/-- The rolls that a player is asked for: he may be barred from need, and disenchant goes by the
enchanters of the group. -/
def validRolls (r : Roll) (canNeed canDisenchant : Bool) : BitVec 8 :=
  let mask := if canNeed then r.rollVoteMask else r.rollVoteMask &&& ~~~rollFlagTypeNeed
  if canDisenchant then mask ||| rollFlagTypeDisenchant else mask

end Roll

namespace State

def loot (s : State) (r : Roll) : Option Loot := s.loots r.lootGuid

def setLoot (s : State) (r : Roll) (f : Loot → Loot) : State :=
  { s with loots := Function.update s.loots r.lootGuid ((s.loot r).map f) }

def matchesRoll (s : State) (lootGuid slot : Nat) (r : Roll) : Bool :=
  (s.loot r).isSome && r.lootGuid == lootGuid && r.itemSlot == slot

def getRoll (s : State) (lootGuid slot : Nat) : Option (Nat × Roll) :=
  (s.rollId.findIdx? (s.matchesRoll lootGuid slot)).bind fun i =>
    s.rollId[i]?.map fun r => (i, r)

def eraseRoll (s : State) (i : Nat) : State := { s with rollId := s.rollId.eraseIdx i }

def giveItem (w : World) (s : State) (r : Roll) (guid : Nat) (v : RollVote) : State :=
  if w.canStore guid then
    { s.setLoot r (·.take r.itemSlot) with awards := (guid, v) :: s.awards }
  else s.setLoot r (·.unblock r.itemSlot)

/-- `CountTheRoll` for the roll at index `i`. Without disenchant loot it is left early. -/
def countTheRoll (w : World) (s : State) (i : Nat) (r : Roll) : State :=
  let s := { s with counted := r :: s.counted }
  if (s.loot r).isNone then s.eraseRoll i
  else if 0 < r.totalNeed then
    let (guid, _) := r.winner w (· == .need)
    if r.playerVote.entries ≠ [] ∧ w.connected guid then (s.giveItem w r guid .need).eraseRoll i
    else s.eraseRoll i
  else if 0 < r.totalGreed then
    let (guid, v) := r.winner w fun v => v == .greed || v == .disenchant
    if r.playerVote.entries ≠ [] ∧ w.connected guid then
      match v with
      | .greed => (s.giveItem w r guid .greed).eraseRoll i
      | .disenchant =>
        let taken := s.setLoot r (·.take r.itemSlot)
        if w.disenchantLoot then
          { taken with awards := (guid, .disenchant) :: taken.awards }.eraseRoll i
        else taken
      | _ => s.eraseRoll i
    else s.eraseRoll i
  else (s.setLoot r (·.unblock r.itemSlot)).eraseRoll i

def countRollVote (w : World) (s : State) (guid lootGuid slot choice : Nat) : State :=
  match s.getRoll lootGuid slot with
  | none => s
  | some (i, r) =>
    if guid ∉ r.playerVote then s
    else if (s.loot r).any (·.items.isEmpty) then s
    else
      let voted := ((rollVote choice).map (r.vote guid)).getD r
      let s := { s with rollId := s.rollId.set i voted }
      if voted.isComplete then s.countTheRoll w i voted else s

end State

structure Message where
  guid : Nat
  lootGuid : Nat
  slot : Nat
  choice : Nat
  canNeed : Bool
  canDisenchant : Bool
  world : World

def Step (s : State) (m : Message) (s' : State) : Prop :=
  s' = s.countRollVote m.world m.guid m.lootGuid m.slot m.choice

end Ashamane.Rolls

/-! The totals of a roll are the numbers of the votes, as long as nobody votes twice. -/
namespace Ashamane.Rolls

open Lib

def RollVote.emitted : RollVote → Bool
  | .notEmitedYet | .notValid => false
  | _ => true

def RollVote.isGreed : RollVote → Bool
  | .greed | .disenchant => true
  | _ => false

namespace Roll

variable {r : Roll} {guid : Nat} {v : RollVote}

def votes (r : Roll) (f : RollVote → Bool) : Nat := r.playerVote.entries.countP fun e => f e.2

structure Exact (r : Roll) : Prop where
  need : r.totalNeed = r.votes (· == .need)
  greed : r.totalGreed = r.votes RollVote.isGreed
  pass : r.totalPass = r.votes (· == .pass)
  players : r.totalPlayersRolling = r.playerVote.entries.length
  byte : r.playerVote.entries.length < 2 ^ 8

theorem votes_le (f : RollVote → Bool) : r.votes f ≤ r.playerVote.entries.length :=
  List.countP_le_length

theorem votes_emitted :
    r.votes (· == .pass) + r.votes (· == .need) + r.votes RollVote.isGreed =
      r.votes RollVote.emitted := by
  unfold votes
  induction r.playerVote.entries with
  | nil => rfl
  | cons e l ih =>
    obtain ⟨guid, v⟩ := e
    rw [List.countP_cons, List.countP_cons, List.countP_cons, List.countP_cons, ← ih]
    cases v <;> simp [RollVote.isGreed, RollVote.emitted] <;> omega

theorem Exact.counted (h : r.Exact) :
    r.totalPass + r.totalNeed + r.totalGreed = r.votes RollVote.emitted := by
  rw [h.pass, h.need, h.greed]
  exact votes_emitted

theorem Exact.all_emitted (h : r.Exact) (hcomplete : r.isComplete = true)
    (hv : r.playerVote.lookup guid = some v) : v.emitted = true := by
  unfold isComplete at hcomplete
  rw [decide_eq_true_eq, h.counted, h.players] at hcomplete
  have hall : r.votes RollVote.emitted = r.playerVote.entries.length :=
    Nat.le_antisymm (votes_le _) hcomplete
  exact List.countP_eq_length.mp hall ⟨guid, v⟩ (Assoc.mem_entries_iff.mpr hv)

theorem votes_vote (f : RollVote → Bool) (w : RollVote)
    (hv : r.playerVote.lookup guid = some .notEmitedYet) (hf : f .notEmitedYet = false) :
    (r.vote guid w).votes f = r.votes f + (f w).toNat := by
  have htotal := Assoc.total_modify (fun v => (f v).toNat) (fun _ => w) hv
  rw [hf, Bool.toNat_false, Nat.add_zero] at htotal
  unfold votes
  rw [countP_eq_sum, countP_eq_sum]
  exact htotal

theorem Exact.vote (h : r.Exact) (hv : r.playerVote.lookup guid = some .notEmitedYet)
    (w : RollVote) : (r.vote guid w).Exact := by
  have hlength : (r.vote guid w).playerVote.entries.length = r.playerVote.entries.length :=
    List.length_map _
  have hplayers : (r.vote guid w).totalPlayersRolling = r.totalPlayersRolling := by
    cases w <;> rfl
  have hbyte := h.byte
  have hfits : ∀ f : RollVote → Bool, (r.vote guid w).votes f < 2 ^ 8 := fun f =>
    Nat.lt_of_le_of_lt (votes_le f) (hlength ▸ hbyte)
  have hneed := hfits (· == .need)
  have hgreed := hfits RollVote.isGreed
  have hpass := hfits (· == .pass)
  rw [votes_vote _ w hv rfl] at hneed hgreed hpass
  refine ⟨?_, ?_, ?_, ?_, hlength ▸ hbyte⟩
  · rw [votes_vote _ w hv rfl, ← h.need]
    rw [← h.need] at hneed
    cases w with
    | need => exact Nat.mod_eq_of_lt hneed
    | _ => rfl
  · rw [votes_vote _ w hv rfl, ← h.greed]
    rw [← h.greed] at hgreed
    cases w with
    | greed => exact Nat.mod_eq_of_lt hgreed
    | disenchant => exact Nat.mod_eq_of_lt hgreed
    | _ => rfl
  · rw [votes_vote _ w hv rfl, ← h.pass]
    rw [← h.pass] at hpass
    cases w with
    | pass => exact Nat.mod_eq_of_lt hpass
    | _ => rfl
  · rw [hplayers, hlength, h.players]

/-- What `GroupLoot` begins, for a raid at most. -/
theorem exact_begun (lootGuid slot : Nat) (mask : BitVec 8) {players : AList fun _ : Nat => Bool}
    (hraid : players.entries.length ≤ 40) : (begun lootGuid slot mask players).Exact := by
  have hlength : (begun lootGuid slot mask players).playerVote.entries.length =
      players.entries.length := List.length_map _
  have hvotes : ∀ f : RollVote → Bool, (begun lootGuid slot mask players).votes f =
      players.entries.countP fun e => f (if e.2 then .pass else .notEmitedYet) := by
    intro f
    unfold votes begun
    rw [Assoc.mapVal_entries, List.countP_map]
    rfl
  have hnone : ∀ f : RollVote → Bool, f .pass = false → f .notEmitedYet = false →
      (begun lootGuid slot mask players).votes f = 0 := by
    intro f hp hn
    rw [hvotes, List.countP_eq_zero]
    intro e _
    cases e.2 <;> simp [hp, hn]
  have hpass : (begun lootGuid slot mask players).votes (· == .pass) =
      Assoc.total Bool.toNat players := by
    rw [hvotes, countP_eq_sum]
    unfold Assoc.total
    refine congr_arg List.sum (List.map_congr_left fun e _ => ?_)
    cases e.2 <;> rfl
  refine ⟨(hnone _ rfl rfl).symm, (hnone _ rfl rfl).symm, ?_, ?_, ?_⟩
  · have hle := @votes_le (begun lootGuid slot mask players) (· == .pass)
    rw [hlength, hpass] at hle
    rw [hpass]
    exact Nat.mod_eq_of_lt (by omega)
  · rw [hlength]
    exact Nat.mod_eq_of_lt (by omega)
  · omega

end Roll

namespace State

structure VotesExact (s : State) : Prop where
  rolls : ∀ r ∈ s.rollId, r.Exact
  counted : ∀ r ∈ s.counted, r.Exact ∧
    ∀ guid v, r.playerVote.lookup guid = some v → v.emitted = true

variable {s : State} {w : World} {i : Nat} {r : Roll}

structure Counted (s : State) (r : Roll) (s' : State) : Prop where
  rolls : ∀ r' ∈ s'.rollId, r' ∈ s.rollId
  counted : s'.counted = r :: s.counted

theorem countTheRoll_counted : Counted s r (s.countTheRoll w i r) := by
  have herase : ∀ t : State, t.rollId = s.rollId → t.counted = r :: s.counted →
      Counted s r (t.eraseRoll i) := fun t hrolls hcounted =>
    ⟨fun r' hr' => hrolls ▸ List.mem_of_mem_eraseIdx hr', hcounted⟩
  have hgive : ∀ (t : State) (guid : Nat) (v : RollVote), t.rollId = s.rollId →
      t.counted = r :: s.counted → Counted s r ((t.giveItem w r guid v).eraseRoll i) := by
    intro t guid v hrolls hcounted
    unfold giveItem
    split <;> exact herase _ hrolls hcounted
  unfold countTheRoll
  simp only
  split
  · exact herase _ rfl rfl
  · split
    · split
      · exact hgive _ _ _ rfl rfl
      · exact herase _ rfl rfl
    · split
      · split
        · split
          · exact hgive _ _ _ rfl rfl
          · split
            · exact herase _ rfl rfl
            · exact ⟨fun _ h => h, rfl⟩
          · exact herase _ rfl rfl
        · exact herase _ rfl rfl
      · exact herase _ rfl rfl

end State

def Message.Fair (s : State) (m : Message) : Prop :=
  ∀ i r, s.getRoll m.lootGuid m.slot = some (i, r) → m.guid ∈ r.playerVote →
    ((s.loot r).any fun loot => loot.items.isEmpty) = false →
    r.playerVote.lookup m.guid = some .notEmitedYet ∧ m.choice < 4 ∧
      (r.validRolls m.canNeed m.canDisenchant).getLsbD m.choice = true

namespace State

variable {s s' : State} {m : Message}

theorem VotesExact.step (h : s.VotesExact) (hfair : m.Fair s) (hstep : Step s m s') :
    s'.VotesExact := by
  unfold Step countRollVote at hstep
  cases hroll : s.getRoll m.lootGuid m.slot with
  | none =>
    rw [hroll] at hstep
    exact hstep ▸ h
  | some found =>
    obtain ⟨i, r⟩ := found
    simp only [hroll] at hstep
    split at hstep
    · exact hstep ▸ h
    · next hvoter =>
      split at hstep
      · exact hstep ▸ h
      · next hloot =>
        obtain ⟨hfirst, hchoice, -⟩ := hfair i r hroll (not_not.mp hvoter)
          (Bool.eq_false_iff.mpr hloot)
        have hr : r ∈ s.rollId := by
          unfold getRoll at hroll
          obtain ⟨j, -, hj⟩ := Option.bind_eq_some_iff.mp hroll
          obtain ⟨r', hr', heq⟩ := Option.map_eq_some_iff.mp hj
          cases heq
          exact List.mem_of_getElem? hr'
        have hvoted : ∃ v, ((rollVote m.choice).map (r.vote m.guid)).getD r = r.vote m.guid v := by
          match m.choice, hchoice with
          | 0, _ => exact ⟨_, rfl⟩
          | 1, _ => exact ⟨_, rfl⟩
          | 2, _ => exact ⟨_, rfl⟩
          | 3, _ => exact ⟨_, rfl⟩
        obtain ⟨v, hv⟩ := hvoted
        rw [hv] at hstep
        have hexact : (r.vote m.guid v).Exact := (h.rolls r hr).vote hfirst v
        have hrolls : ∀ r' ∈ s.rollId.set i (r.vote m.guid v), r'.Exact := by
          intro r' hr'
          obtain hr' | rfl := List.mem_or_eq_of_mem_set hr'
          · exact h.rolls r' hr'
          · exact hexact
        split at hstep
        · next hcomplete =>
          have hcounted := @countTheRoll_counted { s with rollId := s.rollId.set i (r.vote m.guid v) }
            m.world i (r.vote m.guid v)
          rw [← hstep] at hcounted
          refine ⟨fun r' hr' => hrolls r' (hcounted.rolls r' hr'), fun r' hr' => ?_⟩
          rw [hcounted.counted] at hr'
          obtain rfl | hr' := List.mem_cons.mp hr'
          · exact ⟨hexact, fun _ _ => hexact.all_emitted hcomplete⟩
          · exact h.counted r' hr'
        · rw [hstep]
          exact ⟨hrolls, h.counted⟩

end State

/-- In a run of first votes that were asked for the totals are exact, and no roll is counted
before everybody has voted. -/
theorem votes_run {s s' : State} {ms : List Message}
    (hbegun : ∀ r ∈ s.rollId, ∃ lootGuid slot mask players,
      players.entries.length ≤ 40 ∧ r = Roll.begun lootGuid slot mask players)
    (hcounted : s.counted = []) (hrun : Run Step (fun s m => m.Fair s) s ms s') :
    s'.VotesExact := by
  refine hrun.invariant State.VotesExact ⟨fun r hr => ?_, fun r hr => ?_⟩
    fun _ _ _ h hfair hstep => h.step hfair hstep
  · obtain ⟨lootGuid, slot, mask, players, hraid, rfl⟩ := hbegun r hr
    exact Roll.exact_begun lootGuid slot mask hraid
  · rw [hcounted] at hr
    cases hr

def twoPlayers : State where
  rollId := [.begun 7 0 rollAllTypeNoDisenchant ((AList.singleton 2 false).insert 1 false)]
  loots _ := some ⟨[{ isBlocked := true }], [], 1⟩
  counted := []
  awards := []

def votesFor (guid choice : Nat) : Message :=
  ⟨guid, 7, 0, choice, true, false, ⟨fun guid => 10 * guid, fun _ => true, fun _ => true, false⟩⟩

/-- The votes of both players resolve the roll; a repeated one finds no roll any more. -/
theorem votes_run_two :
    let vote := fun (s : State) (m : Message) =>
      s.countRollVote m.world m.guid m.lootGuid m.slot m.choice
    let s := [votesFor 1 1, votesFor 2 2, votesFor 1 1].foldl vote twoPlayers
    s.VotesExact ∧ s.awards = [(1, .need)] := by
  intro vote s
  refine ⟨@votes_run twoPlayers _ [votesFor 1 1, votesFor 2 2, votesFor 1 1] (fun r hr => ?_) rfl
    (.cons (fun i r hroll _ _ => ?_) rfl (.cons (fun i r hroll _ _ => ?_) rfl
      (.cons (fun i r hroll _ _ => ?_) rfl (.nil _)))), by decide⟩
  · rw [List.mem_singleton.mp hr]
    exact ⟨_, _, _, _, by decide, rfl⟩
  · have hfound : twoPlayers.getRoll 7 0 = some (0, twoPlayers.rollId.head (by decide)) := rfl
    obtain ⟨rfl, rfl⟩ := Prod.mk.inj (Option.some.inj (hfound.symm.trans hroll))
    decide
  · set first := vote twoPlayers (votesFor 1 1)
    have hfound : first.getRoll 7 0 = some (0, first.rollId.head (by decide)) := rfl
    obtain ⟨rfl, rfl⟩ := Prod.mk.inj (Option.some.inj (hfound.symm.trans hroll))
    decide
  · have hgone : (vote (vote twoPlayers (votesFor 1 1)) (votesFor 2 2)).getRoll 7 0 = none := rfl
    cases hgone.symm.trans hroll

/-- Player 1 votes need twice and gets the item before player 2 has voted. -/
theorem votes_fails_twice :
    let s := (twoPlayers.countRollVote (votesFor 1 1).world 1 7 0 1).countRollVote
      (votesFor 1 1).world 1 7 0 1
    s.rollId.length = 0 ∧ s.awards = [(1, .need)] ∧ ¬ s.VotesExact := by
  refine ⟨by decide, by decide, fun h => ?_⟩
  have hcounted := (h.counted _ List.mem_cons_self).2 2 .notEmitedYet (by decide)
  exact absurd hcounted (by decide)

end Ashamane.Rolls
