import Ashamane.Spells.Expiry

/-! The cooldowns of a player through a duel: saved and reset when it starts, reset and restored
when it is won. -/
namespace Ashamane.Spells
open Ashamane.Lib

variable (A : Allocator) (M : SpellMgr)

inductive DuelCompleteType where
  | interrupted | won | fled
  deriving DecidableEq, Repr

open SpellHistory in
def SpellInfo.short (spellInfo : SpellInfo) : Bool :=
  spellInfo.RecoveryTime < tenMinutes && spellInfo.CategoryRecoveryTime < tenMinutes

open SpellHistory in
def SpellInfo.long (spellInfo : SpellInfo) : Bool :=
  spellInfo.RecoveryTime > tenMinutes || spellInfo.CategoryRecoveryTime > tenMinutes

namespace SpellHistory

def cooldownDuration (entry : CooldownEntry) (now : Int) : Nat :=
  if entry.CooldownEnd > now then
    ((entry.CooldownEnd - now) / nanosecondsPerMillisecond).toNat % 2 ^ 32
  else 0

def resetsAtStart (spellInfo : SpellInfo) (entry : CooldownEntry) (now : Int) : Bool :=
  let duration := cooldownDuration entry now
  spellInfo.short && !entry.OnHold && duration > 0 &&
    (spellInfo.RecoveryTime + 2 ^ 32 - duration) % 2 ^ 32 > 30 * 1000 &&
    (spellInfo.CategoryRecoveryTime + 2 ^ 32 - duration) % 2 ^ 32 > 30 * 1000

def resetsAtEnd (spellInfo : SpellInfo) (entry : CooldownEntry) : Bool :=
  spellInfo.short && !entry.OnHold

/-- `ResetSpellCooldowns` for the player; the clock is read for each spell. Every spell is asserted
to exist. -/
def resetSpellCooldowns (s : SpellHistory) (clock : Nat → Int) (onStartDuel : Bool) :
    Option SpellHistory :=
  if s.spellCooldowns.entries.all fun e => (M.getSpellInfo e.1).isSome then
    some (s.resetCooldowns fun spellId entry => (M.getSpellInfo spellId).any fun spellInfo =>
      if onStartDuel then resetsAtStart spellInfo entry (clock spellId)
      else resetsAtEnd spellInfo entry)
  else none

def onDuelStart (s : SpellHistory) (resetDuelCooldowns : Bool) (clock : Nat → Int) :
    Option SpellHistory :=
  if resetDuelCooldowns then s.saveCooldownStateBeforeDuel.resetSpellCooldowns M clock true
  else some s

def onDuelEnd (s : SpellHistory) (resetDuelCooldowns : Bool) (type : DuelCompleteType)
    (clock : Nat → Int) : Option SpellHistory :=
  if type = .won then
    if resetDuelCooldowns then
      (s.resetSpellCooldowns M clock false).bind fun s => s.restoreCooldownStateAfterDuel A M true
    else some s
  else some s

def applyOp (s : SpellHistory) : CooldownOp → Option SpellHistory
  | .addCooldown spellId itemId cooldownEnd categoryId categoryEnd onHold _ =>
    some (s.addCooldown A spellId itemId cooldownEnd categoryId categoryEnd onHold)
  | .update now => s.update now

variable {A M} {s t : SpellHistory}

/-! What was saved stays through resets and casts. -/

theorem before_eraseWhere (s : SpellHistory) (predicate : Nat → CooldownEntry → Bool) :
    (s.eraseWhere predicate).spellCooldownsBeforeDuel = s.spellCooldownsBeforeDuel :=
  eraseWhere_frame spellCooldownsBeforeDuel (fun _ _ _ => rfl) s predicate

theorem before_addCooldown (s : SpellHistory) (spellId itemId : Nat) (cooldownEnd : Int)
    (categoryId : Nat) (categoryEnd : Int) (onHold : Bool) :
    (s.addCooldown A spellId itemId cooldownEnd categoryId categoryEnd
      onHold).spellCooldownsBeforeDuel = s.spellCooldownsBeforeDuel := by
  have hpoint : ∀ (u : SpellHistory) (k c : Nat),
      (u.pointCategory k c).spellCooldownsBeforeDuel = u.spellCooldownsBeforeDuel := by
    intro u k c
    unfold pointCategory
    split
    · cases u.spellCooldowns.lookup k <;> rfl
    · rfl
  rw [addCooldown, hpoint, assign]
  cases s.spellCooldowns.lookup spellId <;> rfl

theorem before_update {now : Int} (h : s.update now = some t) :
    t.spellCooldownsBeforeDuel = s.spellCooldownsBeforeDuel := by
  obtain ⟨u, hu, rfl⟩ := update_frame spellCooldownsBeforeDuel (fun _ _ => rfl) (fun _ _ _ => rfl) h
  exact hu

theorem before_casts {casts : List CooldownOp} (h : casts.foldlM (applyOp A) s = some t) :
    t.spellCooldownsBeforeDuel = s.spellCooldownsBeforeDuel := by
  refine (Run.of_foldlM h).invariant
    (fun x => x.spellCooldownsBeforeDuel = s.spellCooldownsBeforeDuel) rfl ?_
  intro x op y hx _ hy
  cases op with
  | addCooldown =>
    obtain rfl := Option.some.inj hy
    exact (before_addCooldown x ..).trans hx
  | update => exact (before_update hy).trans hx

def isLong (M : SpellMgr) (k : Nat) : Bool := (M.getSpellInfo k).any SpellInfo.long

/-- The cooldowns of long spells that are there when the duel ends replace what was saved. -/
theorem keepLongCooldowns_spec (k : Nat) (l : List (Sigma fun _ : Nat => Node))
    (hnodup : l.NodupKeys) (hrun : l.foldlM (keepLongCooldown M) s = some t) :
    t.spellCooldowns = s.spellCooldowns ∧ t.spellCooldownsBeforeDuel.lookup k =
      match (l.dlookup k).filter fun _ => isLong M k with
      | some node => some node.entry
      | none => s.spellCooldownsBeforeDuel.lookup k := by
  induction l generalizing s with
  | nil =>
    obtain rfl := Option.some.inj hrun
    exact ⟨rfl, rfl⟩
  | cons e l ih =>
    obtain ⟨hnotin, hnodup⟩ := List.nodupKeys_cons.mp hnodup
    obtain ⟨u, hu, hrest⟩ := Option.bind_eq_some_iff.mp hrun
    have hstep : u.spellCooldowns = s.spellCooldowns ∧ u.spellCooldownsBeforeDuel =
        if isLong M e.1 then s.spellCooldownsBeforeDuel.insert e.1 e.2.entry
        else s.spellCooldownsBeforeDuel := by
      unfold keepLongCooldown at hu
      unfold isLong SpellInfo.long
      cases hinfo : M.getSpellInfo e.1 with
      | none =>
        rw [hinfo] at hu
        cases hu
      | some spellInfo =>
        rw [hinfo] at hu
        obtain rfl := Option.some.inj hu
        simp only [Option.any_some]
        split <;> exact ⟨rfl, rfl⟩
    obtain ⟨hspell, hbefore⟩ := ih hnodup hrest
    refine ⟨hspell.trans hstep.1, hbefore.trans ?_⟩
    rw [hstep.2]
    by_cases hk : e.1 = k
    · subst hk
      have hhead : List.dlookup e.1 (e :: l) = some e.2 := List.dlookup_cons_eq l e.1 e.2
      rw [List.dlookup_eq_none.mpr hnotin, hhead]
      cases hlong : isLong M e.1 with
      | true => exact AList.lookup_insert _
      | false => rfl
    · rw [List.dlookup_cons_ne _ _ (Ne.symm hk)]
      have hne : (if isLong M e.1 then s.spellCooldownsBeforeDuel.insert e.1 e.2.entry
          else s.spellCooldownsBeforeDuel).lookup k = s.spellCooldownsBeforeDuel.lookup k := by
        split
        · exact AList.lookup_insert_ne (Ne.symm hk)
        · rfl
      rw [hne]

def putBack (node : Node) (saved : Option CooldownEntry) : Node :=
  match saved with
  | none => node
  | some entry => if !entry.OnHold && !node.entry.OnHold then { node with entry } else node

theorem restoreCooldowns_spec (k : Nat) (l : List (Sigma fun _ : Nat => CooldownEntry))
    (hnodup : l.NodupKeys) (s : SpellHistory) :
    (l.foldl (restoreCooldown A) s).spellCooldowns.lookup k =
      (s.spellCooldowns.lookup k).map fun node => putBack node (l.dlookup k) := by
  induction l generalizing s with
  | nil => exact (Option.map_id' ..).symm
  | cons e l ih =>
    obtain ⟨hnotin, hnodup⟩ := List.nodupKeys_cons.mp hnodup
    rw [List.foldl_cons, ih hnodup]
    by_cases hk : e.1 = k
    · subst hk
      have hhead : List.dlookup e.1 (e :: l) = some e.2 := List.dlookup_cons_eq l e.1 e.2
      rw [List.dlookup_eq_none.mpr hnotin, hhead, restoreCooldown]
      cases hnode : s.spellCooldowns.lookup e.1 with
      | none =>
        have hnot : s.restores e = false := by simp [restores, hnode]
        rw [hnot, if_neg (by simp), hnode]
        rfl
      | some node =>
        have hrestores : s.restores e = (!e.2.OnHold && !node.entry.OnHold) := by
          simp [restores, hnode]
        rw [hrestores]
        simp only [putBack, Option.map_some]
        split
        · rw [lookup_assign_some A _ hnode]
          rfl
        · rw [hnode]
          rfl
    · rw [List.dlookup_cons_ne _ _ (Ne.symm hk)]
      congr 1
      rw [restoreCooldown]
      split
      · exact lookup_assign_ne A s _ (Ne.symm hk)
      · rfl

def afterDuel (M : SpellMgr) (k : Nat) (saved : Option CooldownEntry) (node : Node) :
    Option Node :=
  if (M.getSpellInfo k).any fun spellInfo => resetsAtEnd spellInfo node.entry then none
  else if isLong M k then some node
  else some (putBack node saved)

theorem lookup_onDuelEnd {clock : Nat → Int} (h : s.onDuelEnd A M true .won clock = some t)
    (k : Nat) : t.spellCooldowns.lookup k =
      (s.spellCooldowns.lookup k).bind (afterDuel M k (s.spellCooldownsBeforeDuel.lookup k)) := by
  obtain ⟨u, hu, ht⟩ := Option.bind_eq_some_iff.mp h
  unfold resetSpellCooldowns at hu
  split at hu
  swap
  · cases hu
  obtain rfl := Option.some.inj hu
  simp only [Bool.false_eq_true, if_false, resetCooldowns] at ht
  unfold restoreCooldownStateAfterDuel at ht
  rw [if_pos rfl] at ht
  cases hkeep : (s.eraseWhere fun spellId entry => (M.getSpellInfo spellId).any fun spellInfo =>
      resetsAtEnd spellInfo entry).spellCooldowns.entries.foldlM (keepLongCooldown M)
      (s.eraseWhere fun spellId entry => (M.getSpellInfo spellId).any fun spellInfo =>
        resetsAtEnd spellInfo entry) with
  | none =>
    rw [hkeep] at ht
    cases ht
  | some v =>
    rw [hkeep] at ht
    obtain rfl := Option.some.inj ht
    obtain ⟨hspell, hbefore⟩ := keepLongCooldowns_spec k _ (AList.nodupKeys _) hkeep
    rw [restoreCooldowns_spec k _ (AList.nodupKeys _), hspell]
    have hentries : ∀ m : AList fun _ : Nat => Node, List.dlookup k m.entries = m.lookup k :=
      fun _ => rfl
    rw [show List.dlookup k v.spellCooldownsBeforeDuel.entries =
      v.spellCooldownsBeforeDuel.lookup k from rfl, hbefore, before_eraseWhere, hentries,
      lookup_eraseWhere]
    cases hnode : s.spellCooldowns.lookup k with
    | none => rfl
    | some node =>
      rw [Option.bind_some, afterDuel]
      cases hreset : (M.getSpellInfo k).any fun spellInfo => resetsAtEnd spellInfo node.entry with
      | true => simp [Option.filter, hreset]
      | false =>
        cases hlong : isLong M k with
        | true => simp [Option.filter, hreset, putBack]
        | false => simp [Option.filter, hreset]

theorem before_onDuelStart {clock : Nat → Int} (h : s.onDuelStart M true clock = some t) (k : Nat) :
    t.spellCooldownsBeforeDuel.lookup k = (s.spellCooldowns.lookup k).map Node.entry := by
  rw [onDuelStart, if_pos rfl, resetSpellCooldowns] at h
  split at h
  · obtain rfl := Option.some.inj h
    rw [resetCooldowns, before_eraseWhere]
    exact Assoc.lookup_mapVal _ _ _
  · cases h

theorem known_onDuelStart {clock : Nat → Int} (h : s.onDuelStart M true clock = some t) {k : Nat}
    {node : Node} (hk : s.spellCooldowns.lookup k = some node) :
    ∃ spellInfo, M.getSpellInfo k = some spellInfo := by
  rw [onDuelStart, if_pos rfl, resetSpellCooldowns] at h
  by_cases hall : (s.saveCooldownStateBeforeDuel.spellCooldowns.entries.all fun e =>
      (M.getSpellInfo e.1).isSome) = true
  · have hmem : (⟨k, node⟩ : Sigma fun _ : Nat => Node) ∈ s.spellCooldowns.entries :=
      Assoc.mem_entries_iff.mpr hk
    exact Option.isSome_iff_exists.mp (List.all_eq_true.mp hall _ hmem)
  · rw [if_neg hall] at h
    cases h

structure DuelKeeps (M : SpellMgr) (s t : SpellHistory) (after : Int) : Prop where
  kept : ∀ k node, s.spellCooldowns.lookup k = some node → node.entry.OnHold = false →
    after < node.entry.CooldownEnd → ∃ left, t.spellCooldowns.lookup k = some left ∧
      node.entry.CooldownEnd ≤ left.entry.CooldownEnd
  gone : ∀ k spellInfo, M.getSpellInfo k = some spellInfo → spellInfo.short = true →
    s.spellCooldowns.lookup k = none → ∀ left, t.spellCooldowns.lookup k = some left →
      left.entry.OnHold = true

def Survives (spellInfo : SpellInfo) (cooldownEnd : Int) (entry : CooldownEntry) : Prop :=
  if entry.OnHold then cooldownEnd ≤ entry.CooldownEnd
  else spellInfo.short = false ∧ (spellInfo.long = true → cooldownEnd ≤ entry.CooldownEnd)

/-- A duel keeps the cooldowns of before it exactly if each of them that runs on has one at its end
that survives it. -/
theorem duelKeeps_iff {u v : SpellHistory} {start finish : Nat → Int} {casts : List CooldownOp}
    {after : Int} (hstart : s.onDuelStart M true start = some u)
    (hcasts : casts.foldlM (applyOp A) u = some v)
    (hend : v.onDuelEnd A M true .won finish = some t) :
    DuelKeeps M s t after ↔ ∀ k node spellInfo, s.spellCooldowns.lookup k = some node →
      node.entry.OnHold = false → after < node.entry.CooldownEnd →
      M.getSpellInfo k = some spellInfo → ∃ current, v.spellCooldowns.lookup k = some current ∧
        Survives spellInfo node.entry.CooldownEnd current.entry := by
  have hsaved : ∀ k, v.spellCooldownsBeforeDuel.lookup k =
      (s.spellCooldowns.lookup k).map Node.entry := by
    intro k
    rw [before_casts hcasts]
    exact before_onDuelStart hstart k
  have hleft := fun k => lookup_onDuelEnd hend k
  have hone : ∀ k node spellInfo, s.spellCooldowns.lookup k = some node →
      node.entry.OnHold = false → M.getSpellInfo k = some spellInfo →
      ((∃ left, t.spellCooldowns.lookup k = some left ∧
        node.entry.CooldownEnd ≤ left.entry.CooldownEnd) ↔
      ∃ current, v.spellCooldowns.lookup k = some current ∧
        Survives spellInfo node.entry.CooldownEnd current.entry) := by
    intro k node spellInfo hk hhold hinfo
    rw [hleft, hsaved, hk]
    cases v.spellCooldowns.lookup k with
    | none => simp
    | some current =>
      simp only [Option.bind_some, afterDuel, hinfo, Option.any_some, resetsAtEnd, isLong, putBack,
        Option.map_some, hhold, Survives, Option.some.injEq, exists_eq_left']
      cases spellInfo.short <;> cases spellInfo.long <;> cases hcur : current.entry.OnHold <;>
        simp
  constructor
  · intro h k node spellInfo hk hhold hafter hinfo
    exact (hone k node spellInfo hk hhold hinfo).mp (h.kept k node hk hhold hafter)
  · intro h
    refine ⟨fun k node hk hhold hafter => ?_, fun k spellInfo hinfo hshort hk left hleftk => ?_⟩
    · obtain ⟨spellInfo, hinfo⟩ := known_onDuelStart hstart hk
      exact (hone k node spellInfo hk hhold hinfo).mpr (h k node spellInfo hk hhold hafter hinfo)
    · rw [hleft, hsaved, hk] at hleftk
      cases hcur : v.spellCooldowns.lookup k with
      | none =>
        rw [hcur] at hleftk
        cases hleftk
      | some current =>
        rw [hcur] at hleftk
        simp only [Option.bind_some, afterDuel, hinfo, Option.any_some, resetsAtEnd, hshort,
          Option.map_none, putBack, Bool.true_and] at hleftk
        cases hhold : current.entry.OnHold with
        | false => simp [hhold] at hleftk
        | true =>
          have hsame : current = left := by
            simpa [hhold] using hleftk
          rw [← hsame]
          exact hhold

def twoSpells : SpellMgr where
  getSpellInfo k :=
    if k = 1 then some ⟨0, 300000, 0, 0, 0, false⟩
    else if k = 2 then some ⟨0, 900000, 0, 0, 0, false⟩
    else none
  hasCategory _ := false

def onCooldown (spellId : Nat) : SpellHistory :=
  addCooldown nextAddress {} spellId 0 (240 * nanosecondsPerSecond) 0 0 false

/-- The long cooldown is kept through a duel in which the short spell is cast. -/
theorem duelKeeps_long : ∃ u v t, onDuelStart twoSpells (onCooldown 2) true (fun _ => 0) = some u ∧
    [CooldownOp.addCooldown 1 0 (310 * nanosecondsPerSecond) 0 0 false 0].foldlM
      (applyOp nextAddress) u = some v ∧
    onDuelEnd nextAddress twoSpells v true .won (fun _ => 0) = some t ∧
    DuelKeeps twoSpells (onCooldown 2) t (20 * nanosecondsPerSecond) := by
  let casts := [CooldownOp.addCooldown 1 0 (310 * nanosecondsPerSecond) 0 0 false 0]
  let u := (onDuelStart twoSpells (onCooldown 2) true (fun _ => 0)).getD {}
  let v := (casts.foldlM (applyOp nextAddress) u).getD {}
  let t := (onDuelEnd nextAddress twoSpells v true .won (fun _ => 0)).getD {}
  have hstart : onDuelStart twoSpells (onCooldown 2) true (fun _ => 0) = some u := rfl
  have hcasts : casts.foldlM (applyOp nextAddress) u = some v := rfl
  have hend : onDuelEnd nextAddress twoSpells v true .won (fun _ => 0) = some t := rfl
  refine ⟨u, v, t, hstart, hcasts, hend, (duelKeeps_iff hstart hcasts hend).mpr ?_⟩
  intro k node spellInfo hk hhold hafter hinfo
  by_cases h2 : k = 2
  · subst h2
    obtain rfl := Option.some.inj hk
    obtain rfl := Option.some.inj hinfo
    exact ⟨_, rfl, by unfold Survives; decide⟩
  · have hnone : (onCooldown 2).spellCooldowns.lookup k = none :=
      (AList.lookup_insert_ne h2).trans (AList.lookup_empty k)
    rw [hnone] at hk
    cases hk

/-- The short cooldown is reset when the duel starts, and is not restored. -/
theorem not_duelKeeps_short : ∃ u t,
    onDuelStart twoSpells (onCooldown 1) true (fun _ => 0) = some u ∧
    onDuelEnd nextAddress twoSpells u true .won (fun _ => 0) = some t ∧
    ¬ DuelKeeps twoSpells (onCooldown 1) t (20 * nanosecondsPerSecond) := by
  refine ⟨_, _, rfl, rfl, fun h => ?_⟩
  obtain ⟨left, hleft, _⟩ := h.kept 1 ⟨1, 1, 240 * nanosecondsPerSecond, 0, 0, 0, false⟩ rfl rfl
    (by decide)
  cases hleft

end SpellHistory

end Ashamane.Spells
