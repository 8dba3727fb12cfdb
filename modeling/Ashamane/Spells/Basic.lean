import Ashamane.Lib.Run
import Ashamane.Lib.Assoc

/-! The cooldowns of a unit: entries by spell, and for each category a pointer to the entry
that started it. Times are nanoseconds. -/
namespace Ashamane.Spells
open Ashamane.Lib

def MAX_SPELL_SCHOOL : Nat := 7

def SPELL_PREVENTION_TYPE_SILENCE : Nat := 1

def nanosecondsPerMillisecond : Int := 1000000

def nanosecondsPerSecond : Int := 1000000000

structure CooldownEntry where
  SpellId : Nat := 0
  CooldownEnd : Int := 0
  ItemId : Nat := 0
  CategoryId : Nat := 0
  CategoryEnd : Int := 0
  OnHold : Bool := false
  deriving DecidableEq, Repr

structure ChargeEntry where
  RechargeStart : Int
  RechargeEnd : Int
  deriving DecidableEq, Repr

/-- An element of the map of cooldowns, which stays where it was allocated. -/
structure Node where
  addr : Nat
  entry : CooldownEntry
  deriving DecidableEq, Repr

structure SpellHistory where
  spellCooldowns : AList fun _ : Nat => Node := ∅
  spellCooldownsBeforeDuel : AList fun _ : Nat => CooldownEntry := ∅
  categoryCooldowns : AList fun _ : Nat => Nat := ∅
  schoolLockouts : Fin MAX_SPELL_SCHOOL → Int := fun _ => 0
  categoryCharges : AList fun _ : Nat => List ChargeEntry := ∅

structure SpellInfo where
  Category : Nat
  RecoveryTime : Nat
  CategoryRecoveryTime : Nat
  SchoolMask : Nat
  PreventionType : Nat
  cooldownStartedOnEvent : Bool

structure SpellMgr where
  getSpellInfo : Nat → Option SpellInfo
  hasCategory : Nat → Bool

/-- Where new elements are put: not where one lies. An address may be used again. -/
structure Allocator where
  alloc : List Nat → Nat
  alloc_notMem : ∀ l, alloc l ∉ l

variable (A : Allocator) (M : SpellMgr)

namespace SpellHistory

def addrs (s : SpellHistory) : List Nat := s.spellCooldowns.entries.map fun e => e.2.addr

/-- The entry at an address; `none` is the use of a pointer to an erased element. -/
def deref (s : SpellHistory) (addr : Nat) : Option CooldownEntry :=
  (s.spellCooldowns.entries.find? fun e => e.2.addr = addr).map fun e => e.2.entry

/-- `_spellCooldowns[spellId] = entry`: an element that exists is overwritten in place. -/
def assign (s : SpellHistory) (spellId : Nat) (entry : CooldownEntry) : SpellHistory :=
  match s.spellCooldowns.lookup spellId with
  | some node =>
    { s with spellCooldowns := s.spellCooldowns.insert spellId { node with entry } }
  | none =>
    { s with spellCooldowns := s.spellCooldowns.insert spellId ⟨A.alloc s.addrs, entry⟩ }

/-- `_categoryCooldowns[categoryId] = &_spellCooldowns[spellId]`, for a category. -/
def pointCategory (s : SpellHistory) (spellId categoryId : Nat) : SpellHistory :=
  if categoryId ≠ 0 then
    match s.spellCooldowns.lookup spellId with
    | some node => { s with categoryCooldowns := s.categoryCooldowns.insert categoryId node.addr }
    | none => s
  else s

def eraseCooldown (s : SpellHistory) (spellId : Nat) (entry : CooldownEntry) : SpellHistory :=
  { s with
    categoryCooldowns := s.categoryCooldowns.erase entry.CategoryId
    spellCooldowns := s.spellCooldowns.erase spellId }

/-- A row of the table of cooldowns; `ItemId` is missing in those of pets. -/
structure CooldownRow where
  spellId : Nat
  itemId : Option Nat
  cooldownEnd : Nat
  categoryId : Nat
  categoryEnd : Nat
  deriving DecidableEq, Repr

structure ChargeRow where
  categoryId : Nat
  rechargeStart : Nat
  rechargeEnd : Nat
  deriving DecidableEq, Repr

def readCooldown (row : CooldownRow) : Option (Nat × CooldownEntry) :=
  match M.getSpellInfo row.spellId with
  | none => none
  | some _ => some (row.spellId,
    { SpellId := row.spellId
      CooldownEnd := row.cooldownEnd * nanosecondsPerSecond
      ItemId := row.itemId.getD 0
      CategoryId := row.categoryId
      CategoryEnd := row.categoryEnd * nanosecondsPerSecond })

def loadCooldown (s : SpellHistory) (row : CooldownRow) : SpellHistory :=
  match readCooldown M row with
  | none => s
  | some (spellId, cooldown) =>
    (s.assign A spellId cooldown).pointCategory spellId cooldown.CategoryId

def loadCharge (s : SpellHistory) (row : ChargeRow) : SpellHistory :=
  if M.hasCategory row.categoryId then
    let charges := (s.categoryCharges.lookup row.categoryId).getD []
    let charge : ChargeEntry :=
      ⟨row.rechargeStart * nanosecondsPerSecond, row.rechargeEnd * nanosecondsPerSecond⟩
    { s with categoryCharges := s.categoryCharges.insert row.categoryId (charges ++ [charge]) }
  else s

def loadFromDB (s : SpellHistory) (cooldowns : List CooldownRow) (charges : List ChargeRow) :
    SpellHistory :=
  charges.foldl (loadCharge M) (cooldowns.foldl (loadCooldown A M) s)

/-- The first loop of `update`: categories that have run out. -/
def updateCategory (now : Int) (s : SpellHistory) (category : Sigma fun _ : Nat => Nat) :
    Option SpellHistory :=
  match s.deref category.2 with
  | none => none
  | some entry =>
    some (if entry.CategoryEnd < now then
      { s with categoryCooldowns := s.categoryCooldowns.erase category.1 } else s)

/-- A loop over the map that erases the elements which `predicate` holds of. -/
def eraseWhere (s : SpellHistory) (predicate : Nat → CooldownEntry → Bool) : SpellHistory :=
  s.spellCooldowns.entries.foldl
    (fun s e => if predicate e.1 e.2.entry then s.eraseCooldown e.1 e.2.entry else s) s

def update (s : SpellHistory) (now : Int) : Option SpellHistory :=
  match s.categoryCooldowns.entries.foldlM (updateCategory now) s with
  | none => none
  | some s =>
    let s := s.eraseWhere fun _ entry => entry.CooldownEnd < now
    some { s with
      categoryCharges := Assoc.mapVal
        (fun _ charges => charges.dropWhile fun charge => charge.RechargeEnd ≤ now)
        s.categoryCharges }

def addCooldown (s : SpellHistory) (spellId itemId : Nat) (cooldownEnd : Int) (categoryId : Nat)
    (categoryEnd : Int) (onHold : Bool) : SpellHistory :=
  let entry : CooldownEntry :=
    { SpellId := spellId, CooldownEnd := cooldownEnd, ItemId := itemId, CategoryId := categoryId
      CategoryEnd := categoryEnd, OnHold := onHold }
  (s.assign A spellId entry).pointCategory spellId categoryId

def modifyCooldown (s : SpellHistory) (spellId : Nat) (offset now : Int) : SpellHistory :=
  match s.spellCooldowns.lookup spellId with
  | none => s
  | some node =>
    if offset = 0 then s
    else if node.entry.CooldownEnd + offset > now then
      let entry := { node.entry with CooldownEnd := node.entry.CooldownEnd + offset }
      { s with spellCooldowns := s.spellCooldowns.insert spellId { node with entry } }
    else s.eraseCooldown spellId node.entry

def resetCooldown (s : SpellHistory) (spellId : Nat) : SpellHistory :=
  match s.spellCooldowns.lookup spellId with
  | none => s
  | some node => s.eraseCooldown spellId node.entry

def resetCooldowns (s : SpellHistory) (predicate : Nat → CooldownEntry → Bool) : SpellHistory :=
  s.eraseWhere predicate

def resetAllCooldowns (s : SpellHistory) : SpellHistory :=
  { s with categoryCooldowns := ∅, spellCooldowns := ∅ }

def getRemainingCooldown (s : SpellHistory) (spellId : Nat) (spellInfo : SpellInfo) (now : Int) :
    Option Nat :=
  let remaining (endTime : Int) : Nat :=
    if endTime < now then 0
    else ((endTime - now) / nanosecondsPerMillisecond).toNat % 2 ^ 32
  match s.spellCooldowns.lookup spellId with
  | some node => some (remaining node.entry.CooldownEnd)
  | none =>
    match s.categoryCooldowns.lookup spellInfo.Category with
    | none => some 0
    | some addr => (s.deref addr).map fun entry => remaining entry.CategoryEnd

/-- Whether the loop of `lockSpellSchool` starts a lockout of the spell. -/
def locksSpell (schoolMask lockoutTime : Nat) (now : Int) (s : SpellHistory) (spellId : Nat) :
    Option Bool :=
  match M.getSpellInfo spellId with
  | none => none
  | some spellInfo =>
    if spellInfo.cooldownStartedOnEvent then some false
    else if spellInfo.PreventionType &&& SPELL_PREVENTION_TYPE_SILENCE = 0 then some false
    else if schoolMask &&& spellInfo.SchoolMask ≠ 0 then
      (s.getRemainingCooldown spellId spellInfo now).map fun remaining => remaining < lockoutTime
    else some false

def lockSpell (schoolMask lockoutTime : Nat) (now : Int) (s : SpellHistory) (spellId : Nat) :
    Option SpellHistory :=
  match locksSpell M schoolMask lockoutTime now s spellId with
  | none => none
  | some true =>
    some (s.addCooldown A spellId 0 (now + lockoutTime * nanosecondsPerMillisecond) 0 now false)
  | some false => some s

def lockSchools (s : SpellHistory) (schoolMask lockoutTime : Nat) (now : Int) : SpellHistory :=
  { s with
    schoolLockouts := fun i =>
      if schoolMask.testBit i then now + lockoutTime * nanosecondsPerMillisecond
      else s.schoolLockouts i }

/-- `knownSpells` are those of the owner, in ascending order. -/
def lockSpellSchool (s : SpellHistory) (knownSpells : List Nat) (schoolMask lockoutTime : Nat)
    (now : Int) : Option SpellHistory :=
  knownSpells.foldlM (lockSpell A M schoolMask lockoutTime now)
    (s.lockSchools schoolMask lockoutTime now)

def saveCooldownStateBeforeDuel (s : SpellHistory) : SpellHistory :=
  { s with spellCooldownsBeforeDuel := Assoc.mapVal (fun _ node => node.entry) s.spellCooldowns }

def tenMinutes : Nat := 10 * 60 * 1000

/-- Long cooldowns begun in the duel are kept; `none` is a spell that does not exist. -/
def keepLongCooldown (s : SpellHistory) (e : Sigma fun _ : Nat => Node) : Option SpellHistory :=
  match M.getSpellInfo e.1 with
  | none => none
  | some spellInfo =>
    some (if spellInfo.RecoveryTime > tenMinutes || spellInfo.CategoryRecoveryTime > tenMinutes then
      { s with spellCooldownsBeforeDuel := s.spellCooldownsBeforeDuel.insert e.1 e.2.entry } else s)

def restores (s : SpellHistory) (e : Sigma fun _ : Nat => CooldownEntry) : Bool :=
  !e.2.OnHold && (s.spellCooldowns.lookup e.1).any fun node => !node.entry.OnHold

def restoreCooldown (s : SpellHistory) (e : Sigma fun _ : Nat => CooldownEntry) : SpellHistory :=
  if s.restores e then s.assign A e.1 e.2 else s

def restoreCooldownStateAfterDuel (s : SpellHistory) (isPlayer : Bool) : Option SpellHistory :=
  if isPlayer then
    match s.spellCooldowns.entries.foldlM (keepLongCooldown M) s with
    | none => none
    | some s => some (s.spellCooldownsBeforeDuel.entries.foldl (restoreCooldown A) s)
  else some s

end SpellHistory

inductive Op
  | AddCooldown (spellId itemId : Nat) (cooldownEnd : Int) (categoryId : Nat) (categoryEnd : Int)
      (onHold : Bool)
  | LockSpellSchool (knownSpells : List Nat) (schoolMask lockoutTime : Nat) (now : Int)
  | ModifyCooldown (spellId : Nat) (offset now : Int)
  | ResetCooldown (spellId : Nat)
  | ResetCooldowns (predicate : Nat → CooldownEntry → Bool)
  | ResetAllCooldowns
  | Update (now : Int)
  | LoadFromDB (cooldowns : List SpellHistory.CooldownRow) (charges : List SpellHistory.ChargeRow)
  | SaveCooldownStateBeforeDuel
  | RestoreCooldownStateAfterDuel (isPlayer : Bool)

namespace SpellHistory

/-- `none` is a failed assertion or the use of a pointer to an erased element. -/
def step (s : SpellHistory) : Op → Option SpellHistory
  | .AddCooldown spellId itemId cooldownEnd categoryId categoryEnd onHold =>
    some (s.addCooldown A spellId itemId cooldownEnd categoryId categoryEnd onHold)
  | .LockSpellSchool knownSpells schoolMask lockoutTime now =>
    s.lockSpellSchool A M knownSpells schoolMask lockoutTime now
  | .ModifyCooldown spellId offset now => some (s.modifyCooldown spellId offset now)
  | .ResetCooldown spellId => some (s.resetCooldown spellId)
  | .ResetCooldowns predicate => some (s.resetCooldowns predicate)
  | .ResetAllCooldowns => some s.resetAllCooldowns
  | .Update now => s.update now
  | .LoadFromDB cooldowns charges => some (s.loadFromDB A M cooldowns charges)
  | .SaveCooldownStateBeforeDuel => some s.saveCooldownStateBeforeDuel
  | .RestoreCooldownStateAfterDuel isPlayer => s.restoreCooldownStateAfterDuel A M isPlayer

end SpellHistory

end Ashamane.Spells
