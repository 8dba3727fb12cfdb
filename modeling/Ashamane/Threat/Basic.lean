import Ashamane.Lib.Run
import Mathlib.Logic.Function.Basic
import Mathlib.Data.List.Basic
import Mathlib.Data.Nat.Cast.Defs
import Mathlib.Data.Int.Cast.Defs

/-! The threat lists of a creature: the references to the units it hates, online and offline, the
current victim, and the status events that move a reference between the lists. -/
namespace Ashamane.Threat

abbrev ObjectGuid := Nat

/-- What the threat code does with a `float`. No law of arithmetic is assumed. -/
class Float32 (F : Type) extends Zero F, Add F, Sub F, Neg F, Mul F, Div F, NatCast F, IntCast F,
    BEq F, LT F, LE F where
  decLT : DecidableLT F
  decLE : DecidableLE F

attribute [reducible, instance] Float32.decLT Float32.decLE

variable {F : Type} [Float32 F]

def CalculatePct (base : F) (pct : Int) : F := base * pct / (100 : Nat)

/-- `1.1f` and `1.3f`, of the victim's threat. -/
def tenths (n : Nat) (threat : F) : F := (n : F) / (10 : Nat) * threat

structure SpellInfo (F : Type) where
  noThreat : Bool
  /-- The `pctMod` of the spell's threat entry. -/
  pctMod : Option F
  /-- It has an energize effect, which is not affected by mods. -/
  energize : Bool

structure TempSummon where
  visibleBySummonerOnly : Bool
  summonerGuid : ObjectGuid
  summoner : Option ObjectGuid
  deriving DecidableEq, Repr

structure World (F : Type) where
  ownerAlive : Bool
  ownerIsCreature : Bool
  ownerSummon : Option TempSummon
  getUnit : ObjectGuid → Bool
  isGameMaster : ObjectGuid → Bool
  isAlive : ObjectGuid → Bool
  isInMap : ObjectGuid → Bool
  isInPhase : ObjectGuid → Bool
  inFlight : ObjectGuid → Bool
  isInAccessiblePlace : ObjectGuid → Bool
  isWithinCombatRange : ObjectGuid → Bool
  isWithinMeleeRange : ObjectGuid → Bool
  canCreatureAttack : ObjectGuid → Bool
  isImmunedToDamage : ObjectGuid → Bool
  hasInterruptAura : ObjectGuid → Bool
  charmerOrOwner : ObjectGuid → Option ObjectGuid
  redirectThreatPercent : ObjectGuid → Nat
  redirectThreatTarget : ObjectGuid → Option ObjectGuid
  tempSummon : ObjectGuid → Option TempSummon
  hasThreatAura : ObjectGuid → Bool
  threatModifier : ObjectGuid → Nat → F
  applySpellMod : ObjectGuid → F → F

def SPELL_SCHOOL_MASK_NORMAL : Nat := 1

namespace ThreatCalcHelper

variable (w : World F)

def ApplyTotalThreatModifier (hatedUnit : ObjectGuid) (threat : F) (schoolMask : Nat) : F :=
  if !w.hasThreatAura hatedUnit || decide (threat < 0) then threat
  else threat * w.threatModifier hatedUnit schoolMask

def calcThreat (hatedUnit : ObjectGuid) (threat : F) (schoolMask : Nat)
    (threatSpell : Option (SpellInfo F)) : F :=
  match threatSpell with
  | none => ApplyTotalThreatModifier w hatedUnit threat schoolMask
  | some spell =>
    let threat := match spell.pctMod with
      | some pctMod => threat * pctMod
      | none => threat
    if spell.energize then threat
    else ApplyTotalThreatModifier w hatedUnit (w.applySpellMod hatedUnit threat) schoolMask

/-- `none` when the assertion on the hating unit fails. -/
def isValidProcess (owner hatedUnit : ObjectGuid) (threatSpell : Option (SpellInfo F)) :
    Option Bool :=
  if hatedUnit = owner then some false
  else if w.isGameMaster hatedUnit then some false
  else if !w.isAlive hatedUnit || !w.ownerAlive then some false
  else if !w.isInMap hatedUnit || !w.isInPhase hatedUnit then some false
  else if threatSpell.any SpellInfo.noThreat then some false
  else if w.ownerIsCreature then some true
  else none

end ThreatCalcHelper

/-- A reference; `iRefTo` is the unit it is linked with. -/
structure HostileReference (F : Type) where
  iThreat : F
  iTempThreatModifier : F
  iUnitGuid : ObjectGuid
  iOnline : Bool
  iAccessible : Bool
  iRefTo : Option ObjectGuid

def HostileReference.getThreat (r : HostileReference F) : F := r.iThreat + r.iTempThreatModifier

abbrev Address := Nat

structure ThreatContainer where
  iThreatList : List Address := []
  iDirty : Bool := false
  deriving DecidableEq, Repr

def ThreatContainer.remove (c : ThreatContainer) (ref : Address) : ThreatContainer :=
  { c with iThreatList := c.iThreatList.filter (· ≠ ref) }

def ThreatContainer.addReference (c : ThreatContainer) (ref : Address) : ThreatContainer :=
  { c with iThreatList := c.iThreatList ++ [ref] }

inductive ThreatRefStatusChangeEvent (F : Type) where
  | threatChange (value : F)
  | onlineStatus
  | accessibleStatus
  | removeFromList

/-- A threat manager with the references it has created; `next` is the address that the next one
is created at. -/
structure ThreatManager (F : Type) where
  references : Address → Option (HostileReference F) := fun _ => none
  next : Address := 0
  iOwner : ObjectGuid
  iCurrentVictim : Option Address := none
  iUpdateTimer : Nat := 1000
  iThreatContainer : ThreatContainer := {}
  iThreatOfflineContainer : ThreatContainer := {}

namespace ThreatManager

def write (s : ThreatManager F) (ref : Address) (r : HostileReference F) : ThreatManager F :=
  { s with references := Function.update s.references ref (some r) }

def setDirty (s : ThreatManager F) (isDirty : Bool) : ThreatManager F :=
  { s with iThreatContainer := { s.iThreatContainer with iDirty := isDirty } }

def setCurrentVictim (s : ThreatManager F) (ref : Option Address) : ThreatManager F :=
  { s with iCurrentVictim := ref }

def getReferenceByTarget (s : ThreatManager F) (c : ThreatContainer) (victim : ObjectGuid) :
    Option Address :=
  c.iThreatList.find? fun ref => (s.references ref).any (·.iUnitGuid == victim)

/-- `processThreatEvent` for a reference, which must be there, like every one it reads. -/
def processThreatEvent (s : ThreatManager F) (ref : Address) (event : ThreatRefStatusChangeEvent F) :
    Option (ThreatManager F) := do
  let r ← s.references ref
  match event with
  | .threatChange value =>
    if (s.iCurrentVictim = some ref ∧ value < 0) ∨ (s.iCurrentVictim ≠ some ref ∧ 0 < value) then
      some (s.setDirty true)
    else some s
  | .onlineStatus =>
    if !r.iOnline then
      let s := if s.iCurrentVictim = some ref then (s.setCurrentVictim none).setDirty true else s
      some { s with
        iThreatContainer := s.iThreatContainer.remove ref
        iThreatOfflineContainer := s.iThreatOfflineContainer.addReference ref }
    else
      let s ← match s.iCurrentVictim with
        | none => some s
        | some current => do
          let v ← s.references current
          if tenths 11 v.getThreat < r.getThreat then some (s.setDirty true) else some s
      some { s with
        iThreatContainer := s.iThreatContainer.addReference ref
        iThreatOfflineContainer := s.iThreatOfflineContainer.remove ref }
  | .accessibleStatus => some s
  | .removeFromList =>
    let s := if s.iCurrentVictim = some ref then (s.setCurrentVictim none).setDirty true else s
    if r.iOnline then some { s with iThreatContainer := s.iThreatContainer.remove ref }
    else some { s with iThreatOfflineContainer := s.iThreatOfflineContainer.remove ref }

def setAccessibleState (s : ThreatManager F) (ref : Address) (isAccessible : Bool) :
    Option (ThreatManager F) := do
  let r ← s.references ref
  if r.iAccessible ≠ isAccessible then
    (s.write ref { r with iAccessible := isAccessible }).processThreatEvent ref .accessibleStatus
  else some s

def setOnlineOfflineState (s : ThreatManager F) (ref : Address) (isOnline : Bool) :
    Option (ThreatManager F) := do
  let r ← s.references ref
  if r.iOnline ≠ isOnline then
    let s := s.write ref { r with iOnline := isOnline }
    -- if not online then not accessible as well
    let s ← if !isOnline then s.setAccessibleState ref false else some s
    s.processThreatEvent ref .onlineStatus
  else some s

/-- `link` with the unit, for a reference that is not linked. -/
def link (s : ThreatManager F) (ref : Address) (r : HostileReference F) (target : ObjectGuid) :
    ThreatManager F :=
  s.write ref { r with iRefTo := some target }

def onlineStatus (w : World F) (r : HostileReference F) : Bool × Bool :=
  match r.iRefTo with
  | none => (false, false)
  | some target =>
    if !w.isGameMaster target && !w.inFlight target && w.isInMap target && w.isInPhase target then
      (w.isInAccessiblePlace target || w.isWithinCombatRange target, w.isInAccessiblePlace target)
    else (false, false)

def relink (w : World F) (s : ThreatManager F) (ref : Address) (r : HostileReference F) :
    ThreatManager F :=
  if r.iRefTo.isNone && w.getUnit r.iUnitGuid then s.link ref r r.iUnitGuid else s

def updateOnlineStatus (w : World F) (s : ThreatManager F) (ref : Address) :
    Option (ThreatManager F) := do
  let s := s.relink w ref (← s.references ref)
  let r ← s.references ref
  let s ← s.setAccessibleState ref (onlineStatus w r).2
  s.setOnlineOfflineState ref (onlineStatus w r).1

/-- `ThreatContainer::addThreat`, over what `HostileReference::addThreat` does. -/
def containerAddThreat (refAddThreat : ThreatManager F → Address → F → Option (ThreatManager F))
    (s : ThreatManager F) (c : ThreatContainer) (victim : ObjectGuid) (threat : F) :
    Option (Option Address × ThreatManager F) :=
  match s.getReferenceByTarget c victim with
  | some ref => (refAddThreat s ref threat).map fun s => (some ref, s)
  | none => some (none, s)

def newReference (s : ThreatManager F) (victim : ObjectGuid) : ThreatManager F :=
  { s.write s.next
      { iThreat := 0, iTempThreatModifier := 0, iUnitGuid := victim, iOnline := true,
        iAccessible := true, iRefTo := some victim } with
    next := s.next + 1 }

def addThreatTo (w : World F)
    (refAddThreat : ThreatManager F → Address → F → Option (ThreatManager F))
    (s : ThreatManager F) (victim : ObjectGuid) (threat : F) : Option (ThreatManager F) := do
  let (found, s) ← s.containerAddThreat refAddThreat s.iThreatContainer victim threat
  if found.isSome then return s
  let (found, s) ← s.containerAddThreat refAddThreat s.iThreatOfflineContainer victim threat
  if found.isSome then return s
  let isFirst := s.iThreatContainer.iThreatList.isEmpty
  let ref := s.next
  let s := s.newReference victim
  let s := { s with iThreatContainer := s.iThreatContainer.addReference ref }
  let s ← refAddThreat s ref threat
  if w.isGameMaster victim then s.setOnlineOfflineState ref false
  else if isFirst then some (s.setCurrentVictim (some ref))
  else some s

def redirect (w : World F) (victim : ObjectGuid) : Nat × Option ObjectGuid :=
  match w.tempSummon victim with
  | some summon =>
    if summon.visibleBySummonerOnly && !w.ownerSummon.any (fun own =>
        own.visibleBySummonerOnly && summon.summonerGuid == own.summonerGuid) then
      (100, summon.summoner)
    else (w.redirectThreatPercent victim, w.redirectThreatTarget victim)
  | none => (w.redirectThreatPercent victim, w.redirectThreatTarget victim)

def doAddThreat (w : World F)
    (refAddThreat : ThreatManager F → Address → F → Option (ThreatManager F))
    (s : ThreatManager F) (victim : ObjectGuid) (threat : F) : Option (ThreatManager F) :=
  match redirect w victim with
  | (pct, some target) =>
    if 0 < threat ∧ pct ≠ 0 then do
      let redirectThreat := CalculatePct threat pct
      let s ← s.addThreatTo w refAddThreat target redirectThreat
      s.addThreatTo w refAddThreat victim (threat - redirectThreat)
    else s.addThreatTo w refAddThreat victim threat
  | (_, none) => s.addThreatTo w refAddThreat victim threat

def addThreatOver (w : World F)
    (refAddThreat : ThreatManager F → Address → F → Option (ThreatManager F))
    (s : ThreatManager F) (victim : ObjectGuid) (threat : F) (schoolMask : Nat)
    (threatSpell : Option (SpellInfo F)) : Option (ThreatManager F) := do
  let valid ← ThreatCalcHelper.isValidProcess w s.iOwner victim threatSpell
  if valid then
    s.doAddThreat w refAddThreat victim
      (ThreatCalcHelper.calcThreat w victim threat schoolMask threatSpell)
  else some s

/-- The end of `HostileReference::addThreat`: the event, and the threat on the owner of the unit,
which a pet creates when it attacks. -/
def threatChanged (w : World F)
    (refAddThreat : ThreatManager F → Address → F → Option (ThreatManager F))
    (s : ThreatManager F) (ref : Address) (modThreat : F) : Option (ThreatManager F) := do
  let s ← s.processThreatEvent ref (.threatChange modThreat)
  let r ← s.references ref
  match r.iRefTo with
  | none => some s
  | some target =>
    if 0 < modThreat then
      match w.charmerOrOwner target with
      | some victimOwner =>
        if w.isAlive victimOwner then
          s.addThreatOver w refAddThreat victimOwner 0 SPELL_SCHOOL_MASK_NORMAL none
        else some s
      | none => some s
    else some s

/-- `HostileReference::addThreat`, which may call itself for the reference of an owner: `depth`
bounds the calls on the stack. -/
def refAddThreat (w : World F) : Nat → ThreatManager F → Address → F → Option (ThreatManager F)
  | 0, _, _, _ => none
  | depth + 1, s, ref, modThreat => do
    if modThreat == 0 then return s
    let r ← s.references ref
    let s := s.write ref { r with iThreat := r.iThreat + modThreat }
    if r.iOnline then s.threatChanged w (refAddThreat w depth) ref modThreat
    else
      let s ← s.updateOnlineStatus w ref
      s.threatChanged w (refAddThreat w depth) ref modThreat

end ThreatManager

end Ashamane.Threat
