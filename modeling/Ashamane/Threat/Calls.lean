import Ashamane.Threat.Basic

/-! The calls of a threat manager, and those that the hated units make of their references. -/
namespace Ashamane.Threat

variable {F : Type} [Float32 F]

namespace ThreatManager

def clearReferences (s : ThreatManager F) : ThreatManager F :=
  { s with
    references := fun ref =>
      if ref ∈ s.iThreatContainer.iThreatList ∨ ref ∈ s.iThreatOfflineContainer.iThreatList then
        none
      else s.references ref
    iThreatContainer := { s.iThreatContainer with iThreatList := [] }
    iThreatOfflineContainer := { s.iThreatOfflineContainer with iThreatList := [] }
    iCurrentVictim := none
    iUpdateTimer := 1000 }

/-- `invalidate`: the source of the link is told, then the link is cut. -/
def invalidate (s : ThreatManager F) (ref : Address) : Option (ThreatManager F) := do
  let s ← s.setOnlineOfflineState ref false
  let r ← s.references ref
  some (s.write ref { r with iRefTo := none })

def removeReference (s : ThreatManager F) (ref : Address) : Option (ThreatManager F) := do
  let s ← s.invalidate ref
  s.processThreatEvent ref .removeFromList

/-- `removeReference`, then the reference is deleted. -/
def deleteReference (s : ThreatManager F) (ref : Address) : Option (ThreatManager F) := do
  let s ← s.removeReference ref
  some { s with references := Function.update s.references ref none }

def addTempThreat (s : ThreatManager F) (ref : Address) (threat : F) :
    Option (ThreatManager F) := do
  if threat == 0 then return s
  let r ← s.references ref
  (s.write ref { r with iTempThreatModifier := r.iTempThreatModifier + threat }).processThreatEvent
    ref (.threatChange threat)

def setTempThreat (s : ThreatManager F) (ref : Address) (threat : F) :
    Option (ThreatManager F) := do
  let r ← s.references ref
  s.addTempThreat ref (threat - r.iTempThreatModifier)

def resetTempThreat (s : ThreatManager F) (ref : Address) : Option (ThreatManager F) := do
  let r ← s.references ref
  s.addTempThreat ref (-r.iTempThreatModifier)

/-- `HostileRefManager::addTempThreat`, for one reference of the hated unit. -/
def applyTempThreat (s : ThreatManager F) (ref : Address) (threat : F) (apply : Bool) :
    Option (ThreatManager F) := do
  let r ← s.references ref
  if apply then
    if r.iTempThreatModifier == 0 then s.addTempThreat ref threat else some s
  else s.resetTempThreat ref

def tauntApply (s : ThreatManager F) (taunter : ObjectGuid) : Option (ThreatManager F) := do
  match s.iCurrentVictim, s.getReferenceByTarget s.iThreatContainer taunter with
  | some current, some ref => do
    let v ← s.references current
    let r ← s.references ref
    if r.getThreat < v.getThreat ∧ (r.iTempThreatModifier == 0) = true then
      s.setTempThreat ref v.getThreat
    else some s
  | _, _ => some s

def tauntFadeOut (s : ThreatManager F) (taunter : ObjectGuid) : Option (ThreatManager F) :=
  match s.getReferenceByTarget s.iThreatContainer taunter with
  | some ref => s.resetTempThreat ref
  | none => some s

section Depth

variable (w : World F) (depth : Nat)

def addThreat (s : ThreatManager F) (victim : ObjectGuid) (threat : F) (schoolMask : Nat)
    (threatSpell : Option (SpellInfo F)) : Option (ThreatManager F) :=
  s.addThreatOver w (refAddThreat w depth) victim threat schoolMask threatSpell

def setThreat (s : ThreatManager F) (ref : Address) (threat : F) : Option (ThreatManager F) := do
  let r ← s.references ref
  refAddThreat w depth s ref (threat - r.iThreat)

def addThreatPercent (s : ThreatManager F) (ref : Address) (percent : Int) :
    Option (ThreatManager F) := do
  let r ← s.references ref
  refAddThreat w depth s ref (CalculatePct r.iThreat percent)

def modifyThreatPercent (s : ThreatManager F) (victim : ObjectGuid) (percent : Int) :
    Option (ThreatManager F) :=
  match s.getReferenceByTarget s.iThreatContainer victim with
  | some ref => s.addThreatPercent w depth ref percent
  | none => some s

/-- The loop over the online container from the reference at `i`. No visit takes a reference out of
the container; those it adds are visited too. -/
def eachOnline (visit : ThreatManager F → Address → Option (ThreatManager F)) :
    Nat → Nat → ThreatManager F → Option (ThreatManager F)
  | 0, _, _ => none
  | fuel + 1, i, s =>
    match s.iThreatContainer.iThreatList[i]? with
    | none => some s
    | some ref => do
      let s ← visit s ref
      eachOnline visit fuel (i + 1) s

def resetAllAggro (fuel : Nat) (s : ThreatManager F) : Option (ThreatManager F) := do
  if s.iThreatContainer.iThreatList.isEmpty then return s
  let s ← eachOnline (fun s ref => s.setThreat w depth ref 0) fuel 0 s
  some (s.setDirty true)

def resetAggro (predicate : Option ObjectGuid → Bool) (fuel : Nat) (s : ThreatManager F) :
    Option (ThreatManager F) :=
  eachOnline (fun s ref => do
    let r ← s.references ref
    if predicate r.iRefTo then
      let s ← s.setThreat w depth ref 0
      some (s.setDirty true)
    else some s) fuel 0 s

end Depth

/-- `ThreatContainer::update` of the online container. -/
def update (s : ThreatManager F) : ThreatManager F :=
  let threat := fun ref => ((s.references ref).map HostileReference.getThreat).getD 0
  let list := s.iThreatContainer.iThreatList
  { s with
    iThreatContainer :=
      { iThreatList :=
          if s.iThreatContainer.iDirty && 1 < list.length then
            list.mergeSort fun a b => !decide (threat a < threat b)
          else list
        iDirty := false } }

inductive Pass where
  | ended (nextVictim : Option Address)
  | again (currentVictim : Option Address)
  deriving DecidableEq, Repr

/-- One pass of `selectNextVictim`. Every reference of the list must have its target. -/
def selectPass (w : World F) (s : ThreatManager F) (noPriorityTargetFound : Bool) :
    Option Address → List Address → Option Pass
  | _, [] => some (.ended none)
  | currentVictim, ref :: rest => do
    let currentRef ← s.references ref
    let target ← currentRef.iRefTo
    if !noPriorityTargetFound && (w.isImmunedToDamage target || w.hasInterruptAura target) then
      if rest.isEmpty then some (.again currentVictim)
      else
        -- a second choice is not compared with those below it
        selectPass w s noPriorityTargetFound
          (if currentVictim = some ref then none else currentVictim) rest
    else if w.canCreatureAttack target then
      match currentVictim with
      | none => some (.ended (some ref))
      | some current => do
        let v ← s.references current
        if current = ref ∨ currentRef.getThreat ≤ tenths 11 v.getThreat then
          if current ≠ ref then
            let victim ← v.iRefTo
            some (.ended (some (if w.canCreatureAttack victim then current else ref)))
          else some (.ended (some ref))
        else if tenths 13 v.getThreat < currentRef.getThreat ∨
            tenths 11 v.getThreat < currentRef.getThreat ∧ w.isWithinMeleeRange target then
          some (.ended (some ref))
        else selectPass w s noPriorityTargetFound (some current) rest
    else selectPass w s noPriorityTargetFound currentVictim rest

def selectNextVictim (w : World F) (s : ThreatManager F) (currentVictim : Option Address) :
    Option (Option Address) := do
  match ← s.selectPass w false currentVictim s.iThreatContainer.iThreatList with
  | .ended nextVictim => some nextVictim
  | .again currentVictim =>
    match ← s.selectPass w true currentVictim s.iThreatContainer.iThreatList with
    | .ended nextVictim => some nextVictim
    | .again _ => none

def getHostilTarget (w : World F) (s : ThreatManager F) : Option (ThreatManager F) := do
  let s := s.update
  let nextVictim ← s.selectNextVictim w s.iCurrentVictim
  some (s.setCurrentVictim nextVictim)

def attackMe (s : ThreatManager F) (caster : ObjectGuid) : ThreatManager F :=
  match s.getReferenceByTarget s.iThreatContainer caster with
  | some ref => s.setCurrentVictim (some ref)
  | none => s

def isNeedUpdateToClient (s : ThreatManager F) (time : Nat) : Bool × ThreatManager F :=
  if s.iThreatContainer.iThreatList.isEmpty then (false, s)
  else if s.iUpdateTimer ≤ time then (true, { s with iUpdateTimer := 1000 })
  else (false, { s with iUpdateTimer := s.iUpdateTimer - time })

def Listed (s : ThreatManager F) (ref : Address) : Prop :=
  ref ∈ s.iThreatContainer.iThreatList ∨ ref ∈ s.iThreatOfflineContainer.iThreatList

instance (s : ThreatManager F) (ref : Address) : Decidable (s.Listed ref) :=
  inferInstanceAs (Decidable (_ ∨ _))

def isValid (s : ThreatManager F) (ref : Address) : Bool :=
  (s.references ref).any (·.iRefTo.isSome)

end ThreatManager

inductive Act (F : Type) where
  | addThreat (victim : ObjectGuid) (threat : F) (schoolMask : Nat)
      (threatSpell : Option (SpellInfo F))
  | doAddThreat (victim : ObjectGuid) (threat : F)
  | modifyThreatPercent (victim : ObjectGuid) (percent : Int)
  | tauntApply (taunter : ObjectGuid)
  | tauntFadeOut (taunter : ObjectGuid)
  | attackMe (caster : ObjectGuid)
  | resetAllAggro
  | resetAggro (predicate : Option ObjectGuid → Bool)
  | getHostilTarget
  | isNeedUpdateToClient (time : Nat)
  | clearReferences
  | setOnlineOfflineState (ref : Address) (isOnline : Bool)
  | updateOnlineStatus (ref : Address)
  | addThreatPercent (ref : Address) (percent : Int)
  | applyTempThreat (ref : Address) (threat : F) (apply : Bool)
  | invalidate (ref : Address)
  | removeReference (ref : Address)
  | deleteReference (ref : Address)

/-- A call with the world it is made in. `depth` and `fuel` bound its recursion and its loop. -/
structure Call (F : Type) where
  world : World F
  depth : Nat
  fuel : Nat
  act : Act F

namespace ThreatManager

def step (s : ThreatManager F) (c : Call F) : Option (ThreatManager F) :=
  match c.act with
  | .addThreat victim threat schoolMask threatSpell =>
    s.addThreat c.world c.depth victim threat schoolMask threatSpell
  | .doAddThreat victim threat =>
    s.doAddThreat c.world (refAddThreat c.world c.depth) victim threat
  | .modifyThreatPercent victim percent => s.modifyThreatPercent c.world c.depth victim percent
  | .tauntApply taunter => s.tauntApply taunter
  | .tauntFadeOut taunter => s.tauntFadeOut taunter
  | .attackMe caster => some (s.attackMe caster)
  | .resetAllAggro => s.resetAllAggro c.world c.depth c.fuel
  | .resetAggro predicate => s.resetAggro c.world c.depth predicate c.fuel
  | .getHostilTarget => s.getHostilTarget c.world
  | .isNeedUpdateToClient time => some (s.isNeedUpdateToClient time).2
  | .clearReferences => some s.clearReferences
  | .setOnlineOfflineState ref isOnline =>
    if s.isValid ref then s.setOnlineOfflineState ref isOnline else none
  | .updateOnlineStatus ref => if s.isValid ref then s.updateOnlineStatus c.world ref else none
  | .addThreatPercent ref percent =>
    if s.isValid ref then s.addThreatPercent c.world c.depth ref percent else none
  | .applyTempThreat ref threat apply =>
    if s.isValid ref then s.applyTempThreat ref threat apply else none
  | .invalidate ref => if s.isValid ref then s.invalidate ref else none
  | .removeReference ref => if s.Listed ref then s.removeReference ref else none
  | .deleteReference ref => if s.Listed ref then s.deleteReference ref else none

end ThreatManager

end Ashamane.Threat
