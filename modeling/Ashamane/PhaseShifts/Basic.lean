import Ashamane.Lib.FlatSet
import Mathlib.Order.Fin.Basic

/-! The phases of an object with the flags and the counters of its phase shift. -/
namespace Ashamane.PhaseShifts
open Ashamane.Lib

abbrev PhaseId := Fin (2 ^ 16)

instance neZeroPhaseId : NeZero (2 ^ 16) := ⟨by decide⟩

abbrev PhaseFlags := BitVec 16
abbrev PhaseShiftFlags := BitVec 32
abbrev ObjectGuid := BitVec 128

def defaultPhase : PhaseId := 169

namespace PhaseFlags
def none : PhaseFlags := 0x0
def cosmetic : PhaseFlags := 0x1
def personal : PhaseFlags := 0x2
end PhaseFlags

namespace PhaseShiftFlags
def none : PhaseShiftFlags := 0x00
def alwaysVisible : PhaseShiftFlags := 0x01
def inverse : PhaseShiftFlags := 0x02
def inverseUnphased : PhaseShiftFlags := 0x04
def unphased : PhaseShiftFlags := 0x08
def noCosmetic : PhaseShiftFlags := 0x10
end PhaseShiftFlags

def hasFlag {w : Nat} (value flag : BitVec w) : Bool := value &&& flag != 0

/-- `κ` is the type of the condition lists. The references and the counters of a shift are `int32`
in the source. -/
structure PhaseRef (κ : Type) where
  id : PhaseId
  flags : PhaseFlags
  references : Int
  areaConditions : Option κ
  deriving DecidableEq

variable {κ : Type}

def PhaseRef.addReferences (references : Int) (ref : PhaseRef κ) : PhaseRef κ :=
  { ref with references := ref.references + references }

theorem PhaseRef.id_addReferences (references : Int) (ref : PhaseRef κ) :
    (ref.addReferences references).id = ref.id := rfl

def PhaseRef.setAreaConditions (conditions : κ) (ref : PhaseRef κ) : PhaseRef κ :=
  { ref with areaConditions := some conditions }

theorem PhaseRef.id_setAreaConditions (conditions : κ) (ref : PhaseRef κ) :
    (ref.setAreaConditions conditions).id = ref.id := rfl

structure PhaseShift (κ : Type) where
  flags : PhaseShiftFlags
  personalGuid : ObjectGuid
  phases : FlatSet (PhaseRef.id (κ := κ))
  nonCosmeticReferences : Int
  cosmeticReferences : Int
  defaultReferences : Int
  isDbPhaseShift : Bool

namespace PhaseShift

def new : PhaseShift κ := ⟨PhaseShiftFlags.unphased, 0, .empty, 0, 0, 0, false⟩

def setFlag (flag : PhaseShiftFlags) (apply : Bool) (s : PhaseShift κ) : PhaseShift κ :=
  { s with flags := if apply then s.flags ||| flag else s.flags &&& ~~~flag }

def updateUnphasedFlag (s : PhaseShift κ) : PhaseShift κ :=
  let unphasedFlag :=
    if !hasFlag s.flags PhaseShiftFlags.inverse then PhaseShiftFlags.unphased
    else PhaseShiftFlags.inverseUnphased
  let other :=
    if !hasFlag s.flags PhaseShiftFlags.inverse then PhaseShiftFlags.inverseUnphased
    else PhaseShiftFlags.unphased
  let s := s.setFlag other false
  s.setFlag unphasedFlag (!(s.nonCosmeticReferences != 0 && s.defaultReferences == 0))

def modifyPhasesReferences (id : PhaseId) (references : Int) (s : PhaseShift κ) :
    PhaseShift κ :=
  match s.phases.find? id with
  | none => s
  | some ref =>
    let s := { s with
      phases := s.phases.modify id (PhaseRef.addReferences references)
        (PhaseRef.id_addReferences references) }
    if s.isDbPhaseShift then s
    else
      let s :=
        if hasFlag ref.flags PhaseFlags.cosmetic then
          { s with cosmeticReferences := s.cosmeticReferences + references }
        else if ref.id ≠ defaultPhase then
          { s with nonCosmeticReferences := s.nonCosmeticReferences + references }
        else { s with defaultReferences := s.defaultReferences + references }
      let s := s.setFlag PhaseShiftFlags.noCosmetic (s.cosmeticReferences != 0)
      s.updateUnphasedFlag

def setAreaConditions (id : PhaseId) (areaConditions : Option κ) (s : PhaseShift κ) :
    PhaseShift κ :=
  match areaConditions with
  | none => s
  | some conditions =>
    { s with
      phases := s.phases.modify id (PhaseRef.setAreaConditions conditions)
        (PhaseRef.id_setAreaConditions conditions) }

def addPhase (phaseId : Nat) (flags : PhaseFlags) (areaConditions : Option κ) (references : Int)
    (s : PhaseShift κ) : PhaseShift κ :=
  let id := Fin.ofNat (2 ^ 16) phaseId
  let s := { s with phases := s.phases.insert ⟨id, flags, 0, none⟩ }
  (s.modifyPhasesReferences id references).setAreaConditions id areaConditions

def erasePhase (id : PhaseId) (s : PhaseShift κ) : PhaseShift κ :=
  { s with phases := s.phases.erase id }

/-- `none` is the end of the container; else whether the phase was erased. -/
def removePhase (phaseId : Nat) (s : PhaseShift κ) : PhaseShift κ × Option Bool :=
  let id := Fin.ofNat (2 ^ 16) phaseId
  match s.phases.find? id with
  | none => (s, none)
  | some ref =>
    let s := s.modifyPhasesReferences id (-1)
    if ref.references + -1 = 0 then (s.erasePhase id, some true) else (s, some false)

def clearPhases (s : PhaseShift κ) : PhaseShift κ :=
  updateUnphasedFlag { s with
    flags := s.flags &&& (PhaseShiftFlags.alwaysVisible ||| PhaseShiftFlags.inverse)
    phases := .empty
    nonCosmeticReferences := 0
    cosmeticReferences := 0
    defaultReferences := 0 }

def setAlwaysVisible (apply : Bool) (s : PhaseShift κ) : PhaseShift κ :=
  s.setFlag PhaseShiftFlags.alwaysVisible apply

def setInversed (apply : Bool) (s : PhaseShift κ) : PhaseShift κ :=
  (s.setFlag PhaseShiftFlags.inverse apply).updateUnphasedFlag

end PhaseShift

structure Shifts (κ : Type) where
  phaseShift : PhaseShift κ
  suppressed : PhaseShift κ

structure Working (κ : Type) where
  phaseShift : PhaseShift κ
  suppressed : PhaseShift κ
  newSuppressions : PhaseShift κ

namespace Working

def suppressPhase (meets : κ → Bool) (ws : Working κ) (id : PhaseId) : Working κ :=
  match ws.phaseShift.phases.find? id with
  | some ⟨_, flags, references, some areaConditions⟩ =>
    if meets areaConditions then ws
    else { ws with
      newSuppressions :=
        ws.newSuppressions.addPhase id.val flags (some areaConditions) references
      phaseShift := (ws.phaseShift.modifyPhasesReferences id (-references)).erasePhase id }
  | _ => ws

/-- The second loop: suppressed phases whose conditions are met again. They have conditions,
or an assertion fails. -/
def restorePhase (meets : κ → Bool) (ws : Working κ) (id : PhaseId) : Option (Working κ) :=
  match ws.suppressed.phases.find? id with
  | some ⟨_, _, _, none⟩ => none
  | some ⟨_, flags, references, some areaConditions⟩ =>
    if meets areaConditions then
      some { ws with
        phaseShift := ws.phaseShift.addPhase id.val flags (some areaConditions) references
        suppressed := (ws.suppressed.modifyPhasesReferences id (-references)).erasePhase id }
    else some ws
  | none => some ws

def repairAura (getPhaseFlags : Nat → PhaseFlags) (ws : Working κ) (phaseId : Nat) : Working κ :=
  match ws.newSuppressions.removePhase phaseId with
  | (newSuppressions, none) => { ws with newSuppressions }
  | (newSuppressions, some _) =>
    { ws with
      newSuppressions
      phaseShift := ws.phaseShift.addPhase phaseId (getPhaseFlags phaseId) none 1 }

def keepPhase (ws : Working κ) (id : PhaseId) : Working κ :=
  match ws.newSuppressions.phases.find? id with
  | some ref =>
    { ws with
      suppressed := ws.suppressed.addPhase id.val ref.flags ref.areaConditions ref.references }
  | none => ws

end Working

namespace Shifts

def new : Shifts κ := ⟨.new, .new⟩

def onConditionChange (getPhaseFlags : Nat → PhaseFlags) (meets : κ → Bool)
    (auraPhases : List Nat) (s : Shifts κ) : Option (Shifts κ) := do
  let ws : Working κ := ⟨s.phaseShift, s.suppressed, .new⟩
  let ws := ws.phaseShift.phases.keys.foldl (Working.suppressPhase meets) ws
  let ws ← ws.suppressed.phases.keys.foldlM (Working.restorePhase meets) ws
  let ws := auraPhases.foldl (Working.repairAura getPhaseFlags) ws
  let ws := ws.newSuppressions.phases.keys.foldl Working.keepPhase ws
  some ⟨ws.phaseShift, ws.suppressed⟩

end Shifts

end Ashamane.PhaseShifts
