import Ashamane.Lib.Assoc
import Mathlib.Data.UInt

/-! The phases and visible maps of an object: computed when it enters a map or an area, and
kept up when conditions change. -/
namespace Ashamane.Phasing
open Ashamane.Lib

abbrev AreaId := Nat
abbrev MapId := Nat
abbrev PhaseId := UInt16

variable {κ : Type}

/-- `κ` is the type of the condition lists. -/
structure PhaseRef (κ : Type) where
  references : Int
  areaConditions : Option κ
  deriving DecidableEq, Repr

/-- The terrain swap that `VisibleMapInfo` points to is given by its id. -/
structure VisibleMapIdRef where
  references : Int
  visibleMapInfo : MapId
  deriving DecidableEq, Repr

structure PhaseShift (κ : Type) where
  phases : AList fun _ : PhaseId => PhaseRef κ
  visibleMapIds : AList fun _ : MapId => VisibleMapIdRef
  uiWorldMapAreaIdSwaps : AList fun _ : Nat => Int

namespace PhaseShift

def new : PhaseShift κ := ⟨∅, ∅, ∅⟩

def hasPhase (s : PhaseShift κ) (phaseId : PhaseId) : Bool := (s.phases.lookup phaseId).isSome

def hasVisibleMapId (s : PhaseShift κ) (visibleMapId : MapId) : Bool :=
  (s.visibleMapIds.lookup visibleMapId).isSome

def hasUiWorldMapAreaIdSwap (s : PhaseShift κ) (uiWorldMapAreaId : Nat) : Bool :=
  (s.uiWorldMapAreaIdSwaps.lookup uiWorldMapAreaId).isSome

end PhaseShift

def PhaseRef.plus (old : Option (PhaseRef κ)) (areaConditions : Option κ) (references : Int) :
    PhaseRef κ where
  references := (old.map PhaseRef.references).getD 0 + references
  areaConditions := areaConditions.or (old.bind PhaseRef.areaConditions)

namespace PhaseShift

def addPhase (phaseId : Nat) (areaConditions : Option κ) (references : Int) (s : PhaseShift κ) :
    PhaseShift κ :=
  let id := UInt16.ofNat phaseId
  { s with phases := s.phases.insert id (.plus (s.phases.lookup id) areaConditions references) }

/-- `none` is the end of the container; else whether the phase was erased. -/
def removePhase (phaseId : Nat) (s : PhaseShift κ) : PhaseShift κ × Option Bool :=
  let id := UInt16.ofNat phaseId
  match s.phases.lookup id with
  | none => (s, none)
  | some ref =>
    if ref.references - 1 = 0 then ({ s with phases := s.phases.erase id }, some true)
    else
      ({ s with phases := s.phases.insert id { ref with references := ref.references - 1 } },
        some false)

def addVisibleMapId (visibleMapId visibleMapInfo : MapId) (references : Int)
    (s : PhaseShift κ) : PhaseShift κ :=
  let old := (s.visibleMapIds.lookup visibleMapId).getD ⟨0, visibleMapInfo⟩
  { s with
    visibleMapIds := s.visibleMapIds.insert visibleMapId
      { old with references := old.references + references } }

def addUiWorldMapAreaIdSwap (s : PhaseShift κ) (uiWorldMapAreaId : Nat) : PhaseShift κ :=
  let old := (s.uiWorldMapAreaIdSwaps.lookup uiWorldMapAreaId).getD 0
  { s with uiWorldMapAreaIdSwaps := s.uiWorldMapAreaIdSwaps.insert uiWorldMapAreaId (old + 1) }

def removeUiWorldMapAreaIdSwap (s : PhaseShift κ) (uiWorldMapAreaId : Nat) : PhaseShift κ :=
  match s.uiWorldMapAreaIdSwaps.lookup uiWorldMapAreaId with
  | none => s
  | some references =>
    { s with uiWorldMapAreaIdSwaps :=
        if references - 1 = 0 then s.uiWorldMapAreaIdSwaps.erase uiWorldMapAreaId
        else s.uiWorldMapAreaIdSwaps.insert uiWorldMapAreaId (references - 1) }

end PhaseShift

structure PhaseAreaInfo (κ : Type) where
  phaseId : Nat
  subAreaExclusions : List AreaId
  conditions : κ

structure World (κ : Type) where
  areaTable : AList fun _ : AreaId => AreaId
  phasesForArea : AreaId → List (PhaseAreaInfo κ)
  terrainSwapsForMap : MapId → List MapId
  uiWorldMapAreaIDSwaps : MapId → List Nat
  phasesForGroup : Nat → List Nat

structure WorldObject where
  mapId : MapId
  areaId : AreaId
  phaseAuras : List Nat
  phaseGroupAuras : List Nat

structure Valuation (κ : Type) where
  isObjectMeetToConditions : κ → Bool
  isTerrainSwapAllowed : MapId → Bool

structure Shifts (κ : Type) where
  phaseShift : PhaseShift κ
  suppressed : PhaseShift κ

namespace WorldObject

def auraPhases (w : World κ) (object : WorldObject) : List Nat :=
  object.phaseAuras ++ object.phaseGroupAuras.flatMap w.phasesForGroup

end WorldObject

namespace World

/-- The area and its parents. An area that is its own ancestor makes the loop endless. -/
def areasUp (w : World κ) : Nat → AreaId → Option (List AreaId)
  | fuel, areaId =>
    match w.areaTable.lookup areaId, fuel with
    | none, _ => some []
    | some _, 0 => none
    | some parentAreaID, fuel + 1 => (w.areasUp fuel parentAreaID).map (areaId :: ·)

/-- What the loop of `OnAreaChange` goes through: phases with their conditions. -/
def phaseAreas (w : World κ) (object : WorldObject) : Option (List (Nat × κ)) :=
  (w.areasUp w.areaTable.entries.length object.areaId).map fun areas =>
    areas.flatMap fun areaId =>
      ((w.phasesForArea areaId).filter fun info =>
        !info.subAreaExclusions.contains object.areaId).map fun info =>
          (info.phaseId, info.conditions)

end World

namespace Shifts

def new : Shifts κ := ⟨.new, .new⟩

def showMap (w : World κ) (s : PhaseShift κ) (visibleMapId visibleMapInfo : MapId)
    (references : Int) : PhaseShift κ :=
  (w.uiWorldMapAreaIDSwaps visibleMapInfo).foldl PhaseShift.addUiWorldMapAreaIdSwap
    (s.addVisibleMapId visibleMapId visibleMapInfo references)

def onMapChange (w : World κ) (v : Valuation κ) (object : WorldObject) (s : Shifts κ) :
    Shifts κ :=
  (w.terrainSwapsForMap object.mapId).foldl (fun s visibleMapId =>
    if v.isTerrainSwapAllowed visibleMapId then
      { s with phaseShift := showMap w s.phaseShift visibleMapId visibleMapId 1 }
    else { s with suppressed := s.suppressed.addVisibleMapId visibleMapId visibleMapId 1 })
    { phaseShift := { s.phaseShift with visibleMapIds := ∅, uiWorldMapAreaIdSwaps := ∅ }
      suppressed := { s.suppressed with visibleMapIds := ∅ } }

def addListed (v : Valuation κ) (s : Shifts κ) (listed : Nat × κ) : Shifts κ :=
  if v.isObjectMeetToConditions listed.2 then
    { s with phaseShift := s.phaseShift.addPhase listed.1 (some listed.2) 1 }
  else { s with suppressed := s.suppressed.addPhase listed.1 (some listed.2) 1 }

def onAreaChange (w : World κ) (v : Valuation κ) (object : WorldObject) (s : Shifts κ) :
    Option (Shifts κ) :=
  (w.phaseAreas object).map fun listed =>
    let s := listed.foldl (addListed v)
      { phaseShift := { s.phaseShift with phases := ∅ }
        suppressed := { s.suppressed with phases := ∅ } }
    { s with
      phaseShift := (object.auraPhases w).foldl
        (fun shift phaseId => shift.addPhase phaseId none 1) s.phaseShift }

end Shifts

structure Working (κ : Type) where
  phaseShift : PhaseShift κ
  suppressed : PhaseShift κ
  newSuppressions : PhaseShift κ

namespace Working

def suppressPhase (v : Valuation κ) (ws : Working κ) (id : PhaseId) : Working κ :=
  match ws.phaseShift.phases.lookup id with
  | some ⟨references, some areaConditions⟩ =>
    if v.isObjectMeetToConditions areaConditions then ws
    else { ws with
      newSuppressions := ws.newSuppressions.addPhase id.toNat (some areaConditions) references
      phaseShift := { ws.phaseShift with phases := ws.phaseShift.phases.erase id } }
  | _ => ws

def restorePhase (v : Valuation κ) (ws : Working κ) (id : PhaseId) : Working κ :=
  match ws.suppressed.phases.lookup id with
  | some ⟨references, some areaConditions⟩ =>
    if v.isObjectMeetToConditions areaConditions then
      { ws with
        phaseShift := ws.phaseShift.addPhase id.toNat (some areaConditions) references
        suppressed := { ws.suppressed with phases := ws.suppressed.phases.erase id } }
    else ws
  | _ => ws

def suppressMap (w : World κ) (v : Valuation κ) (ws : Working κ) (visibleMapId : MapId) :
    Working κ :=
  match ws.phaseShift.visibleMapIds.lookup visibleMapId with
  | some ref =>
    if v.isTerrainSwapAllowed visibleMapId then ws
    else
      let shift := (w.uiWorldMapAreaIDSwaps ref.visibleMapInfo).foldl
        PhaseShift.removeUiWorldMapAreaIdSwap ws.phaseShift
      { ws with
        newSuppressions :=
          ws.newSuppressions.addVisibleMapId visibleMapId ref.visibleMapInfo ref.references
        phaseShift := { shift with visibleMapIds := shift.visibleMapIds.erase visibleMapId } }
  | none => ws

def restoreMap (w : World κ) (v : Valuation κ) (ws : Working κ) (visibleMapId : MapId) :
    Working κ :=
  match ws.suppressed.visibleMapIds.lookup visibleMapId with
  | some ref =>
    if v.isTerrainSwapAllowed visibleMapId then
      { ws with
        phaseShift :=
          Shifts.showMap w ws.phaseShift visibleMapId ref.visibleMapInfo ref.references
        suppressed := { ws.suppressed with
          visibleMapIds := ws.suppressed.visibleMapIds.erase visibleMapId } }
    else ws
  | none => ws

def repairAura (ws : Working κ) (phaseId : Nat) : Working κ :=
  match ws.newSuppressions.removePhase phaseId with
  | (newSuppressions, none) => { ws with newSuppressions }
  | (newSuppressions, some _) =>
    { ws with newSuppressions, phaseShift := ws.phaseShift.addPhase phaseId none 1 }

def keepPhase (ws : Working κ) (id : PhaseId) : Working κ :=
  match ws.newSuppressions.phases.lookup id with
  | some ref =>
    { ws with suppressed := ws.suppressed.addPhase id.toNat ref.areaConditions ref.references }
  | none => ws

def keepMap (ws : Working κ) (visibleMapId : MapId) : Working κ :=
  match ws.newSuppressions.visibleMapIds.lookup visibleMapId with
  | some ref =>
    { ws with
      suppressed := ws.suppressed.addVisibleMapId visibleMapId ref.visibleMapInfo ref.references }
  | none => ws

def phaseLoops (v : Valuation κ) (ws : Working κ) : Working κ :=
  let ws := ws.phaseShift.phases.keys.foldl (suppressPhase v) ws
  ws.suppressed.phases.keys.foldl (restorePhase v) ws

def mapLoops (w : World κ) (v : Valuation κ) (ws : Working κ) : Working κ :=
  let ws := ws.phaseShift.visibleMapIds.keys.foldl (suppressMap w v) ws
  ws.suppressed.visibleMapIds.keys.foldl (restoreMap w v) ws

def keepLoops (ws : Working κ) : Working κ :=
  let ws := ws.newSuppressions.phases.keys.foldl keepPhase ws
  ws.newSuppressions.visibleMapIds.keys.foldl keepMap ws

end Working

namespace Shifts

open Working in
def onConditionChange (w : World κ) (v : Valuation κ) (object : WorldObject) (s : Shifts κ) :
    Option (Shifts κ) :=
  if s.suppressed.phases.entries.any fun e => e.2.areaConditions.isNone then none
  else
    let ws := mapLoops w v (phaseLoops v ⟨s.phaseShift, s.suppressed, .new⟩)
    let ws := keepLoops ((object.auraPhases w).foldl repairAura ws)
    some ⟨ws.phaseShift, ws.suppressed⟩

def compute (w : World κ) (object : WorldObject) (v : Valuation κ) : Option (Shifts κ) :=
  (Shifts.new.onMapChange w v object).onAreaChange w v object

def keepUp (w : World κ) (object : WorldObject) (v : Valuation κ) (vs : List (Valuation κ)) :
    Option (Shifts κ) :=
  (compute w object v).bind fun s => vs.foldlM (fun s v => s.onConditionChange w v object) s

end Shifts

end Ashamane.Phasing
