import Ashamane.Lib.Assoc
import Ashamane.Lib.Fuel
import Mathlib.Logic.Function.Basic

/-! Saves of instances, and the binds of players and groups to them. A save is known by its
address; an operation that follows an address of nothing, or fails an assertion, or has a loop
that goes on, answers `none`. -/
namespace Ashamane.Binds
open Ashamane.Lib

/-- `BindExtensionState`, without the special state of a call. -/
inductive BindExtensionState where
  | expired
  | normal
  | extended
deriving DecidableEq

structure InstancePlayerBind where
  save : Nat
  perm : Bool
  extendState : BindExtensionState

structure InstanceGroupBind where
  save : Nat
  perm : Bool

structure InstanceSave where
  playerList : List Nat
  groupList : List Nat
  instanceId : Nat
  mapId : Nat
  difficulty : Nat
  canReset : Bool
  toDelete : Bool

inductive Holder where
  | player (id : Nat)
  | group (id : Nat)
deriving DecidableEq

namespace InstanceSave

def place (save : InstanceSave) : Nat × Nat := (save.difficulty, save.mapId)

def add : Holder → InstanceSave → InstanceSave
  | .player p, save => { save with playerList := save.playerList ++ [p] }
  | .group g, save => { save with groupList := save.groupList ++ [g] }

def remove : Holder → InstanceSave → InstanceSave
  | .player p, save => { save with playerList := save.playerList.filter (· ≠ p) }
  | .group g, save => { save with groupList := save.groupList.filter (· ≠ g) }

def isEmpty (save : InstanceSave) : Bool := save.playerList.isEmpty && save.groupList.isEmpty

def count : Holder → InstanceSave → Nat
  | .player p, save => save.playerList.count p
  | .group g, save => save.groupList.count g

end InstanceSave

/-- What the stores say: `GetDownscaledMapDifficultyData` with the difficulty it leaves, and
whether a map is a raid. -/
structure Stores where
  getDownscaledMapDifficultyData : Nat → Nat → Bool × Nat
  isRaid : Nat → Option Bool

structure Around where
  findMap : Nat → Nat → Option Bool
  isBGGroup : Nat → Bool

structure InstanceSaveManager where
  saves : AList fun _ : Nat => InstanceSave
  /-- An address that was not used yet. -/
  nextSave : Nat
  instanceSaveById : AList fun _ : Nat => Nat
  lockInstLists : Bool

namespace InstanceSaveManager

def modifySave (m : InstanceSaveManager) (ptr : Nat) (f : InstanceSave → InstanceSave) :
    InstanceSaveManager :=
  { m with saves := Assoc.modify ptr f m.saves }

def addInstanceSave (m : InstanceSaveManager) (instanceId mapId difficulty : Nat)
    (canReset : Bool) : InstanceSaveManager :=
  if instanceId ∈ m.instanceSaveById ∨ instanceId = 0 then m
  else
    { m with
      saves := m.saves.insert m.nextSave ⟨[], [], instanceId, mapId, difficulty, canReset, false⟩
      nextSave := m.nextSave + 1
      instanceSaveById := m.instanceSaveById.insert instanceId m.nextSave }

def removeInstanceSave (m : InstanceSaveManager) (instanceId : Nat) : InstanceSaveManager :=
  match m.instanceSaveById.lookup instanceId with
  | none => m
  | some ptr =>
    { m.modifySave ptr fun save => { save with toDelete := true } with
      instanceSaveById := m.instanceSaveById.erase instanceId }

def unloadIfEmpty (around : Around) (m : InstanceSaveManager) (ptr : Nat) : InstanceSaveManager :=
  match m.saves.lookup ptr with
  | none => m
  | some save =>
    if save.isEmpty ∧ around.findMap save.mapId save.instanceId ≠ some true ∧
        m.lockInstLists = false then m.removeInstanceSave save.instanceId
    else m

def unloadInstanceSave (around : Around) (m : InstanceSaveManager) (instanceId : Nat) :
    InstanceSaveManager :=
  match m.instanceSaveById.lookup instanceId with
  | none => m
  | some ptr => m.unloadIfEmpty around ptr

/-- `delete`, with the assertion of the destructor. -/
def delete (m : InstanceSaveManager) (ptr : Nat) : Option InstanceSaveManager :=
  match m.saves.lookup ptr with
  | none => none
  | some save => if save.isEmpty then some { m with saves := m.saves.erase ptr } else none

/-- `RemovePlayer` and `RemoveGroup` of a save. -/
def removeHolder (around : Around) (m : InstanceSaveManager) (h : Holder) (ptr : Nat) :
    Option InstanceSaveManager :=
  match m.saves.lookup ptr with
  | none => none
  | some _ =>
    let m := (m.modifySave ptr (InstanceSave.remove h)).unloadIfEmpty around ptr
    if (m.saves.lookup ptr).any (·.toDelete) then m.delete ptr else some m

/-- `AddPlayer` and `AddGroup` of a save. -/
def addHolder (m : InstanceSaveManager) (h : Holder) (ptr : Nat) : Option InstanceSaveManager :=
  match m.saves.lookup ptr with
  | none => none
  | some _ => some (m.modifySave ptr (InstanceSave.add h))

end InstanceSaveManager

structure World where
  mgr : InstanceSaveManager
  /-- `m_boundInstances` of the players, by difficulty and map. -/
  players : Nat → AList fun _ : Nat × Nat => InstancePlayerBind
  groups : Nat → AList fun _ : Nat × Nat => InstanceGroupBind

/-- The loops over `m_boundInstances` go through the difficulties. -/
def maxDifficulty : Nat := 35

def walk (places : List (Nat × Nat)) : List (Nat × Nat) :=
  (List.range maxDifficulty).flatMap fun i => places.filter fun place => place.1 = i

namespace World

def bound (w : World) : Holder → Nat × Nat → Option Nat
  | .player p, place => ((w.players p).lookup place).map (·.save)
  | .group g, place => ((w.groups g).lookup place).map (·.save)

def eraseBind (w : World) : Holder → Nat × Nat → World
  | .player p, place =>
    { w with players := Function.update w.players p ((w.players p).erase place) }
  | .group g, place =>
    { w with groups := Function.update w.groups g ((w.groups g).erase place) }

def setPlayerBind (w : World) (p : Nat) (place : Nat × Nat) (bind : InstancePlayerBind) : World :=
  { w with players := Function.update w.players p ((w.players p).insert place bind) }

def setGroupBind (w : World) (g : Nat) (place : Nat × Nat) (bind : InstanceGroupBind) : World :=
  { w with groups := Function.update w.groups g ((w.groups g).insert place bind) }

def unbindInstance (around : Around) (w : World) (h : Holder) (place : Nat × Nat) : Option World :=
  match w.bound h place with
  | none => some w
  | some ptr =>
    (w.mgr.removeHolder around h ptr).map fun mgr => { w with mgr := mgr }.eraseBind h place

/-- What `BindToInstance` does to the saves, for players and groups. -/
def rebind (around : Around) (w : World) (h : Holder) (place : Nat × Nat) (ptr : Nat) :
    Option InstanceSaveManager :=
  if w.bound h place = some ptr then some w.mgr
  else
    match w.bound h place with
    | none => w.mgr.addHolder h ptr
    | some old => (w.mgr.removeHolder around h old).bind (·.addHolder h ptr)

/-- `Player::BindToInstance`, where no extension state is to keep the one of the bind. -/
def playerBindToInstance (around : Around) (w : World) (p ptr : Nat) (permanent : Bool)
    (extendState : Option BindExtensionState) : Option World :=
  match w.mgr.saves.lookup ptr with
  | none => none
  | some save =>
    let kept := (((w.players p).lookup save.place).filter (·.save = ptr)).elim .normal (·.extendState)
    (w.rebind around (.player p) save.place ptr).map fun mgr =>
      let mgr :=
        if permanent then mgr.modifySave ptr fun save => { save with canReset := false } else mgr
      { w with mgr := mgr }.setPlayerBind p save.place ⟨ptr, permanent, extendState.getD kept⟩

def groupBindToInstance (around : Around) (w : World) (g ptr : Nat) (permanent : Bool) :
    Option World :=
  if around.isBGGroup g then some w
  else
    match w.mgr.saves.lookup ptr with
    | none => none
    | some save =>
      (w.rebind around (.group g) save.place ptr).map fun mgr =>
        { w with mgr := mgr }.setGroupBind g save.place ⟨ptr, permanent⟩

/-- `Player::GetBoundInstance`, without expired binds. -/
def playerGetBoundInstance (stores : Stores) (w : World) (p mapId difficulty : Nat) :
    Option InstancePlayerBind :=
  let mapDiff := stores.getDownscaledMapDifficultyData mapId difficulty
  if mapDiff.1 then
    ((w.players p).lookup (mapDiff.2, mapId)).filter (·.extendState ≠ .expired)
  else none

def groupGetBoundInstance (stores : Stores) (w : World) (g mapId difficulty : Nat) :
    Option InstanceGroupBind :=
  (w.groups g).lookup ((stores.getDownscaledMapDifficultyData mapId difficulty).2, mapId)

/-- One bind of the loop of `ConvertLeaderInstancesToGroup`. -/
def convertBind (stores : Stores) (around : Around) (player group : Nat) (switchLeader : Bool)
    (w : World) (place : Nat × Nat) : Option World :=
  match (w.players player).lookup place with
  | none => some w
  | some bind =>
    match w.mgr.saves.lookup bind.save with
    | none => none
    | some save =>
      let taken :=
        switchLeader && (w.groupGetBoundInstance stores group place.2 save.difficulty).isSome
      (if !taken ∧ bind.extendState ≠ .expired then
          w.groupBindToInstance around group bind.save bind.perm
        else some w).bind fun w =>
          if switchLeader ∧ !bind.perm then w.unbindInstance around (.player player) place
          else some w

def convertLeaderInstancesToGroup (stores : Stores) (around : Around) (w : World)
    (player group : Nat) (switchLeader : Bool) (playerMap : Option Nat) : Option World :=
  ((walk (w.players player).keys).foldlM (convertBind stores around player group switchLeader)
    w).bind fun w =>
      match playerMap.bind w.mgr.instanceSaveById.lookup with
      | none => some w
      | some ptr =>
        match w.mgr.saves.lookup ptr with
        | none => none
        | some save =>
          if !switchLeader ∧ save.isEmpty then w.groupBindToInstance around group ptr false
          else some w

def dropPermanent (around : Around) (group : Nat) (w : World) (place : Nat × Nat) :
    Option World :=
  match (w.groups group).lookup place with
  | none => some w
  | some bind =>
    match w.mgr.saves.lookup bind.save with
    | none => none
    | some save =>
      if bind.perm ∧ around.findMap place.2 save.instanceId = none then
        w.unbindInstance around (.group group) place
      else some w

def changeLeader (stores : Stores) (around : Around) (w : World) (group newLeader : Nat) :
    Option World :=
  if around.isBGGroup group then some w
  else
    ((walk (w.groups group).keys).foldlM (dropPermanent around group) w).bind fun w =>
      w.convertLeaderInstancesToGroup stores around newLeader group true none

end World

/-- `InstanceResetMethod`, of the resets of a group. -/
inductive InstanceResetMethod where
  | all
  | changeDifficulty
  | groupDisband
deriving DecidableEq

namespace World

/-- Whether `ResetInstances` takes a bind to this save from the group. -/
def resets (stores : Stores) (around : Around) (method : InstanceResetMethod) (isRaid : Bool)
    (place : Nat × Nat) (save : InstanceSave) : Bool :=
  let loaded := around.findMap save.mapId save.instanceId
  let isEmpty :=
    if method = .groupDisband ∧ !save.canReset then true else loaded ≠ some true
  decide (stores.isRaid place.2 = some isRaid) && (save.canReset || method = .groupDisband) &&
    !(decide (method = .all) && (isRaid || place.1 = 2)) &&
    (isEmpty || method = .groupDisband || method = .changeDifficulty)

/-- The next bind that `ResetInstances` takes from the group. -/
def nextReset (stores : Stores) (around : Around) (method : InstanceResetMethod) (isRaid : Bool)
    (w : World) (g : Nat) : List (Nat × Nat) → Option (Option ((Nat × Nat) × Nat))
  | [] => some none
  | place :: rest =>
    match (w.groups g).lookup place with
    | none => w.nextReset stores around method isRaid g rest
    | some bind =>
      match w.mgr.saves.lookup bind.save with
      | none => none
      | some save =>
        if resets stores around method isRaid place save then some (some (place, bind.save))
        else w.nextReset stores around method isRaid g rest

/-- The loop of `ResetInstances`, for so many turns. -/
def resetLoop (stores : Stores) (around : Around) (method : InstanceResetMethod) (isRaid : Bool)
    (g difficulty : Nat) : Nat → World → Option World
  | 0, _ => none
  | turns + 1, w =>
    match w.nextReset stores around method isRaid g
        ((w.groups g).keys.filter fun place => place.1 = difficulty) with
    | none => none
    | some none => some w
    | some (some (place, ptr)) =>
      -- the bind goes before the save is told
      let w := w.eraseBind (.group g) place
      (w.mgr.removeHolder around (.group g) ptr).bind fun mgr =>
        resetLoop stores around method isRaid g difficulty turns { w with mgr := mgr }

def resetInstances (stores : Stores) (around : Around) (w : World) (g : Nat)
    (method : InstanceResetMethod) (isRaid : Bool) (difficulty : Nat) : Option World :=
  if around.isBGGroup g then some w
  else resetLoop stores around method isRaid g difficulty ((w.groups g).keys.length + 1) w

/-- What the first loop of `_ResetSave` has come to: who is to be unbound, and whether the save is
to be deleted. -/
structure Expired where
  world : World
  temp : List Nat
  shouldDelete : Bool

def expireBind (stores : Stores) (ptr : Nat) (save : InstanceSave) (e : Expired) (p : Nat) :
    Option Expired :=
  match e.world.playerGetBoundInstance stores p save.mapId save.difficulty with
  | none => some { e with temp := e.temp ++ [p] }
  | some bind =>
    if bind.save ≠ ptr then none
    else if bind.perm then
      let state := if bind.extendState = .extended then .normal else .expired
      let place := ((stores.getDownscaledMapDifficultyData save.mapId save.difficulty).2, save.mapId)
      some { e with
        world := e.world.setPlayerBind p place { bind with extendState := state }
        shouldDelete := false }
    else some { e with temp := e.temp ++ [p] }

/-- The loop of `_ResetSave` over the groups, for so many turns. -/
def unbindGroups (around : Around) (ptr : Nat) : Nat → World → Option World
  | 0, _ => none
  | turns + 1, w =>
    match w.mgr.saves.lookup ptr with
    | none => none
    | some save =>
      match save.groupList with
      | [] => some w
      | g :: _ => (w.unbindInstance around (.group g) save.place).bind (unbindGroups around ptr turns)

def setLock (w : World) (lock : Bool) : World :=
  { w with mgr := { w.mgr with lockInstLists := lock } }

def resetSave (stores : Stores) (around : Around) (w : World) (instanceId : Nat) : Option World :=
  match w.mgr.instanceSaveById.lookup instanceId with
  | none => some w
  | some ptr =>
    match w.mgr.saves.lookup ptr with
    | none => none
    | some save =>
      (save.playerList.foldlM (expireBind stores ptr save) ⟨w.setLock true, [], true⟩).bind fun e =>
      (e.temp.foldlM (fun w p => unbindInstance around w (.player p) save.place) e.world).bind
        fun w =>
      (unbindGroups around ptr (save.groupList.length + 1) w).bind fun w =>
      (if e.shouldDelete then
          (w.mgr.delete ptr).map fun mgr =>
            { w with mgr := { mgr with
                instanceSaveById := mgr.instanceSaveById.erase instanceId } }
        else some w).map (·.setLock false)

end World

inductive Op where
  | addInstanceSave (instanceId mapId difficulty : Nat) (canReset : Bool)
  | playerBindToInstance (player instanceId : Nat) (permanent : Bool)
      (extendState : Option BindExtensionState)
  | playerUnbindInstance (player mapId difficulty : Nat)
  | groupBindToInstance (group instanceId : Nat) (permanent : Bool)
  | groupUnbindInstance (group mapId difficulty : Nat)
  | resetInstances (group : Nat) (method : InstanceResetMethod) (isRaid : Bool) (difficulty : Nat)
  | changeLeader (group newLeader : Nat)
  | convertLeaderInstancesToGroup (player group : Nat) (switchLeader : Bool)
      (playerMap : Option Nat)
  | resetSave (instanceId : Nat)
  | unloadInstanceSave (instanceId : Nat)

/-- A save is bound to as the manager gives it, `GetInstanceSave`. -/
def World.apply (stores : Stores) (w : World) : Around × Op → Option World
  | (_, .addInstanceSave instanceId mapId difficulty canReset) =>
    some { w with mgr := w.mgr.addInstanceSave instanceId mapId difficulty canReset }
  | (around, .playerBindToInstance player instanceId permanent extendState) =>
    match w.mgr.instanceSaveById.lookup instanceId with
    | none => some w
    | some ptr => w.playerBindToInstance around player ptr permanent extendState
  | (around, .playerUnbindInstance player mapId difficulty) =>
    w.unbindInstance around (.player player) (difficulty, mapId)
  | (around, .groupBindToInstance group instanceId permanent) =>
    match w.mgr.instanceSaveById.lookup instanceId with
    | none => some w
    | some ptr => w.groupBindToInstance around group ptr permanent
  | (around, .groupUnbindInstance group mapId difficulty) =>
    w.unbindInstance around (.group group) (difficulty, mapId)
  | (around, .resetInstances group method isRaid difficulty) =>
    w.resetInstances stores around group method isRaid difficulty
  | (around, .changeLeader group newLeader) => w.changeLeader stores around group newLeader
  | (around, .convertLeaderInstancesToGroup player group switchLeader playerMap) =>
    w.convertLeaderInstancesToGroup stores around player group switchLeader playerMap
  | (around, .resetSave instanceId) => w.resetSave stores around instanceId
  | (around, .unloadInstanceSave instanceId) =>
    some { w with mgr := w.mgr.unloadInstanceSave around instanceId }

def World.new : World where
  mgr := ⟨∅, 0, ∅, false⟩
  players _ := ∅
  groups _ := ∅

end Ashamane.Binds
