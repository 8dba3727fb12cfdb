import Ashamane.DungeonFinding.FindGroups
import Ashamane.Lib.Words
import Mathlib.Data.Char
import Mathlib.Data.List.Lex
import Mathlib.Data.List.Sort

/-! One queue of the dungeon finder with its texts: what is known of a list of guids is
stored under the text of the list, and a guid is taken out by searching its text. -/
namespace Ashamane.DungeonQueue

open Ashamane.Lib Ashamane.DungeonFinding

abbrev Text := List Char

def hexDigits (n : Nat) : Text :=
  (List.range 32).map fun i => Nat.digitChar (n / 16 ^ (31 - i) % 16)

/-- The type of the guid is in its upper bits, for a player together with the realm. -/
def guidValue (realm : Nat) : Guid → Nat
  | .player low => (2 * 2 ^ 58 + realm * 2 ^ 42) * 2 ^ 64 + low
  | .party low => 27 * 2 ^ 58 * 2 ^ 64 + low

def guidText (realm : Nat) (guid : Guid) : Text := hexDigits (guidValue realm guid)

def concatenateGuids (realm : Nat) (check : List Guid) : Text :=
  Words.join '|' ((check.dedup.insertionSort fun a b => guidValue realm a ≤ guidValue realm b).map
    (guidText realm))

/-- `find` on texts succeeds. -/
def Mentions (text part : Text) : Prop := part <:+: text

instance (text part : Text) : Decidable (Mentions text part) :=
  inferInstanceAs (Decidable (part <:+: text))

structure LfgCompatibilityData where
  compatibility : LfgCompatibility
  roles : LfgRolesMap

structure QueueEntry where
  data : LfgQueueData
  tanks : Nat
  healers : Nat
  dps : Nat
  bestCompatible : Text

/-- `proposals` are the matches that were handed to the manager. -/
structure LFGQueue where
  realm : Nat
  queueDataStore : AList fun _ : Guid => QueueEntry
  compatibleMapStore : AList fun _ : Text => LfgCompatibilityData
  newToQueueStore : List Guid
  currentQueueStore : List Guid
  proposals : List (List Guid)

structure ManagerView extends LfgView where
  isLfgGroup : Guid → Bool
  allQueued : List Guid → Bool

namespace QueueEntry

def countRole (e : QueueEntry) (role : Nat) : QueueEntry :=
  if role &&& roleTank ≠ 0 then { e with tanks := (e.tanks + (2 ^ 8 - 1)) % 2 ^ 8 }
  else if role &&& roleHealer ≠ 0 then { e with healers := (e.healers + (2 ^ 8 - 1)) % 2 ^ 8 }
  else { e with dps := (e.dps + (2 ^ 8 - 1)) % 2 ^ 8 }

def guidCount (text : Text) : Nat := (text.count '|' + 1) % 2 ^ 8

/-- `UpdateBestCompatibleInQueue`: a larger group replaces the best one so far. -/
def updateBestCompatible (e : QueueEntry) (key : Text) (roles : LfgRolesMap) : QueueEntry :=
  let storedSize := if e.bestCompatible = [] then 0 else guidCount e.bestCompatible
  if guidCount key ≤ storedSize then e
  else
    let fresh : QueueEntry := ⟨e.data, tanksNeeded, healersNeeded, dpsNeeded, key⟩
    roles.entries.foldl (fun e role => e.countRole role.2) fresh

/-- `FindBestCompatibleInQueue` for the entry of a guid with the text `sguid`. -/
def findBestCompatible (e : QueueEntry) (store : AList fun _ : Text => LfgCompatibilityData)
    (sguid : Text) : QueueEntry :=
  let entries := store.entries.insertionSort fun a b => a.1 ≤ b.1
  entries.foldl (fun e item =>
    if item.2.compatibility = .withLessPlayers ∧ Mentions item.1 sguid then
      e.updateBestCompatible item.1 item.2.roles
    else e) e

end QueueEntry

namespace LFGQueue

variable (q : LFGQueue) (guid : Guid)

def empty (realm : Nat) : LFGQueue := ⟨realm, ∅, ∅, [], [], []⟩

def text : Text := guidText q.realm guid

def setCompatibles (key : Text) (compatibles : LfgCompatibility) : LFGQueue :=
  let roles := ((q.compatibleMapStore.lookup key).map (·.roles)).getD ∅
  { q with compatibleMapStore := q.compatibleMapStore.insert key ⟨compatibles, roles⟩ }

def setCompatibilityData (key : Text) (data : LfgCompatibilityData) : LFGQueue :=
  { q with compatibleMapStore := q.compatibleMapStore.insert key data }

def getCompatibles (key : Text) : LfgCompatibility :=
  ((q.compatibleMapStore.lookup key).map (·.compatibility)).getD .pending

def removeFromNewQueue : LFGQueue :=
  { q with newToQueueStore := q.newToQueueStore.filter (· != guid) }

def removeFromCurrentQueue : LFGQueue :=
  { q with currentQueueStore := q.currentQueueStore.filter (· != guid) }

def removeFromCompatibles : LFGQueue :=
  let mentioned := q.compatibleMapStore.keys.filter fun key => Mentions key (q.text guid)
  let store := mentioned.foldl (fun store key => store.erase key) q.compatibleMapStore
  { q with compatibleMapStore := store }

def addToCurrentQueue : LFGQueue :=
  { q with currentQueueStore := q.currentQueueStore ++ [guid] }

def addToQueue (reAdd : Bool) : LFGQueue :=
  match q.queueDataStore.lookup guid with
  | none => q
  | some _ =>
    if reAdd then { q with currentQueueStore := guid :: q.currentQueueStore }
    else { q with newToQueueStore := q.newToQueueStore ++ [guid] }

/-- What removing `guid` does to the queue data of another guid. -/
def forget (other : Guid) (e : QueueEntry) : QueueEntry :=
  if other ≠ guid ∧ Mentions e.bestCompatible (q.text guid) then
    { e with bestCompatible := [] }.findBestCompatible q.compatibleMapStore (q.text other)
  else e

def removeFromQueue : LFGQueue :=
  let q := ((q.removeFromNewQueue guid).removeFromCurrentQueue guid).removeFromCompatibles guid
  { q with queueDataStore := (Assoc.mapVal (q.forget guid) q.queueDataStore).erase guid }

def addQueueData (dungeons : LfgDungeonSet) (roles : LfgRolesMap) : LFGQueue :=
  let e : QueueEntry := ⟨⟨dungeons, roles⟩, tanksNeeded, healersNeeded, dpsNeeded, []⟩
  { q with queueDataStore := q.queueDataStore.insert guid e }.addToQueue guid false

def removeQueueData : LFGQueue := { q with queueDataStore := q.queueDataStore.erase guid }

def dataOf : Option LfgQueueData := (q.queueDataStore.lookup guid).map (·.data)

def updateBest (check : List Guid) (roles : LfgRolesMap) : LFGQueue :=
  let key := concatenateGuids q.realm check
  let update (store : AList fun _ : Guid => QueueEntry) (guid : Guid) :=
    Assoc.modify guid (·.updateBestCompatible key roles) store
  { q with queueDataStore := check.foldl update q.queueDataStore }

def takeFromQueue (check : List Guid) : LFGQueue :=
  check.foldl (fun q guid => (q.removeFromNewQueue guid).removeFromCurrentQueue guid) q

end LFGQueue

section Search

variable (view : ManagerView)

/-- `CheckCompatibility` once the guids without the first are known to be compatible. -/
def checkGroup (q : LFGQueue) (check : List Guid) : LfgCompatibility × LFGQueue :=
  let key := concatenateGuids q.realm check
  match countPlayers q.dataOf view.isLfgGroup check 0 0 with
  | .error guid => (.pending, q.removeFromQueue guid)
  | .ok (numPlayers, numLfgGroups) =>
    let roles := (proposalRoles q.dataOf view.toLfgView check).getD ∅
    match compatibilityOf q.dataOf view.toLfgView view.allQueued check numPlayers numLfgGroups with
    | .withLessPlayers =>
      (.withLessPlayers, (q.updateBest check roles).setCompatibilityData key ⟨.withLessPlayers, roles⟩)
    | .matched =>
      let taken := q.takeFromQueue check
      (.matched, { taken with proposals := taken.proposals ++ [check] }.setCompatibles key .matched)
    | compatibles => (compatibles, q.setCompatibles key compatibles)

def checkCompatibility : List Guid → LFGQueue → LfgCompatibility × LFGQueue
  | [], q => (.wrongGroupSize, q)
  | guid :: rest, q =>
    if maxGroupSize < rest.length + 1 then (.wrongGroupSize, q)
    else if 1 < rest.length then
      let child := checkCompatibility rest q
      if child.1.compatible then checkGroup view child.2 (guid :: rest)
      else (child.1, child.2.setCompatibles (concatenateGuids q.realm (guid :: rest)) child.1)
    else checkGroup view q (guid :: rest)

/-- The start of `FindNewGroups`: the compatibility that is stored, or else computed. -/
def findCompatibility (check : List Guid) (q : LFGQueue) : LfgCompatibility × LFGQueue :=
  let key := concatenateGuids q.realm check
  let stored := q.getCompatibles key
  let known := if stored = .pending then checkCompatibility view check q else (stored, q)
  if known.1 = .badStates ∧ view.allQueued check then (.matched, known.2.setCompatibles key .matched)
  else known

/-- The loop of `FindNewGroups`, along the list that the nested calls share. -/
def matchQueued (check : List Guid) : List Guid → LFGQueue → Bool × LFGQueue
  | [], q => (false, q)
  | guid :: all, q =>
    let sub := findCompatibility view (check ++ [guid]) q
    if sub.1 = .matched then (true, sub.2)
    else if sub.1 = .withLessPlayers then matchQueued (check ++ [guid]) all sub.2
    else matchQueued check all sub.2

def findNewGroups (check all : List Guid) (q : LFGQueue) : Bool × LFGQueue :=
  let first := findCompatibility view check q
  if first.1 = .withLessPlayers then matchQueued view check all first.2
  else (first.1 == .matched, first.2)

def findGroup (frontguid : Guid) (q : LFGQueue) : LFGQueue :=
  let taken := q.removeFromNewQueue frontguid
  let found := findNewGroups view [frontguid] taken.currentQueueStore taken
  if found.1 then found.2 else found.2.addToCurrentQueue frontguid

/-- The loop of `FindGroups`; each pass takes a guid from the new ones. -/
def findGroupsFuel : Nat → LFGQueue → LFGQueue
  | 0, q => q
  | fuel + 1, q =>
    match q.newToQueueStore with
    | [] => q
    | frontguid :: _ => findGroupsFuel fuel (findGroup view frontguid q)

def findGroups (q : LFGQueue) : LFGQueue := findGroupsFuel view q.newToQueueStore.length q

end Search

inductive Op where
  | addQueueData (guid : Guid) (dungeons : LfgDungeonSet) (roles : LfgRolesMap)
  | addToQueue (guid : Guid) (reAdd : Bool)
  | removeQueueData (guid : Guid)
  | removeFromQueue (guid : Guid)
  | findGroups (view : ManagerView)

namespace LFGQueue

def apply (q : LFGQueue) : Op → LFGQueue
  | .addQueueData guid dungeons roles => q.addQueueData guid dungeons roles
  | .addToQueue guid reAdd => q.addToQueue guid reAdd
  | .removeQueueData guid => q.removeQueueData guid
  | .removeFromQueue guid => q.removeFromQueue guid
  | .findGroups view => DungeonQueue.findGroups view q

def run (q : LFGQueue) (ops : List Op) : LFGQueue := ops.foldl apply q

end LFGQueue

end Ashamane.DungeonQueue
