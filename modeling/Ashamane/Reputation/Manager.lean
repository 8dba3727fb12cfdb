import Ashamane.Lib.Assoc
import Mathlib.Data.List.Sort

/-! The reputations of a player: what `ReputationMgr` keeps of each faction, its counters, and the
rows in the database. The packets are left out. -/
namespace Ashamane.Reputation
open Ashamane.Lib

inductive ReputationRank
  | hated
  | hostile
  | unfriendly
  | neutral
  | friendly
  | honored
  | revered
  | exalted
  deriving DecidableEq, Repr

def ReputationRank.toNat : ReputationRank → Nat
  | .hated => 0
  | .hostile => 1
  | .unfriendly => 2
  | .neutral => 3
  | .friendly => 4
  | .honored => 5
  | .revered => 6
  | .exalted => 7

instance : LE ReputationRank := ⟨fun a b => a.toNat ≤ b.toNat⟩

instance (a b : ReputationRank) : Decidable (a ≤ b) := inferInstanceAs (Decidable (_ ≤ _))

def pointsInRank : ReputationRank → Int32
  | .hated => 36000
  | .hostile => 3000
  | .unfriendly => 3000
  | .neutral => 3000
  | .friendly => 6000
  | .honored => 12000
  | .revered => 21000
  | .exalted => 1000

def Reputation_Cap : Int32 := 42999

def Reputation_Bottom : Int32 := -42000

def rankFrom (standing limit : Int32) : List ReputationRank → ReputationRank
  | [] => .hated
  | rank :: ranks =>
    let limit := limit - pointsInRank rank
    if standing ≥ limit then rank else rankFrom standing limit ranks

def reputationToRank (standing : Int32) : ReputationRank :=
  rankFrom standing (Reputation_Cap + 1)
    [.exalted, .revered, .honored, .friendly, .neutral, .unfriendly, .hostile, .hated]

def FACTION_FLAG_VISIBLE : UInt8 := 0x01
def FACTION_FLAG_AT_WAR : UInt8 := 0x02
def FACTION_FLAG_HIDDEN : UInt8 := 0x04
def FACTION_FLAG_INVISIBLE_FORCED : UInt8 := 0x08
def FACTION_FLAG_PEACE_FORCED : UInt8 := 0x10
def FACTION_FLAG_INACTIVE : UInt8 := 0x20
def FACTION_FLAG_SPECIAL : UInt8 := 0x80

/-- `ρ` stands for the floats. -/
structure FactionEntry (ρ : Type) where
  ReputationRaceMask : Fin 4 → UInt64
  ID : UInt32
  ReputationBase : Fin 4 → Int32
  ParentFactionMod : Fin 2 → ρ
  ReputationIndex : Int16
  ReputationClassMask : Fin 4 → Int16
  ReputationFlags : Fin 4 → UInt16
  ParentFactionID : UInt16
  ParentFactionCap : Fin 2 → UInt8

structure Player where
  raceMask : UInt64
  classMask : UInt32
  deriving DecidableEq, Repr

structure FactionState where
  ID : UInt32
  ReputationListID : UInt32
  Standing : Int32
  Flags : UInt8
  needSend : Bool
  needSave : Bool
  deriving DecidableEq, Repr

variable {ρ : Type}

namespace FactionEntry

def canHaveReputation (factionEntry : FactionEntry ρ) : Bool := factionEntry.ReputationIndex ≥ 0

def repListID (factionEntry : FactionEntry ρ) : UInt32 :=
  factionEntry.ReputationIndex.toInt32.toUInt32

def defaults (factionEntry : FactionEntry ρ) (player : Player) : Option (Fin 4) :=
  (List.finRange 4).find? fun i =>
    (factionEntry.ReputationRaceMask i &&& player.raceMask ≠ 0 ||
        factionEntry.ReputationRaceMask i = 0 && factionEntry.ReputationClassMask i ≠ 0) &&
      ((factionEntry.ReputationClassMask i).toInt32.toUInt32 &&& player.classMask ≠ 0 ||
        factionEntry.ReputationClassMask i = 0)

def getBaseReputation (factionEntry : FactionEntry ρ) (player : Player) : Int32 :=
  match factionEntry.defaults player with
  | some i => factionEntry.ReputationBase i
  | none => 0

def getDefaultStateFlags (factionEntry : FactionEntry ρ) (player : Player) : UInt32 :=
  match factionEntry.defaults player with
  | some i => (factionEntry.ReputationFlags i).toUInt32
  | none => 0

def getBaseRank (factionEntry : FactionEntry ρ) (player : Player) : ReputationRank :=
  reputationToRank (factionEntry.getBaseReputation player)

end FactionEntry

/-- `sFactionStore`; no two factions that can have a reputation share an index. -/
structure FactionStore (ρ : Type) where
  entries : List (FactionEntry ρ)
  ids : (entries.map FactionEntry.ID).Nodup
  indexes : ((entries.filter FactionEntry.canHaveReputation).map FactionEntry.ReputationIndex).Nodup

def FactionStore.lookupEntry (store : FactionStore ρ) (id : UInt32) : Option (FactionEntry ρ) :=
  store.entries.find? fun factionEntry => factionEntry.ID = id

/-- One of the five factions of a `RepSpilloverTemplate`. -/
structure Spillover (ρ : Type) where
  faction : UInt32
  faction_rate : ρ
  faction_rank : UInt32

structure Floats (ρ : Type) where
  ofInt : Int32 → ρ
  mul : ρ → ρ → ρ
  toInt : ρ → Int32
  isZero : ρ → Bool
  /-- The points times `RATE_REPUTATION_GAIN`, rounded. -/
  gain : Int32 → Int32

structure World (ρ : Type) where
  player : Player
  store : FactionStore ρ
  spillovers : AList fun _ : UInt32 => Vector (Spillover ρ) 5
  teamLists : AList fun _ : UInt32 => List UInt32
  floats : Floats ρ

structure ReputationMgr where
  factions : AList fun _ : UInt32 => FactionState
  visibleFactionCount : UInt8
  honoredFactionCount : UInt8
  reveredFactionCount : UInt8
  exaltedFactionCount : UInt8
  sendFactionIncreased : Bool

structure Row where
  standing : Int32
  flags : UInt16
  deriving DecidableEq, Repr

abbrev Rows : Type := AList fun _ : UInt16 => Row

def FactionState.has (faction : FactionState) (flags : UInt8) : Bool := faction.Flags &&& flags ≠ 0

def FactionState.setAtWar (faction : FactionState) (atWar : Bool) : FactionState :=
  if atWar && faction.has FACTION_FLAG_PEACE_FORCED then faction
  else if faction.has FACTION_FLAG_AT_WAR = atWar then faction
  else
    { faction with
      Flags := if atWar then faction.Flags ||| FACTION_FLAG_AT_WAR
        else faction.Flags &&& ~~~FACTION_FLAG_AT_WAR
      needSend := true
      needSave := true }

def FactionState.setInactive (faction : FactionState) (inactive : Bool) : FactionState :=
  if inactive && (faction.has (FACTION_FLAG_INVISIBLE_FORCED ||| FACTION_FLAG_HIDDEN) ||
      !faction.has FACTION_FLAG_VISIBLE) then faction
  else if faction.has FACTION_FLAG_INACTIVE = inactive then faction
  else
    { faction with
      Flags := if inactive then faction.Flags ||| FACTION_FLAG_INACTIVE
        else faction.Flags &&& ~~~FACTION_FLAG_INACTIVE
      needSend := true
      needSave := true }

/-- What `LoadFromDB` does with the flags of a row after `FACTION_FLAG_VISIBLE`. -/
def FactionState.loadFlags (faction : FactionState) (dbFactionFlags : UInt16)
    (rank : ReputationRank) : FactionState :=
  let faction := if dbFactionFlags &&& FACTION_FLAG_INACTIVE.toUInt16 ≠ 0 then
      faction.setInactive true
    else faction
  let faction := if dbFactionFlags &&& FACTION_FLAG_AT_WAR.toUInt16 ≠ 0 then
      faction.setAtWar true
    else if faction.has FACTION_FLAG_VISIBLE then faction.setAtWar false
    else faction
  let faction := if rank ≤ .hostile then faction.setAtWar true else faction
  -- the same as in the database
  if faction.Flags.toUInt16 = dbFactionFlags then { faction with needSend := false, needSave := false }
  else faction

/-- One of the counters in `UpdateRankCounters`. -/
def recount (rank old_rank new_rank : ReputationRank) (count : UInt8) : UInt8 :=
  let count := if old_rank ≥ rank then count - 1 else count
  if new_rank ≥ rank then count + 1 else count

namespace ReputationMgr

def empty : ReputationMgr := ⟨∅, 0, 0, 0, 0, false⟩

variable (W : World ρ) (m : ReputationMgr)

def updateRankCounters (old_rank new_rank : ReputationRank) : ReputationMgr :=
  { m with
    exaltedFactionCount := recount .exalted old_rank new_rank m.exaltedFactionCount
    reveredFactionCount := recount .revered old_rank new_rank m.reveredFactionCount
    honoredFactionCount := recount .honored old_rank new_rank m.honoredFactionCount }

def getState (factionEntry : FactionEntry ρ) : Option FactionState :=
  if factionEntry.canHaveReputation then m.factions.lookup factionEntry.repListID else none

def getReputation (factionEntry : FactionEntry ρ) : Int32 :=
  match m.getState factionEntry with
  | some state => factionEntry.getBaseReputation W.player + state.Standing
  | none => 0

def getRank (factionEntry : FactionEntry ρ) : ReputationRank :=
  reputationToRank (m.getReputation W factionEntry)

def getReputationRank (faction : UInt32) : ReputationRank :=
  match W.store.lookupEntry faction with
  | some factionEntry => m.getRank W factionEntry
  | none => reputationToRank 0

def put (index : UInt32) (faction : FactionState) : ReputationMgr :=
  { m with factions := m.factions.insert index faction }

/-- `SetVisible` of a state -/
def setVisibleState (faction : FactionState) : ReputationMgr × FactionState :=
  if faction.has (FACTION_FLAG_INVISIBLE_FORCED ||| FACTION_FLAG_HIDDEN) &&
      !faction.has FACTION_FLAG_SPECIAL then (m, faction)
  else if faction.has FACTION_FLAG_VISIBLE then (m, faction)
  else
    ({ m with visibleFactionCount := m.visibleFactionCount + 1 },
      { faction with
        Flags := faction.Flags ||| FACTION_FLAG_VISIBLE
        needSend := true
        needSave := true })

def setVisible (factionEntry : FactionEntry ρ) : ReputationMgr :=
  if factionEntry.canHaveReputation then
    match m.factions.lookup factionEntry.repListID with
    | none => m
    | some faction =>
      let (m, faction) := m.setVisibleState faction
      m.put factionEntry.repListID faction
  else m

/-- `SetVisible` of a faction template with this faction -/
def setVisibleTemplate (faction : UInt32) : ReputationMgr :=
  if faction = 0 then m
  else
    match W.store.lookupEntry faction with
    | none => m
    | some factionEntry =>
      -- never show factions of the opposing team
      if factionEntry.ReputationRaceMask 1 &&& W.player.raceMask ≠ 0 ∧
          factionEntry.ReputationBase 1 = Reputation_Bottom then m
      else m.setVisible factionEntry

def setAtWar (index : UInt32) (on : Bool) : ReputationMgr :=
  match m.factions.lookup index with
  | none => m
  | some faction =>
    if faction.has (FACTION_FLAG_INVISIBLE_FORCED ||| FACTION_FLAG_HIDDEN) then m
    else m.put index (faction.setAtWar on)

def setInactive (index : UInt32) (on : Bool) : ReputationMgr :=
  match m.factions.lookup index with
  | none => m
  | some faction => m.put index (faction.setInactive on)

def initializeFaction (factionEntry : FactionEntry ρ) : ReputationMgr :=
  if factionEntry.canHaveReputation then
    let newFaction : FactionState :=
      { ID := factionEntry.ID
        ReputationListID := factionEntry.repListID
        Standing := 0
        Flags := (factionEntry.getDefaultStateFlags W.player).toUInt8
        needSend := true
        needSave := true }
    let m := if newFaction.has FACTION_FLAG_VISIBLE then
        { m with visibleFactionCount := m.visibleFactionCount + 1 }
      else m
    let m := m.updateRankCounters .hostile (factionEntry.getBaseRank W.player)
    m.put newFaction.ReputationListID newFaction
  else m

/-- `Initialize` -/
def start : ReputationMgr := W.store.entries.foldl (initializeFaction W) empty

def setOneFactionReputation (factionEntry : FactionEntry ρ) (standing : Int32)
    (incremental : Bool) : Bool × ReputationMgr :=
  match m.factions.lookup factionEntry.repListID with
  | none => (false, m)
  | some faction =>
    let baseRep := factionEntry.getBaseReputation W.player
    let standing := if incremental then W.floats.gain standing + (faction.Standing + baseRep)
      else standing
    let standing := if standing > Reputation_Cap then Reputation_Cap
      else if standing < Reputation_Bottom then Reputation_Bottom
      else standing
    let old_rank := reputationToRank (faction.Standing + baseRep)
    let new_rank := reputationToRank standing
    let faction := { faction with
      Standing := standing - baseRep
      needSend := true
      needSave := true }
    let (m, faction) := m.setVisibleState faction
    let faction := if new_rank ≤ .hostile then faction.setAtWar true else faction
    let m := if new_rank.toNat > old_rank.toNat then { m with sendFactionIncreased := true } else m
    let m := m.updateRankCounters old_rank new_rank
    (true, m.put factionEntry.repListID faction)

def sendState : ReputationMgr :=
  { m with
    factions := Assoc.mapVal (fun _ faction => { faction with needSend := false }) m.factions
    sendFactionIncreased := false }

def spillTemplate (standing : Int32) (incremental : Bool) (spillover : Spillover ρ) :
    Option ReputationMgr :=
  if spillover.faction = 0 then some m
  else if (m.getReputationRank W spillover.faction).toNat ≤ spillover.faction_rank.toNat then do
    let target ← W.store.lookupEntry spillover.faction
    let spilloverRep := W.floats.toInt (W.floats.mul (W.floats.ofInt standing) spillover.faction_rate)
    some (m.setOneFactionReputation W target spilloverRep incremental).2
  else some m

/-- An affiliated faction of `factionEntry`, with what the call before has returned. -/
def spillTeam (factionEntry : FactionEntry ρ) (spillOverRepOut : ρ) (incremental : Bool)
    (s : Bool × ReputationMgr) (faction : UInt32) : Bool × ReputationMgr :=
  match W.store.lookupEntry faction with
  | none => s
  | some factionEntryCalc =>
    if factionEntryCalc.ID = factionEntry.ID ∨
        (s.2.getRank W factionEntryCalc).toNat > (factionEntryCalc.ParentFactionCap 0).toNat then s
    else
      let spilloverRep :=
        W.floats.toInt (W.floats.mul spillOverRepOut (factionEntryCalc.ParentFactionMod 0))
      if spilloverRep ≠ 0 ∨ !incremental then
        s.2.setOneFactionReputation W factionEntryCalc spilloverRep incremental
      else s

/-- What `SetReputation` spills over to other factions. -/
def spill (factionEntry : FactionEntry ρ) (standing : Int32) (incremental : Bool) :
    Option (Bool × ReputationMgr) :=
  match W.spillovers.lookup factionEntry.ID with
  | some repTemplate => do
    let m ← repTemplate.toList.foldlM (fun m spillover =>
      m.spillTemplate W standing incremental spillover) m
    some (false, m)
  | none =>
    let spillOverRepOut := W.floats.ofInt standing
    match W.teamLists.lookup factionEntry.ID with
    | some flist =>
      some (flist.foldl (spillTeam W factionEntry spillOverRepOut incremental) (false, m))
    | none =>
      if factionEntry.ParentFactionID ≠ 0 ∧ !W.floats.isZero (factionEntry.ParentFactionMod 1) then
        let spillOverRepOut := W.floats.mul spillOverRepOut (factionEntry.ParentFactionMod 1)
        match W.store.lookupEntry factionEntry.ParentFactionID.toUInt32 with
        | none => some (false, m)
        | some parent =>
          if (m.factions.lookup parent.repListID).any (·.has FACTION_FLAG_SPECIAL) then
            some (false,
              (m.setOneFactionReputation W parent (W.floats.toInt spillOverRepOut) incremental).2)
          else
            match W.teamLists.lookup factionEntry.ParentFactionID.toUInt32 with
            | none => some (false, m)
            | some flist =>
              some (flist.foldl (spillTeam W factionEntry spillOverRepOut incremental) (false, m))
      else some (false, m)

/-- `standing` is what the scripts have left of it. -/
def setReputation (factionEntry : FactionEntry ρ) (standing : Int32)
    (incremental noSpillover : Bool) : Option (Bool × ReputationMgr) := do
  let (res, m) ←
    (if noSpillover then some (false, m) else m.spill W factionEntry standing incremental)
  match m.factions.lookup factionEntry.repListID with
  | none => some (res, m)
  | some _ =>
    let (res, m) := m.setOneFactionReputation W factionEntry standing incremental
    some (res, m.sendState)

def loadRow (row : Sigma fun _ : UInt16 => Row) : ReputationMgr :=
  match W.store.lookupEntry row.1.toUInt32 with
  | none => m
  | some factionEntry =>
    if factionEntry.canHaveReputation then
      let faction := (m.factions.lookup factionEntry.repListID).getD ⟨0, 0, 0, 0, false, false⟩
      let faction := { faction with Standing := row.2.standing }
      let baseRep := factionEntry.getBaseReputation W.player
      let m := m.updateRankCounters (reputationToRank baseRep)
        (reputationToRank (baseRep + faction.Standing))
      let dbFactionFlags := row.2.flags
      let (m, faction) := if dbFactionFlags &&& FACTION_FLAG_VISIBLE.toUInt16 ≠ 0 then
          m.setVisibleState faction
        else (m, faction)
      let faction := faction.loadFlags dbFactionFlags (reputationToRank (baseRep + faction.Standing))
      m.put factionEntry.repListID faction
    else m

def loadFromDB (rows : Rows) : ReputationMgr := rows.entries.foldl (loadRow W) (start W)

def saveFaction (s : ReputationMgr × Rows) (index : UInt32) : ReputationMgr × Rows :=
  match s.1.factions.lookup index with
  | none => s
  | some faction =>
    if faction.needSave then
      (s.1.put index { faction with needSave := false },
        (s.2.erase faction.ID.toUInt16).insert faction.ID.toUInt16
          ⟨faction.Standing, faction.Flags.toUInt16⟩)
    else s

def saveToDB (rows : Rows) : ReputationMgr × Rows :=
  (m.factions.keys.insertionSort (· ≤ ·)).foldl saveFaction (m, rows)

end ReputationMgr

end Ashamane.Reputation
