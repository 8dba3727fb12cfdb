import Ashamane.Lib.Assoc
import Ashamane.Lib.Column
import Ashamane.Lib.Pointwise
import Mathlib.Data.UInt

/-! The battle pets of an account: the pets in memory with the mark that the next save reads, the
rows of the table, and the requests between them. -/
namespace Ashamane.BattlePets
open Ashamane.Lib Ashamane.Lib.Assoc

abbrev PetGuid := Nat

inductive SaveInfo where
  | unchanged | changed | new | removed
  deriving DecidableEq, Repr

structure BattlePet where
  species : Nat
  creatureID : Nat
  breed : Nat
  level : Nat
  exp : Nat
  health : UInt32
  maxHealth : UInt32
  quality : Nat
  flags : UInt16
  name : String
  saveInfo : SaveInfo
  deriving DecidableEq, Repr

structure Row where
  species : Nat
  breed : Nat
  level : Nat
  exp : Nat
  health : UInt32
  quality : Nat
  flags : UInt16
  name : String
  deriving DecidableEq, Repr

def BattlePet.row (pet : BattlePet) : Row where
  species := pet.species
  breed := pet.breed
  level := pet.level
  exp := pet.exp
  health := pet.health
  quality := pet.quality
  flags := pet.flags
  name := pet.name

structure Row.Storable (row : Row) : Prop where
  species : row.species < 2 ^ 31
  breed : row.breed < 2 ^ 15
  level : row.level < 2 ^ 15
  exp : row.exp < 2 ^ 15
  health : row.health.toNat < 2 ^ 31
  quality : row.quality < 2 ^ 7
  flags : row.flags.toNat < 2 ^ 15
  name : TextFits 12 row.name

structure CageItem where
  guid : PetGuid
  speciesId : Nat
  breedData : Nat
  level : Nat
  displayId : Nat
  deriving DecidableEq, Repr

/-- The creature of a species that exists; the maximal health that `CalculateStats` sets, if the
breed exists; a percentage of a health; and what the columns of `battle_pets` make of values that
are written, `none` if the statement fails. -/
structure Tables where
  speciesStore : Nat → Option Nat
  calculateMaxHealth : BattlePet → Option UInt32
  calculatePct : UInt32 → UInt8 → UInt32
  store : Row → Option Row

/-- `removed` notes the pets that `RemovePet` was called for, `cages` the items made. -/
structure Account where
  pets : AList fun _ : PetGuid => BattlePet
  rows : AList fun _ : PetGuid => Row
  nextGuid : PetGuid
  removed : List PetGuid
  cages : List CageItem

def MAX_BATTLE_PETS_PER_SPECIES : Nat := 3

def calculateStats (tables : Tables) (pet : BattlePet) : BattlePet :=
  match tables.calculateMaxHealth pet with
  | some maxHealth => { pet with maxHealth := maxHealth, health := maxHealth }
  | none => pet

def BattlePet.countsFor (species : Nat) (pet : BattlePet) : Nat :=
  if pet.species = species ∧ pet.saveInfo ≠ .removed then 1 else 0

def getPetCount (pets : AList fun _ : PetGuid => BattlePet) (species : Nat) : Nat :=
  total (BattlePet.countsFor species) pets % 256

def loadedPet (tables : Tables) (creatureID : Nat) (row : Row) : BattlePet :=
  calculateStats tables
    { species := row.species, creatureID, breed := row.breed, level := row.level
      exp := row.exp, health := row.health, maxHealth := 0, quality := row.quality
      flags := row.flags, name := row.name, saveInfo := .unchanged }

def loadPet (tables : Tables) (pets : AList fun _ : PetGuid => BattlePet) (guid : PetGuid)
    (row : Row) : AList fun _ : PetGuid => BattlePet :=
  match tables.speciesStore row.species with
  | none => pets
  | some creatureID =>
    if MAX_BATTLE_PETS_PER_SPECIES ≤ getPetCount pets row.species then pets
    else pets.insert guid (loadedPet tables creatureID row)

def loadFromDB (tables : Tables) (rows : AList fun _ : PetGuid => Row) :
    AList fun _ : PetGuid => BattlePet :=
  rows.entries.foldl (fun pets e => loadPet tables pets e.1 e.2) ∅

namespace Account

def opened (tables : Tables) (rows : AList fun _ : PetGuid => Row) (nextGuid : PetGuid) :
    Account where
  pets := loadFromDB tables rows
  rows := rows
  nextGuid := nextGuid
  removed := []
  cages := []

def addPet (tables : Tables) (a : Account) (species creatureID breed quality level : Nat) :
    Account :=
  match tables.speciesStore species with
  | none => a
  | some _ =>
    if MAX_BATTLE_PETS_PER_SPECIES ≤ getPetCount a.pets species then a
    else
      let pet := calculateStats tables
        { species, creatureID, breed, level, exp := 0, health := 0, maxHealth := 0, quality
          flags := 0, name := "", saveInfo := .new }
      { a with
        pets := a.pets.insert a.nextGuid { pet with health := pet.maxHealth }
        nextGuid := a.nextGuid + 1 }

def removePet (a : Account) (guid : PetGuid) : Account :=
  match a.pets.lookup guid with
  | none => a
  | some _ =>
    { a with
      pets := modify guid (fun pet => { pet with saveInfo := .removed }) a.pets
      removed := guid :: a.removed }

/-- `stored` says whether the bags had room for the cage item and it was made. -/
def cageBattlePet (a : Account) (guid : PetGuid) (stored : Bool) : Account :=
  match a.pets.lookup guid with
  | none => a
  | some pet =>
    if stored then
      { a with
        cages := ⟨guid, pet.species, pet.breed ||| pet.quality <<< 24, pet.level,
          pet.creatureID⟩ :: a.cages }.removePet guid
    else a

def touch (pet : BattlePet) : BattlePet :=
  if pet.saveInfo ≠ .new then { pet with saveInfo := .changed } else pet

def healBattlePetsPct (tables : Tables) (a : Account) (pct : UInt8) : Account :=
  { a with
    pets := mapVal (fun _ pet =>
      if pet.health ≠ pet.maxHealth then
        touch { pet with
          health := min (pet.health + tables.calculatePct pet.maxHealth pct) pet.maxHealth }
      else pet) a.pets }

def handleBattlePetModifyName (a : Account) (guid : PetGuid) (name : String) : Account :=
  { a with pets := modify guid (fun pet => touch { pet with name := name }) a.pets }

/-- `apply` is the control type `FLAGS_CONTROL_TYPE_APPLY`; any other type removes. -/
def handleBattlePetSetFlags (a : Account) (guid : PetGuid) (flags : UInt32) (apply : Bool) :
    Account :=
  { a with
    pets := modify guid (fun pet => touch { pet with
      flags := if apply then pet.flags ||| flags.toUInt16 else pet.flags &&& ~~~flags.toUInt16 }) a.pets }

/-- What `UPDATE` writes into a row; species and breed stay. -/
def updateRow (written row : Row) : Row :=
  { row with
    level := written.level, exp := written.exp, health := written.health
    quality := written.quality, flags := written.flags, name := written.name }

def savePet (tables : Tables) (a : Account) (guid : PetGuid) : Account :=
  match a.pets.lookup guid with
  | none => a
  | some pet =>
    match pet.saveInfo with
    | .new =>
      { a with
        rows := (tables.store pet.row).elim a.rows fun written => a.rows.insert guid written
        pets := a.pets.insert guid { pet with saveInfo := .unchanged } }
    | .changed =>
      { a with
        rows := (tables.store pet.row).elim a.rows fun written =>
          modify guid (updateRow written) a.rows
        pets := a.pets.insert guid { pet with saveInfo := .unchanged } }
    | .removed => { a with rows := a.rows.erase guid, pets := a.pets.erase guid }
    | .unchanged => a

def rejected (tables : Tables) (a : Account) : Bool :=
  a.pets.entries.any fun e => (e.2.saveInfo = .new || e.2.saveInfo = .changed) &&
    (tables.store e.2.row).isNone

def savePets (tables : Tables) (a : Account) : Account := a.pets.keys.foldl (savePet tables) a

/-- When the transaction is rolled back, the pets have lost their marks all the same. -/
def saveToDB (tables : Tables) (a : Account) : Account :=
  if a.rejected tables then { a.savePets tables with rows := a.rows } else a.savePets tables

end Account

inductive Op where
  | addPet (species creatureID breed quality level : Nat)
  | removePet (guid : PetGuid)
  | cageBattlePet (guid : PetGuid) (stored : Bool)
  | healBattlePetsPct (pct : UInt8)
  | modifyName (guid : PetGuid) (name : String)
  | setFlags (guid : PetGuid) (flags : UInt32) (apply : Bool)
  | saveToDB
  deriving DecidableEq, Repr

namespace Account

def apply (tables : Tables) (a : Account) : Op → Account
  | .addPet species creatureID breed quality level =>
    a.addPet tables species creatureID breed quality level
  | .removePet guid => a.removePet guid
  | .cageBattlePet guid stored => a.cageBattlePet guid stored
  | .healBattlePetsPct pct => a.healBattlePetsPct tables pct
  | .modifyName guid name => a.handleBattlePetModifyName guid name
  | .setFlags guid flags apply => a.handleBattlePetSetFlags guid flags apply
  | .saveToDB => a.saveToDB tables

def livePet (a : Account) (guid : PetGuid) : Option BattlePet :=
  (a.pets.lookup guid).filter fun pet => pet.saveInfo ≠ .removed

end Account

end Ashamane.BattlePets
