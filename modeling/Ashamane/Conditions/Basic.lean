import Ashamane.Lib.Fuel
import Mathlib.Data.List.AList

/-! Conditions, the reference templates loaded from their table, and the checks of a list of
conditions for one object. -/
namespace Ashamane.Conditions
open Ashamane.Lib

def conditionNone : Nat := 0

def conditionMax : Nat := 49

def gridMapTypeMaskAll : BitVec 32 := 0xFF

structure ConditionRow where
  sourceTypeOrReferenceId : Int
  elseGroup : Nat
  conditionTypeOrReference : Int
  conditionTarget : Nat
  conditionValue1 : Nat
  conditionValue2 : Nat
  conditionValue3 : Nat
  negativeCondition : Bool
  scriptId : Nat
deriving DecidableEq

structure Condition where
  elseGroup : Nat
  conditionType : Nat
  conditionTarget : Nat
  conditionValue1 : Nat
  conditionValue2 : Nat
  conditionValue3 : Nat
  referenceId : Nat
  scriptId : Nat
  negativeCondition : Bool
deriving DecidableEq

def Condition.isLoaded (cond : Condition) : Bool :=
  cond.conditionType > conditionNone || cond.referenceId ≠ 0

abbrev ReferenceStore := AList fun _ : Nat => List Condition

def ConditionRow.condition (row : ConditionRow) : Condition where
  elseGroup := row.elseGroup
  conditionType := if row.conditionTypeOrReference ≥ 0 then row.conditionTypeOrReference.toNat
    else conditionNone
  conditionTarget := row.conditionTarget
  conditionValue1 := row.conditionValue1
  conditionValue2 := row.conditionValue2
  conditionValue3 := row.conditionValue3
  referenceId := 0
  scriptId := row.scriptId
  negativeCondition := row.negativeCondition

section Load

-- what the cases of the condition types find of their values
variable (valuesValid : Condition → Bool)

/-- Every type but `CONDITION_NONE` has a case; the default refuses. -/
def isConditionTypeValid (cond : Condition) : Bool :=
  conditionNone < cond.conditionType && cond.conditionType < conditionMax && valuesValid cond

def readCondition (row : ConditionRow) : Option Condition :=
  if row.conditionTypeOrReference < 0 then
    -- a condition that refers to the template it is in is skipped
    if row.conditionTypeOrReference = row.sourceTypeOrReferenceId then none
    else some { row.condition with referenceId := row.conditionTypeOrReference.natAbs }
  else if isConditionTypeValid valuesValid row.condition then some row.condition
  else none

def loadReference (store : ReferenceStore) (row : ConditionRow) : ReferenceStore :=
  match readCondition valuesValid row with
  | none => store
  | some cond =>
    if row.sourceTypeOrReferenceId < 0 then
      let template := row.sourceTypeOrReferenceId.natAbs
      store.insert template ((store.lookup template).getD [] ++ [cond])
    else store

/-- `LoadConditions`, after `Clean`. -/
def loadConditions (rows : List ConditionRow) : ReferenceStore :=
  rows.foldl (loadReference valuesValid) ∅

end Load

/-- What both walks do at a condition: `refer` answers for the template of a reference. -/
def Condition.ask {β : Type} (store : ReferenceStore) (refer : List Condition → Option β)
    (missing plain : β) (cond : Condition) : Option β :=
  if cond.referenceId ≠ 0 then
    match store.lookup cond.referenceId with
    | some template => refer template
    | none => some missing
  else some plain

section Meet

-- `Meets` for the object that is checked
variable (meets : Condition → Bool) (store : ReferenceStore)

def Condition.check (refer : List Condition → Option Bool) (cond : Condition) : Option Bool :=
  cond.ask store refer true (meets cond)

def meetStep (refer : List Condition → Option Bool) (elseGroupStore : AList fun _ : Nat => Bool)
    (cond : Condition) : Option (AList fun _ : Nat => Bool) :=
  if cond.isLoaded then
    let check (groups : AList fun _ : Nat => Bool) :=
      (cond.check meets store refer).map fun met =>
        if met then groups else groups.insert cond.elseGroup false
    match elseGroupStore.lookup cond.elseGroup with
    | none => check (elseGroupStore.insert cond.elseGroup true)
    | some false => some elseGroupStore
    | some true => check elseGroupStore
  else some elseGroupStore

/-- The body of `IsObjectMeetToConditionList`. -/
def meetBody (refer : List Condition → Option Bool) (conditions : List Condition) : Option Bool :=
  (conditions.foldlM (meetStep meets store refer) ∅).map fun elseGroupStore =>
    elseGroupStore.entries.any fun group => group.2

def isObjectMeetToConditionList : Nat → List Condition → Option Bool :=
  Fuel.run (meetBody meets store)

end Meet

section Masks

inductive Assertion where
  /-- Not yet loaded condition found in list. -/
  | notLoaded
  /-- Incorrect reference. -/
  | incorrectReference
deriving DecidableEq

-- `GetSearcherTypeMaskForCondition`
variable (maskForCondition : Condition → BitVec 32) (store : ReferenceStore)

abbrev Masks := AList fun _ : Nat => BitVec 32

def Condition.mask (refer : List Condition → Option (Except Assertion (BitVec 32)))
    (cond : Condition) : Option (Except Assertion (BitVec 32)) :=
  cond.ask store refer (.error .incorrectReference) (.ok (maskForCondition cond))

def maskStep (refer : List Condition → Option (Except Assertion (BitVec 32)))
    (walked : Except Assertion Masks) (cond : Condition) : Option (Except Assertion Masks) :=
  match walked with
  | .error assertion => some (.error assertion)
  | .ok masks =>
    if cond.isLoaded then
      let narrow (mask : BitVec 32) :=
        (cond.mask maskForCondition store refer).map fun answer =>
          answer.map fun other => masks.insert cond.elseGroup (mask &&& other)
      match masks.lookup cond.elseGroup with
      | none => narrow gridMapTypeMaskAll
      | some mask => if mask = 0 then some (.ok masks) else narrow mask
    else some (.error .notLoaded)

/-- The body of `GetSearcherTypeMaskForConditionList`. -/
def maskBody (refer : List Condition → Option (Except Assertion (BitVec 32)))
    (conditions : List Condition) : Option (Except Assertion (BitVec 32)) :=
  if conditions.isEmpty then some (.ok gridMapTypeMaskAll)
  else (conditions.foldlM (maskStep maskForCondition store refer) (.ok ∅)).map fun walked =>
    walked.map fun masks => masks.entries.foldl (fun mask group => mask ||| group.2) 0

def getSearcherTypeMaskForConditionList :
    Nat → List Condition → Option (Except Assertion (BitVec 32)) :=
  Fuel.run (maskBody maskForCondition store)

end Masks

end Ashamane.Conditions
