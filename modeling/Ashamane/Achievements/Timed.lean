import Ashamane.Achievements.Basic
import Ashamane.Lib.Assoc

/-! Criteria with a time limit: the timers of their trees and their progress. -/
namespace Ashamane.Achievements
open Ashamane.Lib

/-- A loaded tree without a loaded parent; it may name a parent all the same. -/
structure Root where
  tree : CriteriaTree
  hasParent : Bool

structure Forest where
  roots : List Root
  criteria : List Criteria
  distinctRoots : ∀ a ∈ roots, ∀ b ∈ roots, a.tree.id = b.tree.id → a = b
  distinctCriteria : ∀ a ∈ criteria, ∀ b ∈ criteria, a.id = b.id → a = b

def CriteriaTree.carries (tree : CriteriaTree) (criteria : Criteria) : Bool :=
  tree.criteria.map Criteria.id = some criteria.id

namespace Forest

/-- `GetCriteriaTreesByCriteria`, as `LoadCriteriaList` builds it: the root above each node with
the criterion, once for each node; a root that names no parent is not entered for itself. -/
def criteriaTreesByCriteria (forest : Forest) (criteria : Criteria) : List CriteriaTree :=
  forest.roots.flatMap fun root =>
    (if root.hasParent && root.tree.carries criteria then [root.tree] else []) ++
      ((CriteriaTree.walkAll root.tree.children).filter fun node => node.carries criteria).map
        fun _ => root.tree

def timedCriteriaByType (forest : Forest) (type : Nat) : List Criteria :=
  forest.criteria.filter fun criteria => criteria.startTimer ≠ 0 && criteria.startEvent = type

def criteriaTree (forest : Forest) (id : Nat) : Option CriteriaTree :=
  (forest.roots.find? fun root => root.tree.id = id).map Root.tree

end Forest

/-- `_timeCriteriaTrees` and `_criteriaProgress`, with a record of the trees that were completed
when their timer ended. -/
structure Handler where
  timeCriteriaTrees : AList fun _ : Nat => Nat
  criteriaProgress : CriteriaProgressMap
  succeeded : List Nat

def Handler.empty : Handler := ⟨∅, ∅, []⟩

inductive ProgressType
  | set
  | accumulate
  | highest
  deriving DecidableEq, Repr

def newCounter (progressType : ProgressType) (counter changeValue : BitVec 64) : BitVec 64 :=
  match progressType with
  | .set => changeValue
  -- the sum stops at the largest number
  | .accumulate =>
    if changeValue < BitVec.allOnes 64 - counter then counter + changeValue
    else BitVec.allOnes 64
  | .highest => if counter < changeValue then changeValue else counter

namespace Handler

def running (h : Handler) (tree : CriteriaTree) : Bool := tree.id ∈ h.timeCriteriaTrees

def removeCriteriaProgress (criteria : Criteria) (h : Handler) : Handler :=
  { h with criteriaProgress := h.criteriaProgress.erase criteria.id }

def stopCompleted (canComplete : CriteriaTree → Bool) (trees : List CriteriaTree) (h : Handler) :
    Handler :=
  trees.foldl (fun h tree =>
    if h.running tree && isCompletedCriteriaTree h.criteriaProgress canComplete tree then
      { h with
        timeCriteriaTrees := h.timeCriteriaTrees.erase tree.id
        succeeded := tree.id :: h.succeeded }
    else h) h

def writeProgress (forest : Forest) (canComplete : CriteriaTree → Bool) (criteria : Criteria)
    (counter : BitVec 64) (h : Handler) : Handler :=
  let h := { h with criteriaProgress := h.criteriaProgress.insert criteria.id counter }
  if criteria.startTimer ≠ 0 then
    h.stopCompleted canComplete (forest.criteriaTreesByCriteria criteria)
  else h

def setCriteriaProgress (forest : Forest) (canComplete : CriteriaTree → Bool)
    (criteria : Criteria) (changeValue : BitVec 64) (progressType : ProgressType) (h : Handler) :
    Handler :=
  if criteria.startTimer ≠ 0 &&
      !(forest.criteriaTreesByCriteria criteria).any fun tree => h.running tree then h
  else match h.criteriaProgress.lookup criteria.id with
    | none =>
      if changeValue = 0 && criteria.startTimer = 0 then h
      else h.writeProgress forest canComplete criteria changeValue
    | some counter =>
      let newValue := newCounter progressType counter changeValue
      if counter = newValue && criteria.startTimer = 0 then h
      else h.writeProgress forest canComplete criteria newValue

def startTree (canComplete : CriteriaTree → Bool) (criteria : Criteria) (timeLost : Nat)
    (state : Handler × Bool) (tree : CriteriaTree) : Handler × Bool :=
  if !state.1.running tree &&
      !isCompletedCriteriaTree state.1.criteriaProgress canComplete tree then
    if timeLost < criteria.startTimer * 1000 then
      ({ state.1 with
          timeCriteriaTrees :=
            state.1.timeCriteriaTrees.insert tree.id (criteria.startTimer * 1000 - timeLost)
          succeeded := state.1.succeeded.filter fun id => id ≠ tree.id }, true)
    else state
  else state

def startCriteria (forest : Forest) (canComplete : CriteriaTree → Bool) (entry : Int)
    (timeLost : Nat) (h : Handler) (criteria : Criteria) : Handler :=
  if criteria.startAsset ≠ entry then h
  else
    let started := (forest.criteriaTreesByCriteria criteria).foldl
      (startTree canComplete criteria timeLost) (h, false)
    if !started.2 then started.1
    else started.1.setCriteriaProgress forest canComplete criteria 0 .set

def startCriteriaTimer (forest : Forest) (canComplete : CriteriaTree → Bool) (type : Nat)
    (entry : Int) (timeLost : Nat) (h : Handler) : Handler :=
  (forest.timedCriteriaByType type).foldl (startCriteria forest canComplete entry timeLost) h

def removeCriteria (forest : Forest) (entry : Int) (h : Handler) (criteria : Criteria) :
    Handler :=
  if criteria.startAsset ≠ entry then h
  else removeCriteriaProgress criteria { h with
    timeCriteriaTrees := (forest.criteriaTreesByCriteria criteria).foldl
      (fun timers tree => timers.erase tree.id) h.timeCriteriaTrees }

def removeCriteriaTimer (forest : Forest) (type : Nat) (entry : Int) (h : Handler) : Handler :=
  (forest.timedCriteriaByType type).foldl (removeCriteria forest entry) h

/-- One timer in the loop of `UpdateTimedCriteria`. -/
def updateTimer (forest : Forest) (timeDiff : Nat) (h : Handler)
    (timer : Sigma fun _ : Nat => Nat) : Handler :=
  if timer.2 ≤ timeDiff then
    let h := match (forest.criteriaTree timer.1).bind CriteriaTree.criteria with
      | none => h
      | some criteria => h.removeCriteriaProgress criteria
    { h with timeCriteriaTrees := h.timeCriteriaTrees.erase timer.1 }
  else
    { h with timeCriteriaTrees := h.timeCriteriaTrees.insert timer.1 (timer.2 - timeDiff) }

def updateTimedCriteria (forest : Forest) (canComplete : CriteriaTree → Bool) (timeDiff : Nat)
    (h : Handler) : Handler :=
  h.timeCriteriaTrees.entries.foldl (updateTimer forest timeDiff)
    { h with succeeded := h.succeeded ++ ((forest.roots.map Root.tree).filter fun tree =>
      isCompletedCriteriaTree h.criteriaProgress canComplete tree).map CriteriaTree.id }

end Handler

/-- A call, with the override of `CanCompleteCriteriaTree` as it answers then. -/
inductive Op (forest : Forest)
  | start (canComplete : CriteriaTree → Bool) (type : Nat) (entry : Int) (timeLost : Nat)
  | remove (type : Nat) (entry : Int)
  | set (canComplete : CriteriaTree → Bool) (criteria : Criteria)
      (loaded : criteria ∈ forest.criteria) (changeValue : BitVec 64) (progressType : ProgressType)
  | update (canComplete : CriteriaTree → Bool) (timeDiff : Nat)

def step (forest : Forest) (h : Handler) : Op forest → Handler
  | .start canComplete type entry timeLost =>
    h.startCriteriaTimer forest canComplete type entry timeLost
  | .remove type entry => h.removeCriteriaTimer forest type entry
  | .set canComplete criteria _ changeValue progressType =>
    h.setCriteriaProgress forest canComplete criteria changeValue progressType
  | .update canComplete timeDiff => h.updateTimedCriteria forest canComplete timeDiff

end Ashamane.Achievements
