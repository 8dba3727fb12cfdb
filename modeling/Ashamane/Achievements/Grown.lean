import Ashamane.Achievements.Basic
import Mathlib.Algebra.Order.BigOperators.Group.List
import Mathlib.Algebra.Order.Ring.Nat
import Mathlib.Algebra.Ring.Int.Defs
import Mathlib.Algebra.Ring.Nat
import Mathlib.Data.BitVec
import Mathlib.Data.List.Forall2

/-! More progress does not un-complete a criteria tree whose sums do not wrap. -/
namespace Ashamane.Achievements

variable {p q : CriteriaProgressMap} {canComplete : CriteriaTree → Bool}

def Grows (p q : CriteriaProgressMap) : Prop :=
  ∀ id counter, p.lookup id = some counter → ∃ more, q.lookup id = some more ∧ counter ≤ more

def exactSum (weight : CriteriaTree → Nat) (p : CriteriaProgressMap) (nodes : List CriteriaTree) :
    Nat :=
  (nodes.map fun tree => ((counterOf p tree).map fun counter => counter.toNat * weight tree).getD
    0).sum

def wraps (weight : CriteriaTree → Nat) (p : CriteriaProgressMap) (tree : CriteriaTree) : Nat :=
  exactSum weight p tree.walk / 2 ^ 64

def weightOne (_ : CriteriaTree) : Nat := 1

def weightAmount (tree : CriteriaTree) : Nat := (tree.amount.signExtend 64).toNat

def CriteriaTree.weight (tree : CriteriaTree) : CriteriaTree → Nat :=
  if tree.operator = .sumChildren then weightOne else weightAmount

variable (canComplete q) in
mutual
/-- The trees whose sum `IsCompletedCriteriaTree` computes: the loop of `ALL` ends at the first child
that is not completed, the loop of `ANY` as soon as enough are. -/
def sumsOf : CriteriaTree → List CriteriaTree
  | .node id amount operator criteria children =>
    if !canComplete (.node id amount operator criteria children) then []
    else
      match operator with
      | .all => sumsOfAll children
      | .any => sumsOfAny (amount.signExtend 64) 0 children
      | .sumChildren | .sumChildrenWeight => [.node id amount operator criteria children]
      | _ => []
def sumsOfAll : List CriteriaTree → List CriteriaTree
  | [] => []
  | tree :: trees =>
    sumsOf tree ++ if isCompletedCriteriaTree q canComplete tree then sumsOfAll trees else []
def sumsOfAny (requiredCount : BitVec 64) : Nat → List CriteriaTree → List CriteriaTree
  | _, [] => []
  | progress, tree :: trees =>
    sumsOf tree ++
      if isCompletedCriteriaTree q canComplete tree then
        if requiredCount.toNat ≤ progress + 1 then []
        else sumsOfAny requiredCount (progress + 1) trees
      else sumsOfAny requiredCount progress trees
end

/-- The sum over the tree wraps under `q` as often as under `p`, or nothing is required of it. -/
def WrapsAlike (p q : CriteriaProgressMap) (tree : CriteriaTree) : Prop :=
  tree.amount = 0 ∨ wraps tree.weight q tree = wraps tree.weight p tree

def SameWraps (canComplete : CriteriaTree → Bool) (p q : CriteriaProgressMap)
    (tree : CriteriaTree) : Prop :=
  ∀ node ∈ sumsOf q canComplete tree, WrapsAlike p q node

def NoneNegated (tree : CriteriaTree) : Prop :=
  ∀ node ∈ tree.walk, node.operator ≠ .singleNotCompleted

namespace Grows

theorem counterOf (h : Grows p q) {tree : CriteriaTree} {counter : BitVec 64}
    (hp : Achievements.counterOf p tree = some counter) :
    ∃ more, Achievements.counterOf q tree = some more ∧ counter ≤ more := by
  obtain ⟨criteria, hcriteria, hp⟩ := Option.bind_eq_some_iff.mp hp
  obtain ⟨more, hq, hle⟩ := h criteria.id counter hp
  exact ⟨more, Option.bind_eq_some_iff.mpr ⟨criteria, hcriteria, hq⟩, hle⟩

theorem isCompletedCriteria (h : Grows p q) {criteria : Criteria} {requiredAmount : BitVec 64}
    (hp : Achievements.isCompletedCriteria p criteria requiredAmount = true) :
    Achievements.isCompletedCriteria q criteria requiredAmount = true := by
  unfold Achievements.isCompletedCriteria at hp ⊢
  cases hcounter : getCriteriaProgress p criteria with
  | none =>
    rw [hcounter] at hp
    cases hp
  | some counter =>
    obtain ⟨more, hmore, hle⟩ := h criteria.id counter hcounter
    have hmore : getCriteriaProgress q criteria = some more := hmore
    have hbound : ∀ bound : BitVec 64, decide (bound ≤ counter) = true →
        decide (bound ≤ more) = true := fun bound hbound =>
      decide_eq_true (BitVec.le_trans (of_decide_eq_true hbound) hle)
    rw [hcounter] at hp
    rw [hmore]
    cases htype : criteria.type
    case other => rw [htype] at hp; cases hp
    case onLogin => rfl
    case winArena =>
      rw [htype] at hp
      obtain ⟨hne, hp⟩ := Bool.and_eq_true_iff.mp hp
      exact Bool.and_eq_true_iff.mpr ⟨hne, hbound _ hp⟩
    all_goals
      rw [htype] at hp
      exact hbound _ hp

theorem hasCounter (h : Grows p q) {tree : CriteriaTree}
    (hp : Achievements.hasCounter p tree = true) : Achievements.hasCounter q tree = true := by
  unfold Achievements.hasCounter at hp ⊢
  cases hcounter : Achievements.counterOf p tree with
  | none =>
    rw [hcounter] at hp
    cases hp
  | some counter =>
    obtain ⟨more, hmore, hle⟩ := h.counterOf hcounter
    rw [hcounter] at hp
    rw [hmore]
    exact decide_eq_true (BitVec.le_trans (of_decide_eq_true hp) hle)

theorem exactSum (h : Grows p q) (weight : CriteriaTree → Nat) (nodes : List CriteriaTree) :
    Achievements.exactSum weight p nodes ≤ Achievements.exactSum weight q nodes := by
  unfold Achievements.exactSum
  refine List.sum_le_sum fun tree _ => ?_
  cases hcounter : Achievements.counterOf p tree with
  | none => exact Nat.zero_le _
  | some counter =>
    obtain ⟨more, hmore, hle⟩ := h.counterOf hcounter
    rw [hmore]
    exact Nat.mul_le_mul_right _ (BitVec.le_def.mp hle)

theorem maxChild (h : Grows p q) (nodes : List CriteriaTree) :
    Achievements.maxChild p nodes ≤ Achievements.maxChild q nodes := by
  unfold Achievements.maxChild
  -- whatever the loops start with
  refine (?_ : ∀ start start' : BitVec 64, start ≤ start' →
    nodes.foldl _ start ≤ nodes.foldl _ start') 0 0 (BitVec.le_refl _)
  induction nodes with
  | nil => exact fun _ _ hle => hle
  | cons tree nodes ih =>
    intro start start' hle
    refine ih _ _ ?_
    dsimp only
    cases hp : Achievements.counterOf p tree with
    | none =>
      cases Achievements.counterOf q tree with
      | none => exact hle
      | some more =>
        dsimp only
        split_ifs with hlt
        · exact BitVec.le_trans hle (BitVec.le_of_lt hlt)
        · exact hle
    | some counter =>
      obtain ⟨more, hmore, hcounter⟩ := h.counterOf hp
      rw [hmore]
      simp only [BitVec.le_def, BitVec.lt_def] at hle hcounter ⊢
      split_ifs <;> omega

end Grows

theorem toNat_sumChildren (p : CriteriaProgressMap) (nodes : List CriteriaTree) :
    (sumChildren p nodes).toNat = exactSum weightOne p nodes % 2 ^ 64 := by
  unfold sumChildren exactSum
  refine ((?_ : ∀ start : BitVec 64, (nodes.foldl _ start).toNat =
    (start.toNat + (nodes.map fun tree => ((counterOf p tree).map fun counter =>
      counter.toNat * weightOne tree).getD 0).sum) % 2 ^ 64) 0).trans
    (congrArg (· % 2 ^ 64) (Nat.zero_add _))
  induction nodes with
  | nil => exact fun start => (Nat.mod_eq_of_lt start.isLt).symm
  | cons tree nodes ih =>
    intro start
    rw [List.foldl_cons, ih, List.map_cons, List.sum_cons]
    cases counterOf p tree with
    | none => simp
    | some counter =>
      simp only [BitVec.toNat_add, Option.map_some, Option.getD_some, weightOne, Nat.mul_one]
      omega

theorem toNat_sumChildrenWeight (p : CriteriaProgressMap) (nodes : List CriteriaTree) :
    (sumChildrenWeight p nodes).toNat = exactSum weightAmount p nodes % 2 ^ 64 := by
  unfold sumChildrenWeight exactSum
  refine ((?_ : ∀ start : BitVec 64, (nodes.foldl _ start).toNat =
    (start.toNat + (nodes.map fun tree => ((counterOf p tree).map fun counter =>
      counter.toNat * weightAmount tree).getD 0).sum) % 2 ^ 64) 0).trans
    (congrArg (· % 2 ^ 64) (Nat.zero_add _))
  induction nodes with
  | nil => exact fun start => (Nat.mod_eq_of_lt start.isLt).symm
  | cons tree nodes ih =>
    intro start
    rw [List.foldl_cons, ih, List.map_cons, List.sum_cons]
    cases counterOf p tree with
    | none => simp
    | some counter =>
      simp only [BitVec.toNat_add, BitVec.toNat_mul, Option.map_some, Option.getD_some,
        weightAmount]
      generalize counter.toNat * (tree.amount.signExtend 64).toNat = product
      omega

theorem mod_le_of_wraps {small large : Nat} (hle : small ≤ large)
    (hwraps : large / 2 ^ 64 = small / 2 ^ 64) : small % 2 ^ 64 ≤ large % 2 ^ 64 := by
  omega

theorem countUp_mono {requiredCount : BitVec 64} {bs cs : List Bool}
    (h : List.Forall₂ (fun b c => b = true → c = true) bs cs) {progress more : Nat}
    (hle : progress ≤ more) (hp : countUp requiredCount progress bs = true) :
    countUp requiredCount more cs = true := by
  induction h generalizing progress more with
  | nil => cases hp
  | @cons b c bs cs hbc _ ih =>
    unfold countUp at hp ⊢
    cases b with
    | false =>
      cases c with
      | false => exact ih hle hp
      | true =>
        rw [if_pos rfl]
        split_ifs
        · rfl
        · exact ih (Nat.le_succ_of_le hle) hp
    | true =>
      rw [if_pos rfl] at hp
      rw [if_pos (hbc rfl)]
      by_cases hmore : requiredCount.toNat ≤ more + 1
      · rw [if_pos hmore]
      · rw [if_neg (by omega)] at hp
        rw [if_neg hmore]
        exact ih (Nat.succ_le_succ hle) hp

theorem walk_subset {tree : CriteriaTree} {trees : List CriteriaTree} (h : tree ∈ trees) :
    ∀ node ∈ tree.walk, node ∈ CriteriaTree.walkAll trees := by
  induction trees with
  | nil => cases h
  | cons first trees ih =>
    intro node hnode
    rw [CriteriaTree.walkAll]
    obtain rfl | h := List.mem_cons.mp h
    · exact List.mem_append_left _ hnode
    · exact List.mem_append_right _ (ih h node hnode)

theorem NoneNegated.children {id : Nat} {amount : BitVec 32} {operator : CriteriaTreeOperator}
    {criteria : Option Criteria} {children : List CriteriaTree}
    (h : NoneNegated (.node id amount operator criteria children)) :
    ∀ tree ∈ children, NoneNegated tree := by
  intro tree htree node hnode
  refine h node ?_
  rw [CriteriaTree.walk]
  exact List.mem_append_left _ (walk_subset htree node hnode)

mutual
theorem isCompleted_grows (h : Grows p q) :
    ∀ tree : CriteriaTree, NoneNegated tree → SameWraps canComplete p q tree →
      isCompletedCriteriaTree p canComplete tree = true →
        isCompletedCriteriaTree q canComplete tree = true
  | .node id amount operator criteria children => by
    intro hplain hsame hp
    unfold SameWraps sumsOf at hsame
    rw [isCompletedCriteriaTree] at hp ⊢
    cases hcan : canComplete (.node id amount operator criteria children) with
    | false =>
      rw [hcan] at hp
      cases hp
    | true =>
      rw [hcan] at hp hsame
      simp only [Bool.not_true, Bool.false_eq_true, if_false] at hp hsame ⊢
      have hbound : ∀ {small large : BitVec 64}, small ≤ large →
          decide (amount.signExtend 64 ≤ small) = true →
            decide (amount.signExtend 64 ≤ large) = true := fun hle hp =>
        decide_eq_true (BitVec.le_trans (of_decide_eq_true hp) hle)
      have hzero : amount = 0 → ∀ sum : BitVec 64,
          decide (amount.signExtend 64 ≤ sum) = true := fun hzero sum => by
        subst hzero
        exact decide_eq_true (BitVec.le_def.mpr (Nat.zero_le _))
      cases operator with
      | single =>
        cases criteria with
        | none => cases hp
        | some criteria => exact h.isCompletedCriteria hp
      | singleNotCompleted =>
        refine absurd ?_ (hplain (.node id amount .singleNotCompleted criteria children) ?_)
        · rfl
        · rw [CriteriaTree.walk]
          exact List.mem_append_right _ List.mem_cons_self
      | all => exact all_grows h children hplain.children hsame hp
      | sumChildren =>
        obtain hzero' | hsame := hsame _ List.mem_cons_self
        · exact hzero hzero' _
        · refine hbound ?_ hp
          rw [BitVec.le_def, toNat_sumChildren, toNat_sumChildren]
          exact mod_le_of_wraps (h.exactSum _ _) hsame
      | maxChild => exact hbound (h.maxChild _) hp
      | countDirectChildren =>
        refine countUp_mono ?_ (Nat.le_refl 0) hp
        exact List.forall₂_map_left_iff.mpr (List.forall₂_map_right_iff.mpr
          (List.forall₂_same.mpr fun tree _ => h.hasCounter))
      | any => exact any_grows h children hplain.children (Nat.le_refl 0) hsame hp
      | sumChildrenWeight =>
        obtain hzero' | hsame := hsame _ List.mem_cons_self
        · exact hzero hzero' _
        · refine hbound ?_ hp
          rw [BitVec.le_def, toNat_sumChildrenWeight, toNat_sumChildrenWeight]
          exact mod_le_of_wraps (h.exactSum _ _) hsame
      | other => cases hp
theorem all_grows (h : Grows p q) :
    ∀ trees : List CriteriaTree, (∀ tree ∈ trees, NoneNegated tree) →
      (∀ node ∈ sumsOfAll q canComplete trees, WrapsAlike p q node) →
        (completedAll p canComplete trees).all (fun completed => completed) = true →
          (completedAll q canComplete trees).all (fun completed => completed) = true
  | [] => fun _ _ _ => rfl
  | tree :: trees => by
    intro hplain hsame hp
    rw [sumsOfAll] at hsame
    rw [completedAll, List.all_cons, Bool.and_eq_true] at hp ⊢
    have htree := isCompleted_grows h tree (hplain tree List.mem_cons_self)
      (fun node hnode => hsame node (List.mem_append_left _ hnode)) hp.1
    rw [if_pos htree] at hsame
    exact ⟨htree, all_grows h trees (fun t ht => hplain t (List.mem_cons_of_mem _ ht))
      (fun node hnode => hsame node (List.mem_append_right _ hnode)) hp.2⟩
theorem any_grows (h : Grows p q) {requiredCount : BitVec 64} :
    ∀ trees : List CriteriaTree, (∀ tree ∈ trees, NoneNegated tree) →
      ∀ {progress more : Nat}, progress ≤ more →
        (∀ node ∈ sumsOfAny q canComplete requiredCount more trees, WrapsAlike p q node) →
          countUp requiredCount progress (completedAll p canComplete trees) = true →
            countUp requiredCount more (completedAll q canComplete trees) = true
  | [] => fun _ _ _ _ _ hp => by cases hp
  | tree :: trees => by
    intro hplain progress more hle hsame hp
    rw [sumsOfAny] at hsame
    have htree := isCompleted_grows h tree (hplain tree List.mem_cons_self)
      (fun node hnode => hsame node (List.mem_append_left _ hnode))
    have hrest : ∀ {progress more : Nat}, progress ≤ more →
        (∀ node ∈ sumsOfAny q canComplete requiredCount more trees, WrapsAlike p q node) →
          countUp requiredCount progress (completedAll p canComplete trees) = true →
            countUp requiredCount more (completedAll q canComplete trees) = true :=
      any_grows h trees fun t ht => hplain t (List.mem_cons_of_mem _ ht)
    have hlater := fun node hnode => hsame node (List.mem_append_right _ hnode)
    rw [completedAll, countUp] at hp ⊢
    by_cases hq : isCompletedCriteriaTree q canComplete tree = true
    · rw [if_pos hq] at hlater ⊢
      split at hlater
      · rename_i henough
        rw [if_pos henough]
      · rename_i hfew
        rw [if_neg hfew]
        split at hp
        · rw [if_neg (by omega)] at hp
          exact hrest (Nat.succ_le_succ hle) hlater hp
        · exact hrest (Nat.le_succ_of_le hle) hlater hp
    · rw [if_neg hq] at hlater ⊢
      rw [if_neg (mt htree hq)] at hp
      exact hrest hle hlater hp
end

/-- More progress completes what less progress completes, unless one of the sums that are computed
wraps in between. -/
theorem isCompletedCriteriaTree_grows {tree : CriteriaTree} (hgrows : Grows p q)
    (hplain : NoneNegated tree) (hsame : SameWraps canComplete p q tree)
    (hp : isCompletedCriteriaTree p canComplete tree = true) :
    isCompletedCriteriaTree q canComplete tree = true :=
  isCompleted_grows hgrows tree hplain hsame hp

def killOf (id : Nat) : CriteriaTree :=
  .node id 0 .single (some ⟨id, .killCreature, 0, 0, 0⟩) []

def eitherKill : CriteriaTree := .node 0 1 .sumChildren none [killOf 1, killOf 2]

theorem noneNegated_eitherKill : NoneNegated eitherKill := by
  intro node hnode
  simp only [eitherKill, killOf, CriteriaTree.walk, CriteriaTree.walkAll, List.nil_append,
    List.append_nil, List.cons_append, List.mem_cons, List.not_mem_nil, or_false] at hnode
  obtain rfl | rfl | rfl := hnode <;> exact nofun

theorem grows_insert {p : CriteriaProgressMap} {id : Nat} {counter more : BitVec 64}
    (hp : p.lookup id = some counter) (hle : counter ≤ more) : Grows p (p.insert id more) := by
  intro other start hother
  by_cases hne : other = id
  · subst hne
    rw [hp] at hother
    cases hother
    exact ⟨more, AList.lookup_insert p, hle⟩
  · exact ⟨start, (AList.lookup_insert_ne hne).trans hother, BitVec.le_refl _⟩

def killAndSum : CriteriaTree :=
  .node 0 2 .any none [killOf 3, .node 0 1 .sumChildren none [killOf 4, killOf 5], eitherKill]

def halfKills : CriteriaProgressMap := AList.insert 2 (1 : BitVec 64) (AList.insert 1 (2 ^ 63) ∅)

def fewKills : CriteriaProgressMap := (halfKills.insert 3 1).insert 4 1

theorem noneNegated_killAndSum : NoneNegated killAndSum := by
  intro node hnode
  simp only [killAndSum, eitherKill, killOf, CriteriaTree.walk, CriteriaTree.walkAll,
    List.nil_append, List.append_nil, List.cons_append, List.mem_cons, List.not_mem_nil,
    or_false] at hnode
  obtain rfl | rfl | rfl | rfl | rfl | rfl | rfl | rfl := hnode <;> exact nofun

theorem isCompletedCriteriaTree_grows_killAndSum :
    isCompletedCriteriaTree (fewKills.insert 2 (2 ^ 63)) (fun _ => true) killAndSum = true :=
  isCompletedCriteriaTree_grows (p := fewKills) (grows_insert rfl (by decide +kernel))
    noneNegated_killAndSum (by
      intro node hnode
      have hone : sumsOf (fewKills.insert 2 (2 ^ 63)) (fun _ => true) killAndSum =
        [.node 0 1 .sumChildren none [killOf 4, killOf 5]] := by rfl
      rw [hone] at hnode
      obtain rfl := List.mem_singleton.mp hnode
      exact .inr (by decide +kernel)) (by decide +kernel)

/-- The sum of two halves is zero. -/
theorem isCompletedCriteriaTree_shrinks_halves :
    ¬∀ (canComplete : CriteriaTree → Bool) (tree : CriteriaTree) (p q : CriteriaProgressMap),
      NoneNegated tree → Grows p q → isCompletedCriteriaTree p canComplete tree = true →
        isCompletedCriteriaTree q canComplete tree = true := by
  intro h
  have hone : halfKills.lookup 2 = some 1 := rfl
  have hq := h (fun _ => true) eitherKill halfKills (halfKills.insert 2 (2 ^ 63))
    noneNegated_eitherKill (grows_insert hone (by decide +kernel)) (by decide +kernel)
  exact absurd hq (by decide +kernel)

end Ashamane.Achievements
