import Ashamane.Lib.Assoc
import Mathlib.Data.List.Nodup
import Mathlib.Data.List.Sort
import Mathlib.Tactic.TypeStar

/-! Tables of a database: rows that may not clash, tables that are joined by an id, and maps that
are filled row by row, in whatever order the rows come. -/
namespace Ashamane.Lib.Tables

variable {α ε π γ ρ κ ι ν : Type*}

/-! Inserting -/

/-- An `INSERT`: it fails if the row does not fit or clashes with one that is there. -/
def insertRow (fits : α → Bool) (clash : α → α → Bool) (table : List α) (row : α) :
    Option (List α) :=
  if fits row && !table.any (clash row) then some (table ++ [row]) else none

theorem insertRow_eq_some {fits : α → Bool} {clash : α → α → Bool} {table : List α} {row : α}
    (hfits : fits row = true) (hclash : ∀ other ∈ table, clash row other = false) :
    insertRow fits clash table row = some (table ++ [row]) := by
  have hnone : table.any (clash row) = false := by
    rw [List.any_eq_false]
    exact fun other hother => Bool.not_eq_true _ ▸ hclash other hother
  rw [insertRow, hfits, hnone]
  rfl

theorem insertRows_eq_some {fits : α → Bool} {clash : α → α → Bool} {table rows : List α}
    (hfits : ∀ row ∈ rows, fits row = true)
    (hrows : rows.Pairwise fun row other => clash other row = false)
    (htable : ∀ row ∈ rows, ∀ other ∈ table, clash row other = false) :
    rows.foldlM (insertRow fits clash) table = some (table ++ rows) := by
  induction rows generalizing table with
  | nil => rw [List.append_nil]; rfl
  | cons row rows ih =>
    obtain ⟨hrow, hrows⟩ := List.pairwise_cons.mp hrows
    rw [List.foldlM_cons, insertRow_eq_some (hfits row List.mem_cons_self)
      (htable row List.mem_cons_self), Option.bind_eq_bind, Option.bind_some]
    have hrest : rows.foldlM (insertRow fits clash) (table ++ [row]) =
        some (table ++ [row] ++ rows) := by
      refine ih (fun other h => hfits other (List.mem_cons_of_mem _ h)) hrows ?_
      intro other hother old hold
      rcases List.mem_append.mp hold with hold | hold
      · exact htable other (List.mem_cons_of_mem _ hother) old hold
      · rw [List.mem_singleton.mp hold]
        exact hrow other hother
    rw [hrest, List.append_assoc, List.singleton_append]

def insertFamily (insertParent : List π → π → Option (List π))
    (insertChild : List γ → γ → Option (List γ)) (parent : ε → π) (children : ε → List γ)
    (tables : List π × List γ) (e : ε) : Option (List π × List γ) :=
  (insertParent tables.1 (parent e)).bind fun parents =>
    ((children e).foldlM insertChild tables.2).map fun children => (parents, children)

theorem insertFamilies_eq_some {insertParent : List π → π → Option (List π)}
    {insertChild : List γ → γ → Option (List γ)} {parent : ε → π} {children : ε → List γ}
    {entries : List ε} {ps ps' : List π} {cs cs' : List γ}
    (hparents : (entries.map parent).foldlM insertParent ps = some ps')
    (hchildren : (entries.flatMap children).foldlM insertChild cs = some cs') :
    entries.foldlM (insertFamily insertParent insertChild parent children) (ps, cs) =
      some (ps', cs') := by
  induction entries generalizing ps cs with
  | nil =>
    obtain rfl := Option.some.inj hparents
    obtain rfl := Option.some.inj hchildren
    rfl
  | cons e entries ih =>
    rw [List.map_cons, List.foldlM_cons] at hparents
    rw [List.flatMap_cons, List.foldlM_append] at hchildren
    obtain ⟨ps₁, hps₁, hparents⟩ := Option.bind_eq_some_iff.mp hparents
    obtain ⟨cs₁, hcs₁, hchildren⟩ := Option.bind_eq_some_iff.mp hchildren
    have hstep : insertFamily insertParent insertChild parent children (ps, cs) e =
        some (ps₁, cs₁) := by
      simp only [insertFamily, hps₁, hcs₁, Option.bind_some, Option.map_some]
    rw [List.foldlM_cons, hstep, Option.bind_eq_bind, Option.bind_some]
    exact ih hparents hchildren

/-! Joining -/

section
variable [DecidableEq κ] (mine : π → Bool) (parentId : π → κ) (childId : γ → κ)

def hasParent (parents : List π) (child : γ) : Bool :=
  parents.any fun parent => mine parent && parentId parent = childId child

/-- An `INNER JOIN` of a table with the one whose ids it holds. -/
def joined (parents : List π) (children : List γ) : List γ :=
  children.filter (hasParent mine parentId childId parents)

/-- A `DELETE` from both tables of an `INNER JOIN`: a parent without children stays. -/
def deleteJoined (parents : List π) (children : List γ) : List π × List γ :=
  (parents.filter fun parent =>
      !(mine parent && children.any fun child => childId child = parentId parent),
    children.filter fun child => !hasParent mine parentId childId parents child)

variable {mine parentId childId} {parents : List π} {children : List γ}

theorem hasParent_iff {child : γ} : hasParent mine parentId childId parents child = true ↔
    ∃ parent ∈ parents, mine parent = true ∧ parentId parent = childId child := by
  rw [hasParent, List.any_eq_true]
  simp only [Bool.and_eq_true, decide_eq_true_iff]

theorem mem_deleteJoined_fst {parent : π} :
    parent ∈ (deleteJoined mine parentId childId parents children).1 ↔ parent ∈ parents ∧
      (mine parent = true → ∀ child ∈ children, childId child ≠ parentId parent) := by
  simp only [deleteJoined, List.mem_filter, Bool.not_eq_true', Bool.and_eq_false_imp,
    List.any_eq_false, decide_eq_true_iff, ne_eq]

theorem mem_deleteJoined_snd {child : γ} :
    child ∈ (deleteJoined mine parentId childId parents children).2 ↔ child ∈ children ∧
      ∀ parent ∈ parents, mine parent = true → parentId parent ≠ childId child := by
  rw [deleteJoined, List.mem_filter, Bool.not_eq_true', ← Bool.not_eq_true, hasParent_iff]
  simp only [not_exists, not_and, ne_eq]

/-- If all selected parents have children, none of them is left. -/
theorem left_deleteJoined (hswept : ∀ parent ∈ parents, mine parent = true →
    ∃ child ∈ children, childId child = parentId parent) :
    ∀ parent ∈ (deleteJoined mine parentId childId parents children).1, mine parent = false := by
  intro parent hparent
  obtain ⟨hmem, hkept⟩ := mem_deleteJoined_fst.mp hparent
  by_contra hmine
  rw [Bool.not_eq_false] at hmine
  obtain ⟨child, hchild, hid⟩ := hswept parent hmem hmine
  exact hkept hmine child hchild hid

/-- New parents and their children, where no other parent is selected. -/
theorem joined_append {newParents : List π} {newChildren : List γ}
    (hold : ∀ parent ∈ parents, mine parent = false)
    (horphan : ∀ child ∈ children, ∀ parent ∈ newParents, parentId parent ≠ childId child)
    (hnew : ∀ child ∈ newChildren, ∃ parent ∈ newParents, mine parent = true ∧
      parentId parent = childId child) :
    joined mine parentId childId (parents ++ newParents) (children ++ newChildren) =
      newChildren := by
  rw [joined, List.filter_append]
  have hnone : children.filter (hasParent mine parentId childId (parents ++ newParents)) = [] := by
    rw [List.filter_eq_nil_iff]
    intro child hchild hparent
    obtain ⟨parent, hmem, hmine, hid⟩ := hasParent_iff.mp hparent
    rcases List.mem_append.mp hmem with hmem | hmem
    · rw [hold parent hmem] at hmine
      cases hmine
    · exact horphan child hchild parent hmem hid
  rw [hnone, List.nil_append, List.filter_eq_self]
  intro child hchild
  obtain ⟨parent, hmem, hmine, hid⟩ := hnew child hchild
  exact hasParent_iff.mpr ⟨parent, List.mem_append_right _ hmem, hmine, hid⟩

/-- New parents and their children, after the old ones were deleted. -/
theorem joined_saved {newParents : List π} {newChildren : List γ}
    (hswept : ∀ parent ∈ parents, mine parent = true →
      ∃ child ∈ children, childId child = parentId parent)
    (horphan : ∀ child ∈ children, (∃ parent ∈ newParents, parentId parent = childId child) →
      ∃ parent ∈ parents, mine parent = true ∧ parentId parent = childId child)
    (hnew : ∀ child ∈ newChildren, ∃ parent ∈ newParents, mine parent = true ∧
      parentId parent = childId child) :
    let left := deleteJoined mine parentId childId parents children
    joined mine parentId childId (left.1 ++ newParents) (left.2 ++ newChildren) = newChildren := by
  refine joined_append (left_deleteJoined hswept) (fun child hchild parent hparent hid => ?_) hnew
  obtain ⟨hmem, hkept⟩ := mem_deleteJoined_snd.mp hchild
  obtain ⟨old, hold, hmine, hsame⟩ := horphan child hmem ⟨parent, hparent, hid⟩
  exact hkept old hold hmine hsame

theorem joined_perm {parents' : List π} {children' : List γ} (hparents : parents'.Perm parents)
    (hchildren : children'.Perm children) :
    (joined mine parentId childId parents' children').Perm
      (joined mine parentId childId parents children) := by
  have hsame : hasParent mine parentId childId parents' =
      hasParent mine parentId childId parents := by
    funext child
    rw [Bool.eq_iff_iff, hasParent_iff, hasParent_iff]
    simp only [hparents.mem_iff]
  rw [joined, hsame]
  exact hchildren.filter _

end

/-! Loading -/

section
variable [DecidableEq κ] [DecidableEq ι] {key : ρ → κ} {value : ρ → Option ν} {name : ρ → ι}

def loadRow (key : ρ → κ) (value : ρ → Option ν) (name : ρ → ι)
    (s : (AList fun _ : κ => ν) × AList fun _ : ι => Unit) (row : ρ) :
    (AList fun _ : κ => ν) × AList fun _ : ι => Unit :=
  match value row with
  | none => s
  | some v => (s.1.insert (key row) v, s.2.insert (name row) ())

theorem lookup_loadRow (s : (AList fun _ : κ => ν) × AList fun _ : ι => Unit) (row : ρ) (k : κ) :
    (loadRow key value name s row).1.lookup k =
      if k = key row then (value row).or (s.1.lookup k) else s.1.lookup k := by
  rw [loadRow]
  cases value row with
  | none => simp
  | some v => simp only [Assoc.lookup_insert, Option.some_or]

theorem lookup_loadRows (name : ρ → ι) (value : ρ → Option ν) {rows : List ρ}
    (hkeys : (rows.map key).Nodup) (s : (AList fun _ : κ => ν) × AList fun _ : ι => Unit) (k : κ) :
    (∀ row ∈ rows, key row = k →
      (rows.foldl (loadRow key value name) s).1.lookup k = (value row).or (s.1.lookup k)) ∧
    (k ∉ rows.map key → (rows.foldl (loadRow key value name) s).1.lookup k = s.1.lookup k) := by
  induction rows generalizing s with
  | nil => exact ⟨fun row hrow => absurd hrow List.not_mem_nil, fun _ => rfl⟩
  | cons row rows ih =>
    obtain ⟨hnew, hkeys⟩ := List.nodup_cons.mp hkeys
    obtain ⟨hin, hout⟩ := ih hkeys (loadRow key value name s row)
    rw [List.foldl_cons]
    refine ⟨fun other hother hk => ?_, fun hk => ?_⟩
    · rcases List.mem_cons.mp hother with rfl | hother
      · rw [hout (hk ▸ hnew), lookup_loadRow, if_pos hk.symm]
      · rw [hin other hother hk, lookup_loadRow, if_neg]
        rintro rfl
        exact hnew (List.mem_map.mpr ⟨other, hother, hk⟩)
    · rw [List.map_cons, List.mem_cons, not_or] at hk
      rw [hout hk.2, lookup_loadRow, if_neg hk.1]

theorem mem_loadRows (rows : List ρ) (s : (AList fun _ : κ => ν) × AList fun _ : ι => Unit)
    (i : ι) : i ∈ (rows.foldl (loadRow key value name) s).2 ↔
      i ∈ s.2 ∨ ∃ row ∈ rows, (value row).isSome ∧ name row = i := by
  induction rows generalizing s with
  | nil => simp
  | cons row rows ih =>
    rw [List.foldl_cons, ih, loadRow]
    cases hvalue : value row with
    | none => simp [hvalue]
    | some v =>
      simp only [AList.mem_insert, List.mem_cons, exists_eq_or_imp, hvalue, Option.isSome_some,
        true_and, @eq_comm _ i]
      tauto

theorem lookup_attach (key : ρ → κ) (f : ρ → ν → ν) (rows : List ρ) (s : AList fun _ : κ => ν)
    (k : κ) :
    (rows.foldl (fun s row => Assoc.modify (key row) (f row) s) s).lookup k =
      (s.lookup k).map fun v =>
        (rows.filter fun row => key row = k).foldl (fun v row => f row v) v := by
  induction rows generalizing s with
  | nil => simp
  | cons row rows ih =>
    rw [List.foldl_cons, ih, Assoc.lookup_modify, List.filter_cons]
    by_cases hk : k = key row
    · simp [hk, Option.map_map, Function.comp_def]
    · simp [hk, Ne.symm hk]

/-! What was saved from a map -/

variable {μ : Type*} {saved : AList fun _ : κ => μ}

/-- Rows that were made of the entries of a map fill a map again. -/
theorem lookup_loadEntries (row : κ → μ → ρ) (hkey : ∀ k v, key (row k v) = k) {rows : List ρ}
    (hrows : rows.Perm (saved.entries.map fun e => row e.1 e.2)) (k : κ) :
    (rows.foldl (loadRow key value name) (∅, ∅)).1.lookup k =
      (saved.lookup k).bind fun v => value (row k v) := by
  have hkeys : (rows.map key).Perm saved.keys := by
    refine (hrows.map key).trans (.of_eq ?_)
    rw [List.map_map]
    exact List.map_congr_left fun e _ => hkey e.1 e.2
  have hnodup : (rows.map key).Nodup := hkeys.nodup_iff.mpr saved.keys_nodup
  obtain ⟨hin, hout⟩ := lookup_loadRows name value hnodup (∅, ∅) k
  cases hlookup : saved.lookup k with
  | none =>
    rw [hout, AList.lookup_empty, Option.bind_none]
    rw [hkeys.mem_iff]
    exact AList.lookup_eq_none.mp hlookup
  | some v =>
    have hrow : row k v ∈ rows :=
      hrows.mem_iff.mpr (List.mem_map.mpr ⟨⟨k, v⟩, Assoc.mem_entries_iff.mpr hlookup, rfl⟩)
    rw [hin _ hrow (hkey k v), AList.lookup_empty, Option.or_none, Option.bind_some]

theorem mem_loadEntries (row : κ → μ → ρ) {rows : List ρ}
    (hrows : rows.Perm (saved.entries.map fun e => row e.1 e.2)) (i : ι) :
    i ∈ (rows.foldl (loadRow key value name) (∅, ∅)).2 ↔ ∃ k v, saved.lookup k = some v ∧
      (value (row k v)).isSome ∧ name (row k v) = i := by
  rw [mem_loadRows]
  constructor
  · rintro (hnone | ⟨r, hr, hvalue, hname⟩)
    · exact absurd hnone (AList.notMem_empty i)
    · obtain ⟨⟨k, v⟩, he, rfl⟩ := List.mem_map.mp (hrows.mem_iff.mp hr)
      exact ⟨k, v, Assoc.mem_entries_iff.mp he, hvalue, hname⟩
  · rintro ⟨k, v, hlookup, hvalue, hname⟩
    refine .inr ⟨row k v, hrows.mem_iff.mpr ?_, hvalue, hname⟩
    exact List.mem_map.mpr ⟨⟨k, v⟩, Assoc.mem_entries_iff.mpr hlookup, rfl⟩

theorem filter_children (children : κ → μ → List ρ)
    (hkey : ∀ k v, ∀ row ∈ children k v, key row = k) {rows : List ρ}
    (hrows : rows.Perm (saved.entries.flatMap fun e => children e.1 e.2)) (k : κ) :
    (rows.filter fun row => key row = k).Perm (((saved.lookup k).map (children k)).getD []) := by
  refine (hrows.filter _).trans (.of_eq ?_)
  rw [List.filter_flatMap]
  have hother : ∀ e : Sigma fun _ : κ => μ, e.1 ≠ k →
      (children e.1 e.2).filter (fun row => decide (key row = k)) = [] := by
    intro e hne
    refine List.filter_eq_nil_iff.mpr fun row hrow => ?_
    rw [decide_eq_true_eq, hkey e.1 e.2 row hrow]
    exact hne
  cases hlookup : saved.lookup k with
  | none =>
    refine List.flatMap_eq_nil_iff.mpr fun e he => hother e ?_
    rintro rfl
    have hin : saved.lookup e.1 = some e.2 := Assoc.mem_entries_iff.mp he
    rw [hlookup] at hin
    cases hin
  | some v =>
    obtain ⟨before, after, hentries⟩ := List.append_of_mem (Assoc.mem_entries_iff.mpr hlookup)
    have hkeys := List.nodupKeys_iff_pairwise.mp saved.nodupKeys
    rw [hentries, List.pairwise_append, List.pairwise_cons] at hkeys
    obtain ⟨-, ⟨hafter, -⟩, hbefore⟩ := hkeys
    have hnone : ∀ l : List (Sigma fun _ : κ => μ), (∀ e ∈ l, e.1 ≠ k) →
        (l.flatMap fun e => (children e.1 e.2).filter fun row => decide (key row = k)) = [] :=
      fun l hl => List.flatMap_eq_nil_iff.mpr fun e he => hother e (hl e he)
    rw [hentries, List.flatMap_append, List.flatMap_cons,
      hnone before fun e he => hbefore e he ⟨k, v⟩ List.mem_cons_self,
      hnone after fun e he => (hafter e he).symm, List.nil_append, List.append_nil,
      Option.map_some, Option.getD_some, List.filter_eq_self]
    intro row hrow
    rw [decide_eq_true_eq, hkey k v row hrow]

theorem eq_of_ordered (number : ρ → Nat) {rows rows' : List ρ} (hperm : rows.Perm rows')
    (hrows : rows.Pairwise fun row row' => number row ≤ number row')
    (hrows' : rows'.Pairwise fun row row' => number row < number row') : rows = rows' := by
  have hinj : ∀ row ∈ rows', ∀ row' ∈ rows', number row = number row' → row = row' := by
    intro row hrow row' hrow' hsame
    by_contra hne
    have hdiffer : rows'.Pairwise fun row row' => number row ≠ number row' :=
      hrows'.imp Nat.ne_of_lt
    have hsymm : Std.Symm fun row row' => number row ≠ number row' := ⟨fun _ _ h => h.symm⟩
    exact hdiffer.forall hrow hrow' hne hsame
  refine List.Perm.eq_of_pairwise (fun row row' hrow hrow' hle hge => ?_) hrows
    (hrows'.imp Nat.le_of_lt) hperm
  exact hinj row (hperm.mem_iff.mp hrow) row' hrow' (Nat.le_antisymm hle hge)

end

end Ashamane.Lib.Tables
