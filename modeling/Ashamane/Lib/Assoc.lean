import Mathlib.Algebra.Ring.Int.Defs
import Mathlib.Algebra.Ring.Nat
import Mathlib.Data.List.AList

/-! Updates of finite maps that keep the order in which the map is walked. -/
namespace Ashamane.Lib.Assoc

universe u v w
variable {κ : Type u} {ν : Type v} {μ : Type w}

def mapVal (f : κ → ν → μ) (s : AList fun _ : κ => ν) : AList fun _ : κ => μ where
  entries := s.entries.map fun e => ⟨e.1, f e.1 e.2⟩
  nodupKeys := by
    have hs := s.nodupKeys
    simp only [List.NodupKeys, List.keys, List.map_map] at hs ⊢
    exact hs

@[simp] theorem mapVal_entries (f : κ → ν → μ) (s : AList fun _ : κ => ν) :
    (mapVal f s).entries = s.entries.map fun e => ⟨e.1, f e.1 e.2⟩ := rfl

variable [DecidableEq κ]

def modify (k : κ) (f : ν → ν) (s : AList fun _ : κ => ν) : AList fun _ : κ => ν :=
  mapVal (fun j v => if j = k then f v else v) s

theorem lookup_mapVal (f : κ → ν → μ) (s : AList fun _ : κ => ν) (k : κ) :
    (mapVal f s).lookup k = (s.lookup k).map (f k) := by
  obtain ⟨l, hl⟩ := s
  simp only [AList.lookup, mapVal]
  clear hl
  induction l with
  | nil => rfl
  | cons e l ih =>
    obtain ⟨j, v⟩ := e
    by_cases h : k = j
    · subst h
      simp
    · simp only [List.map_cons]
      rw [List.dlookup_cons_ne _ _ (by exact h), List.dlookup_cons_ne _ _ (by exact h), ih]

@[simp] theorem mem_mapVal {f : κ → ν → μ} {s : AList fun _ : κ => ν} {k : κ} :
    k ∈ mapVal f s ↔ k ∈ s := by
  rw [← AList.lookup_isSome, ← AList.lookup_isSome, lookup_mapVal, Option.isSome_map]

theorem lookup_modify (k j : κ) (f : ν → ν) (s : AList fun _ : κ => ν) :
    (modify k f s).lookup j = if j = k then (s.lookup j).map f else s.lookup j := by
  rw [modify, lookup_mapVal]
  by_cases h : j = k
  · simp only [if_pos h]
  · simp only [if_neg h, Option.map_id']

@[simp] theorem lookup_modify_self (k : κ) (f : ν → ν) (s : AList fun _ : κ => ν) :
    (modify k f s).lookup k = (s.lookup k).map f := by
  rw [lookup_modify, if_pos rfl]

theorem lookup_modify_ne {k j : κ} (h : j ≠ k) (f : ν → ν) (s : AList fun _ : κ => ν) :
    (modify k f s).lookup j = s.lookup j := by
  rw [lookup_modify, if_neg h]

theorem lookup_insert (s : AList fun _ : κ => ν) (k j : κ) (v : ν) :
    (s.insert k v).lookup j = if j = k then some v else s.lookup j := by
  by_cases h : j = k
  · rw [if_pos h, h, AList.lookup_insert]
  · rw [if_neg h, AList.lookup_insert_ne h]

theorem lookup_insert_some {s : AList fun _ : κ => ν} {k j : κ} {v u : ν}
    (h : (s.insert k v).lookup j = some u) : j = k ∧ u = v ∨ j ≠ k ∧ s.lookup j = some u := by
  rw [lookup_insert] at h
  by_cases hj : j = k
  · rw [if_pos hj] at h
    exact .inl ⟨hj, (Option.some.inj h).symm⟩
  · rw [if_neg hj] at h
    exact .inr ⟨hj, h⟩

theorem lookup_erase (s : AList fun _ : κ => ν) (k j : κ) :
    (s.erase k).lookup j = if j = k then none else s.lookup j := by
  by_cases h : j = k
  · rw [if_pos h, h, AList.lookup_erase]
  · rw [if_neg h, AList.lookup_erase_ne h]

theorem lookup_erase_some {s : AList fun _ : κ => ν} {k j : κ} {v : ν}
    (h : (s.erase k).lookup j = some v) : j ≠ k ∧ s.lookup j = some v := by
  rw [lookup_erase] at h
  by_cases hj : j = k
  · rw [if_pos hj] at h
    cases h
  · rw [if_neg hj] at h
    exact ⟨hj, h⟩

theorem mem_entries_iff {s : AList fun _ : κ => ν} {k : κ} {v : ν} :
    (⟨k, v⟩ : Sigma fun _ : κ => ν) ∈ s.entries ↔ s.lookup k = some v :=
  AList.mem_lookup_iff.symm

theorem mapM_lookup_congr {s t : AList fun _ : κ => ν} {l : List κ}
    (h : ∀ k ∈ l, s.lookup k = t.lookup k) : l.mapM s.lookup = l.mapM t.lookup := by
  induction l with
  | nil => rfl
  | cons k l ih =>
    have hrest := ih fun j hj => h j (List.mem_cons_of_mem _ hj)
    rw [List.mapM_cons, List.mapM_cons, h k (List.mem_cons_self ..), hrest]

def total (f : ν → Nat) (s : AList fun _ : κ => ν) : Nat :=
  (s.entries.map fun e => f e.2).sum

theorem total_insert_of_notMem (f : ν → Nat) {s : AList fun _ : κ => ν} {k : κ} (v : ν)
    (h : s.lookup k = none) : total f (s.insert k v) = f v + total f s := by
  have hk : k ∉ s := AList.lookup_eq_none.mp h
  rw [total, AList.entries_insert_of_notMem hk]
  rfl

theorem total_erase (f : ν → Nat) {s : AList fun _ : κ => ν} {k : κ} {v : ν}
    (h : s.lookup k = some v) : total f (s.erase k) + f v = total f s := by
  obtain ⟨l, hl⟩ := s
  change List.dlookup k l = some v at h
  change ((l.kerase k).map fun e => f e.2).sum + f v = (l.map fun e => f e.2).sum
  induction l with
  | nil => cases h
  | cons e l ih =>
    obtain ⟨j, u⟩ := e
    rw [List.nodupKeys_cons] at hl
    by_cases hj : k = j
    · subst hj
      rw [List.dlookup_cons_eq] at h
      cases h
      have herase : List.kerase k ((⟨k, v⟩ : Sigma fun _ : κ => ν) :: l) = l :=
        List.kerase_cons_eq rfl
      rw [herase, List.map_cons, List.sum_cons, Nat.add_comm]
    · rw [List.dlookup_cons_ne _ _ hj] at h
      have hrec := ih hl.2 h
      have herase : List.kerase k ((⟨j, u⟩ : Sigma fun _ : κ => ν) :: l) = ⟨j, u⟩ :: l.kerase k :=
        List.kerase_cons_ne hj
      rw [herase, List.map_cons, List.sum_cons, List.map_cons, List.sum_cons]
      omega

theorem total_insert (f : ν → Nat) (s : AList fun _ : κ => ν) (k : κ) (v : ν) :
    total f (s.insert k v) = f v + total f (s.erase k) := by
  rw [total, AList.entries_insert]
  rfl

theorem total_modify (f : ν → Nat) (g : ν → ν) {s : AList fun _ : κ => ν} {k : κ} {v : ν}
    (h : s.lookup k = some v) : total f (modify k g s) + f v = total f s + f (g v) := by
  obtain ⟨l, hl⟩ := s
  simp only [AList.lookup, total, modify, mapVal, List.map_map] at h ⊢
  induction l with
  | nil => cases h
  | cons e l ih =>
    obtain ⟨j, u⟩ := e
    rw [List.nodupKeys_cons] at hl
    by_cases hj : k = j
    · subst hj
      rw [List.dlookup_cons_eq] at h
      cases h
      have hrest : (l.map fun e => f (if e.1 = k then g e.2 else e.2)) =
          l.map fun e => f e.2 := by
        refine List.map_congr_left fun e he => ?_
        have hne : e.1 ≠ k := by
          rintro rfl
          have hmem := List.mem_keys_of_mem he
          exact hl.1 hmem
        rw [if_neg hne]
      simp only [List.map_cons, List.sum_cons, Function.comp_def, hrest, if_pos]
      omega
    · rw [List.dlookup_cons_ne _ _ hj] at h
      have hrec := ih hl.2 h
      simp only [List.map_cons, List.sum_cons, Function.comp, if_neg (Ne.symm hj)] at hrec ⊢
      omega

theorem total_mapVal (f : ν → Nat) {g : κ → ν → ν} {s : AList fun _ : κ => ν}
    (h : ∀ k v, s.lookup k = some v → f (g k v) = f v) : total f (mapVal g s) = total f s := by
  rw [total, mapVal_entries, List.map_map, total]
  exact congrArg List.sum (List.map_congr_left fun e he => h e.1 e.2 (mem_entries_iff.mp he))

theorem total_pos_iff (f : ν → Nat) {s : AList fun _ : κ => ν} :
    0 < total f s ↔ ∃ k v, s.lookup k = some v ∧ 0 < f v := by
  rw [total, List.sum_pos_iff_exists_pos_nat]
  constructor
  · rintro ⟨n, hn, hpos⟩
    obtain ⟨e, he, rfl⟩ := List.mem_map.mp hn
    exact ⟨e.1, e.2, mem_entries_iff.mp he, hpos⟩
  · rintro ⟨k, v, hv, hpos⟩
    exact ⟨f v, List.mem_map.mpr ⟨⟨k, v⟩, mem_entries_iff.mpr hv, rfl⟩, hpos⟩

end Ashamane.Lib.Assoc
