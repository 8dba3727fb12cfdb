import Ashamane.Lib.Circles
import Ashamane.Pools.Recursion

/-! A circle that does not lie on the first mothers stays in the groups, when the hash map of the
templates is walked in an unlucky order: the search begins at such pools that it removes links of
the first mothers that the circle does not need. -/
namespace Ashamane.Pools

open Lib Relation

variable {template : Nat → Option Nat} {rows : List PoolPoolRow} {l₀ l l' : PoolLoad}
  {searchMap f : Nat → Option Nat} {keep : Nat → Prop} {fuel p q c : Nat} {checkedPools : List Nat}

theorem walk_isSome {pools : List Nat} (hpools : ∀ c, (searchMap c).isSome → c ∈ pools)
    (hnodup : (p :: checkedPools).Nodup) (hsub : checkedPools ⊆ pools)
    (hfuel : pools.length < fuel + checkedPools.length) :
    (walk searchMap fuel checkedPools p).isSome := by
  induction fuel generalizing p checkedPools with
  | zero =>
    have hle := (List.subperm_of_subset (List.nodup_cons.mp hnodup).2 hsub).length_le
    omega
  | succ fuel ih =>
    unfold walk
    cases hp : searchMap p with
    | none => rfl
    | some mother =>
      dsimp only
      split
      · rfl
      · rename_i hnew
        refine ih (List.nodup_cons.mpr ⟨hnew, hnodup⟩) (List.cons_subset.mpr ⟨?_, hsub⟩) ?_
        · exact hpools p (by rw [hp]; rfl)
        · rw [List.length_cons]
          omega

theorem check_isSome {pools : List Nat} (hpools : ∀ c, (l₀.poolSearchMap c).isSome → c ∈ pools)
    (hfuel : pools.length < fuel) (h : Reduced l₀ l) (order : List Nat) :
    (l.check fuel order).isSome := by
  unfold PoolLoad.check
  induction order generalizing l with
  | nil => rfl
  | cons p order ih =>
    have hwalk : (walk l.poolSearchMap fuel [] p).isSome := by
      refine walk_isSome (fun c hc => hpools c ?_) (List.nodup_singleton p) (List.nil_subset _) hfuel
      obtain ⟨m, hm⟩ := Option.isSome_iff_exists.mp hc
      rw [h.searchMap c m hm]
      rfl
    have hchecked : (l.checkPool fuel p).isSome := by
      unfold PoolLoad.checkPool
      rw [Option.isSome_map]
      exact hwalk
    obtain ⟨u, hu⟩ := Option.isSome_iff_exists.mp hchecked
    rw [List.foldlM_cons, hu]
    exact ih (checkPool_spec h hu).1

theorem walk_onCircle (hfrom : ∀ x ∈ checkedPools, ReflTransGen (Leads searchMap) x p)
    (h : walk searchMap fuel checkedPools p = some (some q)) : OnCircle searchMap q := by
  induction fuel generalizing p checkedPools with
  | zero => exact nomatch h
  | succ fuel ih =>
    unfold walk at h
    split at h
    · exact nomatch h
    rename_i mother hmother
    split at h
    · rename_i hseen
      obtain rfl := Option.some.inj (Option.some.inj h)
      rcases List.mem_cons.mp hseen with rfl | hseen
      · exact .single hmother
      · exact TransGen.head'_iff.mpr ⟨mother, hmother, hfrom mother hseen⟩
    · refine ih (fun x hx => ?_) h
      rcases List.mem_cons.mp hx with rfl | hx
      · exact .single hmother
      · exact (hfrom x hx).tail hmother

/-- A walk that begins on a circle comes back to where it has begun. -/
theorem walk_circle {start : Nat} (hle : ∀ a b, searchMap a = some b → f a = some b)
    (hnew : p ∉ checkedPools) (hon : ∀ x ∈ p :: checkedPools, OnCircle f x)
    (hfrom : ∀ x ∈ p :: checkedPools, x = start ∨ ∃ y ∈ checkedPools, f y = some x)
    (h : walk searchMap fuel checkedPools p = some (some q)) : OnCircle f q ∧ f q = some start := by
  induction fuel generalizing p checkedPools with
  | zero => exact nomatch h
  | succ fuel ih =>
    unfold walk at h
    split at h
    · exact nomatch h
    rename_i mother hmother
    have hp := hon p (List.mem_cons_self ..)
    have hlink := hle p mother hmother
    split at h
    · rename_i hseen
      obtain rfl := Option.some.inj (Option.some.inj h)
      obtain rfl | ⟨y, hy, hymother⟩ := hfrom mother hseen
      · exact ⟨hp, hlink⟩
      · have heq := OnCircle.eq_of_leads (hon y (List.mem_cons_of_mem _ hy)) hp hymother hlink
        exact absurd (heq ▸ hy) hnew
    · rename_i hunseen
      refine ih hunseen (fun x hx => ?_) (fun x hx => ?_) h
      · rcases List.mem_cons.mp hx with rfl | hx
        · exact hp.next hlink
        · exact hon x hx
      · rcases List.mem_cons.mp hx with rfl | hx
        · exact .inr ⟨p, List.mem_cons_self .., hlink⟩
        · refine (hfrom x hx).imp_right fun hprev => ?_
          obtain ⟨y, hy, hyx⟩ := hprev
          exact ⟨y, List.mem_cons_of_mem _ hy, hyx⟩

theorem countP_eraseP_of_disjoint {α : Type} {r s : α → Bool} (h : ∀ x, r x → s x = false)
    (l : List α) : (l.eraseP r).countP s = l.countP s := by
  induction l with
  | nil => rfl
  | cons x l ih =>
    cases hx : r x with
    | true => rw [List.eraseP_cons_of_pos hx, List.countP_cons_of_neg (by simp [h x hx])]
    | false =>
      rw [List.eraseP_cons_of_neg (by simp [hx]), List.countP_cons, List.countP_cons, ih]

theorem copies_removeOneRelation_of_ne (g : PoolGroup) (e : Bool) (h : c ≠ q) :
    (g.removeOneRelation q).copies e c = g.copies e c := by
  have hdisj : ∀ obj : PoolObject, obj.guid == q → (obj.guid == c) = false := by
    intro obj hq
    rw [beq_iff_eq.mp hq]
    exact beq_eq_false_iff_ne.mpr (Ne.symm h)
  unfold PoolGroup.removeOneRelation PoolGroup.copies
  cases e <;> exact countP_eraseP_of_disjoint hdisj _

structure Spared (keep : Nat → Prop) (l₀ l : PoolLoad) : Prop where
  reduced : Reduced l₀ l
  links : ∀ c, keep c → l.poolSearchMap c = l₀.poolSearchMap c
  copies : ∀ m e c, (l₀.groups m).copies e c ≤ (l.groups m).copies e c +
    if l₀.poolSearchMap c = some m ∧ l.poolSearchMap c = none then 1 else 0

theorem Spared.refl (keep : Nat → Prop) (l : PoolLoad) : Spared keep l l where
  reduced := .refl l
  links _ _ := rfl
  copies _ _ _ := Nat.le_add_right _ _

theorem Spared.removeLink (h : Spared keep l₀ l) (hq : ¬keep q) : Spared keep l₀ (l.removeLink q) where
  reduced := h.reduced.removeLink q
  links c hc := by
    have hne : c ≠ q := fun heq => hq (heq ▸ hc)
    rw [removeLink_searchMap, Function.update_of_ne hne]
    exact h.links c hc
  copies m e c := by
    refine Nat.le_trans (h.copies m e c) ?_
    cases hmother : l.poolSearchMap q with
    | none =>
      have hsame : l.removeLink q = l := by
        unfold PoolLoad.removeLink
        rw [hmother]
      rw [hsame]
    | some mother =>
      have hgroups : (l.removeLink q).groups = Function.update l.groups mother
          ((l.groups mother).removeOneRelation q) := by
        unfold PoolLoad.removeLink
        rw [hmother]
      rw [removeLink_searchMap, hgroups]
      by_cases hc : c = q
      · subst hc
        rw [Function.update_self, hmother, h.reduced.searchMap c mother hmother]
        by_cases hm : m = mother
        · subst hm
          rw [Function.update_self, (copies_removeOneRelation _ c e c).2]
          simp only [reduceCtorEq, and_false, if_false, and_self, if_true]
          omega
        · rw [Function.update_of_ne hm]
          simp [Ne.symm hm]
      · rw [Function.update_of_ne hc]
        by_cases hm : m = mother
        · subst hm
          rw [Function.update_self, copies_removeOneRelation_of_ne _ e hc]
        · rw [Function.update_of_ne hm]

def Start (keep : Nat → Prop) (l₀ : PoolLoad) (p : Nat) : Prop :=
  ∃ q, ¬keep q ∧ OnCircle l₀.poolSearchMap q ∧ l₀.poolSearchMap q = some p

theorem Spared.checkPool (h : Spared keep l₀ l) (hstart : Start keep l₀ p)
    (hcheck : l.checkPool fuel p = some l') : Spared keep l₀ l' := by
  obtain ⟨r, hwalk, rfl⟩ := Option.map_eq_some_iff.mp hcheck
  cases r with
  | none => exact h
  | some child =>
    refine h.removeLink fun hkeep => ?_
    obtain ⟨q, hq, hcircle, hlink⟩ := hstart
    obtain ⟨hcircle', hlink'⟩ := walk_circle h.reduced.searchMap List.not_mem_nil (fun x hx => by
      rw [List.mem_singleton.mp hx]
      exact hcircle.next hlink) (fun x hx => .inl (List.mem_singleton.mp hx)) hwalk
    exact hq (hcircle'.eq_of_leads hcircle hlink' hlink ▸ hkeep)

theorem Spared.check {order : List Nat} (h : Spared keep l₀ l)
    (hstart : ∀ p ∈ order, Start keep l₀ p) (hcheck : l.check fuel order = some l') :
    Spared keep l₀ l' := by
  unfold PoolLoad.check at hcheck
  induction order generalizing l with
  | nil =>
    obtain rfl := Option.some.inj hcheck
    exact h
  | cons p order ih =>
    obtain ⟨u, hu, hrest⟩ := Option.bind_eq_some_iff.mp hcheck
    exact ih (h.checkPool (hstart p (List.mem_cons_self ..)) hu)
      (fun q hq => hstart q (List.mem_cons_of_mem _ hq)) hrest

/-- When every circle has a link that need not be kept, all of them are gone after the search has
begun after each such link. -/
theorem Spared.noCircle (h : Spared keep l₀ l)
    (hkeep : ∀ x, OnCircle l₀.poolSearchMap x →
      ∃ q, ReflTransGen (Leads l₀.poolSearchMap) x q ∧ ¬keep q)
    (hstart : ∀ p, Start keep l₀ p → ¬OnCircle l.poolSearchMap p) (p : Nat) :
    ¬OnCircle l.poolSearchMap p := by
  intro hcircle
  obtain ⟨q, hpq, hq⟩ := hkeep p (hcircle.mono h.reduced.searchMap)
  have hqcircle : OnCircle l.poolSearchMap q := hcircle.of_le h.reduced.searchMap hpq
  obtain ⟨m, hm, -⟩ := TransGen.head'_iff.mp hqcircle
  exact hstart m ⟨q, hq, hqcircle.mono h.reduced.searchMap, h.reduced.searchMap q m hm⟩
    (hqcircle.next hm)

theorem check_of_noCircle {order : List Nat} (h : ∀ p, ¬OnCircle l.poolSearchMap p)
    (hcheck : l.check fuel order = some l') : l' = l := by
  unfold PoolLoad.check at hcheck
  induction order with
  | nil => exact (Option.some.inj hcheck).symm
  | cons p order ih =>
    obtain ⟨u, hu, hrest⟩ := Option.bind_eq_some_iff.mp hcheck
    obtain ⟨r, hwalk, rfl⟩ := Option.map_eq_some_iff.mp hu
    cases r with
    | none => exact ih hrest
    | some q => exact absurd (walk_onCircle (fun x hx => absurd hx List.not_mem_nil) hwalk) (h q)

theorem exists_spared {pools : List Nat}
    (hkeep : ∀ x, OnCircle l₀.poolSearchMap x →
      ∃ q, ReflTransGen (Leads l₀.poolSearchMap) x q ∧ ¬keep q)
    (hstart : ∀ p, Start keep l₀ p → p ∈ pools) :
    ∃ order : List Nat, order.Perm pools ∧
      ∀ fuel l, l₀.check fuel order = some l → Spared keep l₀ l := by
  classical
  refine ⟨_, List.filter_append_perm (fun p => decide (Start keep l₀ p)) pools, ?_⟩
  intro fuel l hcheck
  unfold PoolLoad.check at hcheck
  rw [List.foldlM_append] at hcheck
  obtain ⟨u, hu, hrest⟩ := Option.bind_eq_some_iff.mp hcheck
  have hspared : Spared keep l₀ u := (Spared.refl keep l₀).check (fun p hp => by
    simpa using (List.mem_filter.mp hp).2) hu
  have hended := (check_spec (.refl l₀) hu).2.1
  have hnone := hspared.noCircle hkeep fun p hp =>
    hended p (List.mem_filter.mpr ⟨hstart p hp, decide_eq_true hp⟩)
  exact check_of_noCircle hnone hrest ▸ hspared

theorem Spared.under (h : Spared keep l₀ l) {mother : Nat} (hunder : l₀.Under c mother)
    (hlink : l₀.poolSearchMap c = some mother → keep c) : l.Under c mother := by
  obtain ⟨e, hpos⟩ := PoolGroup.mem_guids_iff.mp hunder
  refine PoolGroup.mem_guids_iff.mpr ⟨e, ?_⟩
  have hcopies := h.copies mother e c
  rw [if_neg] at hcopies
  · omega
  · rintro ⟨hmother, hnone⟩
    rw [h.links c (hlink hmother), hmother] at hnone
    exact nomatch hnone

theorem poolTemplate_isSome {templates : List (Nat × Nat)} :
    p ∈ templates.map Prod.fst ↔ (poolTemplate templates p).isSome := by
  induction templates using List.reverseRecOn with
  | nil => simp [poolTemplate]
  | append_singleton templates row ih =>
    unfold poolTemplate at *
    rw [List.foldl_append, List.map_append, List.mem_append, ih]
    by_cases hp : p = row.1
    · simp [hp]
    · simp [hp, Function.update_of_ne]

def Nearer (l₀ : PoolLoad) (rank : Nat → Nat) (child c : Nat) : Prop :=
  c ≠ child ∧ ∃ m, l₀.poolSearchMap c = some m ∧ rank m < rank c

theorem exists_not_nearer {rank : Nat → Nat} {child x : Nat} (h : OnCircle l₀.poolSearchMap x) :
    ∃ q, ReflTransGen (Leads l₀.poolSearchMap) x q ∧ ¬Nearer l₀ rank child q := by
  by_contra hall
  simp only [not_exists, not_and, not_not] at hall
  have hdown : ∀ {y}, TransGen (Leads l₀.poolSearchMap) x y → rank y < rank x := by
    intro y hy
    have hstep : ∀ {a b}, ReflTransGen (Leads l₀.poolSearchMap) x a →
        l₀.poolSearchMap a = some b → rank b < rank a := by
      intro a b ha hab
      obtain ⟨-, m, hm, hlt⟩ := hall a ha
      obtain rfl := Option.some.inj (hab.symm.trans hm)
      exact hlt
    induction hy with
    | single hlink => exact hstep .refl hlink
    | tail hy hlink ih => exact Nat.lt_trans (hstep hy.to_reflTransGen hlink) ih
  exact Nat.lt_irrefl _ (hdown h)

/-- The way back over the nearer pools is there after the search. -/
theorem Spared.way {rank : Nat → Nat} {child c : Nat}
    (h : Spared (Nearer (loadRows template rows) rank child) (loadRows template rows) l)
    (hrank : ∀ a, a ≠ child → ReflTransGen (Listed template rows) a child → ∃ b,
      Listed template rows a b ∧ ReflTransGen (Listed template rows) b child ∧ rank b < rank a)
    (hc : ReflTransGen (Listed template rows) c child) : ReflTransGen l.Under c child := by
  induction hn : rank c using Nat.strong_induction_on generalizing c with
  | _ n ih =>
    by_cases heq : c = child
    · exact heq ▸ .refl
    · obtain ⟨b, hlisted, hb, hlt⟩ := hrank c heq hc
      have hunder : l.Under c b :=
        h.under (under_loadRows.mpr hlisted) fun hlink => ⟨heq, b, hlink, hlt⟩
      exact .head hunder (ih (rank b) (hn ▸ hlt) hb rfl)

/-- The link of the circle that is not on the first mothers, or is there a second time. -/
theorem Spared.back {rank : Nat → Nat} {child mother : Nat}
    (h : Spared (Nearer (loadRows template rows) rank child) (loadRows template rows) l)
    (hlisted : Listed template rows child mother)
    (hbad : ¬((∀ row, (rows.filter (PoolPoolRow.accepted template)).find?
        (fun row => row.poolId == child) = some row → row.motherPool = mother) ∧
      ∀ isExplicit,
        (rowsOf template rows mother isExplicit).countP (fun row => row.poolId == child) ≤ 1)) :
    l.Under child mother := by
  by_cases hfirst : (loadRows template rows).poolSearchMap child = some mother
  · have htwice : ∃ e, 2 ≤ ((loadRows template rows).groups mother).copies e child := by
      by_contra hall
      simp only [not_exists, Nat.not_le] at hall
      refine hbad ⟨fun row hrow => ?_, fun e => ?_⟩
      · rw [loadRows_searchMap, hrow] at hfirst
        exact Option.some.inj hfirst
      · rw [← copies_loadRows]
        exact Nat.lt_succ_iff.mp (hall e)
    obtain ⟨e, he⟩ := htwice
    refine PoolGroup.mem_guids_iff.mpr ⟨e, ?_⟩
    have hcopies := h.copies mother e child
    split at hcopies <;> omega
  · exact h.under (under_loadRows.mpr hlisted) fun hlink => absurd hlink hfirst

theorem listed_of_searchMap {mother : Nat}
    (h : (loadRows template rows).poolSearchMap c = some mother) : Listed template rows c mother := by
  rw [loadRows_searchMap] at h
  obtain ⟨row, hrow, rfl⟩ := Option.map_eq_some_iff.mp h
  obtain ⟨hmem, haccepted⟩ := List.mem_filter.mp (List.mem_of_find?_eq_some hrow)
  have hpool := List.find?_some hrow
  exact ⟨row, hmem, haccepted, beq_iff_eq.mp hpool, rfl⟩

/-- A circle with a row that is not the first of its pool, or is in its list a second time, stays
in the groups in some order. -/
theorem exists_circle {templates : List (Nat × Nat)}
    (h : ¬FirstOnCircles (poolTemplate templates) rows) : ∃ order fuel l, order.Nodup ∧
      (∀ p, p ∈ order ↔ (poolTemplate templates p).isSome) ∧
      (loadRows (poolTemplate templates) rows).check fuel order = some l ∧ ¬l.NoCircle := by
  simp only [FirstOnCircles, not_forall, exists_prop] at h
  obtain ⟨child, mother, hlisted, hback, hbad⟩ := h
  obtain ⟨rank, hrank⟩ := exists_nearer (Listed (poolTemplate templates) rows) child
  have hstart : ∀ p, Start (Nearer (loadRows (poolTemplate templates) rows) rank child)
      (loadRows (poolTemplate templates) rows) p → p ∈ (templates.map Prod.fst).dedup := by
    rintro p ⟨q, -, hcircle, hlink⟩
    obtain ⟨m, hm, -⟩ := TransGen.head'_iff.mp (hcircle.next hlink)
    rw [List.mem_dedup, poolTemplate_isSome]
    exact Listed.inTemplate (listed_of_searchMap hm)
  obtain ⟨order, hperm, hspared⟩ := exists_spared (fun x hx => exists_not_nearer hx) hstart
  have hchildren : ∀ c, ((loadRows (poolTemplate templates) rows).poolSearchMap c).isSome →
      c ∈ rows.map PoolPoolRow.poolId := by
    intro c hc
    obtain ⟨m, hm⟩ := Option.isSome_iff_exists.mp hc
    obtain ⟨row, hrow, -, rfl, -⟩ := listed_of_searchMap hm
    exact List.mem_map_of_mem hrow
  obtain ⟨l, hcheck⟩ := Option.isSome_iff_exists.mp
    (check_isSome hchildren (Nat.lt_succ_self _) (.refl _) order)
  have hl := hspared _ l hcheck
  refine ⟨order, _, l, hperm.nodup_iff.mpr (List.nodup_dedup _), fun p => ?_, hcheck, fun hnone => ?_⟩
  · rw [hperm.mem_iff, List.mem_dedup, poolTemplate_isSome]
  · exact hnone child (TransGen.head'_iff.mpr ⟨mother, hl.back hlisted hbad, hl.way hrank hback⟩)

/-- The search leaves no pool above itself, whatever the order of the templates, and spawning,
updating and despawning end, exactly when the circles of the rows lie on the first mothers. -/
theorem pools_load_iff (templates : List (Nat × Nat)) (rows : List PoolPoolRow) :
    (∀ (order : List Nat) (fuel : Nat) (l : PoolLoad), order.Nodup →
      (∀ p, p ∈ order ↔ (poolTemplate templates p).isSome) →
      (loadRows (poolTemplate templates) rows).check fuel order = some l →
      l.NoCircle ∧ ∀ group : Kind → Nat → PoolGroup, ∃ n,
        ∀ (dice : Dice) (ops : List PoolOp) (s : PoolMgr),
          (ops.foldlM (PoolMgr.stepWithin dice (l.data (poolTemplate templates) group) n) s).isSome) ↔
      FirstOnCircles (poolTemplate templates) rows := by
  constructor
  · intro hall
    by_contra hfirst
    obtain ⟨order, fuel, l, hnodup, horder, hcheck, hcircle⟩ := exists_circle hfirst
    exact hcircle (hall order fuel l hnodup horder hcheck).1
  · intro hfirst order fuel l _ horder hcheck
    exact ⟨check_noCircle hfirst horder hcheck, fun group =>
      (pools_load horder hfirst hcheck group).2⟩

end Ashamane.Pools
