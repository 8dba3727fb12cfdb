import Ashamane.Looting.CounterFill
import Ashamane.Looting.References

/-! The conditions of the rows of a template: where they are attached, and what `CopyConditions`
gives to an item that was made from a row. -/
namespace Ashamane.Looting
open Ashamane.Lib

/-- A condition of `conditions` with a loot template as its source. -/
structure TemplateCondition where
  sourceEntry : Nat
  cond : Nat
  isLoaded : Bool := true
  deriving DecidableEq

def pushCondition (c : TemplateCondition) : List LootRow → Option (List LootRow)
  | [] => none
  | item :: items =>
    if item.itemid = c.sourceEntry then
      some ({ item with conditions := item.conditions ++ [c.cond] } :: items)
    else (pushCondition c items).map (item :: ·)

def LootGroup.pushCondition (c : TemplateCondition) (group : LootGroup) : Option LootGroup :=
  match Looting.pushCondition c group.explicitlyChanced with
  | some items => some { group with explicitlyChanced := items }
  | none =>
    (Looting.pushCondition c group.equalChanced).map fun items => { group with equalChanced := items }

def pushGroups (c : TemplateCondition) : List (Option LootGroup) → Option (List (Option LootGroup))
  | [] => none
  | none :: groups => (pushGroups c groups).map (none :: ·)
  | some group :: groups =>
    match group.pushCondition c with
    | some group => some (some group :: groups)
    | none => (pushGroups c groups).map (some group :: ·)

namespace LootTemplate

def addConditionItem (t : LootTemplate) (c : TemplateCondition) : LootTemplate × Bool :=
  if !c.isLoaded then (t, false)
  else
    match pushCondition c t.entries with
    | some entries => ({ t with entries }, true)
    | none =>
      match pushGroups c t.groups with
      | some groups => ({ t with groups }, true)
      | none => (t, false)

def addConditions (t : LootTemplate) (conds : List TemplateCondition) : LootTemplate :=
  conds.foldl (fun t c => (t.addConditionItem c).1) t

def copyConditions (t : LootTemplate) (li : LootItem) : LootItem :=
  match t.entries.find? fun item => item.itemid == li.itemid with
  | some item => { li with conditions := item.conditions }
  | none => li

end LootTemplate

/-- An item made from a row. What is read back from the database has no conditions yet. -/
def LootItem.made (store : ItemStore) (item : LootRow) (count : Nat) (reloaded : Bool) : LootItem :=
  let li := { LootItem.new store item.toLootStoreItem with count }
  if reloaded then { li with conditions := [] } else li

/-! What `Process` adds to a loot was made from the rows of the template and of those it refers to. -/

def MadeFrom (store : ItemStore) (rows : LootRow → Prop) (old new : Loot) : Prop :=
  ∀ li ∈ new.items ++ new.questItems, li ∈ old.items ++ old.questItems ∨
    ∃ item, rows item ∧ ∃ count, li = LootItem.made store item count false

section MadeFrom
variable {store : ItemStore} {rows : LootRow → Prop} {old mid new : Loot} {w : LootWorld}
  {item : LootRow} {s : Loot × Random}

theorem MadeFrom.refl (old : Loot) : MadeFrom store rows old old := fun _ h => .inl h

theorem MadeFrom.trans (h : MadeFrom store rows old mid) (h' : MadeFrom store rows mid new) :
    MadeFrom store rows old new := fun li hli => (h' li hli).elim (h li) .inr

theorem MadeFrom.mono {rows' : LootRow → Prop} (h : MadeFrom store rows old new)
    (hrows : ∀ item, rows item → rows' item) : MadeFrom store rows' old new :=
  fun li hli => (h li hli).imp_right fun ⟨item, hitem, hmade⟩ => ⟨item, hrows item hitem, hmade⟩

theorem madeFrom_addItem (hitem : rows item) (loot : Loot) (count : Nat) (usable : Bool) :
    MadeFrom store rows loot (loot.addItem store ⟨item.toLootStoreItem, count, usable⟩) := by
  have hadded : ∀ (new : Loot) (l : List LootItem),
      (∀ li ∈ new.items ++ new.questItems, li ∈ loot.items ++ loot.questItems ∨ li ∈ l) →
      (∀ li ∈ l, ∃ n, li = { LootItem.new store item.toLootStoreItem with count := n }) →
      MadeFrom store rows loot new := by
    intro new l hnew hl li hli
    exact (hnew li hli).imp_right fun hin => ⟨item, hitem, hl li hin⟩
  have hitems : ∀ l : List LootItem, ∀ li ∈ (loot.items ++ l) ++ loot.questItems,
      li ∈ loot.items ++ loot.questItems ∨ li ∈ l := by
    intro l li hli
    simp only [List.mem_append] at hli ⊢
    obtain (h | h) | h := hli
    · exact .inl (.inl h)
    · exact .inr h
    · exact .inl (.inr h)
  have hquest : ∀ l : List LootItem, ∀ li ∈ loot.items ++ (loot.questItems ++ l),
      li ∈ loot.items ++ loot.questItems ∨ li ∈ l := by
    intro l li hli
    rw [← List.append_assoc, List.mem_append] at hli
    exact hli
  unfold Loot.addItem
  dsimp only
  split
  · split
    · exact hadded _ _ (hquest _) fun li hli => ⟨_, List.mem_singleton.mp hli⟩
    · exact hadded _ _ (hitems _) fun li hli => ⟨_, List.mem_singleton.mp hli⟩
  · split
    · exact MadeFrom.refl loot
    · split
      · exact MadeFrom.refl loot
      · split
        · exact hadded _ _ (hquest _) fun li hli => Generated.stacksOf_spec (List.mem_of_mem_take hli)
        · exact hadded _ _ (hitems _) fun li hli => Generated.stacksOf_spec (List.mem_of_mem_take hli)

theorem madeFrom_addDrawn (w : LootWorld) (usable : Bool) (hitem : rows item) (s : Loot × Random) :
    MadeFrom w.itemTemplate rows s.1 (addDrawn w usable item s).1 := by
  unfold addDrawn
  split
  · exact madeFrom_addItem hitem _ _ _
  · exact MadeFrom.refl _

theorem mem_of_pickChanced {roll : ℚ} {items : List LootRow} (h : pickChanced roll items = some item) :
    item ∈ items := by
  induction items generalizing roll with
  | nil => cases h
  | cons first items ih =>
    rw [pickChanced] at h
    split at h
    · exact Option.some.inj h ▸ List.mem_cons_self
    · split at h
      · exact Option.some.inj h ▸ List.mem_cons_self
      · exact List.mem_cons_of_mem _ (ih h)

theorem mem_of_groupRoll {group : LootGroup} {loot : Loot} {lootMode : BitVec 16}
    {maxDuplicates : Nat} {random random' : Random}
    (h : group.roll loot lootMode maxDuplicates random = (some item, random')) :
    item ∈ group.rows := by
  have hchanced : ∀ {found random''}, group.rollChanced loot lootMode maxDuplicates random =
      (some found, random'') → found ∈ group.explicitlyChanced := by
    intro found random'' hroll
    unfold LootGroup.rollChanced at hroll
    dsimp only at hroll
    split at hroll
    · cases hroll
    · exact (List.mem_filter.mp (mem_of_pickChanced (congrArg Prod.fst hroll))).1
  unfold LootGroup.roll at h
  split at h
  · rename_i heq
    cases h
    exact List.mem_append_left _ (hchanced heq)
  · dsimp only at h
    split at h
    · cases h
    · have hpicked := List.mem_of_getElem? (congrArg Prod.fst h)
      exact List.mem_append_right _ (List.mem_filter.mp hpicked).1

theorem madeFrom_process {w : LootWorld} {lootMode : BitVec 16} {maxDuplicates : Nat}
    {group : LootGroup} (hrows : ∀ item ∈ group.rows, rows item) (s : Loot × Random) :
    MadeFrom w.itemTemplate rows s.1 (group.process w lootMode maxDuplicates s).1 := by
  unfold LootGroup.process
  split
  · rename_i heq
    exact madeFrom_addDrawn w true (hrows _ (mem_of_groupRoll heq)) (s.1, _)
  · exact MadeFrom.refl _

end MadeFrom

namespace LootSetting
variable {g : LootSetting} {t : LootTemplate} {item : LootRow} {s u : Loot × Random}
  {call : ProcessCall → Option (Loot × Random)} {usable : Nat → Bool}

def Rows (g : LootSetting) (t : LootTemplate) (item : LootRow) : Prop :=
  ∃ t', (t' = t ∨ ∃ r, g.refs.lookup r = some t') ∧ item ∈ t'.rows

theorem madeFrom_processEntry (hitem : g.Rows t item)
    (hcall : ∀ c u, call c = some u →
      MadeFrom g.world.itemTemplate (g.Rows c.template) c.loot u.1)
    (h : g.processEntry call usable s item = some u) :
    MadeFrom g.world.itemTemplate (g.Rows t) s.1 u.1 := by
  unfold processEntry at h
  split at h
  · obtain rfl := Option.some.inj h
    exact MadeFrom.refl _
  · split at h
    · obtain rfl := Option.some.inj h
      exact MadeFrom.refl _
    · split at h
      · split at h
        · obtain rfl := Option.some.inj h
          exact MadeFrom.refl _
        · rename_i t' hlookup
          refine (Fuel.foldlM_passes (I := fun now : Loot × Random =>
            MadeFrom g.world.itemTemplate (g.Rows t) s.1 now.1) ?_ ?_ h).1
          · exact MadeFrom.refl _
          intro now _ _ next hnow hstep
          refine hnow.trans ((hcall _ _ hstep).mono ?_)
          rintro item ⟨t'', hsame | hrefs, hmem⟩
          · exact ⟨t', .inr ⟨_, hlookup⟩, (show t'' = t' from hsame) ▸ hmem⟩
          · exact ⟨t'', .inr hrefs, hmem⟩
      · obtain rfl := Option.some.inj h
        exact madeFrom_addDrawn g.world _ hitem _

theorem madeFrom_processGroups {rows : LootRow → Prop} {groups : List (Option LootGroup)}
    (hrows : ∀ group, some group ∈ groups → ∀ item ∈ group.rows, rows item) (s : Loot × Random) :
    MadeFrom g.world.itemTemplate rows s.1 (g.processGroups groups s).1 := by
  unfold processGroups
  induction groups generalizing s with
  | nil => exact MadeFrom.refl _
  | cons group groups ih =>
    have hrest := ih fun group hgroup => hrows group (List.mem_cons_of_mem _ hgroup)
    cases group with
    | none => exact hrest s
    | some group =>
      exact (madeFrom_process (hrows group List.mem_cons_self) s).trans
        (hrest (group.process g.world g.lootMode g.maxDuplicates s))

end LootSetting

/-! Where the conditions are after they were attached one after the other. -/

def LootRow.attach (item : LootRow) (conds : List Nat) : LootRow :=
  { item with conditions := item.conditions ++ conds }

def attached (conds : List TemplateCondition) (itemid : Nat) : List Nat :=
  (conds.filter fun c => c.isLoaded && c.sourceEntry == itemid).map (·.cond)

def FirstOf (rows : List LootRow) (i itemid : Nat) : Prop :=
  itemid ∉ (rows.map fun item => item.itemid).take i

instance (rows : List LootRow) (i itemid : Nat) : Decidable (FirstOf rows i itemid) :=
  inferInstanceAs (Decidable (¬_))

def pushed (c : TemplateCondition) (rows : List LootRow) : List LootRow :=
  (pushCondition c rows).getD rows

variable {c : TemplateCondition} {conds : List TemplateCondition} {t : LootTemplate}
  {item : LootRow} {rows : List LootRow} {i : Nat}

theorem attach_nil (item : LootRow) : item.attach [] = item := by
  rw [LootRow.attach, List.append_nil]

theorem attach_attach (item : LootRow) (l l' : List Nat) :
    (item.attach l).attach l' = item.attach (l ++ l') := by
  rw [LootRow.attach, LootRow.attach, LootRow.attach, List.append_assoc]

theorem attached_cons (c : TemplateCondition) (conds : List TemplateCondition) (itemid : Nat) :
    attached (c :: conds) itemid =
      if c.isLoaded ∧ itemid = c.sourceEntry then c.cond :: attached conds itemid
      else attached conds itemid := by
  unfold attached
  rw [List.filter_cons]
  by_cases h : c.isLoaded ∧ itemid = c.sourceEntry
  · rw [if_pos h, if_pos (by simp [h])]
    rfl
  · rw [if_neg h, if_neg]
    intro hboth
    rw [Bool.and_eq_true, beq_iff_eq] at hboth
    exact h ⟨hboth.1, hboth.2.symm⟩

theorem pushed_cons : pushed c (item :: rows) =
    if item.itemid = c.sourceEntry then item.attach [c.cond] :: rows else item :: pushed c rows := by
  unfold pushed
  rw [pushCondition]
  split
  · rfl
  · cases pushCondition c rows <;> rfl

theorem map_itemid_pushed (c : TemplateCondition) (rows : List LootRow) :
    (pushed c rows).map (fun item => item.itemid) = rows.map fun item => item.itemid := by
  induction rows with
  | nil => rfl
  | cons item rows ih =>
    rw [pushed_cons]
    split
    · rfl
    · rw [List.map_cons, List.map_cons, ih]

theorem getElem?_pushed (c : TemplateCondition) (rows : List LootRow) (i : Nat) :
    (pushed c rows)[i]? = rows[i]?.map fun item =>
      if item.itemid = c.sourceEntry ∧ FirstOf rows i item.itemid then item.attach [c.cond]
      else item := by
  induction rows generalizing i with
  | nil => rfl
  | cons first rows ih =>
    rw [pushed_cons]
    cases i with
    | zero =>
      split <;> simp_all [FirstOf]
    | succ i =>
      by_cases hfirst : first.itemid = c.sourceEntry
      · rw [if_pos hfirst, List.getElem?_cons_succ, List.getElem?_cons_succ]
        refine Option.map_id'.symm.trans (Option.map_congr fun item _ => ?_)
        rw [if_neg]
        rintro ⟨hitem, hno⟩
        exact hno (by simp [hfirst, hitem])
      · rw [if_neg hfirst, List.getElem?_cons_succ, List.getElem?_cons_succ, ih]
        refine Option.map_congr fun item _ => ?_
        congr 1
        refine propext (and_congr_right fun hitem => ?_)
        unfold FirstOf
        rw [List.map_cons, List.take_succ_cons, List.mem_cons, hitem]
        exact ⟨fun h hor => hor.elim (fun heq => hfirst heq.symm) h, fun h hin => h (.inr hin)⟩

/-! The traversal of entries and groups is one of the rows. -/

theorem pushCondition_append (c : TemplateCondition) (l r : List LootRow) :
    pushCondition c (l ++ r) =
      match pushCondition c l with
      | some l' => some (l' ++ r)
      | none => (pushCondition c r).map (l ++ ·) := by
  induction l with
  | nil => simp [pushCondition]
  | cons item l ih =>
    rw [List.cons_append, pushCondition, pushCondition]
    split
    · rfl
    · rw [ih]
      cases pushCondition c l with
      | none => simp [Function.comp_def]
      | some l' => rfl

theorem rows_groupPushCondition (group : LootGroup) :
    (group.pushCondition c).map LootGroup.rows = pushCondition c group.rows := by
  unfold LootGroup.pushCondition
  rw [LootGroup.rows, pushCondition_append]
  cases pushCondition c group.explicitlyChanced with
  | none => simp [Function.comp_def, LootGroup.rows]
  | some items => rfl

def groupRows (groups : List (Option LootGroup)) : List LootRow :=
  groups.flatMap fun group => (group.map LootGroup.rows).getD []

theorem rows_pushGroups (groups : List (Option LootGroup)) :
    (pushGroups c groups).map groupRows = pushCondition c (groupRows groups) := by
  induction groups with
  | nil => rfl
  | cons group groups ih =>
    cases group with
    | none =>
      rw [pushGroups, Option.map_map]
      exact ih
    | some group =>
      have hrows : groupRows (some group :: groups) = group.rows ++ groupRows groups := rfl
      rw [hrows, pushCondition_append, ← rows_groupPushCondition, ← ih, pushGroups]
      cases group.pushCondition c with
      | none =>
        rw [Option.map_none]
        dsimp only
        rw [Option.map_map, Option.map_map]
        rfl
      | some group' => rfl

theorem length_of_pushCondition {rows' : List LootRow} (h : pushCondition c rows = some rows') :
    rows'.length = rows.length := by
  have hids := congrArg List.length (map_itemid_pushed c rows)
  rwa [pushed, h, Option.getD_some, List.length_map, List.length_map] at hids

namespace LootTemplate

theorem take_rows (t : LootTemplate) : t.rows.take t.entries.length = t.entries := List.take_left

theorem addConditionItem_spec (t : LootTemplate) (c : TemplateCondition) :
    (t.addConditionItem c).1.rows = (if c.isLoaded then pushed c t.rows else t.rows) ∧
      (t.addConditionItem c).1.entries.length = t.entries.length := by
  unfold addConditionItem
  cases hloaded : c.isLoaded with
  | false => exact ⟨rfl, rfl⟩
  | true =>
    have hrows : pushCondition c t.rows = match pushCondition c t.entries with
        | some entries => some (entries ++ groupRows t.groups)
        | none => (pushCondition c (groupRows t.groups)).map (t.entries ++ ·) :=
      pushCondition_append c t.entries (groupRows t.groups)
    rw [if_pos rfl, pushed, hrows]
    cases hentries : pushCondition c t.entries with
    | some entries => exact ⟨rfl, length_of_pushCondition hentries⟩
    | none =>
      rw [← rows_pushGroups]
      cases pushGroups c t.groups with
      | some groups => exact ⟨rfl, rfl⟩
      | none => exact ⟨rfl, rfl⟩

theorem length_entries_addConditions (t : LootTemplate) (conds : List TemplateCondition) :
    (t.addConditions conds).entries.length = t.entries.length := by
  induction conds generalizing t with
  | nil => rfl
  | cons c conds ih => exact (ih _).trans (addConditionItem_spec t c).2

theorem map_itemid_addConditionItem (t : LootTemplate) (c : TemplateCondition) :
    (t.addConditionItem c).1.rows.map (fun item => item.itemid) =
      t.rows.map fun item => item.itemid := by
  rw [(addConditionItem_spec t c).1]
  split
  · exact map_itemid_pushed c t.rows
  · rfl

theorem firstOf_addConditionItem (t : LootTemplate) (c : TemplateCondition) (i itemid : Nat) :
    FirstOf (t.addConditionItem c).1.rows i itemid ↔ FirstOf t.rows i itemid := by
  unfold FirstOf
  rw [map_itemid_addConditionItem]

theorem map_itemid_addConditions (t : LootTemplate) (conds : List TemplateCondition) :
    (t.addConditions conds).rows.map (fun item => item.itemid) =
      t.rows.map fun item => item.itemid := by
  induction conds generalizing t with
  | nil => rfl
  | cons c conds ih => exact (ih _).trans (map_itemid_addConditionItem t c)

theorem getElem?_addConditions (t : LootTemplate) (conds : List TemplateCondition) (i : Nat) :
    (t.addConditions conds).rows[i]? = t.rows[i]?.map fun item =>
      if FirstOf t.rows i item.itemid then item.attach (attached conds item.itemid) else item := by
  induction conds generalizing t with
  | nil =>
    refine Option.map_id'.symm.trans (Option.map_congr fun item _ => ?_)
    split
    · exact (attach_nil item).symm
    · rfl
  | cons c conds ih =>
    have hstep : (t.addConditionItem c).1.rows[i]? = t.rows[i]?.map fun item =>
        if c.isLoaded ∧ item.itemid = c.sourceEntry ∧ FirstOf t.rows i item.itemid then
          item.attach [c.cond] else item := by
      rw [(addConditionItem_spec t c).1]
      cases c.isLoaded with
      | true =>
        simp only [if_true, true_and]
        exact getElem?_pushed c t.rows i
      | false => simp
    have hrest := ih (t.addConditionItem c).1
    simp only [hstep, Option.map_map, firstOf_addConditionItem] at hrest
    refine hrest.trans (Option.map_congr fun item _ => ?_)
    rw [Function.comp, attached_cons]
    by_cases hfirst : FirstOf t.rows i item.itemid
    · by_cases hcond : c.isLoaded ∧ item.itemid = c.sourceEntry
      · have hgiven : c.isLoaded ∧ item.itemid = c.sourceEntry ∧ FirstOf t.rows i item.itemid :=
          ⟨hcond.1, hcond.2, hfirst⟩
        simp only [eq_true hgiven, if_true]
        rw [if_pos hcond]
        refine (if_pos hfirst).trans (Eq.trans ?_ (if_pos hfirst).symm)
        exact attach_attach item [c.cond] _
      · have hkept : ¬(c.isLoaded ∧ item.itemid = c.sourceEntry ∧ FirstOf t.rows i item.itemid) :=
          fun h => hcond ⟨h.1, h.2.1⟩
        simp only [eq_false hkept, if_false]
        rw [if_neg hcond]
    · have hkept : ¬(c.isLoaded ∧ item.itemid = c.sourceEntry ∧ FirstOf t.rows i item.itemid) :=
        fun h => hfirst h.2.2
      simp only [eq_false hkept, if_false]
      rw [if_neg hfirst, if_neg hfirst]

/-- What `CopyConditions` finds among the entries. -/
theorem find_addConditions (hfresh : ∀ item ∈ t.rows, item.conditions = [])
    (conds : List TemplateCondition) (itemid : Nat) :
    ((t.addConditions conds).entries.find? fun item => item.itemid == itemid).map (·.conditions) =
      if ∃ item ∈ t.entries, item.itemid = itemid then some (attached conds itemid) else none := by
  have hids : (t.addConditions conds).entries.map (fun item => item.itemid) =
      t.entries.map fun item => item.itemid := by
    rw [← take_rows (t.addConditions conds), ← take_rows t, List.map_take, List.map_take,
      length_entries_addConditions, map_itemid_addConditions]
  cases hfind : (t.addConditions conds).entries.find? fun item => item.itemid == itemid with
  | none =>
    rw [if_neg]
    · rfl
    rintro ⟨item, hitem, rfl⟩
    have hmem := hids ▸ List.mem_map_of_mem (f := fun item : LootRow => item.itemid) hitem
    obtain ⟨other, hother, heq⟩ := List.mem_map.mp hmem
    exact List.find?_eq_none.mp hfind other hother (beq_iff_eq.mpr heq)
  | some found =>
    obtain ⟨hfound, k, hk, hget, hbefore⟩ := List.find?_eq_some_iff_getElem.mp hfind
    have hlen : k < t.entries.length := length_entries_addConditions t conds ▸ hk
    have hrow : (t.addConditions conds).rows[k]? = some found := by
      rw [← List.getElem?_take_of_lt hk, take_rows, List.getElem?_eq_getElem hk, hget]
    have hentry : t.rows[k]? = some t.entries[k] := by
      rw [← List.getElem?_take_of_lt hlen, take_rows, List.getElem?_eq_getElem hlen]
    have hitemid : t.entries[k].itemid = itemid := by
      have hsame := congrArg (·[k]?) hids
      simp only [List.getElem?_map, List.getElem?_eq_getElem hk, List.getElem?_eq_getElem hlen, hget,
        Option.map_some, Option.some.injEq] at hsame
      exact hsame ▸ beq_iff_eq.mp hfound
    have hfirst : FirstOf t.rows k itemid := by
      intro hin
      rw [← map_itemid_addConditions t conds, List.mem_iff_getElem?] at hin
      obtain ⟨j, hj⟩ := hin
      rw [List.getElem?_take, List.getElem?_map] at hj
      split at hj
      · rename_i hlt
        obtain ⟨other, hother, heq⟩ := Option.map_eq_some_iff.mp hj
        have hjlen : j < (t.addConditions conds).entries.length := Nat.lt_trans hlt hk
        rw [← List.getElem?_take_of_lt hjlen, take_rows, List.getElem?_eq_getElem hjlen] at hother
        have hdiffer := hbefore j hlt
        rw [Option.some.inj hother, heq, beq_self_eq_true] at hdiffer
        cases hdiffer
      · cases hj
    rw [← hitemid] at hfirst
    rw [getElem?_addConditions, hentry, Option.map_some, if_pos hfirst] at hrow
    rw [if_pos ⟨_, List.getElem_mem hlen, hitemid⟩, ← Option.some.inj hrow, Option.map_some,
      LootRow.attach, hfresh _ (List.mem_of_getElem? hentry), hitemid]
    rfl

/-- An item made from a row is given the conditions of that row exactly when none are attached, when
the row is the first for the item and not grouped, or when no row for the item is ungrouped and the
item came with the conditions of its row. -/
theorem copyConditions_iff (hfresh : ∀ item ∈ t.rows, item.conditions = [])
    (conds : List TemplateCondition) (store : ItemStore) (count : Nat) (reloaded : Bool)
    {item item' : LootRow} (hitem : t.rows[i]? = some item)
    (hitem' : (t.addConditions conds).rows[i]? = some item') :
    ((t.addConditions conds).copyConditions
        (LootItem.made store item' count reloaded)).conditions = item'.conditions ↔
      attached conds item.itemid = [] ∨
      (i < t.entries.length ∧ FirstOf t.rows i item.itemid) ∨
      (∀ other ∈ t.entries, other.itemid ≠ item.itemid) ∧
        (reloaded = false ∨ ¬FirstOf t.rows i item.itemid) := by
  rw [getElem?_addConditions, hitem, Option.map_some] at hitem'
  have hconditions : item'.conditions =
      if FirstOf t.rows i item.itemid then attached conds item.itemid else [] := by
    rw [← Option.some.inj hitem']
    split
    · rw [LootRow.attach, hfresh item (List.mem_of_getElem? hitem)]
      rfl
    · exact hfresh item (List.mem_of_getElem? hitem)
  have hitemid : (LootItem.made store item' count reloaded).itemid = item.itemid := by
    rw [← Option.some.inj hitem']
    unfold LootItem.made
    cases reloaded <;> split <;> rfl
  have hfind := find_addConditions hfresh conds item.itemid
  unfold copyConditions
  rw [hitemid, hconditions]
  by_cases hentry : ∃ other ∈ t.entries, other.itemid = item.itemid
  · rw [if_pos hentry] at hfind
    obtain ⟨found, hfound, hgiven⟩ := Option.map_eq_some_iff.mp hfind
    rw [hfound]
    dsimp only
    rw [hgiven]
    obtain ⟨other, hother, hsame⟩ := hentry
    by_cases hfirst : FirstOf t.rows i item.itemid
    · rw [if_pos hfirst]
      have hlt : i < t.entries.length := by
        by_contra hle
        have hin := List.mem_map_of_mem (f := fun item : LootRow => item.itemid) hother
        rw [← take_rows t, List.map_take, hsame] at hin
        exact hfirst (List.take_subset_take_left _ (Nat.not_lt.mp hle) hin)
      exact ⟨fun _ => .inr (.inl ⟨hlt, hfirst⟩), fun _ => rfl⟩
    · rw [if_neg hfirst]
      refine ⟨.inl, ?_⟩
      rintro (hnone | ⟨-, h⟩ | ⟨h, -⟩)
      · exact hnone
      · exact absurd h hfirst
      · exact absurd hsame (h other hother)
  · rw [if_neg hentry, Option.map_eq_none_iff] at hfind
    rw [hfind]
    have hno : ∀ other ∈ t.entries, other.itemid ≠ item.itemid :=
      fun other hother hsame => hentry ⟨other, hother, hsame⟩
    cases reloaded with
    | false => exact ⟨fun _ => .inr (.inr ⟨hno, .inl rfl⟩), fun _ => hconditions⟩
    | true =>
      change [] = _ ↔ _
      by_cases hfirst : FirstOf t.rows i item.itemid
      · rw [if_pos hfirst]
        refine ⟨fun h => .inl h.symm, ?_⟩
        rintro (hnone | ⟨hlt, -⟩ | ⟨-, h | h⟩)
        · exact hnone.symm
        · rw [← List.getElem?_take_of_lt hlt, take_rows] at hitem
          exact absurd rfl (hno item (List.mem_of_getElem? hitem))
        · cases h
        · exact absurd hfirst h
      · rw [if_neg hfirst]
        exact ⟨fun _ => .inr (.inr ⟨hno, .inr hfirst⟩), fun _ => rfl⟩

def groupedRow (conditions : List Nat) : LootRow :=
  { itemid := 25, currency := false, needsQuest := false, conditions, chance := 100, lootmode := 1,
    groupid := 1, mincount := 1, maxcount := 1 }

theorem copyConditions_iff_grouped :
    ((LootTemplate.addConditions (({} : LootTemplate).addEntry (groupedRow []))
        [⟨25, 7, true⟩]).copyConditions
      (LootItem.made (fun _ => none) (groupedRow [7]) 1 false)).conditions =
        (groupedRow [7]).conditions ↔
      attached [⟨25, 7, true⟩] 25 = [] ∨
      (0 < (({} : LootTemplate).addEntry (groupedRow [])).entries.length ∧
        FirstOf (({} : LootTemplate).addEntry (groupedRow [])).rows 0 25) ∨
      (∀ other ∈ (({} : LootTemplate).addEntry (groupedRow [])).entries, other.itemid ≠ 25) ∧
        (false = false ∨ ¬FirstOf (({} : LootTemplate).addEntry (groupedRow [])).rows 0 25) :=
  copyConditions_iff (by decide +kernel) [⟨25, 7, true⟩] (fun _ => none) 1 false
    (show (({} : LootTemplate).addEntry (groupedRow [])).rows[0]? = some (groupedRow []) by
      decide +kernel) (by decide +kernel)

/-- `Process` makes the item with its condition; read back from the database it stays without. -/
theorem copyConditions_fails_grouped :
    let store : ItemStore := fun _ =>
      some ⟨1, false, false, false, false, false, false, false, 0, 0, 0, 1⟩
    let t := LootTemplate.addConditions (({} : LootTemplate).addEntry (groupedRow []))
      [⟨25, 7, true⟩]
    let g : LootSetting := ⟨⟨store, fun _ => false, id, fun _ => id, id⟩, ∅, true, 1, 1⟩
    t.rows = [groupedRow [7]] ∧
    (Fuel.run g.processBody 1 ⟨t, 0, none, false, Loot.new 0, Random.allZero⟩).map (·.1.items) =
      some [LootItem.made store (groupedRow [7]) 1 false] ∧
    (t.copyConditions (LootItem.made store (groupedRow [7]) 1 true)).conditions ≠
      (groupedRow [7]).conditions := by
  decide +kernel

end LootTemplate

end Ashamane.Looting
