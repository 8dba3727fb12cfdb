import Ashamane.Spells.Lookups
import Mathlib.Algebra.Order.Ring.Int

/-! Cooldowns that are only added and updated: when none of them ends early. -/
namespace Ashamane.Spells
open Ashamane.Lib

variable (A : Allocator)

structure ItemEffect where
  SpellID : Nat
  CoolDownMSec : Int
  CategoryCoolDownMSec : Int
  SpellCategoryID : Nat
  deriving DecidableEq, Repr

structure Durations where
  cooldown : Int
  categoryId : Nat
  categoryCooldown : Int
  deriving DecidableEq, Repr

def getCooldownDurations (spellId : Nat) (spellInfo : SpellInfo) (effects : List ItemEffect) :
    Durations :=
  let base : Durations :=
    { cooldown := (spellInfo.RecoveryTime : Int).bmod (2 ^ 32)
      categoryId := spellInfo.Category
      categoryCooldown := (spellInfo.CategoryRecoveryTime : Int).bmod (2 ^ 32) }
  match effects.find? fun effect => effect.SpellID = spellId with
  | none => base
  | some effect =>
    if effect.CoolDownMSec < 0 ∧ effect.CategoryCoolDownMSec < 0 then base
    else ⟨effect.CoolDownMSec, effect.SpellCategoryID, effect.CategoryCoolDownMSec⟩

namespace SpellHistory

def hasCooldown (s : SpellHistory) (spellId : Nat) (spellInfo : SpellInfo)
    (effects : List ItemEffect) (ignoreCategoryCooldown : Bool) : Bool :=
  if (s.spellCooldowns.lookup spellId).isSome then true
  else if ignoreCategoryCooldown then false
  else
    let category := (getCooldownDurations spellId spellInfo effects).categoryId
    if category = 0 then false else (s.categoryCooldowns.lookup category).isSome

/-- The element of the spell `k` is the one that the category `c` points to. -/
structure Runs (s : SpellHistory) (c k : Nat) (node : Node) : Prop where
  spell : s.spellCooldowns.lookup k = some node
  category : s.categoryCooldowns.lookup c = some node.addr

variable {s t : SpellHistory} {c k : Nat} {node : Node} {now : Int}

theorem Runs.categoryId (h : s.Runs c k node) (hs : s.Sound) : node.entry.CategoryId = c := by
  obtain ⟨j, other, hj, haddr, hcat⟩ := hs.point c _ h.category
  obtain rfl := hs.apart j k other node hj h.spell haddr
  obtain rfl := Option.some.inj (hj.symm.trans h.spell)
  exact hcat

/-- The first loop of an update erases no category that still runs. -/
theorem updateCategories_spec {s₀ : SpellHistory} (h₀ : s₀.Sound)
    (l : List (Sigma fun _ : Nat => Nat))
    (hl : ∀ e ∈ l, s₀.categoryCooldowns.lookup e.1 = some e.2)
    (hsame : s.spellCooldowns = s₀.spellCooldowns)
    (hrun : l.foldlM (updateCategory now) s = some t) :
    t.spellCooldowns = s₀.spellCooldowns ∧
      ∀ c k node, s₀.Runs c k node → ¬ node.entry.CategoryEnd < now →
        t.categoryCooldowns.lookup c = s.categoryCooldowns.lookup c := by
  induction l generalizing s with
  | nil =>
    obtain rfl := Option.some.inj hrun
    exact ⟨hsame, fun _ _ _ _ _ => rfl⟩
  | cons e l ih =>
    obtain ⟨u, hu, hrest⟩ := Option.bind_eq_some_iff.mp hrun
    have hstep : u.spellCooldowns = s.spellCooldowns ∧
        ∀ c k node, s₀.Runs c k node → ¬ node.entry.CategoryEnd < now →
          u.categoryCooldowns.lookup c = s.categoryCooldowns.lookup c := by
      unfold updateCategory at hu
      cases hentry : s.deref e.2 with
      | none =>
        rw [hentry] at hu
        cases hu
      | some entry =>
        rw [hentry] at hu
        obtain rfl := Option.some.inj hu
        split
        · refine ⟨rfl, fun c k node hruns hend => AList.lookup_erase_ne ?_⟩
          rintro rfl
          have haddr := (hl e List.mem_cons_self).symm.trans hruns.category
          have hderef := h₀.apart.deref hruns.spell
          rw [← Option.some.inj haddr] at hderef
          have hsame' : s.deref e.2 = s₀.deref e.2 := by
            rw [SpellHistory.deref, SpellHistory.deref, hsame]
          rw [hsame', hderef, Option.some.injEq] at hentry
          exact hend (hentry ▸ ‹entry.CategoryEnd < now›)
        · exact ⟨rfl, fun _ _ _ _ _ => rfl⟩
    obtain ⟨hspell, hcats⟩ := ih (fun e' he' => hl e' (List.mem_cons_of_mem _ he'))
      (hstep.1.trans hsame) hrest
    exact ⟨hspell, fun c k node hruns hend =>
      (hcats c k node hruns hend).trans (hstep.2 c k node hruns hend)⟩

/-- An update erases the elements that have run out. A category that still runs stays, unless an
element of it has run out. -/
theorem update_spec (h : s.Sound) (now : Int) :
    ∃ t, s.update now = some t ∧ t.Sound ∧
      (∀ k, t.spellCooldowns.lookup k =
        (s.spellCooldowns.lookup k).filter fun node => !decide (node.entry.CooldownEnd < now)) ∧
      ∀ c k node, s.Runs c k node → ¬ node.entry.CategoryEnd < now →
        (∀ j other, s.spellCooldowns.lookup j = some other →
          other.entry.CooldownEnd < now → other.entry.CategoryId ≠ c) →
        t.categoryCooldowns.lookup c = some node.addr := by
  obtain ⟨t, ht, hsound⟩ := h.update now
  refine ⟨t, ht, hsound, ?_⟩
  unfold update at ht
  cases hloop : s.categoryCooldowns.entries.foldlM (updateCategory now) s with
  | none =>
    rw [hloop] at ht
    cases ht
  | some u =>
    rw [hloop] at ht
    obtain rfl := Option.some.inj ht
    obtain ⟨hspell, hcats⟩ := updateCategories_spec h _
      (fun e he => Assoc.mem_entries_iff.mp he) rfl hloop
    constructor
    · intro k
      rw [← hspell]
      exact lookup_eraseWhere u _ k
    · intro c k node hruns hend hothers
      refine (lookup_category_eraseWhere u _ fun j other hj hgone => ?_).trans
        ((hcats c k node hruns hend).trans hruns.category)
      rw [hspell] at hj
      exact hothers j other hj (of_decide_eq_true hgone)

/-- What an added cooldown leaves under its spell and its category. -/
theorem runs_addCooldown (s : SpellHistory) (spellId itemId : Nat) (cooldownEnd : Int)
    (categoryId : Nat) (categoryEnd : Int) (onHold : Bool) :
    ∃ addr, ((s.addCooldown A spellId itemId cooldownEnd categoryId categoryEnd
        onHold).spellCooldowns.lookup spellId =
      some ⟨addr, spellId, cooldownEnd, itemId, categoryId, categoryEnd, onHold⟩) ∧
      (categoryId ≠ 0 → (s.addCooldown A spellId itemId cooldownEnd categoryId categoryEnd
        onHold).Runs categoryId spellId
          ⟨addr, spellId, cooldownEnd, itemId, categoryId, categoryEnd, onHold⟩) := by
  obtain ⟨addr, haddr⟩ := lookup_assign A s spellId
    ⟨spellId, cooldownEnd, itemId, categoryId, categoryEnd, onHold⟩
  refine ⟨addr, ?_, fun hc => ⟨?_, ?_⟩⟩
  · rw [addCooldown, spellCooldowns_pointCategory]
    exact haddr
  · rw [addCooldown, spellCooldowns_pointCategory]
    exact haddr
  · exact lookup_pointCategory hc haddr

theorem runs_addCooldown_other (s : SpellHistory) {spellId itemId : Nat} {cooldownEnd : Int}
    {categoryId : Nat} {categoryEnd : Int} {onHold : Bool} (hruns : s.Runs c k node)
    (hk : k ≠ spellId) (hc : c ≠ categoryId) :
    (s.addCooldown A spellId itemId cooldownEnd categoryId categoryEnd onHold).Runs c k node where
  spell := by
    rw [addCooldown, spellCooldowns_pointCategory, lookup_assign_ne A s _ hk]
    exact hruns.spell
  category := by
    rw [addCooldown, lookup_pointCategory_ne _ hc, categoryCooldowns_assign]
    exact hruns.category

end SpellHistory

structure Clocked where
  history : SpellHistory
  now : Int

inductive CooldownOp where
  | addCooldown (spellId itemId : Nat) (cooldownEnd : Int) (categoryId : Nat) (categoryEnd : Int)
      (onHold : Bool) (now : Int)
  | update (now : Int)
  deriving DecidableEq, Repr

namespace Clocked
open SpellHistory

inductive Step : Clocked → CooldownOp → Clocked → Prop
  | addCooldown (s : Clocked) (spellId itemId : Nat) (cooldownEnd : Int) (categoryId : Nat)
      (categoryEnd : Int) (onHold : Bool) (now : Int) (hnow : s.now ≤ now) :
      Step s (.addCooldown spellId itemId cooldownEnd categoryId categoryEnd onHold now)
        ⟨s.history.addCooldown A spellId itemId cooldownEnd categoryId categoryEnd onHold, now⟩
  | update (s : Clocked) (now : Int) (hnow : s.now ≤ now) (t : SpellHistory)
      (ht : s.history.update now = some t) : Step s (.update now) ⟨t, now⟩

structure AddFits (s : SpellHistory) (now : Int) (spellId : Nat) (cooldownEnd : Int)
    (categoryId : Nat) (categoryEnd : Int) : Prop where
  spell : ∀ node, s.spellCooldowns.lookup spellId = some node →
    now ≤ node.entry.CooldownEnd → node.entry.CooldownEnd ≤ cooldownEnd
  category : ∀ k node, s.Runs categoryId k node →
    now ≤ node.entry.CategoryEnd → node.entry.CategoryEnd ≤ categoryEnd
  overwrite : s.FitsOverwrite spellId categoryId

def UpdateFits (s : SpellHistory) (now : Int) : Prop :=
  ∀ j other, s.spellCooldowns.lookup j = some other → other.entry.CooldownEnd < now →
    ∀ k node, s.Runs other.entry.CategoryId k node → node.entry.CategoryEnd < now

def Fits (s : Clocked) : CooldownOp → Prop
  | .addCooldown spellId _ cooldownEnd categoryId categoryEnd _ now =>
    AddFits s.history now spellId cooldownEnd categoryId categoryEnd
  | .update now => UpdateFits s.history now

structure Lasts (spellId : Nat) (cooldownEnd : Int) (categoryId : Nat) (categoryEnd : Int)
    (s : Clocked) : Prop where
  sound : s.history.Sound
  spell : s.now ≤ cooldownEnd → ∃ node, s.history.spellCooldowns.lookup spellId = some node ∧
    cooldownEnd ≤ node.entry.CooldownEnd
  category : categoryId ≠ 0 → s.now ≤ categoryEnd →
    ∃ k node, s.history.Runs categoryId k node ∧ categoryEnd ≤ node.entry.CategoryEnd

variable {A} {s t : Clocked} {spellId categoryId : Nat} {cooldownEnd categoryEnd : Int}

theorem sound_step {op : CooldownOp} (h : s.history.Sound) (hfits : s.Fits op)
    (hstep : Step A s op t) : t.history.Sound := by
  cases hstep with
  | addCooldown => exact h.addCooldown A hfits.overwrite _ _ _ _
  | update now hnow u hu =>
    obtain ⟨v, hv, hsound⟩ := h.update now
    obtain rfl := Option.some.inj (hv.symm.trans hu)
    exact hsound

theorem lasts_added (h : s.history.Sound) {itemId : Nat} {onHold : Bool} {now : Int}
    (hfits : s.Fits (.addCooldown spellId itemId cooldownEnd categoryId categoryEnd onHold now))
    (hstep : Step A s
      (.addCooldown spellId itemId cooldownEnd categoryId categoryEnd onHold now) t) :
    Lasts spellId cooldownEnd categoryId categoryEnd t := by
  have hsound := sound_step h hfits hstep
  cases hstep
  obtain ⟨addr, hspell, hruns⟩ := runs_addCooldown A s.history spellId itemId cooldownEnd
    categoryId categoryEnd onHold
  exact ⟨hsound, fun _ => ⟨_, hspell, Int.le_refl _⟩,
    fun hc _ => ⟨_, _, hruns hc, Int.le_refl _⟩⟩

/-- An update at a time up to the ends leaves the cooldown there. -/
theorem Lasts.update (h : Lasts spellId cooldownEnd categoryId categoryEnd s) {now : Int}
    (hfits : UpdateFits s.history now) (hstep : Step A s (.update now) t) :
    Lasts spellId cooldownEnd categoryId categoryEnd t := by
  have hsound := @sound_step A s t (.update now) h.sound hfits hstep
  cases hstep with
  | update now hnow u hu =>
    obtain ⟨v, hv, _, hspell, hcat⟩ := update_spec h.sound now
    obtain rfl := Option.some.inj (hv.symm.trans hu)
    have hstays : ∀ k node, s.history.spellCooldowns.lookup k = some node →
        ¬ node.entry.CooldownEnd < now → v.spellCooldowns.lookup k = some node := by
      intro k node hk hend
      rw [hspell, hk]
      simp [Option.filter, hend]
    refine ⟨hsound, fun hend => ?_, fun hc hend => ?_⟩
    · obtain ⟨node, hk, hle⟩ := h.spell (hnow.trans hend)
      exact ⟨node, hstays _ node hk (by change now ≤ _ at hend; omega), hle⟩
    · obtain ⟨k, node, hruns, hle⟩ := h.category hc (hnow.trans hend)
      change now ≤ categoryEnd at hend
      -- no element of the category has run out, so neither has the one it points to
      have hothers : ∀ j other, s.history.spellCooldowns.lookup j = some other →
          other.entry.CooldownEnd < now → other.entry.CategoryId ≠ categoryId := by
        intro j other hj hgone hcat
        have hlate := hfits j other hj hgone k node (hcat ▸ hruns)
        omega
      refine ⟨k, node, ⟨hstays k node hruns.spell fun hgone => ?_, ?_⟩, hle⟩
      · exact hothers k node hruns.spell hgone (hruns.categoryId h.sound)
      · exact hcat categoryId k node hruns (by omega) hothers

theorem Lasts.addCooldown (h : Lasts spellId cooldownEnd categoryId categoryEnd s) {newId : Nat}
    {itemId : Nat} {newEnd : Int} {newCategory : Nat} {newCategoryEnd : Int} {onHold : Bool}
    {now : Int} (hfits : AddFits s.history now newId newEnd newCategory newCategoryEnd)
    (hstep : Step A s (.addCooldown newId itemId newEnd newCategory newCategoryEnd onHold now) t) :
    Lasts spellId cooldownEnd categoryId categoryEnd t := by
  have hsound := @sound_step A s t
    (.addCooldown newId itemId newEnd newCategory newCategoryEnd onHold now) h.sound hfits hstep
  cases hstep with
  | addCooldown _ _ _ _ _ _ _ hnow =>
    obtain ⟨addr, hnew, hruns'⟩ := runs_addCooldown A s.history newId itemId newEnd newCategory
      newCategoryEnd onHold
    refine ⟨hsound, fun hend => ?_, fun hc hend => ?_⟩
    · change now ≤ cooldownEnd at hend
      obtain ⟨node, hk, hle⟩ := h.spell (hnow.trans hend)
      by_cases hid : spellId = newId
      · subst hid
        exact ⟨_, hnew, hle.trans (hfits.spell node hk (hend.trans hle))⟩
      · refine ⟨node, ?_, hle⟩
        rw [SpellHistory.addCooldown, spellCooldowns_pointCategory, lookup_assign_ne A _ _ hid]
        exact hk
    · change now ≤ categoryEnd at hend
      obtain ⟨k, node, hruns, hle⟩ := h.category hc (hnow.trans hend)
      by_cases hcat : categoryId = newCategory
      · subst hcat
        exact ⟨_, _, hruns' hc, hle.trans (hfits.category k node hruns (hend.trans hle))⟩
      · refine ⟨k, node, runs_addCooldown_other A s.history hruns ?_ hcat, hle⟩
        rintro rfl
        exact hcat (hfits.overwrite node categoryId hruns.spell hruns.category)

theorem Lasts.step (h : Lasts spellId cooldownEnd categoryId categoryEnd s) {op : CooldownOp}
    (hfits : s.Fits op) (hstep : Step A s op t) :
    Lasts spellId cooldownEnd categoryId categoryEnd t := by
  cases op with
  | addCooldown => exact h.addCooldown hfits hstep
  | update => exact h.update hfits hstep

theorem Lasts.run (h : Lasts spellId cooldownEnd categoryId categoryEnd s) {ops : List CooldownOp}
    (hrun : Run (Step A) Fits s ops t) : Lasts spellId cooldownEnd categoryId categoryEnd t :=
  hrun.invariant _ h fun _ _ _ hl hfits hstep => hl.step hfits hstep

theorem Lasts.hasCooldown (h : Lasts spellId cooldownEnd categoryId categoryEnd s) {later : Int}
    (hlater : s.now ≤ later) :
    (later ≤ cooldownEnd → ∀ spellInfo effects ignoreCategoryCooldown,
      s.history.hasCooldown spellId spellInfo effects ignoreCategoryCooldown = true) ∧
    (categoryId ≠ 0 → later ≤ categoryEnd → ∀ other spellInfo effects,
      (getCooldownDurations other spellInfo effects).categoryId = categoryId →
        s.history.hasCooldown other spellInfo effects false = true) := by
  constructor
  · intro hend spellInfo effects ignore
    obtain ⟨node, hk, _⟩ := h.spell (hlater.trans hend)
    simp only [SpellHistory.hasCooldown, hk, Option.isSome_some, if_true]
  · intro hc hend other spellInfo effects hcat
    obtain ⟨k, node, hruns, _⟩ := h.category hc (hlater.trans hend)
    have hcategory : (s.history.categoryCooldowns.lookup
        (getCooldownDurations other spellInfo effects).categoryId).isSome = true := by
      rw [hcat, hruns.category]
      rfl
    simp only [SpellHistory.hasCooldown, hcat, if_neg hc, hcategory, Bool.false_eq_true, if_false,
      ite_self]

/-- In a run in which each operation fits, no cooldown that is added ends early. -/
theorem hasCooldown_until (A : Allocator) {s t : Clocked} (h : s.history.Sound)
    {before after : List CooldownOp} {spellId itemId : Nat} {cooldownEnd : Int} {categoryId : Nat}
    {categoryEnd : Int} {onHold : Bool} {now : Int}
    (hrun : Run (Step A) Fits s (before ++
      .addCooldown spellId itemId cooldownEnd categoryId categoryEnd onHold now :: after) t)
    {later : Int} (hlater : t.now ≤ later) :
    (later ≤ cooldownEnd → ∀ spellInfo effects ignoreCategoryCooldown,
      t.history.hasCooldown spellId spellInfo effects ignoreCategoryCooldown = true) ∧
    (categoryId ≠ 0 → later ≤ categoryEnd → ∀ other spellInfo effects,
      (getCooldownDurations other spellInfo effects).categoryId = categoryId →
        t.history.hasCooldown other spellInfo effects false = true) := by
  obtain ⟨u, hbefore, hrest⟩ := hrun.split
  have hsound : u.history.Sound := hbefore.invariant (fun x => x.history.Sound) h
    fun _ _ _ hs hfits hstep => sound_step hs hfits hstep
  cases hrest with
  | cons hfits hstep hafter =>
    exact ((lasts_added hsound hfits hstep).run hafter).hasCooldown hlater

def ofCategoryFive : SpellInfo := ⟨5, 0, 0, 0, 0, false⟩

/-- A cooldown up to 100 whose category runs up to 50, looked at after an update at 40. -/
theorem hasCooldown_until_fifty :
    ∃ t, Run (Step nextAddress) Fits ⟨{}, 0⟩
        [.addCooldown 1 0 100 5 50 false 0, .update 40] t ∧
      t.history.hasCooldown 1 ofCategoryFive [] false = true ∧
      t.history.hasCooldown 2 ofCategoryFive [] false = true := by
  let s : Clocked := ⟨SpellHistory.addCooldown nextAddress {} 1 0 100 5 50 false, 0⟩
  have hempty : ∀ j node, ({} : SpellHistory).spellCooldowns.lookup j ≠ some node := by
    intro j node h
    cases h
  have hadd : Fits ⟨{}, 0⟩ (.addCooldown 1 0 100 5 50 false 0) :=
    ⟨fun node h => absurd h (hempty _ _), fun k node h => absurd h.spell (hempty _ _),
      fun node c h => absurd h (hempty _ _)⟩
  have hupdate : Fits s (.update 40) := by
    intro j other hj hgone
    exfalso
    by_cases h1 : j = 1
    · subst h1
      obtain rfl := Option.some.inj hj
      exact absurd hgone (by decide)
    · have hnone : s.history.spellCooldowns.lookup j = none :=
        (AList.lookup_insert_ne h1).trans (AList.lookup_empty j)
      rw [hnone] at hj
      cases hj
  have hrun : Run (Step nextAddress) Fits ⟨{}, 0⟩
      ([] ++ .addCooldown 1 0 100 5 50 false 0 :: [.update 40]) ⟨s.history, 40⟩ :=
    .cons hadd (.addCooldown _ _ _ _ _ _ _ _ (Int.le_refl 0))
      (.cons hupdate (.update s 40 (by decide) s.history rfl) (.nil _))
  have huntil := hasCooldown_until nextAddress sound_empty hrun (Int.le_refl 40)
  exact ⟨_, hrun, huntil.1 (by decide) ofCategoryFive [] false,
    huntil.2 (by decide) (by decide) 2 ofCategoryFive [] rfl⟩

/-- The category is to run up to 100, but ends with its spell. -/
theorem category_ends_early :
    ∃ t, Run (Step nextAddress) always ⟨{}, 0⟩
        [.addCooldown 1 0 10 5 100 false 0, .update 11] t ∧ t.now ≤ 100 ∧
      t.history.hasCooldown 2 ofCategoryFive [] false = false := by
  refine ⟨⟨_, 11⟩, .cons trivial (.addCooldown _ _ _ _ _ _ _ _ (Int.le_refl 0))
    (.cons trivial (.update _ 11 (by decide) _ rfl) (.nil _)), by decide, rfl⟩

end Clocked

end Ashamane.Spells
