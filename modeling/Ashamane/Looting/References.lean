import Ashamane.Looting.Templates
import Ashamane.Lib.Circles

/-! `Process` follows references to other templates: it ends, whatever the rolls are, exactly when
the references that can be followed do not lead around in a circle. -/
namespace Ashamane.Looting
open Ashamane.Lib Relation

namespace Random
variable {random : Random} {s : Loot × Random} {item : LootRow}

/-- `rand_chance` is zero from now on. -/
def Lucky (random : Random) : Prop := ∀ n, (random.chances n : ℚ) = 0

def allZero : Random where
  chances _ := ⟨0, Set.left_mem_Ico.mpr rfl⟩
  numbers _ := 0

theorem Lucky.roll (h : random.Lucky) (w : LootWorld) (rate : Bool) (item : LootRow) :
    (item.roll w rate random).2.Lucky := by
  unfold LootRow.roll
  split
  · exact h
  · exact fun n => h (n + 1)

theorem Lucky.roll_true {w : LootWorld} {rate : Bool} (h : random.Lucky)
    (hchance : 100 ≤ item.chance ∨ 0 < item.rollChance w rate) :
    (item.roll w rate random).1 = true := by
  unfold LootRow.roll
  by_cases hsure : 100 ≤ item.chance
  · rw [if_pos hsure]
  · rw [if_neg hsure]
    refine decide_eq_true ?_
    rw [randChance, h 0]
    exact hchance.resolve_left hsure

theorem Lucky.addDrawn (h : s.2.Lucky) (w : LootWorld) (usable : Bool) (item : LootRow) :
    (addDrawn w usable item s).2.Lucky := by
  unfold Looting.addDrawn
  split
  · exact h
  · exact h

theorem Lucky.process (w : LootWorld) (lootMode : BitVec 16) (maxDuplicates : Nat)
    (group : LootGroup) (h : s.2.Lucky) :
    (group.process w lootMode maxDuplicates s).2.Lucky := by
  have hchanced : (group.rollChanced s.1 lootMode maxDuplicates s.2).2.Lucky := by
    unfold LootGroup.rollChanced
    dsimp only
    split
    · exact h
    · exact fun n => h (n + 1)
  have hroll : (group.roll s.1 lootMode maxDuplicates s.2).2.Lucky := by
    unfold LootGroup.roll
    split
    · rename_i heq
      rw [heq] at hchanced
      exact hchanced
    · rename_i heq
      rw [heq] at hchanced
      dsimp only
      split
      · exact hchanced
      · exact hchanced
  unfold LootGroup.process
  split
  · rename_i heq
    rw [heq] at hroll
    exact Lucky.addDrawn hroll w true _
  · rename_i heq
    rw [heq] at hroll
    exact hroll

end Random

namespace LootSetting

def Follows (g : LootSetting) (item : LootRow) : Prop :=
  item.lootmode &&& g.lootMode ≠ 0 ∧ (100 ≤ item.chance ∨ 0 < item.rollChance g.world g.rate) ∧
    0 < item.reference ∧ 0 < g.world.referencedAmount item.maxcount

instance (g : LootSetting) (item : LootRow) : Decidable (g.Follows item) :=
  inferInstanceAs (Decidable (_ ∧ _))

def Refers (g : LootSetting) (t : LootTemplate) (r : Nat) : Prop :=
  ∃ item ∈ t.entries, g.Follows item ∧ item.groupid = 0 ∧ item.reference = r ∧ r ∈ g.refs

def Next (g : LootSetting) (r r' : Nat) : Prop := ∃ t, g.refs.lookup r = some t ∧ g.Refers t r'

def Endless (g : LootSetting) (r : Nat) : Prop := ∃ c, ReflTransGen g.Next r c ∧ TransGen g.Next c c

def Circular (g : LootSetting) (t : LootTemplate) : Prop := ∃ r, g.Refers t r ∧ g.Endless r

variable {g : LootSetting} {t : LootTemplate} {item : LootRow} {random : Random} {r : Nat}
  {s u : Loot × Random} {call call' : ProcessCall → Option (Loot × Random)} {usable : Nat → Bool}

theorem processEntry_extends (h : Fuel.Extends call call')
    (hrun : g.processEntry call usable s item = some u) :
    g.processEntry call' usable s item = some u := by
  unfold processEntry at hrun ⊢
  by_cases hmode : item.lootmode &&& g.lootMode = 0
  · rwa [if_pos hmode] at hrun ⊢
  rw [if_neg hmode] at hrun ⊢
  cases hroll : item.roll g.world g.rate s.2 with
  | mk hit random =>
    rw [hroll] at hrun
    cases hit with
    | false => exact hrun
    | true =>
      dsimp only at hrun ⊢
      by_cases hreference : 0 < item.reference
      · rw [if_pos hreference] at hrun ⊢
        cases hlookup : g.refs.lookup item.reference with
        | none => rwa [hlookup] at hrun
        | some referenced =>
          rw [hlookup] at hrun
          exact Fuel.foldlM_extends (fun s _ t hstep => h _ t hstep) hrun
      · rwa [if_neg hreference] at hrun ⊢

theorem processBody_steady : Fuel.Steady g.processBody := by
  intro call call' h c u hrun
  unfold processBody at hrun ⊢
  by_cases hgroup : 0 < c.groupId
  · rwa [if_pos hgroup] at hrun ⊢
  rw [if_neg hgroup] at hrun ⊢
  obtain ⟨walked, hwalk, rfl⟩ := Option.map_eq_some_iff.mp hrun
  exact Option.map_eq_some_iff.mpr
    ⟨walked, Fuel.foldlM_extends (fun _ _ _ => processEntry_extends h) hwalk, rfl⟩

theorem follows_of_roll {w : LootWorld} {rate : Bool} (h : (item.roll w rate random).1 = true) :
    100 ≤ item.chance ∨ 0 < item.rollChance w rate := by
  unfold LootRow.roll at h
  split at h
  · rename_i hsure
    exact .inl hsure
  · exact .inr (lt_of_le_of_lt (random.chances 0).2.1 (of_decide_eq_true h))

/-! Without a circle. -/

def calls (g : LootSetting) (k : LootTemplate × Nat) : List (LootTemplate × Nat) :=
  if 0 < k.2 then []
  else (k.1.entries.filter g.Follows).filterMap fun item =>
    (g.refs.lookup item.reference).map fun t => (t, item.groupid)

theorem mem_calls {k k' : LootTemplate × Nat} (h : k' ∈ g.calls k) : k.2 = 0 ∧
    ∃ item ∈ k.1.entries, g.Follows item ∧ g.refs.lookup item.reference = some k'.1 ∧
      item.groupid = k'.2 := by
  unfold calls at h
  split at h
  · exact absurd h List.not_mem_nil
  · rename_i hgroup
    obtain ⟨item, hitem, hk'⟩ := List.mem_filterMap.mp h
    obtain ⟨hmem, hfollows⟩ := List.mem_filter.mp hitem
    obtain ⟨t, hlookup, rfl⟩ := Option.map_eq_some_iff.mp hk'
    exact ⟨Nat.eq_zero_of_not_pos hgroup, item, hmem, of_decide_eq_true hfollows, hlookup, rfl⟩

theorem mem_calls_of {t' : LootTemplate} (hitem : item ∈ t.entries) (hfollows : g.Follows item)
    (hlookup : g.refs.lookup item.reference = some t') : (t', item.groupid) ∈ g.calls (t, 0) :=
  List.mem_filterMap.mpr ⟨item, List.mem_filter.mpr ⟨hitem, decide_eq_true hfollows⟩,
    by rw [hlookup]; rfl⟩

theorem mem_refs {t : LootTemplate} (h : g.refs.lookup r = some t) : r ∈ g.refs :=
  AList.lookup_isSome.mp (h ▸ rfl)

theorem acc_of_refers {n : Nat} (h : ∀ r, g.Refers t r → ∀ t', g.refs.lookup r = some t' →
    Acc (fun k' k => k' ∈ g.calls k) (t', 0)) : Acc (fun k' k => k' ∈ g.calls k) (t, n) := by
  refine ⟨_, fun k' hk' => ?_⟩
  obtain ⟨-, item, hitem, hfollows, hlookup, hgroup⟩ := mem_calls hk'
  obtain ⟨t', m⟩ := k'
  cases m with
  | zero => exact h _ ⟨item, hitem, hfollows, hgroup, rfl, mem_refs hlookup⟩ t' hlookup
  | succ m => exact ⟨_, fun k hk => absurd (mem_calls hk).1 (Nat.succ_ne_zero m)⟩

theorem acc_calls (h : ¬g.Circular t) (n : Nat) : Acc (fun k' k => k' ∈ g.calls k) (t, n) := by
  let reached := fun r => ∃ r₀, g.Refers t r₀ ∧ ReflTransGen g.Next r₀ r
  have hacyclic : Acyclic fun r r' => g.Next r r' ∧ reached r := by
    intro c hc
    obtain ⟨r, ⟨-, r₀, hr₀, hway⟩, -⟩ := TransGen.head'_iff.mp hc
    exact h ⟨r₀, hr₀, c, hway, TransGen.mono (fun _ _ h => h.1) _ _ hc⟩
  have hdown := hacyclic.wellFounded g.refs.keys.toFinset fun r r' ⟨⟨t, hlookup, _⟩, _⟩ =>
    List.mem_toFinset.mpr (AList.mem_keys.mp (mem_refs hlookup))
  have hbelow : ∀ r, reached r → ∀ t', g.refs.lookup r = some t' →
      Acc (fun k' k => k' ∈ g.calls k) (t', 0) := by
    intro r
    induction r using hdown.induction with
    | _ r ih =>
      intro hr t' hlookup
      refine acc_of_refers fun r' hr' => ?_
      have hnext : g.Next r r' := ⟨t', hlookup, hr'⟩
      obtain ⟨r₀, hr₀, hway⟩ := hr
      exact ih r' ⟨hnext, r₀, hr₀, hway⟩ ⟨r₀, hr₀, hway.tail hnext⟩
  exact acc_of_refers fun r hr => hbelow r ⟨r, hr, .refl⟩

theorem processEntry_ends (hitem : item ∈ t.entries)
    (h : ∀ k' ∈ g.calls (t, 0), ∀ c : ProcessCall, c.template = k'.1 → c.groupId = k'.2 →
      ∃ u, call c = some u) : ∃ u, g.processEntry call usable s item = some u := by
  unfold processEntry
  by_cases hmode : item.lootmode &&& g.lootMode = 0
  · rw [if_pos hmode]
    exact ⟨_, rfl⟩
  rw [if_neg hmode]
  cases hroll : item.roll g.world g.rate s.2 with
  | mk hit random =>
    cases hit with
    | false => exact ⟨_, rfl⟩
    | true =>
      dsimp only
      by_cases hreference : 0 < item.reference
      · rw [if_pos hreference]
        cases hlookup : g.refs.lookup item.reference with
        | none => exact ⟨_, rfl⟩
        | some referenced =>
          have hwalk := Fuel.foldlM_ends (f := fun s _ => call
              { template := referenced, groupId := item.groupid, loot := s.1, random := s.2 })
            (l := List.range (g.world.referencedAmount item.maxcount)) (s := (s.1, random))
            (I := fun _ => True) trivial fun s _ i hi => ?_
          · exact hwalk.imp fun _ h => h.1
          · have hfollows : g.Follows item := by
              exact ⟨hmode, follows_of_roll (congrArg Prod.fst hroll), hreference,
                Nat.zero_lt_of_lt (List.mem_range.mp hi)⟩
            obtain ⟨u, hu⟩ := h (referenced, item.groupid) (mem_calls_of hitem hfollows hlookup)
              { template := referenced, groupId := item.groupid, loot := s.1, random := s.2 } rfl rfl
            exact ⟨u, hu, trivial⟩
      · rw [if_neg hreference]
        exact ⟨_, rfl⟩

theorem processBody_ends (h : ¬g.Circular t) (n : Nat) : ∃ fuel, ∀ c : ProcessCall, c.template = t →
    c.groupId = n → ∃ u, Fuel.run g.processBody fuel c = some u := by
  have hbody : ∀ call k, (∀ k' ∈ g.calls k, ∀ c : ProcessCall,
      c.template = k'.1 ∧ c.groupId = k'.2 → ∃ u, call c = some u) →
      ∀ c : ProcessCall, c.template = k.1 ∧ c.groupId = k.2 → ∃ u, g.processBody call c = some u := by
    rintro call ⟨_, _⟩ hcalls c ⟨rfl, rfl⟩
    unfold processBody
    by_cases hgroup : 0 < c.groupId
    · rw [if_pos hgroup]
      split
      · exact ⟨_, rfl⟩
      · exact ⟨_, rfl⟩
    · rw [if_neg hgroup]
      rw [Nat.eq_zero_of_not_pos hgroup] at hcalls
      have hwalk := Fuel.foldlM_ends
        (f := g.processEntry call fun itemid => !c.specOnly || c.player.all (· itemid))
        (l := c.template.entries) (s := (c.loot, c.random)) (I := fun _ => True) trivial
        fun s _ item hitem => by
          obtain ⟨u, hu⟩ := processEntry_ends hitem
            fun k' hk' c htemplate hgroup => hcalls k' hk' c ⟨htemplate, hgroup⟩
          exact ⟨u, hu, trivial⟩
      obtain ⟨u, hu, -⟩ := hwalk
      exact ⟨_, Option.map_eq_some_iff.mpr ⟨u, hu, rfl⟩⟩
  obtain ⟨fuel, hfuel⟩ := processBody_steady.returns_of_key
    (I := fun k (c : ProcessCall) => c.template = k.1 ∧ c.groupId = k.2) hbody (acc_calls h n)
  exact ⟨fuel, fun c htemplate hgroup => hfuel c ⟨htemplate, hgroup⟩⟩

/-! Around a circle, when every roll is good. -/

theorem lucky_processEntry (hcall : ∀ c u, call c = some u → c.random.Lucky → u.2.Lucky)
    (hs : s.2.Lucky) (h : g.processEntry call usable s item = some u) : u.2.Lucky := by
  unfold processEntry at h
  have hroll := hs.roll g.world g.rate item
  split at h
  · obtain rfl := Option.some.inj h
    exact hs
  · split at h
    · rename_i heq
      rw [heq] at hroll
      obtain rfl := Option.some.inj h
      exact hroll
    · rename_i heq
      rw [heq] at hroll
      split at h
      · split at h
        · obtain rfl := Option.some.inj h
          exact hroll
        · exact (Fuel.foldlM_passes (I := fun s : Loot × Random => s.2.Lucky) hroll
            (fun _ _ _ _ hlucky hstep => hcall _ _ hstep hlucky) h).1
      · obtain rfl := Option.some.inj h
        exact hroll.addDrawn g.world _ item

theorem lucky_processGroups (h : s.2.Lucky) (groups : List (Option LootGroup)) :
    (g.processGroups groups s).2.Lucky := by
  unfold processGroups
  induction groups generalizing s with
  | nil => exact h
  | cons group groups ih =>
    cases group with
    | none => exact ih h
    | some group => exact ih (h.process g.world g.lootMode g.maxDuplicates group)

theorem Endless.next (h : g.Endless r) : ∃ t, g.refs.lookup r = some t ∧ g.Circular t := by
  obtain ⟨c, hway, hcircle⟩ := h
  obtain rfl | ⟨r', ⟨t, hlookup, hrefers⟩, hrest⟩ := hway.cases_head
  · obtain ⟨r', ⟨t, hlookup, hrefers⟩, hback⟩ := TransGen.head'_iff.mp hcircle
    exact ⟨t, hlookup, r', hrefers, _, hback, hcircle⟩
  · exact ⟨t, hlookup, r', hrefers, c, hrest, hcircle⟩

theorem not_circular_of_returns {c : ProcessCall} (h : Fuel.Returns g.processBody c u) :
    c.random.Lucky → u.2.Lucky ∧ ¬(c.groupId = 0 ∧ g.Circular c.template) := by
  refine Fuel.Returns.induct (P := fun (c : ProcessCall) u =>
    c.random.Lucky → u.2.Lucky ∧ ¬(c.groupId = 0 ∧ g.Circular c.template)) ?_ h
  intro call hcall c u hrun hlucky
  unfold processBody at hrun
  by_cases hgroup : 0 < c.groupId
  · refine ⟨?_, fun hzero => absurd hzero.1 (Nat.ne_of_gt hgroup)⟩
    rw [if_pos hgroup] at hrun
    split at hrun
    · obtain rfl := Option.some.inj hrun
      exact Random.Lucky.process g.world g.lootMode g.maxDuplicates _ hlucky
    · obtain rfl := Option.some.inj hrun
      exact hlucky
  · rw [if_neg hgroup] at hrun
    obtain ⟨walked, hwalk, rfl⟩ := Option.map_eq_some_iff.mp hrun
    obtain ⟨hwalked, hsteps⟩ := Fuel.foldlM_passes (I := fun s : Loot × Random => s.2.Lucky) hlucky
      (fun _ _ _ _ hs hstep => lucky_processEntry (fun c u h hc => (hcall c u h hc).1) hs hstep) hwalk
    refine ⟨lucky_processGroups hwalked _, ?_⟩
    rintro ⟨-, r, ⟨item, hitem, ⟨hmode, hchance, hreference, hamount⟩, hgroupid, rfl, -⟩, hendless⟩
    obtain ⟨t, hlookup, hcircular⟩ := hendless.next
    obtain ⟨s, u, hs, hstep⟩ := hsteps item hitem
    have hroll : (item.roll g.world g.rate s.2).1 = true := hs.roll_true hchance
    unfold processEntry at hstep
    rw [if_neg hmode] at hstep
    cases heq : item.roll g.world g.rate s.2 with
    | mk hit random =>
      have hrest := hs.roll g.world g.rate item
      rw [heq] at hroll hstep hrest
      dsimp only at hroll
      subst hroll
      simp only [if_pos hreference, hlookup] at hstep
      obtain ⟨m, hm⟩ := Nat.exists_eq_succ_of_ne_zero (Nat.ne_of_gt hamount)
      rw [hm, List.range_succ_eq_map, List.foldlM_cons] at hstep
      obtain ⟨first, hfirst, -⟩ := Option.bind_eq_some_iff.mp hstep
      exact (hcall _ _ hfirst hrest).2 ⟨hgroupid, hcircular⟩

/-- The call ends whatever the rolls are unless it goes through a template whose references lead
to a circle. -/
theorem process_ends_iff (g : LootSetting) (t : LootTemplate) (groupId : Nat) :
    (∀ player specOnly loot random, ∃ u,
      Fuel.Returns g.processBody ⟨t, groupId, player, specOnly, loot, random⟩ u) ↔
      (groupId = 0 → ¬g.Circular t) := by
  constructor
  · intro hends hzero hcircular
    obtain ⟨u, hu⟩ := hends none false ⟨[], [], 0, 0, fun _ => ∅⟩ Random.allZero
    exact (not_circular_of_returns hu fun _ => rfl).2 ⟨hzero, hcircular⟩
  · intro h player specOnly loot random
    cases groupId with
    | zero =>
      obtain ⟨fuel, hfuel⟩ := processBody_ends (h rfl) 0
      obtain ⟨u, hu⟩ := hfuel ⟨t, 0, player, specOnly, loot, random⟩ rfl rfl
      exact ⟨u, fuel, hu⟩
    | succ n =>
      have hgroup : ∃ u, ∀ call,
          g.processBody call ⟨t, n + 1, player, specOnly, loot, random⟩ = some u := by
        unfold processBody
        simp only [if_pos (Nat.succ_pos n)]
        split
        · exact ⟨_, fun _ => rfl⟩
        · exact ⟨_, fun _ => rfl⟩
      exact hgroup.imp fun u hu => Fuel.Returns.of_answer hu

def selfReference : LootRow :=
  { itemid := 1, currency := false, needsQuest := false, conditions := [], reference := 1,
    chance := 100, lootmode := 1, groupid := 0, mincount := 1, maxcount := 1 }

def plainWorld : LootWorld where
  itemTemplate _ := none
  currencyTypes _ := false
  referencedChance chance := chance
  qualityChance _ chance := chance
  referencedAmount count := count

/-- The loader takes the row, the check has nothing to report, and `Process` does not end. -/
theorem process_fails_selfReference :
    let loaded := loadLootTable plainWorld [(1, selfReference)] (∅, 0)
    let g : LootSetting := ⟨plainWorld, loaded.1, true, 1, 1⟩
    loaded.2 = 1 ∧ (checkLootRefs loaded.1 loaded.1 loaded.1.keys.toFinset).1 = [] ∧
    ∃ t, loaded.1.lookup 1 = some t ∧ ¬∃ u, Fuel.Returns g.processBody
      ⟨t, 0, none, false, ⟨[], [], 0, 0, fun _ => ∅⟩, Random.allZero⟩ u := by
  intro loaded g
  refine ⟨by decide +kernel, by decide +kernel, ⟨[selfReference], []⟩, by decide +kernel, ?_⟩
  rintro ⟨u, hu⟩
  have hrefers : g.Refers ⟨[selfReference], []⟩ 1 := by
    refine ⟨selfReference, List.mem_cons_self, ?_, rfl, rfl, ?_⟩
    · decide +kernel
    · decide +kernel
  have hnext : g.Next 1 1 := ⟨⟨[selfReference], []⟩, by decide +kernel, hrefers⟩
  exact (not_circular_of_returns hu fun _ => rfl).2 ⟨rfl, 1, hrefers, 1, .refl, .single hnext⟩

end LootSetting
end Ashamane.Looting
