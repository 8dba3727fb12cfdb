import Ashamane.Spells.Basic

/-! The pointers of the categories: they stay sound as long as no entry that a category
points to is overwritten with one of another category. -/
namespace Ashamane.Spells
open Ashamane.Lib

namespace SpellHistory

def CategoriesPoint (s : SpellHistory) : Prop :=
  ∀ c a, s.categoryCooldowns.lookup c = some a →
    ∃ k node, s.spellCooldowns.lookup k = some node ∧ node.addr = a ∧ node.entry.CategoryId = c

def Apart (s : SpellHistory) : Prop :=
  ∀ k k' node node', s.spellCooldowns.lookup k = some node →
    s.spellCooldowns.lookup k' = some node' → node.addr = node'.addr → k = k'

structure Sound (s : SpellHistory) : Prop where
  point : s.CategoriesPoint
  apart : s.Apart

def FitsOverwrite (s : SpellHistory) (spellId categoryId : Nat) : Prop :=
  ∀ node c, s.spellCooldowns.lookup spellId = some node →
    s.categoryCooldowns.lookup c = some node.addr → c = categoryId

theorem sound_empty : Sound {} where
  point c a h := by
    rw [show ({} : SpellHistory).categoryCooldowns.lookup c = none from AList.lookup_empty c] at h
    cases h
  apart k k' node node' h := by
    rw [show ({} : SpellHistory).spellCooldowns.lookup k = none from AList.lookup_empty k] at h
    cases h

theorem mem_addrs {s : SpellHistory} {k : Nat} {node : Node}
    (h : s.spellCooldowns.lookup k = some node) : node.addr ∈ s.addrs :=
  List.mem_map.mpr ⟨⟨k, node⟩, Assoc.mem_entries_iff.mpr h, rfl⟩

theorem Apart.deref {s : SpellHistory} (h : s.Apart) {k : Nat} {node : Node}
    (hk : s.spellCooldowns.lookup k = some node) : s.deref node.addr = some node.entry := by
  have hsome : (s.spellCooldowns.entries.find? fun e => e.2.addr = node.addr).isSome := by
    rw [List.find?_isSome]
    exact ⟨⟨k, node⟩, Assoc.mem_entries_iff.mpr hk, decide_eq_true rfl⟩
  obtain ⟨⟨k', node'⟩, hfind⟩ := Option.isSome_iff_exists.mp hsome
  have haddr : node'.addr = node.addr := by
    have hfound := List.find?_some hfind
    exact of_decide_eq_true hfound
  have hk' : s.spellCooldowns.lookup k' = some node' :=
    Assoc.mem_entries_iff.mp (List.mem_of_find?_eq_some hfind)
  obtain rfl := h k' k node' node hk' hk haddr
  obtain rfl := Option.some.inj (hk'.symm.trans hk)
  rw [SpellHistory.deref, hfind]
  rfl

theorem Sound.deref {s : SpellHistory} (h : s.Sound) {c a : Nat}
    (hc : s.categoryCooldowns.lookup c = some a) :
    ∃ entry, s.deref a = some entry ∧ entry.CategoryId = c := by
  obtain ⟨k, node, hk, rfl, hcat⟩ := h.point c a hc
  exact ⟨node.entry, h.apart.deref hk, hcat⟩

theorem Sound.of_subset {s t : SpellHistory} (h : s.Sound)
    (hspell : t.spellCooldowns = s.spellCooldowns)
    (hcat : ∀ c a, t.categoryCooldowns.lookup c = some a →
      s.categoryCooldowns.lookup c = some a) : t.Sound where
  point c a hc := by
    rw [hspell]
    exact h.point c a (hcat c a hc)
  apart := by
    rw [Apart, hspell]
    exact h.apart

theorem Sound.eraseCategory {s : SpellHistory} (h : s.Sound) (c : Nat) :
    Sound { s with categoryCooldowns := s.categoryCooldowns.erase c } :=
  h.of_subset rfl fun _ _ hc => (Assoc.lookup_erase_some hc).2

/-- An element is erased together with the pointer of its category. -/
theorem Sound.eraseCooldown {s : SpellHistory} (h : s.Sound) {k : Nat} {node : Node}
    (hk : s.spellCooldowns.lookup k = some node) : (s.eraseCooldown k node.entry).Sound where
  point c a hc := by
    obtain ⟨hne, hc⟩ := Assoc.lookup_erase_some hc
    obtain ⟨j, other, hj, haddr, hcat⟩ := h.point c a hc
    have hjk : j ≠ k := by
      rintro rfl
      obtain rfl := Option.some.inj (hj.symm.trans hk)
      exact hne hcat.symm
    exact ⟨j, other, (AList.lookup_erase_ne hjk).trans hj, haddr, hcat⟩
  apart i j node node' hi hj :=
    h.apart i j node node' (Assoc.lookup_erase_some hi).2 (Assoc.lookup_erase_some hj).2

/-- Another value at an address that does not change, of a category that its pointers have. -/
theorem Sound.overwrite {s : SpellHistory} (h : s.Sound) {k : Nat} {node : Node}
    (hk : s.spellCooldowns.lookup k = some node) {entry : CooldownEntry}
    (hfits : s.FitsOverwrite k entry.CategoryId) :
    Sound { s with spellCooldowns := s.spellCooldowns.insert k { node with entry } } where
  point c a hc := by
    obtain ⟨j, other, hj, haddr, hcat⟩ := h.point c a hc
    by_cases hjk : j = k
    · subst hjk
      obtain rfl := Option.some.inj (hj.symm.trans hk)
      subst haddr
      refine ⟨j, { other with entry }, AList.lookup_insert _, rfl, ?_⟩
      exact (hfits other c hk hc).symm
    · exact ⟨j, other, (AList.lookup_insert_ne hjk).trans hj, haddr, hcat⟩
  apart i j old old' hi hj haddr := by
    have hold : ∀ {i : Nat} {old : Node},
        (s.spellCooldowns.insert k { node with entry }).lookup i = some old →
        ∃ before, s.spellCooldowns.lookup i = some before ∧ before.addr = old.addr := by
      intro i old hi
      by_cases hik : i = k
      · subst hik
        rw [AList.lookup_insert] at hi
        obtain rfl := Option.some.inj hi
        exact ⟨node, hk, rfl⟩
      · rw [AList.lookup_insert_ne hik] at hi
        exact ⟨old, hi, rfl⟩
    obtain ⟨before, hi, hb⟩ := hold hi
    obtain ⟨before', hj, hb'⟩ := hold hj
    exact h.apart i j before before' hi hj (by rw [hb, hb', haddr])

variable (A : Allocator) (M : SpellMgr)

/-- A new element lies where none lies yet, so that no category points to it. -/
theorem Sound.insertNew {s : SpellHistory} (h : s.Sound) {k : Nat}
    (hk : s.spellCooldowns.lookup k = none) (entry : CooldownEntry) :
    Sound { s with spellCooldowns := s.spellCooldowns.insert k ⟨A.alloc s.addrs, entry⟩ } where
  point c a hc := by
    obtain ⟨j, other, hj, haddr, hcat⟩ := h.point c a hc
    have hjk : j ≠ k := by
      rintro rfl
      rw [hk] at hj
      cases hj
    exact ⟨j, other, (AList.lookup_insert_ne hjk).trans hj, haddr, hcat⟩
  apart i j old old' hi hj haddr := by
    have hnew := A.alloc_notMem s.addrs
    by_cases hik : i = k
    · by_cases hjk : j = k
      · rw [hik, hjk]
      · rw [hik, AList.lookup_insert] at hi
        rw [AList.lookup_insert_ne hjk] at hj
        obtain rfl := Option.some.inj hi
        have hmem : A.alloc s.addrs ∈ s.addrs := by
          rw [show A.alloc s.addrs = old'.addr from haddr]
          exact mem_addrs hj
        exact absurd hmem hnew
    · rw [AList.lookup_insert_ne hik] at hi
      by_cases hjk : j = k
      · rw [hjk, AList.lookup_insert] at hj
        obtain rfl := Option.some.inj hj
        have hmem : A.alloc s.addrs ∈ s.addrs := by
          rw [show A.alloc s.addrs = old.addr from haddr.symm]
          exact mem_addrs hi
        exact absurd hmem hnew
      · rw [AList.lookup_insert_ne hjk] at hj
        exact h.apart i j old old' hi hj haddr

theorem lookup_assign (s : SpellHistory) (k : Nat) (entry : CooldownEntry) :
    ∃ addr, (s.assign A k entry).spellCooldowns.lookup k = some ⟨addr, entry⟩ := by
  unfold assign
  cases s.spellCooldowns.lookup k with
  | none => exact ⟨_, AList.lookup_insert _⟩
  | some node => exact ⟨node.addr, AList.lookup_insert _⟩

theorem Sound.assign {s : SpellHistory} (h : s.Sound) {k : Nat} {entry : CooldownEntry}
    (hfits : s.FitsOverwrite k entry.CategoryId) : (s.assign A k entry).Sound := by
  unfold SpellHistory.assign
  cases hk : s.spellCooldowns.lookup k with
  | none => exact h.insertNew A hk entry
  | some node => exact h.overwrite hk hfits

theorem Sound.pointCategory {s : SpellHistory} (h : s.Sound) {k : Nat} {node : Node}
    (hk : s.spellCooldowns.lookup k = some node) :
    (s.pointCategory k node.entry.CategoryId).Sound := by
  by_cases hcat : node.entry.CategoryId = 0
  · rw [SpellHistory.pointCategory, if_neg (not_not.mpr hcat)]
    exact h
  · rw [SpellHistory.pointCategory, if_pos hcat]
    simp only [hk]
    refine ⟨fun c a hc => ?_, h.apart⟩
    by_cases hcc : c = node.entry.CategoryId
    · rw [hcc, AList.lookup_insert] at hc
      exact ⟨k, node, hk, Option.some.inj hc, hcc.symm⟩
    · rw [AList.lookup_insert_ne hcc] at hc
      exact h.point c a hc

theorem Sound.assign_point {s : SpellHistory} (h : s.Sound) {k : Nat} {entry : CooldownEntry}
    (hfits : s.FitsOverwrite k entry.CategoryId) :
    ((s.assign A k entry).pointCategory k entry.CategoryId).Sound := by
  obtain ⟨addr, hk⟩ := lookup_assign A s k entry
  exact (h.assign A hfits).pointCategory hk

theorem Sound.addCooldown {s : SpellHistory} (h : s.Sound) {spellId categoryId : Nat}
    (hfits : s.FitsOverwrite spellId categoryId) (itemId : Nat) (cooldownEnd categoryEnd : Int)
    (onHold : Bool) :
    (s.addCooldown A spellId itemId cooldownEnd categoryId categoryEnd onHold).Sound :=
  @Sound.assign_point A s h spellId ⟨spellId, cooldownEnd, itemId, categoryId, categoryEnd, onHold⟩
    hfits

def EachFits {α : Type} (f : SpellHistory → α → Option SpellHistory)
    (fits : SpellHistory → α → Prop) : SpellHistory → List α → Prop
  | _, [] => True
  | s, x :: l => fits s x ∧ ∀ t, f s x = some t → EachFits f fits t l

theorem Sound.foldlM {α : Type} {f : SpellHistory → α → Option SpellHistory}
    {fits : SpellHistory → α → Prop}
    (hf : ∀ s x t, s.Sound → fits s x → f s x = some t → t.Sound) {l : List α}
    {s t : SpellHistory} (h : s.Sound) (hfits : EachFits f fits s l)
    (hrun : l.foldlM f s = some t) : t.Sound := by
  induction l generalizing s with
  | nil =>
    obtain rfl := Option.some.inj hrun
    exact h
  | cons x l ih =>
    obtain ⟨u, hu, hrest⟩ := Option.bind_eq_some_iff.mp hrun
    exact ih (hf s x u h hfits.1 hu) (hfits.2 u hu) hrest

theorem foldlM_some {α : Type} (f : SpellHistory → α → SpellHistory) (l : List α)
    (s : SpellHistory) : l.foldlM (fun s x => some (f s x)) s = some (l.foldl f s) := by
  induction l generalizing s with
  | nil => rfl
  | cons x l ih => exact ih (f s x)

theorem sound_eraseWhere {s : SpellHistory} (h : s.Sound)
    (predicate : Nat → CooldownEntry → Bool) : (s.eraseWhere predicate).Sound := by
  have hloop : ∀ (l : List (Sigma fun _ : Nat => Node)) (s : SpellHistory), l.NodupKeys →
      s.Sound → (∀ e ∈ l, s.spellCooldowns.lookup e.1 = some e.2) →
      (l.foldl (fun s e =>
        if predicate e.1 e.2.entry then s.eraseCooldown e.1 e.2.entry else s) s).Sound := by
    intro l
    induction l with
    | nil => exact fun s _ h _ => h
    | cons e l ih =>
      intro s hnodup h hl
      obtain ⟨hnotin, hnodup⟩ := List.nodupKeys_cons.mp hnodup
      have htail : ∀ e' ∈ l, s.spellCooldowns.lookup e'.1 = some e'.2 :=
        fun e' he' => hl e' (List.mem_cons_of_mem _ he')
      rw [List.foldl_cons]
      split
      · refine ih _ hnodup (h.eraseCooldown (hl e (List.mem_cons_self ..))) fun e' he' => ?_
        have hne : e'.1 ≠ e.1 := by
          intro heq
          exact hnotin (heq ▸ List.mem_keys_of_mem he')
        exact (AList.lookup_erase_ne hne).trans (htail e' he')
      · exact ih s hnodup h htail
  exact hloop _ s s.spellCooldowns.nodupKeys h fun e he => Assoc.mem_entries_iff.mp he

/-- The pointers are used while the elements are as they were: none is used in vain. -/
theorem updateCategories {s₀ s : SpellHistory} (h₀ : s₀.Sound) (now : Int)
    (l : List (Sigma fun _ : Nat => Nat))
    (hl : ∀ e ∈ l, s₀.categoryCooldowns.lookup e.1 = some e.2) (h : s.Sound)
    (hsame : s.spellCooldowns = s₀.spellCooldowns) :
    ∃ t, l.foldlM (updateCategory now) s = some t ∧ t.Sound := by
  induction l generalizing s with
  | nil => exact ⟨s, rfl, h⟩
  | cons e l ih =>
    obtain ⟨entry, hentry, -⟩ := h₀.deref (hl e (List.mem_cons_self ..))
    have hderef : s.deref e.2 = some entry := by
      rw [← hentry, SpellHistory.deref, SpellHistory.deref, hsame]
    have htail : ∀ e' ∈ l, s₀.categoryCooldowns.lookup e'.1 = some e'.2 :=
      fun e' he' => hl e' (List.mem_cons_of_mem _ he')
    obtain ⟨u, hu, hsound, hspell⟩ : ∃ u, updateCategory now s e = some u ∧ u.Sound ∧
        u.spellCooldowns = s.spellCooldowns := by
      simp only [updateCategory, hderef]
      split
      · exact ⟨_, rfl, h.eraseCategory e.1, rfl⟩
      · exact ⟨s, rfl, h, rfl⟩
    obtain ⟨t, ht, htsound⟩ := ih htail hsound (hspell.trans hsame)
    exact ⟨t, by rw [List.foldlM_cons, hu]; exact ht, htsound⟩

theorem Sound.update {s : SpellHistory} (h : s.Sound) (now : Int) :
    ∃ t, s.update now = some t ∧ t.Sound := by
  obtain ⟨u, hu, hsound⟩ := updateCategories h now s.categoryCooldowns.entries
    (fun e he => Assoc.mem_entries_iff.mp he) h rfl
  refine ⟨_, by rw [SpellHistory.update, hu], ?_⟩
  exact (sound_eraseWhere hsound _).of_subset rfl fun _ _ hc => hc

theorem Sound.modifyCooldown {s : SpellHistory} (h : s.Sound) (spellId : Nat) (offset now : Int) :
    (s.modifyCooldown spellId offset now).Sound := by
  unfold SpellHistory.modifyCooldown
  cases hk : s.spellCooldowns.lookup spellId with
  | none => exact h
  | some node =>
    dsimp only
    split
    · exact h
    · split
      · refine h.overwrite hk fun node' c hk' hc => ?_
        obtain rfl := Option.some.inj (hk.symm.trans hk')
        obtain ⟨j, other, hj, haddr, hcat⟩ := h.point c node.addr hc
        obtain rfl := h.apart j spellId other node hj hk haddr
        obtain rfl := Option.some.inj (hk.symm.trans hj)
        exact hcat.symm
      · exact h.eraseCooldown hk

theorem Sound.resetCooldown {s : SpellHistory} (h : s.Sound) (spellId : Nat) :
    (s.resetCooldown spellId).Sound := by
  unfold SpellHistory.resetCooldown
  cases hk : s.spellCooldowns.lookup spellId with
  | none => exact h
  | some node => exact h.eraseCooldown hk

theorem sound_resetAllCooldowns (s : SpellHistory) : s.resetAllCooldowns.Sound where
  point c a h := by
    rw [show s.resetAllCooldowns.categoryCooldowns.lookup c = none from AList.lookup_empty c] at h
    cases h
  apart k k' node node' h := by
    rw [show s.resetAllCooldowns.spellCooldowns.lookup k = none from AList.lookup_empty k] at h
    cases h

def FitsRow (s : SpellHistory) (row : CooldownRow) : Prop :=
  ∀ spellId cooldown, readCooldown M row = some (spellId, cooldown) →
    s.FitsOverwrite spellId cooldown.CategoryId

theorem Sound.loadCooldown {s : SpellHistory} (h : s.Sound) {row : CooldownRow}
    (hfits : s.FitsRow M row) : (s.loadCooldown A M row).Sound := by
  unfold SpellHistory.loadCooldown
  cases hread : readCooldown M row with
  | none => exact h
  | some e => exact h.assign_point A (hfits e.1 e.2 hread)

theorem Sound.loadCharge {s : SpellHistory} (h : s.Sound) (row : ChargeRow) :
    (s.loadCharge M row).Sound := by
  unfold SpellHistory.loadCharge
  split
  · exact h.of_subset rfl fun _ _ hc => hc
  · exact h

theorem Sound.loadFromDB {s : SpellHistory} (h : s.Sound) {cooldowns : List CooldownRow}
    (charges : List ChargeRow)
    (hfits : EachFits (fun s row => some (s.loadCooldown A M row)) (FitsRow M) s cooldowns) :
    (s.loadFromDB A M cooldowns charges).Sound := by
  have hcooldowns : (cooldowns.foldl (SpellHistory.loadCooldown A M) s).Sound := by
    refine h.foldlM (fun s row t hs hrow ht => ?_) hfits (foldlM_some _ _ _)
    obtain rfl := Option.some.inj ht
    exact hs.loadCooldown A M hrow
  unfold SpellHistory.loadFromDB
  generalize cooldowns.foldl (SpellHistory.loadCooldown A M) s = t at hcooldowns
  induction charges generalizing t with
  | nil => exact hcooldowns
  | cons row charges ih => exact ih _ (hcooldowns.loadCharge M row)

def FitsLock (schoolMask lockoutTime : Nat) (now : Int) (s : SpellHistory) (spellId : Nat) : Prop :=
  locksSpell M schoolMask lockoutTime now s spellId = some true → s.FitsOverwrite spellId 0

theorem Sound.lockSpell {schoolMask lockoutTime : Nat} {now : Int} {s t : SpellHistory}
    {spellId : Nat} (h : s.Sound) (hfits : FitsLock M schoolMask lockoutTime now s spellId)
    (ht : SpellHistory.lockSpell A M schoolMask lockoutTime now s spellId = some t) : t.Sound := by
  unfold SpellHistory.lockSpell at ht
  cases hlock : locksSpell M schoolMask lockoutTime now s spellId with
  | none =>
    rw [hlock] at ht
    cases ht
  | some locks =>
    rw [hlock] at ht
    cases locks with
    | true =>
      obtain rfl := Option.some.inj ht
      exact h.addCooldown A (hfits hlock) _ _ _ _
    | false =>
      obtain rfl := Option.some.inj ht
      exact h

def FitsRestore (s : SpellHistory) (e : Sigma fun _ : Nat => CooldownEntry) : Prop :=
  s.restores e = true → s.FitsOverwrite e.1 e.2.CategoryId

theorem Sound.restoreCooldown {s : SpellHistory} (h : s.Sound)
    {e : Sigma fun _ : Nat => CooldownEntry} (hfits : s.FitsRestore e) :
    (s.restoreCooldown A e).Sound := by
  unfold SpellHistory.restoreCooldown
  split
  · exact h.assign A (hfits ‹_›)
  · exact h

theorem keepLongCooldowns_sound (l : List (Sigma fun _ : Nat => Node)) {s t : SpellHistory}
    (h : s.Sound) (ht : l.foldlM (keepLongCooldown M) s = some t) : t.Sound := by
  refine @Sound.foldlM _ _ (fun _ _ => True) (fun s e t hs _ ht => ?_) _ _ _ h ?_ ht
  · unfold keepLongCooldown at ht
    cases hinfo : M.getSpellInfo e.1 with
    | none =>
      rw [hinfo] at ht
      cases ht
    | some spellInfo =>
      rw [hinfo] at ht
      obtain rfl := Option.some.inj ht
      split
      · exact hs.of_subset rfl fun _ _ hc => hc
      · exact hs
  · clear ht h
    induction l generalizing s with
    | nil => trivial
    | cons e l ih => exact ⟨trivial, fun t _ => ih⟩

def Fits (s : SpellHistory) : Op → Prop
  | .AddCooldown spellId _ _ categoryId _ _ => s.FitsOverwrite spellId categoryId
  | .LockSpellSchool knownSpells schoolMask lockoutTime now =>
    EachFits (lockSpell A M schoolMask lockoutTime now) (FitsLock M schoolMask lockoutTime now)
      (s.lockSchools schoolMask lockoutTime now) knownSpells
  | .LoadFromDB cooldowns _ =>
    EachFits (fun s row => some (s.loadCooldown A M row)) (FitsRow M) s cooldowns
  | .RestoreCooldownStateAfterDuel _ =>
    ∀ t, s.spellCooldowns.entries.foldlM (keepLongCooldown M) s = some t →
      EachFits (fun s e => some (s.restoreCooldown A e)) FitsRestore t
        t.spellCooldownsBeforeDuel.entries
  | _ => True

theorem Sound.step {s t : SpellHistory} {op : Op} (h : s.Sound) (hfits : s.Fits A M op)
    (ht : s.step A M op = some t) : t.Sound := by
  cases op with
  | AddCooldown spellId itemId cooldownEnd categoryId categoryEnd onHold =>
    obtain rfl := Option.some.inj ht
    exact h.addCooldown A hfits _ _ _ _
  | LockSpellSchool knownSpells schoolMask lockoutTime now =>
    have hlocked : (s.lockSchools schoolMask lockoutTime now).Sound :=
      h.of_subset rfl fun _ _ hc => hc
    exact hlocked.foldlM (fun s spellId t hs hspell ht => hs.lockSpell A M hspell ht) hfits ht
  | ModifyCooldown spellId offset now =>
    obtain rfl := Option.some.inj ht
    exact h.modifyCooldown spellId offset now
  | ResetCooldown spellId =>
    obtain rfl := Option.some.inj ht
    exact h.resetCooldown spellId
  | ResetCooldowns predicate =>
    obtain rfl := Option.some.inj ht
    exact sound_eraseWhere h predicate
  | ResetAllCooldowns =>
    obtain rfl := Option.some.inj ht
    exact sound_resetAllCooldowns s
  | Update now =>
    obtain ⟨u, hu, hsound⟩ := h.update now
    obtain rfl := Option.some.inj (hu.symm.trans ht)
    exact hsound
  | LoadFromDB cooldowns charges =>
    obtain rfl := Option.some.inj ht
    exact h.loadFromDB A M charges hfits
  | SaveCooldownStateBeforeDuel =>
    obtain rfl := Option.some.inj ht
    exact h.of_subset rfl fun _ _ hc => hc
  | RestoreCooldownStateAfterDuel isPlayer =>
    replace ht : s.restoreCooldownStateAfterDuel A M isPlayer = some t := ht
    unfold restoreCooldownStateAfterDuel at ht
    cases isPlayer with
    | false =>
      obtain rfl := Option.some.inj ht
      exact h
    | true =>
      cases hkeep : s.spellCooldowns.entries.foldlM (keepLongCooldown M) s with
      | none =>
        rw [hkeep] at ht
        cases ht
      | some u =>
        rw [hkeep] at ht
        obtain rfl := Option.some.inj ht
        refine (keepLongCooldowns_sound M _ h hkeep).foldlM (fun s e t hs he ht => ?_)
          (hfits u hkeep) (foldlM_some _ _ _)
        obtain rfl := Option.some.inj ht
        exact hs.restoreCooldown A he

/-- A new cooldown of a spell keeps the pointers sound exactly if no other category than its
own points to the entry that it replaces. -/
theorem Sound.addCooldown_iff {s : SpellHistory} (h : s.Sound) (spellId itemId : Nat)
    (cooldownEnd : Int) (categoryId : Nat) (categoryEnd : Int) (onHold : Bool) :
    (s.addCooldown A spellId itemId cooldownEnd categoryId categoryEnd onHold).CategoriesPoint ↔
      s.FitsOverwrite spellId categoryId := by
  refine ⟨fun hpoint node c hk hc => ?_, fun hfits => (h.addCooldown A hfits _ _ _ _).point⟩
  by_contra hne
  -- the pointer of `c` is as it was, and the element it leads to has another category now
  let entry : CooldownEntry := ⟨spellId, cooldownEnd, itemId, categoryId, categoryEnd, onHold⟩
  have hassign : s.assign A spellId entry =
      { s with spellCooldowns := s.spellCooldowns.insert spellId { node with entry } } := by
    simp only [SpellHistory.assign, hk]
  have hadd : s.addCooldown A spellId itemId cooldownEnd categoryId categoryEnd onHold =
      (s.assign A spellId entry).pointCategory spellId categoryId := rfl
  rw [hadd, hassign] at hpoint
  have hspell : ∀ t : SpellHistory, (t.pointCategory spellId categoryId).spellCooldowns =
      t.spellCooldowns := by
    intro t
    unfold SpellHistory.pointCategory
    split
    · split <;> rfl
    · rfl
  have hcat : ∀ t : SpellHistory, (t.pointCategory spellId categoryId).categoryCooldowns.lookup c =
      t.categoryCooldowns.lookup c := by
    intro t
    unfold SpellHistory.pointCategory
    split
    · split
      · exact AList.lookup_insert_ne hne
      · rfl
    · rfl
  obtain ⟨j, other, hj, haddr, hother⟩ := hpoint c node.addr ((hcat _).trans hc)
  rw [hspell] at hj
  by_cases hjk : j = spellId
  · rw [hjk, AList.lookup_insert] at hj
    obtain rfl := Option.some.inj hj
    exact hne hother.symm
  · rw [AList.lookup_insert_ne hjk] at hj
    exact hjk (h.apart j spellId other node hj hk haddr)

/-- In a run of which each call fits, every category points to an element of its own, and no
pointer is used in vain; the next cooldown keeps it so exactly if it fits. -/
theorem categories_point {s : SpellHistory} {ops : List Op}
    (hrun : Run (fun s op t => s.step A M op = some t) (Fits A M) {} ops s) :
    s.CategoriesPoint ∧ (∀ now, ∃ t, s.update now = some t) ∧
      ∀ spellId itemId cooldownEnd categoryId categoryEnd onHold,
        (s.addCooldown A spellId itemId cooldownEnd categoryId categoryEnd onHold).CategoriesPoint ↔
          s.FitsOverwrite spellId categoryId := by
  have hsound : s.Sound := hrun.invariant Sound sound_empty
    fun _ _ _ h hfits ht => h.step A M hfits ht
  refine ⟨hsound.point, fun now => ?_, hsound.addCooldown_iff A⟩
  obtain ⟨t, ht, -⟩ := hsound.update now
  exact ⟨t, ht⟩

def nextAddress : Allocator where
  alloc l := l.foldr max 0 + 1
  alloc_notMem l h := by
    have hle : ∀ a ∈ l, a ≤ l.foldr max 0 := by
      clear h
      induction l with
      | nil => exact fun a ha => absurd ha (List.not_mem_nil)
      | cons b l ih =>
        intro a ha
        rcases List.mem_cons.mp ha with rfl | ha
        · exact Nat.le_max_left _ _
        · exact Nat.le_trans (ih a ha) (Nat.le_max_right _ _)
    exact absurd (hle _ h) (Nat.not_succ_le_self _)

def noSpells : SpellMgr where
  getSpellInfo _ := none
  hasCategory _ := false

/-- The second cooldown of spell 1 overwrites the entry that category 5 points to. -/
theorem categories_point_overwritten :
    ∃ s, Run (fun s op t => SpellHistory.step nextAddress noSpells s op = some t)
        (Fits nextAddress noSpells) {}
        [.AddCooldown 1 0 100 5 100 false, .AddCooldown 1 0 200 5 300 false] s ∧
      s.CategoriesPoint := by
  refine (?_ : ∃ s, _).imp fun s hrun => ⟨hrun, (categories_point nextAddress noSpells hrun).1⟩
  refine ⟨_, .cons (fun node c hnode => by cases hnode) rfl (.cons (fun node c _ hc => ?_) rfl (.nil _))⟩
  -- category 5 is the only one that points anywhere
  by_contra hne
  have hnone : ((∅ : AList fun _ : Nat => Nat).insert 5 1).lookup c = none :=
    (AList.lookup_insert_ne hne).trans (AList.lookup_empty c)
  cases hnone.symm.trans hc

/-- A spell of category 5 is on cooldown when a lockout without a category replaces its entry,
and the entry is reset: category 5 still points to where it was, and the next update uses
the pointer. -/
theorem categories_point_fails :
    ∃ s, Run (fun s op t => SpellHistory.step nextAddress noSpells s op = some t) always {}
        [.AddCooldown 1 0 100 5 100 false, .AddCooldown 1 0 100 0 0 false, .ResetCooldown 1] s ∧
      ¬s.CategoriesPoint ∧ s.update 0 = none := by
  refine ⟨_, .cons trivial rfl (.cons trivial rfl (.cons trivial rfl (.nil _))), fun h => ?_, rfl⟩
  obtain ⟨k, node, hk, -⟩ := h 5 1 rfl
  cases hk

end SpellHistory

end Ashamane.Spells
