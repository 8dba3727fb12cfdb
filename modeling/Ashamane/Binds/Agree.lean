import Ashamane.Binds.Basic

/-! The lists of the saves agree with the binds, and one bind more or less keeps it so. -/
namespace Ashamane.Binds
open Ashamane.Lib

variable {stores : Stores} {around : Around} {w w' : World} {m m' : InstanceSaveManager}
  {h h' : Holder} {place place' : Nat × Nat} {ptr : Nat} {save : InstanceSave}

structure Agrees (w : World) : Prop where
  bound : ∀ h place ptr, w.bound h place = some ptr → ∃ save, w.mgr.saves.lookup ptr = some save ∧
    save.place = place ∧ w.mgr.instanceSaveById.lookup save.instanceId = some ptr
  count : ∀ ptr save, w.mgr.saves.lookup ptr = some save →
    ∀ h, save.count h = if w.bound h save.place = some ptr then 1 else 0

structure Inv (stores : Stores) (w : World) : Prop extends Agrees w where
  registered : ∀ id ptr, w.mgr.instanceSaveById.lookup id = some ptr →
    ∃ save, w.mgr.saves.lookup ptr = some save ∧ save.instanceId = id ∧ save.toDelete = false
  fresh : ∀ ptr save, w.mgr.saves.lookup ptr = some save → ptr < w.mgr.nextSave
  known : ∀ ptr save, w.mgr.saves.lookup ptr = some save →
    stores.getDownscaledMapDifficultyData save.mapId save.difficulty = (true, save.difficulty)

/-! Lists of a save -/

@[simp] theorem InstanceSave.remove_place (h : Holder) (save : InstanceSave) :
    (save.remove h).place = save.place := by cases h <;> rfl

@[simp] theorem InstanceSave.remove_instanceId (h : Holder) (save : InstanceSave) :
    (save.remove h).instanceId = save.instanceId := by cases h <;> rfl

@[simp] theorem InstanceSave.remove_toDelete (h : Holder) (save : InstanceSave) :
    (save.remove h).toDelete = save.toDelete := by cases h <;> rfl

@[simp] theorem InstanceSave.remove_mapId (h : Holder) (save : InstanceSave) :
    (save.remove h).mapId = save.mapId := by cases h <;> rfl

@[simp] theorem InstanceSave.remove_difficulty (h : Holder) (save : InstanceSave) :
    (save.remove h).difficulty = save.difficulty := by cases h <;> rfl

theorem count_filter_ne (l : List Nat) (a b : Nat) :
    (l.filter fun x => !decide (x = a)).count b = if b = a then 0 else l.count b := by
  by_cases hb : b = a
  · subst hb
    simp [List.count_eq_zero]
  · rw [if_neg hb, List.count_filter (by simpa using hb)]

theorem InstanceSave.count_remove (h h' : Holder) (save : InstanceSave) :
    (save.remove h).count h' = if h' = h then 0 else save.count h' := by
  cases h with
  | player p =>
    cases h' with
    | player q => simp [remove, count, count_filter_ne]
    | group g => simp [remove, count]
  | group g =>
    cases h' with
    | player q => simp [remove, count]
    | group g' => simp [remove, count, count_filter_ne]

theorem count_append_singleton (l : List Nat) (a b : Nat) :
    (l ++ [a]).count b = l.count b + if b = a then 1 else 0 := by
  rw [List.count_append, List.count_singleton]
  by_cases hb : b = a
  · simp [hb]
  · simp [hb, Ne.symm hb]

theorem InstanceSave.count_add (h h' : Holder) (save : InstanceSave) :
    (save.add h).count h' = save.count h' + if h' = h then 1 else 0 := by
  cases h with
  | player p =>
    cases h' with
    | player q => simp only [add, count, count_append_singleton, Holder.player.injEq]
    | group g => simp [add, count]
  | group g =>
    cases h' with
    | player q => simp [add, count]
    | group g' => simp only [add, count, count_append_singleton, Holder.group.injEq]

theorem InstanceSave.isEmpty_iff : save.isEmpty ↔ ∀ h, save.count h = 0 := by
  constructor
  · intro hempty h
    obtain ⟨hplayers, hgroups⟩ := Bool.and_eq_true_iff.mp hempty
    cases h with
    | player p => simp [count, List.isEmpty_iff.mp hplayers]
    | group g => simp [count, List.isEmpty_iff.mp hgroups]
  · intro hzero
    refine Bool.and_eq_true_iff.mpr ⟨?_, ?_⟩
    · rw [List.isEmpty_iff, List.eq_nil_iff_forall_not_mem]
      exact fun p => List.count_eq_zero.mp (hzero (.player p))
    · rw [List.isEmpty_iff, List.eq_nil_iff_forall_not_mem]
      exact fun g => List.count_eq_zero.mp (hzero (.group g))

/-! Binds -/

@[simp] theorem World.bound_mgr (w : World) (m : InstanceSaveManager) (h : Holder)
    (place : Nat × Nat) : ({ w with mgr := m } : World).bound h place = w.bound h place := by
  cases h <;> rfl

@[simp] theorem World.eraseBind_mgr (w : World) (h : Holder) (place : Nat × Nat) :
    (w.eraseBind h place).mgr = w.mgr := by cases h <;> rfl

theorem World.bound_eraseBind (w : World) (h h' : Holder) (place place' : Nat × Nat) :
    (w.eraseBind h place).bound h' place' =
      if h' = h ∧ place' = place then none else w.bound h' place' := by
  cases h with
  | player p =>
    cases h' with
    | player q =>
      by_cases hq : q = p
      · subst hq
        by_cases hplace : place' = place <;> simp [eraseBind, bound, Assoc.lookup_erase, hplace]
      · simp [eraseBind, bound, hq]
    | group g => simp [eraseBind, bound]
  | group g =>
    cases h' with
    | player q => simp [eraseBind, bound]
    | group g' =>
      by_cases hg : g' = g
      · subst hg
        by_cases hplace : place' = place <;> simp [eraseBind, bound, Assoc.lookup_erase, hplace]
      · simp [eraseBind, bound, hg]

theorem World.bound_setPlayerBind (w : World) (p : Nat) (place : Nat × Nat)
    (bind : InstancePlayerBind) (h' : Holder) (place' : Nat × Nat) :
    (w.setPlayerBind p place bind).bound h' place' =
      if h' = .player p ∧ place' = place then some bind.save else w.bound h' place' := by
  cases h' with
  | player q =>
    by_cases hq : q = p
    · subst hq
      by_cases hplace : place' = place <;> simp [setPlayerBind, bound, Assoc.lookup_insert, hplace]
    · simp [setPlayerBind, bound, hq]
  | group g => simp [setPlayerBind, bound]

theorem World.bound_setGroupBind (w : World) (g : Nat) (place : Nat × Nat)
    (bind : InstanceGroupBind) (h' : Holder) (place' : Nat × Nat) :
    (w.setGroupBind g place bind).bound h' place' =
      if h' = .group g ∧ place' = place then some bind.save else w.bound h' place' := by
  cases h' with
  | player q => simp [setGroupBind, bound]
  | group g' =>
    by_cases hg : g' = g
    · subst hg
      by_cases hplace : place' = place <;> simp [setGroupBind, bound, Assoc.lookup_insert, hplace]
    · simp [setGroupBind, bound, hg]

theorem Inv.congr (h : Inv stores w) (hmgr : w'.mgr = w.mgr)
    (hbound : ∀ h place, w'.bound h place = w.bound h place) : Inv stores w' := by
  constructor
  · constructor
    · simpa only [hmgr, hbound] using h.bound
    · simpa only [hmgr, hbound] using h.count
  · simpa only [hmgr] using h.registered
  · simpa only [hmgr] using h.fresh
  · simpa only [hmgr] using h.known

/-! One bind less -/

structure Removed (m : InstanceSaveManager) (h : Holder) (ptr : Nat) (save : InstanceSave)
    (m' : InstanceSaveManager) : Prop where
  nextSave : m'.nextSave = m.nextSave
  lock : m'.lockInstLists = m.lockInstLists
  other : ∀ i, i ≠ ptr → m'.saves.lookup i = m.saves.lookup i
  outcome : m'.saves.lookup ptr = some (save.remove h) ∧
      m'.instanceSaveById = m.instanceSaveById ∨
    m.lockInstLists = false ∧ (save.remove h).isEmpty ∧ m'.saves.lookup ptr = none ∧
      m'.instanceSaveById = m.instanceSaveById.erase save.instanceId

theorem InstanceSaveManager.removeInstanceSave_of_lookup {id : Nat}
    (hid : m.instanceSaveById.lookup id = some ptr) : m.removeInstanceSave id =
      { m.modifySave ptr fun save => { save with toDelete := true } with
        instanceSaveById := m.instanceSaveById.erase id } := by
  rw [removeInstanceSave, hid]

theorem InstanceSaveManager.removeHolder_eq (around : Around) (h : Holder)
    (hsave : m.saves.lookup ptr = some save)
    (hid : m.instanceSaveById.lookup save.instanceId = some ptr)
    (hdelete : save.toDelete = false) :
    ∃ m', m.removeHolder around h ptr = some m' ∧ Removed m h ptr save m' := by
  have hless : (m.modifySave ptr (InstanceSave.remove h)).saves.lookup ptr =
      some (save.remove h) := by
    rw [modifySave, Assoc.lookup_modify_self, hsave]
    rfl
  have hother : ∀ i, i ≠ ptr →
      (m.modifySave ptr (InstanceSave.remove h)).saves.lookup i = m.saves.lookup i :=
    fun i hi => Assoc.lookup_modify_ne hi _ _
  rw [removeHolder, hsave]
  simp only [unloadIfEmpty, hless, InstanceSave.remove_instanceId, InstanceSave.remove_mapId]
  by_cases hgone : (save.remove h).isEmpty ∧
      around.findMap save.mapId save.instanceId ≠ some true ∧
      (m.modifySave ptr (InstanceSave.remove h)).lockInstLists = false
  · rw [if_pos hgone,
      removeInstanceSave_of_lookup (m := m.modifySave ptr (InstanceSave.remove h)) hid]
    have hmarked : (((m.modifySave ptr (InstanceSave.remove h)).modifySave ptr
        fun save => { save with toDelete := true }).saves.lookup ptr) =
        some { save.remove h with toDelete := true } := by
      rw [modifySave, Assoc.lookup_modify_self, hless]
      rfl
    have hempty : ({ save.remove h with toDelete := true } : InstanceSave).isEmpty = true := hgone.1
    simp only [hmarked, Option.any_some, if_true, delete, hempty]
    refine ⟨_, rfl, rfl, rfl, fun i hi => ?_, .inr ⟨hgone.2.2, hgone.1, ?_, rfl⟩⟩
    · refine (AList.lookup_erase_ne hi).trans ?_
      exact (Assoc.lookup_modify_ne hi _ _).trans (hother i hi)
    · exact AList.lookup_erase ptr _
  · rw [if_neg hgone, hless]
    simp only [Option.any_some, InstanceSave.remove_toDelete, hdelete]
    exact ⟨_, rfl, rfl, rfl, hother, .inl ⟨hless, rfl⟩⟩

theorem Inv.unbind (hinv : Inv stores w) (around : Around) (hbound : w.bound h place = some ptr) :
    ∃ save m', w.mgr.saves.lookup ptr = some save ∧ save.place = place ∧
      w.mgr.removeHolder around h ptr = some m' ∧ Removed w.mgr h ptr save m' ∧
      Inv stores ({ w with mgr := m' }.eraseBind h place) := by
  obtain ⟨save, hsave, hplace, hid⟩ := hinv.bound h place ptr hbound
  obtain ⟨found, hfound, _, hdelete⟩ := hinv.registered _ _ hid
  obtain rfl := Option.some.inj (hsave.symm.trans hfound)
  obtain ⟨m', hremove, hremoved⟩ :=
    InstanceSaveManager.removeHolder_eq around h hsave hid hdelete
  refine ⟨save, m', hsave, hplace, hremove, hremoved, ?_⟩
  -- what is stored afterwards was stored before, less the holder
  have hbefore : ∀ i s, m'.saves.lookup i = some s →
      i ≠ ptr ∧ w.mgr.saves.lookup i = some s ∨
      i = ptr ∧ s = save.remove h ∧ m'.instanceSaveById = w.mgr.instanceSaveById := by
    intro i s hs
    by_cases hi : i = ptr
    · subst hi
      cases hremoved.outcome with
      | inl hkept => exact .inr ⟨rfl, Option.some.inj (hs.symm.trans hkept.1), hkept.2⟩
      | inr hgone =>
        rw [hgone.2.2.1] at hs
        cases hs
    · exact .inl ⟨hi, (hremoved.other i hi).symm.trans hs⟩
  -- the ids of the other saves are left alone
  have hids : ∀ id i, i ≠ ptr → w.mgr.instanceSaveById.lookup id = some i →
      m'.instanceSaveById.lookup id = some i := by
    intro id i hi hlookup
    cases hremoved.outcome with
    | inl hkept => rw [hkept.2, hlookup]
    | inr hgone =>
      have hne : id ≠ save.instanceId := by
        rintro rfl
        exact hi (Option.some.inj (hlookup.symm.trans hid))
      rw [hgone.2.2.2, AList.lookup_erase_ne hne, hlookup]
  have hidsBefore : ∀ id i, m'.instanceSaveById.lookup id = some i →
      w.mgr.instanceSaveById.lookup id = some i ∧ (i = ptr → m'.saves.lookup ptr =
        some (save.remove h)) := by
    intro id i hlookup
    cases hremoved.outcome with
    | inl hkept => exact ⟨hkept.2 ▸ hlookup, fun _ => hkept.1⟩
    | inr hgone =>
      rw [hgone.2.2.2] at hlookup
      by_cases hne : id = save.instanceId
      · rw [hne, AList.lookup_erase] at hlookup
        cases hlookup
      · rw [AList.lookup_erase_ne hne] at hlookup
        refine ⟨hlookup, ?_⟩
        rintro rfl
        obtain ⟨found, hfound, hfoundId, _⟩ := hinv.registered id i hlookup
        obtain rfl := Option.some.inj (hsave.symm.trans hfound)
        exact absurd hfoundId.symm hne
  constructor
  · constructor
    case bound =>
      intro h' place' i hi
      rw [World.bound_eraseBind, World.bound_mgr] at hi
      by_cases hsame : h' = h ∧ place' = place
      · rw [if_pos hsame] at hi
        cases hi
      · rw [if_neg hsame] at hi
        rw [World.eraseBind_mgr]
        obtain ⟨s, hs, hsplace, hsid⟩ := hinv.bound h' place' i hi
        by_cases hptr : i = ptr
        · subst hptr
          obtain rfl := Option.some.inj (hsave.symm.trans hs)
          have hne : h' ≠ h := fun heq => hsame ⟨heq, hsplace.symm.trans hplace⟩
          cases hremoved.outcome with
          | inl hkept =>
            refine ⟨_, hkept.1, (InstanceSave.remove_place h save).trans hsplace, ?_⟩
            rw [hkept.2, InstanceSave.remove_instanceId, hid]
          | inr hgone =>
            have hzero := InstanceSave.isEmpty_iff.mp hgone.2.1 h'
            rw [InstanceSave.count_remove, if_neg hne, hinv.count i save hsave h', hsplace,
              if_pos hi] at hzero
            cases hzero
        · exact ⟨s, (hremoved.other i hptr).trans hs, hsplace, hids _ _ hptr hsid⟩
    case count =>
      intro i s hs h'
      rw [World.eraseBind_mgr] at hs
      rw [World.bound_eraseBind, World.bound_mgr]
      cases hbefore i s hs with
      | inl hother =>
        rw [hinv.count i s hother.2 h']
        by_cases hsame : h' = h ∧ s.place = place
        · rw [if_pos hsame, hsame.1, hsame.2, hbound,
            if_neg fun heq => hother.1 (Option.some.inj heq).symm]
          simp
        · rw [if_neg hsame]
      | inr hself =>
        obtain ⟨rfl, rfl, _⟩ := hself
        rw [InstanceSave.count_remove, InstanceSave.remove_place, hinv.count i save hsave h']
        by_cases hsame : h' = h
        · simp [hsame, hplace]
        · simp [hsame]
  case registered =>
    intro id i hlookup
    rw [World.eraseBind_mgr] at hlookup ⊢
    obtain ⟨hlookup', hself⟩ := hidsBefore id i hlookup
    obtain ⟨s, hs, hsid, hsdelete⟩ := hinv.registered id i hlookup'
    by_cases hi : i = ptr
    · subst hi
      obtain rfl := Option.some.inj (hsave.symm.trans hs)
      exact ⟨_, hself rfl, (InstanceSave.remove_instanceId h save).trans hsid,
        (InstanceSave.remove_toDelete h save).trans hsdelete⟩
    · exact ⟨s, (hremoved.other i hi).trans hs, hsid, hsdelete⟩
  case fresh =>
    intro i s hs
    rw [World.eraseBind_mgr] at hs ⊢
    rw [hremoved.nextSave]
    cases hbefore i s hs with
    | inl hother => exact hinv.fresh i s hother.2
    | inr hself => exact hself.1 ▸ hinv.fresh ptr save hsave
  case known =>
    intro i s hs
    rw [World.eraseBind_mgr] at hs
    cases hbefore i s hs with
    | inl hother => exact hinv.known i s hother.2
    | inr hself =>
      rw [hself.2.1, InstanceSave.remove_mapId, InstanceSave.remove_difficulty]
      exact hinv.known ptr save hsave

/-- `UnbindInstance` keeps the agreement. -/
theorem Inv.unbindInstance (hinv : Inv stores w) (around : Around) (h : Holder)
    (place : Nat × Nat) : ∃ w', w.unbindInstance around h place = some w' ∧ Inv stores w' := by
  cases hbound : w.bound h place with
  | none => exact ⟨w, by rw [World.unbindInstance, hbound], hinv⟩
  | some ptr =>
    obtain ⟨save, m', _, _, hremove, _, hinv'⟩ := hinv.unbind around hbound
    refine ⟨_, ?_, hinv'⟩
    rw [World.unbindInstance, hbound]
    simp only [hremove, Option.map_some]

/-! One bind more -/

theorem Inv.add (hinv : Inv stores w) (hsave : w.mgr.saves.lookup ptr = some save)
    (hid : w.mgr.instanceSaveById.lookup save.instanceId = some ptr)
    (hnone : w.bound h save.place = none) (hmgr : w'.mgr = w.mgr.modifySave ptr (.add h))
    (hbound : ∀ h' place, w'.bound h' place =
      if h' = h ∧ place = save.place then some ptr else w.bound h' place) : Inv stores w' := by
  have hself : w'.mgr.saves.lookup ptr = some (save.add h) := by
    rw [hmgr, InstanceSaveManager.modifySave, Assoc.lookup_modify_self, hsave]
    rfl
  have hother : ∀ i, i ≠ ptr → w'.mgr.saves.lookup i = w.mgr.saves.lookup i := by
    intro i hi
    rw [hmgr]
    exact Assoc.lookup_modify_ne hi _ _
  have hids : w'.mgr.instanceSaveById = w.mgr.instanceSaveById := by rw [hmgr]; rfl
  have hdata : (save.add h).place = save.place ∧ (save.add h).instanceId = save.instanceId ∧
      (save.add h).toDelete = save.toDelete ∧ (save.add h).mapId = save.mapId ∧
      (save.add h).difficulty = save.difficulty := by
    cases h <;> exact ⟨rfl, rfl, rfl, rfl, rfl⟩
  have hbefore : ∀ i s, w'.mgr.saves.lookup i = some s →
      i ≠ ptr ∧ w.mgr.saves.lookup i = some s ∨ i = ptr ∧ s = save.add h := by
    intro i s hs
    by_cases hi : i = ptr
    · subst hi
      exact .inr ⟨rfl, Option.some.inj (hs.symm.trans hself)⟩
    · exact .inl ⟨hi, (hother i hi).symm.trans hs⟩
  constructor
  · constructor
    case bound =>
      intro h' place i hi
      rw [hids]
      rw [hbound] at hi
      by_cases hsame : h' = h ∧ place = save.place
      · rw [if_pos hsame] at hi
        obtain rfl := Option.some.inj hi
        exact ⟨_, hself, hdata.1.trans hsame.2.symm, hdata.2.1 ▸ hid⟩
      · rw [if_neg hsame] at hi
        obtain ⟨s, hs, hsplace, hsid⟩ := hinv.bound h' place i hi
        by_cases hptr : i = ptr
        · subst hptr
          obtain rfl := Option.some.inj (hsave.symm.trans hs)
          exact ⟨_, hself, hdata.1.trans hsplace, hdata.2.1 ▸ hid⟩
        · exact ⟨s, (hother i hptr).trans hs, hsplace, hsid⟩
    case count =>
      intro i s hs h'
      rw [hbound]
      cases hbefore i s hs with
      | inl hold =>
        rw [hinv.count i s hold.2 h']
        by_cases hsame : h' = h ∧ s.place = save.place
        · rw [if_pos hsame, hsame.1, hsame.2, hnone, if_neg (by simp)]
          rw [if_neg fun heq => hold.1 (Option.some.inj heq).symm]
        · rw [if_neg hsame]
      | inr hnew =>
        obtain ⟨rfl, rfl⟩ := hnew
        rw [InstanceSave.count_add, hdata.1, hinv.count i save hsave h']
        by_cases hsame : h' = h
        · simp [hsame, hnone]
        · simp [hsame]
  case registered =>
    intro id i hlookup
    rw [hids] at hlookup
    obtain ⟨s, hs, hsid, hsdelete⟩ := hinv.registered id i hlookup
    by_cases hi : i = ptr
    · subst hi
      obtain rfl := Option.some.inj (hsave.symm.trans hs)
      exact ⟨_, hself, hdata.2.1.trans hsid, hdata.2.2.1.trans hsdelete⟩
    · exact ⟨s, (hother i hi).trans hs, hsid, hsdelete⟩
  case fresh =>
    intro i s hs
    rw [hmgr]
    cases hbefore i s hs with
    | inl hold => exact hinv.fresh i s hold.2
    | inr hnew => exact hnew.1 ▸ hinv.fresh ptr save hsave
  case known =>
    intro i s hs
    cases hbefore i s hs with
    | inl hold => exact hinv.known i s hold.2
    | inr hnew =>
      rw [hnew.2, hdata.2.2.2.1, hdata.2.2.2.2]
      exact hinv.known ptr save hsave

/-- The saves after `BindToInstance`, for any world that has the bind besides. -/
theorem Inv.rebind (hinv : Inv stores w) (around : Around) (h : Holder)
    (hsave : w.mgr.saves.lookup ptr = some save)
    (hid : w.mgr.instanceSaveById.lookup save.instanceId = some ptr) :
    ∃ m', w.rebind around h save.place ptr = some m' ∧ ∀ w' : World, w'.mgr = m' →
      (∀ h' place, w'.bound h' place =
        if h' = h ∧ place = save.place then some ptr else w.bound h' place) → Inv stores w' := by
  by_cases hsame : w.bound h save.place = some ptr
  · refine ⟨w.mgr, if_pos hsame, fun w' hmgr hbound => hinv.congr hmgr fun h' place => ?_⟩
    rw [hbound]
    by_cases hplace : h' = h ∧ place = save.place
    · rw [if_pos hplace, hplace.1, hplace.2, hsame]
    · rw [if_neg hplace]
  · cases hbound : w.bound h save.place with
    | none =>
      refine ⟨_, ?_, fun w' hmgr hbound' => hinv.add hsave hid hbound hmgr hbound'⟩
      rw [World.rebind, if_neg hsame, hbound]
      simp only [InstanceSaveManager.addHolder, hsave]
    | some old =>
      have hold : ptr ≠ old := by
        rintro rfl
        exact hsame hbound
      obtain ⟨save₀, m', hsave₀, hplace₀, hremove, hremoved, hinv'⟩ := hinv.unbind around hbound
      have hstill : m'.saves.lookup ptr = some save := (hremoved.other ptr hold).trans hsave
      have hid' : m'.instanceSaveById.lookup save.instanceId = some ptr := by
        cases hremoved.outcome with
        | inl hkept => rw [hkept.2, hid]
        | inr hgone =>
          have hne : save.instanceId ≠ save₀.instanceId := by
            intro heq
            obtain ⟨_, hfound, _, hold'⟩ := hinv.bound h save.place old hbound
            obtain rfl := Option.some.inj (hsave₀.symm.trans hfound)
            rw [← heq] at hold'
            exact hold (Option.some.inj (hid.symm.trans hold'))
          rw [hgone.2.2.2, AList.lookup_erase_ne hne, hid]
      refine ⟨m'.modifySave ptr (.add h), ?_, fun w' hmgr hbound' => ?_⟩
      · rw [World.rebind, if_neg hsame, hbound]
        simp only [hremove, Option.bind_some, InstanceSaveManager.addHolder, hstill]
      · refine @Inv.add stores _ w' h ptr save hinv' ?_ ?_ ?_ ?_ fun h' place => ?_
        · rwa [World.eraseBind_mgr]
        · rwa [World.eraseBind_mgr]
        · rw [World.bound_eraseBind, if_pos ⟨rfl, rfl⟩]
        · rwa [World.eraseBind_mgr]
        · rw [hbound', World.bound_eraseBind, World.bound_mgr]
          by_cases hplace : h' = h ∧ place = save.place
          · rw [if_pos hplace, if_pos hplace]
          · rw [if_neg hplace, if_neg hplace]
            exact (if_neg hplace).symm

/-- A change of a save that leaves its lists, its id and its place. -/
theorem Inv.modifySave (hinv : Inv stores w) (ptr : Nat) {f : InstanceSave → InstanceSave}
    (hmgr : w'.mgr = w.mgr.modifySave ptr f)
    (hbound : ∀ h place, w'.bound h place = w.bound h place)
    (hf : ∀ s, (∀ h, (f s).count h = s.count h) ∧ (f s).instanceId = s.instanceId ∧
      (f s).mapId = s.mapId ∧ (f s).difficulty = s.difficulty ∧ (f s).toDelete = s.toDelete) :
    Inv stores w' := by
  have hplace : ∀ s, (f s).place = s.place := by
    intro s
    simp only [InstanceSave.place, (hf s).2.2.1, (hf s).2.2.2.1]
  have hids : w'.mgr.instanceSaveById = w.mgr.instanceSaveById := by rw [hmgr]; rfl
  have hafter : ∀ i s, w.mgr.saves.lookup i = some s → ∃ s', w'.mgr.saves.lookup i = some s' ∧
      (s' = s ∨ s' = f s) := by
    intro i s hs
    rw [hmgr, InstanceSaveManager.modifySave, Assoc.lookup_modify, hs]
    by_cases hi : i = ptr
    · exact ⟨f s, if_pos hi, .inr rfl⟩
    · exact ⟨s, if_neg hi, .inl rfl⟩
  have hbefore : ∀ i s', w'.mgr.saves.lookup i = some s' → ∃ s, w.mgr.saves.lookup i = some s ∧
      (s' = s ∨ s' = f s) := by
    intro i s' hs'
    rw [hmgr, InstanceSaveManager.modifySave, Assoc.lookup_modify] at hs'
    by_cases hi : i = ptr
    · rw [if_pos hi] at hs'
      obtain ⟨s, hs, rfl⟩ := Option.map_eq_some_iff.mp hs'
      exact ⟨s, hs, .inr rfl⟩
    · rw [if_neg hi] at hs'
      exact ⟨s', hs', .inl rfl⟩
  constructor
  · constructor
    case bound =>
      intro h place i hi
      rw [hbound] at hi
      rw [hids]
      obtain ⟨s, hs, hsplace, hsid⟩ := hinv.bound h place i hi
      obtain ⟨s', hs', rfl | rfl⟩ := hafter i s hs
      · exact ⟨_, hs', hsplace, hsid⟩
      · exact ⟨_, hs', (hplace s).trans hsplace, by rwa [(hf s).2.1]⟩
    case count =>
      intro i s' hs' h
      rw [hbound]
      obtain ⟨s, hs, rfl | rfl⟩ := hbefore i s' hs'
      · exact hinv.count i _ hs h
      · rw [(hf s).1, hplace, hinv.count i s hs h]
  case registered =>
    intro id i hlookup
    rw [hids] at hlookup
    obtain ⟨s, hs, hsid, hsdelete⟩ := hinv.registered id i hlookup
    obtain ⟨s', hs', rfl | rfl⟩ := hafter i s hs
    · exact ⟨_, hs', hsid, hsdelete⟩
    · exact ⟨_, hs', (hf s).2.1.trans hsid, (hf s).2.2.2.2.trans hsdelete⟩
  case fresh =>
    intro i s' hs'
    rw [hmgr]
    obtain ⟨s, hs, _⟩ := hbefore i s' hs'
    exact hinv.fresh i s hs
  case known =>
    intro i s' hs'
    obtain ⟨s, hs, rfl | rfl⟩ := hbefore i s' hs'
    · exact hinv.known i _ hs
    · rw [(hf s).2.2.1, (hf s).2.2.2.1]
      exact hinv.known i s hs

end Ashamane.Binds
