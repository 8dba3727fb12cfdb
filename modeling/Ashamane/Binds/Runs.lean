import Ashamane.Binds.Agree

/-! Every operation answers, and keeps the agreement of the binds and the saves. -/
namespace Ashamane.Binds
open Ashamane.Lib

variable {stores : Stores} {w w' : World} {place : Nat × Nat} {ptr p g : Nat}
  {save : InstanceSave}

theorem Inv.new (stores : Stores) : Inv stores World.new := by
  have hnone : ∀ h place, World.new.bound h place = none := by
    intro h place
    cases h <;> simp [World.new, World.bound]
  constructor
  · constructor
    · intro h place ptr hbound
      rw [hnone] at hbound
      cases hbound
    · intro ptr save hsave
      simp [World.new] at hsave
  all_goals simp [World.new]

/-! Saves that come and go -/

theorem Inv.addInstanceSave (hinv : Inv stores w) (instanceId mapId difficulty : Nat)
    (canReset : Bool)
    (hexists : stores.getDownscaledMapDifficultyData mapId difficulty = (true, difficulty)) :
    Inv stores { w with mgr := w.mgr.addInstanceSave instanceId mapId difficulty canReset } := by
  rw [InstanceSaveManager.addInstanceSave]
  by_cases hthere : instanceId ∈ w.mgr.instanceSaveById ∨ instanceId = 0
  · rw [if_pos hthere]
    exact hinv
  rw [if_neg hthere]
  have hfree : w.mgr.instanceSaveById.lookup instanceId = none :=
    AList.lookup_eq_none.mpr fun hmem => hthere (.inl hmem)
  have hold : ∀ i s, w.mgr.saves.lookup i = some s → i ≠ w.mgr.nextSave :=
    fun i s hs => Nat.ne_of_lt (hinv.fresh i s hs)
  constructor
  · constructor
    case bound =>
      intro h place i hi
      rw [World.bound_mgr] at hi
      obtain ⟨s, hs, hsplace, hsid⟩ := hinv.bound h place i hi
      refine ⟨s, (AList.lookup_insert_ne (hold i s hs)).trans hs, hsplace, ?_⟩
      have hne : s.instanceId ≠ instanceId := by
        rintro rfl
        rw [hfree] at hsid
        cases hsid
      exact (AList.lookup_insert_ne hne).trans hsid
    case count =>
      intro i s hs h
      rw [World.bound_mgr]
      by_cases hi : i = w.mgr.nextSave
      · subst hi
        obtain rfl := Option.some.inj ((AList.lookup_insert _).symm.trans hs)
        rw [if_neg]
        · cases h <;> rfl
        · intro hbound
          obtain ⟨s, hs, _, _⟩ := hinv.bound h _ _ hbound
          exact hold _ s hs rfl
      · exact hinv.count i s ((AList.lookup_insert_ne hi).symm.trans hs) h
  case registered =>
    intro id i hlookup
    by_cases hid : id = instanceId
    · subst hid
      obtain rfl := Option.some.inj ((AList.lookup_insert _).symm.trans hlookup)
      exact ⟨_, AList.lookup_insert _, rfl, rfl⟩
    · obtain ⟨s, hs, hsid, hsdelete⟩ :=
        hinv.registered id i ((AList.lookup_insert_ne hid).symm.trans hlookup)
      exact ⟨s, (AList.lookup_insert_ne (hold i s hs)).trans hs, hsid, hsdelete⟩
  case fresh =>
    intro i s hs
    by_cases hi : i = w.mgr.nextSave
    · exact hi ▸ Nat.lt_succ_self _
    · exact Nat.lt_succ_of_lt (hinv.fresh i s ((AList.lookup_insert_ne hi).symm.trans hs))
  case known =>
    intro i s hs
    by_cases hi : i = w.mgr.nextSave
    · subst hi
      obtain rfl := Option.some.inj ((AList.lookup_insert _).symm.trans hs)
      exact hexists
    · exact hinv.known i s ((AList.lookup_insert_ne hi).symm.trans hs)

theorem Inv.forget (hinv : Inv stores w) (hsave : w.mgr.saves.lookup ptr = some save)
    (hempty : save.isEmpty) {m : InstanceSaveManager} (hnext : m.nextSave = w.mgr.nextSave)
    (hother : ∀ i, i ≠ ptr → m.saves.lookup i = w.mgr.saves.lookup i)
    (hself : ∀ s, m.saves.lookup ptr = some s →
      s = { save with toDelete := true })
    (hids : m.instanceSaveById = w.mgr.instanceSaveById.erase save.instanceId)
    (hid : w.mgr.instanceSaveById.lookup save.instanceId = some ptr) :
    Inv stores { w with mgr := m } := by
  have hnone : ∀ h place, w.bound h place ≠ some ptr := by
    intro h place hbound
    obtain ⟨s, hs, hsplace, _⟩ := hinv.bound h place ptr hbound
    obtain rfl := Option.some.inj (hsave.symm.trans hs)
    have hzero := InstanceSave.isEmpty_iff.mp hempty h
    rw [hinv.count ptr save hsave h, hsplace, if_pos hbound] at hzero
    cases hzero
  constructor
  · constructor
    case bound =>
      intro h place i hi
      rw [World.bound_mgr] at hi
      have hne : i ≠ ptr := by
        rintro rfl
        exact hnone h place hi
      obtain ⟨s, hs, hsplace, hsid⟩ := hinv.bound h place i hi
      refine ⟨s, (hother i hne).trans hs, hsplace, ?_⟩
      have hidne : s.instanceId ≠ save.instanceId := by
        intro heq
        rw [heq, hid] at hsid
        exact hne (Option.some.inj hsid).symm
      exact hids ▸ (AList.lookup_erase_ne hidne).trans hsid
    case count =>
      intro i s hs h
      rw [World.bound_mgr]
      by_cases hi : i = ptr
      · subst hi
        rw [if_neg (hnone h _), hself s hs]
        have hzero := InstanceSave.isEmpty_iff.mp hempty h
        cases h <;> exact hzero
      · exact hinv.count i s ((hother i hi).symm.trans hs) h
  case registered =>
    intro id i hlookup
    rw [hids] at hlookup
    by_cases hidne : id = save.instanceId
    · rw [hidne, AList.lookup_erase] at hlookup
      cases hlookup
    · rw [AList.lookup_erase_ne hidne] at hlookup
      obtain ⟨s, hs, hsid, hsdelete⟩ := hinv.registered id i hlookup
      have hne : i ≠ ptr := by
        rintro rfl
        obtain rfl := Option.some.inj (hsave.symm.trans hs)
        exact hidne hsid.symm
      exact ⟨s, (hother i hne).trans hs, hsid, hsdelete⟩
  case fresh =>
    intro i s hs
    rw [hnext]
    by_cases hi : i = ptr
    · exact hi ▸ hinv.fresh ptr save hsave
    · exact hinv.fresh i s ((hother i hi).symm.trans hs)
  case known =>
    intro i s hs
    by_cases hi : i = ptr
    · subst hi
      rw [hself s hs]
      exact hinv.known i save hsave
    · exact hinv.known i s ((hother i hi).symm.trans hs)

theorem Inv.unloadInstanceSave (hinv : Inv stores w) (around : Around) (instanceId : Nat) :
    Inv stores { w with mgr := w.mgr.unloadInstanceSave around instanceId } := by
  rw [InstanceSaveManager.unloadInstanceSave]
  cases hid : w.mgr.instanceSaveById.lookup instanceId with
  | none => exact hinv
  | some ptr =>
    obtain ⟨save, hsave, rfl, _⟩ := hinv.registered instanceId ptr hid
    simp only [InstanceSaveManager.unloadIfEmpty, hsave]
    by_cases hgone : save.isEmpty ∧ around.findMap save.mapId save.instanceId ≠ some true ∧
        w.mgr.lockInstLists = false
    · rw [if_pos hgone, InstanceSaveManager.removeInstanceSave, hid]
      refine hinv.forget hsave hgone.1 rfl (fun i hi => Assoc.lookup_modify_ne hi _ _) ?_ rfl hid
      intro s hs
      have hself := (Assoc.lookup_modify_self ptr
        (fun save : InstanceSave => { save with toDelete := true }) w.mgr.saves).symm.trans hs
      rw [hsave] at hself
      exact (Option.some.inj hself).symm
    · rw [if_neg hgone]
      exact hinv

/-! Binds of players and groups -/

theorem Inv.playerBindToInstance (hinv : Inv stores w) (around : Around) (p : Nat)
    (hsave : w.mgr.saves.lookup ptr = some save)
    (hid : w.mgr.instanceSaveById.lookup save.instanceId = some ptr) (permanent : Bool)
    (extendState : Option BindExtensionState) :
    ∃ w', w.playerBindToInstance around p ptr permanent extendState = some w' ∧
      Inv stores w' := by
  obtain ⟨m', hrebind, hall⟩ := hinv.rebind around (.player p) hsave hid
  simp only [World.playerBindToInstance, hsave, hrebind, Option.map_some]
  refine ⟨_, rfl, ?_⟩
  have hbound : ∀ (m : InstanceSaveManager) bind h' place', bind.save = ptr →
      ({ w with mgr := m }.setPlayerBind p save.place bind).bound h' place' =
        if h' = .player p ∧ place' = save.place then some ptr else w.bound h' place' := by
    rintro m bind h' place' rfl
    rw [World.bound_setPlayerBind, World.bound_mgr]
  cases permanent with
  | false => exact hall _ rfl fun h' place' => hbound _ _ h' place' rfl
  | true =>
    refine (hall ({ w with mgr := m' }.setPlayerBind p save.place ⟨ptr, true, .normal⟩) rfl
      fun h' place' => hbound _ _ h' place' rfl).modifySave ptr rfl (fun h' place' => ?_) ?_
    · rw [hbound _ _ _ _ rfl, hbound _ _ _ _ rfl]
    · exact fun s => ⟨fun h => by cases h <;> rfl, rfl, rfl, rfl, rfl⟩

theorem Inv.groupBindToInstance (hinv : Inv stores w) (around : Around) (g : Nat)
    (hsave : w.mgr.saves.lookup ptr = some save)
    (hid : w.mgr.instanceSaveById.lookup save.instanceId = some ptr) (permanent : Bool) :
    ∃ w', w.groupBindToInstance around g ptr permanent = some w' ∧ Inv stores w' := by
  rw [World.groupBindToInstance]
  by_cases hbg : around.isBGGroup g
  · exact ⟨w, if_pos hbg, hinv⟩
  · obtain ⟨m', hrebind, hall⟩ := hinv.rebind around (.group g) hsave hid
    simp only [if_neg hbg, hsave, hrebind, Option.map_some]
    refine ⟨_, rfl, hall _ rfl fun h' place' => ?_⟩
    rw [World.bound_setGroupBind, World.bound_mgr]

theorem Inv.convertBind (hinv : Inv stores w) (around : Around) (player group : Nat)
    (switchLeader : Bool) (place : Nat × Nat) :
    ∃ w', w.convertBind stores around player group switchLeader place = some w' ∧
      Inv stores w' := by
  rw [World.convertBind]
  cases hbind : (w.players player).lookup place with
  | none => exact ⟨w, rfl, hinv⟩
  | some bind =>
    have hbound : w.bound (.player player) place = some bind.save := by
      simp [World.bound, hbind]
    obtain ⟨save, hsave, _, hid⟩ := hinv.bound _ _ _ hbound
    simp only [hsave]
    obtain ⟨w₁, hw₁, hinv₁⟩ : ∃ w₁, (if !(switchLeader && (w.groupGetBoundInstance stores group
        place.2 save.difficulty).isSome) ∧ bind.extendState ≠ .expired then
          w.groupBindToInstance around group bind.save bind.perm else some w) = some w₁ ∧
        Inv stores w₁ := by
      split
      · exact hinv.groupBindToInstance around group hsave hid bind.perm
      · exact ⟨w, rfl, hinv⟩
    rw [hw₁, Option.bind_some]
    split
    · exact hinv₁.unbindInstance around _ _
    · exact ⟨w₁, rfl, hinv₁⟩

theorem Inv.convertLeaderInstancesToGroup (hinv : Inv stores w) (around : Around)
    (player group : Nat) (switchLeader : Bool) (playerMap : Option Nat) :
    ∃ w', w.convertLeaderInstancesToGroup stores around player group switchLeader playerMap =
      some w' ∧ Inv stores w' := by
  obtain ⟨w₁, hw₁, hinv₁⟩ := Fuel.foldlM_ends (l := walk (w.players player).keys) hinv
    fun w hinv place _ => hinv.convertBind around player group switchLeader place
  rw [World.convertLeaderInstancesToGroup, hw₁, Option.bind_some]
  cases hptr : playerMap.bind w₁.mgr.instanceSaveById.lookup with
  | none => exact ⟨w₁, rfl, hinv₁⟩
  | some ptr =>
    obtain ⟨instanceId, _, hid⟩ := Option.bind_eq_some_iff.mp hptr
    obtain ⟨save, hsave, rfl, _⟩ := hinv₁.registered instanceId ptr hid
    simp only [hsave]
    split
    · exact hinv₁.groupBindToInstance around group hsave hid false
    · exact ⟨w₁, rfl, hinv₁⟩

theorem Inv.dropPermanent (hinv : Inv stores w) (around : Around) (group : Nat)
    (place : Nat × Nat) :
    ∃ w', w.dropPermanent around group place = some w' ∧ Inv stores w' := by
  rw [World.dropPermanent]
  cases hbind : (w.groups group).lookup place with
  | none => exact ⟨w, rfl, hinv⟩
  | some bind =>
    have hbound : w.bound (.group group) place = some bind.save := by
      simp [World.bound, hbind]
    obtain ⟨save, hsave, _, _⟩ := hinv.bound _ _ _ hbound
    simp only [hsave]
    split
    · exact hinv.unbindInstance around _ _
    · exact ⟨w, rfl, hinv⟩

theorem Inv.changeLeader (hinv : Inv stores w) (around : Around) (group newLeader : Nat) :
    ∃ w', w.changeLeader stores around group newLeader = some w' ∧ Inv stores w' := by
  rw [World.changeLeader]
  by_cases hbg : around.isBGGroup group
  · exact ⟨w, if_pos hbg, hinv⟩
  · obtain ⟨w₁, hw₁, hinv₁⟩ := Fuel.foldlM_ends (l := walk (w.groups group).keys) hinv
      fun w hinv place _ => hinv.dropPermanent around group place
    rw [if_neg hbg, hw₁, Option.bind_some]
    exact hinv₁.convertLeaderInstancesToGroup around newLeader group true none

end Ashamane.Binds
