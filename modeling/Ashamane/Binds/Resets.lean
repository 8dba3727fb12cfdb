import Ashamane.Binds.Runs

/-! The resets of a group's instances and of a save: their loops end, and the agreement stays. -/
namespace Ashamane.Binds
open Ashamane.Lib

variable {stores : Stores} {around : Around} {w w' : World} {place : Nat × Nat} {ptr p g : Nat}
  {save : InstanceSave} {h : Holder}

/-! The instances of a group -/

theorem Inv.nextReset (hinv : Inv stores w) (around : Around) (method : InstanceResetMethod)
    (isRaid : Bool) (g : Nat) (places : List (Nat × Nat)) :
    w.nextReset stores around method isRaid g places = some none ∨
      ∃ place ptr, w.nextReset stores around method isRaid g places = some (some (place, ptr)) ∧
        w.bound (.group g) place = some ptr := by
  induction places with
  | nil => exact .inl rfl
  | cons place rest ih =>
    rw [World.nextReset]
    cases hbind : (w.groups g).lookup place with
    | none => exact ih
    | some bind =>
      have hbound : w.bound (.group g) place = some bind.save := by simp [World.bound, hbind]
      obtain ⟨save, hsave, _, _⟩ := hinv.bound _ _ _ hbound
      simp only [hsave]
      by_cases hresets : World.resets stores around method isRaid place save
      · exact .inr ⟨place, bind.save, if_pos hresets, hbound⟩
      · rw [if_neg hresets]
        exact ih

theorem Inv.resetLoop (hinv : Inv stores w) (around : Around) (method : InstanceResetMethod)
    (isRaid : Bool) (g difficulty turns : Nat) (hturns : (w.groups g).keys.length < turns) :
    ∃ w', World.resetLoop stores around method isRaid g difficulty turns w = some w' ∧
      Inv stores w' := by
  induction turns generalizing w with
  | zero => omega
  | succ turns ih =>
    rw [World.resetLoop]
    cases hinv.nextReset around method isRaid g
        ((w.groups g).keys.filter fun place => place.1 = difficulty) with
    | inl hnone => exact ⟨w, by rw [hnone], hinv⟩
    | inr hnext =>
      obtain ⟨place, ptr, hsome, hbound⟩ := hnext
      obtain ⟨_, m', _, _, hremove, _, hinv'⟩ := hinv.unbind around hbound
      have hmem : place ∈ (w.groups g).keys := by
        rw [← AList.mem_keys, ← AList.lookup_isSome]
        rw [World.bound] at hbound
        obtain ⟨bind, hbind, _⟩ := Option.map_eq_some_iff.mp hbound
        rw [hbind]
        rfl
      simp only [hsome, World.eraseBind_mgr, hremove, Option.bind_some]
      refine ih (w := { w with mgr := m' }.eraseBind (.group g) place) hinv' ?_
      simp only [World.eraseBind, Function.update_self, AList.keys_erase]
      have hlength := @List.length_erase_of_mem _ instBEqOfDecidableEq inferInstance _ _ hmem
      have hpos := List.length_pos_of_mem hmem
      omega

theorem Inv.resetInstances (hinv : Inv stores w) (around : Around) (g : Nat)
    (method : InstanceResetMethod) (isRaid : Bool) (difficulty : Nat) :
    ∃ w', w.resetInstances stores around g method isRaid difficulty = some w' ∧
      Inv stores w' := by
  rw [World.resetInstances]
  by_cases hbg : around.isBGGroup g
  · exact ⟨w, if_pos hbg, hinv⟩
  · rw [if_neg hbg]
    exact hinv.resetLoop around method isRaid g difficulty _ (Nat.lt_succ_self _)

/-! The players of a save -/

theorem Inv.setLock (hinv : Inv stores w) (lock : Bool) : Inv stores (w.setLock lock) := by
  have hbound : ∀ h place, (w.setLock lock).bound h place = w.bound h place :=
    fun h place => World.bound_mgr w _ h place
  constructor
  · constructor
    · exact fun h place ptr hb => hinv.bound h place ptr ((hbound h place) ▸ hb)
    · intro ptr save hsave h
      rw [hbound]
      exact hinv.count ptr save hsave h
  · exact hinv.registered
  · exact hinv.fresh
  · exact hinv.known

/-- What the players' loop comes to: all of them are to be unbound, unless the save stays. -/
theorem Inv.expireBinds (hsave : w.mgr.saves.lookup ptr = some save) (l : List Nat)
    (e : World.Expired) (hinv : Inv stores e.world) (hmgr : e.world.mgr = w.mgr)
    (hl : ∀ p ∈ l, e.world.bound (.player p) save.place = some ptr) :
    ∃ e', l.foldlM (World.expireBind stores ptr save) e = some e' ∧ Inv stores e'.world ∧
      e'.world.mgr = w.mgr ∧ (∀ h place, e'.world.bound h place = e.world.bound h place) ∧
      (e'.shouldDelete = true → e.shouldDelete = true ∧ e'.temp = e.temp ++ l) := by
  induction l generalizing e with
  | nil =>
    exact ⟨e, rfl, hinv, hmgr, fun _ _ => rfl, fun hdelete => ⟨hdelete, (List.append_nil _).symm⟩⟩
  | cons p l ih =>
    have hp := hl p List.mem_cons_self
    rw [World.bound] at hp
    obtain ⟨bind, hbind, rfl⟩ := Option.map_eq_some_iff.mp hp
    have hknown := hinv.known bind.save save (hmgr ▸ hsave)
    have hget : e.world.playerGetBoundInstance stores p save.mapId save.difficulty =
        (some bind).filter (·.extendState ≠ .expired) := by
      rw [World.playerGetBoundInstance, hknown]
      simp only [if_true]
      rw [show (e.world.players p).lookup (save.difficulty, save.mapId) = some bind from hbind]
    -- one player: put down to be unbound, or kept
    obtain ⟨e₁, he₁, hinv₁, hmgr₁, hbound₁, htemp₁⟩ : ∃ e₁,
        World.expireBind stores bind.save save e p = some e₁ ∧ Inv stores e₁.world ∧
        e₁.world.mgr = w.mgr ∧ (∀ h place, e₁.world.bound h place = e.world.bound h place) ∧
        (e₁.shouldDelete = true → e.shouldDelete = true ∧ e₁.temp = e.temp ++ [p]) := by
      rw [World.expireBind, hget]
      by_cases hexpired : bind.extendState = .expired
      · exact ⟨{ e with temp := e.temp ++ [p] }, by simp [Option.filter, hexpired], hinv, hmgr,
          fun _ _ => rfl, fun hdelete => ⟨hdelete, rfl⟩⟩
      · have hfilter : (some bind).filter (·.extendState ≠ .expired) = some bind := by
          simp [Option.filter, hexpired]
        simp only [hfilter, ne_eq, not_true_eq_false, if_false]
        by_cases hperm : bind.perm
        · simp only [if_pos hperm]
          have hsame : ∀ h' place', (e.world.setPlayerBind p
              ((stores.getDownscaledMapDifficultyData save.mapId save.difficulty).2, save.mapId)
              { bind with extendState :=
                  if bind.extendState = .extended then .normal else .expired }).bound h' place' =
              e.world.bound h' place' := by
            intro h' place'
            rw [World.bound_setPlayerBind, hknown]
            by_cases hcase : h' = .player p ∧ place' = (save.difficulty, save.mapId)
            · rw [if_pos hcase, hcase.1, hcase.2]
              exact (hl p List.mem_cons_self).symm
            · exact if_neg hcase
          exact ⟨_, rfl, hinv.congr rfl hsame, hmgr, hsame, fun hdelete => by cases hdelete⟩
        · simp only [if_neg hperm]
          exact ⟨{ e with temp := e.temp ++ [p] }, rfl, hinv, hmgr, fun _ _ => rfl,
            fun hdelete => ⟨hdelete, rfl⟩⟩
    obtain ⟨e', he', hinv', hmgr', hbound', htemp'⟩ := ih e₁ hinv₁ hmgr₁ fun q hq =>
      (hbound₁ _ _).trans (hl q (List.mem_cons_of_mem _ hq))
    refine ⟨e', ?_, hinv', hmgr', fun h place => (hbound' h place).trans (hbound₁ h place), ?_⟩
    · rw [List.foldlM_cons, he₁]
      exact he'
    · intro hdelete
      obtain ⟨hdelete₁, htemp⟩ := htemp' hdelete
      obtain ⟨hdelete₀, htemp₀⟩ := htemp₁ hdelete₁
      exact ⟨hdelete₀, by rw [htemp, htemp₀, List.append_assoc]; rfl⟩

theorem Inv.unbind_locked (hinv : Inv stores w) (around : Around) (h : Holder)
    (place : Nat × Nat) (hlock : w.mgr.lockInstLists = true) :
    ∃ w', w.unbindInstance around h place = some w' ∧ Inv stores w' ∧
      w'.mgr.lockInstLists = true ∧ w'.mgr.instanceSaveById = w.mgr.instanceSaveById ∧
      (∀ h' place', w'.bound h' place' =
        if h' = h ∧ place' = place then none else w.bound h' place') ∧
      ∀ ptr save, w.mgr.saves.lookup ptr = some save → w'.mgr.saves.lookup ptr =
        some (if w.bound h place = some ptr then save.remove h else save) := by
  cases hbound : w.bound h place with
  | none =>
    refine ⟨w, by rw [World.unbindInstance, hbound], hinv, hlock, rfl, fun h' place' => ?_,
      fun ptr save hsave => by simpa using hsave⟩
    by_cases hsame : h' = h ∧ place' = place
    · rw [if_pos hsame, hsame.1, hsame.2, hbound]
    · rw [if_neg hsame]
  | some ptr =>
    obtain ⟨save, m', hsave, _, hremove, hremoved, hinv'⟩ := hinv.unbind around hbound
    obtain ⟨hself, hids⟩ : m'.saves.lookup ptr = some (save.remove h) ∧
        m'.instanceSaveById = w.mgr.instanceSaveById := by
      cases hremoved.outcome with
      | inl hkept => exact hkept
      | inr hgone =>
        rw [hlock] at hgone
        cases hgone.1
    refine ⟨_, ?_, hinv', ?_, ?_, fun h' place' => ?_, fun i s hs => ?_⟩
    · rw [World.unbindInstance, hbound]
      simp only [hremove, Option.map_some]
    · rw [World.eraseBind_mgr]
      exact hremoved.lock.trans hlock
    · rw [World.eraseBind_mgr]
      exact hids
    · rw [World.bound_eraseBind, World.bound_mgr]
    · rw [World.eraseBind_mgr]
      by_cases hi : i = ptr
      · subst hi
        obtain rfl := Option.some.inj (hsave.symm.trans hs)
        rw [if_pos rfl]
        exact hself
      · rw [if_neg fun heq => hi (Option.some.inj heq).symm]
        exact (hremoved.other i hi).trans hs

theorem Inv.unbindPlayers (around : Around) (place : Nat × Nat) (l : List Nat)
    (hinv : Inv stores w) (hlock : w.mgr.lockInstLists = true)
    (hsave : w.mgr.saves.lookup ptr = some save) :
    ∃ w' save', l.foldlM (fun w p => World.unbindInstance around w (.player p) place) w =
        some w' ∧ Inv stores w' ∧ w'.mgr.lockInstLists = true ∧
      w'.mgr.instanceSaveById = w.mgr.instanceSaveById ∧
      w'.mgr.saves.lookup ptr = some save' ∧ save'.groupList = save.groupList ∧
      save'.place = save.place ∧ save'.instanceId = save.instanceId ∧
      (∀ h place i, w'.bound h place = some i → w.bound h place = some i) ∧
      ∀ p ∈ l, w'.bound (.player p) place = none := by
  induction l generalizing w save with
  | nil => exact ⟨w, save, rfl, hinv, hlock, rfl, hsave, rfl, rfl, rfl, fun _ _ _ h => h,
      fun p hp => by cases hp⟩
  | cons p l ih =>
    obtain ⟨w₁, hw₁, hinv₁, hlock₁, hids₁, hbound₁, hsaves₁⟩ :=
      hinv.unbind_locked around (.player p) place hlock
    obtain ⟨w', save', hw', hinv', hlock', hids', hsave', hgroups, hplace, hid, hless, hnone⟩ :=
      ih hinv₁ hlock₁ (hsaves₁ ptr save hsave)
    have hdata : ∀ s : InstanceSave, s = save ∨ s = save.remove (.player p) →
        s.groupList = save.groupList ∧ s.place = save.place ∧ s.instanceId = save.instanceId := by
      rintro s (rfl | rfl) <;> exact ⟨rfl, rfl, rfl⟩
    have hstep := hdata (if w.bound (.player p) place = some ptr then save.remove (.player p)
      else save) (by split <;> simp)
    refine ⟨w', save', ?_, hinv', hlock', hids'.trans hids₁, hsave', hgroups.trans hstep.1,
      hplace.trans hstep.2.1, hid.trans hstep.2.2, fun h place' i hi => ?_, fun q hq => ?_⟩
    · rw [List.foldlM_cons, hw₁]
      exact hw'
    · have hmid := hless h place' i hi
      rw [hbound₁] at hmid
      by_cases hsame : h = .player p ∧ place' = place
      · rw [if_pos hsame] at hmid
        cases hmid
      · rwa [if_neg hsame] at hmid
    · cases List.mem_cons.mp hq with
      | inr hmem => exact hnone q hmem
      | inl heq =>
        subst heq
        by_contra hsome
        obtain ⟨i, hi⟩ := Option.ne_none_iff_exists'.mp hsome
        have hmid := hless _ _ i hi
        rw [hbound₁, if_pos ⟨rfl, rfl⟩] at hmid
        cases hmid

theorem Inv.unbindGroups (around : Around) (turns : Nat) (hinv : Inv stores w)
    (hlock : w.mgr.lockInstLists = true) (hsave : w.mgr.saves.lookup ptr = some save)
    (hturns : save.groupList.length < turns) :
    ∃ w' save', World.unbindGroups around ptr turns w = some w' ∧ Inv stores w' ∧
      w'.mgr.instanceSaveById = w.mgr.instanceSaveById ∧
      w'.mgr.saves.lookup ptr = some save' ∧ save'.groupList = [] ∧
      save'.playerList = save.playerList ∧ save'.instanceId = save.instanceId := by
  induction turns generalizing w save with
  | zero => omega
  | succ turns ih =>
    rw [World.unbindGroups]
    simp only [hsave]
    cases hgroups : save.groupList with
    | nil => exact ⟨w, save, rfl, hinv, rfl, hsave, hgroups, rfl, rfl⟩
    | cons g rest =>
      obtain ⟨w₁, hw₁, hinv₁, hlock₁, hids₁, _, hsaves₁⟩ :=
        hinv.unbind_locked around (.group g) save.place hlock
      have hbound : w.bound (.group g) save.place = some ptr := by
        by_contra hnot
        have hcount := hinv.count ptr save hsave (.group g)
        rw [if_neg hnot, InstanceSave.count, hgroups] at hcount
        simp at hcount
      have hself := hsaves₁ ptr save hsave
      rw [if_pos hbound] at hself
      have hshorter : (save.remove (.group g)).groupList.length < turns := by
        have hle : (rest.filter (· ≠ g)).length ≤ rest.length := List.length_filter_le _ _
        rw [hgroups, List.length_cons] at hturns
        simp only [InstanceSave.remove, hgroups]
        rw [List.filter_cons_of_neg (by simp)]
        omega
      obtain ⟨w', save', hw', hinv', hids', hsave', hnil, hplayers, hid⟩ :=
        ih hinv₁ hlock₁ hself hshorter
      refine ⟨w', save', ?_, hinv', hids'.trans hids₁, hsave', hnil, hplayers, hid⟩
      simp only [hw₁, Option.bind_some]
      exact hw'

/-! The reset of a save -/

theorem Inv.resetSave (hinv : Inv stores w) (around : Around) (instanceId : Nat) :
    ∃ w', w.resetSave stores around instanceId = some w' ∧ Inv stores w' := by
  rw [World.resetSave]
  cases hid : w.mgr.instanceSaveById.lookup instanceId with
  | none => exact ⟨w, rfl, hinv⟩
  | some ptr =>
    obtain ⟨save, hsave, rfl, _⟩ := hinv.registered instanceId ptr hid
    simp only [hsave]
    have hlisted : ∀ p, p ∈ save.playerList ↔ w.bound (.player p) save.place = some ptr := by
      intro p
      have hcount := hinv.count ptr save hsave (.player p)
      rw [InstanceSave.count] at hcount
      rw [← List.count_pos_iff, hcount]
      by_cases hbound : w.bound (.player p) save.place = some ptr <;> simp [hbound]
    have hlocked : ∀ h place, (w.setLock true).bound h place = w.bound h place :=
      fun h place => World.bound_mgr w _ h place
    obtain ⟨e, he, hinv₁, hmgr₁, hbound₁, htemp⟩ := Inv.expireBinds (w := w.setLock true)
      hsave save.playerList ⟨w.setLock true, [], true⟩ (hinv.setLock true) rfl
      fun p hp => (hlocked _ _).trans ((hlisted p).mp hp)
    rw [he, Option.bind_some]
    have hsave₁ : e.world.mgr.saves.lookup ptr = some save := by rw [hmgr₁]; exact hsave
    obtain ⟨w₂, save₂, hw₂, hinv₂, hlock₂, hids₂, hsave₂, hgroups₂, hplace₂, hid₂, hless₂,
        hnone₂⟩ :=
      hinv₁.unbindPlayers around save.place e.temp (by rw [hmgr₁]; rfl) hsave₁
    rw [hw₂, Option.bind_some]
    obtain ⟨w₃, save₃, hw₃, hinv₃, hids₃, hsave₃, hgroups₃, hplayers₃, hid₃⟩ :=
      hinv₂.unbindGroups around (save.groupList.length + 1) hlock₂ hsave₂
        (by rw [hgroups₂]; exact Nat.lt_succ_self _)
    rw [hw₃, Option.bind_some]
    by_cases hdelete : e.shouldDelete = true
    · -- everybody on the list was put down, so nobody is left
      obtain ⟨_, hall⟩ := htemp hdelete
      have hplayers₂ : save₂.playerList = [] := by
        refine List.eq_nil_iff_forall_not_mem.mpr fun p hp => ?_
        have hcount := hinv₂.count ptr save₂ hsave₂ (.player p)
        have hpos := List.count_pos_iff.mpr hp
        rw [InstanceSave.count] at hcount
        have hbound₂ : w₂.bound (.player p) save.place = some ptr := by
          by_contra hnot
          rw [hplace₂, if_neg hnot] at hcount
          omega
        have hbound := hless₂ _ _ _ hbound₂
        rw [hbound₁, hlocked] at hbound
        have hmem : p ∈ e.temp := by
          rw [hall]
          exact List.mem_append_right _ ((hlisted p).mpr hbound)
        rw [hnone₂ p hmem] at hbound₂
        cases hbound₂
      have hempty : save₃.isEmpty = true := by
        simp [InstanceSave.isEmpty, hgroups₃, hplayers₃, hplayers₂]
      have hidsave : save₃.instanceId = save.instanceId := hid₃.trans hid₂
      have hids : w₃.mgr.instanceSaveById = w.mgr.instanceSaveById := by
        rw [hids₃, hids₂, hmgr₁]
        rfl
      rw [if_pos hdelete]
      simp only [InstanceSaveManager.delete, hsave₃, hempty, if_true, Option.map_some]
      refine ⟨_, rfl, Inv.setLock ?_ false⟩
      refine hinv₃.forget hsave₃ hempty rfl (fun i hi => AList.lookup_erase_ne hi) ?_ ?_ ?_
      · intro s hs
        rw [AList.lookup_erase] at hs
        cases hs
      · rw [hidsave]
      · rw [hids, hidsave, hid]
    · rw [if_neg hdelete]
      exact ⟨_, rfl, hinv₃.setLock false⟩

/-! Runs -/

theorem Inv.apply (hinv : Inv stores w) (step : Around × Op)
    (hexists : ∀ around instanceId mapId difficulty canReset,
      step = (around, .addInstanceSave instanceId mapId difficulty canReset) →
        stores.getDownscaledMapDifficultyData mapId difficulty = (true, difficulty)) :
    ∃ w', World.apply stores w step = some w' ∧ Inv stores w' := by
  obtain ⟨around, op⟩ := step
  cases op with
  | addInstanceSave instanceId mapId difficulty canReset =>
    exact ⟨_, rfl, hinv.addInstanceSave instanceId mapId difficulty canReset
      (hexists around instanceId mapId difficulty canReset rfl)⟩
  | playerBindToInstance player instanceId permanent extendState =>
    rw [World.apply]
    cases hid : w.mgr.instanceSaveById.lookup instanceId with
    | none => exact ⟨w, rfl, hinv⟩
    | some ptr =>
      obtain ⟨save, hsave, rfl, _⟩ := hinv.registered instanceId ptr hid
      exact hinv.playerBindToInstance around player hsave hid permanent extendState
  | playerUnbindInstance player mapId difficulty =>
    exact hinv.unbindInstance around (.player player) (difficulty, mapId)
  | groupBindToInstance group instanceId permanent =>
    rw [World.apply]
    cases hid : w.mgr.instanceSaveById.lookup instanceId with
    | none => exact ⟨w, rfl, hinv⟩
    | some ptr =>
      obtain ⟨save, hsave, rfl, _⟩ := hinv.registered instanceId ptr hid
      exact hinv.groupBindToInstance around group hsave hid permanent
  | groupUnbindInstance group mapId difficulty =>
    exact hinv.unbindInstance around (.group group) (difficulty, mapId)
  | resetInstances group method isRaid difficulty =>
    exact hinv.resetInstances around group method isRaid difficulty
  | changeLeader group newLeader => exact hinv.changeLeader around group newLeader
  | convertLeaderInstancesToGroup player group switchLeader playerMap =>
    exact hinv.convertLeaderInstancesToGroup around player group switchLeader playerMap
  | resetSave instanceId => exact hinv.resetSave around instanceId
  | unloadInstanceSave instanceId => exact ⟨_, rfl, hinv.unloadInstanceSave around instanceId⟩

/-- On maps where the requested difficulties exist, every run of operations answers: no loop goes
on, no assertion fails and no deleted save is touched. Afterwards binds and saves agree. -/
theorem run_agrees (stores : Stores) (steps : List (Around × Op))
    (hexists : ∀ around instanceId mapId difficulty canReset,
      (around, Op.addInstanceSave instanceId mapId difficulty canReset) ∈ steps →
        stores.getDownscaledMapDifficultyData mapId difficulty = (true, difficulty)) :
    ∃ w, steps.foldlM (World.apply stores) World.new = some w ∧ Agrees w := by
  obtain ⟨w, hw, hinv⟩ := Fuel.foldlM_ends (l := steps) (Inv.new stores)
    fun w hinv step hstep => hinv.apply step fun around instanceId mapId difficulty canReset heq =>
      hexists around instanceId mapId difficulty canReset (heq ▸ hstep)
  exact ⟨w, hw, hinv.toAgrees⟩

def everyDifficulty : Stores where
  getDownscaledMapDifficultyData _ difficulty := (true, difficulty)
  isRaid _ := some true

def nothingLoaded : Around where
  findMap _ _ := none
  isBGGroup _ := false

theorem run_agrees_reset :
    ∃ w, [(nothingLoaded, Op.addInstanceSave 7 631 5 true),
      (nothingLoaded, .playerBindToInstance 1 7 true none),
      (nothingLoaded, .groupBindToInstance 3 7 true),
      (nothingLoaded, .resetSave 7)].foldlM (World.apply everyDifficulty) World.new = some w ∧
      Agrees w :=
  run_agrees everyDifficulty _ fun _ _ _ _ _ _ => rfl

end Ashamane.Binds
