import Ashamane.Pools.Basic
import Mathlib.Data.List.GetD
import Mathlib.Data.Finset.Card

/-! Pools of quests, which are saved and offered for a day or a week. -/
namespace Ashamane.Pools

structure QuestSet where
  ids : List Nat
  sorted : ids.Pairwise (· < ·)
  deriving DecidableEq

namespace QuestSet

instance : Membership Nat QuestSet := ⟨fun quests quest => quest ∈ quests.ids⟩

instance (quest : Nat) (quests : QuestSet) : Decidable (quest ∈ quests) :=
  inferInstanceAs (Decidable (quest ∈ quests.ids))

def empty : QuestSet := ⟨[], .nil⟩

def size (quests : QuestSet) : Nat := quests.ids.length

def place (quest : Nat) : List Nat → List Nat
  | [] => [quest]
  | id :: ids =>
    if quest < id then quest :: id :: ids else if quest = id then id :: ids else id :: place quest ids

theorem mem_place {quest id : Nat} {ids : List Nat} : id ∈ place quest ids ↔ id = quest ∨ id ∈ ids := by
  induction ids with
  | nil => simp [place]
  | cons first rest ih =>
    rw [place]
    split
    · simp
    · split
      next heq => simp [heq]
      · simp only [List.mem_cons, ih]
        tauto

theorem sorted_place (quest : Nat) {ids : List Nat} (h : ids.Pairwise (· < ·)) :
    (place quest ids).Pairwise (· < ·) := by
  induction ids with
  | nil => simp [place]
  | cons first rest ih =>
    obtain ⟨hfirst, hrest⟩ := List.pairwise_cons.mp h
    rw [place]
    split
    next hlt =>
      refine List.pairwise_cons.mpr ⟨fun id hid => ?_, h⟩
      rcases List.mem_cons.mp hid with rfl | hid
      · exact hlt
      · exact Nat.lt_trans hlt (hfirst id hid)
    next hge =>
      split
      · exact h
      next hne =>
        refine List.pairwise_cons.mpr ⟨fun id hid => ?_, ih hrest⟩
        rcases mem_place.mp hid with rfl | hid
        · omega
        · exact hfirst id hid

def insert (quest : Nat) (quests : QuestSet) : QuestSet :=
  ⟨place quest quests.ids, sorted_place quest quests.sorted⟩

def erase (quest : Nat) (quests : QuestSet) : QuestSet :=
  ⟨quests.ids.filter (· != quest), quests.sorted.filter _⟩

variable {quest id : Nat} {quests : QuestSet}

@[simp] theorem mem_insert : id ∈ quests.insert quest ↔ id = quest ∨ id ∈ quests := mem_place

@[simp] theorem mem_erase : id ∈ quests.erase quest ↔ id ∈ quests ∧ id ≠ quest :=
  List.mem_filter.trans (and_congr Iff.rfl bne_iff_ne)

@[simp] theorem notMem_empty : id ∉ empty := List.not_mem_nil

theorem ids_nodup (quests : QuestSet) : quests.ids.Nodup := quests.sorted.imp fun h => Nat.ne_of_lt h

theorem size_eq_card (quests : QuestSet) : quests.size = quests.ids.toFinset.card :=
  (List.toFinset_card_of_nodup quests.ids_nodup).symm

theorem size_insert_le (quest : Nat) (quests : QuestSet) :
    (quests.insert quest).size ≤ quests.size + 1 := by
  have hids : (quests.insert quest).ids.toFinset = Insert.insert quest quests.ids.toFinset := by
    refine Finset.ext fun id => ?_
    rw [List.mem_toFinset, Finset.mem_insert, List.mem_toFinset]
    exact mem_insert
  rw [size_eq_card, size_eq_card, hids]
  exact Finset.card_insert_le quest _

theorem size_erase (h : quest ∈ quests) : (quests.erase quest).size + 1 = quests.size := by
  have hids : (quests.erase quest).ids.toFinset = quests.ids.toFinset.erase quest := by
    refine Finset.ext fun id => ?_
    rw [List.mem_toFinset, Finset.mem_erase, List.mem_toFinset]
    exact mem_erase.trans and_comm
  rw [size_eq_card, size_eq_card, hids, Finset.card_erase_add_one (List.mem_toFinset.mpr h)]

theorem size_eq_zero : quests.size = 0 ↔ ∀ quest, quest ∉ quests :=
  List.length_eq_zero_iff.trans List.eq_nil_iff_forall_not_mem

end QuestSet

def selectRandom (dice : Dice) (quests : QuestSet) (draws : Nat) : Nat :=
  quests.ids.getD (dice.urand draws % quests.size) 0

theorem mem_selectRandom (dice : Dice) {quests : QuestSet} (h : quests.size ≠ 0) (draws : Nat) :
    selectRandom dice quests draws ∈ quests := by
  have hlt : dice.urand draws % quests.size < quests.ids.length :=
    Nat.mod_lt _ (Nat.pos_of_ne_zero h)
  rw [selectRandom, List.getD_eq_getElem _ _ hlt]
  exact List.getElem_mem hlt

theorem exists_selectRandom {quests : QuestSet} {quest : Nat} (h : quest ∈ quests) :
    ∃ dice, ∀ draws, selectRandom dice quests draws = quest := by
  obtain ⟨i, hi, hget⟩ := List.getElem_of_mem h
  refine ⟨⟨fun _ => 0, fun _ => i⟩, fun draws => ?_⟩
  have hsize : i % quests.size = i := Nat.mod_eq_of_lt hi
  rw [selectRandom, hsize, List.getD_eq_getElem _ _ hi, hget]

/-- The dynamic data for quests with the rows that are saved for each pool, the number of random draws
made so far and the quests that have been activated, the last first. `mQuestSearchMap` has one pool
for each quest. What creatures and gameobjects offer is no part of the model. -/
structure QuestMgr where
  spawned : ActivePoolData
  questSearchMap : Nat → Option Nat
  activeQuests : QuestSet
  saved : Nat → List Nat
  draws : Nat
  log : List Nat

namespace QuestMgr

def isActive (s : QuestMgr) (quest : Nat) : Bool := decide (quest ∈ s.activeQuests)

def activateObject (s : QuestMgr) (quest p : Nat) : QuestMgr :=
  { s with
    spawned := s.spawned.setCount p (s.spawned.getActiveObjectCount p + 1)
    activeQuests := s.activeQuests.insert quest
    log := quest :: s.log }

def removeObject (s : QuestMgr) (quest p : Nat) : QuestMgr :=
  { s with
    spawned := s.spawned.setCount p (s.spawned.getActiveObjectCount p - 1)
    activeQuests := s.activeQuests.erase quest }

def despawnObject (g : PoolGroup) (p : Nat) (s : QuestMgr) : QuestMgr :=
  g.guids.foldl (fun s quest => if s.isActive quest then s.removeObject quest p else s) s

def decrement (limit : Nat) : Nat := (limit + 2 ^ 32 - 1) % 2 ^ 32

def loadSaved (p : Nat) : List Nat → Nat → QuestMgr → QuestMgr
  | [], _, s => s
  | quest :: rest, limit, s =>
    let s := s.activateObject quest p
    if decrement limit = 0 then s else loadSaved p rest (decrement limit) s

def selectNew (g : PoolGroup) (s : QuestMgr) : QuestSet :=
  g.equalChanced.foldl
    (fun newQuests obj => if s.isActive obj.guid then newQuests else newQuests.insert obj.guid) .empty

/-- The loop that recycles quests. Each turn takes one of the current quests, so there are at most as
many turns as these. -/
def recycle (dice : Dice) (limit : Nat) : Nat → QuestSet → QuestSet → QuestMgr → QuestSet × QuestMgr
  | 0, newQuests, _, s => (newQuests, s)
  | n + 1, newQuests, currentQuests, s =>
    if newQuests.size < limit ∧ currentQuests.size ≠ 0 then
      let quest := selectRandom dice currentQuests s.draws
      recycle dice limit n (newQuests.insert quest) (currentQuests.erase quest)
        { s with draws := s.draws + 1 }
    else (newQuests, s)

/-- The loop that activates quests, with the number of those that are left as its bound. -/
def activateNew (dice : Dice) (p : Nat) : Nat → Nat → QuestSet → QuestMgr → QuestMgr
  | 0, _, _, s => s
  | n + 1, limit, newQuests, s =>
    let quest := selectRandom dice newQuests s.draws
    let s := { s with draws := s.draws + 1 }.activateObject quest p
    if decrement limit = 0 ∨ (newQuests.erase quest).size = 0 then s
    else activateNew dice p n (decrement limit) (newQuests.erase quest) s

/-- Only rows of pools that have quests are deleted. -/
def saveQuestsToDB (data : Nat → PoolGroup) (s : QuestMgr) : QuestMgr :=
  let rows (p : Nat) : List Nat :=
    (if (data p).isEmpty then s.saved p else []) ++
      s.activeQuests.ids.filter fun quest => s.questSearchMap quest = some p
  { s with saved := rows }

/-- `PoolGroup<Quest>::SpawnObject` for pool `p`; without a trigger the saved quests are loaded. -/
def spawnObject (dice : Dice) (data : Nat → PoolGroup) (p limit triggerFrom : Nat) (s : QuestMgr) :
    QuestMgr :=
  if triggerFrom = 0 ∧ s.saved p ≠ [] then loadSaved p (s.saved p) limit s
  else
    let despawned := s.despawnObject (data p) p
    let (newQuests, recycled) :=
      recycle dice limit s.activeQuests.size (s.selectNew (data p)) s.activeQuests despawned
    if newQuests.size = 0 then recycled
    else
      let activated := activateNew dice p newQuests.size limit newQuests recycled
      if triggerFrom = 0 then activated.saveQuestsToDB data else activated

end QuestMgr

def owned (g : PoolGroup) (ids : List Nat) : Nat := (g.guids.toFinset.filter (· ∈ ids)).card

namespace QuestMgr

variable {s t u : QuestMgr} {p limit : Nat} {g : PoolGroup} {dice : Dice}

structure Activates (s : QuestMgr) (quests : List Nat) (t : QuestMgr) : Prop where
  log : t.log = quests ++ s.log
  active : ∀ quest, quest ∈ t.activeQuests ↔ quest ∈ quests ∨ quest ∈ s.activeQuests

namespace Activates

theorem refl (s : QuestMgr) : Activates s [] s := ⟨rfl, by simp⟩

theorem trans {quests quests' : List Nat} (h : Activates s quests t) (h' : Activates t quests' u) :
    Activates s (quests' ++ quests) u := by
  refine ⟨by rw [h'.log, h.log, List.append_assoc], fun quest => ?_⟩
  rw [h'.active, h.active, List.mem_append, or_assoc]

theorem activateObject (s : QuestMgr) (quest p : Nat) :
    Activates s [quest] (s.activateObject quest p) :=
  ⟨rfl, fun id => by
    rw [List.mem_singleton]
    exact QuestSet.mem_insert⟩

end Activates

theorem decrement_pos (hlimit : limit < 2 ^ 32) (hpos : 0 < limit) : decrement limit = limit - 1 := by
  unfold decrement
  omega

theorem decrement_lt (limit : Nat) : decrement limit < 2 ^ 32 := Nat.mod_lt _ (by decide)

theorem loadSaved_activates (rows : List Nat) (hlimit : limit < 2 ^ 32) :
    ∃ l, Activates s l (loadSaved p rows limit s) ∧ (∀ quest ∈ rows.head?, quest ∈ l) ∧
      (0 < limit → l = (rows.take limit).reverse) := by
  induction rows generalizing limit s with
  | nil => exact ⟨[], .refl s, by simp, by simp⟩
  | cons quest rest ih =>
    have hfirst := Activates.activateObject s quest p
    rw [loadSaved]
    split
    next hend =>
      refine ⟨[quest], hfirst, by simp, fun hpos => ?_⟩
      rw [decrement_pos hlimit hpos] at hend
      obtain rfl : limit = 1 := by omega
      rfl
    next hmore =>
      obtain ⟨l, hrest, -, heq⟩ := @ih (s.activateObject quest p) _ (decrement_lt limit)
      refine ⟨l ++ [quest], hfirst.trans hrest, by simp, fun hpos => ?_⟩
      rw [heq (Nat.pos_of_ne_zero hmore), decrement_pos hlimit hpos]
      obtain ⟨n, rfl⟩ := Nat.exists_eq_add_of_lt hpos
      simp

/-- New quests are activated until the limit is reached or none is left. -/
theorem activateNew_activates {n : Nat} {newQuests : QuestSet} (hn : newQuests.size = n) (hne : n ≠ 0)
    (hlimit : limit < 2 ^ 32) : ∃ l, Activates s l (activateNew dice p n limit newQuests s) ∧
      (∀ quest ∈ l, quest ∈ newQuests) ∧ l ≠ [] ∧ (0 < limit → l.length ≤ limit) ∧
      (0 < limit → n ≤ limit → ∀ quest ∈ newQuests, quest ∈ l) := by
  induction n generalizing limit newQuests s with
  | zero => exact absurd rfl hne
  | succ n ih =>
    have hmem := mem_selectRandom dice (hn ▸ hne) s.draws
    rw [activateNew]
    generalize selectRandom dice newQuests s.draws = first at hmem
    have hsize := QuestSet.size_erase hmem
    have hfirst : Activates s [first] ({ s with draws := s.draws + 1 }.activateObject first p) :=
      ⟨rfl, (Activates.activateObject { s with draws := s.draws + 1 } first p).active⟩
    split
    next hend =>
      refine ⟨[first], hfirst, by simpa using hmem, by simp, fun hpos => hpos, fun hpos hle quest hq => ?_⟩
      have hlast : (newQuests.erase first).size = 0 := by
        rcases hend with hend | hend
        · rw [decrement_pos hlimit hpos] at hend
          omega
        · exact hend
      by_contra hother
      exact QuestSet.size_eq_zero.mp hlast quest (QuestSet.mem_erase.mpr ⟨hq, by simpa using hother⟩)
    next hmore =>
      rw [not_or] at hmore
      obtain ⟨l, hrest, hsub, -, hlength, hall⟩ := @ih
        ({ s with draws := s.draws + 1 }.activateObject first p) (decrement limit)
        (newQuests.erase first) (by omega)
        (by omega) (decrement_lt limit)
      refine ⟨l ++ [first], hfirst.trans hrest, fun quest hq => ?_, by simp, fun hpos => ?_,
        fun hpos hle quest hq => ?_⟩
      · rcases List.mem_append.mp hq with hq | hq
        · exact (QuestSet.mem_erase.mp (hsub quest hq)).1
        · exact List.mem_singleton.mp hq ▸ hmem
      · have hle := hlength (Nat.pos_of_ne_zero hmore.1)
        rw [decrement_pos hlimit hpos] at hle
        rw [List.length_append, List.length_singleton]
        omega
      · by_cases heq : quest = first
        · simp [heq]
        · refine List.mem_append_left _ (hall (Nat.pos_of_ne_zero hmore.1) ?_ quest
            (QuestSet.mem_erase.mpr ⟨hq, heq⟩))
          rw [decrement_pos hlimit hpos]
          omega

structure Recycled (limit : Nat) (newQuests currentQuests : QuestSet) (s : QuestMgr)
    (result : QuestSet × QuestMgr) : Prop where
  log : result.2.log = s.log
  active : result.2.activeQuests = s.activeQuests
  kept : ∀ quest ∈ newQuests, quest ∈ result.1
  drawn : ∀ quest ∈ result.1, quest ∈ newQuests ∨ newQuests.size < limit ∧ quest ∈ currentQuests
  size : result.1.size ≤ max limit newQuests.size

theorem recycle_recycled (n : Nat) (newQuests currentQuests : QuestSet) (s : QuestMgr) :
    Recycled limit newQuests currentQuests s (recycle dice limit n newQuests currentQuests s) := by
  induction n generalizing newQuests currentQuests s with
  | zero => exact ⟨rfl, rfl, fun _ h => h, fun _ h => .inl h, Nat.le_max_right _ _⟩
  | succ n ih =>
    rw [recycle]
    split
    next hfew =>
      have hmem := mem_selectRandom dice hfew.2 s.draws
      generalize selectRandom dice currentQuests s.draws = first at hmem
      simp only
      obtain ⟨hlog, hactive, hkept, hdrawn, hsize⟩ := ih (newQuests.insert first)
        (currentQuests.erase first) { s with draws := s.draws + 1 }
      refine ⟨hlog, hactive, fun quest hq => hkept quest (QuestSet.mem_insert.mpr (.inr hq)),
        fun quest hq => ?_, ?_⟩
      · rcases hdrawn quest hq with hq | ⟨-, hq⟩
        · rcases QuestSet.mem_insert.mp hq with rfl | hq
          · exact .inr ⟨hfew.1, hmem⟩
          · exact .inl hq
        · exact .inr ⟨hfew.1, (QuestSet.mem_erase.mp hq).1⟩
      · have hle := QuestSet.size_insert_le first newQuests
        omega
    · exact ⟨rfl, rfl, fun _ h => h, fun _ h => .inl h, Nat.le_max_right _ _⟩

theorem recycle_first {newQuests currentQuests : QuestSet} {quest : Nat} {n : Nat} (hn : n ≠ 0)
    (hfew : newQuests.size < limit ∧ currentQuests.size ≠ 0)
    (hdraw : selectRandom dice currentQuests s.draws = quest) :
    quest ∈ (recycle dice limit n newQuests currentQuests s).1 := by
  cases n with
  | zero => exact absurd rfl hn
  | succ n =>
    rw [recycle, if_pos hfew, hdraw]
    exact (recycle_recycled n _ _ _).kept quest (QuestSet.mem_insert.mpr (.inl rfl))

theorem despawnObject_active (g : PoolGroup) (p : Nat) (s : QuestMgr) :
    (s.despawnObject g p).log = s.log ∧
      ∀ quest, quest ∈ (s.despawnObject g p).activeQuests ↔ quest ∈ s.activeQuests ∧ quest ∉ g.guids := by
  unfold despawnObject
  induction g.guids generalizing s with
  | nil => simp
  | cons first rest ih =>
    obtain ⟨hlog, hactive⟩ := ih (if s.isActive first then s.removeObject first p else s)
    refine ⟨hlog.trans ?_, fun quest => (hactive quest).trans ?_⟩
    · split <;> rfl
    · split
      · rw [removeObject, QuestSet.mem_erase, List.mem_cons, not_or, and_assoc]
      next hidle =>
        rw [isActive, decide_eq_true_iff] at hidle
        rw [List.mem_cons, not_or]
        refine and_congr_right fun hquest => (and_iff_right ?_).symm
        rintro rfl
        exact hidle hquest

theorem mem_selectNew {quest : Nat} : quest ∈ s.selectNew g ↔
    quest ∈ g.equalChanced.map (·.guid) ∧ quest ∉ s.activeQuests := by
  have hfold : ∀ (l : List PoolObject) (newQuests : QuestSet), quest ∈ l.foldl (fun newQuests obj =>
      if s.isActive obj.guid then newQuests else newQuests.insert obj.guid) newQuests ↔
        quest ∈ newQuests ∨ quest ∈ l.map (·.guid) ∧ quest ∉ s.activeQuests := by
    intro l
    induction l with
    | nil => simp
    | cons obj rest ih =>
      intro newQuests
      rw [List.foldl_cons, ih, List.map_cons, List.mem_cons]
      split
      next hactive =>
        rw [isActive, decide_eq_true_iff] at hactive
        have hne : quest ∉ s.activeQuests → quest ≠ obj.guid := by
          rintro h rfl
          exact h hactive
        tauto
      next hidle =>
        rw [isActive, decide_eq_true_iff] at hidle
        rw [QuestSet.mem_insert]
        have hnot : quest = obj.guid → quest ∉ s.activeQuests := by
          rintro rfl
          exact hidle
        tauto
  rw [selectNew, hfold]
  simp

def inactive (g : PoolGroup) (s : QuestMgr) : Nat :=
  ((g.equalChanced.map (·.guid)).toFinset.filter (· ∉ s.activeQuests)).card

theorem selectNew_size (g : PoolGroup) (s : QuestMgr) : (s.selectNew g).size = inactive g s := by
  rw [QuestSet.size_eq_card, inactive]
  refine congrArg Finset.card (Finset.ext fun quest => ?_)
  rw [List.mem_toFinset, Finset.mem_filter, List.mem_toFinset]
  exact mem_selectNew

theorem mem_guids_of_equalChanced {quest : Nat} (h : quest ∈ g.equalChanced.map (·.guid)) :
    quest ∈ g.guids := by
  rw [PoolGroup.guids, List.map_append]
  exact List.mem_append_left _ h

def recycledQuests (dice : Dice) (g : PoolGroup) (p limit : Nat) (s : QuestMgr) : QuestSet :=
  (recycle dice limit s.activeQuests.size (s.selectNew g) s.activeQuests (s.despawnObject g p)).1

structure Replaced (g : PoolGroup) (limit : Nat) (newQuests : QuestSet) (s t : QuestMgr)
    (l : List Nat) : Prop where
  log : t.log = l ++ s.log
  active : ∀ quest, quest ∈ t.activeQuests ↔ quest ∈ l ∨ quest ∈ s.activeQuests ∧ quest ∉ g.guids
  new : ∀ quest ∈ l, quest ∈ newQuests
  some : newQuests.size ≠ 0 → l ≠ []
  length : 0 < limit → l.length ≤ limit
  all : 0 < limit → newQuests.size ≤ limit → ∀ quest ∈ newQuests, quest ∈ l

theorem spawnObject_replaced {data : Nat → PoolGroup} {triggerFrom : Nat} (dice : Dice)
    (hlimit : limit < 2 ^ 32) (hload : ¬(triggerFrom = 0 ∧ s.saved p ≠ [])) :
    ∃ l, Replaced (data p) limit (recycledQuests dice (data p) p limit s) s
      (s.spawnObject dice data p limit triggerFrom) l := by
  obtain ⟨hlog, hactive⟩ := despawnObject_active (data p) p s
  have hrecycled := @recycle_recycled limit dice s.activeQuests.size (s.selectNew (data p))
    s.activeQuests (s.despawnObject (data p) p)
  rw [spawnObject, if_neg hload, recycledQuests]
  simp only
  generalize recycle dice limit s.activeQuests.size (s.selectNew (data p)) s.activeQuests
    (s.despawnObject (data p) p) = result at hrecycled ⊢
  obtain ⟨newQuests, recycled⟩ := result
  have hbefore : recycled.log = s.log := hrecycled.log.trans hlog
  have hleft : ∀ quest, quest ∈ recycled.activeQuests ↔ quest ∈ s.activeQuests ∧ quest ∉ (data p).guids :=
    fun quest => hrecycled.active ▸ hactive quest
  split
  next hnone =>
    refine ⟨[], hbefore, fun quest => by simp [hleft], by simp, absurd hnone, by simp, fun _ _ quest hq => ?_⟩
    exact absurd hq (QuestSet.size_eq_zero.mp hnone quest)
  next hsome =>
    obtain ⟨l, hactivates, hsub, hne, hlength, hall⟩ :=
      @activateNew_activates recycled p limit dice _ newQuests rfl hsome hlimit
    refine ⟨l, ?_, fun quest => ?_, hsub, fun _ => hne, hlength, hall⟩
    · rw [← hbefore, ← hactivates.log]
      split <;> rfl
    · rw [← hleft quest, ← hactivates.active quest]
      split <;> rfl

structure Keeps (data : Nat → PoolGroup) (p limit : Nat) (s t : QuestMgr) : Prop where
  members : ∃ l, t.log = l ++ s.log ∧ ∀ quest ∈ l, quest ∈ (data p).guids
  limit : owned (data p) t.activeQuests.ids ≤ limit
  others : ∀ quest p', quest ∈ (data p').guids → quest ∉ (data p).guids →
    (quest ∈ t.activeQuests ↔ quest ∈ s.activeQuests)

def Suited (data : Nat → PoolGroup) (p limit triggerFrom : Nat) (s : QuestMgr) : Prop :=
  if triggerFrom = 0 ∧ s.saved p ≠ [] then
    0 < limit ∧ (∀ quest ∈ (s.saved p).take limit, quest ∈ (data p).guids) ∧
      owned (data p) ((s.saved p).take limit ++ s.activeQuests.ids) ≤ limit
  else
    (limit = 0 → inactive (data p) s = 0) ∧
      (limit ≤ inactive (data p) s ∨ ∀ quest ∈ s.activeQuests.ids, quest ∈ (data p).guids)

theorem owned_congr {ids ids' : List Nat} (h : ∀ quest, quest ∈ ids ↔ quest ∈ ids') :
    owned g ids = owned g ids' := by
  rw [owned, owned]
  exact congrArg Finset.card (Finset.filter_congr fun quest _ => h quest)

theorem owned_le_length {ids l : List Nat} (h : ∀ quest ∈ ids, quest ∈ g.guids → quest ∈ l) :
    owned g ids ≤ l.length := by
  refine Nat.le_trans (Finset.card_le_card fun quest hq => ?_) (List.toFinset_card_le l)
  obtain ⟨hguid, hin⟩ := Finset.mem_filter.mp hq
  exact List.mem_toFinset.mpr (h quest hin (List.mem_toFinset.mp hguid))

theorem owned_pos {ids : List Nat} {quest : Nat} (hin : quest ∈ ids) (hguid : quest ∈ g.guids) :
    0 < owned g ids :=
  Finset.card_pos.mpr ⟨quest, Finset.mem_filter.mpr ⟨List.mem_toFinset.mpr hguid, hin⟩⟩

/-- When the state is loaded, the spawn keeps to the pool exactly when the rows do. -/
theorem loadSaved_keeps {data : Nat → PoolGroup} (hlimit : limit < 2 ^ 32) (hrows : s.saved p ≠ []) :
    Keeps data p limit s (loadSaved p (s.saved p) limit s) ↔
      0 < limit ∧ (∀ quest ∈ (s.saved p).take limit, quest ∈ (data p).guids) ∧
        owned (data p) ((s.saved p).take limit ++ s.activeQuests.ids) ≤ limit := by
  obtain ⟨l, hactivates, hhead, hread⟩ := @loadSaved_activates s p limit (s.saved p) hlimit
  have howned : owned (data p) (loadSaved p (s.saved p) limit s).activeQuests.ids =
      owned (data p) (l ++ s.activeQuests.ids) :=
    owned_congr fun quest => (hactivates.active quest).trans List.mem_append.symm
  have hread : 0 < limit → (∀ quest, quest ∈ l ↔ quest ∈ (s.saved p).take limit) :=
    fun hpos quest => by rw [hread hpos, List.mem_reverse]
  have hsame : 0 < limit → owned (data p) (l ++ s.activeQuests.ids) =
      owned (data p) ((s.saved p).take limit ++ s.activeQuests.ids) := fun hpos =>
    owned_congr fun quest => by rw [List.mem_append, List.mem_append, hread hpos]
  constructor
  · rintro ⟨⟨l', hlog, hmembers⟩, howns, -⟩
    obtain rfl : l = l' := List.append_cancel_right (hactivates.log.symm.trans hlog)
    obtain ⟨first, hfirst⟩ : ∃ first, (s.saved p).head? = some first :=
      Option.isSome_iff_exists.mp (List.isSome_head?.mpr hrows)
    have hin := hhead first hfirst
    rw [howned] at howns
    have hpos : 0 < limit := Nat.lt_of_lt_of_le
      (owned_pos (List.mem_append_left s.activeQuests.ids hin) (hmembers first hin)) howns
    exact ⟨hpos, fun quest hq => hmembers quest ((hread hpos quest).mpr hq), hsame hpos ▸ howns⟩
  · rintro ⟨hpos, hmembers, hfew⟩
    have hown : ∀ quest ∈ l, quest ∈ (data p).guids := fun quest hq =>
      hmembers quest ((hread hpos quest).mp hq)
    refine ⟨⟨l, hactivates.log, hown⟩, ?_, fun quest p' _ hother => ?_⟩
    · rw [howned, hsame hpos]
      exact hfew
    · rw [hactivates.active]
      exact or_iff_right fun hq => hother (hown quest hq)

theorem Replaced.keeps {data : Nat → PoolGroup} {newQuests : QuestSet} {l : List Nat}
    (h : Replaced (data p) limit newQuests s t l) (hzero : limit = 0 → newQuests.size = 0)
    (hown : ∀ quest ∈ newQuests, quest ∈ (data p).guids) : Keeps data p limit s t := by
  have hmembers : ∀ quest ∈ l, quest ∈ (data p).guids := fun quest hq => hown quest (h.new quest hq)
  refine ⟨⟨l, h.log, hmembers⟩, ?_, fun quest p' _ hother => ?_⟩
  · refine Nat.le_trans (owned_le_length (l := l) fun quest hq hguid => ?_) ?_
    · exact ((h.active quest).mp hq).resolve_right fun hleft => hleft.2 hguid
    · by_cases hpos : 0 < limit
      · exact h.length hpos
      · have hnone := QuestSet.size_eq_zero.mp (hzero (by omega))
        rw [List.eq_nil_iff_forall_not_mem.mpr fun quest hq => hnone quest (h.new quest hq)]
        exact Nat.zero_le _
  · rw [h.active]
    constructor
    · exact fun hq => (hq.resolve_left fun hq => hother (hmembers quest hq)).1
    · exact fun hq => .inr ⟨hq, hother⟩

/-- Whatever is drawn, a spawn activates quests of the pool only, leaves at most `limit` of them active
and the others as they are, exactly when the saved rows or the active quests are suited. -/
theorem spawnObject_iff (data : Nat → PoolGroup) (p limit triggerFrom : Nat) (s : QuestMgr)
    (hlimit : limit < 2 ^ 32) :
    (∀ dice, Keeps data p limit s (s.spawnObject dice data p limit triggerFrom)) ↔
      Suited data p limit triggerFrom s := by
  unfold Suited
  by_cases hload : triggerFrom = 0 ∧ s.saved p ≠ []
  · rw [if_pos hload, ← loadSaved_keeps hlimit hload.2]
    have heq : ∀ dice, s.spawnObject dice data p limit triggerFrom =
        loadSaved p (s.saved p) limit s := fun dice => by rw [spawnObject, if_pos hload]
    constructor
    · intro h
      exact heq ⟨fun _ => 0, fun _ => 0⟩ ▸ h _
    · exact fun h dice => heq dice ▸ h
  rw [if_neg hload]
  have hnew : ∀ quest, quest ∈ s.selectNew (data p) → quest ∈ (data p).guids := fun quest hq =>
    mem_guids_of_equalChanced (mem_selectNew.mp hq).1
  constructor
  · intro h
    refine ⟨fun hzero => ?_, ?_⟩
    · by_contra hsome
      rw [← selectNew_size] at hsome
      obtain ⟨quest, hquest⟩ : ∃ quest, quest ∈ s.selectNew (data p) := by
        by_contra hnone
        exact hsome (QuestSet.size_eq_zero.mpr (not_exists.mp hnone))
      obtain ⟨l, hreplaced⟩ := @spawnObject_replaced s p limit data triggerFrom ⟨fun _ => 0, fun _ => 0⟩
        hlimit hload
      have hkept := (@recycle_recycled limit ⟨fun _ => 0, fun _ => 0⟩ s.activeQuests.size
        (s.selectNew (data p)) s.activeQuests (s.despawnObject (data p) p)).kept quest hquest
      obtain ⟨⟨l', hlog, hmembers⟩, howns, -⟩ := h ⟨fun _ => 0, fun _ => 0⟩
      obtain rfl : l = l' := List.append_cancel_right (hreplaced.log.symm.trans hlog)
      have hne := hreplaced.some fun hnone => QuestSet.size_eq_zero.mp hnone quest hkept
      obtain ⟨first, hfirst⟩ := List.exists_mem_of_ne_nil l hne
      have hpos := owned_pos ((hreplaced.active first).mpr (.inl hfirst)) (hmembers first hfirst)
      omega
    · by_contra hunsuited
      rw [not_or, not_le] at hunsuited
      obtain ⟨hfew, hforeign⟩ := hunsuited
      obtain ⟨quest, hforeign⟩ := not_forall.mp hforeign
      obtain ⟨hactive, hother⟩ := Classical.not_imp.mp hforeign
      obtain ⟨dice, hdraw⟩ := exists_selectRandom hactive
      obtain ⟨l, hreplaced⟩ := @spawnObject_replaced s p limit data triggerFrom dice hlimit hload
      have hsome : s.activeQuests.size ≠ 0 := fun hnone => QuestSet.size_eq_zero.mp hnone quest hactive
      rw [← selectNew_size] at hfew
      have hdrawn : quest ∈ recycledQuests dice (data p) p limit s :=
        recycle_first hsome ⟨hfew, hsome⟩ (hdraw _)
      have hsize := (@recycle_recycled limit dice s.activeQuests.size (s.selectNew (data p))
        s.activeQuests (s.despawnObject (data p) p)).size
      obtain ⟨⟨l', hlog, hmembers⟩, -, -⟩ := h dice
      obtain rfl : l = l' := List.append_cancel_right (hreplaced.log.symm.trans hlog)
      refine hother (hmembers quest (hreplaced.all (by omega) ?_ quest hdrawn))
      exact hsize.trans (Nat.max_le.mpr ⟨Nat.le_refl _, Nat.le_of_lt hfew⟩)
  · rintro ⟨hzero, hsuited⟩ dice
    obtain ⟨l, hreplaced⟩ := @spawnObject_replaced s p limit data triggerFrom dice hlimit hload
    have hrecycled := @recycle_recycled limit dice s.activeQuests.size (s.selectNew (data p))
      s.activeQuests (s.despawnObject (data p) p)
    rw [← selectNew_size] at hzero hsuited
    refine hreplaced.keeps (fun hnone => ?_) fun quest hq => ?_
    · refine Nat.le_zero.mp (hrecycled.size.trans (Nat.max_le.mpr ⟨Nat.le_of_eq hnone, ?_⟩))
      exact Nat.le_of_eq (hzero hnone)
    · rcases hrecycled.drawn quest hq with hq | ⟨hfew, hq⟩
      · exact hnew quest hq
      · exact hsuited.resolve_left (by omega) quest hq

def questPools : Nat → PoolGroup
  | 1 => { equalChanced := [⟨10, 0⟩, ⟨11, 0⟩] }
  | 2 => { equalChanced := [⟨20, 0⟩] }
  | _ => {}

def oneEach : QuestMgr :=
  ⟨⟨fun _ => false, fun _ => false, fun p => if p = 1 ∨ p = 2 then some 1 else none⟩,
    fun quest => if quest = 20 then some 2 else if quest = 10 ∨ quest = 11 then some 1 else none,
    ⟨[10, 20], by decide⟩, fun _ => [], 0, []⟩

theorem spawnObject_iff_one :
    (∀ dice, Keeps questPools 1 1 oneEach (oneEach.spawnObject dice questPools 1 1 1)) ∧
      Suited questPools 1 1 1 oneEach := by
  have hsuited : Suited questPools 1 1 1 oneEach := by
    unfold Suited
    decide
  exact ⟨(spawnObject_iff questPools 1 1 1 oneEach (by decide)).mpr hsuited, hsuited⟩

/-- With a limit of two the quest of the other pool is recycled, and activated for pool 1. -/
theorem spawnObject_fails_other :
    ¬Keeps questPools 1 2 oneEach (oneEach.spawnObject ⟨fun _ => 0, fun _ => 1⟩ questPools 1 2 1) := by
  rintro ⟨⟨l, hlog, hmembers⟩, -, -⟩
  have hactivated : (oneEach.spawnObject ⟨fun _ => 0, fun _ => 1⟩ questPools 1 2 1).log = [11, 20] := by
    decide
  rw [hactivated] at hlog
  obtain rfl : [11, 20] = l := hlog.trans (List.append_nil l)
  exact absurd (hmembers 20 (by decide)) (by decide)

end QuestMgr

end Ashamane.Pools
