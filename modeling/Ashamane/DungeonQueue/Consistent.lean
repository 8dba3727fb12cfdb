import Ashamane.DungeonQueue.Basic

/-! The stores of a queue agree with each other: who is listed, whose data are kept, and
what is remembered of a guid that was removed. -/
namespace Ashamane.DungeonQueue

open Ashamane.Lib Ashamane.DungeonFinding

def LFGQueue.listed (q : LFGQueue) : List Guid := q.newToQueueStore ++ q.currentQueueStore

structure Consistent (q : LFGQueue) : Prop where
  nodup : q.listed.Nodup
  known : ∀ guid ∈ q.listed, guid ∈ q.queueDataStore

structure Forgotten (q : LFGQueue) (guid : Guid) : Prop where
  key : ∀ key ∈ q.compatibleMapStore, ¬ Mentions key (q.text guid)
  bestCompatible : ∀ other e, q.queueDataStore.lookup other = some e →
    ¬ Mentions e.bestCompatible (q.text guid)

def Op.Orderly (q : LFGQueue) : Op → Prop
  | .addQueueData guid _ _ | .addToQueue guid _ | .removeQueueData guid => guid ∉ q.listed
  | .removeFromQueue _ | .findGroups _ => True

section Texts

variable {realm : Nat}

theorem length_guidText (guid : Guid) : (guidText realm guid).length = 32 := by
  simp [guidText, hexDigits]

theorem bar_notMem_guidText (guid : Guid) : '|' ∉ guidText realm guid := by
  have hdigit : ∀ n < 16, Nat.digitChar n ≠ '|' := by decide
  simp only [guidText, hexDigits, List.mem_map, not_exists, not_and]
  exact fun i _ => hdigit _ (Nat.mod_lt _ (by decide))

/-- In the text of a list of guids, searching the text of a guid finds the guids with that
text. -/
theorem mentions_concatenateGuids_iff (check : List Guid) (guid : Guid) :
    Mentions (concatenateGuids realm check) (guidText realm guid) ↔
      ∃ g ∈ check, guidText realm g = guidText realm guid := by
  rw [Mentions, concatenateGuids,
    Words.infix_join_iff (by decide) (length_guidText guid) (bar_notMem_guidText guid)]
  · simp [List.mem_map, List.mem_insertionSort]
  · intro v hv
    obtain ⟨g, _, rfl⟩ := List.mem_map.mp hv
    exact length_guidText g

end Texts

structure Searched (q q' : LFGQueue) : Prop where
  new : q'.newToQueueStore.Sublist q.newToQueueStore
  current : q'.currentQueueStore.Sublist q.currentQueueStore
  known : ∀ guid, guid ∈ q'.queueDataStore ↔ guid ∈ q.queueDataStore

namespace Searched

variable {q q' q'' : LFGQueue} (view : ManagerView)

theorem refl (q : LFGQueue) : Searched q q :=
  ⟨List.Sublist.refl _, List.Sublist.refl _, fun _ => Iff.rfl⟩

theorem trans (h : Searched q q') (h' : Searched q' q'') : Searched q q'' :=
  ⟨h'.new.trans h.new, h'.current.trans h.current, fun guid => (h'.known guid).trans (h.known guid)⟩

theorem take (q : LFGQueue) (guid : Guid) :
    Searched q ((q.removeFromNewQueue guid).removeFromCurrentQueue guid) :=
  ⟨List.filter_sublist, List.filter_sublist, fun _ => Iff.rfl⟩

theorem takeFromQueue (q : LFGQueue) (check : List Guid) : Searched q (q.takeFromQueue check) := by
  induction check generalizing q with
  | nil => exact refl q
  | cons guid check ih => exact (take q guid).trans (ih _)

theorem removeFromQueue {guid : Guid} (hnone : guid ∉ q.queueDataStore) :
    Searched q (q.removeFromQueue guid) := by
  refine ⟨List.filter_sublist, List.filter_sublist, fun other => ?_⟩
  change other ∈ (Assoc.mapVal _ q.queueDataStore).erase guid ↔ _
  rw [AList.mem_erase, Assoc.mem_mapVal]
  exact ⟨And.right, fun hmem => ⟨fun heq => hnone (heq ▸ hmem), hmem⟩⟩

theorem updateBest (q : LFGQueue) (check : List Guid) (roles : LfgRolesMap) :
    Searched q (q.updateBest check roles) := by
  refine ⟨List.Sublist.refl _, List.Sublist.refl _, fun other => ?_⟩
  simp only [LFGQueue.updateBest]
  generalize concatenateGuids q.realm check = key
  generalize q.queueDataStore = store
  induction check generalizing store with
  | nil => rfl
  | cons guid check ih =>
    rw [List.foldl_cons, ih, Assoc.modify, Assoc.mem_mapVal]

theorem checkGroup (q : LFGQueue) (check : List Guid) : Searched q (checkGroup view q check).2 := by
  unfold DungeonQueue.checkGroup
  split
  next guid herror =>
    have hnone := countPlayers_error herror
    refine removeFromQueue fun hmem => ?_
    obtain ⟨e, he⟩ := Option.isSome_iff_exists.mp (AList.lookup_isSome.mpr hmem)
    simp [LFGQueue.dataOf, he] at hnone
  · simp only []
    split
    · exact (updateBest q check _).trans ⟨List.Sublist.refl _, List.Sublist.refl _, fun _ => Iff.rfl⟩
    · have htaken := takeFromQueue q check
      exact ⟨htaken.new, htaken.current, htaken.known⟩
    · exact ⟨List.Sublist.refl _, List.Sublist.refl _, fun _ => Iff.rfl⟩

theorem setCompatibles (h : Searched q q') (key : Text) (compatibles : LfgCompatibility) :
    Searched q (q'.setCompatibles key compatibles) := ⟨h.new, h.current, h.known⟩

theorem checkCompatibility (q : LFGQueue) (check : List Guid) :
    Searched q (checkCompatibility view check q).2 := by
  induction check with
  | nil => exact refl q
  | cons guid rest ih =>
    simp only [DungeonQueue.checkCompatibility]
    split
    · exact refl q
    · split
      · split
        · exact ih.trans (checkGroup view _ _)
        · exact ih.setCompatibles _ _
      · exact checkGroup view q _

theorem findCompatibility (q : LFGQueue) (check : List Guid) :
    Searched q (findCompatibility view check q).2 := by
  simp only [DungeonQueue.findCompatibility]
  have hknown : Searched q (if q.getCompatibles (concatenateGuids q.realm check) = .pending then
      DungeonQueue.checkCompatibility view check q
      else (q.getCompatibles (concatenateGuids q.realm check), q)).2 := by
    split
    · exact checkCompatibility view q check
    · exact refl q
  revert hknown
  generalize (if q.getCompatibles (concatenateGuids q.realm check) = .pending then
    DungeonQueue.checkCompatibility view check q
    else (q.getCompatibles (concatenateGuids q.realm check), q)) = known
  intro hknown
  split
  · exact hknown.setCompatibles _ _
  · exact hknown

theorem matchQueued (q : LFGQueue) (check all : List Guid) :
    Searched q (matchQueued view check all q).2 := by
  induction all generalizing check q with
  | nil => exact refl q
  | cons guid all ih =>
    have hsub := findCompatibility view q (check ++ [guid])
    simp only [DungeonQueue.matchQueued]
    split
    · exact hsub
    · split
      · exact hsub.trans (ih _ _)
      · exact hsub.trans (ih _ _)

theorem findNewGroups (q : LFGQueue) (check all : List Guid) :
    Searched q (findNewGroups view check all q).2 := by
  have hfirst := findCompatibility view q check
  simp only [DungeonQueue.findNewGroups]
  split
  · exact hfirst.trans (matchQueued view _ _ _)
  · exact hfirst

end Searched

namespace Consistent

variable {q q' : LFGQueue} {guid : Guid} {view : ManagerView}

theorem searched (h : Consistent q) (hsearch : Searched q q') : Consistent q' where
  nodup := (hsearch.new.append hsearch.current).nodup h.nodup
  known other hother := by
    rw [hsearch.known]
    exact h.known other ((hsearch.new.append hsearch.current).subset hother)

theorem enlist (h : Consistent q) (hnew : guid ∉ q.listed) (hknown : guid ∈ q.queueDataStore)
    (hlist : q'.listed.Perm (guid :: q.listed)) (hdata : q'.queueDataStore = q.queueDataStore) :
    Consistent q' where
  nodup := hlist.nodup_iff.mpr (List.nodup_cons.mpr ⟨hnew, h.nodup⟩)
  known other hother := by
    rw [hdata]
    obtain rfl | hold := List.mem_cons.mp (hlist.mem_iff.mp hother)
    · exact hknown
    · exact h.known other hold

theorem addToQueue (h : Consistent q) (hnew : guid ∉ q.listed) (reAdd : Bool) :
    Consistent (q.addToQueue guid reAdd) := by
  unfold LFGQueue.addToQueue
  split
  · exact h
  next e he =>
    have hknown : guid ∈ q.queueDataStore := AList.lookup_isSome.mp (by simp [he])
    split
    · exact h.enlist hnew hknown List.perm_middle rfl
    · refine h.enlist hnew hknown ?_ rfl
      simp only [LFGQueue.listed, List.append_assoc, List.singleton_append]
      exact List.perm_middle

theorem addQueueData (h : Consistent q) (hnew : guid ∉ q.listed) (dungeons : LfgDungeonSet)
    (roles : LfgRolesMap) : Consistent (q.addQueueData guid dungeons roles) := by
  have hinserted : ∀ e : QueueEntry,
      Consistent { q with queueDataStore := q.queueDataStore.insert guid e } := fun e =>
    ⟨h.nodup, fun other hother => (AList.mem_insert _).mpr (.inr (h.known other hother))⟩
  exact (hinserted _).addToQueue hnew false

theorem removeQueueData (h : Consistent q) (hnew : guid ∉ q.listed) :
    Consistent (q.removeQueueData guid) := by
  refine ⟨h.nodup, fun other hother => ?_⟩
  exact AList.mem_erase.mpr ⟨fun heq => hnew (heq ▸ hother), h.known other hother⟩

theorem removeFromQueue (h : Consistent q) (guid : Guid) : Consistent (q.removeFromQueue guid) := by
  have hlisted : (q.removeFromQueue guid).listed = q.listed.filter (· != guid) := by
    simp [LFGQueue.listed, LFGQueue.removeFromQueue, LFGQueue.removeFromCompatibles,
      LFGQueue.removeFromCurrentQueue, LFGQueue.removeFromNewQueue]
  refine ⟨hlisted ▸ h.nodup.filter _, fun other hother => ?_⟩
  rw [hlisted, List.mem_filter] at hother
  change other ∈ (Assoc.mapVal _ q.queueDataStore).erase guid
  rw [AList.mem_erase, Assoc.mem_mapVal]
  exact ⟨by simpa using hother.2, h.known other hother.1⟩

/-- One pass: the guid in front leaves the new ones, and is listed again after the search if
it found no match. -/
theorem findGroup (h : Consistent q) {rest : List Guid} (hfront : q.newToQueueStore = guid :: rest) :
    Consistent (findGroup view guid q) := by
  have hlisted : guid ∈ q.listed := by simp [LFGQueue.listed, hfront]
  have htaken : Searched q (q.removeFromNewQueue guid) :=
    ⟨List.filter_sublist, List.Sublist.refl _, fun _ => Iff.rfl⟩
  have hafter := Searched.findNewGroups view (q.removeFromNewQueue guid) [guid]
    (q.removeFromNewQueue guid).currentQueueStore
  have hfound := htaken.trans hafter
  simp only [DungeonQueue.findGroup]
  split
  · exact h.searched hfound
  · refine @enlist _ _ guid (h.searched hfound) (fun hmem => ?_) ?_ ?_ rfl
    · have hnodup := h.nodup
      rw [LFGQueue.listed, hfront, List.cons_append, List.nodup_cons] at hnodup
      obtain hnew | hcurrent := List.mem_append.mp hmem
      · have hfilter := hafter.new.subset hnew
        simp [LFGQueue.removeFromNewQueue] at hfilter
      · exact hnodup.1 (List.mem_append_right _ (hafter.current.subset hcurrent))
    · exact (hfound.known guid).mpr (h.known guid hlisted)
    · simp only [LFGQueue.listed, LFGQueue.addToCurrentQueue]
      rw [← List.append_assoc]
      exact List.perm_append_singleton _ _

theorem findGroups (h : Consistent q) (view : ManagerView) : Consistent (findGroups view q) := by
  unfold DungeonQueue.findGroups
  generalize q.newToQueueStore.length = fuel
  induction fuel generalizing q with
  | zero => exact h
  | succ fuel ih =>
    rw [findGroupsFuel]
    split
    · exact h
    next guid rest hfront => exact ih (h.findGroup hfront)

theorem step (h : Consistent q) {op : Op} (hok : op.Orderly q) : Consistent (q.apply op) := by
  cases op with
  | addQueueData guid dungeons roles => exact h.addQueueData hok dungeons roles
  | addToQueue guid reAdd => exact h.addToQueue hok reAdd
  | removeQueueData guid => exact h.removeQueueData hok
  | removeFromQueue guid => exact h.removeFromQueue guid
  | findGroups view => exact h.findGroups view

theorem orderly (h : Consistent q) {op : Op} (hnext : Consistent (q.apply op)) : op.Orderly q := by
  have htwice : ∀ {q' : LFGQueue} {guid : Guid}, Consistent q' →
      q'.listed.Perm (guid :: q.listed) → guid ∉ q.listed := fun hq hperm =>
    (List.nodup_cons.mp (hperm.nodup_iff.mp hq.nodup)).1
  have hadded : ∀ {q₀ : LFGQueue} {guid : Guid} {reAdd : Bool}, q₀.listed = q.listed →
      guid ∈ q₀.queueDataStore → (q₀.addToQueue guid reAdd).listed.Perm (guid :: q.listed) := by
    intro q₀ guid reAdd hlisted hknown
    obtain ⟨e, he⟩ := Option.isSome_iff_exists.mp (AList.lookup_isSome.mpr hknown)
    rw [← hlisted]
    simp only [LFGQueue.addToQueue, he]
    split
    · exact List.perm_middle
    · simp only [LFGQueue.listed, List.append_assoc, List.singleton_append]
      exact List.perm_middle
  cases op with
  | addQueueData guid dungeons roles =>
    exact htwice hnext (hadded rfl ((AList.mem_insert _).mpr (.inl rfl)))
  | addToQueue guid reAdd =>
    intro hlisted
    exact htwice hnext (hadded rfl (h.known guid hlisted)) hlisted
  | removeQueueData guid =>
    intro hlisted
    have hgone := hnext.known guid hlisted
    exact (AList.mem_erase.mp hgone).1 rfl
  | removeFromQueue guid => trivial
  | findGroups view => trivial

end Consistent

theorem consistent_empty (realm : Nat) : Consistent (.empty realm) :=
  ⟨List.nodup_nil, fun _ h => (List.not_mem_nil h).elim⟩

section Forgotten

variable {q : LFGQueue} {guid : Guid}

theorem mem_foldl_erase {store : AList fun _ : Text => LfgCompatibilityData} {keys : List Text}
    {key : Text} : key ∈ keys.foldl (fun store key => store.erase key) store ↔
      key ∈ store ∧ key ∉ keys := by
  induction keys generalizing store with
  | nil => simp
  | cons k keys ih =>
    rw [List.foldl_cons, ih, AList.mem_erase, List.mem_cons, not_or]
    exact ⟨fun h => ⟨h.1.2, h.1.1, h.2⟩, fun h => ⟨⟨h.2.1, h.1⟩, h.2.2⟩⟩

theorem removeFromCompatibles_keys {key : Text}
    (h : key ∈ (q.removeFromCompatibles guid).compatibleMapStore) :
    ¬ Mentions key (q.text guid) := by
  obtain ⟨hkey, hkept⟩ := mem_foldl_erase.mp h
  intro hmentions
  exact hkept (List.mem_filter.mpr ⟨hkey, by simpa using hmentions⟩)

theorem updateBestCompatible_cases (e : QueueEntry) (key : Text) (roles : LfgRolesMap) :
    (e.updateBestCompatible key roles).bestCompatible = e.bestCompatible ∨
      (e.updateBestCompatible key roles).bestCompatible = key := by
  have hroles : ∀ (l : List (Sigma fun _ : Guid => Nat)) (e : QueueEntry),
      (l.foldl (fun e role => e.countRole role.2) e).bestCompatible = e.bestCompatible := by
    intro l
    induction l with
    | nil => exact fun _ => rfl
    | cons role l ih =>
      intro e
      rw [List.foldl_cons, ih, QueueEntry.countRole]
      split
      · rfl
      · split <;> rfl
  simp only [QueueEntry.updateBestCompatible]
  generalize (if e.bestCompatible = [] then 0
    else QueueEntry.guidCount e.bestCompatible) = storedSize
  split
  · exact .inl rfl
  · exact .inr (hroles _ _)

/-- The best group of an entry is the one before or one of the store. -/
theorem findBestCompatible_cases (e : QueueEntry)
    (store : AList fun _ : Text => LfgCompatibilityData) (sguid : Text) :
    (e.findBestCompatible store sguid).bestCompatible = e.bestCompatible ∨
      (e.findBestCompatible store sguid).bestCompatible ∈ store := by
  have hfold : ∀ (l : List (Sigma fun _ : Text => LfgCompatibilityData)) (e : QueueEntry),
      (l.foldl (fun e item => if item.2.compatibility = .withLessPlayers ∧ Mentions item.1 sguid then
        e.updateBestCompatible item.1 item.2.roles else e) e).bestCompatible = e.bestCompatible ∨
      ∃ item ∈ l, (l.foldl (fun e item => if item.2.compatibility = .withLessPlayers ∧
        Mentions item.1 sguid then e.updateBestCompatible item.1 item.2.roles
        else e) e).bestCompatible = item.1 := by
    intro l
    induction l with
    | nil => exact fun _ => .inl rfl
    | cons item l ih =>
      intro e
      rw [List.foldl_cons]
      obtain hsame | ⟨other, hother, heq⟩ := ih (if item.2.compatibility = .withLessPlayers ∧
        Mentions item.1 sguid then e.updateBestCompatible item.1 item.2.roles else e)
      · rw [hsame]
        split
        · exact (updateBestCompatible_cases e item.1 item.2.roles).imp_right fun hkey =>
            ⟨item, List.mem_cons_self .., hkey⟩
        · exact .inl rfl
      · exact .inr ⟨other, List.mem_cons_of_mem _ hother, heq⟩
  simp only [QueueEntry.findBestCompatible]
  refine (hfold _ e).imp_right ?_
  rintro ⟨item, hitem, heq⟩
  rw [heq]
  have hmem := (List.mem_insertionSort _).mp hitem
  exact List.mem_keys_of_mem hmem

/-- Whatever was stored before, a guid that is removed is forgotten. -/
theorem forgotten_removeFromQueue (q : LFGQueue) (guid : Guid) :
    Forgotten (q.removeFromQueue guid) guid := by
  have hkeys : ∀ key ∈ (q.removeFromQueue guid).compatibleMapStore,
      ¬ Mentions key (q.text guid) := fun key hkey =>
    @removeFromCompatibles_keys ((q.removeFromNewQueue guid).removeFromCurrentQueue guid) guid key hkey
  refine ⟨hkeys, fun other e he => ?_⟩
  change AList.lookup other ((Assoc.mapVal _ q.queueDataStore).erase guid) = some e at he
  have hne : other ≠ guid := by
    rintro rfl
    rw [AList.lookup_erase] at he
    cases he
  rw [AList.lookup_erase_ne hne, Assoc.lookup_mapVal, Option.map_eq_some_iff] at he
  obtain ⟨old, _, rfl⟩ := he
  rw [LFGQueue.forget]
  split
  · obtain hempty | hstored := findBestCompatible_cases { old with bestCompatible := [] }
      (q.removeFromQueue guid).compatibleMapStore (q.text other)
    · intro hmentions
      have hbest : Mentions ({ old with bestCompatible := [] }.findBestCompatible
        (q.removeFromQueue guid).compatibleMapStore (q.text other)).bestCompatible
        (q.text guid) := hmentions
      rw [hempty] at hbest
      have hnil : q.text guid = [] := List.infix_nil.mp hbest
      have hlength := @length_guidText q.realm guid
      rw [← LFGQueue.text, hnil] at hlength
      cases hlength
    · exact hkeys _ hstored
  next hkept => exact fun hmentions => hkept ⟨hne, hmentions⟩

end Forgotten

structure RunConsistent (realm : Nat) (ops : List Op) : Prop where
  consistent : ∀ calls, calls <+: ops → Consistent ((LFGQueue.empty realm).run calls)
  forgotten : ∀ calls guid, calls ++ [.removeFromQueue guid] <+: ops →
    Forgotten ((LFGQueue.empty realm).run (calls ++ [.removeFromQueue guid])) guid

/-- The stores of a queue agree all along a run if and only if each of its calls is
orderly. -/
theorem consistent_run_iff (realm : Nat) (ops : List Op) :
    RunConsistent realm ops ↔
      ∀ calls op, calls ++ [op] <+: ops → op.Orderly ((LFGQueue.empty realm).run calls) := by
  have hrun : ∀ calls op, (LFGQueue.empty realm).run (calls ++ [op]) =
      ((LFGQueue.empty realm).run calls).apply op := fun calls op => List.foldl_concat ..
  constructor
  · intro h calls op hcalls
    have hbefore := h.consistent calls ((List.prefix_append calls [op]).trans hcalls)
    exact hbefore.orderly (hrun calls op ▸ h.consistent _ hcalls)
  · intro h
    refine ⟨fun calls hcalls => ?_, fun calls guid _ => ?_⟩
    · induction calls using List.reverseRecOn with
      | nil => exact consistent_empty realm
      | append_singleton calls op ih =>
        rw [hrun]
        exact (ih ((List.prefix_append calls [op]).trans hcalls)).step (h calls op hcalls)
    · rw [hrun]
      exact forgotten_removeFromQueue _ guid

def plainView : ManagerView := ⟨⟨false, fun _ _ => false⟩, fun _ => false, fun _ => true⟩

def joins (low role : Nat) : Op :=
  .addQueueData (.player low) {1} ((∅ : LfgRolesMap).insert (.player low) role)

def joinTwice : List Op :=
  [joins 1 2, joins 2 4, joins 3 8, joins 4 8, joins 5 8, .findGroups plainView, joins 1 2,
    .addToQueue (.player 1) true]

theorem consistent_fails_joinTwice : ¬ ∀ (realm : Nat) (ops : List Op), RunConsistent realm ops := by
  intro hall
  have htwice := ((hall 1 joinTwice).consistent _ (List.prefix_refl _)).nodup
  have hlisted : ((LFGQueue.empty 1).run joinTwice).listed = [.player 1, .player 1] := by
    decide +kernel
  rw [hlisted] at htwice
  exact absurd htwice (by decide)

end Ashamane.DungeonQueue
