import Ashamane.DungeonFinding.Created
import Ashamane.DungeonQueue.Consistent

/-! A queue with its texts goes on as the queue of `DungeonFinding` with the sets of guids, while
the guids `known` can be told apart by their texts. -/
namespace Ashamane.DungeonQueue
open Ashamane.Lib Ashamane.DungeonFinding

variable {realm : Nat} {known : Set Guid}

theorem concatenateGuids_eq_iff (hknown : known.InjOn (guidText realm)) {check other : List Guid}
    (hcheck : ∀ g ∈ check, g ∈ known) (hother : ∀ g ∈ other, g ∈ known) :
    concatenateGuids realm check = concatenateGuids realm other ↔
      check.toFinset = other.toFinset := by
  have hsub : ∀ {a b : List Guid}, (∀ g ∈ a, g ∈ known) → (∀ g ∈ b, g ∈ known) →
      concatenateGuids realm a = concatenateGuids realm b → a ⊆ b := by
    intro a b ha hb heq g hg
    have hfound := (@mentions_concatenateGuids_iff realm a g).mpr ⟨g, hg, rfl⟩
    rw [heq] at hfound
    obtain ⟨g', hg', htext⟩ := (@mentions_concatenateGuids_iff realm b g).mp hfound
    exact hknown (hb g' hg') (ha g hg) htext ▸ hg'
  constructor
  · intro heq
    ext g
    rw [List.mem_toFinset, List.mem_toFinset]
    exact ⟨fun hg => hsub hcheck hother heq hg, fun hg => hsub hother hcheck heq.symm hg⟩
  · intro heq
    have hsorted : check.dedup.insertionSort (fun a b => guidValue realm a ≤ guidValue realm b) =
        other.dedup.insertionSort fun a b => guidValue realm a ≤ guidValue realm b := by
      have hperm := List.toFinset_eq_iff_perm_dedup.mp heq
      refine List.Perm.eq_of_pairwise (fun a b ha hb hle hge => ?_)
        (List.pairwise_insertionSort _ _) (List.pairwise_insertionSort _ _)
        ((List.perm_insertionSort _ _).trans (hperm.trans (List.perm_insertionSort _ _).symm))
      rw [List.mem_insertionSort, List.mem_dedup] at ha hb
      exact hknown (hcheck a ha) (hother b hb) (congrArg hexDigits (Nat.le_antisymm hle hge))
    rw [concatenateGuids, concatenateGuids, hsorted]

theorem data_updateBestCompatible (e : QueueEntry) (key : Text) (roles : LfgRolesMap) :
    (e.updateBestCompatible key roles).data = e.data := by
  have hcount : ∀ (l : List (Sigma fun _ : Guid => Nat)) (e : QueueEntry),
      (l.foldl (fun e role => e.countRole role.2) e).data = e.data := by
    intro l
    induction l with
    | nil => exact fun e => rfl
    | cons role l ih =>
      intro e
      rw [List.foldl_cons, ih, QueueEntry.countRole]
      split_ifs <;> rfl
  rw [QueueEntry.updateBestCompatible, apply_ite QueueEntry.data, hcount, ite_self]

theorem data_forget (q : LFGQueue) (guid other : Guid) (e : QueueEntry) :
    (q.forget guid other e).data = e.data := by
  have hfind : ∀ (l : List (Sigma fun _ : Text => LfgCompatibilityData)) (e : QueueEntry),
      (l.foldl (fun e item => if item.2.compatibility = .withLessPlayers ∧
        Mentions item.1 (q.text other) then e.updateBestCompatible item.1 item.2.roles
        else e) e).data = e.data := by
    intro l
    induction l with
    | nil => exact fun e => rfl
    | cons item l ih =>
      intro e
      rw [List.foldl_cons, ih]
      split
      · exact data_updateBestCompatible e item.1 item.2.roles
      · rfl
  rw [LFGQueue.forget]
  split
  · exact hfind _ _
  · rfl

structure Refines (realm : Nat) (known : Set Guid) (x : LFGQueue) (y : DungeonFinding.LFGQueue) :
    Prop where
  sameRealm : x.realm = realm
  new : y.newToQueueStore = x.newToQueueStore
  current : y.currentQueueStore = x.currentQueueStore
  data : y.queueDataStore.lookup = x.dataOf
  compatibles : ∀ check, (∀ g ∈ check, g ∈ known) →
    y.getCompatibles check = x.getCompatibles (concatenateGuids realm check)
  newKnown : ∀ g ∈ x.newToQueueStore, g ∈ known
  currentKnown : ∀ g ∈ x.currentQueueStore, g ∈ known

namespace Refines

variable {x : LFGQueue} {y : DungeonFinding.LFGQueue} {guid : Guid} {check : List Guid}

theorem empty : Refines realm known (.empty realm) .empty :=
  ⟨rfl, rfl, rfl, rfl, fun _ _ => rfl, by simp [LFGQueue.empty], by simp [LFGQueue.empty]⟩

theorem setCompatibilityData (h : Refines realm known x y) (hknown : known.InjOn (guidText realm))
    (hcheck : ∀ g ∈ check, g ∈ known) (data : LfgCompatibilityData) :
    Refines realm known (x.setCompatibilityData (concatenateGuids realm check) data)
      (y.setCompatibles check data.compatibility) := by
  refine { h with compatibles := fun other hother => ?_ }
  have hold := h.compatibles other hother
  have hsame := concatenateGuids_eq_iff hknown hother hcheck
  simp only [DungeonFinding.LFGQueue.getCompatibles, DungeonFinding.LFGQueue.setCompatibles,
    LFGQueue.getCompatibles, LFGQueue.setCompatibilityData] at hold ⊢
  by_cases heq : other.toFinset = check.toFinset
  · rw [heq, Function.update_self, hsame.mpr heq, AList.lookup_insert,
      Option.map_some, Option.getD_some]
  · rw [Function.update_of_ne heq, AList.lookup_insert_ne (mt hsame.mp heq), hold]

theorem setCompatibles (h : Refines realm known x y) (hknown : known.InjOn (guidText realm))
    (hcheck : ∀ g ∈ check, g ∈ known) (compatibles : LfgCompatibility) :
    Refines realm known (x.setCompatibles (concatenateGuids realm check) compatibles)
      (y.setCompatibles check compatibles) :=
  h.setCompatibilityData hknown hcheck ⟨compatibles, _⟩

theorem removeFromNewQueue (h : Refines realm known x y) (guid : Guid) :
    Refines realm known (x.removeFromNewQueue guid) (y.removeFromNewQueue guid) :=
  { h with
    new := congrArg (List.filter (· != guid)) h.new
    newKnown := fun g hg => h.newKnown g (List.mem_filter.mp hg).1 }

theorem removeFromCurrentQueue (h : Refines realm known x y) (guid : Guid) :
    Refines realm known (x.removeFromCurrentQueue guid) (y.removeFromCurrentQueue guid) :=
  { h with
    current := congrArg (List.filter (· != guid)) h.current
    currentKnown := fun g hg => h.currentKnown g (List.mem_filter.mp hg).1 }

theorem addToCurrentQueue (h : Refines realm known x y) (hguid : guid ∈ known) :
    Refines realm known (x.addToCurrentQueue guid) (y.addToCurrentQueue guid) :=
  { h with
    current := congrArg (· ++ [guid]) h.current
    currentKnown := fun g hg => (List.mem_append.mp hg).elim (h.currentKnown g) fun hlast =>
      List.mem_singleton.mp hlast ▸ hguid }

theorem takeFromQueue (h : Refines realm known x y) (check : List Guid) :
    Refines realm known (x.takeFromQueue check) (check.foldl (fun queue guid =>
      (queue.removeFromNewQueue guid).removeFromCurrentQueue guid) y) := by
  induction check generalizing x y with
  | nil => exact h
  | cons guid check ih => exact ih ((h.removeFromNewQueue guid).removeFromCurrentQueue guid)

theorem lookup_foldl_erase {store : AList fun _ : Text => LfgCompatibilityData}
    {keys : List Text} {key : Text} :
    (keys.foldl (fun store key => store.erase key) store).lookup key =
      if key ∈ keys then none else store.lookup key := by
  induction keys generalizing store with
  | nil => simp
  | cons k keys ih =>
    rw [List.foldl_cons, ih, Assoc.lookup_erase]
    by_cases hkey : key = k <;> simp [hkey]

theorem removeFromCompatibles (h : Refines realm known x y)
    (hknown : known.InjOn (guidText realm)) (hguid : guid ∈ known) :
    Refines realm known (x.removeFromCompatibles guid) (y.removeFromCompatibles guid) := by
  refine { h with compatibles := fun check hcheck => ?_ }
  have hold := h.compatibles check hcheck
  have hmentions : Mentions (concatenateGuids realm check) (x.text guid) ↔ guid ∈ check := by
    rw [LFGQueue.text, h.sameRealm, mentions_concatenateGuids_iff]
    exact ⟨fun hfound => hfound.elim fun g hg => hknown (hcheck g hg.1) hguid hg.2 ▸ hg.1,
      fun hmem => ⟨guid, hmem, rfl⟩⟩
  simp only [DungeonFinding.LFGQueue.getCompatibles, LFGQueue.getCompatibles] at hold
  simp only [DungeonFinding.LFGQueue.getCompatibles, LFGQueue.getCompatibles,
    DungeonFinding.LFGQueue.removeFromCompatibles, LFGQueue.removeFromCompatibles,
    lookup_foldl_erase, List.mem_filter, decide_eq_true_eq, hmentions, List.mem_toFinset]
  by_cases hin : guid ∈ check
  · by_cases hkey : concatenateGuids realm check ∈ x.compatibleMapStore.keys
    · simp [hin, hkey]
    · have hnone : x.compatibleMapStore.lookup (concatenateGuids realm check) = none :=
        AList.lookup_eq_none.mpr hkey
      simp [hin, hkey, hnone]
  · simp [hin, hold]

theorem removeFromQueue (h : Refines realm known x y) (hknown : known.InjOn (guidText realm))
    (hguid : guid ∈ known) :
    Refines realm known (x.removeFromQueue guid) (y.removeFromQueue guid) := by
  have hremoved := ((h.removeFromNewQueue guid).removeFromCurrentQueue guid).removeFromCompatibles
    hknown hguid
  refine { hremoved with data := funext fun other => ?_ }
  have hold := congrFun hremoved.data other
  simp only [DungeonFinding.LFGQueue.removeFromQueue, LFGQueue.removeFromQueue, LFGQueue.dataOf,
    Assoc.lookup_erase, Assoc.lookup_mapVal] at hold ⊢
  split
  · rfl
  · rw [hold, Option.map_map]
    refine congrArg (Option.map · _) (funext fun e => ?_)
    exact (data_forget _ _ _ e).symm

theorem updateBest (h : Refines realm known x y) (check : List Guid) (roles : LfgRolesMap) :
    Refines realm known (x.updateBest check roles) y := by
  refine { h with data := h.data.trans (funext fun other => ?_) }
  simp only [LFGQueue.dataOf, LFGQueue.updateBest]
  generalize concatenateGuids x.realm check = key
  generalize x.queueDataStore = store
  induction check generalizing store with
  | nil => rfl
  | cons guid check ih =>
    rw [List.foldl_cons, ← ih, Assoc.modify, Assoc.lookup_mapVal, Option.map_map]
    refine congrArg (Option.map · _) (funext fun e => ?_)
    rw [Function.comp_apply]
    split
    · exact (data_updateBestCompatible e key roles).symm
    · rfl

theorem addToQueue (h : Refines realm known x y) (hguid : guid ∈ known) (reAdd : Bool) :
    Refines realm known (x.addToQueue guid reAdd) (y.addToQueue guid reAdd) := by
  have hdata := congrFun h.data guid
  rw [LFGQueue.dataOf] at hdata
  cases hold : x.queueDataStore.lookup guid with
  | none =>
    rw [hold, Option.map_none] at hdata
    simpa only [LFGQueue.addToQueue, DungeonFinding.LFGQueue.addToQueue, hold, hdata] using h
  | some e =>
    rw [hold, Option.map_some] at hdata
    simp only [LFGQueue.addToQueue, DungeonFinding.LFGQueue.addToQueue, hold, hdata]
    cases reAdd with
    | true =>
      exact { h with
        current := congrArg (guid :: ·) h.current
        currentKnown := List.forall_mem_cons.mpr ⟨hguid, h.currentKnown⟩ }
    | false =>
      exact { h with
        new := congrArg (· ++ [guid]) h.new
        newKnown := List.forall_mem_append.mpr ⟨h.newKnown, List.forall_mem_singleton.mpr hguid⟩ }

theorem addQueueData (h : Refines realm known x y) (hguid : guid ∈ known)
    (dungeons : LfgDungeonSet) (roles : LfgRolesMap) :
    Refines realm known (x.addQueueData guid dungeons roles)
      (y.addQueueData guid dungeons roles) := by
  have hinserted : Refines realm known
      { x with queueDataStore := x.queueDataStore.insert guid ⟨⟨dungeons, roles⟩, tanksNeeded,
          healersNeeded, dpsNeeded, []⟩ }
      { y with queueDataStore := y.queueDataStore.insert guid ⟨dungeons, roles⟩ } := by
    refine { h with data := funext fun other => ?_ }
    have hold := congrFun h.data other
    simp only [LFGQueue.dataOf, Assoc.lookup_insert] at hold ⊢
    split
    · rfl
    · exact hold
  exact hinserted.addToQueue hguid false

end Refines

section Search

theorem countPlayers_error_mem {data : Guid → Option LfgQueueData} {isLfgGroup : Guid → Bool}
    {guid : Guid} {check : List Guid} {numPlayers numLfgGroups : Nat}
    (h : countPlayers data isLfgGroup check numPlayers numLfgGroups = .error guid) :
    guid ∈ check := by
  induction check generalizing numPlayers numLfgGroups with
  | nil => cases h
  | cons g rest ih =>
    simp only [countPlayers] at h
    split at h
    · split at h
      · cases h
        exact List.mem_cons_self ..
      · exact List.mem_cons_of_mem _ (ih h)
    · cases h

/-- What the queue reads of the manager. -/
structure Simulates (realm : Nat) (known : Set Guid) (view : ManagerView) (q : Nat) (x : LFGQueue)
    (s : State) : Prop where
  queue : Refines realm known x (s.queuesStore q)
  isLfgGroup : s.isLfgGroup = view.isLfgGroup
  allQueued : s.allQueued = view.allQueued

def Answers {α : Type} (realm : Nat) (known : Set Guid) (view : ManagerView) (q : Nat)
    (x : α × LFGQueue) (s : α × State) : Prop :=
  s.1 = x.1 ∧ Simulates realm known view q x.2 s.2

namespace Simulates

variable {view : ManagerView} {q : Nat} {x x' : LFGQueue} {s : State} {check : List Guid}

theorem modifyQueue (h : Simulates realm known view q x s) {f : DungeonFinding.LFGQueue → _}
    (hqueue : Refines realm known x' (f (s.queuesStore q))) :
    Simulates realm known view q x' (s.modifyQueue q f) := by
  refine { h with queue := ?_ }
  simpa only [State.modifyQueue, Function.update_self] using hqueue

theorem setCompatibles (h : Simulates realm known view q x s)
    (hknown : known.InjOn (guidText realm)) (hcheck : ∀ g ∈ check, g ∈ known)
    (compatibles : LfgCompatibility) :
    Simulates realm known view q (x.setCompatibles (concatenateGuids realm check) compatibles)
      (s.modifyQueue q (·.setCompatibles check compatibles)) :=
  h.modifyQueue (h.queue.setCompatibles hknown hcheck compatibles)

theorem addProposal (h : Simulates realm known view q x s) (proposal : LfgProposal)
    (check : List Guid) :
    Simulates realm known view q { x with proposals := x.proposals ++ [check] }
      (s.addProposal proposal) :=
  { h with queue := { h.queue with } }

theorem checkGroup (h : Simulates realm known view q x s) (hknown : known.InjOn (guidText realm))
    (hcheck : ∀ g ∈ check, g ∈ known) :
    Answers realm known view q (checkGroup view x check)
      (s.checkGroup view.toLfgView q check) := by
  have hdata : s.queueData q = x.dataOf := h.queue.data
  simp only [State.checkGroup, DungeonQueue.checkGroup, hdata, h.isLfgGroup, h.allQueued,
    h.queue.sameRealm]
  cases hcount : countPlayers x.dataOf view.isLfgGroup check 0 0 with
  | error guid =>
    have hguid := hcheck guid (countPlayers_error_mem hcount)
    exact ⟨rfl, h.modifyQueue (f := (·.removeFromQueue guid))
      (h.queue.removeFromQueue hknown hguid)⟩
  | ok counts =>
    have htaken : Simulates realm known view q (x.takeFromQueue check) (s.takeFromQueue q check) :=
      h.modifyQueue (h.queue.takeFromQueue check)
    dsimp only
    cases compatibilityOf x.dataOf view.toLfgView view.allQueued check counts.1 counts.2
    case withLessPlayers =>
      exact ⟨rfl, h.modifyQueue (f := (·.setCompatibles check .withLessPlayers))
        ((h.queue.updateBest check _).setCompatibilityData hknown hcheck _)⟩
    case matched =>
      exact ⟨rfl, (htaken.addProposal _ check).setCompatibles hknown hcheck _⟩
    all_goals exact ⟨rfl, h.setCompatibles hknown hcheck _⟩

theorem checkCompatibility (h : Simulates realm known view q x s)
    (hknown : known.InjOn (guidText realm)) (hcheck : ∀ g ∈ check, g ∈ known) :
    Answers realm known view q (checkCompatibility view check x)
      (s.checkCompatibility view.toLfgView q check) := by
  induction check with
  | nil => exact ⟨rfl, h⟩
  | cons guid rest ih =>
    obtain ⟨hfound, hchild⟩ := ih fun g hg => hcheck g (List.mem_cons_of_mem _ hg)
    simp only [State.checkCompatibility, DungeonQueue.checkCompatibility, hfound,
      h.queue.sameRealm]
    split
    · exact ⟨rfl, h⟩
    · split
      · split
        · exact hchild.checkGroup hknown hcheck
        · exact ⟨rfl, hchild.setCompatibles hknown hcheck _⟩
      · exact h.checkGroup hknown hcheck

theorem whenQueued {b : LfgCompatibility × LFGQueue} {a : LfgCompatibility × State}
    (h : Answers realm known view q b a) (hknown : known.InjOn (guidText realm))
    (hcheck : ∀ g ∈ check, g ∈ known) :
    Answers realm known view q
      (if b.1 = .badStates ∧ view.allQueued check then
        (.matched, b.2.setCompatibles (concatenateGuids realm check) .matched) else b)
      (if a.1 = .badStates ∧ a.2.allQueued check then
        (.matched, a.2.modifyQueue q (·.setCompatibles check .matched)) else a) := by
  rw [h.1, h.2.allQueued]
  split
  · exact ⟨rfl, h.2.setCompatibles hknown hcheck .matched⟩
  · exact h

theorem findCompatibility (h : Simulates realm known view q x s)
    (hknown : known.InjOn (guidText realm)) (hcheck : ∀ g ∈ check, g ∈ known) :
    Answers realm known view q (findCompatibility view check x)
      (s.findCompatibility view.toLfgView q check) := by
  have hstored := h.queue.compatibles check hcheck
  simp only [State.findCompatibility, DungeonQueue.findCompatibility, h.queue.sameRealm, hstored]
  by_cases hpending : x.getCompatibles (concatenateGuids realm check) = .pending
  · simpa only [if_pos hpending] using
      whenQueued (h.checkCompatibility hknown hcheck) hknown hcheck
  · simpa only [if_neg hpending] using
      whenQueued (b := (_, x)) (a := (_, s)) ⟨rfl, h⟩ hknown hcheck

theorem matchQueued (h : Simulates realm known view q x s) (hknown : known.InjOn (guidText realm))
    (hcheck : ∀ g ∈ check, g ∈ known) {all : List Guid} (hall : ∀ g ∈ all, g ∈ known) :
    Answers realm known view q (matchQueued view check all x)
      (s.matchQueued view.toLfgView q check all) := by
  induction all generalizing check x s with
  | nil => exact ⟨rfl, h⟩
  | cons guid all ih =>
    obtain ⟨hguid, hrest⟩ := List.forall_mem_cons.mp hall
    have hsub : ∀ g ∈ check ++ [guid], g ∈ known :=
      List.forall_mem_append.mpr ⟨hcheck, List.forall_mem_singleton.mpr hguid⟩
    obtain ⟨hfound, hnext⟩ := h.findCompatibility hknown hsub
    simp only [State.matchQueued, DungeonQueue.matchQueued, hfound]
    split
    · exact ⟨rfl, hnext⟩
    · split
      · exact ih hnext hsub hrest
      · exact ih hnext hcheck hrest

theorem findNewGroups (h : Simulates realm known view q x s)
    (hknown : known.InjOn (guidText realm)) (hcheck : ∀ g ∈ check, g ∈ known) {all : List Guid}
    (hall : ∀ g ∈ all, g ∈ known) :
    Answers realm known view q (findNewGroups view check all x)
      (s.findNewGroups view.toLfgView q check all) := by
  obtain ⟨hfound, hfirst⟩ := h.findCompatibility hknown hcheck
  simp only [State.findNewGroups, DungeonQueue.findNewGroups, hfound]
  split
  · exact hfirst.matchQueued hknown hcheck hall
  · exact ⟨rfl, hfirst⟩

theorem findGroup (h : Simulates realm known view q x s) (hknown : known.InjOn (guidText realm))
    {frontguid : Guid} {rest : List Guid} (hfront : x.newToQueueStore = frontguid :: rest) :
    Simulates realm known view q (findGroup view frontguid x)
      (s.findGroups view.toLfgView q) := by
  have hguid : frontguid ∈ known := h.queue.newKnown _ (hfront ▸ List.mem_cons_self ..)
  have htaken : Simulates realm known view q (x.removeFromNewQueue frontguid)
      (s.modifyQueue q (·.removeFromNewQueue frontguid)) :=
    h.modifyQueue (h.queue.removeFromNewQueue frontguid)
  obtain ⟨hfound, hnext⟩ := htaken.findNewGroups hknown (List.forall_mem_singleton.mpr hguid)
    htaken.queue.currentKnown
  simp only [State.findGroups, DungeonQueue.findGroup, h.queue.new, hfront, htaken.queue.current,
    hfound]
  split
  · exact hnext
  · exact hnext.modifyQueue (hnext.queue.addToCurrentQueue hguid)

end Simulates

/-- Each pass of the search over the texts is one over the sets of guids. -/
theorem findGroups_simulates {view : ManagerView} {q : Nat} {x : LFGQueue} {s : State}
    (h : Simulates realm known view q x s) (hknown : known.InjOn (guidText realm)) (passes : Nat) :
    Simulates realm known view q (findGroupsFuel view passes x)
      ((State.findGroups view.toLfgView q)^[passes] s) := by
  induction passes generalizing x s with
  | zero => exact h
  | succ passes ih =>
    rw [Function.iterate_succ_apply, findGroupsFuel]
    cases hnew : x.newToQueueStore with
    | nil =>
      have hdone : s.findGroups view.toLfgView q = s := by
        simp only [State.findGroups, h.queue.new, hnew]
      rw [hdone, Function.iterate_fixed hdone]
      exact h
    | cons frontguid rest => exact ih (h.findGroup hknown hnew)

end Search

end Ashamane.DungeonQueue
