import Ashamane.Achievements.Timed
import Ashamane.Lib.Run

/-! Progress of timed criteria comes from timers that run or that ended in time. -/
namespace Ashamane.Achievements
open Ashamane.Lib

variable {forest : Forest} {h h' : Handler} {criteria : Criteria} {tree : CriteriaTree}

namespace Handler

def Alive (h : Handler) (id : Nat) : Prop := id ∈ h.timeCriteriaTrees ∨ id ∈ h.succeeded

end Handler

def Backed (forest : Forest) (h : Handler) : Prop :=
  ∀ criteria ∈ forest.criteria, criteria.startTimer ≠ 0 →
    h.criteriaProgress.lookup criteria.id ≠ none →
      ∃ tree ∈ forest.criteriaTreesByCriteria criteria, h.Alive tree.id

structure Sustains (forest : Forest) (h h' : Handler) : Prop where
  alive : ∀ id, h.Alive id → h'.Alive id
  progress : ∀ criteria ∈ forest.criteria, criteria.startTimer ≠ 0 →
    h'.criteriaProgress.lookup criteria.id = h.criteriaProgress.lookup criteria.id ∨
      ∃ tree ∈ forest.criteriaTreesByCriteria criteria, h'.Alive tree.id

namespace Sustains

theorem refl (h : Handler) : Sustains forest h h where
  alive := fun _ halive => halive
  progress := fun _ _ _ => .inl rfl

theorem trans {h'' : Handler} (hfirst : Sustains forest h h') (hnext : Sustains forest h' h'') :
    Sustains forest h h'' where
  alive := fun id halive => hnext.alive id (hfirst.alive id halive)
  progress := by
    intro criteria hloaded htimed
    obtain hsame | htree := hnext.progress criteria hloaded htimed
    · obtain hsame' | ⟨tree, htree, halive⟩ := hfirst.progress criteria hloaded htimed
      · exact .inl (hsame.trans hsame')
      · exact .inr ⟨tree, htree, hnext.alive _ halive⟩
    · exact .inr htree

theorem backed (hsustains : Sustains forest h h') (hbacked : Backed forest h) :
    Backed forest h' := by
  intro criteria hloaded htimed hprogress
  obtain hsame | htree := hsustains.progress criteria hloaded htimed
  · rw [hsame] at hprogress
    obtain ⟨tree, htree, halive⟩ := hbacked criteria hloaded htimed hprogress
    exact ⟨tree, htree, hsustains.alive _ halive⟩
  · exact htree

end Sustains

section Setting

theorem alive_stop (h : Handler) (id other : Nat) (halive : h.Alive other) :
    Handler.Alive { h with
      timeCriteriaTrees := h.timeCriteriaTrees.erase id
      succeeded := id :: h.succeeded } other := by
  by_cases hid : other = id
  · exact .inr (List.mem_cons.mpr (.inl hid))
  · obtain hrun | hdone := halive
    · exact .inl (AList.mem_erase.mpr ⟨hid, hrun⟩)
    · exact .inr (List.mem_cons_of_mem _ hdone)

theorem stopCompleted_alive (canComplete : CriteriaTree → Bool) (trees : List CriteriaTree)
    (h : Handler) (id : Nat) (halive : h.Alive id) :
    (h.stopCompleted canComplete trees).Alive id ∧
      (h.stopCompleted canComplete trees).criteriaProgress = h.criteriaProgress := by
  refine List.foldlRecOn trees _ (motive := fun h' : Handler =>
    h'.Alive id ∧ h'.criteriaProgress = h.criteriaProgress) ⟨halive, rfl⟩ ?_
  intro h' hkept tree _
  split_ifs
  · exact ⟨alive_stop h' tree.id id hkept.1, hkept.2⟩
  · exact hkept

theorem any_running {trees : List CriteriaTree}
    (hany : (trees.any fun tree => h.running tree) = true) :
    ∃ tree ∈ trees, h.Alive tree.id := by
  obtain ⟨tree, htree, hrunning⟩ := List.any_eq_true.mp hany
  exact ⟨tree, htree, .inl (of_decide_eq_true hrunning)⟩

theorem writeProgress_sustains (canComplete : CriteriaTree → Bool) (counter : BitVec 64)
    (hloaded : criteria ∈ forest.criteria)
    (hrunning : criteria.startTimer ≠ 0 →
      ((forest.criteriaTreesByCriteria criteria).any fun tree => h.running tree) = true) :
    Sustains forest h (h.writeProgress forest canComplete criteria counter) := by
  have hinsert : ∀ other ∈ forest.criteria, other ≠ criteria →
      (h.criteriaProgress.insert criteria.id counter).lookup other.id =
        h.criteriaProgress.lookup other.id := fun other hother hne =>
    AList.lookup_insert_ne fun heq => hne (forest.distinctCriteria _ hother _ hloaded heq)
  unfold Handler.writeProgress
  dsimp only
  split_ifs with htimed
  · set written : Handler := { h with
      criteriaProgress := h.criteriaProgress.insert criteria.id counter }
    have hkept := stopCompleted_alive canComplete (forest.criteriaTreesByCriteria criteria) written
    refine ⟨fun id halive => (hkept id halive).1, fun other hother hotherTimed => ?_⟩
    obtain ⟨tree, htree, halive⟩ := any_running (hrunning htimed)
    by_cases hne : other = criteria
    · subst hne
      exact .inr ⟨tree, htree, (hkept _ halive).1⟩
    · rw [(hkept _ halive).2]
      exact .inl (hinsert other hother hne)
  · refine ⟨fun _ halive => halive, fun other hother hotherTimed => ?_⟩
    exact .inl (hinsert other hother fun heq => htimed (heq ▸ hotherTimed))

theorem setCriteriaProgress_sustains (canComplete : CriteriaTree → Bool)
    (changeValue : BitVec 64) (progressType : ProgressType)
    (hloaded : criteria ∈ forest.criteria) :
    Sustains forest h
      (h.setCriteriaProgress forest canComplete criteria changeValue progressType) := by
  unfold Handler.setCriteriaProgress
  by_cases hstopped : (criteria.startTimer ≠ 0 &&
      !(forest.criteriaTreesByCriteria criteria).any fun tree => h.running tree) = true
  · rw [if_pos hstopped]
    exact .refl h
  · rw [if_neg hstopped]
    have hrunning : criteria.startTimer ≠ 0 →
        ((forest.criteriaTreesByCriteria criteria).any fun tree => h.running tree) = true := by
      intro htimed
      simpa [htimed] using hstopped
    cases h.criteriaProgress.lookup criteria.id with
    | none =>
      dsimp only
      split_ifs
      · exact .refl h
      · exact writeProgress_sustains canComplete _ hloaded hrunning
    | some counter =>
      dsimp only
      split_ifs
      · exact .refl h
      · exact writeProgress_sustains canComplete _ hloaded hrunning

theorem setCriteriaProgress_stopped (canComplete : CriteriaTree → Bool)
    (changeValue : BitVec 64) (progressType : ProgressType) (htimed : criteria.startTimer ≠ 0)
    (hstopped : ∀ tree ∈ forest.criteriaTreesByCriteria criteria, h.running tree = false) :
    h.setCriteriaProgress forest canComplete criteria changeValue progressType = h := by
  unfold Handler.setCriteriaProgress
  rw [if_pos]
  have hany : ((forest.criteriaTreesByCriteria criteria).any fun tree => h.running tree) =
      false := List.any_eq_false.mpr fun tree htree => by simp [hstopped tree htree]
  simp [htimed, hany]

end Setting

section Starting

theorem startTree_sustains (canComplete : CriteriaTree → Bool) (timeLost : Nat)
    (state : Handler × Bool) (tree : CriteriaTree) :
    Sustains forest state.1 (Handler.startTree canComplete criteria timeLost state tree).1 := by
  unfold Handler.startTree
  split_ifs
  · refine ⟨fun id halive => ?_, fun _ _ _ => .inl rfl⟩
    by_cases hid : id = tree.id
    · exact .inl ((AList.mem_insert _).mpr (.inl hid))
    · obtain hrun | hdone := halive
      · exact .inl ((AList.mem_insert _).mpr (.inr hrun))
      · exact .inr (List.mem_filter.mpr ⟨hdone, decide_eq_true hid⟩)
  · exact .refl _
  · exact .refl _

theorem startCriteria_sustains (canComplete : CriteriaTree → Bool) (entry : Int) (timeLost : Nat)
    (hloaded : criteria ∈ forest.criteria) :
    Sustains forest h (h.startCriteria forest canComplete entry timeLost criteria) := by
  unfold Handler.startCriteria
  split_ifs with hentry
  · exact .refl h
  · have hstarted : Sustains forest h ((forest.criteriaTreesByCriteria criteria).foldl
        (Handler.startTree canComplete criteria timeLost) (h, false)).1 :=
      List.foldlRecOn (motive := fun state => Sustains forest h state.1) _ _ (.refl h)
        fun state hstate tree _ => hstate.trans (startTree_sustains canComplete timeLost state tree)
    dsimp only
    split_ifs
    · exact hstarted
    · exact hstarted.trans (setCriteriaProgress_sustains canComplete 0 .set hloaded)

theorem startCriteriaTimer_sustains (canComplete : CriteriaTree → Bool) (type : Nat)
    (entry : Int) (timeLost : Nat) (h : Handler) :
    Sustains forest h (h.startCriteriaTimer forest canComplete type entry timeLost) :=
  List.foldlRecOn _ _ (.refl h) fun _ hsustains _ hmem =>
    hsustains.trans (startCriteria_sustains canComplete entry timeLost (List.mem_filter.mp hmem).1)

end Starting

section Ending

theorem removeCriteria_progress (entry : Int) (removed : List Criteria) (h : Handler) (id : Nat)
    (hleft : (removed.foldl (Handler.removeCriteria forest entry) h).criteriaProgress.lookup id ≠
      none) :
    (removed.foldl (Handler.removeCriteria forest entry) h).criteriaProgress.lookup id =
        h.criteriaProgress.lookup id ∧
      ∀ criteria ∈ removed, criteria.startAsset = entry → criteria.id ≠ id := by
  induction removed generalizing h with
  | nil => exact ⟨rfl, nofun⟩
  | cons first removed ih =>
    obtain ⟨hsame, hother⟩ := ih _ hleft
    rw [List.foldl_cons] at hleft ⊢
    by_cases hentry : first.startAsset = entry
    · have hfirst : (h.removeCriteria forest entry first).criteriaProgress =
          h.criteriaProgress.erase first.id := by
        unfold Handler.removeCriteria
        rw [if_neg (not_not_intro hentry)]
        rfl
      rw [hfirst, Assoc.lookup_erase] at hsame
      have hne : id ≠ first.id := fun heq => by
        rw [if_pos heq] at hsame
        exact hleft hsame
      rw [if_neg hne] at hsame
      exact ⟨hsame, List.forall_mem_cons.mpr ⟨fun _ => hne.symm, hother⟩⟩
    · have hfirst : h.removeCriteria forest entry first = h := by
        unfold Handler.removeCriteria
        rw [if_pos hentry]
      rw [hfirst] at hsame ⊢
      exact ⟨hsame, List.forall_mem_cons.mpr ⟨fun heq => absurd heq hentry, hother⟩⟩

theorem removeCriteria_alive (entry : Int) (removed : List Criteria) (h : Handler) (id : Nat)
    (hother : ∀ criteria ∈ removed, criteria.startAsset = entry →
      ∀ tree ∈ forest.criteriaTreesByCriteria criteria, tree.id ≠ id) (halive : h.Alive id) :
    (removed.foldl (Handler.removeCriteria forest entry) h).Alive id := by
  refine List.foldlRecOn removed _ (motive := fun h' : Handler => h'.Alive id) halive ?_
  intro h' halive criteria hmem
  unfold Handler.removeCriteria
  split_ifs with hentry
  · exact halive
  · obtain hrun | hdone := halive
    · refine .inl (List.foldlRecOn _ _ (motive := fun timers : AList fun _ : Nat => Nat =>
        id ∈ timers) hrun fun timers htimers tree htree => ?_)
      exact AList.mem_erase.mpr ⟨(hother criteria hmem (of_not_not hentry) tree htree).symm,
        htimers⟩
    · exact .inr hdone

theorem updateTimer_progress (timeDiff : Nat) (timers : List (Sigma fun _ : Nat => Nat))
    (h : Handler) (id : Nat)
    (hleft : (timers.foldl (Handler.updateTimer forest timeDiff) h).criteriaProgress.lookup id ≠
      none) :
    (timers.foldl (Handler.updateTimer forest timeDiff) h).criteriaProgress.lookup id =
        h.criteriaProgress.lookup id ∧
      ∀ timer ∈ timers, timer.2 ≤ timeDiff → ∀ criteria,
        (forest.criteriaTree timer.1).bind CriteriaTree.criteria = some criteria →
          criteria.id ≠ id := by
  induction timers generalizing h with
  | nil => exact ⟨rfl, nofun⟩
  | cons first timers ih =>
    obtain ⟨hsame, hother⟩ := ih _ hleft
    rw [List.foldl_cons] at hleft ⊢
    by_cases hup : first.2 ≤ timeDiff
    · cases hroot : (forest.criteriaTree first.1).bind CriteriaTree.criteria with
      | none =>
        have hfirst : (h.updateTimer forest timeDiff first).criteriaProgress =
            h.criteriaProgress := by
          unfold Handler.updateTimer
          rw [if_pos hup, hroot]
        rw [hfirst] at hsame
        refine ⟨hsame, List.forall_mem_cons.mpr ⟨fun _ criteria heq => ?_, hother⟩⟩
        rw [hroot] at heq
        cases heq
      | some root =>
        have hfirst : (h.updateTimer forest timeDiff first).criteriaProgress =
            h.criteriaProgress.erase root.id := by
          unfold Handler.updateTimer
          rw [if_pos hup, hroot]
          rfl
        rw [hfirst, Assoc.lookup_erase] at hsame
        have hne : id ≠ root.id := fun heq => by
          rw [if_pos heq] at hsame
          exact hleft hsame
        rw [if_neg hne] at hsame
        refine ⟨hsame, List.forall_mem_cons.mpr ⟨fun _ criteria heq => ?_, hother⟩⟩
        rw [hroot] at heq
        cases heq
        exact hne.symm
    · have hfirst : (h.updateTimer forest timeDiff first).criteriaProgress =
          h.criteriaProgress := by
        unfold Handler.updateTimer
        rw [if_neg hup]
      rw [hfirst] at hsame
      exact ⟨hsame, List.forall_mem_cons.mpr ⟨fun hle => absurd hle hup, hother⟩⟩

theorem updateTimer_running (timeDiff : Nat) (timers : List (Sigma fun _ : Nat => Nat))
    (h : Handler) (id : Nat) (hleft : ∀ timer ∈ timers, timer.1 = id → timeDiff < timer.2)
    (hrun : id ∈ h.timeCriteriaTrees) :
    id ∈ (timers.foldl (Handler.updateTimer forest timeDiff) h).timeCriteriaTrees := by
  refine List.foldlRecOn timers _ (motive := fun h' : Handler => id ∈ h'.timeCriteriaTrees) hrun ?_
  intro h' hrun timer htimer
  unfold Handler.updateTimer
  split_ifs with hup
  · have hne : id ≠ timer.1 := fun heq => by
      have := hleft timer htimer heq.symm
      omega
    cases (forest.criteriaTree timer.1).bind CriteriaTree.criteria with
    | none => exact AList.mem_erase.mpr ⟨hne, hrun⟩
    | some criteria => exact AList.mem_erase.mpr ⟨hne, hrun⟩
  · exact (AList.mem_insert _).mpr (.inr hrun)

theorem updateTimer_succeeded (timeDiff : Nat) (timers : List (Sigma fun _ : Nat => Nat))
    (h : Handler) :
    (timers.foldl (Handler.updateTimer forest timeDiff) h).succeeded = h.succeeded := by
  refine List.foldlRecOn timers _ (motive := fun h' : Handler => h'.succeeded = h.succeeded) rfl ?_
  intro h' hsame timer _
  unfold Handler.updateTimer
  split_ifs
  · cases (forest.criteriaTree timer.1).bind CriteriaTree.criteria <;> exact hsame
  · exact hsame

end Ending

namespace Handler

def LastUp (forest : Forest) (criteria : Criteria) (timeDiff : Nat) (h : Handler) : Prop :=
  ∀ tree ∈ forest.criteriaTreesByCriteria criteria, ∀ left,
    h.timeCriteriaTrees.lookup tree.id = some left → left ≤ timeDiff

end Handler

def Fine (forest : Forest) (h : Handler) : Op forest → Prop
  | .start .. => True
  | .set .. => True
  | .remove type entry => ∀ criteria ∈ forest.criteria, criteria.startTimer ≠ 0 →
      h.criteriaProgress.lookup criteria.id ≠ none →
        (criteria ∈ forest.timedCriteriaByType type ∧ criteria.startAsset = entry) ∨
          ∃ tree ∈ forest.criteriaTreesByCriteria criteria, h.Alive tree.id ∧
            ∀ other ∈ forest.timedCriteriaByType type, other.startAsset = entry →
              ∀ shared ∈ forest.criteriaTreesByCriteria other, shared.id ≠ tree.id
  | .update canComplete timeDiff => ∀ criteria ∈ forest.criteria, criteria.startTimer ≠ 0 →
      h.criteriaProgress.lookup criteria.id ≠ none →
        (∃ tree ∈ forest.criteriaTreesByCriteria criteria, h.running tree = true) →
        h.LastUp forest criteria timeDiff →
        (∀ tree ∈ forest.criteriaTreesByCriteria criteria,
          isCompletedCriteriaTree h.criteriaProgress canComplete tree = false) →
          ∃ tree ∈ forest.criteriaTreesByCriteria criteria,
            h.running tree = true ∧ tree.carries criteria = true

/-- When the last timer of a criterion expires and none of its trees is completed, its progress
is removed. -/
def Expires (forest : Forest) (h : Handler) : Op forest → Prop
  | .update canComplete timeDiff => ∀ criteria ∈ forest.criteria, criteria.startTimer ≠ 0 →
      (∃ tree ∈ forest.criteriaTreesByCriteria criteria, h.running tree = true) →
      (∀ tree ∈ forest.criteriaTreesByCriteria criteria,
        (step forest h (.update canComplete timeDiff)).running tree = false) →
      (∀ tree ∈ forest.criteriaTreesByCriteria criteria,
        isCompletedCriteriaTree h.criteriaProgress canComplete tree = false) →
        (step forest h (.update canComplete timeDiff)).criteriaProgress.lookup criteria.id = none
  | _ => True

def NeverGains (forest : Forest) (h : Handler) (op : Op forest) : Prop :=
  (∀ criteria ∈ forest.criteria, criteria.startTimer ≠ 0 →
    (∀ tree ∈ forest.criteriaTreesByCriteria criteria, ¬(step forest h op).Alive tree.id) →
      (step forest h op).criteriaProgress.lookup criteria.id = none ∨
        (step forest h op).criteriaProgress.lookup criteria.id =
          h.criteriaProgress.lookup criteria.id) ∧
  match op with
  | .set _ criteria _ _ _ => criteria.startTimer ≠ 0 →
      (∀ tree ∈ forest.criteriaTreesByCriteria criteria, h.running tree = false) →
        step forest h op = h
  | _ => True

theorem mem_criteriaTrees (htree : tree ∈ forest.criteriaTreesByCriteria criteria) :
    ∃ root ∈ forest.roots, root.tree = tree := by
  obtain ⟨root, hroot, htree⟩ := List.mem_flatMap.mp htree
  refine ⟨root, hroot, ?_⟩
  obtain hself | hbelow := List.mem_append.mp htree
  · split_ifs at hself
    · exact (List.mem_singleton.mp hself).symm
    · cases hself
  · obtain ⟨_, -, rfl⟩ := List.mem_map.mp hbelow
    rfl

theorem criteriaTree_id (htree : tree ∈ forest.criteriaTreesByCriteria criteria) :
    forest.criteriaTree tree.id = some tree := by
  obtain ⟨root, hroot, rfl⟩ := mem_criteriaTrees htree
  unfold Forest.criteriaTree
  cases hfind : forest.roots.find? fun other => other.tree.id = root.tree.id with
  | none => exact absurd (decide_eq_true rfl) (List.find?_eq_none.mp hfind root hroot)
  | some other =>
    have hid : other.tree.id = root.tree.id := by simpa using List.find?_some hfind
    rw [forest.distinctRoots other (List.mem_of_find?_eq_some hfind) root hroot hid]
    rfl

section Updating
variable {canComplete : CriteriaTree → Bool} {timeDiff : Nat}

theorem update_left {id : Nat}
    (hleft : (h.updateTimedCriteria forest canComplete timeDiff).criteriaProgress.lookup id ≠
      none) :
    (h.updateTimedCriteria forest canComplete timeDiff).criteriaProgress.lookup id =
        h.criteriaProgress.lookup id ∧
      ∀ timer ∈ h.timeCriteriaTrees.entries, timer.2 ≤ timeDiff → ∀ criteria,
        (forest.criteriaTree timer.1).bind CriteriaTree.criteria = some criteria →
          criteria.id ≠ id :=
  updateTimer_progress _ _ _ _ hleft

theorem update_running {id left : Nat} (hrun : h.timeCriteriaTrees.lookup id = some left)
    (hleft : timeDiff < left) :
    id ∈ (h.updateTimedCriteria forest canComplete timeDiff).timeCriteriaTrees := by
  refine updateTimer_running _ _ _ _ (fun timer htimer hid => ?_)
    (AList.lookup_isSome.mp (hrun ▸ rfl))
  obtain ⟨other, time⟩ := timer
  obtain rfl : other = id := hid
  obtain rfl := Option.some.inj ((Assoc.mem_entries_iff.mp htimer).symm.trans hrun)
  exact hleft

theorem update_succeeded :
    (h.updateTimedCriteria forest canComplete timeDiff).succeeded =
      h.succeeded ++ ((forest.roots.map Root.tree).filter fun tree =>
        isCompletedCriteriaTree h.criteriaProgress canComplete tree).map CriteriaTree.id :=
  updateTimer_succeeded _ _ _

theorem update_removed {left : Nat} (htree : tree ∈ forest.criteriaTreesByCriteria criteria)
    (hrun : h.timeCriteriaTrees.lookup tree.id = some left) (hup : left ≤ timeDiff)
    (hcarries : tree.carries criteria = true) :
    (h.updateTimedCriteria forest canComplete timeDiff).criteriaProgress.lookup criteria.id =
      none := by
  by_contra hleft
  obtain ⟨root, hroot, hid⟩ : ∃ root, tree.criteria = some root ∧ root.id = criteria.id :=
    Option.map_eq_some_iff.mp (of_decide_eq_true hcarries)
  refine (update_left hleft).2 ⟨tree.id, left⟩ (Assoc.mem_entries_iff.mpr hrun) hup root ?_ hid
  rw [criteriaTree_id htree]
  exact hroot

theorem Fine.removed (hfine : Fine forest h (.update canComplete timeDiff))
    (hloaded : criteria ∈ forest.criteria) (htimed : criteria.startTimer ≠ 0)
    (hrunning : ∃ tree ∈ forest.criteriaTreesByCriteria criteria, h.running tree = true)
    (hlast : h.LastUp forest criteria timeDiff)
    (hopen : ∀ tree ∈ forest.criteriaTreesByCriteria criteria,
      isCompletedCriteriaTree h.criteriaProgress canComplete tree = false) :
    (h.updateTimedCriteria forest canComplete timeDiff).criteriaProgress.lookup criteria.id =
      none := by
  by_contra hleft
  have hprogress := (update_left hleft).1 ▸ hleft
  obtain ⟨tree, htree, hrun, hcarries⟩ :=
    hfine criteria hloaded htimed hprogress hrunning hlast hopen
  obtain ⟨left, hleftTime⟩ :=
    Option.isSome_iff_exists.mp (AList.lookup_isSome.mpr (of_decide_eq_true hrun))
  exact hleft (update_removed htree hleftTime (hlast tree htree left hleftTime) hcarries)

theorem Fine.expires (hfine : Fine forest h (.update canComplete timeDiff)) :
    Expires forest h (.update canComplete timeDiff) := by
  intro criteria hloaded htimed hrunning hstopped hopen
  refine hfine.removed hloaded htimed hrunning (fun tree htree left hleft => ?_) hopen
  by_contra hmore
  have hstays : tree.id ∈ (h.updateTimedCriteria forest canComplete timeDiff).timeCriteriaTrees :=
    update_running hleft (Nat.lt_of_not_le hmore)
  exact of_decide_eq_false (hstopped tree htree) hstays

theorem Fine.backed_update (hfine : Fine forest h (.update canComplete timeDiff))
    (hbacked : Backed forest h) :
    Backed forest (h.updateTimedCriteria forest canComplete timeDiff) := by
  intro criteria hloaded htimed hleft
  have hprogress := (update_left hleft).1 ▸ hleft
  obtain ⟨tree, htree, hrun | hdone⟩ := hbacked criteria hloaded htimed hprogress
  · by_cases hlast : h.LastUp forest criteria timeDiff
    · by_cases hopen : ∀ tree ∈ forest.criteriaTreesByCriteria criteria,
          isCompletedCriteriaTree h.criteriaProgress canComplete tree = false
      · exact absurd (hfine.removed hloaded htimed ⟨tree, htree, decide_eq_true hrun⟩ hlast
          hopen) hleft
      · push Not at hopen
        obtain ⟨completed, hmem, hcompleted⟩ := hopen
        refine ⟨completed, hmem, .inr ?_⟩
        rw [update_succeeded]
        refine List.mem_append_right _ (List.mem_map.mpr ⟨completed, ?_, rfl⟩)
        obtain ⟨root, hroot, rfl⟩ := mem_criteriaTrees hmem
        exact List.mem_filter.mpr ⟨List.mem_map_of_mem hroot, by simpa using hcompleted⟩
    · unfold Handler.LastUp at hlast
      push Not at hlast
      obtain ⟨tree, htree, left, hleftTime, hmore⟩ := hlast
      exact ⟨tree, htree, .inl (update_running hleftTime hmore)⟩
  · refine ⟨tree, htree, .inr ?_⟩
    rw [update_succeeded]
    exact List.mem_append_left _ hdone

end Updating

theorem Fine.backed {op : Op forest} (hfine : Fine forest h op) (hbacked : Backed forest h) :
    Backed forest (step forest h op) := by
  cases op with
  | start canComplete type entry timeLost =>
    exact (startCriteriaTimer_sustains canComplete type entry timeLost h).backed hbacked
  | set canComplete criteria hloaded changeValue progressType =>
    exact (setCriteriaProgress_sustains canComplete changeValue progressType hloaded).backed
      hbacked
  | remove type entry =>
    intro criteria hloaded htimed hleft
    obtain ⟨hsame, hother⟩ := removeCriteria_progress entry _ h criteria.id hleft
    have hprogress := hsame ▸ hleft
    obtain ⟨hmem, hentry⟩ | ⟨tree, htree, halive, hshared⟩ :=
      hfine criteria hloaded htimed hprogress
    · exact absurd rfl (hother criteria hmem hentry)
    · exact ⟨tree, htree, removeCriteria_alive entry _ h tree.id hshared halive⟩
  | update canComplete timeDiff => exact hfine.backed_update hbacked

theorem Sustains.neverGains (hsustains : Sustains forest h h') :
    ∀ criteria ∈ forest.criteria, criteria.startTimer ≠ 0 →
      (∀ tree ∈ forest.criteriaTreesByCriteria criteria, ¬h'.Alive tree.id) →
        h'.criteriaProgress.lookup criteria.id = none ∨
          h'.criteriaProgress.lookup criteria.id = h.criteriaProgress.lookup criteria.id := by
  intro criteria hloaded htimed hdead
  obtain hsame | ⟨tree, htree, halive⟩ := hsustains.progress criteria hloaded htimed
  · exact .inr hsame
  · exact absurd halive (hdead tree htree)

theorem neverGains (h : Handler) (op : Op forest) : NeverGains forest h op := by
  cases op with
  | start canComplete type entry timeLost =>
    exact ⟨(startCriteriaTimer_sustains canComplete type entry timeLost h).neverGains, trivial⟩
  | set canComplete criteria hloaded changeValue progressType =>
    exact ⟨(setCriteriaProgress_sustains canComplete changeValue progressType hloaded).neverGains,
      setCriteriaProgress_stopped canComplete changeValue progressType⟩
  | remove type entry =>
    refine ⟨fun criteria _ _ _ => or_iff_not_imp_left.mpr fun hleft => ?_, trivial⟩
    exact (removeCriteria_progress entry _ h criteria.id hleft).1
  | update canComplete timeDiff =>
    refine ⟨fun criteria _ _ _ => or_iff_not_imp_left.mpr fun hleft => ?_, trivial⟩
    exact (update_left hleft).1

/-- In every run whose steps are fine, progress is backed by timers, expires with the last of
them and is never gained without one. -/
theorem timed_run {ops : List (Op forest)}
    (hrun : Run (fun h op h' => step forest h op = h') (Fine forest) .empty ops h) :
    Backed forest h ∧
      ∀ op, Fine forest h op → Expires forest h op ∧ NeverGains forest h op := by
  refine ⟨hrun.invariant (Backed forest) (fun _ _ _ hprogress => absurd rfl hprogress) ?_, ?_⟩
  · intro s op t hbacked hfine hstep
    exact hstep ▸ hfine.backed hbacked
  · intro op hfine
    refine ⟨?_, neverGains h op⟩
    cases op with
    | update canComplete timeDiff => exact hfine.expires
    | _ => trivial

def tenSeconds : Criteria := ⟨5, .killCreature, 7, 1, 10⟩

def rootTree : CriteriaTree := .node 1 2 .single (some tenSeconds) []

def rootForest : Forest where
  roots := [⟨rootTree, true⟩]
  criteria := [tenSeconds]
  distinctRoots := by simp
  distinctCriteria := by simp

def startTenSeconds (forest : Forest) : Op forest := .start (fun _ => true) 1 7 0

def started (forest : Forest) : Handler := step forest .empty (startTenSeconds forest)

theorem fine_rootForest :
    Fine rootForest (started rootForest) (.update (fun _ => true) 10000) := by
  intro criteria hloaded _ _ _ _ _
  obtain rfl := List.mem_singleton.mp hloaded
  have htree : rootTree ∈ rootForest.criteriaTreesByCriteria tenSeconds := List.mem_cons_self
  exact ⟨rootTree, htree, by decide +kernel, by decide⟩

theorem timed_run_root :
    Backed rootForest (step rootForest (started rootForest) (.update (fun _ => true) 10000)) := by
  have hrun : Run (fun h op h' => step rootForest h op = h') (Fine rootForest) .empty
      [startTenSeconds rootForest, .update (fun _ => true) 10000]
      (step rootForest (started rootForest) (.update (fun _ => true) 10000)) :=
    .cons (u := started rootForest) trivial rfl (.cons fine_rootForest rfl (.nil _))
  exact (timed_run hrun).1

def belowForest : Forest where
  roots := [⟨.node 1 1 .all none [.node 2 2 .single (some tenSeconds) []], false⟩]
  criteria := [tenSeconds]
  distinctRoots := by simp
  distinctCriteria := by simp

/-- The timer expires and the progress stays. -/
theorem timed_run_fails_below :
    ¬∀ (forest : Forest) (ops : List (Op forest)) (h : Handler),
      Run (fun h op h' => step forest h op = h') always .empty ops h →
        Backed forest h ∧ ∀ op, Expires forest h op ∧ NeverGains forest h op := by
  intro h
  have hexpires := ((h belowForest [startTenSeconds belowForest] _
    (.cons trivial rfl (.nil _))).2 (.update (fun _ => true) 10000)).1
  have hgone := hexpires tenSeconds List.mem_cons_self (by decide)
    ⟨_, List.mem_cons_self, by decide +kernel⟩
    (List.forall_mem_singleton.mpr (by decide +kernel))
    (List.forall_mem_singleton.mpr (by decide +kernel))
  exact absurd hgone (by decide +kernel)

end Ashamane.Achievements
