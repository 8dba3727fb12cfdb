import Ashamane.DungeonFinding.Created
import Ashamane.DungeonFinding.MatchedRun

/-! Which guids a call of `FindGroups` may lose: new ones of which a match is stored, and guids
without queue data. -/
namespace Ashamane.DungeonFinding.State

variable (view : LfgView) {q : Nat} {s t : State} {created : List LfgProposal}

structure Checked (s : State) (q : Nat) (check : List Guid) (answer : LfgCompatibility)
    (created : List LfgProposal) (t : State) : Prop where
  trail : Trail s q created t
  matched : answer = .matched → ∃ p ∈ created, p.queues = check
  badStates : answer = .badStates → s.allQueued check = false

theorem compatibilityOf_badStates {data : Guid → Option LfgQueueData} {allQueued : List Guid → Bool}
    {check : List Guid} {numPlayers numLfgGroups : Nat}
    (h : compatibilityOf data view allQueued check numPlayers numLfgGroups = .badStates) :
    allQueued check = false := by
  unfold compatibilityOf at h
  by_contra hqueued
  rw [Bool.not_eq_false] at hqueued
  simp only [hqueued, Bool.not_true, Bool.false_eq_true, if_false] at h
  split at h
  · exact nomatch h
  split at h
  · exact nomatch h
  split at h
  · exact nomatch h
  split at h
  · exact nomatch h
  split at h
  · exact nomatch h
  split at h
  · exact nomatch h
  split at h <;> exact nomatch h

theorem checkGroup_checked (s : State) (q : Nat) (check : List Guid) :
    Checked s q check (s.checkGroup view q check).1 (s.checkGroupCreated view q check)
      (s.checkGroup view q check).2 := by
  cases hcount : countPlayers (s.queueData q) s.isLfgGroup check 0 0 with
  | error g =>
    simp only [checkGroup, checkGroupCreated, hcount]
    exact ⟨.removeFromQueue (countPlayers_error hcount), fun h => (by cases h),
      fun h => (by cases h)⟩
  | ok n =>
    simp only [checkGroup, checkGroupCreated, hcount]
    by_cases hmatched : compatibilityOf (s.queueData q) view s.allQueued check n.1 n.2 = .matched
    · simp only [hmatched, if_true]
      exact ⟨(trail_form s q _).setCompatibles check .matched
        fun _ => .inr ⟨_, List.mem_singleton.2 rfl, fun _ hg => hg⟩,
        fun _ => ⟨_, List.mem_singleton.2 rfl, rfl⟩, fun h => by cases h⟩
    · simp only [if_neg hmatched]
      have hbad := @compatibilityOf_badStates view (s.queueData q) s.allQueued check n.1 n.2
      refine ⟨(Trail.refl s q).setCompatibles check _ fun h => ?_, fun h => absurd h hmatched, hbad⟩
      obtain h | ⟨h, hqueued⟩ := h
      · exact absurd h hmatched
      · exact absurd (hbad h) (Bool.not_eq_false _ ▸ hqueued)

theorem checkCompatibility_checked (s : State) (q : Nat) (check : List Guid) :
    Checked s q check (s.checkCompatibility view q check).1
      (s.checkCompatibilityCreated view q check) (s.checkCompatibility view q check).2 := by
  induction check with
  | nil =>
    exact ⟨.refl s q, fun h => (by cases h), fun h => (by cases h)⟩
  | cons guid rest ih =>
    unfold checkCompatibility checkCompatibilityCreated
    split
    · exact ⟨.refl s q, fun h => (by cases h), fun h => (by cases h)⟩
    split
    · -- the guids without the first are checked before
      dsimp only
      split
      · have hgroup := checkGroup_checked view (s.checkCompatibility view q rest).2 q (guid :: rest)
        refine ⟨ih.trail.trans hgroup.trail, fun h => ?_, fun h => ?_⟩
        · obtain ⟨p, hp, heq⟩ := hgroup.matched h
          exact ⟨p, List.mem_append_right _ hp, heq⟩
        · rw [← ih.trail.allQueued_eq]
          exact hgroup.badStates h
      · rename_i hnot
        have hne : ∀ c : LfgCompatibility, c.compatible = true →
            (s.checkCompatibility view q rest).1 ≠ c := by
          rintro c hc rfl
          exact hnot hc
        rw [List.append_nil]
        refine ⟨ih.trail.setCompatibles _ _ fun h => ?_, fun h => absurd h (hne _ rfl),
          fun h => absurd h (hne _ rfl)⟩
        obtain h | ⟨h, -⟩ := h
        · exact absurd h (hne _ rfl)
        · exact absurd h (hne _ rfl)
    · exact checkGroup_checked view s q _

theorem findCompatibility_checked (s : State) (q : Nat) (check : List Guid) :
    Trail s q (s.findCompatibilityCreated view q check) (s.findCompatibility view q check).2 ∧
      ((s.findCompatibility view q check).1 = .matched →
        s.Backed q (s.findCompatibilityCreated view q check) check) := by
  unfold findCompatibility findCompatibilityCreated
  by_cases hpending : (s.queuesStore q).getCompatibles check = .pending
  · have hchecked := checkCompatibility_checked view s q check
    simp only [if_pos hpending]
    rw [if_neg]
    · refine ⟨hchecked.trail, fun h => ?_⟩
      obtain ⟨p, hp, heq⟩ := hchecked.matched h
      exact .inr ⟨p, hp, fun g hg => heq ▸ hg⟩
    · rintro ⟨hbad, hqueued⟩
      rw [hchecked.trail.allQueued_eq, hchecked.badStates hbad] at hqueued
      exact nomatch hqueued
  · simp only [if_neg hpending]
    split
    next hbad =>
      have hbacked : s.Backed q [] check := .inl (.inr hbad)
      exact ⟨(Trail.refl s q).setCompatibles check .matched fun _ => hbacked, fun _ => hbacked⟩
    next => exact ⟨.refl s q, fun h => .inl (.inl h)⟩

/-- A search for the guid `front` among the guids `others` that succeeds comes upon a stored match
or creates a proposal. -/
structure Searched (s : State) (q : Nat) (front : Guid) (others : List Guid) (answer : Bool)
    (created : List LfgProposal) (t : State) : Prop where
  trail : Trail s q created t
  found : answer = true →
    ∃ check, front ∈ check ∧ check ⊆ front :: others ∧ s.Backed q created check

theorem Searched.after {front : Guid} {others : List Guid} {answer : Bool} {u : State}
    {created' : List LfgProposal} (h : Trail s q created u)
    (h' : Searched u q front others answer created' t) :
    Searched s q front others answer (created ++ created') t := by
  refine ⟨h.trans h'.trail, fun ha => ?_⟩
  obtain ⟨check, hfront, hsub, hbacked⟩ := h'.found ha
  exact ⟨check, hfront, hsub, h.backed hbacked⟩

/-- Along the other guids: each of them joins the check or is passed over. -/
theorem matchQueued_searched (front : Guid) {sub all others : List Guid} (hsub : sub ⊆ others)
    (hall : all ⊆ others) :
    Searched s q front others (s.matchQueued view q (front :: sub) all).1
      (s.matchQueuedCreated view q (front :: sub) all)
      (s.matchQueued view q (front :: sub) all).2 := by
  induction all generalizing sub s with
  | nil => exact ⟨.refl s q, nofun⟩
  | cons guid all ih =>
    have hcheck : front :: sub ++ [guid] = front :: (sub ++ [guid]) := rfl
    obtain ⟨hguid, hall⟩ := List.cons_subset.1 hall
    have hjoined : sub ++ [guid] ⊆ others :=
      List.append_subset.2 ⟨hsub, List.cons_subset.2 ⟨hguid, List.nil_subset _⟩⟩
    unfold matchQueued matchQueuedCreated
    rw [hcheck]
    dsimp only
    obtain ⟨htrail, hfound⟩ := findCompatibility_checked view s q (front :: (sub ++ [guid]))
    split
    next hmatched =>
      rw [List.append_nil]
      exact ⟨htrail, fun _ => ⟨_, List.mem_cons_self, List.cons_subset_cons _ hjoined,
        hfound hmatched⟩⟩
    next =>
      split
      · exact .after htrail (ih hjoined hall)
      · exact .after htrail (ih hsub hall)

theorem findNewGroups_searched (s : State) (q : Nat) (front : Guid) (all : List Guid) :
    Searched s q front all (s.findNewGroups view q [front] all).1
      (s.findNewGroupsCreated view q [front] all) (s.findNewGroups view q [front] all).2 := by
  obtain ⟨htrail, hfound⟩ := findCompatibility_checked view s q [front]
  unfold findNewGroups findNewGroupsCreated
  dsimp only
  split
  next => exact .after htrail (matchQueued_searched view front (List.nil_subset _) fun _ h => h)
  next =>
    rw [List.append_nil]
    exact ⟨htrail, fun ha => ⟨[front], List.mem_singleton_self _,
      List.cons_subset_cons _ (List.nil_subset _), hfound (eq_of_beq ha)⟩⟩

structure Passed (s : State) (q : Nat) (front : Guid) (created : List LfgProposal) (t : State) :
    Prop where
  data : ∀ q' g, t.queueData q' g = s.queueData q' g
  new : Keeps s q created ((s.newOf q).filter (· != front)) (t.newOf q)
  current : ∀ g ∈ s.currentOf q, s.HasData q g → g ∈ t.currentOf q ∨ ∃ p ∈ created, g ∈ p.queues
  currentSubset : t.currentOf q ⊆ front :: s.currentOf q
  stored : ∀ check, t.StoredMatch q check → s.Backed q created check
  front : front ∈ t.currentOf q ∨
    ∃ check, front ∈ check ∧ check ⊆ front :: s.currentOf q ∧ s.Backed q created check

theorem findGroups_passed {front : Guid} {rest : List Guid} (hnew : s.newOf q = front :: rest) :
    Passed s q front (s.findGroupsCreated view q) (s.findGroups view q) := by
  set taken := s.modifyQueue q (·.removeFromNewQueue front) with htaken
  have htnew : taken.newOf q = (s.newOf q).filter (· != front) := by
    simp [htaken, newOf, modifyQueue, LFGQueue.removeFromNewQueue]
  have htcurrent : taken.currentOf q = s.currentOf q := by
    simp [htaken, currentOf, modifyQueue, LFGQueue.removeFromNewQueue]
  have htstored : ∀ check, taken.StoredMatch q check ↔ s.StoredMatch q check := by
    intro check
    have hall : taken.allQueued check = s.allQueued check := rfl
    rw [StoredMatch, StoredMatch, hall]
    simp [htaken, modifyQueue, LFGQueue.removeFromNewQueue, LFGQueue.getCompatibles]
  have htdata : ∀ q' g, taken.queueData q' g = s.queueData q' g := by
    intro q' g
    rw [htaken, queueData_modifyQueue]
    split
    next heq => rw [heq]; rfl
    · rfl
  have hsearch := findNewGroups_searched view taken q front (s.currentOf q)
  have hcreated : s.findGroupsCreated view q =
      taken.findNewGroupsCreated view q [front] (s.currentOf q) := by
    unfold findGroupsCreated
    simp only [newOf] at hnew
    rw [hnew, ← htcurrent]
  have hfound : s.findGroups view q =
      if (taken.findNewGroups view q [front] (s.currentOf q)).1 then
        (taken.findNewGroups view q [front] (s.currentOf q)).2
      else (taken.findNewGroups view q [front] (s.currentOf q)).2.modifyQueue q
        (·.addToCurrentQueue front) := by
    unfold findGroups
    simp only [newOf] at hnew
    rw [hnew, ← htcurrent]
  rw [hcreated, hfound]
  set u := (taken.findNewGroups view q [front] (s.currentOf q)).2
  set created := taken.findNewGroupsCreated view q [front] (s.currentOf q)
  have hbacked : ∀ check, taken.Backed q created check → s.Backed q created check :=
    fun check h => h.imp_left (htstored check).1
  have hkeeps : ∀ l l' : List Guid, Keeps taken q created l l' → Keeps s q created l l' :=
    fun l l' h => ⟨h.sublist, fun g hg hdata =>
      h.kept g hg ((congrArg Option.isSome (htdata q g)).trans hdata)⟩
  have hnewIn : Keeps s q created ((s.newOf q).filter (· != front)) (u.newOf q) :=
    htnew ▸ hkeeps _ _ hsearch.trail.new
  have hcurrentIn : Keeps s q created (s.currentOf q) (u.currentOf q) :=
    htcurrent ▸ hkeeps _ _ hsearch.trail.current
  split
  · rename_i hanswer
    obtain ⟨check, hfront, hsub, hcheck⟩ := hsearch.found hanswer
    exact ⟨fun q' g => (hsearch.trail.data q' g).trans (htdata q' g), hnewIn, hcurrentIn.kept,
      fun g hg => List.mem_cons_of_mem _ (hcurrentIn.sublist.subset hg),
      fun check h => hbacked check (hsearch.trail.stored check h),
      .inr ⟨check, hfront, hsub, hbacked check hcheck⟩⟩
  · have hadded : (u.modifyQueue q (·.addToCurrentQueue front)).currentOf q =
        u.currentOf q ++ [front] := by
      simp [currentOf, modifyQueue, LFGQueue.addToCurrentQueue]
    have hkept : (u.modifyQueue q (·.addToCurrentQueue front)).newOf q = u.newOf q := by
      simp [newOf, modifyQueue, LFGQueue.addToCurrentQueue]
    refine ⟨fun q' g => ?_, hkept ▸ hnewIn, fun g hg hdata => ?_, fun g hg => ?_,
      fun check h => ?_, .inl ?_⟩
    · rw [← htdata, ← hsearch.trail.data q' g, queueData_modifyQueue]
      split
      next heq => rw [heq]; rfl
      · rfl
    · rw [hadded]
      exact (hcurrentIn.kept g hg hdata).imp_left (List.mem_append_left _)
    · rw [hadded] at hg
      obtain hg | hg := List.mem_append.1 hg
      · exact List.mem_cons_of_mem _ (hcurrentIn.sublist.subset hg)
      · exact List.mem_singleton.1 hg ▸ List.mem_cons_self
    · refine hbacked check (hsearch.trail.stored check ?_)
      have hall : (u.modifyQueue q (·.addToCurrentQueue front)).allQueued check =
          u.allQueued check := rfl
      rw [StoredMatch, hall] at h
      simpa [StoredMatch, modifyQueue, LFGQueue.addToCurrentQueue, LFGQueue.getCompatibles] using h
    · rw [hadded]
      exact List.mem_append_right _ (List.mem_singleton.2 rfl)

theorem findGroupsPasses_nil (h : s.newOf q = []) (n : Nat) :
    s.findGroupsPasses view q n = s ∧ s.findGroupsPassesCreated view q n = [] := by
  have hpass : s.findGroups view q = s := by
    unfold findGroups
    simp only [newOf] at h
    rw [h]
  have hcreated : s.findGroupsCreated view q = [] := by
    unfold findGroupsCreated
    simp only [newOf] at h
    rw [h]
  induction n with
  | zero => exact ⟨rfl, rfl⟩
  | succ n ih =>
    obtain ⟨ih, ih'⟩ := ih
    refine ⟨?_, ?_⟩
    · rw [findGroupsPasses, hpass, ih]
    · rw [findGroupsPassesCreated, hcreated, hpass, ih']
      rfl

theorem findGroupsPasses_new (n : Nat) (hn : (s.newOf q).length ≤ n) :
    (s.findGroupsPasses view q n).newOf q = [] := by
  induction n generalizing s with
  | zero => exact List.length_eq_zero_iff.1 (Nat.le_zero.1 hn)
  | succ n ih =>
    cases hnew : s.newOf q with
    | nil => rw [(findGroupsPasses_nil view hnew (n + 1)).1, hnew]
    | cons front rest =>
      have hpass := findGroups_passed view hnew
      have hfront : front ∈ s.newOf q := hnew ▸ List.mem_cons_self
      refine ih ?_
      have hlength := hpass.new.sublist.length_le
      have hless : ((s.newOf q).filter (· != front)).length < (s.newOf q).length :=
        List.length_filter_lt_length_iff_exists.2 ⟨front, hfront, by simp⟩
      omega

/-- A guid with queue data stays in a list or is in a proposal, unless it is new and a match of it
with listed guids is stored. -/
theorem findGroupsPasses_kept (n : Nat) {listed : List Guid} {g : Guid} (hdata : s.HasData q g)
    (hg : g ∈ s.newOf q ∨ g ∈ s.currentOf q) (hnewOf : s.newOf q ⊆ listed)
    (hcurrentOf : s.currentOf q ⊆ listed)
    (hstored : g ∈ s.newOf q → ∀ check, g ∈ check → check ⊆ listed → ¬ s.StoredMatch q check) :
    (g ∈ (s.findGroupsPasses view q n).newOf q ∨ g ∈ (s.findGroupsPasses view q n).currentOf q) ∨
      ∃ p ∈ s.findGroupsPassesCreated view q n, g ∈ p.queues := by
  induction n generalizing s with
  | zero => exact .inl hg
  | succ n ih =>
    cases hnew : s.newOf q with
    | nil =>
      rw [(findGroupsPasses_nil view hnew (n + 1)).1]
      exact .inl hg
    | cons front rest =>
      have hpass := findGroups_passed view hnew
      have hfront : front ∈ s.newOf q := hnew ▸ List.mem_cons_self
      by_cases hp : ∃ p ∈ s.findGroupsCreated view q, g ∈ p.queues
      · obtain ⟨p, hp, hin⟩ := hp
        exact .inr ⟨p, List.mem_append_left _ hp, hin⟩
      have hnone : ∀ check, g ∈ check → s.Backed q (s.findGroupsCreated view q) check →
          s.StoredMatch q check := fun check hcheck hbacked =>
        hbacked.resolve_right fun ⟨p, hmem, hin⟩ => hp ⟨p, hmem, hin g hcheck⟩
      have hfronts : front :: s.currentOf q ⊆ listed :=
        List.cons_subset.2 ⟨hnewOf hfront, hcurrentOf⟩
      have hsublist : (s.findGroups view q).newOf q ⊆ s.newOf q :=
        (hpass.new.sublist.trans List.filter_sublist).subset
      have hafter : g ∈ (s.findGroups view q).newOf q ∨ g ∈ (s.findGroups view q).currentOf q := by
        obtain hg | hg := hg
        · by_cases hne : g = front
          · subst hne
            refine .inr (hpass.front.resolve_right fun ⟨check, hcheck, hsub, hbacked⟩ => ?_)
            exact hstored hg check hcheck (List.Subset.trans hsub hfronts)
              (hnone check hcheck hbacked)
          · have hin : g ∈ (s.newOf q).filter (· != front) :=
              List.mem_filter.2 ⟨hg, bne_iff_ne.2 hne⟩
            exact .inl ((hpass.new.kept g hin hdata).resolve_right hp)
        · exact .inr ((hpass.current g hg hdata).resolve_right hp)
      have hdata' : (s.findGroups view q).HasData q g :=
        (congrArg Option.isSome (hpass.data q g)).trans hdata
      obtain hkept | ⟨p, hp, hin⟩ := ih hdata' hafter (List.Subset.trans hsublist hnewOf)
        (List.Subset.trans hpass.currentSubset hfronts) fun hg check hcheck hsub h =>
          hstored (hsublist hg) check hcheck hsub (hnone check hcheck (hpass.stored check h))
      · exact .inl hkept
      · exact .inr ⟨p, List.mem_append_right _ hp, hin⟩

def Lossless (view : LfgView) (q : Nat) (s : State) : Prop :=
  (s.findAllGroups view q).newOf q = [] ∧
    ∀ g, g ∈ s.newOf q ∨ g ∈ s.currentOf q →
      g ∈ (s.findAllGroups view q).currentOf q ∨
        ∃ p ∈ s.findAllGroupsCreated view q, g ∈ p.queues

/-- A match is stored of the guid `g` and other listed guids. -/
def MatchStored (s : State) (q : Nat) (g : Guid) : Prop :=
  ∃ check, g ∈ check ∧ check ⊆ s.newOf q ++ s.currentOf q ∧ s.StoredMatch q check

def nobodyIgnored : LfgView := ⟨false, fun _ _ => false⟩

def fiveNew : State :=
  [joins 1 2, joins 2 4, joins 3 8, joins 4 8, joins 5 8].foldl (Op.apply oneTeam) noOne

end Ashamane.DungeonFinding.State
