import Ashamane.Archaeology.Basic
import Mathlib.Algebra.Ring.Int.Defs
import Mathlib.Algebra.Ring.Nat

/-! Which spell is that of a current project, and which slot its completion replaces. -/
namespace Ashamane.Archaeology

variable {world : World} {player : Player} {spellId : Int} {now : BitVec 32} {urand : Urand}

structure Holds (world : World) (player : Player) (spellId : Int) (memId : Nat)
    (rs : ResearchProject) : Prop where
  slot : memId < 9
  current : player.slot memId ≠ 0
  project : rs ∈ world.projects
  id : rs.id = (player.slot memId).toNat
  spell : rs.spellId = spellId

namespace Player

def count (player : Player) (artifactId : Nat) : Nat :=
  ((player.history.lookup artifactId).map fun history => history.count.toNat).getD 0

end Player

structure Replaced (world : World) (memId : Nat) (rs : ResearchProject) (before after : Player) :
    Prop where
  next : ∃ next ∈ branchProjects world before rs.researchBranchId rs.id,
    (after.slot memId).toNat = next.id
  others : ∀ other < 9, other ≠ memId → after.slot other = before.slot other
  counted : after.count rs.id = before.count rs.id + 1

structure Agrees (world : World) (now : BitVec 32) (urand : Urand) (spellId : Int)
    (player : Player) : Prop where
  recognized : isCurrentArtifactSpell world player spellId = true ↔
    ∃ memId rs, Holds world player spellId memId rs
  completed : ∀ memId rs, Holds world player spellId memId rs →
    ∃ after, completeArtifact world now urand spellId player = some after ∧
      Replaced world memId rs player after

def selected (world : World) (player : Player) (urand : Urand) (branchId artifactId : Nat) :
    Option ResearchProject :=
  (branchProjects world player branchId artifactId)[urand.draw
    ((branchProjects world player branchId artifactId).length - 1)]?

structure Completable (world : World) (urand : Urand) (spellId : Int) (player : Player)
    (memId : Nat) (rs : ResearchProject) : Prop where
  only : ∀ other rs', Holds world player spellId other rs' → other = memId
  branch : ∃ ab ∈ world.branches, ab.id = rs.researchBranchId
  candidates : branchProjects world player rs.researchBranchId rs.id ≠ []
  fits : ∀ drawn, selected world player urand rs.researchBranchId rs.id = some drawn →
    ∃ next ∈ branchProjects world player rs.researchBranchId rs.id, drawn.id % 2 ^ 16 = next.id
  counted : player.count rs.id + 1 < 2 ^ 32

section Effects

theorem addCompletion_researching (artifactId : Nat) :
    (addCompletion now artifactId player).researching = player.researching := by
  unfold addCompletion
  cases player.history.lookup artifactId <;> rfl

theorem addCompletion_archaeologySkill (artifactId : Nat) :
    (addCompletion now artifactId player).archaeologySkill = player.archaeologySkill := by
  unfold addCompletion
  cases player.history.lookup artifactId <;> rfl

theorem slot_addCompletion (artifactId memId : Nat) :
    (addCompletion now artifactId player).slot memId = player.slot memId := by
  unfold Player.slot
  rw [addCompletion_researching]

theorem count_addCompletion (artifactId : Nat) :
    (addCompletion now artifactId player).count artifactId =
      if player.count artifactId + 1 < 2 ^ 32 then player.count artifactId + 1 else 1 := by
  unfold addCompletion Player.count
  cases player.history.lookup artifactId with
  | none => simp
  | some old =>
    have hlt := old.count.isLt
    dsimp only
    rw [AList.lookup_insert, Option.map_some, Option.getD_some, Option.map_some,
      Option.getD_some]
    have hsum : (old.count + 1).toNat = (old.count.toNat + 1) % 2 ^ 32 := BitVec.toNat_add ..
    by_cases hwraps : old.count + 1 = 0
    · rw [if_neg (not_not_intro hwraps)]
      rw [hwraps] at hsum
      rw [if_neg fun h => by
        rw [Nat.mod_eq_of_lt h] at hsum
        exact absurd hsum (by simp)]
      rfl
    · rw [if_pos hwraps, hsum]
      split_ifs with hfits
      · exact Nat.mod_eq_of_lt hfits
      · have hend : old.count.toNat + 1 = 2 ^ 32 := by omega
        refine absurd (BitVec.eq_of_toNat_eq ?_) hwraps
        rw [hsum, hend]
        rfl

theorem replaceProject_eq (memId artifactId branchId : Nat) :
    replaceProject world now urand memId artifactId branchId player =
      (selected world player urand branchId artifactId).map fun drawn =>
        (addCompletion now artifactId player).setSlot memId (BitVec.ofNat 16 drawn.id) := by
  have hprojects : branchProjects world (addCompletion now artifactId player) branchId artifactId =
      branchProjects world player branchId artifactId := by
    unfold branchProjects
    rw [addCompletion_archaeologySkill]
  unfold replaceProject selected
  dsimp only
  rw [hprojects]
  cases (branchProjects world player branchId artifactId)[urand.draw
    ((branchProjects world player branchId artifactId).length - 1)]? <;> rfl

theorem selected_eq_some (branchId artifactId : Nat)
    (h : branchProjects world player branchId artifactId ≠ []) :
    ∃ drawn, selected world player urand branchId artifactId = some drawn := by
  have hpos := List.length_pos_iff.mpr h
  have hle := urand.draw_le ((branchProjects world player branchId artifactId).length - 1)
  exact ⟨_, List.getElem?_eq_getElem (by omega)⟩

/-- The loops find nothing to complete, or complete a slot that holds a project of the spell. -/
theorem completeArtifact_cases (world : World) (now : BitVec 32) (urand : Urand)
    (spellId : Int) (player : Player) :
    ((∀ memId rs, Holds world player spellId memId rs →
          ∀ ab ∈ world.branches, ab.id ≠ rs.researchBranchId) ∧
        completeArtifact world now urand spellId player = some player) ∨
      ∃ memId rs, Holds world player spellId memId rs ∧
        (∃ ab ∈ world.branches, ab.id = rs.researchBranchId) ∧
          completeArtifact world now urand spellId player =
            replaceProject world now urand memId rs.id rs.researchBranchId player := by
  unfold completeArtifact
  dsimp only
  split
  · rename_i hnone
    refine .inl ⟨fun memId rs h ab hab heq => ?_, rfl⟩
    have hslot := List.findSome?_eq_none_iff.mp hnone memId (List.mem_range.mpr h.slot)
    rw [if_neg h.current] at hslot
    have hproject := List.findSome?_eq_none_iff.mp hslot rs h.project
    rw [if_neg (by simp [h.id, h.spell])] at hproject
    have hbranch := List.findSome?_eq_none_iff.mp hproject ab hab
    rw [if_neg (not_not_intro heq)] at hbranch
    cases hbranch
  · rename_i result hsome
    obtain ⟨memId, hmem, hslot⟩ := List.exists_of_findSome?_eq_some hsome
    split_ifs at hslot with hcurrent
    obtain ⟨rs, hproject, hfound⟩ := List.exists_of_findSome?_eq_some hslot
    split_ifs at hfound with hother
    obtain ⟨ab, hab, hresult⟩ := List.exists_of_findSome?_eq_some hfound
    split_ifs at hresult with hbranch
    have hbranch : ab.id = rs.researchBranchId := of_not_not hbranch
    have hmatch : rs.id = (player.slot memId).toNat ∧ rs.spellId = spellId := by
      simpa using hother
    refine .inr ⟨memId, rs, ⟨List.mem_range.mp hmem, hcurrent, hproject, hmatch.1, hmatch.2⟩,
      ⟨ab, hab, hbranch⟩, ?_⟩
    rw [← Option.some.inj hresult, hmatch.1, hbranch]

end Effects

theorem Holds.unique {memId : Nat} {rs rs' : ResearchProject}
    (h : Holds world player spellId memId rs) (h' : Holds world player spellId memId rs') :
    rs = rs' :=
  world.distinct rs h.project rs' h'.project (h.id.trans h'.id.symm)

theorem Holds.recognized {memId : Nat} {rs : ResearchProject}
    (h : Holds world player spellId memId rs) :
    isCurrentArtifactSpell world player spellId = true := by
  refine List.any_eq_true.mpr ⟨memId, List.mem_range.mpr h.slot, ?_⟩
  refine Bool.and_eq_true_iff.mpr ⟨decide_eq_true h.current, ?_⟩
  exact List.any_eq_true.mpr ⟨rs, h.project, decide_eq_true h.spell⟩

/-- The check asks for any current project and any project of the spell. -/
theorem isCurrentArtifactSpell_iff : isCurrentArtifactSpell world player spellId = true ↔
    (∃ memId < 9, player.slot memId ≠ 0) ∧ ∃ rs ∈ world.projects, rs.spellId = spellId := by
  unfold isCurrentArtifactSpell
  simp only [List.any_eq_true, List.mem_range, Bool.and_eq_true, decide_eq_true_eq]
  constructor
  · intro h
    obtain ⟨memId, hmem, hcurrent, hspell⟩ := h
    exact ⟨⟨memId, hmem, hcurrent⟩, hspell⟩
  · intro h
    obtain ⟨⟨memId, hmem, hcurrent⟩, hspell⟩ := h
    exact ⟨memId, hmem, hcurrent, hspell⟩

theorem replaced_of_drawn {memId : Nat} {rs drawn next : ResearchProject}
    (hnext : next ∈ branchProjects world player rs.researchBranchId rs.id)
    (hfits : drawn.id % 2 ^ 16 = next.id) (hcounted : player.count rs.id + 1 < 2 ^ 32) :
    Replaced world memId rs player
      ((addCompletion now rs.id player).setSlot memId (BitVec.ofNat 16 drawn.id)) where
  next := by
    refine ⟨next, hnext, ?_⟩
    rw [slot_setSlot, if_pos rfl, BitVec.toNat_ofNat]
    exact hfits
  others := by
    intro other _ hne
    rw [slot_setSlot, if_neg hne, slot_addCompletion]
  counted := by
    refine (count_addCompletion rs.id).trans ?_
    rw [if_pos hcounted]

theorem Replaced.completed {memId other : Nat} {rs rs' drawn : ResearchProject}
    (hholds : Holds world player spellId memId rs)
    (hreplaced : Replaced world memId rs player
      ((addCompletion now rs'.id player).setSlot other (BitVec.ofNat 16 drawn.id))) :
    other = memId := by
  by_contra hne
  obtain ⟨next, hnext, hslot⟩ := hreplaced.next
  rw [slot_setSlot, if_neg fun heq => hne heq.symm, slot_addCompletion, ← hholds.id] at hslot
  have hother : next.id ≠ rs.id := by
    have := (List.mem_filter.mp hnext).2
    simp only [Bool.and_eq_true, decide_eq_true_eq] at this
    exact this.1.2
  exact hother hslot.symm

theorem Agrees.completable (h : Agrees world now urand spellId player) {memId : Nat}
    {rs : ResearchProject} (hholds : Holds world player spellId memId rs) :
    Completable world urand spellId player memId rs := by
  obtain ⟨after, hafter, hreplaced⟩ := h.completed memId rs hholds
  obtain ⟨-, hnothing⟩ | ⟨slot, project, hslot, hbranch, hresult⟩ :=
    completeArtifact_cases world now urand spellId player
  · obtain rfl := Option.some.inj (hnothing.symm.trans hafter)
    exact absurd hreplaced.counted (Nat.succ_ne_self _).symm
  · rw [hresult, replaceProject_eq] at hafter
    obtain ⟨drawn, hdrawn, rfl⟩ := Option.map_eq_some_iff.mp hafter
    obtain rfl := hreplaced.completed hholds
    obtain rfl := hholds.unique hslot
    refine ⟨fun other rs' hother => ?_, hbranch, ?_, ?_, ?_⟩
    · obtain ⟨after', hafter', hreplaced'⟩ := h.completed other rs' hother
      rw [hresult, replaceProject_eq, hdrawn] at hafter'
      obtain rfl := Option.some.inj hafter'
      exact (hreplaced'.completed hother).symm
    · exact List.ne_nil_of_mem (List.mem_of_getElem? hdrawn)
    · intro drawn' hdrawn'
      obtain rfl := Option.some.inj (hdrawn.symm.trans hdrawn')
      obtain ⟨next, hnext, hfits⟩ := hreplaced.next
      rw [slot_setSlot, if_pos rfl, BitVec.toNat_ofNat] at hfits
      exact ⟨next, hnext, hfits⟩
    · have hcounted := hreplaced.counted
      change (addCompletion now rs.id player).count rs.id = _ at hcounted
      rw [count_addCompletion] at hcounted
      split_ifs at hcounted with hfits
      · exact hfits
      · omega

theorem Completable.completed {memId : Nat} {rs : ResearchProject}
    (h : Completable world urand spellId player memId rs)
    (hholds : Holds world player spellId memId rs) :
    ∃ after, completeArtifact world now urand spellId player = some after ∧
      Replaced world memId rs player after := by
  obtain ⟨hnothing, -⟩ | ⟨slot, project, hslot, -, hresult⟩ :=
    completeArtifact_cases world now urand spellId player
  · obtain ⟨ab, hab, hbranch⟩ := h.branch
    exact absurd hbranch (hnothing memId rs hholds ab hab)
  · obtain rfl := h.only slot project hslot
    obtain rfl := hholds.unique hslot
    obtain ⟨drawn, hdrawn⟩ : ∃ drawn, selected world player urand _ _ = some drawn :=
      selected_eq_some _ _ h.candidates
    obtain ⟨next, hnext, hfits⟩ := h.fits drawn hdrawn
    refine ⟨(addCompletion now rs.id player).setSlot slot (BitVec.ofNat 16 drawn.id), ?_,
      replaced_of_drawn hnext hfits h.counted⟩
    rw [hresult, replaceProject_eq, hdrawn]
    rfl

/-- When the check and the completion agree on the current projects. -/
theorem agrees_iff (world : World) (now : BitVec 32) (urand : Urand) (spellId : Int)
    (player : Player) : Agrees world now urand spellId player ↔
      ((∃ memId < 9, player.slot memId ≠ 0) → (∃ rs ∈ world.projects, rs.spellId = spellId) →
          ∃ memId rs, Holds world player spellId memId rs) ∧
        ∀ memId rs, Holds world player spellId memId rs →
          Completable world urand spellId player memId rs := by
  constructor
  · intro h
    refine ⟨fun hcurrent hspell => ?_, fun memId rs => h.completable⟩
    exact h.recognized.mp (isCurrentArtifactSpell_iff.mpr ⟨hcurrent, hspell⟩)
  · intro h
    refine ⟨⟨fun hcheck => ?_, fun hholds => ?_⟩, fun memId rs hholds => ?_⟩
    · obtain ⟨hcurrent, hspell⟩ := isCurrentArtifactSpell_iff.mp hcheck
      exact h.1 hcurrent hspell
    · obtain ⟨memId, rs, hholds⟩ := hholds
      exact hholds.recognized
    · exact (h.2 memId rs hholds).completed hholds

def twoProjects : World where
  projects := [⟨1, 100, 5⟩, ⟨2, 200, 5⟩]
  branches := [⟨5⟩]
  artifactSkillReqLevel := fun _ => 1
  distinct := by decide

def researcher : Player := ⟨fun field => if field = 0 then 1 else 0, 75, ∅⟩

/-- The spell of the second is taken for that of a current project. -/
theorem agrees_fails_researcher :
    ¬∀ (world : World) (now : BitVec 32) (urand : Urand) (spellId : Int) (player : Player),
      Agrees world now urand spellId player := by
  intro h
  obtain ⟨memId, rs, hholds⟩ :=
    (h twoProjects 0 ⟨id, fun _ => Nat.le_refl _⟩ 200 researcher).recognized.mp (by decide +kernel)
  have hslot : ∀ memId < 9, researcher.slot memId ≠ 0 → researcher.slot memId = 1 := by
    decide +kernel
  have hid := hholds.id
  rw [hslot memId hholds.slot hholds.current] at hid
  have hspell : ∀ rs ∈ twoProjects.projects, rs.id = (1 : BitVec 16).toNat → rs.spellId ≠ 200 := by
    decide
  exact hspell rs hholds.project hid hholds.spell

end Ashamane.Archaeology
