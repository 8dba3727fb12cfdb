import Mathlib.Data.List.AList

/-! The research projects of a player and the completion of an artifact. -/
namespace Ashamane.Archaeology

structure ResearchProject where
  id : Nat
  spellId : Int
  researchBranchId : Nat
  deriving DecidableEq, Repr

structure ResearchBranch where
  id : Nat
  deriving DecidableEq, Repr

structure World where
  projects : List ResearchProject
  branches : List ResearchBranch
  artifactSkillReqLevel : Int → Int
  distinct : ∀ a ∈ projects, ∀ b ∈ projects, a.id = b.id → a = b

structure ArchaeologyHistory where
  time : BitVec 32
  count : BitVec 32
  deriving DecidableEq, Repr

/-- The update fields from `PLAYER_FIELD_RESEARCHING_1` on, the skill and the history. -/
structure Player where
  researching : Nat → BitVec 32
  archaeologySkill : Nat
  history : AList fun _ : Nat => ArchaeologyHistory

def getUInt16Value (value : BitVec 32) (offset : Nat) : BitVec 16 :=
  (value >>> (offset * 16)).setWidth 16

def setUInt16Value (value : BitVec 32) (offset : Nat) (half : BitVec 16) : BitVec 32 :=
  if getUInt16Value value offset ≠ half then
    (value &&& ~~~(0xFFFF#32 <<< (offset * 16))) ||| (half.setWidth 32 <<< (offset * 16))
  else value

structure Urand where
  draw : Nat → Nat
  draw_le : ∀ max, draw max ≤ max

namespace Player

def slot (player : Player) (memId : Nat) : BitVec 16 :=
  getUInt16Value (player.researching (memId / 2)) (memId % 2)

def setSlot (memId : Nat) (project : BitVec 16) (player : Player) : Player :=
  { player with researching := fun field =>
      if field = memId / 2 then setUInt16Value (player.researching field) (memId % 2) project
      else player.researching field }

end Player

def isCurrentArtifactSpell (world : World) (player : Player) (spellId : Int) : Bool :=
  (List.range 9).any fun memId =>
    player.slot memId ≠ 0 && world.projects.any fun rs => rs.spellId = spellId

def addCompletion (now : BitVec 32) (artifactId : Nat) (player : Player) : Player :=
  match player.history.lookup artifactId with
  | none => { player with history := player.history.insert artifactId ⟨now, 1⟩ }
  | some old =>
    let count := old.count + 1
    { player with
      history := player.history.insert artifactId ⟨old.time, if count ≠ 0 then count else 1⟩ }

/-- `BranchProjects`, before their ids are cut to 16 bits. -/
def branchProjects (world : World) (player : Player) (branchId artifactId : Nat) :
    List ResearchProject :=
  world.projects.filter fun rs =>
    rs.researchBranchId = branchId && rs.id ≠ artifactId &&
      world.artifactSkillReqLevel rs.spellId ≤ player.archaeologySkill

/-- The body of the loops; there is no result where it reads past the end of `BranchProjects`. -/
def replaceProject (world : World) (now : BitVec 32) (urand : Urand) (memId : Nat)
    (artifactId branchId : Nat) (player : Player) : Option Player :=
  let player := addCompletion now artifactId player
  let projects := branchProjects world player branchId artifactId
  match projects[urand.draw (projects.length - 1)]? with
  | none => none
  | some selectProject => some (player.setSlot memId (BitVec.ofNat 16 selectProject.id))

def completeArtifact (world : World) (now : BitVec 32) (urand : Urand) (spellId : Int)
    (player : Player) : Option Player :=
  let completed := (List.range 9).findSome? fun memId =>
    if player.slot memId = 0 then none
    else
      let artifactId := (player.slot memId).toNat
      world.projects.findSome? fun rs =>
        if rs.id ≠ artifactId || rs.spellId ≠ spellId then none
        else world.branches.findSome? fun ab =>
          if ab.id ≠ rs.researchBranchId then none
          else some (replaceProject world now urand memId artifactId ab.id player)
  match completed with
  | none => some player
  | some result => result

section Slots

theorem getLsbD_getUInt16Value (value : BitVec 32) (offset i : Nat) (hi : i < 16) :
    (getUInt16Value value offset).getLsbD i = value.getLsbD (offset * 16 + i) := by
  unfold getUInt16Value
  rw [BitVec.getLsbD_setWidth, BitVec.getLsbD_ushiftRight, decide_eq_true hi, Bool.true_and]

theorem getLsbD_0xFFFF : ∀ i < 32, (0xFFFF#32).getLsbD i = decide (i < 16) := by decide

theorem getLsbD_setUInt16Value (value : BitVec 32) (offset : Nat) (half : BitVec 16) (i : Nat)
    (hi : i < 32) :
    ((value &&& ~~~(0xFFFF#32 <<< (offset * 16))) |||
        (half.setWidth 32 <<< (offset * 16))).getLsbD i =
      if offset * 16 ≤ i ∧ i < offset * 16 + 16 then half.getLsbD (i - offset * 16)
      else value.getLsbD i := by
  rw [BitVec.getLsbD_or, BitVec.getLsbD_and, BitVec.getLsbD_not, BitVec.getLsbD_shiftLeft,
    BitVec.getLsbD_shiftLeft, BitVec.getLsbD_setWidth, getLsbD_0xFFFF _ (by omega)]
  by_cases hlow : i < offset * 16
  · rw [if_neg (by omega)]
    simp [hi, hlow]
  · by_cases hhigh : i < offset * 16 + 16
    · have hwidth : i - offset * 16 < 16 := by omega
      rw [if_pos ⟨by omega, hhigh⟩]
      simp [hi, hlow, hwidth, show i - offset * 16 < 32 by omega]
    · have hwidth : ¬i - offset * 16 < 16 := by omega
      rw [if_neg (by omega), BitVec.getLsbD_of_ge half _ (by omega)]
      simp [hi, hlow, hwidth]

theorem getUInt16Value_setUInt16Value (value : BitVec 32) (half : BitVec 16) {offset other : Nat}
    (hoffset : offset < 2) (hother : other < 2) :
    getUInt16Value (setUInt16Value value offset half) other =
      if other = offset then half else getUInt16Value value other := by
  unfold setUInt16Value
  split_ifs with hchange heq heq
  · subst heq
    refine BitVec.eq_of_getLsbD_eq fun i hi => ?_
    rw [getLsbD_getUInt16Value _ _ _ hi, getLsbD_setUInt16Value _ _ _ _ (by omega),
      if_pos (by omega)]
    congr 1
    omega
  · refine BitVec.eq_of_getLsbD_eq fun i hi => ?_
    rw [getLsbD_getUInt16Value _ _ _ hi, getLsbD_setUInt16Value _ _ _ _ (by omega),
      if_neg (by omega), getLsbD_getUInt16Value _ _ _ hi]
  · subst heq
    exact of_not_not hchange
  · rfl

theorem slot_setSlot (player : Player) (project : BitVec 16) (memId other : Nat) :
    (player.setSlot memId project).slot other =
      if other = memId then project else player.slot other := by
  unfold Player.slot Player.setSlot
  dsimp only
  by_cases hfield : other / 2 = memId / 2
  · rw [if_pos hfield,
      getUInt16Value_setUInt16Value _ _ (Nat.mod_lt _ (by decide)) (Nat.mod_lt _ (by decide))]
    by_cases heq : other = memId
    · rw [if_pos heq, if_pos (by rw [heq])]
    · rw [if_neg heq, if_neg (by omega)]
  · rw [if_neg hfield, if_neg fun heq => hfield (by rw [heq])]

end Slots

end Ashamane.Archaeology
