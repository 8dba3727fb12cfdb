import Ashamane.DungeonFinding.Roles
import Ashamane.Lib.Fuel

/-! The search for the roles of a group as it changes the map of the caller. -/
namespace Ashamane.DungeonFinding

open Ashamane.Lib

section Search

/-- A block of the loop with the map that the calls change: a role among others is taken out, and
put back when the rest cannot be assigned. `next` is what follows the block. -/
def withRole (check : LfgRolesMap → Option (Bool × LfgRolesMap)) (guid : Guid)
    (role bit needed count : Nat) (groles : LfgRolesMap)
    (next : LfgRolesMap → Nat → Option (Bool × LfgRolesMap)) : Option (Bool × LfgRolesMap) :=
  if role &&& bit = 0 then next groles count
  else if role ≠ bit then
    (check (Assoc.modify guid (fun value => value - bit) groles)).bind fun (found, left) =>
      if found then some (true, left)
      else next (Assoc.modify guid (fun value => value + bit) left) count
  else if count = needed then some (false, groles)
  else next groles (count + 1)

def rolesLoop (check : LfgRolesMap → Option (Bool × LfgRolesMap)) :
    List Guid → LfgRolesMap → Nat → Nat → Nat → Option (Bool × LfgRolesMap)
  | [], groles, damage, healer, tank =>
    some (tank + healer + damage = groles.entries.length % 2 ^ 8, groles)
  | guid :: rest, groles, damage, healer, tank =>
    let value := (groles.lookup guid).getD 0
    let role := value - value % 2
    if role = 0 then some (false, groles)
    else
      withRole check guid role roleDamage dpsNeeded damage groles fun groles damage =>
        withRole check guid role roleHealer healersNeeded healer groles fun groles healer =>
          withRole check guid role roleTank tanksNeeded tank groles fun groles tank =>
            rolesLoop check rest groles damage healer tank

def checkGroupRolesBody (check : LfgRolesMap → Option (Bool × LfgRolesMap))
    (groles : LfgRolesMap) : Option (Bool × LfgRolesMap) :=
  if groles.entries = [] then some (false, groles)
  else rolesLoop check groles.keys groles 0 0 0

/-- `CheckGroupRoles` returns whether roles were found, and leaves the map so. -/
def CheckGroupRoles : LfgRolesMap → Bool × LfgRolesMap → Prop := Fuel.Returns checkGroupRolesBody

end Search

variable {groles : LfgRolesMap} {guid : Guid} {value bit role : Nat}
  {check : LfgRolesMap → Option LfgRolesMap}

def leaves (groles : LfgRolesMap) : Option LfgRolesMap → Bool × LfgRolesMap
  | some assigned => (true, assigned)
  | none => (false, groles)

section Stateful

variable {change : LfgRolesMap → Option (Bool × LfgRolesMap)}

theorem modify_restore (hvalue : groles.lookup guid = some value) (hle : bit ≤ value) :
    Assoc.modify guid (fun value => value + bit)
      (Assoc.modify guid (fun value => value - bit) groles) = groles := by
  refine AList.ext ?_
  rw [Assoc.modify, Assoc.modify, Assoc.mapVal_entries, Assoc.mapVal_entries, List.map_map]
  conv_rhs => rw [← List.map_id groles.entries]
  refine List.map_congr_left fun e he => ?_
  obtain ⟨other, v⟩ := e
  by_cases hguid : other = guid
  · subst hguid
    obtain rfl := Option.some.inj (hvalue.symm.trans (Assoc.mem_entries_iff.mp he))
    simp [Nat.sub_add_cancel hle]
  · simp [hguid]

theorem withRole_eq (hmasks : Masks groles) (hvalue : groles.lookup guid = some value)
    (hbit : bit ∈ playerRoles) (needed count : Nat)
    (hchange : value &&& bit ≠ 0 → change (drop groles guid bit) =
      some (leaves (drop groles guid bit) (check (drop groles guid bit))))
    (next : LfgRolesMap → Nat → Option (Bool × LfgRolesMap)) :
    withRole change guid (value - value % 2) bit needed count groles next =
      match tryRole check groles guid (value - value % 2) bit needed count with
      | .error answer => some (leaves groles answer)
      | .ok count => next groles count := by
  have hleader := hasRole_leader value (hmasks _ _ hvalue) bit hbit
  rw [withRole, tryRole]
  by_cases hhas : value &&& bit = 0
  · rw [if_pos (hleader.mpr hhas), if_pos (hleader.mpr hhas)]
  rw [if_neg (hleader.not.mpr hhas), if_neg (hleader.not.mpr hhas)]
  split
  · have hfound := hchange hhas
    rw [drop] at hfound
    rw [hfound, Option.bind_some]
    cases check (Assoc.modify guid (fun value => value - bit) groles) with
    | some assigned => rfl
    | none =>
      have hle := (sub_lt_mask value (hmasks _ _ hvalue) bit hbit hhas).1
      simp [leaves, modify_restore hvalue hle]
  · split <;> rfl

theorem rolesLoop_eq (hmasks : Masks groles)
    (hchange : ∀ guid value bit, groles.lookup guid = some value → bit ∈ playerRoles →
      value &&& bit ≠ 0 → change (drop groles guid bit) =
        some (leaves (drop groles guid bit) (check (drop groles guid bit))))
    {rest : List (Sigma fun _ : Guid => Nat)} (hrest : ∀ e ∈ rest, e ∈ groles.entries)
    (damage healer tank : Nat) :
    rolesLoop change (rest.map (·.1)) groles damage healer tank =
      some (leaves groles (roleLoop check groles rest damage healer tank)) := by
  induction rest generalizing damage healer tank with
  | nil =>
    rw [List.map_nil, rolesLoop, roleLoop]
    by_cases hsum : tank + healer + damage = groles.entries.length % 256
    · simp [hsum, leaves]
    · simp [hsum, leaves]
  | cons e rest ih =>
    obtain ⟨guid, value⟩ := e
    have hvalue := Assoc.mem_entries_iff.mp (hrest ⟨guid, value⟩ List.mem_cons_self)
    have hstep : ∀ bit ∈ playerRoles, ∀ needed count next,
        withRole change guid (value - value % 2) bit needed count groles next =
          match tryRole check groles guid (value - value % 2) bit needed count with
          | .error answer => some (leaves groles answer)
          | .ok count => next groles count := fun bit hbit needed count next =>
      withRole_eq hmasks hvalue hbit needed count (hchange guid value bit hvalue hbit) next
    simp only [List.map_cons, rolesLoop, roleLoop, hvalue, Option.getD_some]
    split
    · rfl
    rw [hstep roleDamage (by decide)]
    cases hdamage : tryRole check groles guid (value - value % 2) roleDamage dpsNeeded damage with
    | error answer => rfl
    | ok damage =>
      dsimp only
      rw [hstep roleHealer (by decide)]
      cases hhealer : tryRole check groles guid (value - value % 2) roleHealer healersNeeded
        healer with
      | error answer => rfl
      | ok healer =>
        dsimp only
        rw [hstep roleTank (by decide)]
        cases htank : tryRole check groles guid (value - value % 2) roleTank tanksNeeded tank with
        | error answer => rfl
        | ok tank => exact ih (fun e he => hrest e (List.mem_cons_of_mem _ he)) _ _ _

theorem run_eq (fuel : Nat) (hmasks : Masks groles) (hfuel : selected groles < fuel) :
    Fuel.run checkGroupRolesBody fuel groles =
      some (leaves groles (checkGroupRolesFuel fuel groles)) := by
  induction fuel generalizing groles with
  | zero => omega
  | succ fuel ih =>
    rw [Fuel.run, checkGroupRolesBody, checkGroupRolesFuel]
    split
    · rfl
    · refine rolesLoop_eq hmasks (fun guid value bit hvalue hbit hhas => ?_) (fun _ h => h) 0 0 0
      have hless := selected_drop hmasks hvalue hbit hhas
      exact ih (hmasks.drop guid bit) (by omega)

theorem withRole_extends {change' : LfgRolesMap → Option (Bool × LfgRolesMap)}
    (hchange : Fuel.Extends change change') {role needed count : Nat}
    {next next' : LfgRolesMap → Nat → Option (Bool × LfgRolesMap)}
    (hnext : ∀ groles count b, next groles count = some b → next' groles count = some b)
    {b : Bool × LfgRolesMap} (h : withRole change guid role bit needed count groles next = some b) :
    withRole change' guid role bit needed count groles next' = some b := by
  rw [withRole] at h ⊢
  split
  next hhas =>
    rw [if_pos hhas] at h
    exact hnext _ _ _ h
  next hhas =>
    rw [if_neg hhas] at h
    split
    next hne =>
      rw [if_pos hne] at h
      obtain ⟨⟨found, left⟩, hcall, hrest⟩ := Option.bind_eq_some_iff.mp h
      rw [hchange _ _ hcall, Option.bind_some]
      cases found with
      | true => exact hrest
      | false => exact hnext _ _ _ hrest
    next hne =>
      rw [if_neg hne] at h
      split
      next hfull => rwa [if_pos hfull] at h
      next hfull =>
        rw [if_neg hfull] at h
        exact hnext _ _ _ h

theorem checkGroupRoles_steady : Fuel.Steady checkGroupRolesBody := by
  intro change change' hchange groles b h
  have hloop : ∀ (keys : List Guid) (groles : LfgRolesMap) (damage healer tank : Nat)
      (b : Bool × LfgRolesMap), rolesLoop change keys groles damage healer tank = some b →
      rolesLoop change' keys groles damage healer tank = some b := by
    intro keys
    induction keys with
    | nil => exact fun _ _ _ _ _ h => h
    | cons guid rest ih =>
      intro groles damage healer tank b h
      rw [rolesLoop] at h ⊢
      split
      next hzero => rwa [if_pos hzero] at h
      next hzero =>
        rw [if_neg hzero] at h
        exact withRole_extends hchange (fun _ _ _ h => withRole_extends hchange (fun _ _ _ h =>
          withRole_extends hchange (fun _ _ _ h => ih _ _ _ _ _ h) h) h) h
  rw [checkGroupRolesBody] at h ⊢
  split
  next hempty => rwa [if_pos hempty] at h
  next hempty =>
    rw [if_neg hempty] at h
    exact hloop _ _ _ _ _ _ h

end Stateful

/-- The search without the map that is changed has fuel for every map of masks. -/
theorem checkGroupRoles_returns (hmasks : Masks groles) :
    CheckGroupRoles groles (leaves groles (checkGroupRoles groles)) :=
  ⟨_, run_eq _ hmasks (Nat.lt_succ_of_le (selected_le groles))⟩

/-- `CheckGroupRoles` returns, with `true` exactly when there are players and some assignment fits
them. It leaves such an assignment then, and the map as it was otherwise. -/
theorem checkGroupRoles_iff (groles : LfgRolesMap) (hmasks : Masks groles)
    (hplayers : groles.entries.length < 2 ^ 8) :
    (∃ found left, CheckGroupRoles groles (found, left)) ∧
      ∀ found left, CheckGroupRoles groles (found, left) →
        (found = true ↔ groles.entries ≠ [] ∧ ∃ a, Fits groles a) ∧
          (found = true → ∃ a, Fits groles a ∧ left = given groles a) ∧
          (found = false → left = groles) := by
  have hreturns := checkGroupRoles_returns hmasks
  refine ⟨⟨_, _, hreturns⟩, fun found left h => ?_⟩
  have heq := checkGroupRoles_steady.unique h hreturns
  by_cases hempty : groles.entries = []
  · rw [checkGroupRoles_empty hempty, leaves, Prod.mk.injEq] at heq
    obtain ⟨rfl, rfl⟩ := heq
    simp [hempty]
  · have hanswers := checkGroupRoles_answers hmasks hplayers hempty
    cases hfound : checkGroupRoles groles with
    | some assigned =>
      rw [hfound, leaves, Prod.mk.injEq] at heq
      obtain ⟨rfl, rfl⟩ := heq
      rw [hfound] at hanswers
      obtain ⟨a, hfits, hleft⟩ := hanswers
      refine ⟨⟨fun _ => ⟨hempty, a, hfits⟩, fun _ => rfl⟩, fun _ => ⟨a, hfits, hleft⟩, fun h => ?_⟩
      cases h
    | none =>
      rw [hfound, leaves, Prod.mk.injEq] at heq
      obtain ⟨rfl, rfl⟩ := heq
      rw [hfound] at hanswers
      refine ⟨⟨fun h => ?_, fun ⟨_, a, hfits⟩ => absurd hfits (hanswers a)⟩, fun h => ?_, fun _ => rfl⟩
      · cases h
      · cases h

def tankAndEither : LfgRolesMap :=
  (AList.singleton (.player 1) (roleTank + roleHealer)).insert (.player 2) (roleTank + 1)

theorem checkGroupRoles_iff_two : (∃ found left, CheckGroupRoles tankAndEither (found, left)) ∧
    ∀ found left, CheckGroupRoles tankAndEither (found, left) →
      (found = true ↔ tankAndEither.entries ≠ [] ∧ ∃ a, Fits tankAndEither a) ∧
        (found = true → ∃ a, Fits tankAndEither a ∧ left = given tankAndEither a) ∧
        (found = false → left = tankAndEither) := by
  refine checkGroupRoles_iff tankAndEither (fun guid value h => ?_) (by decide)
  have hmem := Assoc.mem_entries_iff.mpr h
  have hall : ∀ e ∈ tankAndEither.entries, e.2 < 16 := by decide
  exact hall _ hmem

/-- Without players there is nothing to assign, and the answer is `false`. -/
theorem checkGroupRoles_fails_empty :
    CheckGroupRoles ∅ (false, ∅) ∧ ∀ a, Fits ∅ a := by
  refine ⟨⟨1, rfl⟩, fun a => ⟨fun guid value h => ?_, fun role _ => Nat.zero_le _⟩⟩
  rw [AList.lookup_empty] at h
  cases h

end Ashamane.DungeonFinding
