import Ashamane.DungeonFinding.Basic

/-! The roles that fit a group: the search finds an assignment whenever there is one. -/
namespace Ashamane.DungeonFinding

open Ashamane.Lib

def playerRoles : List Nat := [roleTank, roleHealer, roleDamage]

def neededOf (role : Nat) : Nat :=
  if role = roleDamage then dpsNeeded else if role = roleHealer then healersNeeded else tanksNeeded

structure Fits (groles : LfgRolesMap) (a : Guid → Nat) : Prop where
  own : ∀ guid value, groles.lookup guid = some value → a guid ∈ playerRoles ∧ value &&& a guid ≠ 0
  needed : ∀ role ∈ playerRoles,
    (groles.entries.countP fun e => a e.1 == role) ≤ neededOf role

def given (groles : LfgRolesMap) (a : Guid → Nat) : LfgRolesMap :=
  Assoc.mapVal (fun guid value => value % 2 + a guid) groles

def drop (groles : LfgRolesMap) (guid : Guid) (bit : Nat) : LfgRolesMap :=
  Assoc.modify guid (fun value => value - bit) groles

def Masks (groles : LfgRolesMap) : Prop := ∀ guid value, groles.lookup guid = some value → value < 16

def Answers (groles : LfgRolesMap) : Option LfgRolesMap → Prop
  | some assigned => ∃ a, Fits groles a ∧ assigned = given groles a
  | none => ∀ a, ¬Fits groles a

section Masks

theorem hasRole_sub : ∀ value < 16, ∀ bit ∈ playerRoles, ∀ role ∈ playerRoles, value &&& bit ≠ 0 →
    ((value - bit) &&& role ≠ 0 ↔ value &&& role ≠ 0 ∧ role ≠ bit) := by decide

theorem sub_lt_mask : ∀ value < 16, ∀ bit ∈ playerRoles, value &&& bit ≠ 0 →
    bit ≤ value ∧ (value - bit) % 2 = value % 2 := by decide

theorem hasRole_leader : ∀ value < 16, ∀ role ∈ playerRoles,
    ((value - value % 2) &&& role = 0 ↔ value &&& role = 0) := by decide

theorem hasRole_single : ∀ value < 16, value - value % 2 ∈ playerRoles →
    ∀ role ∈ playerRoles, (value &&& role ≠ 0 ↔ role = value - value % 2) := by decide

/-- Who has several roles does not need the same one for each of them. -/
theorem hasRole_several : ∀ value < 16, value - value % 2 ≠ 0 → value - value % 2 ∉ playerRoles →
    ∀ role ∈ playerRoles, ¬∀ bit ∈ playerRoles, value &&& bit ≠ 0 → role = bit := by decide

end Masks

variable {groles assigned : LfgRolesMap} {guid : Guid} {value bit role : Nat} {a : Guid → Nat}
  {check : LfgRolesMap → Option LfgRolesMap}

theorem Masks.drop (h : Masks groles) (guid : Guid) (bit : Nat) : Masks (drop groles guid bit) := by
  intro other value hvalue
  rw [DungeonFinding.drop, Assoc.lookup_modify] at hvalue
  split at hvalue
  · obtain ⟨v, hv, rfl⟩ := Option.map_eq_some_iff.mp hvalue
    have hlt := h _ _ hv
    omega
  · exact h _ _ hvalue

/-- What fits without the role is what fits and does not need it. -/
theorem fits_drop (hmasks : Masks groles) (hvalue : groles.lookup guid = some value)
    (hbit : bit ∈ playerRoles) (hhas : value &&& bit ≠ 0) :
    Fits (drop groles guid bit) a ↔ Fits groles a ∧ a guid ≠ bit := by
  have hlt := hmasks guid value hvalue
  have hcount : ∀ role, ((drop groles guid bit).entries.countP fun e => a e.1 == role) =
      groles.entries.countP fun e => a e.1 == role := by
    intro role
    rw [drop, Assoc.modify, Assoc.mapVal_entries, List.countP_map]
    rfl
  have hself : (drop groles guid bit).lookup guid = some (value - bit) := by
    rw [drop, Assoc.lookup_modify_self, hvalue, Option.map_some]
  have hother : ∀ other, other ≠ guid → (drop groles guid bit).lookup other = groles.lookup other :=
    fun other hne => Assoc.lookup_modify_ne hne _ _
  constructor
  · rintro ⟨hown, hneeded⟩
    obtain ⟨hrole, hsub⟩ := hown guid (value - bit) hself
    obtain ⟨hmine, hne⟩ := (hasRole_sub value hlt bit hbit _ hrole hhas).mp hsub
    refine ⟨⟨fun other v hv => ?_, fun role hr => hcount role ▸ hneeded role hr⟩, hne⟩
    by_cases hguid : other = guid
    · subst hguid
      obtain rfl := Option.some.inj (hvalue.symm.trans hv)
      exact ⟨hrole, hmine⟩
    · exact hown other v ((hother other hguid).trans hv)
  · rintro ⟨⟨hown, hneeded⟩, hne⟩
    obtain ⟨hrole, hmine⟩ := hown guid value hvalue
    refine ⟨fun other v hv => ?_, fun role hr => (hcount role).symm ▸ hneeded role hr⟩
    by_cases hguid : other = guid
    · subst hguid
      obtain rfl := Option.some.inj (hself.symm.trans hv)
      exact ⟨hrole, (hasRole_sub value hlt bit hbit _ hrole hhas).mpr ⟨hmine, hne⟩⟩
    · exact hown other v ((hother other hguid).symm.trans hv)

theorem given_drop (hmasks : Masks groles) (hvalue : groles.lookup guid = some value)
    (hbit : bit ∈ playerRoles) (hhas : value &&& bit ≠ 0) :
    given (drop groles guid bit) a = given groles a := by
  refine AList.ext ?_
  rw [given, given, drop, Assoc.modify, Assoc.mapVal_entries, Assoc.mapVal_entries,
    Assoc.mapVal_entries, List.map_map]
  refine List.map_congr_left fun e he => ?_
  obtain ⟨other, v⟩ := e
  by_cases hguid : other = guid
  · subst hguid
    obtain rfl := Option.some.inj (hvalue.symm.trans (Assoc.mem_entries_iff.mp he))
    obtain ⟨-, hmod⟩ := sub_lt_mask value (hmasks _ _ hvalue) bit hbit hhas
    simp [hmod]
  · simp [hguid]

theorem answers_drop (hmasks : Masks groles) (hvalue : groles.lookup guid = some value)
    (hbit : bit ∈ playerRoles) (hhas : value &&& bit ≠ 0)
    (h : Answers (drop groles guid bit) (some assigned)) : Answers groles (some assigned) := by
  obtain ⟨a, hfits, rfl⟩ := h
  exact ⟨a, ((fits_drop hmasks hvalue hbit hhas).mp hfits).1, given_drop hmasks hvalue hbit hhas⟩

/-- A role among others: it is left out, or everything that fits needs it. -/
theorem tryRole_several (hmasks : Masks groles) (hvalue : groles.lookup guid = some value)
    (hbit : bit ∈ playerRoles) (hne : value - value % 2 ≠ bit) (needed count : Nat)
    (hcheck : value &&& bit ≠ 0 → Answers (drop groles guid bit) (check (drop groles guid bit))) :
    (∃ assigned, tryRole check groles guid (value - value % 2) bit needed count =
        .error (some assigned) ∧ Answers groles (some assigned)) ∨
      tryRole check groles guid (value - value % 2) bit needed count = .ok count ∧
        (value &&& bit ≠ 0 → ∀ a, Fits groles a → a guid = bit) := by
  have hleader := hasRole_leader value (hmasks _ _ hvalue) bit hbit
  by_cases hhas : value &&& bit = 0
  · exact .inr ⟨by rw [tryRole, if_pos (hleader.mpr hhas)], fun h => absurd hhas h⟩
  · have hanswer := hcheck hhas
    rw [tryRole, if_neg (hleader.not.mpr hhas), if_pos hne]
    rw [drop] at hanswer
    cases hfound : check (Assoc.modify guid (fun value => value - bit) groles) with
    | some assigned =>
      rw [hfound] at hanswer
      exact .inl ⟨assigned, rfl, answers_drop hmasks hvalue hbit hhas hanswer⟩
    | none =>
      rw [hfound] at hanswer
      refine .inr ⟨rfl, fun _ a hfits => ?_⟩
      by_contra hother
      exact hanswer a ((fits_drop hmasks hvalue hbit hhas).mpr ⟨hfits, hother⟩)

def counts (damage healer tank : Nat) (role : Nat) : Nat :=
  if role = roleDamage then damage else if role = roleHealer then healer else tank

def singles (l : List (Sigma fun _ : Guid => Nat)) (role : Nat) : Nat :=
  l.countP fun e => e.2 - e.2 % 2 == role

theorem role_cases : ∀ role ∈ playerRoles,
    role = roleTank ∨ role = roleHealer ∨ role = roleDamage := by decide

theorem roleLoop_single {rest : List (Sigma fun _ : Guid => Nat)} (damage healer tank : Nat)
    (hrole : value - value % 2 ∈ playerRoles) :
    ∃ damage' healer' tank',
      (∀ role ∈ playerRoles, counts damage' healer' tank' role =
        counts damage healer tank role + if value - value % 2 = role then 1 else 0) ∧
      roleLoop check groles (⟨guid, value⟩ :: rest) damage healer tank =
        if counts damage healer tank (value - value % 2) = neededOf (value - value % 2) then none
        else roleLoop check groles rest damage' healer' tank' := by
  rcases role_cases _ hrole with h | h | h
  · refine ⟨damage, healer, tank + 1, fun role hrole => ?_, ?_⟩
    · rw [h]
      rcases role_cases role hrole with rfl | rfl | rfl <;> rfl
    · simp only [roleLoop, h, tryRole, counts, neededOf, roleTank, roleDamage, roleHealer]
      by_cases hfull : tank = tanksNeeded <;> simp [hfull]
  · refine ⟨damage, healer + 1, tank, fun role hrole => ?_, ?_⟩
    · rw [h]
      rcases role_cases role hrole with rfl | rfl | rfl <;> rfl
    · simp only [roleLoop, h, tryRole, counts, neededOf, roleTank, roleDamage, roleHealer]
      by_cases hfull : healer = healersNeeded <;> simp [hfull]
  · refine ⟨damage + 1, healer, tank, fun role hrole => ?_, ?_⟩
    · rw [h]
      rcases role_cases role hrole with rfl | rfl | rfl <;> rfl
    · simp only [roleLoop, h, tryRole, counts, neededOf, roleTank, roleDamage, roleHealer]
      by_cases hfull : damage = dpsNeeded <;> simp [hfull]

def DropsAnswered (check : LfgRolesMap → Option LfgRolesMap) (groles : LfgRolesMap) : Prop :=
  ∀ guid value bit, groles.lookup guid = some value → bit ∈ playerRoles → value &&& bit ≠ 0 →
    value - value % 2 ≠ bit → Answers (drop groles guid bit) (check (drop groles guid bit))

/-- A player with several roles is answered by a call, or nothing fits and he is not counted. -/
theorem roleLoop_several {rest : List (Sigma fun _ : Guid => Nat)} (hmasks : Masks groles)
    (hcheck : DropsAnswered check groles) (hvalue : groles.lookup guid = some value)
    (hne : value - value % 2 ≠ 0) (hrole : value - value % 2 ∉ playerRoles)
    (damage healer tank : Nat) :
    (∃ assigned, roleLoop check groles (⟨guid, value⟩ :: rest) damage healer tank = some assigned ∧
        Answers groles (some assigned)) ∨
      roleLoop check groles (⟨guid, value⟩ :: rest) damage healer tank =
        roleLoop check groles rest damage healer tank ∧ ∀ a, ¬Fits groles a := by
  have hnot : ∀ bit ∈ playerRoles, value - value % 2 ≠ bit := fun bit hbit heq =>
    hrole (heq ▸ hbit)
  have htry : ∀ bit ∈ playerRoles, ∀ needed count,
      (∃ assigned, tryRole check groles guid (value - value % 2) bit needed count =
          .error (some assigned) ∧ Answers groles (some assigned)) ∨
        tryRole check groles guid (value - value % 2) bit needed count = .ok count ∧
          (value &&& bit ≠ 0 → ∀ a, Fits groles a → a guid = bit) := fun bit hbit needed count =>
    tryRole_several hmasks hvalue hbit (hnot bit hbit) needed count fun hhas =>
      hcheck guid value bit hvalue hbit hhas (hnot bit hbit)
  rw [roleLoop, if_neg hne]
  rcases htry roleDamage (by decide) dpsNeeded damage with ⟨assigned, h, hright⟩ | ⟨h, hdamage⟩
  · exact .inl ⟨assigned, by rw [h], hright⟩
  rw [h]
  rcases htry roleHealer (by decide) healersNeeded healer with ⟨assigned, h, hright⟩ | ⟨h, hhealer⟩
  · exact .inl ⟨assigned, by simp only [h], hright⟩
  simp only [h]
  rcases htry roleTank (by decide) tanksNeeded tank with ⟨assigned, h, hright⟩ | ⟨h, htank⟩
  · exact .inl ⟨assigned, by simp only [h], hright⟩
  simp only [h]
  refine .inr ⟨trivial, fun a hfits => ?_⟩
  refine hasRole_several value (hmasks _ _ hvalue) hne hrole (a guid) (hfits.own _ _ hvalue).1 ?_
  intro bit hbit hhas
  rcases role_cases bit hbit with rfl | rfl | rfl
  · exact htank hhas a hfits
  · exact hhealer hhas a hfits
  · exact hdamage hhas a hfits

def Counted (groles : LfgRolesMap) (done : List (Sigma fun _ : Guid => Nat))
    (damage healer tank : Nat) : Prop :=
  ((∀ e ∈ done, e.2 - e.2 % 2 ∈ playerRoles) ∧ ∀ role ∈ playerRoles,
      counts damage healer tank role = singles done role ∧ singles done role ≤ neededOf role) ∨
    (∀ a, ¬Fits groles a) ∧ tank + healer + damage < done.length

theorem singles_sum {l : List (Sigma fun _ : Guid => Nat)}
    (h : ∀ e ∈ l, e.2 - e.2 % 2 ∈ playerRoles) :
    singles l roleTank + singles l roleHealer + singles l roleDamage = l.length := by
  induction l with
  | nil => rfl
  | cons e l ih =>
    have hrest := ih fun e he => h e (List.mem_cons_of_mem _ he)
    simp only [singles, List.countP_cons, List.length_cons] at hrest ⊢
    rcases role_cases _ (h e List.mem_cons_self) with he | he | he <;>
      simp only [he, roleTank, roleHealer, roleDamage] at hrest ⊢ <;> simp <;> omega

theorem singles_snoc (l : List (Sigma fun _ : Guid => Nat)) (guid : Guid) (value role : Nat) :
    singles (l ++ [⟨guid, value⟩]) role =
      singles l role + if value - value % 2 = role then 1 else 0 := by
  simp [singles, List.countP_cons]

theorem counts_sum (damage healer tank : Nat) :
    counts damage healer tank roleTank + counts damage healer tank roleHealer +
      counts damage healer tank roleDamage = tank + healer + damage := rfl

theorem Counted.sum_le {done : List (Sigma fun _ : Guid => Nat)} {damage healer tank : Nat}
    (h : Counted groles done damage healer tank) : tank + healer + damage ≤ done.length := by
  rcases h with ⟨hsingle, hcounts⟩ | ⟨-, hless⟩
  · rw [← singles_sum hsingle, ← counts_sum, (hcounts roleTank (by decide)).1,
      (hcounts roleHealer (by decide)).1, (hcounts roleDamage (by decide)).1]
  · exact Nat.le_of_lt hless

theorem singles_le {l : List (Sigma fun _ : Guid => Nat)} (hmasks : Masks groles)
    (hfits : Fits groles a) (hl : List.Sublist l groles.entries)
    (hsingle : ∀ e ∈ l, e.2 - e.2 % 2 ∈ playerRoles) (hrole : role ∈ playerRoles) :
    singles l role ≤ neededOf role := by
  refine Nat.le_trans ?_ (hfits.needed role hrole)
  refine Nat.le_trans (Nat.le_of_eq ?_) (hl.countP_le (p := fun e => a e.1 == role))
  refine List.countP_congr fun e he => ?_
  have hvalue := Assoc.mem_entries_iff.mp (hl.subset he)
  obtain ⟨htaken, hhas⟩ := hfits.own _ _ hvalue
  have hown := (hasRole_single _ (hmasks _ _ hvalue) (hsingle e he) _ htaken).mp hhas
  rw [beq_iff_eq, beq_iff_eq, hown]

theorem answers_singles (hmasks : Masks groles)
    (hsingle : ∀ e ∈ groles.entries, e.2 - e.2 % 2 ∈ playerRoles)
    (hneeded : ∀ role ∈ playerRoles, singles groles.entries role ≤ neededOf role) :
    Answers groles (some groles) := by
  have hown : ∀ guid value, groles.lookup guid = some value →
      ((groles.lookup guid).map fun value => value - value % 2).getD 0 = value - value % 2 := by
    intro guid value hvalue
    rw [hvalue, Option.map_some, Option.getD_some]
  refine ⟨fun guid => ((groles.lookup guid).map fun value => value - value % 2).getD 0,
    ⟨fun guid value hvalue => ?_, fun role hrole => ?_⟩, ?_⟩
  · have hmine := hsingle ⟨guid, value⟩ (Assoc.mem_entries_iff.mpr hvalue)
    rw [hown guid value hvalue]
    exact ⟨hmine, (hasRole_single value (hmasks _ _ hvalue) hmine _ hmine).mpr rfl⟩
  · refine Nat.le_trans (Nat.le_of_eq (List.countP_congr fun e he => ?_)) (hneeded role hrole)
    rw [hown e.1 e.2 (Assoc.mem_entries_iff.mp he)]
  · refine AList.ext ?_
    rw [given, Assoc.mapVal_entries]
    conv_lhs => rw [← List.map_id groles.entries]
    refine List.map_congr_left fun e he => ?_
    have hle := Nat.mod_le e.2 2
    rw [hown e.1 e.2 (Assoc.mem_entries_iff.mp he), Nat.add_sub_cancel' hle, id]

/-- One more player with one role only is counted, or no place is left for him. -/
theorem Counted.single {done rest : List (Sigma fun _ : Guid => Nat)}
    {damage healer tank damage' healer' tank' : Nat} (hmasks : Masks groles)
    (hentries : groles.entries = done ++ ⟨guid, value⟩ :: rest)
    (h : Counted groles done damage healer tank) (hsingle : value - value % 2 ∈ playerRoles)
    (hcounts : ∀ role ∈ playerRoles, counts damage' healer' tank' role =
      counts damage healer tank role + if value - value % 2 = role then 1 else 0) :
    (counts damage healer tank (value - value % 2) = neededOf (value - value % 2) →
        ∀ a, ¬Fits groles a) ∧
      (counts damage healer tank (value - value % 2) ≠ neededOf (value - value % 2) →
        Counted groles (done ++ [⟨guid, value⟩]) damage' healer' tank') := by
  rcases h with ⟨hdone, hgood⟩ | ⟨hnone, hless⟩
  · have hall : ∀ e ∈ done ++ [⟨guid, value⟩], e.2 - e.2 % 2 ∈ playerRoles := by
      intro e he
      rcases List.mem_append.mp he with he | he
      · exact hdone e he
      · rw [List.mem_singleton.mp he]
        exact hsingle
    refine ⟨fun hfull a hfits => ?_, fun hfree => .inl ⟨hall, fun role hrole => ?_⟩⟩
    · have hsub : List.Sublist (done ++ [⟨guid, value⟩]) groles.entries := by
        rw [hentries]
        exact (List.Sublist.refl done).append (List.singleton_sublist.mpr List.mem_cons_self)
      have hle := singles_le hmasks hfits hsub hall hsingle
      rw [singles_snoc, if_pos rfl, ← (hgood _ hsingle).1, hfull] at hle
      omega
    · obtain ⟨hcount, hle⟩ := hgood role hrole
      rw [singles_snoc, hcounts role hrole, hcount]
      refine ⟨rfl, ?_⟩
      split
      next heq =>
        rw [heq, hcount] at hfree
        omega
      · exact hle
  · refine ⟨fun _ => hnone, fun _ => .inr ⟨hnone, ?_⟩⟩
    have hsum := counts_sum damage' healer' tank'
    rw [hcounts _ (by decide), hcounts _ (by decide), hcounts _ (by decide)] at hsum
    have hsum' := counts_sum damage healer tank
    rw [List.length_append, List.length_singleton]
    rcases role_cases _ hsingle with h | h | h <;>
      simp only [h, roleTank, roleHealer, roleDamage] at hsum hsum' <;> simp at hsum <;> omega

theorem roleLoop_answers (hmasks : Masks groles) (hcheck : DropsAnswered check groles)
    (hplayers : groles.entries.length < 2 ^ 8) {done rest : List (Sigma fun _ : Guid => Nat)}
    (hentries : groles.entries = done ++ rest) {damage healer tank : Nat}
    (hcounted : Counted groles done damage healer tank) :
    Answers groles (roleLoop check groles rest damage healer tank) := by
  induction rest generalizing done damage healer tank with
  | nil =>
    rw [List.append_nil] at hentries
    obtain rfl := hentries
    have hmod : groles.entries.length % 256 = groles.entries.length := Nat.mod_eq_of_lt hplayers
    rw [roleLoop, hmod]
    rcases hcounted with ⟨hsingle, hcounts⟩ | ⟨hnone, hless⟩
    · have hsum := singles_sum hsingle
      rw [← (hcounts roleTank (by decide)).1, ← (hcounts roleHealer (by decide)).1,
        ← (hcounts roleDamage (by decide)).1, counts_sum] at hsum
      rw [if_pos hsum]
      exact answers_singles hmasks hsingle fun role hrole => (hcounts role hrole).2
    · rw [if_neg (Nat.ne_of_lt hless)]
      exact hnone
  | cons e rest ih =>
    obtain ⟨guid, value⟩ := e
    have hvalue : groles.lookup guid = some value :=
      Assoc.mem_entries_iff.mp (by rw [hentries]; simp)
    have hnext : groles.entries = (done ++ [⟨guid, value⟩]) ++ rest := by
      rw [hentries, List.append_assoc, List.singleton_append]
    by_cases hzero : value - value % 2 = 0
    · rw [roleLoop, if_pos hzero]
      intro a hfits
      obtain ⟨hrole, hhas⟩ := hfits.own guid value hvalue
      refine hhas ((hasRole_leader value (hmasks _ _ hvalue) _ hrole).mp ?_)
      rw [hzero, Nat.zero_and]
    by_cases hsingle : value - value % 2 ∈ playerRoles
    · obtain ⟨damage', healer', tank', hcounts', hloop⟩ :=
        roleLoop_single damage healer tank hsingle
      obtain ⟨hfull, hfree⟩ := hcounted.single hmasks hentries hsingle hcounts'
      rw [hloop]
      split
      next h => exact hfull h
      next h => exact ih hnext (hfree h)
    · rcases @roleLoop_several _ _ _ _ rest hmasks hcheck hvalue hzero hsingle damage healer tank
        with ⟨assigned, hloop, hright⟩ | ⟨hloop, hnone⟩
      · rw [hloop]
        exact hright
      · rw [hloop]
        refine ih hnext (.inr ⟨hnone, ?_⟩)
        rw [List.length_append, List.length_singleton, Nat.lt_succ_iff]
        exact hcounted.sum_le

def rolesIn (value : Nat) : Nat := playerRoles.countP fun role => value &&& role != 0

def selected (groles : LfgRolesMap) : Nat := Assoc.total rolesIn groles

theorem rolesIn_sub : ∀ value < 16, ∀ bit ∈ playerRoles, value &&& bit ≠ 0 →
    rolesIn (value - bit) + 1 = rolesIn value := by decide

theorem selected_drop (hmasks : Masks groles) (hvalue : groles.lookup guid = some value)
    (hbit : bit ∈ playerRoles) (hhas : value &&& bit ≠ 0) :
    selected (drop groles guid bit) + 1 = selected groles := by
  have htotal := Assoc.total_modify rolesIn (fun value => value - bit) hvalue
  have hsub := rolesIn_sub value (hmasks _ _ hvalue) bit hbit hhas
  rw [selected, drop, selected]
  omega

theorem selected_le (groles : LfgRolesMap) : selected groles ≤ 3 * groles.entries.length := by
  rw [selected, Assoc.total]
  induction groles.entries with
  | nil => rfl
  | cons e l ih =>
    have hle : rolesIn e.2 ≤ 3 := List.countP_le_length
    rw [List.map_cons, List.sum_cons, List.length_cons]
    omega

theorem drop_length (groles : LfgRolesMap) (guid : Guid) (bit : Nat) :
    (drop groles guid bit).entries.length = groles.entries.length := List.length_map _

/-- With enough fuel the search of a map of players answers right. -/
theorem checkGroupRolesFuel_answers (fuel : Nat) (hmasks : Masks groles)
    (hplayers : groles.entries.length < 2 ^ 8) (hne : groles.entries ≠ [])
    (hfuel : selected groles < fuel) : Answers groles (checkGroupRolesFuel fuel groles) := by
  induction fuel generalizing groles with
  | zero => omega
  | succ fuel ih =>
    rw [checkGroupRolesFuel, if_neg hne]
    refine roleLoop_answers hmasks (fun guid value bit hvalue hbit hhas _ => ?_) hplayers
      (List.nil_append _).symm (.inl ⟨by simp, fun role hrole => ?_⟩)
    · have hless := selected_drop hmasks hvalue hbit hhas
      have hlength := drop_length groles guid bit
      refine ih (hmasks.drop guid bit) (hlength ▸ hplayers) (fun hempty => hne ?_) (by omega)
      rw [hempty] at hlength
      exact List.length_eq_zero_iff.mp hlength.symm
    · rcases role_cases role hrole with rfl | rfl | rfl <;> exact ⟨rfl, Nat.zero_le _⟩

theorem checkGroupRoles_answers (hmasks : Masks groles) (hplayers : groles.entries.length < 2 ^ 8)
    (hne : groles.entries ≠ []) : Answers groles (checkGroupRoles groles) :=
  checkGroupRolesFuel_answers _ hmasks hplayers hne (Nat.lt_succ_of_le (selected_le groles))

theorem checkGroupRoles_empty (h : groles.entries = []) : checkGroupRoles groles = none := by
  rw [checkGroupRoles, checkGroupRolesFuel, if_pos h]

end Ashamane.DungeonFinding
