import Ashamane.Groups.Basic
import Ashamane.Lib.Count
import Ashamane.Lib.Run

/-! The counters of the subgroups follow the members through every run. -/
namespace Ashamane.Groups

open Ashamane.Lib

def inGroup (members : List MemberSlot) (i : Nat) : Nat := members.countP fun m => m.group == i

structure CountsMembers (counts : List Nat) (members : List MemberSlot) : Prop where
  length : counts.length = maxRaidSubgroups
  count : ∀ i < maxRaidSubgroups, counts[i]? = some (inGroup members i)

def CountersExact (g : Group) : Prop :=
  (∀ counts, g.subGroupsCounts = some counts →
    CountsMembers counts g.memberSlots ∧ ∀ n ∈ counts, n ≤ maxGroupSize) ∧
  g.memberSlots.length ≤ if g.isRaidGroup then maxRaidSize else maxGroupSize

structure Balanced (g : Group) : Prop where
  allocated : g.subGroupsCounts.isSome = g.isRaidGroup
  counts : ∀ counts, g.subGroupsCounts = some counts → CountsMembers counts g.memberSlots
  inside : ∀ m ∈ g.memberSlots, m.group < maxRaidSubgroups
  bounded : ∀ i, inGroup g.memberSlots i ≤ maxGroupSize
  party : g.isRaidGroup = false → g.memberSlots.length ≤ maxGroupSize

theorem toNat_beq (a b : Nat) : (a == b).toNat = if a = b then 1 else 0 := by
  by_cases h : a = b <;> simp [h]

theorem inGroup_append (l m : List MemberSlot) (i : Nat) :
    inGroup (l ++ m) i = inGroup l i + inGroup m i := List.countP_append

theorem inGroup_single (m : MemberSlot) (i : Nat) :
    inGroup [m] i = if m.group = i then 1 else 0 := by
  simp [inGroup, List.countP_cons]

theorem Balanced.countersExact {g : Group} (h : Balanced g) : CountersExact g := by
  refine ⟨fun counts hcounts => ?_, ?_⟩
  · have hcount := h.counts counts hcounts
    refine ⟨hcount, fun n hn => ?_⟩
    obtain ⟨i, hi⟩ := List.getElem?_of_mem hn
    have hlt : i < maxRaidSubgroups := hcount.length ▸ (List.getElem?_eq_some_iff.mp hi).1
    obtain rfl := Option.some.inj (hi.symm.trans (hcount.count i hlt))
    exact h.bounded i
  · split
    · exact length_le_of_countP_le MemberSlot.group h.inside fun i _ => h.bounded i
    next hparty => exact h.party (Bool.eq_false_iff.mpr hparty)

namespace CountsMembers

variable {counts : List Nat} {members members' : List MemberSlot} {s : Nat}

theorem modify (h : CountsMembers counts members) (f : Nat → Nat)
    (hnew : ∀ i < maxRaidSubgroups,
      inGroup members' i = if s = i then f (inGroup members i) else inGroup members i) :
    CountsMembers (counts.modify s f) members' where
  length := by rw [List.length_modify, h.length]
  count i hi := by
    rw [List.getElem?_modify, h.count i hi, hnew i hi]
    split <;> simp [*]

theorem increase (h : CountsMembers counts members) (hbound : inGroup members s ≤ maxGroupSize)
    (hnew : ∀ i, inGroup members' i = inGroup members i + if s = i then 1 else 0) :
    CountsMembers (counts.modify s fun n => (n + 1) % 2 ^ 8) members' := by
  refine h.modify _ fun i _ => ?_
  rw [hnew]
  rw [maxGroupSize] at hbound
  split
  next heq =>
    subst heq
    omega
  · rfl

theorem decrease (h : CountsMembers counts members) (hbound : inGroup members s ≤ 2 ^ 7)
    (hnew : ∀ i, inGroup members i = inGroup members' i + if s = i then 1 else 0) :
    CountsMembers (counts.modify s fun n => (n + (2 ^ 8 - 1)) % 2 ^ 8) members' := by
  refine h.modify _ fun i _ => ?_
  have hi := hnew i
  split
  next heq =>
    subst heq
    rw [if_pos rfl] at hi
    omega
  next hne =>
    rw [if_neg hne] at hi
    omega

end CountsMembers

namespace Group

variable {g : Group} {guid : ObjectGuid}

theorem memberSlot_some {slot : Nat} (h : g.memberSlot guid = some slot) :
    ∃ m, g.memberSlots[slot]? = some m ∧ m.guid = guid := by
  obtain ⟨hlt, hguid, _⟩ := List.findIdx?_eq_some_iff_getElem.mp h
  exact ⟨g.memberSlots[slot], List.getElem?_eq_getElem hlt, by simpa using hguid⟩

theorem foldl_increase (l before : List MemberSlot) {g : Group} {counts : List Nat}
    (hcounts : g.subGroupsCounts = some counts) (h : CountsMembers counts before)
    (hbound : ∀ i, inGroup (before ++ l) i ≤ maxGroupSize) :
    ∃ counts', l.foldl (fun g m => g.subGroupCounterIncrease m.group) g =
      { g with subGroupsCounts := some counts' } ∧ CountsMembers counts' (before ++ l) := by
  induction l generalizing before g counts with
  | nil => exact ⟨counts, by rw [← hcounts]; rfl, by rwa [List.append_nil]⟩
  | cons m l ih =>
    have hsplit : before ++ m :: l = (before ++ [m]) ++ l := by simp
    have hnow : inGroup before m.group ≤ maxGroupSize := by
      have hall := hbound m.group
      rw [inGroup_append] at hall
      omega
    have hnext : CountsMembers (counts.modify m.group fun n => (n + 1) % 2 ^ 8) (before ++ [m]) :=
      h.increase hnow fun i => by rw [inGroup_append, inGroup_single]
    have hstep : (g.subGroupCounterIncrease m.group).subGroupsCounts =
        some (counts.modify m.group fun n => (n + 1) % 2 ^ 8) := by
      rw [subGroupCounterIncrease, hcounts]
      rfl
    obtain ⟨counts', hfold, hcount⟩ := ih (before ++ [m]) hstep hnext (hsplit ▸ hbound)
    exact ⟨counts', by rw [List.foldl_cons, hfold]; rfl, hsplit ▸ hcount⟩

theorem countsMembers_nil : CountsMembers (List.replicate maxRaidSubgroups 0) [] where
  length := List.length_replicate
  count i hi := by
    rw [List.getElem?_replicate, if_pos hi]
    rfl

theorem initRaidSubGroupsCounter_eq (g : Group)
    (hbound : ∀ i, inGroup g.memberSlots i ≤ maxGroupSize) :
    ∃ counts, g.initRaidSubGroupsCounter = { g with subGroupsCounts := some counts } ∧
      CountsMembers counts g.memberSlots := by
  obtain ⟨counts, hfold, hcount⟩ := foldl_increase g.memberSlots []
    (g := { g with subGroupsCounts := some (List.replicate maxRaidSubgroups 0) }) rfl
    countsMembers_nil (by simpa using hbound)
  exact ⟨counts, hfold, by simpa using hcount⟩

theorem freeSubGroup_some (h : Balanced g) {subGroup : Nat} (hfree : g.freeSubGroup = some subGroup)
    (hparty : g.isRaidGroup = false → g.isFull = false) :
    subGroup < maxRaidSubgroups ∧ inGroup g.memberSlots subGroup < maxGroupSize := by
  unfold freeSubGroup at hfree
  split at hfree
  next hnone =>
    cases hfree
    have hfalse : g.isRaidGroup = false := by rw [← h.allocated, hnone]; rfl
    have hroom := hparty hfalse
    simp only [isFull, hfalse, Bool.false_eq_true, if_false, decide_eq_false_iff_not] at hroom
    have hle : inGroup g.memberSlots 0 ≤ g.memberSlots.length := List.countP_le_length
    exact ⟨by decide, by omega⟩
  next counts hcounts =>
    have hmem := List.mem_range.mp (List.mem_of_find?_eq_some hfree)
    have hlt := List.find?_some hfree
    rw [List.getD_eq_getElem?_getD, (h.counts _ hcounts).count _ hmem] at hlt
    exact ⟨hmem, by simpa using hlt⟩

theorem isRaidGroup_convertToLFG (g : Group) : g.convertToLFG.isRaidGroup = g.isRaidGroup := by
  have hbits : (g.groupFlags ||| groupFlagLfg ||| groupFlagLfgRestricted) &&& groupFlagRaid =
      g.groupFlags &&& groupFlagRaid := by
    have hlfg : groupFlagLfg &&& groupFlagRaid = 0 := by decide
    have hrestricted : groupFlagLfgRestricted &&& groupFlagRaid = 0 := by decide
    rw [BitVec.and_comm, BitVec.and_or_distrib_left, BitVec.and_or_distrib_left,
      BitVec.and_comm groupFlagRaid groupFlagLfg, hlfg,
      BitVec.and_comm groupFlagRaid groupFlagLfgRestricted, hrestricted, BitVec.and_comm]
    simp
  rw [isRaidGroup, isRaidGroup, convertToLFG, hbits]

theorem isRaidGroup_convertToRaid (g : Group) :
    { g with groupFlags := g.groupFlags ||| groupFlagRaid }.isRaidGroup = true := by
  have hbits : (g.groupFlags ||| groupFlagRaid) &&& groupFlagRaid = groupFlagRaid := by
    ext i hi
    simp only [BitVec.getElem_and, BitVec.getElem_or]
    cases groupFlagRaid[i] <;> simp
  rw [isRaidGroup, hbits]
  decide

end Group

namespace Balanced

variable {g g' : Group} {guid : ObjectGuid}

theorem recount (h : Balanced g) (hraid : g'.isRaidGroup = true)
    (hslots : g'.memberSlots = g.memberSlots) : Balanced g'.initRaidSubGroupsCounter := by
  obtain ⟨counts, heq, hcount⟩ := g'.initRaidSubGroupsCounter_eq (hslots ▸ h.bounded)
  rw [heq]
  have hraid' : { g' with subGroupsCounts := some counts }.isRaidGroup = true := hraid
  refine ⟨hraid'.symm, fun c hc => ?_, hslots ▸ h.inside, hslots ▸ h.bounded, fun hfalse => ?_⟩
  · cases hc
    exact hcount
  · rw [hraid'] at hfalse
    cases hfalse

theorem addMember (h : Balanced g) (hparty : g.isRaidGroup = false → g.isFull = false)
    (hadd : g.addMember guid = some g') : Balanced g' := by
  unfold Group.addMember at hadd
  split at hadd
  · cases hadd
  next subGroup hfree =>
  cases hadd
  obtain ⟨hinside, hroom⟩ := Group.freeSubGroup_some h hfree hparty
  have hcount : ∀ i, inGroup (g.memberSlots ++ [MemberSlot.mk guid subGroup]) i =
      inGroup g.memberSlots i + if subGroup = i then 1 else 0 := fun i => by
    rw [inGroup_append, inGroup_single]
  refine ⟨?_, fun c hc => ?_, fun m hm => ?_, fun i => ?_, fun hfalse => ?_⟩
  · rw [Group.subGroupCounterIncrease, Option.isSome_map]
    exact h.allocated
  · obtain ⟨counts, hcounts, rfl⟩ := Option.map_eq_some_iff.mp hc
    exact (h.counts counts hcounts).increase (Nat.le_of_lt hroom) hcount
  · obtain hold | hnew := List.mem_append.mp hm
    · exact h.inside m hold
    · rw [List.mem_singleton.mp hnew]
      exact hinside
  · have hi := h.bounded i
    change inGroup (g.memberSlots ++ [MemberSlot.mk guid subGroup]) i ≤ maxGroupSize
    rw [hcount]
    split
    next heq =>
      subst heq
      omega
    · omega
  · have hroom := hparty hfalse
    have hraid : g.isRaidGroup = false := hfalse
    simp only [Group.isFull, hraid, Bool.false_eq_true, if_false,
      decide_eq_false_iff_not] at hroom
    change (g.memberSlots ++ [MemberSlot.mk guid subGroup]).length ≤ maxGroupSize
    rw [List.length_append, List.length_singleton]
    omega

theorem convertToLFG (h : Balanced g) : Balanced g.convertToLFG := by
  have hraid := g.isRaidGroup_convertToLFG
  exact ⟨hraid ▸ h.allocated, h.counts, h.inside, h.bounded, hraid ▸ h.party⟩

theorem convertToRaid (h : Balanced g) : Balanced g.convertToRaid :=
  h.recount g.isRaidGroup_convertToRaid rfl

theorem convertToGroup (h : Balanced g) : Balanced g.convertToGroup := by
  unfold Group.convertToGroup
  split
  · exact h
  next hsmall =>
    have hnoRaid : (groupFlagNone &&& groupFlagRaid != 0) = false := by decide
    refine ⟨hnoRaid.symm, fun c hc => (by cases hc), h.inside, h.bounded, fun _ => ?_⟩
    rw [maxGroupSize]
    exact Nat.not_lt.mp hsmall

theorem eraseSlot (h : Balanced g) {slot : Nat} {m : MemberSlot}
    (hslot : g.memberSlots[slot]? = some m) :
    Balanced { g.subGroupCounterDecrease m.group with
      memberSlots := g.memberSlots.eraseIdx slot } := by
  have hcount : ∀ i, inGroup g.memberSlots i =
      inGroup (g.memberSlots.eraseIdx slot) i + if m.group = i then 1 else 0 := fun i => by
    have hone := countP_eraseIdx (fun m : MemberSlot => m.group == i) hslot
    rw [inGroup, inGroup, ← hone, toNat_beq]
  have hsub := List.eraseIdx_sublist g.memberSlots slot
  refine ⟨?_, fun c hc => ?_, fun x hx => h.inside x (hsub.subset hx), fun i => ?_, fun hfalse => ?_⟩
  · rw [Group.subGroupCounterDecrease, Option.isSome_map]
    exact h.allocated
  · obtain ⟨counts, hcounts, rfl⟩ := Option.map_eq_some_iff.mp hc
    have hbound := h.bounded m.group
    rw [maxGroupSize] at hbound
    exact (h.counts counts hcounts).decrease (by omega) hcount
  · exact Nat.le_trans (hsub.countP_le) (h.bounded i)
  · exact Nat.le_trans hsub.length_le (h.party hfalse)

theorem leaveSlot (h : Balanced g) (guid : ObjectGuid) : Balanced (g.leaveSlot guid) := by
  unfold Group.leaveSlot
  split
  · exact h
  next slot hfound =>
    obtain ⟨m, hm, _⟩ := Group.memberSlot_some hfound
    rw [hm]
    exact h.eraseSlot hm

theorem pickLeader (h : Balanced g) (guid : ObjectGuid) (connected : ObjectGuid → Bool) :
    Balanced (g.pickLeader guid connected) := by
  unfold Group.pickLeader
  split
  · split
    · exact h
    · exact ⟨h.allocated, h.counts, h.inside, h.bounded, h.party⟩
  · exact h

theorem removeMember (h : Balanced g) {removal : Group.Removal}
    (hremove : g.removeMember guid removal = some g') : Balanced g' := by
  unfold Group.removeMember at hremove
  split at hremove
  · cases hremove
    exact h
  · simp only [Option.ite_none_right_eq_some, Option.ite_none_left_eq_some,
      Option.some.injEq] at hremove
    obtain ⟨_, _, _, rfl⟩ := hremove
    exact (h.leaveSlot guid).pickLeader guid removal.connected

theorem moveMember (h : Balanced g) {slot : Nat} {m : MemberSlot} {group : Nat}
    (hslot : g.memberSlots[slot]? = some m) (hinside : group < maxRaidSubgroups)
    (hroom : inGroup g.memberSlots group < maxGroupSize) (hne : m.group ≠ group) :
    Balanced (((g.setGroup slot group).subGroupCounterIncrease group).subGroupCounterDecrease
      m.group) := by
  have hcount : ∀ i, inGroup (g.memberSlots.modify slot ({ · with group := group })) i +
      (if m.group = i then 1 else 0) = inGroup g.memberSlots i + if group = i then 1 else 0 := by
    intro i
    have hone := countP_modify (fun m : MemberSlot => m.group == i) ({ · with group := group }) hslot
    rw [toNat_beq, toNat_beq] at hone
    exact hone
  refine ⟨?_, fun c hc => ?_, fun x hx => ?_, fun i => ?_, fun hfalse => ?_⟩
  · simp only [Group.subGroupCounterDecrease, Group.subGroupCounterIncrease, Option.isSome_map]
    exact h.allocated
  · simp only [Group.subGroupCounterDecrease, Group.subGroupCounterIncrease, Group.setGroup,
      Option.map_eq_some_iff] at hc
    obtain ⟨_, ⟨counts, hcounts, rfl⟩, rfl⟩ := hc
    have hbound := h.bounded m.group
    rw [maxGroupSize] at hbound
    -- in between he is counted in both subgroups
    have hboth : CountsMembers (counts.modify group fun n => (n + 1) % 2 ^ 8)
        (g.memberSlots ++ [MemberSlot.mk m.guid group]) :=
      (h.counts counts hcounts).increase (Nat.le_of_lt hroom) fun i => by
        rw [inGroup_append, inGroup_single]
    refine hboth.decrease ?_ fun i => ?_
    · rw [inGroup_append, inGroup_single]
      split <;> omega
    · rw [inGroup_append, inGroup_single]
      exact (hcount i).symm
  · obtain ⟨j, hj⟩ := List.getElem?_of_mem hx
    change (g.memberSlots.modify slot ({ · with group := group }))[j]? = some x at hj
    simp only [List.getElem?_modify, Option.map_eq_map, Option.map_eq_some_iff] at hj
    obtain ⟨y, hy, rfl⟩ := hj
    split
    · exact hinside
    · exact h.inside y (List.mem_of_getElem? hy)
  · have hi := hcount i
    have hold := h.bounded i
    change inGroup (g.memberSlots.modify slot ({ · with group := group })) i ≤ maxGroupSize
    by_cases heq : group = i
    · subst heq
      rw [if_neg hne, if_pos rfl] at hi
      omega
    · rw [if_neg heq] at hi
      omega
  · have hlength := h.party hfalse
    change (g.memberSlots.modify slot ({ · with group := group })).length ≤ maxGroupSize
    rwa [List.length_modify]

theorem changeMembersGroup (h : Balanced g) (guid : ObjectGuid) {group : Nat}
    (hinside : group < maxRaidSubgroups) (hfree : g.hasFreeSlotSubGroup group = true) :
    Balanced (g.changeMembersGroup guid group) := by
  have hroom : inGroup g.memberSlots group < maxGroupSize := by
    unfold Group.hasFreeSlotSubGroup at hfree
    split at hfree
    · cases hfree
    next counts hcounts =>
      rw [List.getD_eq_getElem?_getD, (h.counts _ hcounts).count _ hinside] at hfree
      simpa using hfree
  unfold Group.changeMembersGroup
  split
  · exact h
  · split
    · exact h
    next slot hfound =>
      obtain ⟨m, hm, _⟩ := Group.memberSlot_some hfound
      simp only [hm, Option.map_some, Option.getD_some]
      split
      · exact h
      next hne => exact h.moveMember hm hinside hroom hne

theorem swapMembersGroups (h : Balanced g) (firstGuid secondGuid : ObjectGuid) :
    Balanced (g.swapMembersGroups firstGuid secondGuid) := by
  unfold Group.swapMembersGroups
  split
  · exact h
  split
  swap
  · exact h
  next first second hfirst hsecond =>
  obtain ⟨m, hm, _⟩ := Group.memberSlot_some hfirst
  obtain ⟨n, hn, _⟩ := Group.memberSlot_some hsecond
  simp only [hm, hn, Option.map_some, Option.getD_some]
  split
  · exact h
  next hne =>
  have hslots : first ≠ second := by
    rintro rfl
    exact hne (congrArg MemberSlot.group (Option.some.inj (hm.symm.trans hn)))
  have hn' : (g.memberSlots.modify first ({ · with group := n.group }))[second]? = some n := by
    simp [hslots, hn]
  have hcount : ∀ i, inGroup ((g.setGroup first n.group).setGroup second m.group).memberSlots i =
      inGroup g.memberSlots i := by
    intro i
    have hone := countP_modify (fun m : MemberSlot => m.group == i)
      ({ · with group := n.group }) hm
    have htwo := countP_modify (fun m : MemberSlot => m.group == i)
      ({ · with group := m.group }) hn'
    simp only [toNat_beq] at hone htwo
    simp only [Group.setGroup, inGroup]
    omega
  refine ⟨h.allocated, fun c hc => ?_, fun x hx => ?_, fun i => hcount i ▸ h.bounded i, fun hfalse => ?_⟩
  · have hold := h.counts c hc
    exact ⟨hold.length, fun i hi => by rw [hcount]; exact hold.count i hi⟩
  · have hpos : 0 < inGroup g.memberSlots x.group := by
      rw [← hcount]
      exact List.countP_pos_iff.mpr ⟨x, hx, by simp⟩
    obtain ⟨y, hy, hsame⟩ := List.countP_pos_iff.mp hpos
    have heq : y.group = x.group := by simpa using hsame
    exact heq ▸ h.inside y hy
  · have hlength := h.party hfalse
    simpa [Group.setGroup] using hlength

theorem foldl_load {known : ObjectGuid → Bool} (h : Balanced g) (rows : List MemberSlot)
    (hinside : ∀ m ∈ rows, m.group < maxRaidSubgroups)
    (hbound : ∀ i, inGroup (g.memberSlots ++ rows) i ≤ maxGroupSize)
    (hparty : g.isRaidGroup = false → (g.memberSlots ++ rows).length ≤ maxGroupSize) :
    Balanced (rows.foldl (fun g row => g.loadMemberFromDB known row.guid row.group) g) := by
  induction rows generalizing g with
  | nil => exact h
  | cons m rows ih =>
    rw [List.foldl_cons]
    have hrest : ∀ x ∈ rows, x.group < maxRaidSubgroups := fun x hx =>
      hinside x (List.mem_cons_of_mem _ hx)
    unfold Group.loadMemberFromDB
    split
    · refine ih h hrest (fun i => ?_) fun hfalse => ?_
      · have hi := hbound i
        rw [inGroup_append] at hi ⊢
        have hone : inGroup (m :: rows) i = inGroup [m] i + inGroup rows i :=
          inGroup_append [m] rows i
        omega
      · have hlength := hparty hfalse
        rw [List.length_append] at hlength ⊢
        rw [List.length_cons] at hlength
        omega
    · have hsplit : g.memberSlots ++ m :: rows = (g.memberSlots ++ [MemberSlot.mk m.guid m.group]) ++ rows := by
        simp
      have hfull : ∀ i, inGroup (g.memberSlots ++ [MemberSlot.mk m.guid m.group]) i ≤ maxGroupSize := by
        intro i
        have hi := hbound i
        rw [hsplit, inGroup_append] at hi
        omega
      refine ih ?_ hrest (hsplit ▸ hbound) (hsplit ▸ hparty)
      refine ⟨?_, fun c hc => ?_, fun x hx => ?_, hfull, fun hfalse => ?_⟩
      · rw [Group.subGroupCounterIncrease, Option.isSome_map]
        exact h.allocated
      · obtain ⟨counts, hcounts, rfl⟩ := Option.map_eq_some_iff.mp hc
        refine (h.counts counts hcounts).increase (h.bounded m.group) fun i => ?_
        exact (inGroup_append _ _ i).trans (by rw [inGroup_single])
      · obtain hold | hnew := List.mem_append.mp hx
        · exact h.inside x hold
        · rw [List.mem_singleton.mp hnew]
          exact hinside m (List.mem_cons_self ..)
      · have hlength := hparty hfalse
        rw [hsplit, List.length_append] at hlength
        exact Nat.le_trans (Nat.le_add_right _ _) hlength

theorem ofEmpty (hslots : g.memberSlots = []) (hnone : g.subGroupsCounts = none) :
    Balanced (if g.isRaidGroup then g.initRaidSubGroupsCounter else g) ∧
      (if g.isRaidGroup then g.initRaidSubGroupsCounter else g).memberSlots = [] ∧
      (if g.isRaidGroup then g.initRaidSubGroupsCounter else g).isRaidGroup = g.isRaidGroup := by
  have hcounted : g.initRaidSubGroupsCounter =
      { g with subGroupsCounts := some (List.replicate maxRaidSubgroups 0) } := by
    rw [Group.initRaidSubGroupsCounter, hslots]
    rfl
  split
  next hraid =>
    rw [hcounted]
    refine ⟨⟨hraid.symm, fun c hc => ?_, ?_, fun i => ?_, fun _ => ?_⟩, hslots, rfl⟩
    · cases hc
      exact hslots ▸ Group.countsMembers_nil
    · simp [hslots]
    · simp [hslots, inGroup]
    · simp [hslots]
  next hraid =>
    refine ⟨⟨?_, fun c hc => ?_, ?_, fun i => ?_, fun _ => ?_⟩, hslots, rfl⟩
    · rw [hnone, Bool.eq_false_iff.mpr hraid]
      rfl
    · rw [hnone] at hc
      cases hc
    · simp [hslots]
    · simp [hslots, inGroup]
    · simp [hslots]

theorem reload (h : Balanced g) (known : ObjectGuid → Bool) {rows : List MemberSlot}
    (hrows : rows.Subperm g.memberSlots) : Balanced (g.reload known rows) := by
  obtain ⟨hbalanced, hslots, hsame⟩ :
      Balanced (Group.loadGroupFromDB g.leaderGuid g.groupFlags) ∧
      (Group.loadGroupFromDB g.leaderGuid g.groupFlags).memberSlots = [] ∧
      (Group.loadGroupFromDB g.leaderGuid g.groupFlags).isRaidGroup = g.isRaidGroup :=
    ofEmpty rfl rfl
  refine hbalanced.foldl_load rows (fun m hm => h.inside m (hrows.subset hm)) (fun i => ?_)
    fun hfalse => ?_
  · rw [hslots, List.nil_append]
    exact Nat.le_trans (hrows.countP_le _) (h.bounded i)
  · rw [hslots, List.nil_append]
    exact Nat.le_trans hrows.length_le (h.party (hsame ▸ hfalse))

theorem step (h : Balanced g) {op : Op} (hok : op.Checked g) (hstep : Step g op g') :
    Balanced g' := by
  cases op with
  | addMember guid =>
    obtain rfl := hstep
    cases hadd : g.addMember guid with
    | none => exact h
    | some g' => exact h.addMember (hok.2 guid rfl) hadd
  | removeMember guid removal => exact h.removeMember hstep
  | convertToLFG =>
    obtain rfl := hstep
    exact h.convertToLFG
  | convertToRaid =>
    obtain rfl := hstep
    exact h.convertToRaid
  | convertToGroup =>
    obtain rfl := hstep
    exact h.convertToGroup
  | changeMembersGroup guid group =>
    obtain rfl := hstep
    exact h.changeMembersGroup guid hok.1.1 hok.1.2
  | swapMembersGroups firstGuid secondGuid =>
    obtain rfl := hstep
    exact h.swapMembersGroups firstGuid secondGuid
  | reload known rows =>
    obtain rfl := hstep
    exact h.reload known hok.1.2

theorem create {leader : ObjectGuid} (hslots : g.memberSlots = []) (hnone : g.subGroupsCounts = none)
    (hcreate : g.create leader = some g') : Balanced g' := by
  unfold Group.create at hcreate
  simp only [] at hcreate
  have hroom : ∀ g : Group, g.memberSlots = [] → g.isRaidGroup = false → g.isFull = false :=
    fun g hempty hparty => by simp [Group.isFull, hparty, hempty, maxGroupSize]
  by_cases hmade : g.isBGGroup ∨ g.isBFGroup
  · have hmade' : { g with leaderGuid := leader }.isBGGroup ∨ { g with leaderGuid := leader }.isBFGroup :=
      hmade
    rw [if_pos hmade'] at hcreate
    have hstart := @ofEmpty { g with leaderGuid := leader, groupFlags := groupMaskBgraid } hslots hnone
    exact hstart.1.addMember (hroom _ hstart.2.1) hcreate
  · have hmade' : ¬ ({ g with leaderGuid := leader }.isBGGroup ∨
        { g with leaderGuid := leader }.isBFGroup) := hmade
    rw [if_neg hmade'] at hcreate
    have hstart := @ofEmpty { g with leaderGuid := leader } hslots hnone
    exact hstart.1.addMember (hroom _ hstart.2.1) hcreate

theorem created (h : Created g) : Balanced g := by
  obtain ⟨purpose, leader, hcreate | hcreate⟩ := h
  · exact create rfl rfl hcreate
  · exact create rfl rfl hcreate

end Balanced

/-- In every state of a run of a group in which nobody is added to a full party, the counters of
the subgroups are exact and the group fits its kind. -/
theorem counters_run {g₀ g : Group} {ops : List Op} (hcreated : Created g₀)
    (hrun : Run Step (fun g op => op.Checked g) g₀ ops g) : CountersExact g :=
  (hrun.invariant Balanced (Balanced.created hcreated) fun _ _ _ h hok hstep =>
    h.step hok hstep).countersExact

def partyOfOne : Group := ⟨.home, groupFlagNone, 1, [⟨1, 0⟩], none⟩

theorem created_partyOfOne : Created partyOfOne := ⟨.home, 1, .inl rfl⟩

/-- A party of three becomes a raid, and one of them moves to another subgroup. -/
theorem counters_run_raid :
    ∃ g, CountersExact g ∧ g.subGroupsCounts = some [2, 0, 1, 0, 0, 0, 0, 0] := by
  have hrun : ∃ g, Run Step (fun g op => op.Checked g) partyOfOne
      [.addMember 2, .addMember 3, .convertToRaid, .changeMembersGroup 2 2] g ∧
      g.subGroupsCounts = some [2, 0, 1, 0, 0, 0, 0, 0] :=
    ⟨_, .cons ⟨trivial, fun _ _ _ => rfl⟩ rfl (.cons ⟨trivial, fun _ _ _ => rfl⟩ rfl
      (.cons ⟨trivial, nofun⟩ rfl (.cons ⟨⟨by decide, by decide⟩, nofun⟩ rfl (.nil _)))), by decide⟩
  obtain ⟨g, hrun, hcounts⟩ := hrun
  exact ⟨g, counters_run created_partyOfOne hrun, hcounts⟩

/-- Five players join a party of one, one by one. -/
theorem counters_fail_addMember :
    ¬ ∀ (g₀ g : Group) (ops : List Op), Created g₀ →
      Run Step (fun g op => op.Requested g) g₀ ops g → CountersExact g := by
  intro hall
  have hrun : ∃ g, Run Step (fun g op => op.Requested g) partyOfOne
      [.addMember 2, .addMember 3, .addMember 4, .addMember 5, .addMember 6] g ∧
      ¬ g.memberSlots.length ≤ if g.isRaidGroup then maxRaidSize else maxGroupSize :=
    ⟨_, .cons trivial rfl (.cons trivial rfl (.cons trivial rfl (.cons trivial rfl
      (.cons trivial rfl (.nil _))))), by decide⟩
  obtain ⟨g, hrun, hlarge⟩ := hrun
  exact hlarge (hall _ _ _ created_partyOfOne hrun).2

end Ashamane.Groups
