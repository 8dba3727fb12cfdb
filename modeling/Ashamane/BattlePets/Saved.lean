import Ashamane.BattlePets.Basic
import Ashamane.Lib.Run

/-! What a save leaves in the table, as long as no request names a pet that is marked as
removed. -/
namespace Ashamane.BattlePets
open Ashamane.Lib Ashamane.Lib.Assoc

def InStep (pet : Option BattlePet) (row : Option Row) : Prop :=
  match pet with
  | none => row = none
  | some pet =>
    match pet.saveInfo with
    | .unchanged => row = some pet.row
    | .changed => ∃ old, row = some old ∧ old.species = pet.species ∧ old.breed = pet.breed
    | .new => row = none
    | .removed => True

def BattlePet.Storable (pet : BattlePet) : Prop :=
  pet.row.Storable ∧ pet.maxHealth.toNat < 2 ^ 31

structure Edited (pet pet' : BattlePet) : Prop where
  live : pet.saveInfo ≠ .removed
  species : pet'.species = pet.species
  breed : pet'.breed = pet.breed
  mark : pet'.saveInfo = if pet.saveInfo = .new then .new else .changed
  storable : pet.Storable → pet'.Storable

theorem Edited.countsFor {pet pet' : BattlePet} (h : Edited pet pet') (species : Nat) :
    pet'.countsFor species = pet.countsFor species := by
  have hlive : pet'.saveInfo ≠ .removed := by
    rw [h.mark]
    split <;> decide
  simp only [BattlePet.countsFor, h.species, h.live, hlive, ne_eq, not_false_eq_true, and_true]

theorem Edited.inStep {pet pet' : BattlePet} (h : Edited pet pet') {row : Option Row}
    (hstep : InStep (some pet) row) : InStep (some pet') row := by
  have hlive := h.live
  simp only [InStep] at hstep ⊢
  rw [h.mark, h.species, h.breed]
  cases hmark : pet.saveInfo with
  | unchanged =>
    rw [hmark] at hstep
    exact ⟨pet.row, hstep, rfl, rfl⟩
  | changed =>
    rw [hmark] at hstep
    exact hstep
  | new =>
    rw [hmark] at hstep
    exact hstep
  | removed => exact absurd hmark hlive

namespace Account

def Marked (a : Account) (guid : PetGuid) : Prop :=
  ∃ pet, a.pets.lookup guid = some pet ∧ pet.saveInfo = .removed

def Fits (a : Account) : Op → Prop
  | .addPet species _ breed quality level =>
    species < 2 ^ 31 ∧ breed < 2 ^ 15 ∧ quality < 2 ^ 7 ∧ level < 2 ^ 15
  | .cageBattlePet guid stored => stored = true → ¬a.Marked guid
  | .modifyName guid name =>
    ¬a.Marked guid ∧ TextFits 12 name
  | .setFlags guid flags apply =>
    ¬a.Marked guid ∧ (apply = true → flags.toUInt16.toNat < 2 ^ 15)
  | .healBattlePetsPct _ => ∀ guid pet, a.pets.lookup guid = some pet →
      pet.saveInfo = .removed → pet.health = pet.maxHealth
  | _ => True

def Saved (a : Account) : Prop :=
  ∀ guid, a.rows.lookup guid = (a.livePet guid).map BattlePet.row

structure Inv (a : Account) : Prop where
  fresh : ∀ guid, a.nextGuid ≤ guid → a.pets.lookup guid = none ∧ guid ∉ a.removed
  gone : ∀ guid ∈ a.removed, a.livePet guid = none
  marked : ∀ guid, a.Marked guid → guid ∈ a.removed
  cagedOnce : (a.cages.map CageItem.guid).Nodup
  cagedRemoved : ∀ item ∈ a.cages, item.guid ∈ a.removed
  perSpecies : ∀ species, total (BattlePet.countsFor species) a.pets ≤ MAX_BATTLE_PETS_PER_SPECIES
  inStep : ∀ guid, InStep (a.pets.lookup guid) (a.rows.lookup guid)
  storable : ∀ guid pet, a.pets.lookup guid = some pet → pet.Storable

variable {tables : Tables} {a : Account} {guid : PetGuid}

theorem livePet_eq_none : a.livePet guid = none ↔
    ∀ pet, a.pets.lookup guid = some pet → pet.saveInfo = .removed := by
  rw [livePet, Option.filter_eq_none_iff]
  simp

/-- Changes that are noted, each of a pet that is not marked as removed. -/
theorem Inv.edit (h : Inv a) {f : PetGuid → BattlePet → BattlePet}
    (hf : ∀ guid pet, a.pets.lookup guid = some pet → f guid pet = pet ∨ Edited pet (f guid pet)) :
    Inv { a with pets := mapVal f a.pets } := by
  have hmark : ∀ guid pet, a.pets.lookup guid = some pet →
      ((f guid pet).saveInfo = .removed ↔ pet.saveInfo = .removed) := by
    intro guid pet hpet
    obtain heq | hedited := hf guid pet hpet
    · rw [heq]
    · refine iff_of_false ?_ hedited.live
      rw [hedited.mark]
      split <;> decide
  have hmarked : ∀ guid, Marked { a with pets := mapVal f a.pets } guid → a.Marked guid := by
    rintro guid ⟨pet', hpet', hremoved⟩
    obtain ⟨pet, hpet, rfl⟩ := Option.map_eq_some_iff.mp ((lookup_mapVal f a.pets guid).symm.trans hpet')
    exact ⟨pet, hpet, (hmark guid pet hpet).mp hremoved⟩
  refine ⟨fun guid hguid => ?_, fun guid hguid => ?_, fun guid hguid => h.marked guid (hmarked guid hguid),
    h.cagedOnce, h.cagedRemoved, fun species => ?_, fun guid => ?_, fun guid pet' hpet' => ?_⟩
  · obtain ⟨hnone, hnot⟩ := h.fresh guid hguid
    refine ⟨?_, hnot⟩
    rw [lookup_mapVal, hnone, Option.map_none]
  · refine livePet_eq_none.mpr fun pet' hpet' => ?_
    obtain ⟨pet, hpet, rfl⟩ := Option.map_eq_some_iff.mp ((lookup_mapVal f a.pets guid).symm.trans hpet')
    exact (hmark guid pet hpet).mpr (livePet_eq_none.mp (h.gone guid hguid) pet hpet)
  · rw [total_mapVal]
    · exact h.perSpecies species
    · intro guid pet hpet
      obtain heq | hedited := hf guid pet hpet
      · rw [heq]
      · exact hedited.countsFor species
  · have hstep := h.inStep guid
    rw [lookup_mapVal]
    cases hpet : a.pets.lookup guid with
    | none =>
      rw [hpet] at hstep
      exact hstep
    | some pet =>
      rw [hpet] at hstep
      obtain heq | hedited := hf guid pet hpet
      · rw [Option.map_some, heq]
        exact hstep
      · exact hedited.inStep hstep
  · obtain ⟨pet, hpet, rfl⟩ := Option.map_eq_some_iff.mp ((lookup_mapVal f a.pets guid).symm.trans hpet')
    obtain heq | hedited := hf guid pet hpet
    · exact heq.symm ▸ h.storable guid pet hpet
    · exact hedited.storable (h.storable guid pet hpet)

theorem edited_touch {pet pet' : BattlePet} (hlive : pet.saveInfo ≠ .removed)
    (hspecies : pet'.species = pet.species) (hbreed : pet'.breed = pet.breed)
    (hmark : pet'.saveInfo = pet.saveInfo) (hstorable : pet.Storable → pet'.Storable) :
    Edited pet (touch pet') := by
  unfold touch
  split
  next hnew => exact ⟨hlive, hspecies, hbreed, by rw [if_neg (hmark ▸ hnew)], hstorable⟩
  next hnew =>
    have hnew := not_not.mp hnew
    exact ⟨hlive, hspecies, hbreed, by rw [hnew, if_pos (hmark ▸ hnew)], hstorable⟩

theorem Inv.editOne (h : Inv a) (hmarked : ¬a.Marked guid) {f : BattlePet → BattlePet}
    (hspecies : ∀ pet, (f pet).species = pet.species) (hbreed : ∀ pet, (f pet).breed = pet.breed)
    (hmark : ∀ pet, (f pet).saveInfo = pet.saveInfo)
    (hstorable : ∀ pet : BattlePet, pet.Storable → (f pet).Storable) :
    Inv { a with pets := modify guid (fun pet => touch (f pet)) a.pets } := by
  refine h.edit fun guid' pet hpet => ?_
  by_cases hguid : guid' = guid
  · subst hguid
    rw [if_pos rfl]
    have hlive : pet.saveInfo ≠ .removed := fun hremoved => hmarked ⟨pet, hpet, hremoved⟩
    exact .inr (edited_touch hlive (hspecies pet) (hbreed pet) (hmark pet) (hstorable pet))
  · exact .inl (if_neg hguid)

theorem Inv.heal (h : Inv a) {pct : UInt8} (hfits : a.Fits (.healBattlePetsPct pct)) :
    Inv (a.healBattlePetsPct tables pct) := by
  refine h.edit fun guid pet hpet => ?_
  split
  next hinjured =>
    have hlive : pet.saveInfo ≠ .removed := fun hremoved =>
      hinjured (hfits guid pet hpet hremoved)
    refine .inr (edited_touch hlive rfl rfl rfl fun hpet => ⟨{ hpet.1 with health := ?_ }, hpet.2⟩)
    have hle : min (pet.health + tables.calculatePct pet.maxHealth pct) pet.maxHealth ≤
        pet.maxHealth := by
      show (if _ ≤ pet.maxHealth then _ else pet.maxHealth) ≤ pet.maxHealth
      split
      · assumption
      · exact UInt32.le_refl _
    exact Nat.lt_of_le_of_lt (UInt32.le_iff_toNat_le.mp hle) hpet.2
  · exact .inl rfl

theorem removePet_cases (a : Account) (guid : PetGuid) :
    (a.pets.lookup guid = none ∧ a.removePet guid = a) ∨
    ∃ pet, a.pets.lookup guid = some pet ∧ a.removePet guid = { a with
      pets := modify guid (fun pet => { pet with saveInfo := .removed }) a.pets
      removed := guid :: a.removed } := by
  unfold removePet
  cases hpet : a.pets.lookup guid with
  | none => exact .inl ⟨rfl, rfl⟩
  | some pet => exact .inr ⟨pet, rfl, rfl⟩

theorem Inv.removePet (h : Inv a) (guid : PetGuid) : Inv (a.removePet guid) := by
  obtain ⟨-, heq⟩ | ⟨pet, hpet, heq⟩ := a.removePet_cases guid
  · rw [heq]
    exact h
  rw [heq]
  have hlookup : ∀ j, (modify guid (fun pet => { pet with saveInfo := SaveInfo.removed })
      a.pets).lookup j = if j = guid then some { pet with saveInfo := .removed }
        else a.pets.lookup j := by
    intro j
    rw [lookup_modify]
    split
    next hj => rw [hj, hpet, Option.map_some]
    · rfl
  refine ⟨fun j hj => ?_, fun j hj => ?_, ?_, h.cagedOnce,
    fun item hitem => List.mem_cons_of_mem _ (h.cagedRemoved item hitem), fun species => ?_,
    fun j => ?_, fun j pet' hpet' => ?_⟩
  · obtain ⟨hnone, hnot⟩ := h.fresh j hj
    have hne : j ≠ guid := by
      rintro rfl
      rw [hpet] at hnone
      cases hnone
    refine ⟨?_, List.not_mem_cons_of_ne_of_not_mem hne hnot⟩
    rw [hlookup, if_neg hne, hnone]
  · refine livePet_eq_none.mpr fun pet' hpet' => ?_
    dsimp only at hpet'
    rw [hlookup] at hpet'
    split at hpet'
    · obtain rfl := Option.some.inj hpet'
      rfl
    next hne =>
      have hj := (List.mem_cons.mp hj).resolve_left hne
      exact livePet_eq_none.mp (h.gone j hj) pet' hpet'
  · rintro j ⟨pet', hpet', hremoved⟩
    dsimp only at hpet'
    rw [hlookup] at hpet'
    split at hpet'
    next hj =>
      rw [hj]
      exact List.mem_cons_self
    · exact List.mem_cons_of_mem _ (h.marked j ⟨pet', hpet', hremoved⟩)
  · have htotal := total_modify (BattlePet.countsFor species)
      (fun pet : BattlePet => { pet with saveInfo := .removed }) hpet
    have hzero : BattlePet.countsFor species { pet with saveInfo := .removed } = 0 :=
      if_neg fun hlive => hlive.2 rfl
    have hold := h.perSpecies species
    dsimp only at htotal ⊢
    omega
  · dsimp only
    rw [hlookup]
    split
    · trivial
    · exact h.inStep j
  · dsimp only at hpet'
    rw [hlookup] at hpet'
    split at hpet'
    · obtain rfl := Option.some.inj hpet'
      exact h.storable guid pet hpet
    · exact h.storable j pet' hpet'

theorem Inv.cageBattlePet (h : Inv a) {stored : Bool}
    (hfits : a.Fits (.cageBattlePet guid stored)) : Inv (a.cageBattlePet guid stored) := by
  unfold Account.cageBattlePet
  cases hpet : a.pets.lookup guid with
  | none => exact h
  | some pet =>
    dsimp only
    split
    next hstored =>
      have hremoved := h.removePet guid
      obtain ⟨hnone, -⟩ | ⟨_, -, heq⟩ := a.removePet_cases guid
      · rw [hpet] at hnone
        cases hnone
      rw [heq] at hremoved
      have heq' : Account.removePet { a with cages := ⟨guid, pet.species, pet.breed ||| pet.quality <<< 24,
          pet.level, pet.creatureID⟩ :: a.cages } guid = { a with
            cages := ⟨guid, pet.species, pet.breed ||| pet.quality <<< 24,
              pet.level, pet.creatureID⟩ :: a.cages
            pets := modify guid (fun pet => { pet with saveInfo := .removed }) a.pets
            removed := guid :: a.removed } := by
        unfold Account.removePet
        simp only [hpet]
      rw [heq']
      refine ⟨hremoved.fresh, hremoved.gone, hremoved.marked, ?_, ?_, hremoved.perSpecies,
        hremoved.inStep, hremoved.storable⟩
      · -- a pet in a cage was marked as removed when it was caged
        refine List.nodup_cons.mpr ⟨fun hmem => ?_, h.cagedOnce⟩
        obtain ⟨item, hitem, hguid⟩ := List.mem_map.mp hmem
        have hguid : item.guid = guid := hguid
        have hgone := h.gone guid (hguid ▸ h.cagedRemoved item hitem)
        exact hfits hstored ⟨pet, hpet, livePet_eq_none.mp hgone pet hpet⟩
      · intro item hitem
        obtain rfl | hitem := List.mem_cons.mp hitem
        · exact List.mem_cons_self
        · exact List.mem_cons_of_mem _ (h.cagedRemoved item hitem)
    · exact h

theorem calculateStats_species (pet : BattlePet) :
    (calculateStats tables pet).species = pet.species ∧
      (calculateStats tables pet).saveInfo = pet.saveInfo := by
  unfold calculateStats
  split <;> exact ⟨rfl, rfl⟩

structure Documented (tables : Tables) : Prop where
  store : ∀ row : Row, row.Storable → tables.store row = some row
  health : ∀ pet maxHealth, tables.calculateMaxHealth pet = some maxHealth →
    maxHealth.toNat < 2 ^ 31

theorem Documented.calculateStats (hd : Documented tables) {pet : BattlePet} (hpet : pet.Storable) :
    (calculateStats tables pet).Storable := by
  unfold BattlePets.calculateStats
  split
  next maxHealth hmax => exact ⟨{ hpet.1 with health := hd.health pet maxHealth hmax },
    hd.health pet maxHealth hmax⟩
  · exact hpet

theorem Inv.addPet (hd : Documented tables) (h : Inv a) {species creatureID breed quality level : Nat}
    (hfits : a.Fits (.addPet species creatureID breed quality level)) :
    Inv (a.addPet tables species creatureID breed quality level) := by
  obtain ⟨hspecies, hbreed, hquality, hlevel⟩ := hfits
  have hempty : TextFits 12 "" := by decide
  have hzero : ∀ n, (0 : UInt32).toNat < 2 ^ n := fun n => Nat.two_pow_pos n
  have hstorable := @Documented.calculateStats tables hd ⟨species, creatureID, breed, level, 0, 0, 0,
    quality, 0, "", .new⟩ ⟨⟨hspecies, hbreed, hlevel, hzero 15, hzero 31, hquality, hzero 15, hempty⟩,
      hzero 31⟩
  unfold Account.addPet
  split
  · exact h
  split
  · exact h
  next hroom =>
    dsimp only
    obtain ⟨hspecies, hmark⟩ := @calculateStats_species tables
      ⟨species, creatureID, breed, level, 0, 0, 0, quality, 0, "", .new⟩
    generalize calculateStats tables _ = pet at hspecies hmark hstorable
    obtain ⟨hnone, hnot⟩ := h.fresh a.nextGuid (Nat.le_refl _)
    have hrow := h.inStep a.nextGuid
    rw [hnone] at hrow
    refine ⟨fun j hj => ?_, fun j hj => ?_, ?_, h.cagedOnce, h.cagedRemoved, fun species' => ?_,
      fun j => ?_, fun j pet' hpet' => ?_⟩
    · have hlt : a.nextGuid < j := hj
      obtain ⟨hnone, hnot⟩ := h.fresh j (Nat.le_of_lt hlt)
      exact ⟨(AList.lookup_insert_ne (Nat.ne_of_gt hlt)).trans hnone, hnot⟩
    · have hne : j ≠ a.nextGuid := fun heq => hnot (heq ▸ hj)
      have hgone := h.gone j hj
      rw [livePet] at hgone ⊢
      rwa [AList.lookup_insert_ne hne]
    · rintro j ⟨pet', hpet', hremoved⟩
      by_cases hj : j = a.nextGuid
      · subst hj
        rw [AList.lookup_insert] at hpet'
        obtain rfl := Option.some.inj hpet'
        rw [hmark] at hremoved
        cases hremoved
      · rw [AList.lookup_insert_ne hj] at hpet'
        exact h.marked j ⟨pet', hpet', hremoved⟩
    · have hold := h.perSpecies species'
      rw [total_insert_of_notMem _ _ hnone]
      unfold BattlePet.countsFor
      dsimp only
      split
      next hcounts =>
        have hsame : species' = species := (hcounts.1.symm.trans hspecies)
        subst hsame
        unfold getPetCount MAX_BATTLE_PETS_PER_SPECIES at *
        unfold BattlePet.countsFor at hroom hold
        omega
      · unfold BattlePet.countsFor at hold
        omega
    · by_cases hj : j = a.nextGuid
      · subst hj
        rw [AList.lookup_insert]
        simp only [InStep, hmark]
        exact hrow
      · rw [AList.lookup_insert_ne hj]
        exact h.inStep j
    · by_cases hj : j = a.nextGuid
      · subst hj
        rw [AList.lookup_insert] at hpet'
        obtain rfl := Option.some.inj hpet'
        exact ⟨{ hstorable.1 with health := hstorable.2 }, hstorable.2⟩
      · rw [AList.lookup_insert_ne hj] at hpet'
        exact h.storable j pet' hpet'

section Saving

def saveEntry (tables : Tables) : Option BattlePet × Option Row → Option BattlePet × Option Row
  | (none, row) => (none, row)
  | (some pet, row) =>
    match pet.saveInfo with
    | .new => (some { pet with saveInfo := .unchanged }, (tables.store pet.row).elim row some)
    | .changed => (some { pet with saveInfo := .unchanged },
      (tables.store pet.row).elim row fun written => row.map (updateRow written))
    | .removed => (none, none)
    | .unchanged => (some pet, row)

theorem savePet_self (a : Account) (guid : PetGuid) :
    ((a.savePet tables guid).pets.lookup guid, (a.savePet tables guid).rows.lookup guid) =
      saveEntry tables (a.pets.lookup guid, a.rows.lookup guid) := by
  unfold savePet
  cases hpet : a.pets.lookup guid with
  | none => simp [saveEntry, hpet]
  | some pet => cases hmark : pet.saveInfo <;> cases hstore : tables.store pet.row <;>
      simp [saveEntry, hmark, hpet, hstore]

theorem savePet_ne (a : Account) (guid j : PetGuid) (hj : j ≠ guid) :
    ((a.savePet tables guid).pets.lookup j, (a.savePet tables guid).rows.lookup j) =
      (a.pets.lookup j, a.rows.lookup j) := by
  unfold savePet
  cases a.pets.lookup guid with
  | none => rfl
  | some pet =>
    dsimp only
    cases hmark : pet.saveInfo <;> cases tables.store pet.row <;>
      simp [hj, AList.lookup_insert_ne, AList.lookup_erase_ne, lookup_modify_ne]

theorem savePets_lookup (a : Account) (j : PetGuid) :
    ((a.savePets tables).pets.lookup j, (a.savePets tables).rows.lookup j) =
      saveEntry tables (a.pets.lookup j, a.rows.lookup j) := by
  let view := fun j (a : Account) => (a.pets.lookup j, a.rows.lookup j)
  let save := fun _ : PetGuid => saveEntry tables
  have hself : ∀ a guid, view guid (a.savePet tables guid) = save guid (view guid a) := savePet_self
  have hsaved := view_foldl_nodup hself savePet_ne j (AList.keys_nodup a.pets) a
  rw [show ((a.savePets tables).pets.lookup j, (a.savePets tables).rows.lookup j) = _ from hsaved]
  split
  · rfl
  next hj =>
    have hnone : a.pets.lookup j = none := AList.lookup_eq_none.mpr fun h => hj (AList.mem_keys.mp h)
    simp only [view, hnone]
    rfl

theorem savePet_frame (a : Account) (guid : PetGuid) : (a.savePet tables guid).nextGuid = a.nextGuid ∧
    (a.savePet tables guid).removed = a.removed ∧ (a.savePet tables guid).cages = a.cages := by
  unfold savePet
  cases a.pets.lookup guid with
  | none => exact ⟨rfl, rfl, rfl⟩
  | some pet =>
    dsimp only
    cases hmark : pet.saveInfo <;> exact ⟨rfl, rfl, rfl⟩

theorem savePet_total (a : Account) (guid : PetGuid) (species : Nat) :
    total (BattlePet.countsFor species) (a.savePet tables guid).pets ≤
      total (BattlePet.countsFor species) a.pets := by
  unfold savePet
  cases hpet : a.pets.lookup guid with
  | none => exact Nat.le_refl _
  | some pet =>
    have herase := total_erase (BattlePet.countsFor species) hpet
    have hsame : pet.saveInfo ≠ .removed →
        BattlePet.countsFor species { pet with saveInfo := .unchanged } =
          pet.countsFor species := by
      intro hlive
      simp [BattlePet.countsFor, hlive]
    dsimp only
    cases hmark : pet.saveInfo with
    | new =>
      have hcounts := hsame (by rw [hmark]; decide)
      dsimp only
      rw [total_insert]
      omega
    | changed =>
      have hcounts := hsame (by rw [hmark]; decide)
      dsimp only
      rw [total_insert]
      omega
    | removed =>
      dsimp only
      omega
    | unchanged => exact Nat.le_refl _

theorem savePets_frame (a : Account) : (a.savePets tables).nextGuid = a.nextGuid ∧
    (a.savePets tables).removed = a.removed ∧ (a.savePets tables).cages = a.cages ∧
    ∀ species, total (BattlePet.countsFor species) (a.savePets tables).pets ≤
      total (BattlePet.countsFor species) a.pets := by
  unfold savePets
  generalize a.pets.keys = guids
  induction guids generalizing a with
  | nil => exact ⟨rfl, rfl, rfl, fun _ => Nat.le_refl _⟩
  | cons guid guids ih =>
    obtain ⟨hnext, hremoved, hcages, htotal⟩ := ih (a.savePet tables guid)
    obtain ⟨hnext', hremoved', hcages'⟩ := a.savePet_frame guid
    exact ⟨hnext.trans hnext', hremoved.trans hremoved', hcages.trans hcages',
      fun species => (htotal species).trans (a.savePet_total guid species)⟩

theorem saveEntry_spec {pet : Option BattlePet} {row : Option Row} (h : InStep pet row)
    (hstored : ∀ p, pet = some p → tables.store p.row = some p.row) :
    (∀ pet', (saveEntry tables (pet, row)).1 = some pet' → pet'.saveInfo = .unchanged ∧
      ∃ old, pet = some old ∧ old.saveInfo ≠ .removed ∧ (old.Storable → pet'.Storable)) ∧
    (saveEntry tables (pet, row)).2 = (saveEntry tables (pet, row)).1.map BattlePet.row := by
  cases pet with
  | none => exact ⟨(fun _ h => nomatch h), h⟩
  | some pet =>
    simp only [InStep] at h
    unfold saveEntry
    dsimp only
    rw [hstored pet rfl]
    cases hmark : pet.saveInfo with
    | new =>
      refine ⟨fun pet' hpet' => ?_, rfl⟩
      obtain rfl := Option.some.inj hpet'
      exact ⟨rfl, pet, rfl, by rw [hmark]; decide, fun hpet => hpet⟩
    | changed =>
      rw [hmark] at h
      obtain ⟨old, rfl, hspecies, hbreed⟩ := h
      refine ⟨fun pet' hpet' => ?_, ?_⟩
      · obtain rfl := Option.some.inj hpet'
        exact ⟨rfl, pet, rfl, by rw [hmark]; decide, fun hpet => hpet⟩
      · dsimp only
        rw [Option.elim_some, Option.map_some, Option.map_some, updateRow, hspecies, hbreed]
        rfl
    | removed => exact ⟨(fun _ h => nomatch h), rfl⟩
    | unchanged =>
      rw [hmark] at h
      refine ⟨fun pet' hpet' => ?_, h⟩
      obtain rfl := Option.some.inj hpet'
      exact ⟨hmark, pet, rfl, by rw [hmark]; decide, fun hpet => hpet⟩

theorem Inv.savePets (hd : Documented tables) (h : Inv a) :
    Inv (a.savePets tables) ∧ (a.savePets tables).Saved := by
  have hstored : ∀ j pet, a.pets.lookup j = some pet → tables.store pet.row = some pet.row :=
    fun j pet hpet => hd.store pet.row (h.storable j pet hpet).1
  obtain ⟨hnext, hremoved, hcages, htotal⟩ := a.savePets_frame
  have hpets : ∀ j, (a.savePets tables).pets.lookup j =
      (saveEntry tables (a.pets.lookup j, a.rows.lookup j)).1 := fun j =>
    congrArg Prod.fst (a.savePets_lookup j)
  have hrows : ∀ j, (a.savePets tables).rows.lookup j =
      (saveEntry tables (a.pets.lookup j, a.rows.lookup j)).2 := fun j =>
    congrArg Prod.snd (a.savePets_lookup j)
  have hlive : ∀ j pet, (a.savePets tables).pets.lookup j = some pet → pet.saveInfo = .unchanged ∧
      ∃ old, a.pets.lookup j = some old ∧ old.saveInfo ≠ .removed ∧
        (old.Storable → pet.Storable) := fun j pet hpet =>
    (saveEntry_spec (h.inStep j) (hstored j)).1 pet ((hpets j).symm.trans hpet)
  have hrow : ∀ j, (a.savePets tables).rows.lookup j =
      ((a.savePets tables).pets.lookup j).map BattlePet.row := by
    intro j
    rw [hpets, hrows]
    exact (saveEntry_spec (h.inStep j) (hstored j)).2
  refine ⟨⟨fun j hj => ?_, fun j hj => ?_, ?_, ?_, ?_, fun species => ?_, fun j => ?_,
    fun j pet hpet => ?_⟩, fun j => ?_⟩
  · obtain ⟨hnone, hnot⟩ := h.fresh j (hnext ▸ hj)
    refine ⟨?_, hremoved.symm ▸ hnot⟩
    rw [hpets, hnone]
    rfl
  · refine livePet_eq_none.mpr fun pet hpet => ?_
    obtain ⟨-, old, hold, hmark, -⟩ := hlive j pet hpet
    exact absurd (livePet_eq_none.mp (h.gone j (hremoved ▸ hj)) old hold) hmark
  · rintro j ⟨pet, hpet, hmark⟩
    rw [(hlive j pet hpet).1] at hmark
    cases hmark
  · rw [hcages]
    exact h.cagedOnce
  · rw [hcages, hremoved]
    exact h.cagedRemoved
  · exact (htotal species).trans (h.perSpecies species)
  · rw [hrow]
    cases hpet : (a.savePets tables).pets.lookup j with
    | none => rfl
    | some pet => simp only [InStep, (hlive j pet hpet).1, Option.map_some]
  · obtain ⟨-, old, hold, -, hstorable⟩ := hlive j pet hpet
    exact hstorable (h.storable j old hold)
  · rw [hrow, livePet]
    cases hpet : (a.savePets tables).pets.lookup j with
    | none => rfl
    | some pet => simp [(hlive j pet hpet).1]

theorem Inv.saveToDB (hd : Documented tables) (h : Inv a) :
    Inv (a.saveToDB tables) ∧ (a.saveToDB tables).Saved := by
  have haccepted : a.rejected tables = false := by
    refine List.any_eq_false.mpr fun e he hfails => ?_
    have hstored := hd.store e.2.row (h.storable e.1 e.2 (mem_entries_iff.mp he)).1
    rw [hstored] at hfails
    simp at hfails
  rw [Account.saveToDB, haccepted, if_neg Bool.false_ne_true]
  exact h.savePets hd

end Saving

theorem Inv.apply (hd : Documented tables) (h : Inv a) {op : Op} (hfits : a.Fits op) :
    Inv (a.apply tables op) := by
  cases op with
  | addPet species creatureID breed quality level => exact h.addPet hd hfits
  | removePet guid => exact h.removePet guid
  | cageBattlePet guid stored => exact h.cageBattlePet hfits
  | healBattlePetsPct pct => exact h.heal hfits
  | modifyName guid name =>
    exact h.editOne hfits.1 (fun _ => rfl) (fun _ => rfl) (fun _ => rfl) fun pet hpet =>
      ⟨{ hpet.1 with name := hfits.2 }, hpet.2⟩
  | setFlags guid flags apply =>
    refine h.editOne hfits.1 (fun _ => rfl) (fun _ => rfl) (fun _ => rfl) fun pet hpet =>
      ⟨{ hpet.1 with flags := ?_ }, hpet.2⟩
    dsimp only [BattlePet.row]
    split
    next happly =>
      rw [UInt16.toNat_or]
      exact Nat.or_lt_two_pow hpet.1.flags (hfits.2 happly)
    · rw [UInt16.toNat_and]
      exact Nat.lt_of_le_of_lt Nat.and_le_left hpet.1.flags
  | saveToDB => exact (h.saveToDB hd).1

end Account

section Loading
variable {tables : Tables}

structure Loadable (tables : Tables) (rows : AList fun _ : PetGuid => Row) (nextGuid : PetGuid) :
    Prop where
  known : ∀ guid row, rows.lookup guid = some row → (tables.speciesStore row.species).isSome
  perSpecies : ∀ species, total (fun row : Row => if row.species = species then 1 else 0) rows ≤
    MAX_BATTLE_PETS_PER_SPECIES
  atFullHealth : ∀ guid row creatureID, rows.lookup guid = some row →
    (loadedPet tables creatureID row).health = row.health
  old : ∀ guid row, rows.lookup guid = some row → guid < nextGuid
  storable : ∀ guid row, rows.lookup guid = some row → row.Storable

theorem loadedPet_spec (creatureID : Nat) (row : Row) :
    (loadedPet tables creatureID row).saveInfo = .unchanged ∧
      (loadedPet tables creatureID row).species = row.species ∧
      (loadedPet tables creatureID row).row =
        { row with health := (loadedPet tables creatureID row).health } := by
  unfold loadedPet calculateStats
  split <;> exact ⟨rfl, rfl, rfl⟩

theorem load_spec (l : List (Sigma fun _ : PetGuid => Row)) (hl : l.NodupKeys)
    (pets : AList fun _ : PetGuid => BattlePet) (hnew : ∀ e ∈ l, pets.lookup e.1 = none)
    (hknown : ∀ e ∈ l, (tables.speciesStore e.2.species).isSome)
    (hcount : ∀ species, total (BattlePet.countsFor species) pets +
      (l.map fun e => if e.2.species = species then 1 else 0).sum ≤ MAX_BATTLE_PETS_PER_SPECIES) :
    (∀ j, j ∉ l.keys →
      (l.foldl (fun pets e => loadPet tables pets e.1 e.2) pets).lookup j = pets.lookup j) ∧
    (∀ e ∈ l, ∃ creatureID, (l.foldl (fun pets e => loadPet tables pets e.1 e.2) pets).lookup e.1 =
      some (loadedPet tables creatureID e.2)) ∧
    ∀ species, total (BattlePet.countsFor species)
      (l.foldl (fun pets e => loadPet tables pets e.1 e.2) pets) ≤ MAX_BATTLE_PETS_PER_SPECIES := by
  induction l generalizing pets with
  | nil => exact ⟨fun _ _ => rfl, fun _ h => (nomatch h), hcount⟩
  | cons e l ih =>
    obtain ⟨hfirst, hrest⟩ := List.nodupKeys_cons.mp hl
    obtain ⟨creatureID, hcreature⟩ := Option.isSome_iff_exists.mp (hknown e List.mem_cons_self)
    have hnone := hnew e List.mem_cons_self
    have hroom := hcount e.2.species
    have hturn : loadPet tables pets e.1 e.2 = pets.insert e.1 (loadedPet tables creatureID e.2) := by
      simp only [List.map_cons, List.sum_cons, if_true, MAX_BATTLE_PETS_PER_SPECIES] at hroom
      unfold loadPet getPetCount MAX_BATTLE_PETS_PER_SPECIES
      simp only [hcreature]
      rw [if_neg (by omega)]
    have hne : ∀ e' ∈ l, e'.1 ≠ e.1 := fun e' he' heq =>
      hfirst (heq ▸ List.mem_keys_of_mem he')
    obtain ⟨hother, hloaded, htotal⟩ := ih hrest (pets.insert e.1 (loadedPet tables creatureID e.2))
      (fun e' he' => (AList.lookup_insert_ne (hne e' he')).trans
        (hnew e' (List.mem_cons_of_mem _ he')))
      (fun e' he' => hknown e' (List.mem_cons_of_mem _ he'))
      (fun species => by
        have hold := hcount species
        obtain ⟨hmark, hspecies, -⟩ := @loadedPet_spec tables creatureID e.2
        have hcounts : (loadedPet tables creatureID e.2).countsFor species =
            if e.2.species = species then 1 else 0 := by
          simp [BattlePet.countsFor, hmark, hspecies]
        rw [total_insert_of_notMem _ _ hnone, hcounts]
        rw [List.map_cons, List.sum_cons] at hold
        omega)
    rw [List.foldl_cons, hturn]
    refine ⟨fun j hj => ?_, fun e' he' => ?_, htotal⟩
    · rw [List.keys_cons, List.mem_cons, not_or] at hj
      rw [hother j hj.2, AList.lookup_insert_ne hj.1]
    · obtain rfl | he' := List.mem_cons.mp he'
      · refine ⟨creatureID, ?_⟩
        rw [hother _ hfirst, AList.lookup_insert]
      · exact hloaded e' he'

theorem inv_opened {rows : AList fun _ : PetGuid => Row} {nextGuid : PetGuid}
    (hd : Account.Documented tables) (h : Loadable tables rows nextGuid) :
    (Account.opened tables rows nextGuid).Inv := by
  obtain ⟨hother, hloaded, htotal⟩ := load_spec rows.entries rows.nodupKeys ∅
    (fun _ _ => rfl)
    (fun e he => h.known e.1 e.2 (mem_entries_iff.mp he))
    (fun species => by
      have hcount := h.perSpecies species
      rw [total] at hcount ⊢
      exact (Nat.zero_add _).symm ▸ hcount)
  have hnone : ∀ j, rows.lookup j = none → (loadFromDB tables rows).lookup j = none := fun j hj =>
    hother j fun hmem => AList.lookup_eq_none.mp hj (AList.mem_keys.mpr hmem)
  have hsome : ∀ j row, rows.lookup j = some row → ∃ creatureID,
      (loadFromDB tables rows).lookup j = some (loadedPet tables creatureID row) := fun j row hj =>
    hloaded ⟨j, row⟩ (mem_entries_iff.mpr hj)
  refine ⟨fun j hj => ⟨hnone j ?_, List.not_mem_nil⟩, fun _ hj => (by cases hj), ?_,
    List.nodup_nil, fun _ hitem => (by cases hitem), htotal, fun j => ?_, fun j pet hpet => ?_⟩
  · cases hrow : rows.lookup j with
    | none => rfl
    | some row => exact absurd (h.old j row hrow) (Nat.not_lt.mpr hj)
  · rintro j ⟨pet, hpet, hmark⟩
    cases hrow : rows.lookup j with
    | none =>
      have hpet : (loadFromDB tables rows).lookup j = some pet := hpet
      rw [hnone j hrow] at hpet
      cases hpet
    | some row =>
      obtain ⟨creatureID, hloaded⟩ := hsome j row hrow
      obtain rfl := Option.some.inj (hloaded.symm.trans hpet)
      rw [(loadedPet_spec creatureID row).1] at hmark
      cases hmark
  · show InStep ((loadFromDB tables rows).lookup j) (rows.lookup j)
    cases hrow : rows.lookup j with
    | none =>
      rw [hnone j hrow]
      rfl
    | some row =>
      obtain ⟨creatureID, hloaded⟩ := hsome j row hrow
      obtain ⟨hmark, -, heq⟩ := @loadedPet_spec tables creatureID row
      rw [hloaded]
      simp only [InStep, hmark]
      rw [heq, h.atFullHealth j row creatureID hrow]
  · have hpet : (loadFromDB tables rows).lookup j = some pet := hpet
    cases hrow : rows.lookup j with
    | none =>
      rw [hnone j hrow] at hpet
      cases hpet
    | some row =>
      obtain ⟨creatureID, hloaded⟩ := hsome j row hrow
      obtain rfl := Option.some.inj (hloaded.symm.trans hpet)
      exact hd.calculateStats ⟨h.storable j row hrow, Nat.two_pow_pos 31⟩

end Loading

/-- In every run from a table that can be loaded, whose requests name no pet marked as removed and
give values that the columns hold: no removed pet is live again, a pet goes into one cage, at most
three of a species are live, and a save leaves exactly the live pets in the table. -/
theorem pets_run {tables : Tables} {rows : AList fun _ : PetGuid => Row} {nextGuid : PetGuid}
    (hd : Account.Documented tables) (hload : Loadable tables rows nextGuid) {ops : List Op}
    {a : Account}
    (hrun : Run (fun a op a' => a.apply tables op = a') Account.Fits
      (Account.opened tables rows nextGuid) ops a) :
    (∀ guid ∈ a.removed, a.livePet guid = none) ∧
      (∀ item ∈ a.cages, item.guid ∈ a.removed) ∧ (a.cages.map CageItem.guid).Nodup ∧
      (∀ species, total (BattlePet.countsFor species) a.pets ≤ MAX_BATTLE_PETS_PER_SPECIES) ∧
      (a.saveToDB tables).Saved := by
  have hinv := hrun.invariant Account.Inv (inv_opened hd hload) fun a op a' h hfits hstep =>
    hstep ▸ h.apply hd hfits
  exact ⟨hinv.gone, hinv.cagedRemoved, hinv.cagedOnce, hinv.perSpecies, (hinv.saveToDB hd).2⟩

instance (row : Row) : Decidable row.Storable :=
  decidable_of_iff (row.species < 2 ^ 31 ∧ row.breed < 2 ^ 15 ∧ row.level < 2 ^ 15 ∧
    row.exp < 2 ^ 15 ∧ row.health.toNat < 2 ^ 31 ∧ row.quality < 2 ^ 7 ∧ row.flags.toNat < 2 ^ 15 ∧
    TextFits 12 row.name)
    ⟨fun ⟨h₁, h₂, h₃, h₄, h₅, h₆, h₇, h₈⟩ => ⟨h₁, h₂, h₃, h₄, h₅, h₆, h₇, h₈⟩,
      fun ⟨h₁, h₂, h₃, h₄, h₅, h₆, h₇, h₈⟩ => ⟨h₁, h₂, h₃, h₄, h₅, h₆, h₇, h₈⟩⟩

/-- A value that a column does not hold makes the statement fail. -/
def plainTables : Tables :=
  ⟨fun _ => some 7, fun _ => some 100, fun health _ => health,
    fun row => if row.Storable then some row else none⟩

def twoPets : Account :=
  [.addPet 1 7 3 2 1, .addPet 1 7 3 2 1].foldl (Account.apply plainTables)
    (Account.opened plainTables ∅ 1)

/-- One pet gets a name, the other one is removed. -/
theorem pets_run_named : (((twoPets.apply plainTables (.modifyName 1 "Rex")).apply plainTables
    (.removePet 2)).saveToDB plainTables).Saved := by
  have hd : Account.Documented plainTables := by
    refine ⟨fun row hrow => if_pos hrow, fun pet maxHealth hmax => ?_⟩
    obtain rfl := Option.some.inj hmax
    decide
  have hload : Loadable plainTables ∅ 1 := by
    refine ⟨fun guid row h => ?_, fun _ => Nat.zero_le _, fun guid row _ h => ?_,
      fun guid row h => ?_, fun guid row h => ?_⟩ <;> cases h
  have hadd : 1 < 2 ^ 31 ∧ 3 < 2 ^ 15 ∧ 2 < 2 ^ 7 ∧ 1 < 2 ^ 15 := by decide
  have hname : ¬twoPets.Marked 1 ∧ TextFits 12 "Rex" := by
    refine ⟨?_, by decide⟩
    rintro ⟨pet, hpet, hremoved⟩
    have hnew : (twoPets.pets.lookup 1).map BattlePet.saveInfo = some .new := rfl
    rw [hpet, Option.map_some, hremoved] at hnew
    cases hnew
  have hrun : Run (fun a op a' => a.apply plainTables op = a') Account.Fits
      (Account.opened plainTables ∅ 1)
      [.addPet 1 7 3 2 1, .addPet 1 7 3 2 1, .modifyName 1 "Rex", .removePet 2] _ :=
    .cons hadd rfl (.cons hadd rfl (.cons hname rfl (.cons trivial rfl (.nil _))))
  exact (pets_run hd hload hrun).2.2.2.2

/-- A pet is removed; a request for its flags before the next save makes it live again. -/
theorem pets_fail_flags : ¬∀ (tables : Tables) (ops : List Op),
    ∀ guid ∈ (ops.foldl (Account.apply tables) (Account.opened tables ∅ 1)).removed,
      (ops.foldl (Account.apply tables) (Account.opened tables ∅ 1)).livePet guid = none := by
  intro hall
  have hgone := hall plainTables [.addPet 1 7 3 2 1, .removePet 1, .setFlags 1 1 true] 1 (by decide)
  exact absurd hgone (by decide)

end Ashamane.BattlePets
