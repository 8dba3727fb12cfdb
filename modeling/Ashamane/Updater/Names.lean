import Ashamane.Updater.Basic

/-! When the column of the names tells names apart as the updater does, its statements change the
rows of the names that they give. -/
namespace Ashamane.Updater
open Ashamane.Lib

def NameColumn.Apart (column : NameColumn) (names : String → Prop) : Prop :=
  ∀ name, names name → column.literal name = some name ∧
    ∀ other, names other → (column.same name other = true ↔ name = other)

theorem NameColumn.exact_apart : NameColumn.exact.Apart fun _ => True :=
  fun _ _ => ⟨rfl, fun _ _ => decide_eq_true_iff⟩

def Within (names : String → Prop) (updates : AppliedFileStorage) : Prop :=
  ∀ name ∈ updates.keys, names name

variable {calculateSHA1Hash : String → String} {column : NameColumn} {names : String → Prop}
  {updates storage : AppliedFileStorage} {name source target : String} {file : LocaleFile}

theorem within_true (updates : AppliedFileStorage) : Within (fun _ => True) updates :=
  fun _ _ => trivial

theorem Within.erase (h : Within names updates) (name : String) :
    Within names (updates.erase name) := fun other hother => by
  rw [AList.keys_erase] at hother
  exact h other (List.mem_of_mem_erase hother)

theorem Within.insert (h : Within names updates) (hname : names name) (entry : AppliedFileEntry) :
    Within names (updates.insert name entry) := fun other hother => by
  rw [AList.keys_insert] at hother
  rcases List.mem_cons.mp hother with rfl | hother
  · exact hname
  · exact h other (List.mem_of_mem_erase hother)

theorem Within.of_lookup (h : Within names updates) {entry : AppliedFileEntry}
    (hentry : updates.lookup name = some entry) : names name :=
  h name (AList.lookup_isSome.mp (by rw [hentry]; rfl))

section Apart

variable (h : column.Apart names) (hin : Within names updates)
include h hin

theorem deleteNamed_eq (hname : names name) :
    deleteNamed column updates name = updates.erase name := by
  have hfilter : updates.keys.filter (fun key => column.same key name) =
      updates.keys.filter (· == name) := by
    refine List.filter_congr fun key hkey => Bool.eq_iff_iff.mpr ?_
    rw [((h key (hin key hkey)).2 name hname), beq_iff_eq]
  rw [deleteNamed, hfilter, List.filter_beq]
  by_cases hmem : name ∈ updates.keys
  · rw [List.count_eq_one_of_mem updates.keys_nodup hmem]
    rfl
  · rw [List.count_eq_zero_of_not_mem hmem]
    exact AList.ext (List.kerase_of_notMem_keys hmem).symm

theorem findNamed_eq (hname : names name) :
    findNamed column updates name = (updates.lookup name).map fun entry => (name, entry) := by
  have hrow : ∀ row ∈ updates.entries, column.same row.1 name = true ↔ row.1 = name :=
    fun row hrow => (h row.1 (hin row.1 (List.mem_keys_of_mem hrow))).2 name hname
  unfold findNamed
  cases hfind : updates.entries.find? fun row => column.same row.1 name with
  | none =>
    cases hentry : updates.lookup name with
    | none => rfl
    | some entry =>
      have hmem := Assoc.mem_entries_iff.mpr hentry
      exact absurd ((hrow _ hmem).mpr rfl) (List.find?_eq_none.mp hfind _ hmem)
  | some row =>
    have hmem := List.mem_of_find?_eq_some hfind
    obtain ⟨key, entry⟩ := row
    have hsame : column.same key name = true := by simpa using List.find?_some hfind
    obtain rfl : key = name := (hrow _ hmem).mp hsame
    rw [Assoc.mem_entries_iff.mp hmem]
    rfl

theorem updateEntry_eq (hname : names file.name) :
    updateEntry calculateSHA1Hash column updates file = (updates.erase file.name).insert file.name
      ⟨calculateSHA1Hash file.content, file.state⟩ := by
  simp only [updateEntry, (h file.name hname).1, deleteNamed_eq h hin hname]

theorem renameEntry_eq (hsource : names source) (htarget : names target) :
    renameEntry column updates source target = ((updates.erase target).lookup source).elim
      (updates.erase target) fun entry =>
        ((updates.erase target).erase source).insert target entry := by
  simp only [renameEntry, (h target htarget).1, (h source hsource).1, Option.bind_some,
    deleteNamed_eq h hin htarget, findNamed_eq h (hin.erase target) hsource]
  cases (updates.erase target).lookup source <;> rfl

theorem updateState_eq (hname : names name) (state : State) :
    updateState column updates name state = (updates.lookup name).elim updates fun entry =>
      updates.insert name { entry with state } := by
  simp only [updateState, (h name hname).1, Option.bind_some, findNamed_eq h hin hname]
  cases updates.lookup name <;> rfl

theorem cleanUp_eq (hstorage : Within names storage) :
    cleanUp column updates storage =
      storage.keys.foldl (fun updates name => updates.erase name) updates := by
  have hall : ∀ l : List String, (∀ name ∈ l, names name) → l.mapM column.literal = some l := by
    intro l
    induction l with
    | nil => exact fun _ => rfl
    | cons name l ih =>
      intro hl
      rw [List.mapM_cons, (h name (hl name List.mem_cons_self)).1,
        ih fun other hother => hl other (List.mem_cons_of_mem _ hother)]
      rfl
  simp only [cleanUp, hall storage.keys hstorage]
  replace hstorage : ∀ name ∈ storage.keys, names name := hstorage
  generalize storage.keys = l at hstorage
  induction l generalizing updates with
  | nil => rfl
  | cons name l ih =>
    rw [List.foldl_cons, List.foldl_cons, deleteNamed_eq h hin (hstorage name List.mem_cons_self)]
    exact ih (hin.erase name) fun other hother => hstorage other (List.mem_cons_of_mem _ hother)

end Apart

theorem updateEntry_exact (updates : AppliedFileStorage) (file : LocaleFile) :
    updateEntry calculateSHA1Hash .exact updates file = (updates.erase file.name).insert file.name
      ⟨calculateSHA1Hash file.content, file.state⟩ :=
  updateEntry_eq NameColumn.exact_apart (within_true updates) trivial

theorem renameEntry_exact (updates : AppliedFileStorage) (source target : String) :
    renameEntry .exact updates source target = ((updates.erase target).lookup source).elim
      (updates.erase target) fun entry =>
        ((updates.erase target).erase source).insert target entry :=
  renameEntry_eq NameColumn.exact_apart (within_true updates) trivial trivial

theorem updateState_exact (updates : AppliedFileStorage) (name : String) (state : State) :
    updateState .exact updates name state = (updates.lookup name).elim updates fun entry =>
      updates.insert name { entry with state } :=
  updateState_eq NameColumn.exact_apart (within_true updates) trivial state

theorem cleanUp_exact (updates storage : AppliedFileStorage) :
    cleanUp .exact updates storage =
      storage.keys.foldl (fun updates name => updates.erase name) updates :=
  cleanUp_eq NameColumn.exact_apart (within_true updates) (within_true storage)

structure Progress.Within (names : String → Prop) (s : Progress) : Prop where
  updates : Updater.Within names s.updates
  applied : Updater.Within names s.applied

theorem importFile_eq (h : column.Apart names) {s : Progress} (hin : s.Within names)
    (hname : names file.name) (mode : UpdateMode) :
    importFile calculateSHA1Hash column s file mode =
        importFile calculateSHA1Hash .exact s file mode ∧
      (importFile calculateSHA1Hash column s file mode).Within names := by
  have hentry := @updateEntry_eq calculateSHA1Hash _ _ _ _ h hin.updates hname
  constructor
  · simp only [importFile, hentry, updateEntry_exact]
  · refine ⟨?_, hin.applied.erase file.name⟩
    simp only [importFile, hentry]
    exact (hin.updates.erase file.name).insert hname _

/-- One turn of the loop is that of the column in which names are compared exactly. -/
theorem checkFile_eq (h : column.Apart names) {config : Settings} {available : LocaleFileStorage}
    {hashToName : String → Option String} (hold : ∀ hash old, hashToName hash = some old → names old)
    {s : Progress} (hin : s.Within names) (hname : names file.name) :
    checkFile calculateSHA1Hash column config available hashToName s file =
        checkFile calculateSHA1Hash .exact config available hashToName s file ∧
      (checkFile calculateSHA1Hash column config available hashToName s file).Within names := by
  have himport := @importFile_eq calculateSHA1Hash _ _ _ h s hin hname
  have herased := hin.applied.erase file.name
  unfold checkFile
  cases s.applied.lookup file.name with
  | some entry =>
    have hstate := updateState_eq h hin.updates hname file.state
    dsimp only
    split
    · exact ⟨rfl, hin.updates, herased⟩
    split
    · exact ⟨rfl, hin.updates, herased⟩
    split
    · exact himport .MODE_REHASH
    split
    · exact himport .MODE_APPLY
    split
    · rw [hstate, updateState_exact]
      refine ⟨rfl, ?_, herased⟩
      cases s.updates.lookup file.name with
      | none => exact hin.updates
      | some row => exact hin.updates.insert hname _
    · exact ⟨rfl, hin.updates, herased⟩
  | none =>
    dsimp only
    cases holdName : hashToName (calculateSHA1Hash file.content) with
    | none => exact himport .MODE_APPLY
    | some oldName =>
      have hsource := hold _ oldName holdName
      dsimp only
      split
      · exact himport .MODE_APPLY
      · rw [renameEntry_eq h hin.updates hsource hname, renameEntry_exact]
        refine ⟨rfl, ?_, hin.applied.erase oldName⟩
        cases (s.updates.erase file.name).lookup oldName with
        | none => exact hin.updates.erase file.name
        | some entry => exact ((hin.updates.erase file.name).erase oldName).insert hname entry

theorem hashToName_within (hin : Within names updates) :
    ∀ hash old, hashToName updates hash = some old → names old := by
  intro hash old hold
  obtain ⟨⟨key, entry⟩, hfind, rfl⟩ := Option.map_eq_some_iff.mp hold
  exact hin key (List.mem_keys_of_mem (List.mem_of_find?_eq_some hfind))

/-- An update of a table whose names, with those of the files, are told apart by the column is the
update in which names are compared exactly. -/
theorem update_eq_exact (h : column.Apart names) (config : Settings)
    {available : LocaleFileStorage} (hfiles : ∀ file ∈ available.files, names file.name)
    (hin : Within names updates) :
    update calculateSHA1Hash column config available updates =
        update calculateSHA1Hash .exact config available updates ∧
      Within names (update calculateSHA1Hash column config available updates).updates := by
  have hloop : ∀ (l : List LocaleFile) (s : Progress), (∀ file ∈ l, names file.name) →
      s.Within names →
      l.foldl (checkFile calculateSHA1Hash column config available (hashToName updates)) s =
          l.foldl (checkFile calculateSHA1Hash .exact config available (hashToName updates)) s ∧
        (l.foldl (checkFile calculateSHA1Hash column config available (hashToName updates))
          s).Within names := by
    intro l
    induction l with
    | nil => exact fun _ _ hs => ⟨rfl, hs⟩
    | cons file l ih =>
      intro s hl hs
      obtain ⟨heq, hnext⟩ := @checkFile_eq calculateSHA1Hash _ _ _ h config available _
        (hashToName_within hin) s hs (hl file List.mem_cons_self)
      rw [List.foldl_cons, List.foldl_cons, ← heq]
      exact ih _ (fun other hother => hl other (List.mem_cons_of_mem _ hother)) hnext
  obtain ⟨heq, hend⟩ := hloop available.files { updates, applied := updates } hfiles ⟨hin, hin⟩
  unfold update
  rw [← heq]
  generalize available.files.foldl
    (checkFile calculateSHA1Hash column config available (hashToName updates)) _ = s at hend
  unfold cleanUpOrphans
  split
  · exact ⟨rfl, hend.updates⟩
  split
  · have hclean := cleanUp_eq h hend.updates hend.applied
    refine ⟨by rw [hclean, cleanUp_exact], ?_⟩
    dsimp only
    rw [hclean]
    generalize s.applied.keys = l
    have hupdates := hend.updates
    generalize s.updates = t at hupdates
    induction l generalizing t with
    | nil => exact hupdates
    | cons name l ih => exact ih (t.erase name) (hupdates.erase name)
  · exact ⟨rfl, hend.updates⟩

end Ashamane.Updater
