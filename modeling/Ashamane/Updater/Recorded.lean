import Ashamane.Updater.Names

/-! One update records every available file, unless two new files have the hash of the same
missing one. -/
namespace Ashamane.Updater
open Ashamane.Lib

variable (calculateSHA1Hash : String → String) (column : NameColumn) (config : Settings)
  (available : LocaleFileStorage) (table : AppliedFileStorage)

/-- The missing file that a new file is taken for, which then has another name. -/
def renames (file : LocaleFile) : Option String :=
  if table.lookup file.name = none then
    (hashToName table (calculateSHA1Hash file.content)).filter fun name => !available.has name
  else none

def applies (file : LocaleFile) : Bool :=
  match table.lookup file.name with
  | some entry =>
    !(config.allowRehash && entry.hash = "") && entry.hash ≠ calculateSHA1Hash file.content
  | none =>
    match hashToName table (calculateSHA1Hash file.content) with
    | none => true
    | some name => available.has name

theorem has_iff {available : LocaleFileStorage} {name : String} :
    available.has name = true ↔ ∃ file ∈ available.files, file.name = name := by
  simp only [LocaleFileStorage.has, List.any_eq_true, decide_eq_true_eq]

theorem lookup_erase_eq_none {m : AppliedFileStorage} {n k : String} (h : m.lookup n = none) :
    (m.erase k).lookup n = none := by
  by_cases hnk : n = k
  · rw [hnk]
    exact AList.lookup_erase k m
  · rw [AList.lookup_erase_ne hnk]
    exact h

theorem hashToName_lookup {table : AppliedFileStorage} {hash name : String}
    (h : hashToName table hash = some name) :
    ∃ entry, table.lookup name = some entry ∧ entry.hash = hash := by
  obtain ⟨⟨n, entry⟩, hfind, rfl⟩ := Option.map_eq_some_iff.mp h
  have hhash := List.find?_some hfind
  exact ⟨entry, Assoc.mem_entries_iff.mp (List.mem_of_find?_eq_some hfind),
    of_decide_eq_true hhash⟩

theorem hashToName_eq_none {table : AppliedFileStorage} {hash : String} :
    hashToName table hash = none ↔ ∀ name entry, table.lookup name = some entry →
      entry.hash ≠ hash := by
  rw [hashToName, Option.map_eq_none_iff, List.find?_eq_none]
  constructor
  · intro h name entry hentry hhash
    exact h _ (Assoc.mem_entries_iff.mpr hentry) (decide_eq_true hhash)
  · rintro h ⟨name, entry⟩ hentry hhash
    exact h name entry (Assoc.mem_entries_iff.mp hentry) (of_decide_eq_true hhash)

/-- A renamed file is missing and has a row of the hash in question. -/
theorem renames_spec {file : LocaleFile} {old : String}
    (h : renames calculateSHA1Hash available table file = some old) :
    table.lookup file.name = none ∧ available.has old = false ∧
      ∃ entry, table.lookup old = some entry ∧ entry.hash = calculateSHA1Hash file.content := by
  unfold renames at h
  split at h
  · rename_i hnew
    obtain ⟨hname, hmissing⟩ := Option.filter_eq_some_iff.mp h
    refine ⟨hnew, ?_, hashToName_lookup hname⟩
    exact Bool.not_eq_true' _ ▸ hmissing
  · cases h

theorem lookup_renameEntry_target (updates : AppliedFileStorage) {source target : String}
    (hne : source ≠ target) :
    (renameEntry .exact updates source target).lookup target = updates.lookup source := by
  have hsource : (updates.erase target).lookup source = updates.lookup source :=
    AList.lookup_erase_ne hne
  rw [renameEntry_exact, hsource]
  cases updates.lookup source with
  | none => exact AList.lookup_erase target updates
  | some entry => exact AList.lookup_insert _

theorem lookup_renameEntry_source (updates : AppliedFileStorage) {source target : String}
    (hne : source ≠ target) : (renameEntry .exact updates source target).lookup source = none := by
  have hsource : (updates.erase target).lookup source = updates.lookup source :=
    AList.lookup_erase_ne hne
  rw [renameEntry_exact, hsource]
  cases hrow : updates.lookup source with
  | none => exact hsource.trans hrow
  | some entry =>
    rw [Option.elim_some]
    rw [AList.lookup_insert_ne hne, AList.lookup_erase]

theorem lookup_renameEntry_ne (updates : AppliedFileStorage) {source target n : String}
    (hsource : n ≠ source) (htarget : n ≠ target) :
    (renameEntry .exact updates source target).lookup n = updates.lookup n := by
  rw [renameEntry_exact]
  cases (updates.erase target).lookup source with
  | none => exact AList.lookup_erase_ne htarget
  | some entry =>
    rw [Option.elim_some, AList.lookup_insert_ne htarget, AList.lookup_erase_ne hsource,
      AList.lookup_erase_ne htarget]

structure Recorded (file : LocaleFile) (s t : Progress) : Prop where
  row : ∃ entry, t.updates.lookup file.name = some entry ∧
    entry.hash = calculateSHA1Hash file.content
  updates_ne : ∀ n, n ≠ file.name → t.updates.lookup n = s.updates.lookup n
  applied_self : t.applied.lookup file.name = none
  applied_ne : ∀ n, n ≠ file.name → t.applied.lookup n = s.applied.lookup n

theorem importFile_recorded (s : Progress) (file : LocaleFile) (mode : UpdateMode) :
    Recorded calculateSHA1Hash file s (importFile calculateSHA1Hash .exact s file mode) where
  row := ⟨_, by rw [importFile, updateEntry_exact]; exact AList.lookup_insert _, rfl⟩
  updates_ne _ hn := by
    rw [importFile, updateEntry_exact, AList.lookup_insert_ne hn, AList.lookup_erase_ne hn]
  applied_self := AList.lookup_erase _ _
  applied_ne _ hn := AList.lookup_erase_ne hn

/-- What the loop does with a file of which the row is as it was at the beginning. -/
theorem checkFile_spec {config : Settings} (hr : config.redundancyChecks = true)
    (ha : config.archivedRedundancy = true) {s : Progress} {file : LocaleFile}
    (happlied : s.applied.lookup file.name = table.lookup file.name)
    (hupdates : s.updates.lookup file.name = table.lookup file.name) :
    (checkFile calculateSHA1Hash .exact config available (hashToName table) s file).appliedFiles =
        s.appliedFiles ++
          (if applies calculateSHA1Hash config available table file then [file.name] else []) ∧
      (renames calculateSHA1Hash available table file = none →
        Recorded calculateSHA1Hash file s
          (checkFile calculateSHA1Hash .exact config available (hashToName table) s file)) ∧
      ∀ old, renames calculateSHA1Hash available table file = some old →
        (checkFile calculateSHA1Hash .exact config available (hashToName table) s file).updates =
            renameEntry .exact s.updates old file.name ∧
          (checkFile calculateSHA1Hash .exact config available (hashToName table) s file).applied =
            s.applied.erase old := by
  cases hrow : table.lookup file.name with
  | some entry =>
    have hrenames : renames calculateSHA1Hash available table file = none := by
      rw [renames, hrow, if_neg (fun h => by cases h)]
    rw [hrow] at happlied hupdates
    rw [hrenames]
    simp only [checkFile, happlied, hr, ha, applies, hrow, Bool.not_true, Bool.false_eq_true,
      if_false, Bool.false_and, Bool.and_eq_true, decide_eq_true_eq, reduceCtorEq,
      false_implies, implies_true, and_true, true_implies]
    by_cases hrehash : config.allowRehash = true ∧ entry.hash = ""
    · rw [if_pos hrehash]
      refine ⟨?_, importFile_recorded calculateSHA1Hash s file _⟩
      simp [importFile, hrehash.1, hrehash.2]
    · rw [if_neg hrehash]
      by_cases hhash : entry.hash ≠ calculateSHA1Hash file.content
      · rw [if_pos hhash]
        refine ⟨?_, importFile_recorded calculateSHA1Hash s file _⟩
        have hno : (!(config.allowRehash && decide (entry.hash = ""))) = true := by
          rw [Bool.not_eq_true', Bool.and_eq_false_iff, decide_eq_false_iff_not]
          rcases Classical.not_and_iff_not_or_not.mp hrehash with h | h
          · exact .inl (Bool.eq_false_iff.mpr h)
          · exact .inr h
        simp only [importFile, hno, hhash, if_true, ne_eq, not_false_eq_true, and_self]
      · rw [if_neg hhash]
        have hsame := not_not.mp hhash
        refine ⟨?_, ?_⟩
        · simp only [hsame, ne_eq, not_true, and_false, if_false, List.append_nil]
        · refine
            { row := ?_, updates_ne := fun n hn => ?_, applied_self := AList.lookup_erase _ _
              applied_ne := fun n hn => AList.lookup_erase_ne hn }
          · dsimp only
            split
            · rw [updateState_exact, hupdates]
              exact ⟨_, AList.lookup_insert _, hsame⟩
            · exact ⟨entry, hupdates, hsame⟩
          · dsimp only
            split
            · rw [updateState_exact, hupdates]
              exact AList.lookup_insert_ne hn
            · rfl
  | none =>
    rw [hrow] at happlied
    cases hname : hashToName table (calculateSHA1Hash file.content) with
    | none =>
      have hrenames : renames calculateSHA1Hash available table file = none := by
        rw [renames, hrow, if_pos rfl, hname]
        rfl
      have happlies : applies calculateSHA1Hash config available table file = true := by
        simp only [applies, hrow, hname]
      have hcheck : checkFile calculateSHA1Hash .exact config available (hashToName table) s file =
          importFile calculateSHA1Hash .exact s file .MODE_APPLY := by
        simp only [checkFile, happlied, hname]
      rw [hcheck, hrenames, happlies]
      exact ⟨rfl, fun _ => importFile_recorded calculateSHA1Hash s file _, fun _ h => by cases h⟩
    | some old =>
      cases hhas : available.has old with
      | true =>
        have hrenames : renames calculateSHA1Hash available table file = none := by
          rw [renames, hrow, if_pos rfl, hname, Option.filter_some, hhas]
          rfl
        have happlies : applies calculateSHA1Hash config available table file = true := by
          simp only [applies, hrow, hname, hhas]
        have hcheck : checkFile calculateSHA1Hash .exact config available (hashToName table) s file =
            importFile calculateSHA1Hash .exact s file .MODE_APPLY := by
          simp only [checkFile, happlied, hname, hhas, if_true]
        rw [hcheck, hrenames, happlies]
        exact ⟨rfl, fun _ => importFile_recorded calculateSHA1Hash s file _, fun _ h => by cases h⟩
      | false =>
        have hrenames : renames calculateSHA1Hash available table file = some old := by
          rw [renames, hrow, if_pos rfl, hname, Option.filter_some, hhas]
          rfl
        have happlies : applies calculateSHA1Hash config available table file = false := by
          simp only [applies, hrow, hname, hhas]
        have hcheck : checkFile calculateSHA1Hash .exact config available (hashToName table) s file =
            { s with
              updates := renameEntry .exact s.updates old file.name
              applied := s.applied.erase old } := by
          simp only [checkFile, happlied, hname, hhas, Bool.false_eq_true, if_false]
        rw [hcheck, hrenames, happlies]
        refine ⟨(List.append_nil _).symm, fun h => (by cases h), fun old' h => ?_⟩
        obtain rfl := Option.some.inj h
        exact ⟨rfl, rfl⟩

/-- A file with the name `n` has been renamed by one of `done`. -/
def RenamedBy (done : List LocaleFile) (n : String) : Prop :=
  ∃ file ∈ done, renames calculateSHA1Hash available table file = some n

/-- The state of the loop with `done` behind it and `rest` ahead. -/
structure Through (done rest : List LocaleFile) (s : Progress) : Prop where
  updates_rest : ∀ file ∈ rest, s.updates.lookup file.name = table.lookup file.name
  applied_rest : ∀ file ∈ rest, s.applied.lookup file.name = table.lookup file.name
  applied_done : ∀ file ∈ done, s.applied.lookup file.name = none
  updates_renamed : ∀ n, available.has n = false →
    RenamedBy calculateSHA1Hash available table done n → s.updates.lookup n = none
  applied_renamed : ∀ n, available.has n = false →
    RenamedBy calculateSHA1Hash available table done n → s.applied.lookup n = none
  updates_missing : ∀ n, available.has n = false →
    ¬RenamedBy calculateSHA1Hash available table done n → s.updates.lookup n = table.lookup n
  applied_missing : ∀ n, available.has n = false →
    ¬RenamedBy calculateSHA1Hash available table done n → s.applied.lookup n = table.lookup n
  log : s.appliedFiles =
    (done.filter (applies calculateSHA1Hash config available table)).map (·.name)

variable {calculateSHA1Hash} {column} {config} {available} {table}

theorem renamedBy_append {done : List LocaleFile} {file : LocaleFile} {n : String} :
    RenamedBy calculateSHA1Hash available table (done ++ [file]) n ↔
      RenamedBy calculateSHA1Hash available table done n ∨
        renames calculateSHA1Hash available table file = some n := by
  simp only [RenamedBy, List.mem_append, List.mem_singleton, or_and_right, exists_or,
    exists_eq_left]

theorem checkFile_ne (hr : config.redundancyChecks = true)
    (ha : config.archivedRedundancy = true) {s : Progress} {file : LocaleFile}
    (happlied : s.applied.lookup file.name = table.lookup file.name)
    (hupdates : s.updates.lookup file.name = table.lookup file.name) {n : String}
    (hn : n ≠ file.name) (hold : renames calculateSHA1Hash available table file ≠ some n) :
    (checkFile calculateSHA1Hash .exact config available (hashToName table) s file).updates.lookup n =
        s.updates.lookup n ∧
      (checkFile calculateSHA1Hash .exact config available (hashToName table) s file).applied.lookup n =
        s.applied.lookup n := by
  obtain ⟨-, hrecorded, hrenamed⟩ :=
    checkFile_spec calculateSHA1Hash available table hr ha happlied hupdates
  cases hrenames : renames calculateSHA1Hash available table file with
  | none =>
    have h := hrecorded hrenames
    exact ⟨h.updates_ne n hn, h.applied_ne n hn⟩
  | some old =>
    have hne : n ≠ old := by
      rintro rfl
      exact hold hrenames
    obtain ⟨hu, hp⟩ := hrenamed old hrenames
    rw [hu, hp]
    exact ⟨lookup_renameEntry_ne _ hne hn, AList.lookup_erase_ne hne⟩

theorem Through.step (hr : config.redundancyChecks = true)
    (ha : config.archivedRedundancy = true) {done rest : List LocaleFile} {file : LocaleFile}
    {s : Progress} (hfiles : available.files = done ++ file :: rest)
    (h : Through calculateSHA1Hash config available table done (file :: rest) s) :
    Through calculateSHA1Hash config available table (done ++ [file]) rest
      (checkFile calculateSHA1Hash .exact config available (hashToName table) s file) := by
  have happlied := h.applied_rest file (List.mem_cons_self ..)
  have hupdates := h.updates_rest file (List.mem_cons_self ..)
  obtain ⟨hlog, hrecorded, hrenamed⟩ :=
    checkFile_spec calculateSHA1Hash available table hr ha happlied hupdates
  have hnodup := available.nodup
  rw [hfiles, List.map_append, List.map_cons] at hnodup
  obtain ⟨-, hcons, hapart⟩ := List.nodup_append.mp hnodup
  have hhas : ∀ other ∈ available.files, available.has other.name = true :=
    fun other hother => has_iff.mpr ⟨other, hother, rfl⟩
  have hfile : available.has file.name = true := hhas file (by
    rw [hfiles]
    exact List.mem_append_right _ (List.mem_cons_self ..))
  have hother : ∀ other : LocaleFile, available.has other.name = true →
      other.name ≠ file.name →
      (checkFile calculateSHA1Hash .exact config available (hashToName table) s file).updates.lookup
          other.name = s.updates.lookup other.name ∧
        (checkFile calculateSHA1Hash .exact config available (hashToName table) s file).applied.lookup
          other.name = s.applied.lookup other.name := by
    refine fun other hname hne => checkFile_ne hr ha happlied hupdates hne fun hold => ?_
    have hmissing := (renames_spec calculateSHA1Hash available table hold).2.1
    rw [hname] at hmissing
    cases hmissing
  have hrest : ∀ other ∈ rest, available.has other.name = true ∧ other.name ≠ file.name := by
    intro other hin
    refine ⟨hhas other ?_, fun heq => (List.nodup_cons.mp hcons).1 ?_⟩
    · rw [hfiles]
      exact List.mem_append_right _ (List.mem_cons_of_mem _ hin)
    · rw [← heq]
      exact List.mem_map_of_mem hin
  have hmissing : ∀ n, available.has n = false → n ≠ file.name := by
    rintro n hn rfl
    rw [hfile] at hn
    cases hn
  refine
    { updates_rest := fun other hin => ?_, applied_rest := fun other hin => ?_
      applied_done := fun other hin => ?_, updates_renamed := fun n hn hby => ?_
      applied_renamed := fun n hn hby => ?_, updates_missing := fun n hn hby => ?_
      applied_missing := fun n hn hby => ?_, log := ?_ }
  · obtain ⟨hname, hne⟩ := hrest other hin
    exact (hother other hname hne).1.trans (h.updates_rest other (List.mem_cons_of_mem _ hin))
  · obtain ⟨hname, hne⟩ := hrest other hin
    exact (hother other hname hne).2.trans (h.applied_rest other (List.mem_cons_of_mem _ hin))
  · rcases List.mem_append.mp hin with hin | hin
    · have hne : other.name ≠ file.name :=
        hapart _ (List.mem_map_of_mem hin) _ (List.mem_cons_self ..)
      have hname : available.has other.name = true := hhas other (by
        rw [hfiles]
        exact List.mem_append_left _ hin)
      exact (hother other hname hne).2.trans (h.applied_done other hin)
    · obtain rfl := List.mem_singleton.mp hin
      cases hrenames : renames calculateSHA1Hash available table other with
      | none => exact (hrecorded hrenames).applied_self
      | some old =>
        rw [(hrenamed old hrenames).2]
        refine lookup_erase_eq_none (happlied.trans ?_)
        exact (renames_spec calculateSHA1Hash available table hrenames).1
  · by_cases hold : renames calculateSHA1Hash available table file = some n
    · rw [(hrenamed n hold).1]
      exact lookup_renameEntry_source _ (hmissing n hn)
    · rw [(checkFile_ne hr ha happlied hupdates (hmissing n hn) hold).1]
      exact h.updates_renamed n hn ((renamedBy_append.mp hby).resolve_right hold)
  · by_cases hold : renames calculateSHA1Hash available table file = some n
    · rw [(hrenamed n hold).2]
      exact AList.lookup_erase _ _
    · rw [(checkFile_ne hr ha happlied hupdates (hmissing n hn) hold).2]
      exact h.applied_renamed n hn ((renamedBy_append.mp hby).resolve_right hold)
  · rw [renamedBy_append, not_or] at hby
    rw [(checkFile_ne hr ha happlied hupdates (hmissing n hn) hby.2).1]
    exact h.updates_missing n hn hby.1
  · rw [renamedBy_append, not_or] at hby
    rw [(checkFile_ne hr ha happlied hupdates (hmissing n hn) hby.2).2]
    exact h.applied_missing n hn hby.1
  · rw [hlog, h.log, List.filter_append, List.map_append, List.filter_singleton]
    cases applies calculateSHA1Hash config available table file <;> rfl

theorem Through.foldl (hr : config.redundancyChecks = true)
    (ha : config.archivedRedundancy = true) {done rest : List LocaleFile} {s : Progress}
    (hfiles : available.files = done ++ rest)
    (h : Through calculateSHA1Hash config available table done rest s) :
    Through calculateSHA1Hash config available table available.files []
      (rest.foldl (checkFile calculateSHA1Hash .exact config available (hashToName table)) s) := by
  induction rest generalizing done s with
  | nil =>
    rw [hfiles, List.append_nil]
    exact h
  | cons file rest ih =>
    refine ih ?_ (h.step hr ha hfiles)
    rw [hfiles, List.append_assoc]
    rfl

/-- The row that a file gets is not touched by the files behind it. -/
theorem Through.row_kept (hr : config.redundancyChecks = true)
    (ha : config.archivedRedundancy = true) {done rest : List LocaleFile} {s : Progress}
    (hfiles : available.files = done ++ rest)
    (h : Through calculateSHA1Hash config available table done rest s) {file : LocaleFile}
    (hfile : file ∈ done) :
    (rest.foldl (checkFile calculateSHA1Hash .exact config available (hashToName table)) s).updates.lookup
      file.name = s.updates.lookup file.name := by
  induction rest generalizing done s with
  | nil => rfl
  | cons next rest ih =>
    have hfiles' : available.files = (done ++ [next]) ++ rest := by
      rw [hfiles, List.append_assoc]
      rfl
    refine (ih hfiles' (h.step hr ha hfiles) (List.mem_append_left _ hfile)).trans ?_
    have hnodup := available.nodup
    rw [hfiles, List.map_append, List.map_cons] at hnodup
    have hne : file.name ≠ next.name :=
      (List.nodup_append.mp hnodup).2.2 _ (List.mem_map_of_mem hfile) _ (List.mem_cons_self ..)
    refine (checkFile_ne hr ha (h.applied_rest next (List.mem_cons_self ..))
      (h.updates_rest next (List.mem_cons_self ..)) hne fun hold => ?_).1
    have hmissing := (renames_spec calculateSHA1Hash available table hold).2.1
    have hhas : available.has file.name = true := has_iff.mpr ⟨file, by
      rw [hfiles]
      exact List.mem_append_left _ hfile, rfl⟩
    rw [hhas] at hmissing
    cases hmissing

/-- The row of a file right after its turn: with the hash of its content, unless the row that
it is renamed from is gone already. -/
theorem Through.row (hr : config.redundancyChecks = true)
    (ha : config.archivedRedundancy = true) {done rest : List LocaleFile} {file : LocaleFile}
    {s : Progress} (h : Through calculateSHA1Hash config available table done (file :: rest) s)
    (hfile : available.has file.name = true) :
    ((∀ old, renames calculateSHA1Hash available table file = some old →
        ¬RenamedBy calculateSHA1Hash available table done old) →
      ∃ entry, (checkFile calculateSHA1Hash .exact config available (hashToName table) s file).updates.lookup
        file.name = some entry ∧ entry.hash = calculateSHA1Hash file.content) ∧
    ∀ old, renames calculateSHA1Hash available table file = some old →
      RenamedBy calculateSHA1Hash available table done old →
      (checkFile calculateSHA1Hash .exact config available (hashToName table) s file).updates.lookup
        file.name = none := by
  obtain ⟨-, hrecorded, hrenamed⟩ := checkFile_spec calculateSHA1Hash available table hr ha
    (h.applied_rest file (List.mem_cons_self ..)) (h.updates_rest file (List.mem_cons_self ..))
  have hrename : ∀ old, renames calculateSHA1Hash available table file = some old →
      available.has old = false ∧
      (checkFile calculateSHA1Hash .exact config available (hashToName table) s file).updates.lookup
        file.name = s.updates.lookup old := by
    intro old hold
    have hmissing := (renames_spec calculateSHA1Hash available table hold).2.1
    refine ⟨hmissing, ?_⟩
    rw [(hrenamed old hold).1]
    refine lookup_renameEntry_target _ ?_
    rintro rfl
    rw [hfile] at hmissing
    cases hmissing
  constructor
  · intro hfresh
    cases hold : renames calculateSHA1Hash available table file with
    | none => exact (hrecorded hold).row
    | some old =>
      obtain ⟨hmissing, hrow⟩ := hrename old hold
      obtain ⟨-, -, entry, hentry, hhash⟩ :=
        renames_spec calculateSHA1Hash available table hold
      exact ⟨entry, hrow.trans ((h.updates_missing old hmissing (hfresh old hold)).trans hentry),
        hhash⟩
  · intro old hold hby
    obtain ⟨hmissing, hrow⟩ := hrename old hold
    exact hrow.trans (h.updates_renamed old hmissing hby)

theorem through_start :
    Through calculateSHA1Hash config available table [] available.files
      { updates := table, applied := table } where
  updates_rest _ _ := rfl
  applied_rest _ _ := rfl
  applied_done _ hin := absurd hin List.not_mem_nil
  updates_renamed _ _ h := absurd h (fun ⟨_, hin, _⟩ => List.not_mem_nil hin)
  applied_renamed _ _ h := absurd h (fun ⟨_, hin, _⟩ => List.not_mem_nil hin)
  updates_missing _ _ _ := rfl
  applied_missing _ _ _ := rfl
  log := rfl

theorem notMem_keys_iff {m : AppliedFileStorage} {n : String} :
    n ∉ m.keys ↔ m.lookup n = none := by
  rw [← AList.mem_keys, AList.lookup_eq_none]

theorem lookup_cleanUp_of_mem (updates : AppliedFileStorage) {storage : AppliedFileStorage}
    {n : String} (hn : n ∈ storage.keys) : (cleanUp .exact updates storage).lookup n = none := by
  have hgone : ∀ (l : List String) (m : AppliedFileStorage), m.lookup n = none →
      (l.foldl (fun m name => m.erase name) m).lookup n = none := by
    intro l
    induction l with
    | nil => exact fun m h => h
    | cons k l ih => exact fun m h => ih (m.erase k) (lookup_erase_eq_none h)
  have hall : ∀ (l : List String) (m : AppliedFileStorage), n ∈ l →
      (l.foldl (fun m name => m.erase name) m).lookup n = none := by
    intro l
    induction l with
    | nil => exact fun m h => absurd h List.not_mem_nil
    | cons k l ih =>
      intro m hin
      rcases List.mem_cons.mp hin with rfl | hin
      · exact hgone l (m.erase n) (AList.lookup_erase n m)
      · exact ih (m.erase k) hin
  rw [cleanUp_exact]
  exact hall _ _ hn

theorem lookup_cleanUp_of_notMem (updates : AppliedFileStorage) {storage : AppliedFileStorage}
    {n : String} (hn : n ∉ storage.keys) :
    (cleanUp .exact updates storage).lookup n = updates.lookup n := by
  rw [cleanUp_exact]
  generalize storage.keys = l at hn
  induction l generalizing updates with
  | nil => rfl
  | cons k l ih =>
    rw [List.mem_cons, not_or] at hn
    exact (ih (updates.erase k) hn.2).trans (AList.lookup_erase_ne hn.1)

def KeepsOrphans (config : Settings) (applied : AppliedFileStorage) : Prop :=
  applied.keys = [] ∨ ¬(config.cleanDeadReferencesMaxCount < 0 ∨
    (applied.keys.length : Int) ≤ config.cleanDeadReferencesMaxCount)

theorem cleanUpOrphans_keep {s : Progress} (h : KeepsOrphans config s.applied) :
    cleanUpOrphans .exact config s = s := by
  unfold cleanUpOrphans
  rcases h with h | h
  · rw [if_pos h]
  · split
    · rfl
    · rw [if_neg]
      rwa [Bool.or_eq_true, decide_eq_true_eq, decide_eq_true_eq]

theorem cleanUpOrphans_clean {s : Progress} (h : ¬KeepsOrphans config s.applied) :
    cleanUpOrphans .exact config s = { s with updates := cleanUp .exact s.updates s.applied } := by
  rw [KeepsOrphans, not_or, not_not] at h
  unfold cleanUpOrphans
  rw [if_neg h.1, if_pos]
  rw [Bool.or_eq_true, decide_eq_true_eq, decide_eq_true_eq]
  exact h.2

theorem appliedFiles_cleanUpOrphans (config : Settings) (s : Progress) :
    (cleanUpOrphans .exact config s).appliedFiles = s.appliedFiles := by
  unfold cleanUpOrphans
  split
  · rfl
  · split <;> rfl

theorem lookup_cleanUpOrphans {s : Progress} {n : String} (hn : s.applied.lookup n = none) :
    (cleanUpOrphans .exact config s).updates.lookup n = s.updates.lookup n := by
  by_cases h : KeepsOrphans config s.applied
  · rw [cleanUpOrphans_keep h]
  · rw [cleanUpOrphans_clean h]
    exact lookup_cleanUp_of_notMem _ (notMem_keys_iff.mpr hn)

variable (calculateSHA1Hash) (column) (config) (available) (table)

def NoTwins : Prop :=
  ∀ file ∈ available.files, ∀ other ∈ available.files,
    table.lookup file.name = none → table.lookup other.name = none →
    calculateSHA1Hash file.content = calculateSHA1Hash other.content →
    ∀ old, hashToName table (calculateSHA1Hash file.content) = some old →
      available.has old = false → file = other

structure RecordsAll : Prop where
  recorded : ∀ file ∈ available.files, ∃ entry,
    (update calculateSHA1Hash column config available table).updates.lookup file.name = some entry ∧
      entry.hash = calculateSHA1Hash file.content
  applied_once : ∀ file ∈ available.files, table.lookup file.name = none →
    (∀ name entry, table.lookup name = some entry → entry.hash ≠ calculateSHA1Hash file.content) →
    (update calculateSHA1Hash column config available table).appliedFiles.count file.name = 1
  not_reapplied : ∀ file ∈ available.files, ∀ entry, table.lookup file.name = some entry →
    entry.hash = calculateSHA1Hash file.content →
    file.name ∉ (update calculateSHA1Hash column config available table).appliedFiles
  second : ∀ table' : AppliedFileStorage,
    (∀ n, table'.lookup n =
      (update calculateSHA1Hash column config available table).updates.lookup n) →
    (update calculateSHA1Hash column config available table').appliedFiles = [] ∧
      ∀ n, ((update calculateSHA1Hash column config available table').updates.lookup n).map (·.hash) =
        (table'.lookup n).map (·.hash)

variable {calculateSHA1Hash} {column} {config} {available} {table}

theorem renames_some {file : LocaleFile} {old : String} (hnew : table.lookup file.name = none)
    (hname : hashToName table (calculateSHA1Hash file.content) = some old)
    (hmissing : available.has old = false) :
    renames calculateSHA1Hash available table file = some old := by
  rw [renames, if_pos hnew, hname, Option.filter_some, hmissing]
  rfl

theorem hashToName_of_renames {file : LocaleFile} {old : String}
    (h : renames calculateSHA1Hash available table file = some old) :
    hashToName table (calculateSHA1Hash file.content) = some old := by
  unfold renames at h
  split at h
  · exact (Option.filter_eq_some_iff.mp h).1
  · cases h

theorem NoTwins.renames_inj (h : NoTwins calculateSHA1Hash available table)
    {file other : LocaleFile} (hfile : file ∈ available.files) (hother : other ∈ available.files)
    {old : String} (hold : renames calculateSHA1Hash available table file = some old)
    (hold' : renames calculateSHA1Hash available table other = some old) : file = other := by
  obtain ⟨hnew, hmissing, entry, hentry, hhash⟩ :=
    renames_spec calculateSHA1Hash available table hold
  obtain ⟨hnew', -, entry', hentry', hhash'⟩ :=
    renames_spec calculateSHA1Hash available table hold'
  obtain rfl := Option.some.inj (hentry.symm.trans hentry')
  exact h file hfile other hother hnew hnew' (hhash.symm.trans hhash') old
    (hashToName_of_renames hold) hmissing

section loop

variable (hr : config.redundancyChecks = true) (ha : config.archivedRedundancy = true)

def afterLoop (calculateSHA1Hash : String → String) (config : Settings)
    (available : LocaleFileStorage) (table : AppliedFileStorage) : Progress :=
  available.files.foldl (checkFile calculateSHA1Hash .exact config available (hashToName table))
    { updates := table, applied := table }

theorem update_eq : update calculateSHA1Hash .exact config available table =
    cleanUpOrphans .exact config (afterLoop calculateSHA1Hash config available table) := rfl

include hr ha

theorem through_afterLoop : Through calculateSHA1Hash config available table available.files []
    (afterLoop calculateSHA1Hash config available table) :=
  through_start.foldl hr ha rfl

theorem appliedFiles_update : (update calculateSHA1Hash .exact config available table).appliedFiles =
    (available.files.filter (applies calculateSHA1Hash config available table)).map (·.name) := by
  rw [update_eq, appliedFiles_cleanUpOrphans]
  exact (through_afterLoop hr ha).log

/-- The row of an available file at the end is the one that its turn leaves. -/
theorem row_update {done rest : List LocaleFile} {file : LocaleFile}
    (hfiles : available.files = done ++ file :: rest) :
    ∃ s, Through calculateSHA1Hash config available table done (file :: rest) s ∧
      (update calculateSHA1Hash .exact config available table).updates.lookup file.name =
        (checkFile calculateSHA1Hash .exact config available (hashToName table) s file).updates.lookup
          file.name := by
  have hfile : file ∈ available.files := by
    rw [hfiles]
    exact List.mem_append_right _ (List.mem_cons_self ..)
  have hthrough : ∀ (done rest : List LocaleFile) (s : Progress),
      available.files = done ++ rest →
      Through calculateSHA1Hash config available table done rest s →
      ∀ l r, rest = l ++ r → Through calculateSHA1Hash config available table (done ++ l) r
        (l.foldl (checkFile calculateSHA1Hash .exact config available (hashToName table)) s) := by
    intro done rest s hfiles h l
    induction l generalizing done rest s with
    | nil =>
      rintro r rfl
      rw [List.append_nil]
      exact h
    | cons x l ih =>
      rintro r rfl
      have hstep := h.step hr ha hfiles
      have hrest := ih (done ++ [x]) (l ++ r) _ (by rw [hfiles, List.append_assoc]; rfl) hstep r rfl
      rw [List.append_assoc] at hrest
      exact hrest
  have hbefore := hthrough [] available.files _ rfl through_start done (file :: rest) hfiles
  rw [List.nil_append] at hbefore
  refine ⟨_, hbefore, ?_⟩
  rw [update_eq, lookup_cleanUpOrphans ((through_afterLoop hr ha).applied_done file hfile)]
  have hafter := hbefore.step hr ha hfiles
  have hkept := hafter.row_kept hr ha (by rw [hfiles, List.append_assoc]; rfl)
    (List.mem_append_right done (List.mem_singleton.mpr rfl))
  rw [← hkept, afterLoop, hfiles, List.foldl_append, List.foldl_cons]

/-- Every file is recorded if no two are taken for the same missing one. -/
theorem recorded_of_noTwins (h : NoTwins calculateSHA1Hash available table) {file : LocaleFile}
    (hfile : file ∈ available.files) :
    ∃ entry, (update calculateSHA1Hash .exact config available table).updates.lookup file.name =
      some entry ∧ entry.hash = calculateSHA1Hash file.content := by
  obtain ⟨done, rest, hfiles⟩ := List.append_of_mem hfile
  obtain ⟨s, hthrough, hrow⟩ := @row_update calculateSHA1Hash config available table hr ha _ _ _ hfiles
  rw [hrow]
  refine (hthrough.row hr ha (has_iff.mpr ⟨file, hfile, rfl⟩)).1 fun old hold hby => ?_
  obtain ⟨other, hother, hold'⟩ := hby
  have hin : other ∈ available.files := by
    rw [hfiles]
    exact List.mem_append_left _ hother
  obtain rfl := h.renames_inj hin hfile hold' hold
  have hnodup := available.nodup
  rw [hfiles, List.map_append, List.map_cons] at hnodup
  exact (List.nodup_append.mp hnodup).2.2 _ (List.mem_map_of_mem hother) _
    (List.mem_cons_self ..) rfl

/-- Of two files that are taken for the same missing one the later has no row. -/
theorem unrecorded_of_twins (h : ¬NoTwins calculateSHA1Hash available table) :
    ∃ file ∈ available.files,
      (update calculateSHA1Hash .exact config available table).updates.lookup file.name = none := by
  simp only [NoTwins, not_forall] at h
  obtain ⟨file, hfile, other, hother, hnew, hnew', hhash, old, hname, hmissing, hne⟩ := h
  have hold := renames_some hnew hname hmissing
  have hold' := renames_some hnew' (hhash ▸ hname) hmissing
  -- whichever of the two comes later
  have hlate : ∀ x y : LocaleFile, x ∈ available.files → y ∈ available.files → x ≠ y →
      (∃ a b c, available.files = a ++ x :: b ++ y :: c) ∨
        ∃ a b c, available.files = a ++ y :: b ++ x :: c := by
    intro x y hx hy hxy
    obtain ⟨a, b, hab⟩ := List.append_of_mem hx
    rw [hab] at hy
    rcases List.mem_append.mp hy with hya | hyb
    · obtain ⟨a', b', rfl⟩ := List.append_of_mem hya
      exact .inr ⟨a', b', b, hab⟩
    · obtain ⟨a', b', rfl⟩ := List.append_of_mem ((List.mem_cons.mp hyb).resolve_left hxy.symm)
      exact .inl ⟨a, a', b', by rw [hab, List.append_assoc]; rfl⟩
  have hgone : ∀ x y : LocaleFile, renames calculateSHA1Hash available table x = some old →
      renames calculateSHA1Hash available table y = some old →
      (∃ a b c, available.files = a ++ x :: b ++ y :: c) →
      ∃ file ∈ available.files,
        (update calculateSHA1Hash .exact config available table).updates.lookup file.name = none := by
    rintro x y hx hy ⟨a, b, c, habc⟩
    have hyin : y ∈ available.files := by
      rw [habc]
      exact List.mem_append_right _ (List.mem_cons_self ..)
    obtain ⟨s, hthrough, hrow⟩ := @row_update calculateSHA1Hash config available table hr ha _ _ _ habc
    refine ⟨y, hyin, hrow.trans ?_⟩
    exact (hthrough.row hr ha (has_iff.mpr ⟨y, hyin, rfl⟩)).2 old hy
      ⟨x, List.mem_append_right _ (List.mem_cons_self ..), hx⟩
  rcases hlate file other hfile hother hne with h | h
  · exact hgone file other hold hold' h
  · exact hgone other file hold' hold h

omit hr ha in
theorem eq_of_name {file other : LocaleFile} (hfile : file ∈ available.files)
    (hother : other ∈ available.files) (hname : file.name = other.name) : file = other :=
  List.inj_on_of_nodup_map available.nodup hfile hother hname

theorem missing_update :
    (∀ n, available.has n = false →
      (update calculateSHA1Hash .exact config available table).updates.lookup n = none) ∨
    KeepsOrphans config (afterLoop calculateSHA1Hash config available table).applied ∧
      ∀ n, available.has n = false →
        (update calculateSHA1Hash .exact config available table).updates.lookup n =
          (afterLoop calculateSHA1Hash config available table).applied.lookup n := by
  have hloop := @through_afterLoop calculateSHA1Hash config available table hr ha
  have hsame : ∀ n, available.has n = false →
      (afterLoop calculateSHA1Hash config available table).updates.lookup n =
        (afterLoop calculateSHA1Hash config available table).applied.lookup n := by
    intro n hn
    by_cases hby : RenamedBy calculateSHA1Hash available table available.files n
    · rw [hloop.updates_renamed n hn hby, hloop.applied_renamed n hn hby]
    · rw [hloop.updates_missing n hn hby, hloop.applied_missing n hn hby]
  by_cases hkeep : KeepsOrphans config (afterLoop calculateSHA1Hash config available table).applied
  · refine .inr ⟨hkeep, fun n hn => ?_⟩
    rw [update_eq, cleanUpOrphans_keep hkeep]
    exact hsame n hn
  · refine .inl fun n hn => ?_
    rw [update_eq, cleanUpOrphans_clean hkeep]
    by_cases hkey : n ∈ (afterLoop calculateSHA1Hash config available table).applied.keys
    · exact lookup_cleanUp_of_mem _ hkey
    · exact (lookup_cleanUp_of_notMem _ hkey).trans
        ((hsame n hn).trans (notMem_keys_iff.mp hkey))

omit hr ha in
theorem keepsOrphans_congr {m m' : AppliedFileStorage}
    (h : ∀ n, m.lookup n = none ↔ m'.lookup n = none) (hkeep : KeepsOrphans config m) :
    KeepsOrphans config m' := by
  have hperm : m.keys.Perm m'.keys := by
    refine (List.perm_ext_iff_of_nodup m.keys_nodup m'.keys_nodup).mpr fun n => ?_
    rw [← not_iff_not, notMem_keys_iff, notMem_keys_iff]
    exact h n
  rcases hkeep with hkeep | hkeep
  · refine .inl ?_
    rw [hkeep] at hperm
    exact hperm.nil_eq.symm
  · refine .inr ?_
    rw [← hperm.length_eq]
    exact hkeep

/-- An update of a table that has every file with its hash applies nothing, and keeps the
names and the hashes. -/
theorem second_update {table' : AppliedFileStorage}
    (hrows : ∀ file ∈ available.files, ∃ entry, table'.lookup file.name = some entry ∧
      entry.hash = calculateSHA1Hash file.content)
    (hkeep : KeepsOrphans config (afterLoop calculateSHA1Hash config available table').applied) :
    (update calculateSHA1Hash .exact config available table').appliedFiles = [] ∧
      ∀ n, ((update calculateSHA1Hash .exact config available table').updates.lookup n).map (·.hash) =
        (table'.lookup n).map (·.hash) := by
  have hnone : ∀ file ∈ available.files,
      renames calculateSHA1Hash available table' file = none := by
    intro file hfile
    obtain ⟨entry, hentry, -⟩ := hrows file hfile
    rw [renames, hentry, if_neg (fun h => nomatch h)]
  have hloop := @through_afterLoop calculateSHA1Hash config available table' hr ha
  constructor
  · rw [appliedFiles_update hr ha, List.map_eq_nil_iff, List.filter_eq_nil_iff]
    intro file hfile happlies
    obtain ⟨entry, hentry, hhash⟩ := hrows file hfile
    simp only [applies, hentry, hhash, ne_eq, not_true, decide_false, Bool.and_false,
      Bool.false_eq_true] at happlies
  · intro n
    cases hhas : available.has n with
    | true =>
      obtain ⟨file, hfile, rfl⟩ := has_iff.mp hhas
      obtain ⟨entry, hentry, hhash⟩ := hrows file hfile
      have htwins : NoTwins calculateSHA1Hash available table' := by
        intro x hx y hy hnew
        obtain ⟨e, he, -⟩ := hrows x hx
        rw [he] at hnew
        cases hnew
      obtain ⟨entry', hentry', hhash'⟩ := recorded_of_noTwins hr ha htwins hfile
      rw [hentry, hentry']
      exact congrArg some (hhash'.trans hhash.symm)
    | false =>
      have hby : ¬RenamedBy calculateSHA1Hash available table' available.files n := by
        rintro ⟨file, hfile, hold⟩
        rw [hnone file hfile] at hold
        cases hold
      rw [update_eq, cleanUpOrphans_keep hkeep, hloop.updates_missing n hhas hby]

theorem recordsAll_exact_iff : RecordsAll calculateSHA1Hash .exact config available table ↔
    NoTwins calculateSHA1Hash available table := by
  constructor
  · intro h
    by_contra htwins
    obtain ⟨file, hfile, hnone⟩ := unrecorded_of_twins hr ha htwins
    obtain ⟨entry, hentry, -⟩ := h.recorded file hfile
    rw [hnone] at hentry
    cases hentry
  · intro h
    have hrows : ∀ file ∈ available.files, _ := fun file hfile => recorded_of_noTwins hr ha h hfile
    refine ⟨hrows, fun file hfile hnew hhash => ?_, fun file hfile entry hentry hhash hin => ?_,
      fun table' hsame => ?_⟩
    · rw [appliedFiles_update hr ha]
      have happlies : applies calculateSHA1Hash config available table file = true := by
        simp only [applies, hnew, hashToName_eq_none.mpr hhash]
      refine List.count_eq_one_of_mem ?_ (List.mem_map_of_mem (List.mem_filter.mpr ⟨hfile, happlies⟩))
      exact (List.filter_sublist.map _).nodup available.nodup
    · rw [appliedFiles_update hr ha] at hin
      obtain ⟨other, hother, hname⟩ := List.mem_map.mp hin
      obtain ⟨hother, happlies⟩ := List.mem_filter.mp hother
      obtain rfl := eq_of_name hother hfile hname
      simp only [applies, hentry, hhash, ne_eq, not_true, decide_false, Bool.and_false,
        Bool.false_eq_true] at happlies
    · refine second_update hr ha (fun file hfile => ?_) ?_
      · rw [hsame]
        exact hrows file hfile
      · -- the rows of missing files are as many as before, or none
        have hrows' : ∀ file ∈ available.files,
            renames calculateSHA1Hash available table' file = none := by
          intro file hfile
          obtain ⟨entry, hentry, -⟩ := hrows file hfile
          rw [renames, hsame, hentry, if_neg (fun h => nomatch h)]
        have hloop' := @through_afterLoop calculateSHA1Hash config available table' hr ha
        have hmissing : ∀ n, available.has n = false →
            (afterLoop calculateSHA1Hash config available table').applied.lookup n =
              table'.lookup n := by
          refine fun n hn => hloop'.applied_missing n hn ?_
          rintro ⟨file, hfile, hold⟩
          rw [hrows' file hfile] at hold
          cases hold
        have hdone : ∀ n, available.has n = true →
            (afterLoop calculateSHA1Hash config available table').applied.lookup n = none := by
          intro n hn
          obtain ⟨file, hfile, rfl⟩ := has_iff.mp hn
          exact hloop'.applied_done file hfile
        rcases @missing_update calculateSHA1Hash config available table hr ha with
          hnone | ⟨hkeep, hleft⟩
        · refine .inl (List.eq_nil_iff_forall_not_mem.mpr fun n => notMem_keys_iff.mpr ?_)
          cases hhas : available.has n with
          | true => exact hdone n hhas
          | false => rw [hmissing n hhas, hsame, hnone n hhas]
        · refine keepsOrphans_congr (fun n => ?_) hkeep
          cases hhas : available.has n with
          | true =>
            obtain ⟨file, hfile, hname⟩ := has_iff.mp hhas
            have hloop := (@through_afterLoop calculateSHA1Hash config available table hr
              ha).applied_done file hfile
            rw [hname] at hloop
            exact ⟨fun _ => hdone n hhas, fun _ => hloop⟩
          | false => rw [hmissing n hhas, hsame, hleft n hhas]

omit hr ha in
/-- Where names are told apart, it is the same to the table as if they were compared exactly. -/
theorem recordsAll_congr {names : String → Prop} (h : column.Apart names)
    (hfiles : ∀ file ∈ available.files, names file.name) (hin : Within names table) :
    RecordsAll calculateSHA1Hash column config available table ↔
      RecordsAll calculateSHA1Hash .exact config available table := by
  obtain ⟨heq, hend⟩ := @update_eq_exact calculateSHA1Hash _ _ _ h config available hfiles hin
  have hsecond : ∀ table' : AppliedFileStorage, (∀ n, table'.lookup n =
      (update calculateSHA1Hash column config available table).updates.lookup n) →
      update calculateSHA1Hash column config available table' =
        update calculateSHA1Hash .exact config available table' := by
    refine fun table' hsame => (update_eq_exact h config hfiles fun name hname => ?_).1
    obtain ⟨entry, hentry⟩ := Option.isSome_iff_exists.mp (AList.lookup_isSome.mpr hname)
    exact hend.of_lookup ((hsame name).symm.trans hentry)
  constructor
  · rintro ⟨hrecorded, honce, hnot, hlater⟩
    rw [heq] at hrecorded honce hnot hsecond hlater
    exact ⟨hrecorded, honce, hnot, fun table' hsame => hsecond table' hsame ▸ hlater table' hsame⟩
  · rintro ⟨hrecorded, honce, hnot, hlater⟩
    rw [← heq] at hrecorded honce hnot hlater
    refine ⟨hrecorded, honce, hnot, fun table' hsame => ?_⟩
    rw [hsecond table' hsame]
    exact hlater table' hsame

/-- With redundancy checks, and names of files and rows that the table tells apart, an update does
what it is to do exactly if no two new files have the hash of the same missing one. -/
theorem records_all_iff (hnames : column.Apart fun name => available.has name = true ∨
    name ∈ table.keys) : RecordsAll calculateSHA1Hash column config available table ↔
      NoTwins calculateSHA1Hash available table :=
  (recordsAll_congr hnames (fun file hfile => .inl (has_iff.mpr ⟨file, hfile, rfl⟩))
    fun _ => .inr).trans (recordsAll_exact_iff hr ha)

end loop

def copies : LocaleFileStorage where
  files := [⟨"2018_01_01.sql", "SELECT 1", .RELEASED⟩, ⟨"2018_01_02.sql", "SELECT 1", .RELEASED⟩]
  nodup := by decide

def allChecks : Settings := ⟨true, true, true, -1⟩

def asciiColumn : NameColumn where
  literal name :=
    if name.toList.length ≤ 200 ∧ (name.toList.all fun c => c.toNat ≠ 34 && c.toNat ≠ 92 &&
      c.toNat < 128) then some name else none
  same name other := name.toList.map Char.toLower = other.toList.map Char.toLower

def renamedFiles : LocaleFileStorage :=
  ⟨[⟨"1.sql", "a", .RELEASED⟩, ⟨"2.sql", "b", .RELEASED⟩], by decide⟩

def removedRow : AppliedFileStorage := AList.singleton "0.sql" ⟨"a", .RELEASED⟩

/-- The row of a removed file is renamed, and a file is new. -/
theorem records_all_iff_renamed : RecordsAll id asciiColumn allChecks renamedFiles removedRow := by
  have hapart : asciiColumn.Apart fun name => name ∈ ["1.sql", "2.sql", "0.sql"] := by
    unfold NameColumn.Apart
    decide
  have hlist : ∀ name, renamedFiles.has name = true ∨ name ∈ removedRow.keys →
      name ∈ ["1.sql", "2.sql", "0.sql"] := by
    rintro name (hhas | hkey)
    · obtain ⟨file, hfile, rfl⟩ := has_iff.mp hhas
      rcases List.mem_cons.mp hfile with rfl | hfile
      · decide
      · rw [List.mem_singleton.mp hfile]
        decide
    · rw [List.mem_singleton.mp hkey]
      decide
  have hnames : asciiColumn.Apart fun name => renamedFiles.has name = true ∨
      name ∈ removedRow.keys := fun name hname =>
    ⟨(hapart name (hlist name hname)).1,
      fun other hother => (hapart name (hlist name hname)).2 other (hlist other hother)⟩
  refine (records_all_iff rfl rfl hnames).mpr fun file hfile other hother _ _ hhash _ _ _ => ?_
  have hcontents : ∀ f ∈ renamedFiles.files, ∀ g ∈ renamedFiles.files,
      f.content = g.content → f = g := by decide
  exact hcontents file hfile other hother hhash

/-- The row of the removed file is renamed to the first copy; the second one has no row, is
not applied, and is applied by the next update. -/
theorem records_all_fails :
    (update id asciiColumn allChecks copies
      (AList.singleton "2017_12_31.sql" ⟨"SELECT 1", .RELEASED⟩)).updates.lookup
        "2018_01_02.sql" = none ∧
      ¬RecordsAll id asciiColumn allChecks copies
        (AList.singleton "2017_12_31.sql" ⟨"SELECT 1", .RELEASED⟩) := by
  have hnone : (update id asciiColumn allChecks copies
      (AList.singleton "2017_12_31.sql" ⟨"SELECT 1", .RELEASED⟩)).updates.lookup
        "2018_01_02.sql" = none := by decide
  refine ⟨hnone, fun h => ?_⟩
  obtain ⟨entry, hentry, -⟩ := h.recorded ⟨"2018_01_02.sql", "SELECT 1", .RELEASED⟩ (by decide)
  rw [hnone] at hentry
  cases hentry

end Ashamane.Updater
