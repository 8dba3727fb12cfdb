import Ashamane.Lib.Assoc

/-! The updater of a database: the files of the update directories are compared with the
rows of the table `updates` by name and by hash. -/
namespace Ashamane.Updater

inductive State
  | RELEASED
  | ARCHIVED
  deriving DecidableEq, Repr

/-- A row of `updates` without its name. -/
structure AppliedFileEntry where
  hash : String
  state : State
  deriving DecidableEq, Repr

abbrev AppliedFileStorage := AList fun _ : String => AppliedFileEntry

structure LocaleFile where
  name : String
  content : String
  state : State
  deriving DecidableEq, Repr

structure LocaleFileStorage where
  files : List LocaleFile
  nodup : (files.map (·.name)).Nodup

namespace LocaleFileStorage

def has (available : LocaleFileStorage) (name : String) : Bool :=
  available.files.any fun file => file.name = name

end LocaleFileStorage

structure Settings where
  redundancyChecks : Bool
  allowRehash : Bool
  archivedRedundancy : Bool
  cleanDeadReferencesMaxCount : Int
  deriving DecidableEq, Repr

structure Progress where
  updates : AppliedFileStorage
  applied : AppliedFileStorage
  appliedFiles : List String := []
  importedUpdates : Nat := 0

/-- The column `name` of `updates`: what a name in double quotes stands for in a statement (`none` if
the statement fails), and which names are one key under its collation. -/
structure NameColumn where
  literal : String → Option String
  same : String → String → Bool

def NameColumn.exact : NameColumn := ⟨some, fun name other => name = other⟩

variable (calculateSHA1Hash : String → String) (column : NameColumn)

def hashToName (applied : AppliedFileStorage) (hash : String) : Option String :=
  (applied.entries.find? fun entry => entry.2.hash = hash).map fun entry => entry.1

def deleteNamed (updates : AppliedFileStorage) (name : String) : AppliedFileStorage :=
  (updates.keys.filter fun key => column.same key name).foldl (fun updates key => updates.erase key)
    updates

/-- The row that `WHERE name=` finds: the name is the primary key. -/
def findNamed (updates : AppliedFileStorage) (name : String) : Option (String × AppliedFileEntry) :=
  (updates.entries.find? fun row => column.same row.1 name).map fun row => (row.1, row.2)

def updateEntry (updates : AppliedFileStorage) (file : LocaleFile) : AppliedFileStorage :=
  match column.literal file.name with
  | none => updates
  | some name =>
    (deleteNamed column updates name).insert name ⟨calculateSHA1Hash file.content, file.state⟩

/-- The row `target` is deleted, and the row `source` gets its name. -/
def renameEntry (updates : AppliedFileStorage) (source target : String) : AppliedFileStorage :=
  match column.literal target with
  | none => updates
  | some target =>
    let updates := deleteNamed column updates target
    match (column.literal source).bind (findNamed column updates) with
    | none => updates
    | some (name, entry) => (updates.erase name).insert target entry

def updateState (updates : AppliedFileStorage) (name : String) (state : State) :
    AppliedFileStorage :=
  match (column.literal name).bind (findNamed column updates) with
  | none => updates
  | some (name, entry) => updates.insert name { entry with state }

def cleanUp (updates storage : AppliedFileStorage) : AppliedFileStorage :=
  match storage.keys.mapM column.literal with
  | none => updates
  | some names => names.foldl (deleteNamed column) updates

/-- What happens to a file that has not been dealt with by a `continue`. -/
inductive UpdateMode
  | MODE_APPLY
  | MODE_REHASH
  deriving DecidableEq, Repr

def importFile (s : Progress) (file : LocaleFile) (mode : UpdateMode) : Progress :=
  { updates := updateEntry calculateSHA1Hash column s.updates file
    applied := s.applied.erase file.name
    appliedFiles :=
      if mode = .MODE_APPLY then s.appliedFiles ++ [file.name] else s.appliedFiles
    importedUpdates :=
      if mode = .MODE_APPLY then s.importedUpdates + 1 else s.importedUpdates }

def checkFile (config : Settings) (available : LocaleFileStorage)
    (hashToName : String → Option String) (s : Progress) (file : LocaleFile) : Progress :=
  match s.applied.lookup file.name with
  | some entry =>
    if !config.redundancyChecks then { s with applied := s.applied.erase file.name }
    else if !config.archivedRedundancy && entry.state = .ARCHIVED && file.state = .ARCHIVED then
      { s with applied := s.applied.erase file.name }
    else
      let hash := calculateSHA1Hash file.content
      if config.allowRehash && entry.hash = "" then importFile calculateSHA1Hash column s file .MODE_REHASH
      else if entry.hash ≠ hash then importFile calculateSHA1Hash column s file .MODE_APPLY
      else
        { s with
          updates :=
            if entry.state ≠ file.state then updateState column s.updates file.name file.state
            else s.updates
          applied := s.applied.erase file.name }
  | none =>
    match hashToName (calculateSHA1Hash file.content) with
    | none => importFile calculateSHA1Hash column s file .MODE_APPLY
    | some oldName =>
      if available.has oldName then importFile calculateSHA1Hash column s file .MODE_APPLY
      else
        { s with
          updates := renameEntry column s.updates oldName file.name
          applied := s.applied.erase oldName }

def cleanUpOrphans (config : Settings) (s : Progress) : Progress :=
  if s.applied.keys = [] then s
  else if config.cleanDeadReferencesMaxCount < 0 ||
      (s.applied.keys.length : Int) ≤ config.cleanDeadReferencesMaxCount then
    { s with updates := cleanUp column s.updates s.applied }
  else s

def update (config : Settings) (available : LocaleFileStorage) (updates : AppliedFileStorage) :
    Progress :=
  cleanUpOrphans column config (available.files.foldl
    (checkFile calculateSHA1Hash column config available (hashToName updates))
    { updates, applied := updates })

end Ashamane.Updater
