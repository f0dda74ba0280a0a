import SentinelAgent.Library.Files

/-!
The quarantine: files moved into a store under an identifier of their own, each with a
record of the path it was asked by, and moved back. What the host answers while a call
runs is an argument of the call.
-/
namespace SentinelAgent.Edr
open Files

/- How the record of a quarantined file is written: the path it was asked by. -/
structure MetaFormat where
  write : FilePath → List UInt8
  read : List UInt8 → Except String FilePath

def isProtectedTarget (target : Place) (protectedPaths : List Place) : Bool :=
  target.length ≤ 1 || protectedPaths.any fun p => p.isPrefixOf target || target.isPrefixOf p

/- The store is protected once it exists, with the other paths of the agent and of the
   system that do. -/
def protectedPaths (store : Place) (others : List Place) (fs : Fs) : List Place :=
  (if fs.node store = some .directory then [store] else []) ++ others

def entryOf (store : Place) (name : String) : Place := if name = "" then store else store ++ [name]

def metaName (id : String) : String := id ++ ".meta"

/- Where a path names an entry of a directory, whether or not there is one. -/
def resolveRestoreTarget (cwd : Place) (path : FilePath) (fs : Fs) : Option Place :=
  match path.components.getLast? with
  | some (.name n) =>
    (fs.canonicalize cwd { path with components := path.components.dropLast }).map (· ++ [n])
  | _ => none

structure QuarantineAnswers where
  id : String
  others : List Place
  inspectFails : Bool
  createFails : Bool
  written : Written
  renameFails : Bool

structure RestoreAnswers where
  others : List Place
  readFails : Bool
  renameFails : Bool
  removeFails : Bool

section Calls
variable (format : MetaFormat) (store cwd : Place)

/- The file that would be moved into the store. -/
def quarantineCheck (answers : QuarantineAnswers) (path : FilePath) (fs : Fs) :
    Except String Place :=
  match fs.canonicalize cwd path with
  | none => .error ("File not found: " ++ path.text)
  | some source =>
    if isProtectedTarget source (protectedPaths store answers.others fs) then
      .error ("Anti-Draper protection: refusing to quarantine protected path: " ++ source.text)
    else if answers.inspectFails then .error ("Failed to inspect '" ++ source.text ++ "'")
    else
      match fs.node source with
      | some (.file _) => .ok source
      | _ => .error ("Refusing to quarantine '" ++ source.text ++ "': not a regular file")

def quarantineFile (answers : QuarantineAnswers) (path : FilePath) (fs : Fs) :
    Fs × Except String String :=
  match quarantineCheck store cwd answers path fs with
  | .error text => (fs, .error text)
  | .ok source =>
    match if answers.createFails then none else fs.createDirs store with
    | none => (fs, .error "Failed to create quarantine dir")
    | some fs =>
      match fs.writeFile (entryOf store (metaName answers.id)) (format.write path)
          answers.written with
      | (fs, false) => (fs, .error "Failed to write quarantine metadata")
      | (fs, true) =>
        match fs.rename source (entryOf store answers.id) answers.renameFails with
        | none => (fs, .error "Failed to quarantine file")
        | some fs => (fs, .ok answers.id)

/- `exists`, of an entry of the store. -/
def stored (name : String) (fs : Fs) : Bool :=
  fs.node store = some .directory &&
    (fs.canonicalize store ⟨false, if name = "" then [] else [.name name]⟩).isSome

def readStored (name : String) (fs : Fs) : Option (List UInt8) :=
  match fs.canonicalize store ⟨false, [.name name]⟩ with
  | none => none
  | some p =>
    match fs.node p with
    | some (.file content) => some content
    | _ => none

/- Where a quarantined file would be moved back to. -/
def restoreCheck (answers : RestoreAnswers) (id : String) (fs : Fs) : Except String Place :=
  if !(id.toList.all fun c => c.isAlphanum || c == '-') then
    .error "Invalid quarantine ID: must contain only alphanumeric characters and hyphens"
  else if !stored store id fs then .error ("Quarantined file not found: " ++ id)
  else if answers.readFails then .error "Failed to read quarantine metadata"
  else
    match readStored store (metaName id) fs with
    | none => .error "Failed to read quarantine metadata"
    | some content =>
      match format.read content with
      | .error text => .error text
      | .ok original =>
        match resolveRestoreTarget cwd original fs with
        | none =>
          .error ("Refusing to restore to '" ++ original.text ++
            "': destination cannot be resolved")
        | some target =>
          if isProtectedTarget target (protectedPaths store answers.others fs) then
            .error ("Refusing to restore file to system-critical directory: " ++ original.text)
          else .ok target

/- The record goes last, as far as it can be removed. -/
def restoreQuarantinedFile (answers : RestoreAnswers) (id : String) (fs : Fs) :
    Fs × Except String Unit :=
  match restoreCheck format store cwd answers id fs with
  | .error text => (fs, .error text)
  | .ok target =>
    match fs.rename (entryOf store id) target answers.renameFails with
    | none => (fs, .error "Failed to restore file")
    | some fs =>
      (if answers.removeFails then fs else fs.remove (entryOf store (metaName id)), .ok ())

end Calls

end SentinelAgent.Edr
