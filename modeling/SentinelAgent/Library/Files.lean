import Mathlib.Data.List.Infix

/-!
A file system: its entries by their canonical path, symbolic links that are followed where
a path is resolved, and renames within one device. Paths are those of Unix. What an
operation is refused for beyond that (rights, a full disk) is an argument of it.
-/
namespace Files

/- The names from the root down. -/
abbrev Place := List String

inductive Component where
  | name (text : String)
  | parent
  deriving DecidableEq

structure FilePath where
  absolute : Bool
  components : List Component
  deriving DecidableEq

inductive Node where
  | file (content : List UInt8)
  | directory
  | link (target : FilePath)
  | special
  deriving DecidableEq

/- `device`: where the entries of a directory are kept. -/
structure Fs where
  node : Place → Option Node
  device : Place → Nat

def Component.text : Component → String
  | .name text => text
  | .parent => ".."

def Place.text (p : Place) : String := "/" ++ "/".intercalate p

def FilePath.text (path : FilePath) : String :=
  (if path.absolute then "/" else "") ++ "/".intercalate (path.components.map Component.text)

/- Where a walk from one directory comes to: an entry, nothing, or a link, and then
   from where it goes on with what. -/
inductive Walk where
  | arrived (p : Place)
  | missing
  | link (p : Place) (rest : List Component)

namespace Fs

def isDirectory (fs : Fs) (p : Place) : Bool := p = [] || fs.node p = some .directory

def follow (fs : Fs) : Place → List Component → Walk
  | here, [] => .arrived here
  | here, .parent :: rest => fs.follow here.dropLast rest
  | here, .name n :: rest =>
    match fs.node (here ++ [n]) with
    | none => .missing
    | some (.link target) =>
      .link (if target.absolute then [] else here) (target.components ++ rest)
    | some .directory => fs.follow (here ++ [n]) rest
    | some _ => if rest = [] then .arrived (here ++ [n]) else .missing

def resolve (fs : Fs) : Nat → Place → List Component → Option Place
  | 0, here, path =>
    match fs.follow here path with
    | .arrived p => some p
    | _ => none
  | links + 1, here, path =>
    match fs.follow here path with
    | .arrived p => some p
    | .missing => none
    | .link p rest => fs.resolve links p rest

/- As many links as Linux follows. -/
def maxLinks : Nat := 40

def canonicalize (fs : Fs) (cwd : Place) (path : FilePath) : Option Place :=
  fs.resolve maxLinks (if path.absolute then [] else cwd) path.components

def put (fs : Fs) (p : Place) (content : List UInt8) : Fs :=
  { fs with node := Function.update fs.node p (some (.file content)) }

def remove (fs : Fs) (p : Place) : Fs := { fs with node := Function.update fs.node p none }

/- A directory moves with all that is in it. -/
def move (fs : Fs) (src dst : Place) : Fs :=
  { fs with node := match fs.node src with
    | some .directory => fun q =>
      if dst.isPrefixOf q then fs.node (src ++ q.drop dst.length)
      else if src.isPrefixOf q then none
      else fs.node q
    | entry => Function.update (Function.update fs.node src none) dst entry }

/- An entry is not renamed onto a directory. -/
def rename (fs : Fs) (src dst : Place) (fails : Bool) : Option Fs :=
  if fails || (fs.node src).isNone || !fs.isDirectory dst.dropLast ||
      fs.device src.dropLast != fs.device dst.dropLast then none
  else if src = dst then some fs
  else if src.isPrefixOf dst || fs.node dst = some .directory then none
  else some (fs.move src dst)

/- A directory and those it is in, where they are missing. -/
def createDirs (fs : Fs) (p : Place) : Option Fs :=
  if p.inits.all fun q => fs.isDirectory q || (fs.node q).isNone then
    some { fs with node := fun q =>
      if q.isPrefixOf p && (fs.node q).isNone then some .directory else fs.node q }
  else none

end Fs

/- How the writing of a whole file went; one that failed may have left a part. -/
inductive Written where
  | done
  | failed
  | damaged (left : List UInt8)
  deriving DecidableEq

def Fs.writeFile (fs : Fs) (p : Place) (content : List UInt8) : Written → Fs × Bool
  | .done => (fs.put p content, true)
  | .failed => (fs, false)
  | .damaged left => (fs.put p left, false)

section Operations
variable {fs : Fs}

@[simp] theorem put_node (p q : Place) (content : List UInt8) :
    (fs.put p content).node q = if q = p then some (.file content) else fs.node q := by
  simp [Fs.put, Function.update_apply]

@[simp] theorem remove_node (p q : Place) :
    (fs.remove p).node q = if q = p then none else fs.node q := by
  simp [Fs.remove, Function.update_apply]

theorem move_node {src dst : Place} (plain : fs.node src ≠ some .directory) (q : Place) :
    (fs.move src dst).node q =
      if q = dst then fs.node src else if q = src then none else fs.node q := by
  have moved : (fs.move src dst).node =
      Function.update (Function.update fs.node src none) dst (fs.node src) := by
    rw [Fs.move]
    split
    · rename_i directory
      exact absurd directory plain
    · rfl
  rw [moved, Function.update_apply, Function.update_apply]

theorem createDirs_node {p q : Place} {created : Fs} (done : fs.createDirs p = some created) :
    created.node q =
      if q.isPrefixOf p && (fs.node q).isNone then some .directory else fs.node q := by
  rw [Fs.createDirs] at done
  split at done
  · rw [← Option.some.inj done]
  · cases done

theorem createDirs_kept {p q : Place} {created : Fs} (done : fs.createDirs p = some created)
    (found : fs.node q ≠ none) : created.node q = fs.node q := by
  rw [createDirs_node done, if_neg]
  simp [found]

theorem createDirs_beyond {p q : Place} {created : Fs} (done : fs.createDirs p = some created)
    (beyond : p.length < q.length) : created.node q = fs.node q := by
  rw [createDirs_node done, if_neg]
  simp only [Bool.and_eq_true, List.isPrefixOf_iff_prefix, not_and]
  intro inside
  exact absurd inside.length_le (by omega)

theorem createDirs_device {p : Place} {created : Fs} (done : fs.createDirs p = some created) :
    created.device = fs.device := by
  rw [Fs.createDirs] at done
  split at done
  · rw [← Option.some.inj done]
  · cases done

/- Where the directories can be made, nothing on the way is a file. -/
theorem createDirs_passable {p q : Place} {created : Fs} (done : fs.createDirs p = some created)
    (inside : q <+: p) : fs.isDirectory q = true ∨ fs.node q = none := by
  rw [Fs.createDirs] at done
  split at done
  · rename_i passable
    rw [List.all_eq_true] at passable
    have one := passable q ((List.mem_inits q p).mpr inside)
    simpa using one
  · cases done

theorem createDirs_directory {p : Place} {created : Fs} (done : fs.createDirs p = some created) :
    created.isDirectory p = true := by
  rw [Fs.isDirectory]
  rcases createDirs_passable done (List.prefix_refl p) with directory | missing
  · rw [Fs.isDirectory] at directory
    simp only [Bool.or_eq_true, decide_eq_true_eq] at directory ⊢
    rcases directory with root | directory
    · exact Or.inl root
    · exact Or.inr ((createDirs_kept done (by simp [directory])).trans directory)
  · simp [createDirs_node done, missing]

theorem rename_isSome_iff {src dst : Place} {fails : Bool} :
    (fs.rename src dst fails).isSome = true ↔ fails = false ∧ fs.node src ≠ none ∧
      fs.isDirectory dst.dropLast = true ∧ fs.device src.dropLast = fs.device dst.dropLast ∧
      (src = dst ∨ ¬ src <+: dst ∧ fs.node dst ≠ some .directory) := by
  rw [Fs.rename]
  split
  · rename_i refused
    simp only [Option.isSome_none, Bool.false_eq_true, false_iff]
    rintro ⟨runs, found, directory, device, _⟩
    simp [runs, directory, device, found] at refused
  · rename_i taken
    simp only [Bool.or_eq_true, Option.isNone_iff_eq_none, Bool.not_eq_true', bne_iff_ne, ne_eq,
      not_or, Bool.not_eq_true, Bool.not_eq_false, not_not] at taken
    obtain ⟨⟨⟨runs, found⟩, directory⟩, device⟩ := taken
    split
    · rename_i same
      exact iff_of_true rfl ⟨runs, found, directory, device, Or.inl same⟩
    · rename_i apart
      split
      · rename_i refused
        simp only [Bool.or_eq_true, List.isPrefixOf_iff_prefix, decide_eq_true_eq] at refused
        simp only [Option.isSome_none, Bool.false_eq_true, false_iff]
        rintro ⟨_, _, _, _, same | ⟨outside, free⟩⟩
        · exact apart same
        · exact refused.elim outside free
      · rename_i allowed
        simp only [Bool.or_eq_true, List.isPrefixOf_iff_prefix, decide_eq_true_eq, not_or]
          at allowed
        simp [runs, found, directory, device, allowed.1, allowed.2]

/- An entry that is renamed stands at its new place, and nothing else changed. -/
theorem rename_moved {src dst : Place} {fails : Bool} {after : Fs}
    (done : fs.rename src dst fails = some after) : after.node dst = fs.node src := by
  rw [Fs.rename] at done
  split at done
  · cases done
  · split at done
    · rename_i same
      rw [← Option.some.inj done, same]
    · split at done
      · cases done
      · rw [← Option.some.inj done, Fs.move]
        split
        · simp [List.isPrefixOf_iff_prefix]
        · simp

theorem rename_others {src dst q : Place} {fails : Bool} {after : Fs}
    (done : fs.rename src dst fails = some after) (plain : fs.node src ≠ some .directory)
    (apart : q ≠ dst) : after.node q = if q = src then none else fs.node q := by
  rw [Fs.rename] at done
  split at done
  · cases done
  · split at done
    · rename_i same
      rw [← Option.some.inj done, if_neg (by rw [same]; exact apart)]
    · split at done
      · cases done
      · rw [← Option.some.inj done, move_node plain, if_neg apart]

end Operations

section Resolution
variable {fs fs' : Fs} {n : String}

/- What the walks of one file system go through is still there in the other. -/
def Kept (fs fs' : Fs) : Prop :=
  ∀ p, (fs.node p = some .directory ∨ ∃ target, fs.node p = some (.link target)) →
    fs'.node p = fs.node p

end Resolution

end Files
