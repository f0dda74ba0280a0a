import Mathlib.Data.List.TakeWhile
import SentinelAgent.Edr.Quarantine

/- When a quarantine is undone by the restore, and when nothing is lost on the way. -/
namespace SentinelAgent.Edr
open Files

/- A new random identifier: letters, digits and hyphens, of no entry of the store. -/
structure FreshId (store : Place) (id : String) (fs : Fs) : Prop where
  named : id ≠ ""
  payload : fs.node (store ++ [id]) = none
  record : fs.node (store ++ [metaName id]) = none

/- A path on record is read as it was written. -/
def Records (format : MetaFormat) (path : FilePath) : Prop :=
  format.read (format.write path) = .ok path

section Names
variable {store : Place} {id : String}

theorem metaName_ne (id : String) : metaName id ≠ "" := by
  intro empty
  have size := congrArg String.utf8ByteSize empty
  simp [metaName, String.utf8ByteSize_append] at size

theorem metaName_other (id : String) : metaName id ≠ id := by
  intro same
  have size := congrArg String.utf8ByteSize same
  simp [metaName, String.utf8ByteSize_append] at size

theorem entryOf_named {name : String} (named : name ≠ "") :
    entryOf store name = store ++ [name] := if_neg named

theorem entries_apart (named : id ≠ "") :
    entryOf store (metaName id) ≠ entryOf store id := by
  rw [entryOf_named (metaName_ne id), entryOf_named named]
  intro same
  have names : metaName id = id := by simpa using same
  exact metaName_other id names

end Names

section Quarantined
variable {format : MetaFormat} {store cwd source : Place} {answers : QuarantineAnswers}
  {path : FilePath} {fs : Fs}

theorem checked_source (passes : quarantineCheck store cwd answers path fs = .ok source) :
    fs.canonicalize cwd path = some source ∧
      isProtectedTarget source (protectedPaths store answers.others fs) = false ∧
      ∃ content, fs.node source = some (.file content) := by
  unfold quarantineCheck at passes
  split at passes
  · cases passes
  · rename_i found resolves
    split at passes
    · cases passes
    · rename_i free
      split at passes
      · cases passes
      · split at passes
        · rename_i content regular
          obtain rfl := Except.ok.inj passes
          exact ⟨resolves, by simpa using free, content, regular⟩
        · cases passes

/- A file that is not protected is no directory on the way to the store. -/
theorem source_outside {created : Fs} (passes : quarantineCheck store cwd answers path fs = .ok source)
    (made : fs.createDirs store = some created) : ¬ source <+: store := by
  intro inside
  obtain ⟨_, free, content, regular⟩ := checked_source passes
  rw [isProtectedTarget, Bool.or_eq_false_iff, decide_eq_false_iff_not] at free
  rcases createDirs_passable made inside with directory | missing
  · rw [Fs.isDirectory, Bool.or_eq_true, decide_eq_true_eq, decide_eq_true_eq] at directory
    rcases directory with root | directory
    · rw [root] at free
      exact free.1 (by simp)
    · rw [regular] at directory
      cases directory
  · rw [regular] at missing
    cases missing

/- The file system once the record is written. -/
theorem recorded_node {created : Fs} (fresh : FreshId store answers.id fs)
    (made : fs.createDirs store = some created) (content : List UInt8) (p : Place)
    (found : fs.node p ≠ none) :
    (created.put (entryOf store (metaName answers.id)) content).node p = fs.node p := by
  rw [put_node, if_neg, createDirs_kept made found]
  intro same
  rw [same, entryOf_named (metaName_ne _)] at found
  exact found fresh.record

theorem moves_iff {created : Fs} (fresh : FreshId store answers.id fs)
    (passes : quarantineCheck store cwd answers path fs = .ok source)
    (made : fs.createDirs store = some created) (content : List UInt8) :
    ((created.put (entryOf store (metaName answers.id)) content).rename source
        (entryOf store answers.id) answers.renameFails).isSome = true ↔
      answers.renameFails = false ∧ fs.device source.dropLast = fs.device store := by
  have outside := source_outside passes made
  obtain ⟨_, _, bytes, regular⟩ := checked_source passes
  have found : fs.node source ≠ none := by simp [regular]
  rw [rename_isSome_iff, recorded_node fresh made content source found,
    entryOf_named fresh.named, entryOf_named (metaName_ne _)]
  have apart : ¬ source <+: store ++ [answers.id] := by
    intro inside
    rcases List.prefix_concat_iff.mp inside with same | inside
    · rw [same] at found
      exact found fresh.payload
    · exact outside inside
  have payload : (created.put (store ++ [metaName answers.id]) content).node
      (store ++ [answers.id]) = none := by
    have others : answers.id ≠ metaName answers.id := (metaName_other _).symm
    rw [put_node, if_neg (by simpa using others), createDirs_beyond made (by simp)]
    exact fresh.payload
  have directory : (created.put (store ++ [metaName answers.id]) content).isDirectory store =
      true := by
    have is_directory := createDirs_directory made
    rw [Fs.isDirectory] at is_directory ⊢
    rw [put_node, if_neg (by simp)]
    exact is_directory
  have devices : (created.put (store ++ [metaName answers.id]) content).device = fs.device := by
    rw [← createDirs_device made]
    rfl
  rw [payload, List.dropLast_concat, directory, devices]
  constructor
  · rintro ⟨runs, _, _, device, _⟩
    exact ⟨runs, device⟩
  · rintro ⟨runs, device⟩
    exact ⟨runs, found, rfl, device, Or.inr ⟨apart, by simp⟩⟩

/-- What a successful quarantine leaves: the file in the store, its path on record, and
    every directory and link as it was. -/
theorem quarantined (fresh : FreshId store answers.id fs) {id : String}
    (done : (quarantineFile format store cwd answers path fs).2 = .ok id) :
    let after := (quarantineFile format store cwd answers path fs).1
    ∃ source content, quarantineCheck store cwd answers path fs = .ok source ∧
      fs.node source = some (.file content) ∧ id = answers.id ∧ after.node source = none ∧
      after.node (store ++ [id]) = some (.file content) ∧
      after.node (store ++ [metaName id]) = some (.file (format.write path)) ∧
      Kept fs after := by
  simp only
  unfold quarantineFile at done ⊢
  cases passes : quarantineCheck store cwd answers path fs with
  | error text => simp [passes] at done
  | ok source =>
    obtain ⟨_, _, content, regular⟩ := checked_source passes
    simp only [passes] at done ⊢
    cases made : if answers.createFails then none else fs.createDirs store with
    | none => simp [made] at done
    | some created =>
      simp only [made] at done ⊢
      have really_made : fs.createDirs store = some created := by
        split at made
        · cases made
        · exact made
      cases how : answers.written with
      | failed => simp [how, Fs.writeFile] at done
      | damaged left => simp [how, Fs.writeFile] at done
      | done =>
        simp only [how, Fs.writeFile] at done ⊢
        generalize written_eq : created.put (entryOf store (metaName answers.id))
          (format.write path) = written at done ⊢
        have as_before (p : Place) (found : fs.node p ≠ none) : written.node p = fs.node p := by
          rw [← written_eq]
          exact recorded_node fresh really_made _ p found
        have source_before := as_before source (by simp [regular])
        cases moved : written.rename source (entryOf store answers.id) answers.renameFails with
        | none => simp [moved] at done
        | some after =>
          simp only [moved] at done ⊢
          obtain rfl := Except.ok.inj done
          have plain : written.node source ≠ some .directory := by
            rw [source_before, regular]
            simp
          have payload_ne {p : Place} (found : fs.node p ≠ none) :
              p ≠ entryOf store answers.id := by
            rintro rfl
            rw [entryOf_named fresh.named] at found
            exact found fresh.payload
          refine ⟨source, content, rfl, regular, rfl, ?_, ?_, ?_, ?_⟩
          · rw [rename_others moved plain (payload_ne (by simp [regular])), if_pos rfl]
          · rw [← entryOf_named fresh.named, rename_moved moved, source_before, regular]
          · have apart : store ++ [metaName answers.id] ≠ source := by
              rintro rfl
              rw [fresh.record] at regular
              cases regular
            rw [← entryOf_named (metaName_ne answers.id)] at apart ⊢
            rw [rename_others moved plain (entries_apart fresh.named), if_neg apart, ← written_eq,
              put_node, if_pos rfl]
          · intro p kind
            have found : fs.node p ≠ none := by
              rcases kind with directory | ⟨target, link⟩
              · simp [directory]
              · simp [link]
            have apart : p ≠ source := by
              rintro rfl
              rcases kind with directory | ⟨target, link⟩
              · simp [regular] at directory
              · simp [regular] at link
            rw [rename_others moved plain (payload_ne found), if_neg apart]
            exact as_before p found

end Quarantined

section Restored
variable {format : MetaFormat} {store cwd target : Place} {answers : RestoreAnswers}
  {id : String} {fs : Fs}

theorem checked_target (passes : restoreCheck format store cwd answers id fs = .ok target) :
    ¬ store <+: target ∧ ∃ content original, readStored store (metaName id) fs = some content ∧
      format.read content = .ok original ∧ resolveRestoreTarget cwd original fs = some target := by
  unfold restoreCheck at passes
  split at passes
  · cases passes
  split at passes
  · cases passes
  rename_i present
  split at passes
  · cases passes
  split at passes
  · cases passes
  rename_i content read
  split at passes
  · cases passes
  rename_i original parsed
  split at passes
  · cases passes
  rename_i place lands
  split at passes
  · cases passes
  rename_i free
  obtain rfl := Except.ok.inj passes
  refine ⟨?_, content, original, read, parsed, lands⟩
  intro inside
  have directory : fs.node store = some .directory := by
    simp only [stored, Bool.not_eq_true', Bool.not_eq_false, Bool.and_eq_true,
      decide_eq_true_eq] at present
    exact present.1
  simp [isProtectedTarget, protectedPaths, directory, inside] at free

theorem target_not_record (outside : ¬ store <+: target) (id : String) :
    target ≠ entryOf store (metaName id) := by
  rintro rfl
  rw [entryOf_named (metaName_ne id)] at outside
  exact outside (List.prefix_append store _)

/- What a restore that succeeds leaves at its destination. -/
theorem restored_target (passes : restoreCheck format store cwd answers id fs = .ok target)
    (done : (restoreQuarantinedFile format store cwd answers id fs).2 = .ok ()) :
    (fs.rename (entryOf store id) target answers.renameFails).isSome = true ∧
      (restoreQuarantinedFile format store cwd answers id fs).1.node target =
        fs.node (entryOf store id) := by
  have apart := target_not_record (checked_target passes).1 id
  unfold restoreQuarantinedFile at done ⊢
  simp only [passes] at done ⊢
  cases moved : fs.rename (entryOf store id) target answers.renameFails with
  | none => simp [moved] at done
  | some after =>
    refine ⟨rfl, ?_⟩
    simp only
    split
    · exact rename_moved moved
    · rw [remove_node, if_neg apart, rename_moved moved]

theorem restored_iff : (restoreQuarantinedFile format store cwd answers id fs).2 = .ok () ↔
    ∃ target, restoreCheck format store cwd answers id fs = .ok target ∧
      (fs.rename (entryOf store id) target answers.renameFails).isSome = true := by
  unfold restoreQuarantinedFile
  cases restoreCheck format store cwd answers id fs with
  | error text => simp
  | ok target =>
    simp only
    cases moved : fs.rename (entryOf store id) target answers.renameFails with
    | none => simp [moved]
    | some after => simp [moved]

/- An entry that is neither the destination nor in the store stays as it is. -/
theorem restored_others (passes : restoreCheck format store cwd answers id fs = .ok target)
    (done : (restoreQuarantinedFile format store cwd answers id fs).2 = .ok ())
    (plain : fs.node (entryOf store id) ≠ some .directory) {p : Place} (apart : p ≠ target)
    (missing : fs.node p = none) :
    (restoreQuarantinedFile format store cwd answers id fs).1.node p = none := by
  unfold restoreQuarantinedFile at done ⊢
  simp only [passes] at done ⊢
  cases moved : fs.rename (entryOf store id) target answers.renameFails with
  | none => simp [moved] at done
  | some after =>
    have gone : after.node p = none := by
      rw [rename_others moved plain apart]
      split
      · rfl
      · exact missing
    simp only
    split
    · exact gone
    · rw [remove_node]
      split
      · rfl
      · exact gone

end Restored

/- A quarantine of `path`, and a restore: of what it quarantined, or in any other state. -/
section Claims
variable (format : MetaFormat) (store cwd : Place) (asked : QuarantineAnswers) (path : FilePath)
  (fs : Fs) (cwd' : Place) (answers : RestoreAnswers)

/- A quarantine that fails leaves the file and what is in the store as they were. -/
def QuarantineKeeps : Prop :=
  ∀ text, (quarantineFile format store cwd asked path fs).2 = .error text →
    (∀ source, fs.canonicalize cwd path = some source →
      (quarantineFile format store cwd asked path fs).1.node source = fs.node source) ∧
    ∀ name, (quarantineFile format store cwd asked path fs).1.node (store ++ [name]) =
      fs.node (store ++ [name])

/- The same file is back where it was taken from. -/
def Undone : Prop :=
  ∀ id source, (quarantineFile format store cwd asked path fs).2 = .ok id →
    fs.canonicalize cwd path = some source →
    (restoreQuarantinedFile format store cwd' answers id
      (quarantineFile format store cwd asked path fs).1).2 = .ok () →
    (restoreQuarantinedFile format store cwd' answers id
      (quarantineFile format store cwd asked path fs).1).1.node source = fs.node source

def RestoreKeeps (id : String) : Prop :=
  ∀ text, (restoreQuarantinedFile format store cwd' answers id fs).2 = .error text →
    (restoreQuarantinedFile format store cwd' answers id fs).1 = fs

/- What stands at the destination is not overwritten. -/
def RestoreSpares (id : String) : Prop :=
  (restoreQuarantinedFile format store cwd' answers id fs).2 = .ok () →
    ∀ target, restoreCheck format store cwd' answers id fs = .ok target →
      fs.node target ≠ none →
        (restoreQuarantinedFile format store cwd' answers id fs).1.node target = fs.node target

/- Nothing fails any more once the record is being written: it is not left half-written,
   and the file is on the device of the store and can be moved. -/
def CanMove : Prop :=
  ∀ source, quarantineCheck store cwd asked path fs = .ok source → asked.createFails = false →
    (fs.createDirs store).isSome = true →
    asked.written = .failed ∨ asked.written = .done ∧ asked.renameFails = false ∧
      fs.device source.dropLast = fs.device store

/- Where a restore moves a file to, nothing stands, or the same file. -/
def DestinationFree (id : String) : Prop :=
  ∀ target, restoreCheck format store cwd' answers id fs = .ok target →
    (fs.rename (entryOf store id) target answers.renameFails).isSome = true →
      fs.node target = none ∨ fs.node target = fs.node (entryOf store id)

/- The path a file was asked by leads a restore to the file itself. -/
def LeadsBack : Prop :=
  ∀ source target id, quarantineCheck store cwd asked path fs = .ok source →
    (quarantineFile format store cwd asked path fs).2 = .ok id →
    resolveRestoreTarget cwd' path (quarantineFile format store cwd asked path fs).1 =
      some target →
    restoreCheck format store cwd' answers id
      (quarantineFile format store cwd asked path fs).1 = .ok target →
    ((quarantineFile format store cwd asked path fs).1.rename (entryOf store id) target
      answers.renameFails).isSome = true →
      target = source

end Claims

section Exactly
variable {format : MetaFormat} {store cwd cwd' : Place} {asked : QuarantineAnswers}
  {path : FilePath} {fs : Fs} {answers : RestoreAnswers}

theorem quarantine_keeps_iff (fresh : FreshId store asked.id fs) :
    QuarantineKeeps format store cwd asked path fs ↔ CanMove store cwd asked path fs := by
  have record (created : Fs) (content : List UInt8) :
      (created.put (entryOf store (metaName asked.id)) content).node
        (store ++ [metaName asked.id]) ≠ fs.node (store ++ [metaName asked.id]) := by
    rw [fresh.record, entryOf_named (metaName_ne asked.id), put_node, if_pos rfl]
    simp
  unfold QuarantineKeeps CanMove quarantineFile
  cases passes : quarantineCheck store cwd asked path fs with
  | error text => simp
  | ok source =>
    cases refused : asked.createFails with
    | true => simp
    | false =>
      cases made : fs.createDirs store with
      | none => simp
      | some created =>
        have moves := moves_iff fresh passes made (format.write path)
        have found := (checked_source passes).1
        cases how : asked.written with
        | failed =>
          refine iff_of_true ?_ ?_
          · rintro _ _
            refine ⟨?_, fun name => ?_⟩
            · intro other its
              obtain rfl : other = source := Option.some.inj (its.symm.trans found)
              obtain ⟨_, _, content, regular⟩ := checked_source passes
              exact createDirs_kept made (by simp [regular])
            · exact createDirs_beyond made (by simp)
          · exact fun _ _ _ _ => Or.inl rfl
        | damaged left =>
          refine iff_of_false ?_ ?_
          · intro keeps
            exact record created left ((keeps _ rfl).2 (metaName asked.id))
          · intro can
            have one := can source rfl rfl rfl
            simp at one
        | done =>
          simp only [Fs.writeFile, Bool.false_eq_true, if_false]
          cases moved : (created.put (entryOf store (metaName asked.id))
              (format.write path)).rename source (entryOf store asked.id) asked.renameFails with
          | some after =>
            rw [moved] at moves
            refine iff_of_true ?_ ?_
            · intro text failed
              cases failed
            · intro other its _ _
              obtain rfl := Except.ok.inj its
              exact Or.inr ⟨trivial, moves.mp rfl⟩
          | none =>
            rw [moved] at moves
            refine iff_of_false ?_ ?_
            · intro keeps
              exact record created _ ((keeps _ rfl).2 (metaName asked.id))
            · intro can
              rcases can source rfl trivial rfl with failed | ⟨_, runs⟩
              · cases failed
              · exact absurd (moves.mpr runs) (by simp)

theorem restore_keeps (id : String) : RestoreKeeps format store fs cwd answers id := by
  intro text failed
  unfold restoreQuarantinedFile at failed ⊢
  cases passes : restoreCheck format store cwd answers id fs with
  | error text => rfl
  | ok target =>
    cases moved : fs.rename (entryOf store id) target answers.renameFails with
    | none => simp [moved]
    | some after => simp [passes, moved] at failed

theorem restore_spares_iff (id : String) : RestoreSpares format store fs cwd answers id ↔
    DestinationFree format store fs cwd answers id := by
  constructor
  · intro spares target passes moves
    have done := restored_iff.mpr ⟨target, passes, moves⟩
    by_cases missing : fs.node target = none
    · exact Or.inl missing
    · right
      rw [← spares done target passes missing]
      exact (restored_target passes done).2
  · intro free done target passes present
    obtain ⟨moves, its⟩ := restored_target passes done
    rw [its]
    exact ((free target passes moves).resolve_left present).symm

/- The record a quarantine left is the one its restore reads. -/
theorem checked_lands (fresh : FreshId store asked.id fs) (records : Records format path)
    {id : String} {target : Place}
    (done : (quarantineFile format store cwd asked path fs).2 = .ok id)
    (checked : restoreCheck format store cwd' answers id
      (quarantineFile format store cwd asked path fs).1 = .ok target) :
    resolveRestoreTarget cwd' path (quarantineFile format store cwd asked path fs).1 =
      some target := by
  obtain ⟨_, _, _, _, rfl, _, _, record, _⟩ := quarantined fresh done
  obtain ⟨_, written, original, read, parsed, lands⟩ := checked_target checked
  have written_eq : written = format.write path := by
    have found : (quarantineFile format store cwd asked path fs).1.canonicalize store
        ⟨false, [.name (metaName asked.id)]⟩ = some (store ++ [metaName asked.id]) := by
      simp [Fs.canonicalize, Fs.maxLinks, Fs.resolve, Fs.follow, record]
    simp only [readStored, found, record] at read
    exact (Option.some.inj read).symm
  rw [written_eq, records] at parsed
  rw [← Except.ok.inj parsed] at lands
  exact lands

theorem undone_iff (fresh : FreshId store asked.id fs) (records : Records format path) :
    Undone format store cwd asked path fs cwd' answers ↔
      LeadsBack format store cwd asked path fs cwd' answers := by
  constructor
  · intro undone source target id passes done _ checked moves
    obtain ⟨_, content, same, regular, rfl, gone, payload, _, _⟩ := quarantined fresh done
    obtain rfl := Except.ok.inj (same.symm.trans passes)
    by_contra apart
    have restored := restored_iff.mpr ⟨target, checked, moves⟩
    have back := undone asked.id _ done (checked_source passes).1 restored
    rw [← entryOf_named fresh.named] at payload
    rw [restored_others checked restored (by simp [payload]) (Ne.symm apart) gone, regular] at back
    cases back
  · intro leads id source done found restored
    obtain ⟨taken, content, passes, regular, rfl, gone, payload, _, _⟩ := quarantined fresh done
    obtain rfl : taken = source := Option.some.inj ((checked_source passes).1.symm.trans found)
    obtain ⟨target, checked, moves⟩ := restored_iff.mp restored
    have lands := checked_lands fresh records done checked
    obtain rfl := leads taken target asked.id passes done lands checked moves
    rw [(restored_target checked restored).2, entryOf_named fresh.named, payload, regular]

end Exactly

/- A link to a file, and a store. -/
def linkedHost : Fs where
  node p :=
    if p = ["home"] ∨ p = ["srv"] ∨ p = ["srv", "files"] ∨ p = ["var"] ∨ p = ["var", "store"] then
      some .directory
    else if p = ["home", "link"] then
      some (.link ⟨true, [.name "srv", .name "files", .name "evil"]⟩)
    else if p = ["srv", "files", "evil"] then some (.file [101])
    else none
  device _ := 0

def askedLink : FilePath := ⟨true, [.name "home", .name "link"]⟩

def linkFormat : MetaFormat where
  write path := path.text.toUTF8.data.toList
  read content := if content = "/home/link".toUTF8.data.toList then .ok askedLink else .error ""

def smoothly : QuarantineAnswers := ⟨"5f0c", [], false, false, .done, false⟩

theorem linked_fresh : FreshId ["var", "store"] smoothly.id linkedHost :=
  ⟨by decide, by decide, by decide⟩

theorem link_records : Records linkFormat askedLink := by
  unfold Records
  decide

end SentinelAgent.Edr
