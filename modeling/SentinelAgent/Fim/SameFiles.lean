import SentinelAgent.Fim.Baseline

/- The scan and the watcher: which files each of them looks at. -/
namespace SentinelAgent.Fim
open Maps (Map)

/- On Windows the watcher also leaves out what the file system keeps for itself. -/
def ntfsInternal (path : Path) : Bool :=
  ["$Extend", "$Recycle.Bin", "System Volume Information"].any fun name => path.dropLast.contains name

/- Whether the watcher skips an event on the path of a file. -/
def watcherIgnores (host : Host) (patterns : List String) (path : Path) : Bool :=
  (!host.unix && ntfsInternal path) || isIgnoredPath host.letters path patterns

section Reads
variable {host : Host} {patterns : List String} {scope : List Path} {read : Path → Reading}

theorem reads_observe {s : Scanning} {key : Path} {reading : Reading} :
    (s.observe host key reading).reads = s.reads ++ [key] :=
  List.filterMap_append

theorem visit_visited (s : Scanning) (path : Path) :
    (visit host read s path).visited = if path ∈ s.visited then s.visited else s.visited ++ [path] := by
  unfold visit
  split
  · rfl
  · simp only
    split
    · rfl
    · rfl

theorem visit_truncated (s : Scanning) (path : Path)
    (whole : (visit host read s path).report.truncated = false) :
    s.report.truncated = false ∧ (visit host read s path).reads =
      if path ∈ s.visited then s.reads else s.reads ++ [path] := by
  unfold visit at whole ⊢
  split
  · rename_i there
    rw [if_pos there] at whole
    exact ⟨whole, rfl⟩
  · rename_i fresh
    simp only [if_neg fresh] at whole ⊢
    split at whole
    · cases whole
    · rename_i room
      rw [if_neg room]
      exact ⟨whole, reads_observe⟩

/- A scan that is not cut short reads every file it meets. -/
theorem visits_read (files : List Path) (s : Scanning)
    (whole : (files.foldl (visit host read) s).report.truncated = false) :
    s.report.truncated = false ∧ ((∀ path ∈ s.visited, path ∈ s.reads) →
      ∀ path, path ∈ s.visited ∨ path ∈ files → path ∈ (files.foldl (visit host read) s).reads) := by
  induction files generalizing s with
  | nil =>
    refine ⟨whole, fun all path either => ?_⟩
    cases either with
    | inl visited => exact all path visited
    | inr met => cases met
  | cons file files ih =>
    obtain ⟨whole_after, rest⟩ := ih (visit host read s file) whole
    obtain ⟨whole_before, reads⟩ := visit_truncated s file whole_after
    refine ⟨whole_before, fun all path either => rest ?_ path ?_⟩
    · intro other visited
      rw [visit_visited] at visited
      rw [reads]
      split at visited
      · rename_i there
        rw [if_pos there]
        exact all other visited
      · rename_i fresh
        rw [if_neg fresh]
        cases List.mem_append.mp visited with
        | inl before => exact List.mem_append_left _ (all other before)
        | inr last => exact List.mem_append_right _ last
    · rw [visit_visited]
      rcases either with visited | met
      · left
        split
        · exact visited
        · exact List.mem_append_left _ visited
      · cases List.mem_cons.mp met with
        | inl first =>
          left
          rw [first]
          split
          · rename_i there
            exact there
          · exact List.mem_append_right _ List.mem_cons_self
        | inr later => exact Or.inr later

theorem revisit_reads (s : Scanning) (path : Path) :
    (revisit host patterns scope read s path).report.truncated = s.report.truncated ∧
      ∃ more, (revisit host patterns scope read s path).reads = s.reads ++ more ∧
        ∀ other ∈ more, isIgnoredPath host.letters other patterns = false := by
  unfold revisit
  split
  · exact ⟨rfl, [], List.filterMap_append, nofun⟩
  · rename_i covered
    refine ⟨rfl, [path], reads_observe, ?_⟩
    intro other only
    rw [List.mem_singleton.mp only]
    simp only [not_or, Bool.not_eq_true] at covered
    exact covered.2

theorem revisits_read (paths : List Path) (s : Scanning) :
    (paths.foldl (revisit host patterns scope read) s).report.truncated = s.report.truncated ∧
      ∃ more, (paths.foldl (revisit host patterns scope read) s).reads = s.reads ++ more ∧
        ∀ other ∈ more, isIgnoredPath host.letters other patterns = false := by
  induction paths generalizing s with
  | nil => exact ⟨rfl, [], (List.append_nil _).symm, nofun⟩
  | cons path paths ih =>
    obtain ⟨truncated, first, first_reads, first_kept⟩ :
        (revisit host patterns scope read s path).report.truncated = s.report.truncated ∧
          ∃ more, (revisit host patterns scope read s path).reads = s.reads ++ more ∧
            ∀ other ∈ more, isIgnoredPath host.letters other patterns = false :=
      revisit_reads s path
    obtain ⟨later_truncated, later, later_reads, later_kept⟩ :=
      ih (revisit host patterns scope read s path)
    refine ⟨later_truncated.trans truncated, first ++ later, ?_, ?_⟩
    · rw [List.foldl_cons, later_reads, first_reads, List.append_assoc]
    · intro other member
      cases List.mem_append.mp member with
      | inl before => exact first_kept other before
      | inr after => exact later_kept other after

/- A scan reads what it meets, and of the rest nothing that is ignored. -/
theorem visits_reads_met (files : List Path) (s : Scanning) :
    ∀ path ∈ (files.foldl (visit host read) s).reads, path ∈ s.reads ∨ path ∈ files := by
  induction files generalizing s with
  | nil => exact fun path member => Or.inl member
  | cons file files ih =>
    intro path member
    rcases ih (visit host read s file) path member with before | later
    · have one : path ∈ s.reads ∨ path = file := by
        unfold visit at before
        split at before
        · exact Or.inl before
        · simp only at before
          split at before
          · exact Or.inl before
          · rw [reads_observe] at before
            cases List.mem_append.mp before with
            | inl there => exact Or.inl there
            | inr last => exact Or.inr (List.mem_singleton.mp last)
      rcases one with there | same
      · exact Or.inl there
      · exact Or.inr (same ▸ List.mem_cons_self)
    · exact Or.inr (List.mem_cons_of_mem _ later)

end Reads

section Scan
variable {host : Host} {policy : FimPolicy} {disk : Disk} {m : BaselineManager} {file : Path}

theorem met_kept (met : file ∈ disk.files host policy) :
    isIgnoredPath host.letters file policy.ignorePatterns = false := by
  obtain ⟨path, node, rest, _, same, reached⟩ := mem_walked.mp met
  rw [same]
  exact reached.kept

/- What the scan reads is not ignored. -/
theorem read_kept (was_read : file ∈ (scan host policy disk m).reads) :
    isIgnoredPath host.letters file policy.ignorePatterns = false := by
  obtain ⟨_, more, reads, kept⟩ : _ ∧ ∃ more, (scan host policy disk m).reads =
      (walkFiles host disk.read m (disk.files host policy)).reads ++ more ∧
        ∀ other ∈ more, isIgnoredPath host.letters other policy.ignorePatterns = false :=
    revisits_read _ _
  rw [reads] at was_read
  cases List.mem_append.mp was_read with
  | inl walk =>
    rcases visits_reads_met _ _ file walk with before | met
    · cases before
    · exact met_kept met
  | inr later => exact kept file later

/- Where the scan is not cut short, it reads what it meets. -/
theorem met_read (whole : (scan host policy disk m).report.truncated = false)
    (met : file ∈ disk.files host policy) : file ∈ (scan host policy disk m).reads := by
  obtain ⟨truncated, more, reads, _⟩ : (scan host policy disk m).report.truncated =
      (walkFiles host disk.read m (disk.files host policy)).report.truncated ∧
        ∃ more, (scan host policy disk m).reads =
          (walkFiles host disk.read m (disk.files host policy)).reads ++ more ∧
            ∀ other ∈ more, isIgnoredPath host.letters other policy.ignorePatterns = false :=
    revisits_read _ _
  rw [truncated] at whole
  rw [reads]
  exact List.mem_append_left _ ((visits_read _ _ whole).2 nofun file (Or.inr met))

/- A file the scan can get to: below a watched path that resolved, through directories no
   deeper than the scan goes and left out by no starred pattern, and with a name of its own. -/
structure WithinReach (host : Host) (policy : FimPolicy) (disk : Disk) (file : Path) : Prop where
  reach : ∃ path node rest, path ∈ disk.scope policy ∧ disk.tree path = some node ∧
    file = path ++ rest ∧ node.Holds rest .file ∧ rest.length ≤ policy.depth ∧
    (∀ above below, rest = above ++ below → below ≠ [] →
      starred host.letters (path ++ above) policy.ignorePatterns = false ∧
        below.flatMap (nameComponents host.letters) ≠ [])

theorem met_iff (reach : WithinReach host policy disk file) :
    file ∈ disk.files host policy ↔
      isIgnoredPath host.letters file policy.ignorePatterns = false := by
  obtain ⟨path, node, rest, watched, there, same, holds, near, plain⟩ := reach.reach
  constructor
  · exact met_kept
  · intro kept
    refine mem_walked.mpr ⟨path, node, rest, ?_, same, holds, near, ?_, same ▸ kept⟩
    · exact List.mem_map.mpr ⟨path, watched, by rw [there]⟩
    · intro above below split_rest more
      obtain ⟨unstarred, named⟩ := plain above below split_rest more
      cases ignored : isIgnoredDir host.letters (path ++ above) policy.ignorePatterns with
      | false => rfl
      | true =>
        have inside := ignored_below ignored unstarred named
        rw [List.append_assoc, ← split_rest, ← same, kept] at inside
        cases inside

end Scan

/- The scan reads a file it can get to exactly when the watcher does not ignore the path of
   the file, and it never reads one whose path the shared patterns leave out. -/
theorem same_files (host : Host) (policy : FimPolicy) (disk : Disk) (m : BaselineManager)
    (file : Path) :
    ((scan host policy disk m).report.truncated = false → WithinReach host policy disk file →
      (host.unix = true ∨ ntfsInternal file = false) →
      (file ∈ (scan host policy disk m).reads ↔
        watcherIgnores host policy.ignorePatterns file = false)) ∧
    (file ∈ (scan host policy disk m).reads →
      isIgnoredPath host.letters file policy.ignorePatterns = false) := by
  constructor
  · intro whole reach ordinary
    have same : watcherIgnores host policy.ignorePatterns file =
        isIgnoredPath host.letters file policy.ignorePatterns := by
      rcases ordinary with unix | outside
      · simp [watcherIgnores, unix]
      · simp [watcherIgnores, outside]
    rw [same]
    exact ⟨read_kept, fun kept => met_read whole ((met_iff reach).mpr kept)⟩
  · exact read_kept

section Cases

def smallDisk : Disk where
  resolve path := path
  tree path :=
    if path = ["etc"] then some (.dir [("hosts", .file), ("cron.d", .dir [("job", .file)])]) else none
  read _ := emptyFile
  order := []
  distinct := List.nodup_nil

def watchEtc (recursive : Bool) : FimPolicy where
  watchedPaths := [["etc"]]
  ignorePatterns := ["*.swp", "sentinel/**"]
  recursive := recursive

theorem same_files_job :
    ["etc", "cron.d", "job"] ∈ (scan unixHost (watchEtc true) smallDisk noBaseline).reads := by
  refine ((same_files unixHost (watchEtc true) smallDisk noBaseline ["etc", "cron.d", "job"]).1
    (by decide) ⟨["etc"], _, ["cron.d", "job"], by decide, rfl, rfl, ?_, by decide, ?_⟩
    (Or.inl rfl)).mpr (by decide)
  · exact ⟨("cron.d", .dir [("job", .file)]), by simp, rfl, ("job", .file), by simp, rfl, rfl⟩
  · intro above below split_rest more
    rcases above with _ | ⟨first, _ | ⟨second, above⟩⟩
    · cases split_rest
      decide
    · cases split_rest
      decide
    · have lengths := congrArg List.length split_rest
      have longer := List.length_pos_of_ne_nil more
      simp only [List.length_append, List.length_cons, List.length_nil] at lengths
      omega

/- Without recursion a scan does not go below the first level. -/
theorem deeper_file_not_read :
    ¬ (["etc", "cron.d", "job"] ∈ (scan unixHost (watchEtc false) smallDisk noBaseline).reads ↔
      watcherIgnores unixHost (watchEtc false).ignorePatterns ["etc", "cron.d", "job"] = false) := by
  decide

end Cases
end SentinelAgent.Fim
