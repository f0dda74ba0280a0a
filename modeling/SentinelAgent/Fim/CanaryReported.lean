import SentinelAgent.Fim.Canary
import SentinelAgent.Library.Runs

/-!
Whether a decoy that is encrypted is always reported. It is in the runs in which no folder is
judged removed that was tampered with, no incident is dropped or lost by a stop before it is
handed over, and no folder is tampered with that the agent no longer watches.
-/
namespace SentinelAgent.Canary

open Maps Runs

/-! What is claimed. -/

def State.harmedFolders (s : State) : List Path := s.harmed.map Prod.fst

/- Whether the decoys are readable and as deployed. -/
def Intact (folder : DecoyFolder) (dir : Option Dir) : Prop :=
  ∃ d, dir = some d ∧ d.searchable ∧
    ∀ file ∈ folder.files, d.entries.lookup file.name = some (.file file.hash true)

def Tells (incidents : List Made) (path : Path) : Prop :=
  ∃ made ∈ incidents, made.incident.folder = path ∧ made.incident.tamper = .encrypted

/-- While the agent watches: a folder in which a decoy was changed or renamed in place, and not
    put back, and that was looked at since, was reported as encrypted or the incident waits for
    the receiver; no folder is reported that was found as deployed; and every target that was not
    skipped has exactly one folder watched. -/
structure AlwaysReported (s : State) : Prop where
  encrypted : ∀ w, s.phase = .watching w → ∀ path ∈ s.harmedFolders, path ∉ s.changed →
    Tells (s.reported ++ s.channel) path
  intact : ∀ made ∈ s.reported ++ s.channel, ¬ Intact made.folder made.seen
  watched : ∀ w, s.phase = .watching w → ∀ target ∈ w.targets, target.directory ∉ w.skipped →
    (w.folders.filter fun path => decide (path.parent = target.directory)).length = 1

/-! The condition on a step. -/

/- The manifest in memory, or the one of the next start. -/
def State.manifest (s : State) : List DecoyFolder :=
  match s.phase with
  | .stopped => s.saved
  | .judging left d => d.manifest ++ left
  | .creating _ d | .saving d | .returning d => d.manifest
  | .watching w | .marked _ w | .sending _ w => w.manifest

/- The incidents a step of the agent has made and not yet returned or sent. -/
def Phase.coming : Phase → List Made
  | .judging _ d | .creating _ d | .saving d | .returning d => d.incidents
  | .marked made _ | .sending made _ => [made]
  | .stopped | .watching _ => []

def State.told (s : State) : List Made := s.reported ++ s.channel ++ s.phase.coming

def watches (manifest : List DecoyFolder) (path : Path) : Bool :=
  manifest.any fun f => !f.tripped && decide (f.path = path)

/- Whether a folder is tampered with and judged removed. -/
def State.misjudges (s : State) (f : DecoyFolder) : Prop :=
  f.path ∈ s.harmedFolders ∧
    ((judge 0 f (s.disk.lookup f.path)).map CanaryIncident.tamper = some .removed)

/- Whether the name of a new folder is none that was given before. -/
def Event.fresh (event : Event) (s : State) (target : CanaryTarget) : Prop :=
  match event with
  | .ok name => { parent := target.directory, name := name } ∉ s.deployed
  | .fails => True

def State.mayGo (u : Setup) (s : State) (event : Event) : Phase → Prop
  | .judging (f :: _) _ => f.tripped = false → ¬ s.misjudges f
  | .creating (target :: _) _ => event.fresh s target
  | .sending made _ => made.incident.tamper = .encrypted →
    made.incident.folder ∈ s.harmedFolders →
      s.channel.length < u.queue ∨ Tells (s.reported ++ s.channel) made.incident.folder
  | _ => True

def State.mayCheck (s : State) (path : Path) : Phase → Prop
  | .watching w => ∀ f ∈ w.manifest, f.tripped = false → f.path = path → ¬ s.misjudges f
  | _ => True

def State.Keeps (u : Setup) (s : State) : Act → Prop
  | .go event _ => s.mayGo u event s.phase
  | .check path _ => s.mayCheck path s.phase
  | .stop => ∀ path ∈ s.harmedFolders, Tells s.reported path ∨ watches s.saved path
  | .change path c => path ∉ (s.change path c).harmedFolders ∨ Tells s.told path ∨
      watches s.manifest path
  | .start _ | .receive => True

instance (incidents : List Made) (path : Path) : Decidable (Tells incidents path) :=
  inferInstanceAs (Decidable (∃ made ∈ incidents, _ ∧ _))

instance (s : State) (f : DecoyFolder) : Decidable (s.misjudges f) :=
  inferInstanceAs (Decidable (_ ∧ _))

instance (event : Event) (s : State) (target : CanaryTarget) : Decidable (event.fresh s target) :=
  match event with
  | .ok _ => inferInstanceAs (Decidable (_ ∉ s.deployed))
  | .fails => isTrue trivial

instance (u : Setup) (s : State) (event : Event) (phase : Phase) :
    Decidable (s.mayGo u event phase) :=
  match phase with
  | .judging (f :: _) _ => inferInstanceAs (Decidable (f.tripped = false → ¬ s.misjudges f))
  | .creating (target :: _) _ => inferInstanceAs (Decidable (event.fresh s target))
  | .sending made _ => inferInstanceAs (Decidable (made.incident.tamper = .encrypted →
      made.incident.folder ∈ s.harmedFolders →
        s.channel.length < u.queue ∨ Tells (s.reported ++ s.channel) made.incident.folder))
  | .judging [] _ | .creating [] _ | .stopped | .saving _ | .returning _ | .watching _
  | .marked _ _ => isTrue trivial

instance (s : State) (path : Path) (phase : Phase) : Decidable (s.mayCheck path phase) :=
  match phase with
  | .watching w => inferInstanceAs (Decidable
      (∀ f ∈ w.manifest, f.tripped = false → f.path = path → ¬ s.misjudges f))
  | .stopped | .judging _ _ | .creating _ _ | .saving _ | .returning _ | .marked _ _
  | .sending _ _ => isTrue trivial

instance (u : Setup) (s : State) (act : Act) : Decidable (s.Keeps u act) :=
  match act with
  | .go event _ => inferInstanceAs (Decidable (s.mayGo u event s.phase))
  | .check path _ => inferInstanceAs (Decidable (s.mayCheck path s.phase))
  | .stop => inferInstanceAs (Decidable (∀ path ∈ s.harmedFolders, _ ∨ _))
  | .change path c => inferInstanceAs (Decidable (path ∉ (s.change path c).harmedFolders ∨ _ ∨ _))
  | .start _ | .receive => isTrue trivial

/-! What is looked at and what is seen. -/

theorem look_intact {dir : Option Dir} {file : DecoyFile} (intact : look dir file = .intact) :
    ∃ d, dir = some d ∧ d.searchable ∧
      d.entries.lookup file.name = some (.file file.hash true) := by
  unfold look at intact
  cases dir with
  | none => cases intact
  | some d =>
    by_cases searchable : d.searchable
    · cases found : d.entries.lookup file.name with
      | none => simp [searchable, found] at intact
      | some entry =>
        cases entry with
        | other => simp [searchable, found] at intact
        | file content readable =>
          simp [searchable, found] at intact
          exact ⟨d, rfl, searchable, by rw [found, intact.1, intact.2]⟩
    · simp [searchable] at intact

theorem look_of_intact {folder : DecoyFolder} {dir : Option Dir} (intact : Intact folder dir)
    {file : DecoyFile} (listed : file ∈ folder.files) : look dir file = .intact := by
  obtain ⟨d, rfl, searchable, same⟩ := intact
  simp [look, searchable, same file listed]

theorem found_of_intact {folder : DecoyFolder} {dir : Option Dir} (intact : Intact folder dir)
    {what : Look} (other : what ≠ .intact) : folder.found dir what = [] := by
  rw [DecoyFolder.found, List.map_eq_nil_iff, List.filter_eq_nil_iff]
  intro file listed
  rw [look_of_intact intact listed, decide_eq_true_eq]
  exact other.symm

/-- A folder found as deployed is not reported. -/
theorem judge_intact {folder : DecoyFolder} {dir : Option Dir} (intact : Intact folder dir)
    (now : Nat) : judge now folder dir = none := by
  simp [judge, found_of_intact intact, verdict]

/-- A folder is taken for intact where each decoy is. -/
theorem judge_none {folder : DecoyFolder} {dir : Option Dir} {now : Nat}
    (none : judge now folder dir = none) {file : DecoyFile} (listed : file ∈ folder.files) :
    look dir file = .intact := by
  rw [judge, Option.map_eq_none_iff, verdict] at none
  split at none
  · cases none
  · rename_i notEncrypted
    split at none
    · cases none
    · rename_i notRemoved
      rw [not_or] at notEncrypted
      have modified := not_not.mp notEncrypted.1
      have missing := not_not.mp notRemoved
      rw [DecoyFolder.found, List.map_eq_nil_iff, List.filter_eq_nil_iff] at modified missing
      have notModified := modified file listed
      have notMissing := missing file listed
      rw [decide_eq_true_eq] at notModified notMissing
      cases found : look dir file with
      | intact => rfl
      | modified => exact absurd found notModified
      | missing => exact absurd found notMissing

theorem judge_tamper (now : Nat) (folder : DecoyFolder) (dir : Option Dir) :
    (judge now folder dir).map CanaryIncident.tamper =
      (judge 0 folder dir).map CanaryIncident.tamper := by
  simp only [judge, Option.map_map, Function.comp_def]

theorem judge_folder {now : Nat} {folder : DecoyFolder} {dir : Option Dir}
    {incident : CanaryIncident} (made : judge now folder dir = some incident) :
    incident.folder = folder.path := by
  obtain ⟨tamper, _, rfl⟩ := Option.map_eq_some_iff.mp made
  rfl

/-! What every run keeps. -/

def parents (manifest : List DecoyFolder) : List String := manifest.map fun f => f.path.parent

/- The folders of the manifest that the running agent has judged. -/
def Phase.judged : Phase → List DecoyFolder
  | .stopped => []
  | .judging _ d | .creating _ d | .saving d | .returning d => d.manifest
  | .watching w | .marked _ w | .sending _ w => w.manifest

def Deploying.Covers (d : Deploying) (left : List CanaryTarget) : Prop :=
  (∀ f ∈ d.manifest, f.tripped = false) ∧
    ∀ target ∈ d.targets, target ∈ left ∨ target.directory ∈ d.skipped ∨
      target.directory ∈ parents d.manifest

def Watching.Covers (w : Watching) : Prop :=
  (w.folders.map Path.parent).Nodup ∧
    ∀ target ∈ w.targets, target.directory ∈ w.skipped ∨
      target.directory ∈ w.folders.map Path.parent

/- Each target that was come to was skipped or has a folder. -/
def Phase.Covers : Phase → Prop
  | .stopped => True
  | .judging _ d => d.Covers d.targets
  | .creating left d => d.Covers left
  | .saving d | .returning d => d.Covers []
  | .watching w | .marked _ w | .sending _ w => w.Covers

structure Inv (s : State) : Prop where
  known : ∀ f ∈ s.manifest, s.deployed.lookup f.path = some f.files
  savedKnown : ∀ f ∈ s.saved, s.deployed.lookup f.path = some f.files
  parents : (parents s.manifest).Nodup
  savedParents : (Canary.parents s.saved).Nodup
  seen : ∀ path name, (path, name) ∈ s.harmed → ∃ files file,
    s.deployed.lookup path = some files ∧ decoy files name = some file ∧
      ∀ d, s.disk.lookup path = some d →
        ∀ readable, d.entries.lookup name ≠ some (.file file.hash readable)
  safe : ∀ path ∈ s.harmedFolders, Tells s.told path ∨ watches s.manifest path
  looked : ∀ f ∈ s.phase.judged, f.tripped = false → f.path ∉ s.changed →
    f.path ∉ s.harmedFolders
  intact : ∀ made ∈ s.told, ¬ Intact made.folder made.seen
  covers : s.phase.Covers

/-- A folder in which a decoy was changed or renamed is reported as encrypted where it is judged
    and not taken for removed. -/
theorem Inv.judged {s : State} (inv : Inv s) {f : DecoyFolder} (listed : f ∈ s.manifest)
    (harmed : f.path ∈ s.harmedFolders) (right : ¬ s.misjudges f) (now : Nat) :
    ∃ incident, judge now f (s.disk.lookup f.path) = some incident ∧
      incident.tamper = .encrypted := by
  cases made : judge now f (s.disk.lookup f.path) with
  | none =>
    obtain ⟨⟨path, name⟩, there, rfl⟩ := List.mem_map.mp harmed
    obtain ⟨files, file, deployed, isDecoy, changed⟩ := inv.seen f.path name there
    rw [inv.known f listed] at deployed
    cases deployed
    have named : file.name = name := by simpa using List.find?_some isDecoy
    obtain ⟨d, found, _, same⟩ := look_intact (judge_none made (List.mem_of_find?_eq_some isDecoy))
    exact absurd (named ▸ same) (changed d found true)
  | some incident =>
    refine ⟨incident, rfl, ?_⟩
    cases tamper : incident.tamper with
    | encrypted => rfl
    | removed =>
      refine absurd ⟨harmed, ?_⟩ right
      rw [← judge_tamper now, made, Option.map_some, tamper]

/-- A step of the agent that leaves the folders and the manifest on the disk as they are. -/
theorem Inv.moved {s s' : State} (inv : Inv s) (disk : s'.disk = s.disk) (saved : s'.saved = s.saved)
    (deployed : s'.deployed = s.deployed) (harmed : s'.harmed = s.harmed)
    (manifest : List.Sublist (s'.manifest.map fun f => (f.path, f.files))
      (s.manifest.map fun f => (f.path, f.files)))
    (safe : ∀ path ∈ s.harmedFolders, Tells s'.told path ∨ watches s'.manifest path)
    (looked : ∀ f ∈ s'.phase.judged, f.tripped = false → f.path ∉ s'.changed →
      f.path ∉ s.harmedFolders)
    (intact : ∀ made ∈ s'.told, ¬ Intact made.folder made.seen) (covers : s'.phase.Covers) :
    Inv s' where
  known := by
    intro f listed
    rw [deployed]
    have there := manifest.subset (List.mem_map.mpr ⟨f, listed, rfl⟩)
    obtain ⟨g, known, same⟩ := List.mem_map.mp there
    have found := inv.known g known
    rw [(Prod.mk.inj same).1, (Prod.mk.inj same).2] at found
    exact found
  savedKnown := by
    rw [deployed, saved]
    exact inv.savedKnown
  parents := by
    have sub := manifest.map fun entry => entry.1.parent
    rw [List.map_map, List.map_map] at sub
    exact inv.parents.sublist sub
  savedParents := by
    rw [saved]
    exact inv.savedParents
  seen := by
    rw [deployed, disk, harmed]
    exact inv.seen
  safe path there := safe path (by rwa [State.harmedFolders, harmed] at there)
  looked f listed live same := by
    rw [State.harmedFolders, harmed]
    exact looked f listed live same
  intact := intact
  covers := covers

theorem tells_append {a b : List Made} {path : Path} :
    Tells (a ++ b) path ↔ Tells a path ∨ Tells b path := by
  simp only [Tells, List.mem_append, or_and_right, exists_or]

theorem tells_of_subset {a b : List Made} (within : a ⊆ b) {path : Path} (tells : Tells a path) :
    Tells b path := by
  obtain ⟨made, listed, about⟩ := tells
  exact ⟨made, within listed, about⟩

theorem watches_iff {manifest : List DecoyFolder} {path : Path} :
    watches manifest path = true ↔ ∃ f ∈ manifest, f.tripped = false ∧ f.path = path := by
  simp [watches, List.any_eq_true]

theorem watches_remove {before after : List DecoyFolder} {f : DecoyFolder} {path : Path}
    (watched : watches (before ++ f :: after) path) (other : f.tripped = false → f.path ≠ path) :
    watches (before ++ after) path := by
  obtain ⟨g, listed, live, same⟩ := watches_iff.mp watched
  refine watches_iff.mpr ⟨g, ?_, live, same⟩
  rcases List.mem_append.mp listed with first | rest
  · exact List.mem_append_left _ first
  · rcases List.mem_cons.mp rest with rfl | rest
    · exact absurd same (other live)
    · exact List.mem_append_right _ rest

theorem not_changed_lookedAt {s : State} {path other : Path}
    (same : other ∉ (s.lookedAt path).changed) : other = path ∨ other ∉ s.changed := by
  by_cases here : other = path
  · exact Or.inl here
  · refine Or.inr fun listed => same ?_
    exact List.mem_filter.mpr ⟨listed, decide_eq_true here⟩

theorem deploying_mono {d : Deploying} {left left' : List CanaryTarget} (covers : d.Covers left)
    (still : ∀ target ∈ left, target ∈ left' ∨ target.directory ∈ d.skipped ∨
      target.directory ∈ parents d.manifest) : d.Covers left' := by
  refine ⟨covers.1, fun target listed => ?_⟩
  rcases covers.2 target listed with left | done
  · exact still target left
  · exact Or.inr done

/-! `deploy`, the folders of the manifest one after the other. -/

section Judging

variable {s : State} {f : DecoyFolder} {left : List DecoyFolder} {d : Deploying}

theorem inv_judgeNext (inv : Inv s) (phase : s.phase = .judging (f :: left) d)
    (right : f.tripped = false → ¬ s.misjudges f) (now : Nat) :
    Inv (s.judgeNext now f left d) := by
  have manifest : s.manifest = d.manifest ++ f :: left := by rw [State.manifest, phase]
  have told : s.told = s.reported ++ s.channel ++ d.incidents := by
    rw [State.told, phase]
    rfl
  have safe := inv.safe
  have looked := inv.looked
  have intact := inv.intact
  have covers := inv.covers
  rw [phase] at looked covers
  rw [told] at safe intact
  rw [manifest] at safe
  have dropped : List.Sublist ((d.manifest ++ left).map fun f => (f.path, f.files))
      (s.manifest.map fun f => (f.path, f.files)) := by
    rw [manifest]
    exact ((List.sublist_cons_self f left).append_left d.manifest).map _
  unfold State.judgeNext
  cases tripped : f.tripped with
  | true =>
    rw [if_pos rfl]
    refine inv.moved rfl rfl rfl rfl dropped (fun path harmed => ?_) looked intact covers
    exact (safe path harmed).imp_right fun watched =>
      watches_remove watched fun live => by rw [tripped] at live; cases live
  | false =>
    rw [if_neg Bool.false_ne_true]
    have there : f ∈ s.manifest := by
      rw [manifest]
      exact List.mem_append_right _ List.mem_cons_self
    have judged := fun harmed => inv.judged there harmed (right tripped) now
    have apart : ∀ g ∈ d.manifest, g.path ≠ f.path := by
      intro g listed same
      have nodup := inv.parents
      rw [manifest, parents, List.map_append, List.map_cons, List.nodup_append] at nodup
      exact nodup.2.2 _ (List.mem_map.mpr ⟨g, listed, rfl⟩) _ List.mem_cons_self
        (congrArg Path.parent same)
    have lookedApart : ∀ g ∈ d.manifest, g.tripped = false →
        g.path ∉ (s.lookedAt f.path).changed → g.path ∉ s.harmedFolders :=
      fun g listed live same =>
        looked g listed live ((not_changed_lookedAt same).resolve_left (apart g listed))
    dsimp only
    cases made : judge now f (s.disk.lookup f.path) with
    | none =>
      have unharmed : f.path ∉ s.harmedFolders := by
        intro harmed
        obtain ⟨_, some, _⟩ := judged harmed
        rw [made] at some
        cases some
      have list : d.manifest ++ [f] ++ left = d.manifest ++ f :: left := (List.append_cons ..).symm
      refine inv.moved rfl rfl rfl rfl ?_ (fun path harmed => ?_) (fun g listed live same => ?_)
        intact ⟨fun g listed => ?_, fun target listed => ?_⟩
      · change List.Sublist ((d.manifest ++ [f] ++ left).map _) _
        rw [list, manifest]
      · change Tells (s.reported ++ s.channel ++ d.incidents) path ∨
          watches (d.manifest ++ [f] ++ left) path
        rw [list]
        exact safe path harmed
      · rcases List.mem_append.mp listed with before | here
        · exact lookedApart g before live same
        · rw [List.mem_singleton.mp here]
          exact unharmed
      · rcases List.mem_append.mp listed with before | here
        · exact covers.1 g before
        · rw [List.mem_singleton.mp here]
          exact tripped
      · refine (covers.2 target listed).imp_right (Or.imp_right fun has => ?_)
        rw [parents, List.map_append]
        exact List.mem_append_left _ has
    | some incident =>
      dsimp only
      cases tamper : incident.tamper with
      | encrypted =>
        rw [if_pos rfl]
        refine inv.moved rfl rfl rfl rfl dropped (fun path harmed => ?_) lookedApart ?_ covers
        · by_cases here : f.path = path
          · refine Or.inl (tells_append.mpr (Or.inr (tells_append.mpr (Or.inr ?_))))
            exact ⟨_, List.mem_singleton_self _, (judge_folder made).trans here, rfl⟩
          · refine (safe path harmed).imp (fun tells => ?_) fun watched =>
              watches_remove watched fun _ => here
            refine tells_append.mpr ((tells_append.mp tells).imp_right fun tells => ?_)
            exact tells_of_subset (List.subset_append_left _ _) tells
        · intro m listed
          rcases List.mem_append.mp listed with before | coming
          · exact intact m (List.mem_append_left _ before)
          rcases List.mem_append.mp coming with before | here
          · exact intact m (List.mem_append_right _ before)
          · rw [List.mem_singleton.mp here]
            intro same
            rw [judge_intact same] at made
            cases made
      | removed =>
        rw [if_neg nofun]
        refine inv.moved rfl rfl rfl rfl dropped (fun path harmed => ?_) lookedApart intact covers
        refine (safe path harmed).imp_right fun watched => watches_remove watched ?_
        rintro _ rfl
        obtain ⟨_, same, encrypted⟩ := judged harmed
        rw [made] at same
        cases same
        rw [tamper] at encrypted
        cases encrypted

end Judging

/-! `deploy`, its targets one after the other. -/

section Creating

variable {u : Setup} {s : State} {target : CanaryTarget} {left : List CanaryTarget} {d : Deploying}

theorem covered_iff {manifest : List DecoyFolder} {target : CanaryTarget} :
    covered manifest target = true ↔ target.directory ∈ parents manifest := by
  simp [covered, parents, List.any_eq_true]

theorem parents_append (a b : List DecoyFolder) : parents (a ++ b) = parents a ++ parents b :=
  List.map_append

/-- A folder is created: nothing was known of it. -/
theorem inv_created (inv : Inv s) (phase : s.phase = .creating (target :: left) d)
    (uncovered : covered d.manifest target = false) {folder : DecoyFolder}
    (live : folder.tripped = false) (place : folder.path.parent = target.directory)
    (fresh : folder.path ∉ s.deployed) :
    Inv { s with
      phase := .creating left { d with manifest := d.manifest ++ [folder] }
      disk := s.disk.insert folder.path folder.written
      deployed := s.deployed.insert folder.path folder.files } := by
  have manifest : s.manifest = d.manifest := by rw [State.manifest, phase]
  have told : s.told = s.reported ++ s.channel ++ d.incidents := by
    rw [State.told, phase]
    rfl
  have known := inv.known
  have safe := inv.safe
  have looked := inv.looked
  have covers := inv.covers
  have distinct := inv.parents
  rw [manifest] at known safe distinct
  rw [told] at safe
  rw [phase] at looked covers
  have other : ∀ {path : Path} {files : List DecoyFile}, s.deployed.lookup path = some files →
      path ≠ folder.path := fun found same => fresh (same ▸ mem_iff_lookup.mpr ⟨_, found⟩)
  have still : ∀ {path : Path} {files : List DecoyFile}, s.deployed.lookup path = some files →
      (s.deployed.insert folder.path folder.files).lookup path = some files :=
    fun found => (lookup_insert_eq _ _ _ _).trans ((if_neg (other found)).trans found)
  have unharmed : folder.path ∉ s.harmedFolders := by
    intro harmed
    obtain ⟨⟨path, name⟩, there, same⟩ := List.mem_map.mp harmed
    obtain ⟨_, _, deployed, _⟩ := inv.seen path name there
    exact other deployed same
  refine ⟨fun f listed => ?_, fun f listed => still (inv.savedKnown f listed), ?_,
    inv.savedParents, fun path name harmed => ?_, fun path harmed => ?_, fun f listed => ?_, ?_,
    fun f listed => ?_, fun t listed => ?_⟩
  · rcases List.mem_append.mp listed with before | here
    · exact still (known f before)
    · rw [List.mem_singleton.mp here]
      exact (lookup_insert_eq _ _ _ _).trans (if_pos rfl)
  · change (parents (d.manifest ++ [folder])).Nodup
    rw [parents_append, List.nodup_append]
    refine ⟨distinct, List.nodup_singleton _, fun a before b here same => ?_⟩
    have parent : a = target.directory := same.trans ((List.mem_singleton.mp here).trans place)
    exact Bool.eq_false_iff.mp uncovered (covered_iff.mpr (parent ▸ before))
  · obtain ⟨files, file, deployed, isDecoy, changed⟩ := inv.seen path name harmed
    refine ⟨files, file, still deployed, isDecoy, fun dir found => changed dir ?_⟩
    exact ((lookup_insert_eq _ _ _ _).trans (if_neg (other deployed))).symm.trans found
  · refine (safe path harmed).imp_right fun watched => ?_
    obtain ⟨f, before, watched⟩ := watches_iff.mp watched
    exact watches_iff.mpr ⟨f, List.mem_append_left _ before, watched⟩
  · rcases List.mem_append.mp listed with before | here
    · exact looked f before
    · rw [List.mem_singleton.mp here]
      exact fun _ _ => unharmed
  · intro made listed
    exact inv.intact made (told ▸ listed)
  · rcases List.mem_append.mp listed with before | here
    · exact covers.1 f before
    · rw [List.mem_singleton.mp here]
      exact live
  · change t ∈ left ∨ t.directory ∈ d.skipped ∨ t.directory ∈ parents (d.manifest ++ [folder])
    rw [parents_append]
    rcases covers.2 t listed with due | skipped | has
    · rcases List.mem_cons.mp due with rfl | later
      · refine Or.inr (Or.inr (List.mem_append_right _ ?_))
        exact List.mem_singleton.mpr place.symm
      · exact Or.inl later
    · exact Or.inr (Or.inl skipped)
    · exact Or.inr (Or.inr (List.mem_append_left _ has))

theorem inv_createNext (inv : Inv s) (phase : s.phase = .creating (target :: left) d)
    (event : Event) (fresh : event.fresh s target) (now : Nat) : Inv (s.createNext u now event target left d) := by
  have manifest : s.manifest = d.manifest := by rw [State.manifest, phase]
  have told : s.told = s.reported ++ s.channel ++ d.incidents := by
    rw [State.told, phase]
    rfl
  have safe := inv.safe
  have looked := inv.looked
  have intact := inv.intact
  have covers := inv.covers
  rw [manifest] at safe
  rw [told] at safe intact
  rw [phase] at looked covers
  have same : List.Sublist (d.manifest.map fun f => (f.path, f.files))
      (s.manifest.map fun f => (f.path, f.files)) := by rw [manifest]
  have skipped : Inv { s with
      phase := .creating left { d with skipped := d.skipped ++ [target.directory] } } := by
    refine inv.moved rfl rfl rfl rfl same safe looked intact ⟨covers.1, fun t listed => ?_⟩
    rcases covers.2 t listed with due | skipped | has
    · rcases List.mem_cons.mp due with rfl | later
      · exact Or.inr (Or.inl (List.mem_append_right _ (List.mem_singleton_self _)))
      · exact Or.inl later
    · exact Or.inr (Or.inl (List.mem_append_left _ skipped))
    · exact Or.inr (Or.inr has)
  unfold State.createNext
  cases cover : covered d.manifest target with
  | true =>
    rw [if_pos rfl]
    refine inv.moved rfl rfl rfl rfl same safe looked intact (deploying_mono covers fun t due => ?_)
    rcases List.mem_cons.mp due with rfl | later
    · exact Or.inr (Or.inr (covered_iff.mp cover))
    · exact Or.inl later
  | false =>
    rw [if_neg Bool.false_ne_true]
    cases event with
    | fails => exact skipped
    | ok name =>
      dsimp only
      split
      · exact skipped
      · exact inv_created inv phase cover rfl rfl fresh

end Creating

/-! The other steps of the agent. -/

section Agent

variable {u : Setup} {s : State} {d : Deploying} {w : Watching} {made : Made}

theorem inv_started (inv : Inv s) (phase : s.phase = .stopped) (targets : List CanaryTarget) :
    Inv (s.started targets) := by
  have manifest : s.manifest = s.saved := by rw [State.manifest, phase]
  have told : s.told = s.reported ++ s.channel ++ [] := by
    rw [State.told, phase]
    rfl
  have safe := inv.safe
  have intact := inv.intact
  rw [manifest] at safe
  rw [told] at safe intact
  refine inv.moved rfl rfl rfl rfl (by rw [manifest]; rfl) safe nofun intact ⟨nofun, ?_⟩
  exact fun target listed => Or.inl listed

/-- The manifest is saved, or it could not be: in memory nothing changes. -/
theorem inv_saved (inv : Inv s) {next : Phase} (event : Event)
    (manifest : ∀ saved, State.manifest { s with saved := saved, phase := next } = s.manifest)
    (coming : next.coming = s.phase.coming) (judged : next.judged = s.phase.judged)
    (covers : next.Covers) : Inv { s.save event s.manifest with phase := next } := by
  have told : ∀ saved, State.told { s with saved := saved, phase := next } = s.told := by
    intro saved
    rw [State.told, coming]
    rfl
  have saves : ∀ saved, (∀ f ∈ saved, s.deployed.lookup f.path = some f.files) →
      (Canary.parents saved).Nodup → Inv { s with saved := saved, phase := next } := by
    intro saved known distinct
    exact
      { known := (manifest saved).symm ▸ inv.known
        savedKnown := known
        parents := (manifest saved).symm ▸ inv.parents
        savedParents := distinct
        seen := inv.seen
        safe := by
          rw [told, manifest]
          exact inv.safe
        looked := judged.symm ▸ inv.looked
        intact := by
          rw [told]
          exact inv.intact
        covers := covers }
  cases event with
  | fails => exact saves s.saved inv.savedKnown inv.savedParents
  | ok name => exact saves s.manifest inv.known inv.parents

theorem active_live {manifest : List DecoyFolder} (live : ∀ f ∈ manifest, f.tripped = false) :
    (active manifest).map Path.parent = parents manifest := by
  have all : manifest.filter (fun f => !f.tripped) = manifest :=
    List.filter_eq_self.mpr fun f listed => by rw [live f listed]; rfl
  rw [active, all, List.map_map]
  rfl

theorem inv_returned (inv : Inv s) (phase : s.phase = .returning d) :
    Inv { s with
      phase := .watching
        { targets := d.targets
          skipped := d.skipped
          folders := active d.manifest
          manifest := d.manifest }
      reported := s.reported ++ d.incidents } := by
  have manifest : s.manifest = d.manifest := by rw [State.manifest, phase]
  have told : s.told = s.reported ++ s.channel ++ d.incidents := by
    rw [State.told, phase]
    rfl
  have safe := inv.safe
  have looked := inv.looked
  have covers := inv.covers
  have distinct := inv.parents
  rw [manifest] at safe distinct
  rw [phase] at looked covers
  have within : s.told ⊆ s.reported ++ d.incidents ++ s.channel ++ [] := by
    rw [told, List.append_nil]
    intro m listed
    simp only [List.mem_append] at listed ⊢
    exact or_right_comm.mp listed
  have without : s.reported ++ d.incidents ++ s.channel ++ [] ⊆ s.told := by
    rw [told, List.append_nil]
    intro m listed
    simp only [List.mem_append] at listed ⊢
    exact or_right_comm.mp listed
  refine inv.moved rfl rfl rfl rfl (by rw [manifest]; rfl)
    (fun path harmed => (safe path harmed).imp_left (tells_of_subset within)) looked
    (fun m listed => inv.intact m (without listed)) ⟨?_, fun target listed => ?_⟩
  · rw [active_live covers.1]
    exact distinct
  · rw [active_live covers.1]
    exact (covers.2 target listed).resolve_left nofun

/-- The incident is sent, or dropped: then it is about no folder that needs it. -/
theorem inv_sent (inv : Inv s) (phase : s.phase = .sending made w)
    (may : made.incident.tamper = .encrypted → made.incident.folder ∈ s.harmedFolders →
      s.channel.length < u.queue ∨ Tells (s.reported ++ s.channel) made.incident.folder) :
    Inv { s with
      phase := .watching w
      channel := if s.channel.length < u.queue then s.channel ++ [made] else s.channel } := by
  have manifest : s.manifest = w.manifest := by rw [State.manifest, phase]
  have told : s.told = s.reported ++ s.channel ++ [made] := by
    rw [State.told, phase]
    rfl
  have safe := inv.safe
  have looked := inv.looked
  have covers := inv.covers
  rw [manifest] at safe
  rw [told] at safe
  rw [phase] at looked covers
  have same : List.Sublist (w.manifest.map fun f => (f.path, f.files))
      (s.manifest.map fun f => (f.path, f.files)) := by rw [manifest]
  by_cases room : s.channel.length < u.queue
  · have list : s.reported ++ (s.channel ++ [made]) ++ [] = s.told := by
      rw [told, List.append_nil, List.append_assoc]
    refine inv.moved rfl rfl rfl rfl same (fun path harmed => ?_) looked (fun m listed => ?_) covers
    · rw [if_pos room, State.told]
      change Tells (s.reported ++ (s.channel ++ [made]) ++ []) path ∨ _
      rw [list, told]
      exact safe path harmed
    · rw [if_pos room] at listed
      exact inv.intact m (list ▸ listed)
  · refine inv.moved rfl rfl rfl rfl same (fun path harmed => ?_) looked (fun m listed => ?_) covers
    · rw [if_neg room]
      refine (safe path harmed).imp_left fun tells => ?_
      change Tells (s.reported ++ s.channel ++ []) path
      rw [List.append_nil]
      rcases tells_append.mp tells with before | ⟨m, here, rfl, encrypted⟩
      · exact before
      · cases List.mem_singleton.mp here
        exact (may encrypted harmed).resolve_left room
    · rw [if_neg room] at listed
      refine inv.intact m (told ▸ List.mem_append_left _ ?_)
      exact (List.append_nil (s.reported ++ s.channel)) ▸ listed

theorem inv_stopped (inv : Inv s)
    (may : ∀ path ∈ s.harmedFolders, Tells s.reported path ∨ watches s.saved path) :
    Inv { s with phase := .stopped, channel := [] } where
  known := inv.savedKnown
  savedKnown := inv.savedKnown
  parents := inv.savedParents
  savedParents := inv.savedParents
  seen := inv.seen
  safe path harmed := (may path harmed).imp_left fun tells =>
    tells_append.mpr (Or.inl (tells_append.mpr (Or.inl tells)))
  looked := nofun
  intact m listed := by
    refine inv.intact m (List.mem_append_left _ (List.mem_append_left _ ?_))
    exact (List.append_nil s.reported) ▸ (List.append_nil (s.reported ++ [])) ▸ listed
  covers := trivial

theorem inv_received (inv : Inv s) {rest : List Made} (channel : s.channel = made :: rest) :
    Inv { s with channel := rest, reported := s.reported ++ [made] } := by
  have told : s.reported ++ [made] ++ rest ++ s.phase.coming = s.told := by
    rw [State.told, channel, List.append_assoc s.reported]
    rfl
  refine inv.moved rfl rfl rfl rfl (List.Sublist.refl _) (fun path harmed => ?_) inv.looked
    (fun m listed => inv.intact m (told ▸ listed)) inv.covers
  change Tells (s.reported ++ [made] ++ rest ++ s.phase.coming) path ∨ _
  rw [told]
  exact inv.safe path harmed

end Agent

/-! `check`. -/

theorem trip_entries (path : Path) (manifest : List DecoyFolder) :
    (trip path manifest).map (fun f => (f.path, f.files)) =
      manifest.map fun f => (f.path, f.files) := by
  induction manifest with
  | nil => rfl
  | cons f manifest ih =>
    unfold trip
    split
    · rfl
    · rw [List.map_cons, List.map_cons, ih]

/-- What is left unreported after a folder was marked, where each directory has one. -/
theorem mem_trip {path : Path} {manifest : List DecoyFolder} (distinct : (parents manifest).Nodup)
    {g : DecoyFolder} (listed : g ∈ trip path manifest) (live : g.tripped = false) :
    g ∈ manifest ∧ g.path ≠ path := by
  induction manifest with
  | nil => cases listed
  | cons f manifest ih =>
    obtain ⟨apart, distinct⟩ := List.nodup_cons.mp distinct
    unfold trip at listed
    split at listed
    · rename_i here
      rcases List.mem_cons.mp listed with rfl | later
      · cases live
      · refine ⟨List.mem_cons_of_mem _ later, fun same => apart ?_⟩
        exact List.mem_map.mpr ⟨g, later, congrArg Path.parent (same.trans here.2.symm)⟩
    · rename_i other
      rcases List.mem_cons.mp listed with rfl | later
      · exact ⟨List.mem_cons_self, fun same => other ⟨live, same⟩⟩
      · exact (ih distinct later).imp_left (List.mem_cons_of_mem _)

theorem watches_trip {path other : Path} {manifest : List DecoyFolder} (apart : other ≠ path)
    (watched : watches manifest other) : watches (trip path manifest) other := by
  obtain ⟨g, listed, live, rfl⟩ := watches_iff.mp watched
  refine watches_iff.mpr ⟨g, ?_, live, rfl⟩
  clear watched
  induction manifest with
  | nil => cases listed
  | cons f manifest ih =>
    unfold trip
    split
    · rename_i here
      rcases List.mem_cons.mp listed with rfl | later
      · exact absurd here.2 apart
      · exact List.mem_cons_of_mem _ later
    · rcases List.mem_cons.mp listed with rfl | later
      · exact List.mem_cons_self
      · exact List.mem_cons_of_mem _ (ih later)

section Checking

variable {s : State} {w : Watching} {path : Path}

/-- A folder was looked at, and none is to be reported. -/
theorem inv_lookedAt (inv : Inv s) (phase : s.phase = .watching w)
    (unharmed : ∀ f ∈ w.manifest, f.tripped = false → f.path = path → path ∉ s.harmedFolders) :
    Inv (s.lookedAt path) := by
  have looked := inv.looked
  rw [phase] at looked
  refine inv.moved rfl rfl rfl rfl (List.Sublist.refl _) inv.safe (fun f listed live same => ?_)
    inv.intact inv.covers
  have listed : f ∈ w.manifest := by
    change f ∈ s.phase.judged at listed
    rwa [phase] at listed
  rcases not_changed_lookedAt same with here | other
  · rw [here]
    exact unharmed f listed live here
  · exact looked f listed live other

theorem inv_marked (inv : Inv s) (phase : s.phase = .watching w) {f : DecoyFolder}
    (here : f.path = path) {incident : CanaryIncident} {now : Nat}
    (made : judge now f (s.disk.lookup f.path) = some incident)
    (right : path ∈ s.harmedFolders → incident.tamper = .encrypted) :
    Inv { s.lookedAt path with
      phase := .marked { folder := f, seen := s.disk.lookup f.path, incident := incident }
        { w with manifest := trip path w.manifest } } := by
  have manifest : s.manifest = w.manifest := by rw [State.manifest, phase]
  have told : s.told = s.reported ++ s.channel ++ [] := by
    rw [State.told, phase]
    rfl
  have safe := inv.safe
  have looked := inv.looked
  have covers := inv.covers
  have distinct := inv.parents
  rw [manifest] at safe distinct
  rw [told] at safe
  rw [phase] at looked covers
  refine inv.moved rfl rfl rfl rfl ?_ (fun other harmed => ?_) (fun g listed live same => ?_)
    (fun m listed => ?_) covers
  · change List.Sublist ((trip path w.manifest).map _) _
    rw [trip_entries, manifest]
  · by_cases same : other = path
    · refine Or.inl (tells_append.mpr (Or.inr ⟨_, List.mem_singleton_self _, ?_, ?_⟩))
      · exact (judge_folder made).trans (here.trans same.symm)
      · exact right (same ▸ harmed)
    · refine (safe other harmed).imp (fun tells => ?_) (watches_trip same)
      exact tells_append.mpr (Or.inl ((List.append_nil (s.reported ++ s.channel)) ▸ tells))
  · obtain ⟨listed, apart⟩ := mem_trip distinct listed live
    exact looked g listed live ((not_changed_lookedAt same).resolve_left apart)
  · rcases List.mem_append.mp listed with before | new
    · exact inv.intact m (told ▸ List.mem_append_left _ before)
    · rw [List.mem_singleton.mp new]
      intro intact
      rw [judge_intact intact] at made
      cases made

theorem inv_check (inv : Inv s) (now : Nat) (right : s.mayCheck path s.phase) :
    Inv (s.check path now) := by
  unfold State.check
  split
  · rename_i w phase
    have manifest : s.manifest = w.manifest := by rw [State.manifest, phase]
    rw [phase] at right
    split
    · cases found : w.manifest.find? fun f => !f.tripped && decide (f.path = path) with
      | none =>
        refine inv_lookedAt inv phase fun f listed live here => ?_
        have unseen := List.find?_eq_none.mp found f listed
        rw [live, here] at unseen
        simp at unseen
      | some f =>
        have listed := List.mem_of_find?_eq_some found
        have matched := List.find?_some found
        rw [Bool.and_eq_true, Bool.not_eq_true', decide_eq_true_eq] at matched
        have judged := fun harmed =>
          inv.judged (manifest ▸ listed) harmed (right f listed matched.1 matched.2) now
        dsimp only
        cases made : judge now f (s.disk.lookup f.path) with
        | none =>
          refine inv_lookedAt inv phase fun _ _ _ _ harmed => ?_
          obtain ⟨_, some, _⟩ := judged (matched.2 ▸ harmed)
          rw [made] at some
          cases some
        | some incident =>
          refine inv_marked inv phase matched.2 made fun harmed => ?_
          obtain ⟨_, same, encrypted⟩ := judged (matched.2 ▸ harmed)
          rw [made] at same
          cases same
          exact encrypted
    · exact inv
  · exact inv

end Checking

/-! What other programs change. -/

/- A decoy is not there as it was deployed. -/
def Differs (files : List DecoyFile) (dir : Option Dir) (name : String) : Prop :=
  ∃ file, decoy files name = some file ∧
    ∀ d, dir = some d → ∀ readable, d.entries.lookup name ≠ some (.file file.hash readable)

section Changes

variable {path : Path} {files : List DecoyFile} {harmed : List (Path × String)}

theorem differs_harmPut {dir : Option Dir} {name : String} {entry : Entry}
    (others : ∀ other, other ≠ name → (path, other) ∈ harmed → Differs files dir other)
    (isDecoy : (path, name) ∈ harmed → (decoy files name).isSome)
    (here : ∀ d, dir = some d → d.entries.lookup name = some entry) {other : String}
    (still : (path, other) ∈ harmPut path files name entry harmed) : Differs files dir other := by
  unfold harmPut at still
  cases found : decoy files name with
  | none =>
    simp only [found] at still
    refine others other (fun same => ?_) still
    rw [same] at still
    have some := isDecoy still
    rw [found] at some
    cases some
  | some file =>
    by_cases same : other = name
    · subst same
      refine ⟨file, found, fun d there readable back => ?_⟩
      rw [here d there] at back
      cases back
      simp [found, putBack] at still
    · refine others other same ?_
      cases entry with
      | other => simpa only [found] using still
      | file content readable =>
        simp only [found] at still
        split at still
        · exact (List.mem_filter.mp still).1
        · refine (List.mem_cons.mp still).resolve_left fun new => same ?_
          exact (Prod.mk.inj new).2

theorem differs_change {dir : Option Dir} {c : Change}
    (before : ∀ name, (path, name) ∈ harmed → Differs files dir name) {name : String}
    (still : (path, name) ∈ c.harms path files dir harmed) :
    Differs files (c.apply dir) name := by
  -- a file that is not touched, in a folder that was there
  have same : ∀ {d d' : Dir} {other : String}, d'.entries.lookup other = d.entries.lookup other →
      Differs files (some d) other → Differs files (some d') other := by
    rintro d d' other same ⟨file, isDecoy, differs⟩
    refine ⟨file, isDecoy, fun _ there readable => ?_⟩
    cases there
    rw [same]
    exact differs d rfl readable
  have gone : ∀ {d' : Dir} {other : String}, d'.entries.lookup other = none →
      (decoy files other).isSome → Differs files (some d') other := by
    intro d' other none isDecoy
    obtain ⟨file, found⟩ := Option.isSome_iff_exists.mp isDecoy
    refine ⟨file, found, fun _ there readable => ?_⟩
    cases there
    rw [none]
    exact nofun
  have isDecoy : ∀ {other : String}, (path, other) ∈ harmed → (decoy files other).isSome := by
    intro other listed
    obtain ⟨file, found, _⟩ := before other listed
    exact found ▸ rfl
  have absent : ∀ {other : String}, (path, other) ∈ harmed → Differs files none other := by
    intro other listed
    obtain ⟨file, found, _⟩ := before other listed
    exact ⟨file, found, nofun⟩
  cases c with
  | put put entry =>
    refine differs_harmPut (fun other apart listed => ?_) isDecoy (fun d there => ?_) still
    · cases dir with
      | none =>
        exact gone ((lookup_insert_eq _ _ _ _).trans (if_neg apart)) (isDecoy listed)
      | some d =>
        exact same ((lookup_insert_eq _ _ _ _).trans (if_neg apart)) (before other listed)
    · cases dir with
      | none => cases there; exact (lookup_insert_eq _ _ _ _).trans (if_pos rfl)
      | some _ => cases there; exact (lookup_insert_eq _ _ _ _).trans (if_pos rfl)
  | remove removed =>
    cases dir with
    | none => exact absent still
    | some d =>
      by_cases here : name = removed
      · exact gone ((lookup_erase_eq _ _ _).trans (if_pos here)) (isDecoy still)
      · exact same ((lookup_erase_eq _ _ _).trans (if_neg here)) (before name still)
  | permit searchable listable =>
    cases dir with
    | none => exact absent still
    | some d => exact @same d _ name rfl (before name still)
  | removeFolder => exact absent still
  | rename old new =>
    cases dir with
    | none => exact absent still
    | some d =>
      cases found : d.entries.lookup old with
      | none =>
        simp only [Change.harms, Option.bind_some, found] at still
        simp only [Change.apply, found]
        exact before name still
      | some entry =>
        simp only [Change.harms, Option.bind_some, found] at still
        simp only [Change.apply, found]
        have listed : ∀ {other : String}, other ≠ old → (path, other) ∈
            (if (decoy files old).isSome ∧ old ≠ new then (path, old) :: harmed else harmed) →
            (path, other) ∈ harmed := by
          intro other apart there
          split at there
          · exact (List.mem_cons.mp there).resolve_left fun same => apart (Prod.mk.inj same).2
          · exact there
        refine differs_harmPut (fun other apart there => ?_) (fun there => ?_) (fun d there => ?_)
          still
        · by_cases here : other = old
          · subst here
            refine gone ?_ ?_
            · exact (lookup_insert_eq _ _ _ _).trans ((if_neg apart).trans
                ((lookup_erase_eq _ _ _).trans (if_pos rfl)))
            · split at there
              · rename_i isDecoy
                exact isDecoy.1
              · exact isDecoy there
          · refine same ?_ (before other (listed here there))
            exact (lookup_insert_eq _ _ _ _).trans ((if_neg apart).trans
              ((lookup_erase_eq _ _ _).trans (if_neg here)))
        · by_cases here : new = old
          · subst here
            rw [if_neg fun both => both.2 rfl] at there
            exact isDecoy there
          · exact isDecoy (listed here there)
        · cases there
          exact (lookup_insert_eq _ _ _ _).trans (if_pos rfl)

theorem harmPut_other {other : Path} (apart : other ≠ path) {name : String} {entry : Entry}
    {file : String} : (other, file) ∈ harmPut path files name entry harmed ↔
      (other, file) ∈ harmed := by
  unfold harmPut
  split
  · split
    · rw [putBack, List.mem_filter, decide_eq_true_eq]
      exact and_iff_left fun same => apart (Prod.mk.inj same).1
    · rw [List.mem_cons]
      exact or_iff_right fun same => apart (Prod.mk.inj same).1
  · exact Iff.rfl

theorem harms_other {other : Path} (apart : other ≠ path) {c : Change} {dir : Option Dir}
    {file : String} : (other, file) ∈ c.harms path files dir harmed ↔ (other, file) ∈ harmed := by
  cases c with
  | put name entry => exact harmPut_other apart
  | remove _ | permit _ _ | removeFolder => exact Iff.rfl
  | rename name newName =>
    unfold Change.harms
    dsimp only
    split
    · rw [harmPut_other apart]
      split
      · rw [List.mem_cons]
        exact or_iff_right fun same => apart (Prod.mk.inj same).1
      · exact Iff.rfl
    · exact Iff.rfl

end Changes

section Change

variable {s : State}

theorem change_disk (path other : Path) (c : Change) (s : State) :
    (s.change path c).disk.lookup other =
      if other = path then c.apply (s.disk.lookup path) else s.disk.lookup other := by
  unfold State.change
  cases applied : c.apply (s.disk.lookup path) with
  | none =>
    exact lookup_erase_eq _ _ _
  | some d =>
    exact lookup_insert_eq _ _ _ _

theorem change_harmed_other {path other : Path} (apart : other ≠ path) (c : Change) (name : String) :
    (other, name) ∈ (s.change path c).harmed ↔ (other, name) ∈ s.harmed := by
  unfold State.change State.harmedBy
  dsimp only
  split
  · exact harms_other apart
  · exact Iff.rfl

theorem change_harmedFolders {path other : Path} (apart : other ≠ path) (c : Change) :
    other ∈ (s.change path c).harmedFolders ↔ other ∈ s.harmedFolders := by
  simp only [State.harmedFolders, List.mem_map, Prod.exists, exists_and_right, exists_eq_right,
    change_harmed_other apart]

theorem inv_change (inv : Inv s) {path : Path} {c : Change}
    (may : path ∉ (s.change path c).harmedFolders ∨ Tells s.told path ∨
      watches s.manifest path) : Inv (s.change path c) := by
  refine ⟨inv.known, inv.savedKnown, inv.parents, inv.savedParents, fun other name harmed => ?_,
    fun other harmed => ?_, fun f listed live same => ?_, inv.intact, inv.covers⟩
  · rw [change_disk]
    by_cases here : other = path
    · subst here
      rw [if_pos rfl]
      unfold State.change State.harmedBy at harmed
      dsimp only at harmed
      cases known : s.deployed.lookup other with
      | none =>
        rw [known] at harmed
        obtain ⟨files, _, found, _⟩ := inv.seen other name harmed
        rw [known] at found
        cases found
      | some files =>
        rw [known] at harmed
        have before : ∀ name, (other, name) ∈ s.harmed →
            Differs files (s.disk.lookup other) name := by
          intro name listed
          obtain ⟨_, file, found, isDecoy, differs⟩ := inv.seen other name listed
          rw [known] at found
          cases found
          exact ⟨file, isDecoy, differs⟩
        obtain ⟨file, isDecoy, differs⟩ := differs_change before harmed
        exact ⟨files, file, known, isDecoy, differs⟩
    · rw [if_neg here]
      exact inv.seen other name ((change_harmed_other here c name).mp harmed)
  · by_cases here : other = path
    · exact here ▸ may.resolve_left (fun free => free (here ▸ harmed))
    · exact inv.safe other ((change_harmedFolders here c).mp harmed)
  · obtain ⟨apart, same⟩ := not_or.mp (mt List.mem_cons.mpr same)
    exact fun harmed => inv.looked f listed live same ((change_harmedFolders apart c).mp harmed)

end Change

/-! Every step, and every run. -/

/-- A step that only goes on to the next part of `deploy`. -/
theorem inv_next {s : State} (inv : Inv s) {next : Phase}
    (manifest : State.manifest { s with phase := next } = s.manifest)
    (coming : next.coming = s.phase.coming) (judged : next.judged = s.phase.judged)
    (covers : next.Covers) : Inv { s with phase := next } := by
  have told : State.told { s with phase := next } = s.told := by
    rw [State.told, coming]
    rfl
  refine inv.moved rfl rfl rfl rfl (by rw [manifest]) ?_ (fun f listed => inv.looked f (judged ▸ listed)) ?_
    covers
  · rw [told, manifest]
    exact inv.safe
  · rw [told]
    exact inv.intact

theorem inv_go {u : Setup} {s : State} (inv : Inv s) (event : Event) (now : Nat)
    (keeps : s.Keeps u (.go event now)) : Inv (s.go u event now) := by
  have covers := inv.covers
  unfold State.go
  unfold State.Keeps at keeps
  split
  · exact inv
  · exact inv
  · rename_i d phase
    rw [phase] at covers
    refine inv_next inv ?_ (by rw [phase]; rfl) (by rw [phase]; rfl) covers
    simp only [State.manifest, phase, List.append_nil]
  · rename_i f left d phase
    rw [phase] at keeps
    exact inv_judgeNext inv phase keeps now
  · rename_i d phase
    rw [phase] at covers
    refine inv_next inv ?_ (by rw [phase]; rfl) (by rw [phase]; rfl) covers
    simp only [State.manifest, phase]
  · rename_i target left d phase
    rw [phase] at keeps
    exact inv_createNext inv phase event keeps now
  · rename_i d phase
    rw [phase] at covers
    have manifest : s.manifest = d.manifest := by rw [State.manifest, phase]
    rw [← manifest]
    refine inv_saved inv event (fun saved => ?_) (by rw [phase]; rfl) (by rw [phase]; rfl) covers
    rw [manifest]
    rfl
  · exact inv_returned inv ‹_›
  · rename_i made w phase
    rw [phase] at covers
    have manifest : s.manifest = w.manifest := by rw [State.manifest, phase]
    rw [← manifest]
    refine inv_saved inv event (fun saved => ?_) (by rw [phase]; rfl) (by rw [phase]; rfl) covers
    rw [manifest]
    rfl
  · rename_i made w phase
    rw [phase] at keeps
    exact inv_sent inv phase keeps

theorem inv_step {u : Setup} {s : State} {act : Act} (inv : Inv s) (keeps : s.Keeps u act) :
    Inv (s.step u act) := by
  cases act with
  | start targets =>
    unfold State.step
    dsimp only
    split
    · exact inv_started inv ‹_› targets
    · exact inv
  | check path now => exact inv_check inv now keeps
  | stop => exact inv_stopped inv keeps
  | receive =>
    unfold State.step
    dsimp only
    split
    · exact inv
    · exact inv_received inv ‹_›
  | change path c => exact inv_change inv keeps
  | go event now => exact inv_go inv event now keeps

theorem inv_start (disk : Map Path Dir) : Inv (State.start disk) where
  known := nofun
  savedKnown := nofun
  parents := List.nodup_nil
  savedParents := List.nodup_nil
  seen := nofun
  safe := nofun
  looked := nofun
  intact := nofun
  covers := trivial

theorem one_of_nodup {folders : List Path} (distinct : (folders.map Path.parent).Nodup)
    {directory : String} (there : directory ∈ folders.map Path.parent) :
    (folders.filter fun path => decide (path.parent = directory)).length = 1 := by
  have once := List.count_eq_one_of_mem distinct there
  rw [List.count_eq_countP, List.countP_map, List.countP_eq_length_filter] at once
  exact once

theorem Inv.alwaysReported {s : State} (inv : Inv s) : AlwaysReported s where
  encrypted w phase path harmed same := by
    have manifest : s.manifest = w.manifest := by rw [State.manifest, phase]
    have told : s.told = s.reported ++ s.channel := by
      rw [State.told, phase]
      exact List.append_nil _
    have safe := inv.safe path harmed
    have looked := inv.looked
    rw [manifest, told] at safe
    rw [phase] at looked
    refine safe.resolve_right fun watched => ?_
    obtain ⟨f, listed, live, rfl⟩ := watches_iff.mp watched
    exact looked f listed live same harmed
  intact made listed := inv.intact made (List.mem_append_left _ listed)
  watched w phase target listed unskipped := by
    have covers := inv.covers
    rw [phase] at covers
    exact one_of_nodup covers.1 ((covers.2 target listed).resolve_left unskipped)

/-- In every run whose steps all meet the condition, from a disk where nothing is deployed, what
    is encrypted is reported, in every state that is reached. -/
theorem encrypted_always_reported (u : Setup) (disk : Map Path Dir) {acts : List Act}
    (along : Along (State.step u) (State.Keeps u) (.start disk) acts) :
    AlwaysReported (run (State.step u) (.start disk) acts) :=
  (run_keeps (I := Inv) (fun _ _ inv keeps => inv_step inv keeps) (inv_start disk)
    along).alwaysReported

def oneWaiting : Setup where
  content _ file := file
  queue := 1

def home : CanaryTarget where
  directory := "/home/alice"
  owner := some (1000, 1000)

def archives : Path where
  parent := "/home/alice"
  name := ".0-archives-1a2b3c"

/- A folder is deployed and watched, and a decoy rewritten; the watch notes and saves it. -/
def rewritten : List Act :=
  [.start [home], .go .fails 1, .go (.ok ".0-archives-1a2b3c") 1, .go .fails 1, .go (.ok "") 1,
    .go .fails 1, .change archives (.put "contrat-signe.pdf" (.file "encrypted" true)),
    .check archives 2, .go (.ok "") 2]

theorem encrypted_always_reported_rewritten :
    AlwaysReported (run (State.step oneWaiting) (.start ∅) (rewritten ++ [.go .fails 2, .receive])) :=
  encrypted_always_reported oneWaiting ∅ (by decide)

/-- The agent stops after the incident was noted as reported, before it was handed over. -/
theorem not_always_reported : ¬ ∀ (u : Setup) (disk : Map Path Dir) (acts : List Act),
    AlwaysReported (run (State.step u) (.start disk) acts) := by
  intro always
  have holds := always oneWaiting ∅ (rewritten ++ [.stop, .start [home], .go .fails 3, .go .fails 3,
    .go (.ok ".0-archives-4d5e6f") 3, .go .fails 3, .go (.ok "") 3, .go .fails 3])
  have tells := holds.encrypted _ rfl archives (by decide) (by decide)
  exact absurd tells (by decide)

end SentinelAgent.Canary
