import SentinelAgent.Scanner.OsvAnswers
import SentinelAgent.Scanner.VulnerabilityScan

/- Two scans of one host with the same answers of the database: when the second says that it
   missed something, or has all that the first has. -/
namespace SentinelAgent.Vulnerability
open Text Keyed
open Osv (BatchQuery Database OsvQuery OsvVulnerability Serves Service)

variable {Score : Type} {scoring : Scoring Score} {platform : Platform}

section Advice

/- What an advisory for a package is reported under. -/
def adviceKey (q : OsvQuery) (record : OsvVulnerability) : String × String :=
  (q.name, (Osv.extractCveId record).getD s!"advisory:{record.id}")

/- The database has an advisory for the package that Debian does not rate unimportant. -/
def Advises (database : Database) (q : OsvQuery) (key : String × String) : Prop :=
  ∃ id record, Osv.Listed database q id ∧ database.record id = some record ∧
    Osv.isDebianUnimportant (record.affected.filterMap (Osv.compactAffected fun _ _ => true))
      q.name q.ecosystem = false ∧
    key = adviceKey q record

theorem key_advice (q : OsvQuery) (keep : String → String → Bool) (record : OsvVulnerability) :
    (findingFromOsvResult scoring platform
      (Osv.buildResult q (Osv.fromRecord scoring.baseScore keep record))).key =
        some (adviceKey q record) := by
  cases cve : Osv.extractCveId record with
  | none =>
    simp [VulnerabilityFinding.key, findingFromOsvResult, Osv.buildResult, Osv.fromRecord,
      adviceKey, cve]
  | some cve_id =>
    simp [VulnerabilityFinding.key, findingFromOsvResult, Osv.buildResult, Osv.fromRecord,
      adviceKey, cve]

/- What is kept of an advisory is enough for the packages it is kept for. -/
theorem unimportant_kept {keep : String → String → Bool} {name ecosystem : String}
    (kept : keep name ecosystem = true) (affected : List Osv.OsvAffected) :
    Osv.isDebianUnimportant (affected.filterMap (Osv.compactAffected keep)) name ecosystem =
      Osv.isDebianUnimportant (affected.filterMap (Osv.compactAffected fun _ _ => true)) name
        ecosystem := by
  unfold Osv.isDebianUnimportant
  congr 1
  induction affected with
  | nil => rfl
  | cons entry affected ih =>
    simp only [List.filterMap_cons]
    cases package : entry.package with
    | none =>
      simp only [Osv.compactAffected, package]
      exact ih
    | some named =>
      by_cases here : keep named.1 named.2 = true
      · simp only [Osv.compactAffected, package, here, if_true, List.any_cons, ih]
      · have other : ¬ (named.1 = name ∧ named.2 = ecosystem) := by
          rintro ⟨same, same'⟩
          rw [same, same'] at here
          exact here kept
        have no_match : (decide (named.1 = name) && decide (named.2 = ecosystem)) = false := by
          simpa using other
        simp only [Osv.compactAffected, package, here, if_true, Bool.false_eq_true, if_false,
          List.any_cons, no_match, Bool.false_and, Bool.false_or, ih]

theorem queried_self {packages : List OsvQuery} {q : OsvQuery} (member : q ∈ packages) :
    Osv.queried packages q.name q.ecosystem = true :=
  List.any_eq_true.mpr ⟨q, member, by simp⟩

variable {database : Database} {client : Option Service} {packages : List InstalledPackage}

theorem scanCve_advised (serves : ∀ service ∈ client, Serves database service)
    {f : VulnerabilityFinding Score}
    (found : f ∈ (scanCve scoring platform client packages).1) :
    ∃ q ∈ buildOsvQueries packages, ∃ key, f.key = some key ∧ Advises database q key := by
  unfold scanCve at found
  simp only at found
  split at found
  · cases found
  · split at found
    · cases found
    · rename_i service
      obtain ⟨r, kept, rfl⟩ := List.mem_map.mp found
      obtain ⟨reported, important⟩ := List.mem_filter.mp kept
      obtain ⟨q, asked, id, record, listed, there, rfl⟩ :=
        Osv.result_listed (serves service rfl) reported
      refine ⟨q, asked, _, key_advice q _ record, id, record, listed, there, ?_, rfl⟩
      rw [← unimportant_kept (queried_self asked)]
      simpa [Osv.buildResult, Osv.fromRecord] using important

/- Without an error every advisory for what was asked about is found. -/
theorem advised_scanCve (serves : ∀ service ∈ client, Serves database service)
    (quiet : (scanCve scoring platform client packages).2 = []) {q : OsvQuery}
    (asked : q ∈ buildOsvQueries packages) {key : String × String}
    (advises : Advises database q key) :
    Has VulnerabilityFinding.key (scanCve scoring platform client packages).1 key := by
  obtain ⟨id, record, listed, there, important, rfl⟩ := advises
  unfold scanCve at quiet ⊢
  simp only at quiet ⊢
  split at quiet
  · rename_i no_queries
    rw [no_queries] at asked
    cases asked
  · rename_i queries
    rw [if_neg queries]
    cases client with
    | none => cases quiet
    | some service =>
      have reported := Osv.listed_result (serves service rfl) quiet asked listed there
      refine ⟨_, List.mem_map.mpr ⟨_, List.mem_filter.mpr ⟨reported, ?_⟩, rfl⟩, key_advice q _ record⟩
      rw [← unimportant_kept (queried_self asked)] at important
      simpa [Osv.buildResult, Osv.fromRecord] using important

end Advice

section Runs

/- What can be read when the agent starts, when the packages are listed and when they are
   checked. -/
structure Run where
  started : Host
  listing : Host
  checking : Host

/- Some reads of the first run fail in the second, all others give the same. -/
structure SomeFailIn (first second : Run) : Prop where
  started : SomeFail first.started second.started
  listing : SomeFail first.listing second.listing
  checking : SomeFail first.checking second.checking

def Run.scanners (platform : Platform) (run : Run) : List PackageScanner :=
  availableScanners platform run.started

def Run.scan (scoring : Scoring Score) (platform : Platform) (client : Option Service) (run : Run) :
    VulnerabilityScanResult Score :=
  VulnerabilityScanner.scan scoring platform ⟨run.scanners platform, client⟩ .cveCheck run.listing
    run.checking

/- What is asked of the database. -/
def Run.lookups (platform : Platform) (run : Run) : List OsvQuery :=
  buildOsvQueries (inventory platform (run.scanners platform) run.listing)

/- The vulnerabilities that the host itself names. -/
def Run.named (Score : Type) (platform : Platform) (run : Run) :
    List (VulnerabilityFinding Score) :=
  checked platform .cveCheck (run.scanners platform) run.checking

/- The platform is told that the scan is not complete, or nothing of the first is missing. -/
def SaysSo (scoring : Scoring Score) (first second : VulnerabilityScanResult Score) : Prop :=
  (second.errors ≠ [] ∧ ∀ scanId, ∀ page ∈ pagesOf scoring second scanId, page.scanComplete = false) ∨
    ∀ f ∈ first.vulnerabilities, ∃ g ∈ second.vulnerabilities, g.key = f.key

def brewInfoFails (lib : Libraries) (host : Host) (brew : String) : Bool :=
  match host.command (.brewInfo brew) with
  | .error _ => true
  | .ok output =>
    if trim output.stdout = "" then !output.success
    else match lib.brewInfo output.stdout with
      | .error _ => true
      | .ok _ => false

def brewOutdatedFails (lib : Libraries) (host : Host) (brew : String) : Bool :=
  match host.command (.brewOutdated brew) with
  | .error _ => true
  | .ok output =>
    trim output.stdout ≠ "" && match lib.brewOutdated output.stdout with
      | .error _ => true
      | .ok _ => false

/- A read fails whose failure the scanner reports. -/
def PackageScanner.Fails (platform : Platform) (listing checking : Host) : PackageScanner → Prop
  | .apt _ => Output.failed (listing.command .dpkgQuery) = true ∨
    Output.failed (checking.command .dpkgQuery) = true ∨
    Output.failed (checking.command .aptList) = true
  | .rpm _ => Output.failed (listing.command .rpmQuery) = true
  | .brew path => brewInfoFails platform.libraries listing path = true ∨
    brewInfoFails platform.libraries checking path = true ∨
    brewOutdatedFails platform.libraries checking path = true
  | .windows => Output.failed (checking.command .windowsUpdates) = true
  | .macOsApps => False
  | .languages => False

/- A failure that is reported, or none that lost a package looked up or a vulnerability named. -/
def LosesNothing (Score : Type) (platform : Platform) (first second : Run) : Prop :=
  (∃ scanner ∈ second.scanners platform,
    scanner.Fails platform second.listing second.checking) ∨
  (∀ q ∈ first.lookups platform, q ∈ second.lookups platform) ∧
    ∀ key, Has VulnerabilityFinding.key (first.named Score platform) key →
      Has VulnerabilityFinding.key (second.named Score platform) key

theorem getInstalledPackages_fails (apt : AptScanner) (host : Host) :
    (∃ e, apt.getInstalledPackages host = .error e) ↔
      Output.failed (host.command .dpkgQuery) = true := by
  unfold AptScanner.getInstalledPackages Output.failed
  cases host.command .dpkgQuery with
  | error e => simp
  | ok output =>
    cases success : output.success with
    | true => simp [success]
    | false => simp [success]

theorem getUpgradablePackages_fails (host : Host) :
    (∃ e, getUpgradablePackages host = .error e) ↔
      Output.failed (host.command .aptList) = true := by
  unfold getUpgradablePackages Output.failed
  cases host.command .aptList with
  | error e => simp
  | ok output =>
    cases success : output.success with
    | true => simp [success]
    | false => simp [success]

theorem getInstalledPackagesJson_fails (lib : Libraries) (host : Host) (brew : String) :
    (∃ e, getInstalledPackagesJson lib host brew = .error e) ↔
      brewInfoFails lib host brew = true := by
  unfold getInstalledPackagesJson brewInfoFails
  cases host.command (.brewInfo brew) with
  | error e => simp
  | ok output =>
    simp only
    by_cases empty : trim output.stdout = ""
    · cases success : output.success with
      | true => simp [empty]
      | false => simp [empty]
    · rw [if_neg empty, if_neg empty]
      cases lib.brewInfo output.stdout with
      | error e => simp
      | ok info => simp

theorem getOutdatedPackagesJson_fails (lib : Libraries) (host : Host) (brew : String) :
    (∃ e, getOutdatedPackagesJson lib host brew = .error e) ↔
      brewOutdatedFails lib host brew = true := by
  unfold getOutdatedPackagesJson brewOutdatedFails
  cases host.command (.brewOutdated brew) with
  | error e => simp
  | ok output =>
    simp only
    by_cases empty : trim output.stdout = ""
    · simp [empty]
    · rw [if_neg empty]
      cases lib.brewOutdated output.stdout with
      | error e => simp [empty]
      | ok outdated => simp

/- What the scanner reports is what fails of its reads. -/
theorem reports_iff_fails (Score : Type) (platform : Platform) (listing checking : Host)
    (scanner : PackageScanner) :
    ((∃ e, scanner.installedPackages platform listing = .error e) ∨
      ∃ e, (scanner.scanPackages platform checking :
        Except ScannerError (List (VulnerabilityFinding Score))) = .error e) ↔
      scanner.Fails platform listing checking := by
  cases scanner with
  | apt apt =>
    have listed := getInstalledPackages_fails apt listing
    have listed_again := getInstalledPackages_fails apt checking
    have upgradable := getUpgradablePackages_fails checking
    simp only [PackageScanner.installedPackages, PackageScanner.scanPackages,
      AptScanner.scanPackages, PackageScanner.Fails, listed, ← listed_again, ← upgradable]
    refine or_congr Iff.rfl ?_
    cases apt.getInstalledPackages checking with
    | error e => simp
    | ok installed =>
      cases getUpgradablePackages checking with
      | error e => simp
      | ok packages => simp
  | rpm rpm =>
    simp only [PackageScanner.installedPackages, PackageScanner.scanPackages,
      RpmScanner.getInstalledPackages, PackageScanner.Fails, Output.failed]
    cases listing.command .rpmQuery with
    | error e => simp
    | ok output =>
      cases success : output.success with
      | true => simp [success]
      | false => simp [success]
  | brew path =>
    have listed := getInstalledPackagesJson_fails platform.libraries listing path
    have listed_again := getInstalledPackagesJson_fails platform.libraries checking path
    have outdated := getOutdatedPackagesJson_fails platform.libraries checking path
    simp only [PackageScanner.installedPackages, PackageScanner.scanPackages,
      brewInstalledPackages, brewScanPackages, PackageScanner.Fails, ← listed, ← listed_again,
      ← outdated]
    refine or_congr ?_ ?_
    · cases getInstalledPackagesJson platform.libraries listing path with
      | error e => simp [Except.map]
      | ok packages => simp [Except.map]
    · cases getInstalledPackagesJson platform.libraries checking path with
      | error e => simp
      | ok installed =>
        cases getOutdatedPackagesJson platform.libraries checking path with
        | error e => simp
        | ok packages => simp
  | macOsApps =>
    simp [PackageScanner.installedPackages, PackageScanner.scanPackages, PackageScanner.Fails]
  | windows =>
    simp only [PackageScanner.installedPackages, PackageScanner.scanPackages, windowsScanPackages,
      PackageScanner.Fails, Output.failed]
    cases checking.command .windowsUpdates with
    | error e => simp
    | ok output =>
      cases success : output.success with
      | true => simp [success]
      | false => simp [success]
  | languages =>
    simp [PackageScanner.installedPackages, PackageScanner.scanPackages, PackageScanner.Fails]

theorem listErrors_nil (scanners : List PackageScanner) (host : Host) :
    listErrors platform scanners host = [] ↔
      ∀ scanner ∈ scanners, ¬ ∃ e, scanner.installedPackages platform host = .error e := by
  unfold listErrors
  rw [List.filterMap_eq_nil_iff]
  refine forall₂_congr fun scanner _ => ?_
  cases scanner.installedPackages platform host with
  | ok packages => simp
  | error e => simp

theorem checkErrors_nil (scanners : List PackageScanner) (host : Host) :
    checkErrors platform Score scanners host = [] ↔
      ∀ scanner ∈ scanners, ¬ ∃ e, (scanner.scanPackages platform host :
        Except ScannerError (List (VulnerabilityFinding Score))) = .error e := by
  unfold checkErrors
  rw [List.filterMap_eq_nil_iff]
  refine forall₂_congr fun scanner _ => ?_
  cases (scanner.scanPackages platform host :
      Except ScannerError (List (VulnerabilityFinding Score))) with
  | ok findings => simp
  | error e => simp

variable {run : Run} {client : Option Service} {database : Database}

/- The errors of a run are those of the failures reported and those of the database. -/
theorem errors_nil :
    (run.scan scoring platform client).errors = [] ↔
      (∀ scanner ∈ run.scanners platform, ¬ scanner.Fails platform run.listing run.checking) ∧
        (scanCve scoring platform client
          (inventory platform (run.scanners platform) run.listing)).2 = [] := by
  have reported : (∀ scanner ∈ run.scanners platform,
      ¬ scanner.Fails platform run.listing run.checking) ↔
      listErrors platform (run.scanners platform) run.listing = [] ∧
        checkErrors platform Score (run.scanners platform) run.checking = [] := by
    rw [listErrors_nil, checkErrors_nil]
    simp only [← reports_iff_fails Score, not_or, forall_and]
  rw [reported]
  simp only [Run.scan, VulnerabilityScanner.scan, if_true, List.append_eq_nil_iff]

theorem key_named {f : VulnerabilityFinding Score} (member : f ∈ run.named Score platform) :
    ∃ cve, f.cveId = some cve ∧ f.key = some (f.packageName, cve) := by
  obtain ⟨scanner, _, found⟩ := List.mem_flatMap.mp member
  split at found
  · rw [if_pos rfl] at found
    obtain ⟨cve, known⟩ := Option.isSome_iff_exists.mp (List.mem_filter.mp found).2
    exact ⟨cve, known, by simp [VulnerabilityFinding.key, known]⟩
  · cases found

/- What a run reports is what the host names and what the database does. -/
theorem has_scan (key : String × String) :
    Has VulnerabilityFinding.key (run.scan scoring platform client).vulnerabilities key ↔
      Has VulnerabilityFinding.key (run.named Score platform) key ∨
        Has VulnerabilityFinding.key (scanCve scoring platform client
          (inventory platform (run.scanners platform) run.listing)).1 key := by
  simp only [Run.scan, VulnerabilityScanner.scan, if_true, dedupFindings, has_keepBest, has_append]
  rfl

theorem key_scan (serves : ∀ service ∈ client, Serves database service)
    {f : VulnerabilityFinding Score}
    (member : f ∈ (run.scan scoring platform client).vulnerabilities) : ∃ key, f.key = some key := by
  have found := mem_keepBest member
  simp only [if_true] at found
  cases List.mem_append.mp found with
  | inl named =>
    obtain ⟨cve, _, keyed⟩ := key_named named
    exact ⟨_, keyed⟩
  | inr advised =>
    obtain ⟨_, _, key, keyed, _⟩ := scanCve_advised serves advised
    exact ⟨key, keyed⟩

theorem incomplete_pages {result : VulnerabilityScanResult Score} (errors : result.errors ≠ [])
    (scanId : String) : ∀ page ∈ pagesOf scoring result scanId, page.scanComplete = false := by
  intro page member
  obtain ⟨_, _, rfl⟩ := List.mem_map.mp member
  have incomplete : result.isComplete = false := decide_eq_false errors
  simp only [incomplete, Bool.false_and]

end Runs

section Law
variable {first second : Run}

/- A finding kept by what the run looks up and names. -/
theorem kept_said {client client' : Option Service} {database : Database}
    (serves : ∀ service ∈ client, Serves database service)
    (serves' : ∀ service ∈ client', Serves database service)
    (kept : LosesNothing Score platform first second) :
    SaysSo scoring (first.scan scoring platform client) (second.scan scoring platform client') := by
  by_cases quiet : (second.scan scoring platform client').errors = []
  · right
    obtain ⟨none_fails, asked_all⟩ := errors_nil.mp quiet
    obtain ⟨scanner, available, fails⟩ | ⟨lookups, named⟩ := kept
    · exact absurd fails (none_fails scanner available)
    intro f member
    obtain ⟨key, keyed⟩ := key_scan serves member
    have there : Has VulnerabilityFinding.key (second.scan scoring platform client').vulnerabilities
        key := by
      rw [has_scan]
      cases (has_scan key).mp ⟨f, member, keyed⟩ with
      | inl own => exact Or.inl (named key own)
      | inr advised =>
        obtain ⟨g, found, same⟩ := advised
        obtain ⟨q, asked, key', keyed', advises⟩ := scanCve_advised serves found
        rw [same] at keyed'
        cases keyed'
        exact Or.inr (advised_scanCve serves' asked_all (lookups q asked) advises)
    obtain ⟨g, found, same⟩ := there
    exact ⟨g, found, same.trans keyed.symm⟩
  · exact Or.inl ⟨quiet, incomplete_pages quiet⟩

def nothingKnown : Database where
  page _ := ⟨[], none⟩
  record _ := none

/- One advisory, for one package. -/
def onlyFor (q : OsvQuery) (id : String) : Database where
  page query := if query.package = q then ⟨[id], none⟩ else ⟨[], none⟩
  record other := if other = id then some (Osv.record id) else none

def longId (n : Nat) : String := String.ofList (List.replicate n 'x')

theorem normalizeCveId_longId (n : Nat) : Osv.normalizeCveId (longId n) = none := by
  have no_blank : isWhitespace 'x' = false := by decide
  have upper : (toAsciiUppercase (trim (longId n))).toList = List.replicate n 'X' := by
    simp [longId, trim, toAsciiUppercase, no_blank]
  simp only [Osv.normalizeCveId, upper]
  cases n with
  | zero => rfl
  | succ n => rfl

theorem exists_longer (names : List String) : ∃ n, ∀ name ∈ names, name.length < n := by
  induction names with
  | nil => exact ⟨0, nofun⟩
  | cons name names ih =>
    obtain ⟨n, longer⟩ := ih
    refine ⟨max n (name.length + 1), fun other member => ?_⟩
    cases List.mem_cons.mp member with
    | inl here =>
      rw [here]
      omega
    | inr later =>
      have shorter := longer other later
      omega

/- Some advisory has an identifier that no finding of a list has. -/
theorem exists_fresh (names : List String) : ∃ n, s!"advisory:{longId n}" ∉ names := by
  obtain ⟨n, longer⟩ := exists_longer names
  refine ⟨n, fun member => ?_⟩
  have shorter : ("advisory:" ++ longId n).length < n := longer _ member
  have long : (longId n).length = n := by
    rw [longId, String.length_ofList, List.length_replicate]
  rw [String.length_append, long] at shorter
  omega

theorem listed_onlyFor {q asked : OsvQuery} {id listed : String}
    (there : Osv.Listed (onlyFor q id) asked listed) : asked = q := by
  obtain ⟨token, _, member⟩ := there
  by_contra other
  simp [onlyFor, other] at member

theorem advises_onlyFor (q : OsvQuery) (n : Nat) :
    Advises (onlyFor q (longId n)) q (q.name, s!"advisory:{longId n}") := by
  refine ⟨longId n, Osv.record (longId n), ⟨none, Osv.Reached.first, ?_⟩, ?_, ?_, ?_⟩
  · simp [onlyFor]
  · simp [onlyFor]
  · simp [Osv.record, Osv.isDebianUnimportant]
  · have no_cve : Osv.extractCveId (Osv.record (longId n)) = none := by
      simp [Osv.extractCveId, Osv.record, normalizeCveId_longId]
    rw [adviceKey, no_cve]
    rfl

/- A steady database adds no errors. -/
theorem quiet_scan {database : Database} (single : ∀ q, (database.page q).next = none)
    {run : Run} (none_fails : ∀ scanner ∈ run.scanners platform,
      ¬ scanner.Fails platform run.listing run.checking) :
    (run.scan scoring platform (some (Osv.steady database))).errors = [] := by
  refine errors_nil.mpr ⟨none_fails, ?_⟩
  unfold scanCve
  simp only
  split
  · rfl
  · exact Osv.quiet_steady single

/- A second scan in which reads fail says so or keeps every finding of the first, whatever the
   database answers, exactly when a failure was of a read that is reported, or no failure lost
   a package that was looked up or a vulnerability that the host named. -/
theorem missed_is_said (scoring : Scoring Score) (platform : Platform) (first second : Run) :
    (∀ (database : Database) (client client' : Option Service),
      (∀ service ∈ client, Serves database service) →
      (∀ service ∈ client', Serves database service) →
        SaysSo scoring (first.scan scoring platform client)
          (second.scan scoring platform client')) ↔
      LosesNothing Score platform first second := by
  constructor
  · intro said
    by_cases some_fails : ∃ scanner ∈ second.scanners platform,
        scanner.Fails platform second.listing second.checking
    · exact Or.inl some_fails
    have none_fails : ∀ scanner ∈ second.scanners platform,
        ¬ scanner.Fails platform second.listing second.checking := fun scanner member fails =>
      some_fails ⟨scanner, member, fails⟩
    -- a steady database makes the second scan complete, so it has what the first has
    have keeps : ∀ (database : Database), (∀ q, (database.page q).next = none) →
        ∀ key, Has VulnerabilityFinding.key (first.scan scoring platform
            (some (Osv.steady database))).vulnerabilities key →
          Has VulnerabilityFinding.key (second.scan scoring platform
            (some (Osv.steady database))).vulnerabilities key := by
      intro database single key ⟨f, member, keyed⟩
      have serves : ∀ service ∈ some (Osv.steady database), Serves database service := by
        intro service there
        cases there
        exact Osv.serves_steady database
      obtain ⟨errors, _⟩ | contains := said database _ _ serves serves
      · exact absurd (quiet_scan single none_fails) errors
      · obtain ⟨g, found, same⟩ := contains f member
        exact ⟨g, found, same.trans keyed⟩
    right
    constructor
    · intro q looked_up
      obtain ⟨n, fresh⟩ := exists_fresh ((second.named Score platform).filterMap (·.cveId))
      have single : ∀ query, ((onlyFor q (longId n)).page query).next = none := by
        intro query
        simp only [onlyFor]
        split
        · rfl
        · rfl
      have serves : ∀ service ∈ some (Osv.steady (onlyFor q (longId n))),
          Serves (onlyFor q (longId n)) service := by
        intro service there
        cases there
        exact Osv.serves_steady _
      have quiet : (scanCve scoring platform (some (Osv.steady (onlyFor q (longId n))))
          (inventory platform (first.scanners platform) first.listing)).2 = [] := by
        unfold scanCve
        simp only
        split
        · rfl
        · exact Osv.quiet_steady single
      have found := keeps _ single _ ((has_scan _).mpr
        (Or.inr (advised_scanCve serves quiet looked_up (advises_onlyFor q n))))
      obtain ⟨f, named, keyed⟩ | ⟨f, advised, keyed⟩ := (has_scan _).mp found
      · obtain ⟨cve, known, own⟩ := key_named named
        have same : cve = s!"advisory:{longId n}" :=
          (Prod.mk.inj (Option.some.inj (own.symm.trans keyed))).2
        rw [same] at known
        exact absurd (List.mem_filterMap.mpr ⟨f, named, known⟩) fresh
      · obtain ⟨asked, member, _, _, _, _, listed, _⟩ := scanCve_advised serves advised
        rw [← listed_onlyFor listed]
        exact member
    · intro key named
      have found := keeps nothingKnown (fun _ => rfl) key ((has_scan key).mpr (Or.inl named))
      obtain own | ⟨f, advised, _⟩ := (has_scan key).mp found
      · exact own
      · have serves : ∀ service ∈ some (Osv.steady nothingKnown), Serves nothingKnown service := by
          intro service there
          cases there
          exact Osv.serves_steady _
        obtain ⟨_, _, _, _, _, _, ⟨_, _, listed⟩, _⟩ := scanCve_advised serves advised
        cases listed
  · intro kept database client client' serves serves'
    exact kept_said serves serves' kept

end Law

section Case

/- A tool installed with pip, in a directory that can be listed or not. -/
def sitePackages : Path := ["/", "usr", "local", "lib", "python3.11", "site-packages"]

def pipHost (readable : Bool) : Host where
  command _ := .error "No such file or directory (os error 2)"
  text path :=
    if path = sitePackages ++ ["requests-2.19.0.dist-info", "METADATA"] then
      some "Name: requests\nVersion: 2.19.0\n"
    else none
  stat path :=
    if path = sitePackages ++ ["requests-2.19.0.dist-info", "METADATA"] then some ⟨true, 31⟩
    else none
  listing path :=
    if path = ["/", "usr", "local", "lib"] then some ["python3.11"]
    else if path = sitePackages ∧ readable = true then some ["requests-2.19.0.dist-info"]
    else none
  isDir path := path = ["/", "usr", "local", "lib", "python3.11"]
  present _ := false

def noLibraries : Libraries where
  toLowercase := toAsciiLowercase
  json _ := none
  windowsUpdate _ := none
  windowsApp _ := none
  brewInfo _ := .error ""
  brewOutdated _ := .error ""
  findAll _ _ := []
  captures _ _ := []
  removeFirst _ text := text
  removeAll _ text := text

def linuxPlatform : Platform := ⟨.linux, ⟨none, none⟩, noLibraries⟩

def noScores : Scoring Nat where
  baseScore _ := none
  fromCvss _ := .medium
  roundCvss _ := none

def pipRun (readable : Bool) : Run := ⟨pipHost true, pipHost readable, pipHost true⟩

def requestsAdvisory : Database := onlyFor ⟨"requests", "2.19.0", "PyPI"⟩ "CVE-2018-18074"

theorem some_fail_pip : SomeFail (pipHost true) (pipHost false) where
  command _ := Or.inl rfl
  text _ := Or.inl rfl
  stat _ := Or.inl rfl
  listing path := by
    by_cases here : path = sitePackages
    · right
      subst here
      decide
    · left
      simp [pipHost, here]
  isDir _ := Or.inl rfl
  present _ := Or.inl rfl

theorem some_fail_same (host : Host) : SomeFail host host :=
  ⟨fun _ => Or.inl rfl, fun _ => Or.inl rfl, fun _ => Or.inl rfl, fun _ => Or.inl rfl,
    fun _ => Or.inl rfl, fun _ => Or.inl rfl⟩

/- One directory that cannot be listed any more: its packages are gone, without an error. -/
theorem unread_directory_unsaid :
    SomeFailIn (pipRun true) (pipRun false) ∧
      Serves requestsAdvisory (Osv.steady requestsAdvisory) ∧
      ¬ SaysSo noScores
        ((pipRun true).scan noScores linuxPlatform (some (Osv.steady requestsAdvisory)))
        ((pipRun false).scan noScores linuxPlatform (some (Osv.steady requestsAdvisory))) := by
  refine ⟨⟨some_fail_same _, some_fail_pip, some_fail_same _⟩, Osv.serves_steady _, ?_⟩
  have no_errors : ((pipRun false).scan noScores linuxPlatform
      (some (Osv.steady requestsAdvisory))).errors = [] := by decide
  have reported : ((pipRun true).scan noScores linuxPlatform
      (some (Osv.steady requestsAdvisory))).vulnerabilities.map VulnerabilityFinding.key =
        [some ("requests", "CVE-2018-18074")] := by decide
  have nothing : ((pipRun false).scan noScores linuxPlatform
      (some (Osv.steady requestsAdvisory))).vulnerabilities.map VulnerabilityFinding.key = [] := by
    decide
  rintro (⟨errors, _⟩ | contains)
  · exact errors no_errors
  · have keyed : some ("requests", "CVE-2018-18074") ∈ ((pipRun true).scan noScores linuxPlatform
        (some (Osv.steady requestsAdvisory))).vulnerabilities.map VulnerabilityFinding.key := by
      rw [reported]
      exact List.mem_singleton_self _
    obtain ⟨f, member, _⟩ := List.mem_map.mp keyed
    obtain ⟨g, found, _⟩ := contains f member
    rw [List.map_eq_nil_iff.mp nothing] at found
    cases found

end Case

end SentinelAgent.Vulnerability
