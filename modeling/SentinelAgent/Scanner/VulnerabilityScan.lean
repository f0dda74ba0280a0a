import SentinelAgent.Library.Greatest
import SentinelAgent.Scanner.DesktopPackages
import SentinelAgent.Scanner.DpkgOrder
import SentinelAgent.Scanner.OsvClient

/- The vulnerability scan: the packages and findings of each scanner, the advisories for the
   packages, each finding once, and the pages that are uploaded. -/
namespace SentinelAgent.Vulnerability
open Text DebianVersion
open Maps (Map)
open Osv (OsvQuery PackageCveResult Service Severity normalizeCveId truncateUtf16)

/- What the agent is built for and with. -/
structure Platform where
  system : System
  environment : Environment
  libraries : Libraries

/- What is made of scores, which are floating-point numbers: the base score of an advisory, the
   severity of a score and its one decimal, if it is a score. -/
structure Scoring (Score : Type) where
  baseScore : Osv.OsvSeverity → Option Score
  fromCvss : Score → Severity
  roundCvss : Score → Option Score

inductive PackageScanner where
  | apt (scanner : AptScanner)
  | rpm (scanner : RpmScanner)
  | brew (path : String)
  | macOsApps
  | windows
  | languages
  deriving DecidableEq

def PackageScanner.name : PackageScanner → String
  | .apt _ => "apt"
  | .rpm _ => "rpm"
  | .brew _ => "Homebrew"
  | .macOsApps => "macOS Applications"
  | .windows => "windows"
  | .languages => "language-packages"

def PackageScanner.installedPackages (platform : Platform) (host : Host) :
    PackageScanner → Except ScannerError (List InstalledPackage)
  | .apt scanner => scanner.getInstalledPackages host
  | .rpm scanner => scanner.getInstalledPackages host
  | .brew path => brewInstalledPackages platform.libraries host path
  | .macOsApps => .ok (appPackages host)
  | .windows => .ok (windowsInstalledPackages platform.libraries host)
  | .languages => .ok (collect platform.libraries platform.system host
    (userHomes platform.system platform.environment host))

/- The findings that need no database of vulnerabilities. -/
def PackageScanner.scanPackages {Score : Type} (platform : Platform) (host : Host) :
    PackageScanner → Except ScannerError (List (VulnerabilityFinding Score))
  | .apt scanner => scanner.scanPackages platform.libraries host
  | .rpm _ => .ok []
  | .brew path => brewScanPackages platform.libraries host path
  | .macOsApps => .ok []
  | .windows => windowsScanPackages platform.libraries host
  | .languages => .ok []

inductive ScanType where
  | packages | cveCheck | patchStatus
  deriving DecidableEq

def ScanType.text : ScanType → String
  | .packages => "packages"
  | .cveCheck => "cve_check"
  | .patchStatus => "patch_status"

structure VulnerabilityScanner where
  scanners : List PackageScanner
  osvClient : Option Service

/- A package manager that is not found available has no scanner. -/
def availableScanners (platform : Platform) (host : Host) : List PackageScanner :=
  (match platform.system with
    | .linux =>
      (if AptScanner.isAvailable host then [.apt (AptScanner.new platform.libraries host)] else []) ++
        if RpmScanner.isAvailable host then [.rpm (RpmScanner.new host)] else []
    | .macos => (findBrewExecutable host).toList.map .brew ++ [.macOsApps]
    | .windows => [.windows]) ++ [.languages]

section Queries

def validEcosystems : List String :=
  ["AlmaLinux", "Alpine", "Bitnami", "ConanCenter", "Chainguard", "CRAN", "crates.io", "Debian",
    "GHC", "GitHub Actions", "Go", "Hackage", "Hex", "Linux", "Maven", "npm", "NuGet", "OSS-Fuzz",
    "openSUSE", "Packagist", "Pub", "PyPI", "Red Hat", "Rocky Linux", "RubyGems", "SUSE", "SwiftURL",
    "Ubuntu", "Wolfi"]

/- The segments of what Red Hat qualifies may be empty, all but the last. -/
def isValidEcosystem (ecosystem : String) : Bool :=
  match split ':' ecosystem with
  | base :: segments =>
    base ∈ validEcosystems &&
      if base = "Red Hat" then !endsWith ":" ecosystem else segments.all (· ≠ "")
  | [] => false

def isKernelSource (name : String) : Bool := name == "linux" || beginsWith "linux-" name

def noteKernel (newest : Map (String × String) String) (q : OsvQuery) :
    Map (String × String) String :=
  match newest.lookup (q.name, q.ecosystem) with
  | some slot =>
    if compareDebianVersions q.version slot = .gt then
      newest.insert (q.name, q.ecosystem) q.version
    else newest
  | none => newest.insert (q.name, q.ecosystem) q.version

/- Of the kernels of one source package only the newest is asked about. -/
def keepNewestKernelVersions (queries : List OsvQuery) : List OsvQuery :=
  let newest := (queries.filter fun q => isKernelSource q.name).foldl noteKernel ∅
  queries.filter fun q =>
    !isKernelSource q.name || newest.lookup (q.name, q.ecosystem) == some q.version

/- What is asked about one package: its source, in its own ecosystem and the further ones. -/
def queriesOf (p : InstalledPackage) : List OsvQuery :=
  ((p.ecosystem.toList ++ p.extraEcosystems).filter isValidEcosystem).filterMap fun eco =>
    let name := p.sourceName.getD p.name
    let version := p.sourceVersion.getD p.version
    if name = "" ∨ version = "" then none else some ⟨name, version, eco⟩

def buildOsvQueries (packages : List InstalledPackage) : List OsvQuery :=
  keepNewestKernelVersions (Keyed.keepFirst id [] (packages.flatMap queriesOf))

end Queries

section Scan
variable {Score : Type} (scoring : Scoring Score) (platform : Platform)

/- The severity is that of the score, else the one named by the advisory, else medium. -/
def findingFromOsvResult (result : PackageCveResult Score) : VulnerabilityFinding Score :=
  let label := result.cveId.getD result.advisoryId
  let ecosystem := platform.libraries.toLowercase result.ecosystem
  { packageName := result.packageName
    installedVersion := result.installedVersion
    availableVersion := result.fixedVersion
    cveId := result.cveId
    advisoryId := some result.advisoryId
    cvssScore := result.cvssScore
    severity := (result.cvssScore.map scoring.fromCvss <|> result.severityLabel).getD .medium
    description := result.summary
    remediation := some (match result.fixedVersion with
      | some fixed => s!"Update {result.packageName} to version {fixed} (fixes {label})"
      | none => s!"Apply security updates to address {label}")
    source := s!"osv/{ecosystem}" }

def dropDebianUnimportant (results : List (PackageCveResult Score)) :
    List (PackageCveResult Score) :=
  results.filter fun r => !r.debianUnimportant

def scanCve (osvClient : Option Service) (packages : List InstalledPackage) :
    List (VulnerabilityFinding Score) × List String :=
  let queries := buildOsvQueries packages
  if queries = [] then ([], [])
  else match osvClient with
    | none => ([], ["OSV client not available: CVE lookup skipped"])
    | some osv =>
      let outcome := Osv.queryPackages osv queries scoring.baseScore
      ((dropDebianUnimportant outcome.results).map (findingFromOsvResult scoring platform),
        outcome.errors)

/- What identifies a finding: the package with the vulnerability, or else with the advisory. -/
def VulnerabilityFinding.key (f : VulnerabilityFinding Score) : Option (String × String) :=
  match f.cveId, f.advisoryId with
  | some cve, _ => some (f.packageName, cve)
  | none, some advisory => some (f.packageName, s!"advisory:{advisory}")
  | none, none => none

/- A score counts more than an advisory of the database, and this more than a fixed version. -/
def VulnerabilityFinding.rank (f : VulnerabilityFinding Score) : Nat :=
  4 * f.cvssScore.isSome.toNat + 2 * (beginsWith "osv/" f.source).toNat +
    f.availableVersion.isSome.toNat

/- Of the findings with one key the best, or the first of the best. -/
def dedupFindings (findings : List (VulnerabilityFinding Score)) :
    List (VulnerabilityFinding Score) :=
  Keyed.keepBest VulnerabilityFinding.key (fun f kept => kept.rank < f.rank) findings

structure VulnerabilityScanResult (Score : Type) where
  vulnerabilities : List (VulnerabilityFinding Score)
  scanType : ScanType
  packagesScanned : Nat
  errors : List String
  packages : List InstalledPackage

def VulnerabilityScanResult.isComplete (r : VulnerabilityScanResult Score) : Bool :=
  r.errors = []

def inventory (scanners : List PackageScanner) (host : Host) : List InstalledPackage :=
  scanners.flatMap fun scanner =>
    match scanner.installedPackages platform host with
    | .ok packages => packages
    | .error _ => []

def listErrors (scanners : List PackageScanner) (host : Host) : List String :=
  scanners.filterMap fun scanner =>
    match scanner.installedPackages platform host with
    | .ok _ => none
    | .error e => some s!"Scanner {scanner.name} failed to list packages: {e.text}"

/- Without a known vulnerability an outdated package does not count in a check for them. -/
def checked (scanType : ScanType) (scanners : List PackageScanner) (host : Host) :
    List (VulnerabilityFinding Score) :=
  scanners.flatMap fun scanner =>
    match scanner.scanPackages platform host with
    | .ok findings =>
      if scanType = .cveCheck then findings.filter (·.cveId.isSome) else findings
    | .error _ => []

def checkErrors (Score : Type) (scanners : List PackageScanner) (host : Host) : List String :=
  scanners.filterMap fun scanner =>
    match (scanner.scanPackages platform host :
      Except ScannerError (List (VulnerabilityFinding Score))) with
    | .ok _ => none
    | .error e => some s!"Scanner {scanner.name} failed: {e.text}"

/- The host may change from the listing of the packages to the check of them. -/
def VulnerabilityScanner.scan (scanner : VulnerabilityScanner) (scanType : ScanType)
    (listing checking : Host) : VulnerabilityScanResult Score :=
  let packages := inventory platform scanner.scanners listing
  let cve := if scanType = .cveCheck then scanCve scoring platform scanner.osvClient packages
    else ([], [])
  { vulnerabilities :=
      dedupFindings (checked platform scanType scanner.scanners checking ++ cve.1)
    scanType := scanType
    packagesScanned := packages.length
    errors := listErrors platform scanner.scanners listing ++
      checkErrors platform Score scanner.scanners checking ++ cve.2
    packages := packages }

end Scan

section Upload
variable {Score : Type} (scoring : Scoring Score)

def maxItemsPerPage : Nat := 500
def maxPages : Nat := 1000
def maxPackageName : Nat := 255
def maxVersion : Nat := 128
def maxDescription : Nat := 4096
def maxRemediation : Nat := 2048
def maxSource : Nat := 64
def maxAdvisoryId : Nat := 64

def severityText : Severity → String
  | .critical => "critical"
  | .high => "high"
  | .medium => "medium"
  | .low => "low"

structure UploadItem (Score : Type) where
  packageName : String
  installedVersion : String
  availableVersion : Option String
  cveId : String
  advisoryId : Option String
  cvssScore : Option Score
  severity : String
  description : String
  remediation : Option String
  source : String

def utf16Length (s : String) : Nat := (s.toList.map Osv.utf16Units).sum

/- What has no valid identifier of a vulnerability or no name is not uploaded. -/
def buildItem (v : VulnerabilityFinding Score) : Option (UploadItem Score) :=
  match v.cveId.bind normalizeCveId with
  | none => none
  | some cveId =>
    if trim v.packageName = "" then none
    else some
      { packageName := truncateUtf16 (trim v.packageName) maxPackageName
        installedVersion := truncateUtf16 v.installedVersion maxVersion
        availableVersion := v.availableVersion.map (truncateUtf16 · maxVersion)
        cveId := cveId
        advisoryId := (v.advisoryId.map trim).filter fun id =>
          id ≠ "" ∧ utf16Length id ≤ maxAdvisoryId
        cvssScore := v.cvssScore.bind scoring.roundCvss
        severity := severityText v.severity
        description := truncateUtf16 v.description maxDescription
        remediation := v.remediation.map (truncateUtf16 · maxRemediation)
        source := truncateUtf16 v.source maxSource }

structure UploadPage (Score : Type) where
  vulnerabilities : List (UploadItem Score)
  scanType : String
  scanId : String
  page : Nat
  pageCount : Nat
  scanComplete : Bool

/- There is a page even for no findings. Where there are too many, the scan is not complete. -/
def buildPages (findings : List (VulnerabilityFinding Score)) (scanType scanId : String)
    (scanComplete : Bool) : List (UploadPage Score) :=
  let items := findings.filterMap (buildItem scoring)
  let fits := items.length ≤ maxItemsPerPage * maxPages
  let sent := if fits then items else items.take (maxItemsPerPage * maxPages)
  let pieces := if sent = [] then [[]] else Paged.chunks maxItemsPerPage sent
  pieces.zipIdx.map fun (vulnerabilities, i) =>
    { vulnerabilities := vulnerabilities
      scanType := scanType
      scanId := scanId
      page := i + 1
      pageCount := pieces.length
      scanComplete := scanComplete && fits }

def pagesOf (result : VulnerabilityScanResult Score) (scanId : String) : List (UploadPage Score) :=
  buildPages scoring result.vulnerabilities result.scanType.text scanId result.isComplete

end Upload

/-! Of each kernel source in each ecosystem one version is asked about, a newest one. -/

open DebianVersion Dpkg Greatest Maps Std
open Osv (OsvQuery)

def sourceKey (q : OsvQuery) : String × String := (q.name, q.ecosystem)

theorem noteKernel_lookup (source : String × String) (newest : Map (String × String) String)
    (q : OsvQuery) : (noteKernel newest q).lookup source =
      if sourceKey q = source then better compareDebianVersions (newest.lookup source) q.version
      else newest.lookup source := by
  unfold noteKernel
  by_cases same : sourceKey q = source
  · subst same
    rw [if_pos rfl]
    cases held : newest.lookup (q.name, q.ecosystem) with
    | none => simp [sourceKey, held, better, List.argAux]
    | some slot =>
      by_cases greater : compareDebianVersions q.version slot = .gt
      · simp [sourceKey, held, greater, better, List.argAux]
      · simp [sourceKey, held, greater, better, List.argAux]
  · have other : source ≠ (q.name, q.ecosystem) := fun is => same is.symm
    rw [if_neg same]
    cases newest.lookup (q.name, q.ecosystem) with
    | none => simp [Finmap.lookup_insert_of_ne _ other]
    | some slot =>
      dsimp only
      split
      · exact Finmap.lookup_insert_of_ne _ other
      · rfl

/- The versions of one source in one ecosystem. -/
def versionsOf (source : String × String) (queries : List OsvQuery) : List String :=
  (queries.filter (sourceKey · = source)).map OsvQuery.version

theorem newest_lookup (source : String × String) (kernel : isKernelSource source.1 = true)
    (queries : List OsvQuery) :
    ((queries.filter fun q => isKernelSource q.name).foldl noteKernel ∅).lookup source =
      greatest compareDebianVersions (versionsOf source queries) := by
  have held := @held_foldl _ _ _ _ _ _ noteKernel (Finmap.lookup source) sourceKey OsvQuery.version
    source (noteKernel_lookup source) (queries.filter fun q => isKernelSource q.name) ∅
    (Finmap.lookup_empty source)
  rw [held, List.filter_filter]
  have kernels : ∀ q : OsvQuery, (decide (sourceKey q = source) && isKernelSource q.name) =
      decide (sourceKey q = source) := by
    intro q
    by_cases same : sourceKey q = source
    · subst same
      simpa [sourceKey] using kernel
    · simp [same]
  simp only [kernels, versionsOf]

theorem kept_others (queries : List OsvQuery) :
    (keepNewestKernelVersions queries).filter (fun q => !isKernelSource q.name) =
      queries.filter fun q => !isKernelSource q.name := by
  rw [keepNewestKernelVersions, List.filter_filter]
  apply List.filter_congr
  intro q _
  cases isKernelSource q.name <;> simp

theorem kept_of_source (source : String × String) (kernel : isKernelSource source.1 = true)
    (queries : List OsvQuery) :
    (keepNewestKernelVersions queries).filter (sourceKey · = source) =
      (queries.filter (sourceKey · = source)).filter fun q =>
        greatest compareDebianVersions (versionsOf source queries) == some q.version := by
  rw [keepNewestKernelVersions, List.filter_filter, List.filter_filter]
  apply List.filter_congr
  intro q _
  by_cases same : sourceKey q = source
  · subst same
    have kernel : isKernelSource q.name = true := kernel
    rw [← newest_lookup _ kernel queries]
    simp [kernel, sourceKey]
  · simp [same]

/-- The comparison is total and transitive, and it is dpkg's order, where epochs of more than
    64 bits count as one. Of every kernel source in every ecosystem the packages of one version
    are kept, than which the source has no greater there, and all other packages are. -/
theorem newest_kernels_kept : (∀ a, compareDebianVersions a a = .eq) ∧
    (∀ a b, compareDebianVersions a b = (compareDebianVersions b a).swap) ∧
    (∀ a b c, (compareDebianVersions a b).isLE = true → (compareDebianVersions b c).isLE = true →
      (compareDebianVersions a c).isLE = true) ∧
    (∀ a b, compareDebianVersions a b =
      compareVersions (readVersion a).bounded (readVersion b).bounded) ∧
    (∀ a b, (readVersion a).epoch < 2 ^ 64 - 1 ∨ (readVersion b).epoch < 2 ^ 64 - 1 →
      compareDebianVersions a b = compareVersions (readVersion a) (readVersion b)) ∧
    ∀ queries, (keepNewestKernelVersions queries).filter (fun q => !isKernelSource q.name) =
        (queries.filter fun q => !isKernelSource q.name) ∧
      ∀ source : String × String, isKernelSource source.1 = true →
        versionsOf source queries ≠ [] →
        ∃ newest ∈ versionsOf source queries,
          (∀ version ∈ versionsOf source queries,
            (compareDebianVersions version newest).isLE = true) ∧
          (keepNewestKernelVersions queries).filter (sourceKey · = source) =
            (queries.filter (sourceKey · = source)).filter (·.version = newest) := by
  refine ⟨fun a => ReflCmp.compare_self, fun a b => OrientedCmp.eq_swap,
    fun a b c first second => TransCmp.isLE_trans first second, compareDebianVersions_eq, ?_, ?_⟩
  · intro a b small
    rw [compareDebianVersions_eq, compareVersions_bounded small]
  · intro queries
    refine ⟨kept_others queries, ?_⟩
    intro source kernel some
    obtain ⟨newest, is_greatest, member, largest⟩ :=
      @exists_greatest _ compareDebianVersions _ _ some
    refine ⟨newest, member, largest, ?_⟩
    rw [kept_of_source source kernel, is_greatest]
    apply List.filter_congr
    intro q _
    rw [Option.some_beq_some, beq_eq_decide]
    exact decide_eq_decide.mpr eq_comm

def twoKernels : List OsvQuery :=
  [⟨"linux", "6.1.99-1", "Debian:12"⟩, ⟨"linux", "6.1.106-3", "Debian:12"⟩]

theorem newest_kernels_kept_two : (compareDebianVersions "6.1.99-1" "6.1.106-3").isLE = true ∧
    compareDebianVersions "6.1.99-1" "6.1.106-3" =
      compareVersions (readVersion "6.1.99-1") (readVersion "6.1.106-3") ∧
    ∃ newest ∈ versionsOf ("linux", "Debian:12") twoKernels,
      (keepNewestKernelVersions twoKernels).filter (sourceKey · = ("linux", "Debian:12")) =
        (twoKernels.filter (sourceKey · = ("linux", "Debian:12"))).filter (·.version = newest) := by
  obtain ⟨-, -, trans, -, same, kept⟩ := newest_kernels_kept
  obtain ⟨newest, member, -, exactly⟩ :=
    (kept twoKernels).2 ("linux", "Debian:12") (by decide) (by decide)
  exact ⟨trans _ "6.1.100" _ (by decide) (by decide),
    same _ _ (by decide), newest, member, exactly⟩

/- Two epochs of more than 64 bits are not told apart; and of two ways to write one version the
   first one met is the one that is asked about. -/
theorem large_epochs_equal :
    compareDebianVersions "18446744073709551616:1" "18446744073709551617:1" = .eq ∧
      compareVersions (readVersion "18446744073709551616:1")
        (readVersion "18446744073709551617:1") = .lt ∧
      compareDebianVersions "6.01" "6.1" = .eq ∧
      keepNewestKernelVersions [⟨"linux", "6.01", "Debian:12"⟩, ⟨"linux", "6.1", "Debian:12"⟩] =
        [⟨"linux", "6.01", "Debian:12"⟩] := by
  decide

end SentinelAgent.Vulnerability
