import SentinelAgent.Library.Keyed
import SentinelAgent.Scanner.DebianVersion
import SentinelAgent.Scanner.HostReads
import SentinelAgent.Scanner.OsvAdvisory

/- Installed packages and findings, and the scanners of the two package managers of Linux. -/
namespace SentinelAgent.Vulnerability
open Text DebianVersion
open Osv (Severity)

inductive ScannerError where
  | command (message : String)
  | parse (message : String)
  deriving DecidableEq

def ScannerError.text : ScannerError → String
  | .command message => s!"Command execution failed: {message}"
  | .parse message => s!"Parse error: {message}"

structure InstalledPackage where
  name : String
  version : String
  publisher : Option String
  arch : Option String
  description : Option String
  ecosystem : Option String
  sourceName : Option String
  sourceVersion : Option String
  extraEcosystems : List String
  deriving DecidableEq

def InstalledPackage.new (name version : String) : InstalledPackage where
  name := name
  version := version
  publisher := none
  arch := none
  description := none
  ecosystem := none
  sourceName := none
  sourceVersion := none
  extraEcosystems := []

structure VulnerabilityFinding (Score : Type) where
  packageName : String
  installedVersion : String
  availableVersion : Option String
  cveId : Option String
  advisoryId : Option String
  cvssScore : Option Score
  severity : Severity
  description : String
  remediation : Option String
  source : String

def outdatedPackage {Score : Type} (package installed available source : String) :
    VulnerabilityFinding Score where
  packageName := package
  installedVersion := installed
  availableVersion := some available
  cveId := none
  advisoryId := none
  cvssScore := none
  severity := .medium
  description := s!"Package {package} is outdated (installed: {installed}, available: {available})"
  remediation := some s!"Update {package} to version {available}"
  source := source

section OsRelease

/- The fields of `/etc/os-release`, `KEY=value` and perhaps quoted. The last of a key counts. -/
def parseOsRelease (content : String) : List (String × String) :=
  (lines content).filterMap fun line =>
    let line := trim line
    if beginsWith "#" line then none
    else (splitFirst '=' line).map fun (key, value) =>
      (trim key, trimOf '\'' (trimOf '"' (trim value)))

def fieldOf (fields : List (String × String)) (key : String) : Option String :=
  fields.reverse.lookup key

def osRelease : Path := ["/", "etc", "os-release"]

end OsRelease

section Apt

structure AptScanner where
  ecosystem : Option String
  proEcosystem : Option String
  deriving DecidableEq

def debianReleaseForCodename (codename : String) : Option String :=
  match toAsciiLowercase codename with
  | "jessie" => some "8"
  | "stretch" => some "9"
  | "buster" => some "10"
  | "bullseye" => some "11"
  | "bookworm" => some "12"
  | "trixie" => some "13"
  | "forky" => some "14"
  | "duke" => some "15"
  | _ => none

def ubuntuVersionForCodename (codename : String) : Option String :=
  match toAsciiLowercase codename with
  | "trusty" => some "14.04"
  | "xenial" => some "16.04"
  | "bionic" => some "18.04"
  | "focal" => some "20.04"
  | "jammy" => some "22.04"
  | "kinetic" => some "22.10"
  | "lunar" => some "23.04"
  | "mantic" => some "23.10"
  | "noble" => some "24.04"
  | "oracular" => some "24.10"
  | "plucky" => some "25.04"
  | "questing" => some "25.10"
  | "resolute" => some "26.04"
  | _ => none

def debianEcosystem (versionId : String) : Option String :=
  let major := (split '.' versionId).headD ""
  if major ≠ "" ∧ allDigits major = true then some s!"Debian:{major}" else none

def twoDigits (s : String) : Bool := s.toList.length = 2 && allDigits s

def ubuntuEcosystem (versionId : String) (versionLabel : Option String) : Option String :=
  match splitFirst '.' versionId with
  | none => none
  | some (year, rest) =>
    let month := (split '.' rest).headD ""
    if twoDigits year && twoDigits month then
      (parseUnsigned 8 year).map fun number =>
        if (month = "04" ∧ number % 2 = 0) ∨ versionLabel.any (contains · "LTS") = true then
          s!"Ubuntu:{year}.{month}:LTS"
        else s!"Ubuntu:{year}.{month}"
    else none

/- The release-qualified ecosystem: Debian and Ubuntu by their version, derivatives by the
   codename of the release they come from. -/
def osvEcosystemFromOsRelease (content : String) : Option String :=
  let fields := parseOsRelease content
  let get (key : String) := (fieldOf fields key).filter (· ≠ "")
  let id := toAsciiLowercase ((get "ID").getD "")
  let idLike := toAsciiLowercase ((get "ID_LIKE").getD "")
  let ubuntu := if id = "ubuntu" then (get "VERSION_ID").bind (ubuntuEcosystem · (get "VERSION"))
    else none
  let debian := if id = "debian" ∨ id = "raspbian" then
      (get "VERSION_ID").bind debianEcosystem <|>
        ((get "VERSION_CODENAME").bind debianReleaseForCodename).map fun release =>
          s!"Debian:{release}"
    else none
  let ofDebian := if "debian" ∈ words idLike then
      ((get "DEBIAN_CODENAME" <|> get "VERSION_CODENAME").bind debianReleaseForCodename).map
        fun release => s!"Debian:{release}"
    else none
  ubuntu <|> debian <|>
    match (get "UBUNTU_CODENAME").bind ubuntuVersionForCodename with
    | some version => ubuntuEcosystem version none
    | none => ofDebian

/- An older client lists no services: being attached is enough. -/
def esmEnabled (status : Json) : Bool :=
  match (status.get "services").bind Json.asArray with
  | some services => services.any fun service =>
    beginsWith "esm-" (((service.get "name").bind Json.asStr).getD "") &&
      ((service.get "status").bind Json.asStr).getD "" == "enabled"
  | none => true

/- The ecosystem with the fixes for an attached machine of a long-term release. -/
def ubuntuProEcosystem (lib : Libraries) (ecosystem statusJson : String) : Option String :=
  match afterStart "Ubuntu:" ecosystem with
  | none => none
  | some release =>
    if endsWith ":LTS" release = false ∨ beginsWith "Pro:" release = true then none
    else match lib.json statusJson with
      | none => none
      | some status =>
        if (status.get "attached").bind Json.asBool = some true ∧ esmEnabled status = true then
          some s!"Ubuntu:Pro:{release}"
        else none

def ubuntuProStatusFile : Path := ["/", "var", "lib", "ubuntu-advantage", "status.json"]

/- Without a release file that can be read there is no ecosystem, and no error. -/
def AptScanner.new (lib : Libraries) (host : Host) : AptScanner :=
  let ecosystem := (host.text osRelease).bind osvEcosystemFromOsRelease
  { ecosystem := ecosystem
    proEcosystem := ecosystem.bind fun eco =>
      (host.text ubuntuProStatusFile).bind (ubuntuProEcosystem lib eco) }

def AptScanner.isAvailable (host : Host) : Bool := !Output.failed (host.command .dpkgVersion)

/- One line of `dpkg-query`: package, version, status, source package, source version and
   maintainer, separated by tabs. Only what is fully installed counts. -/
def parseDpkgLine (ecosystem : Option String) (line : String) : Option InstalledPackage :=
  let parts := split '\t' line
  match parts with
  | first :: second :: status :: _ =>
    let name := trim first
    let version := trim second
    if (words status).getLast? ≠ some "installed" ∨ name = "" then none
    else
      let sourceName := ((parts[3]?.map trim).filter (· ≠ "")).map fun s => (words s).headD s
      let sourceVersion := (parts[4]?.map trim).filter (· ≠ "")
      some { InstalledPackage.new name version with
        publisher := some ((parts[5]?.map trim).getD "")
        sourceName := some (sourceName.getD name)
        sourceVersion := some (sourceVersion.getD version)
        ecosystem := ecosystem }
  | _ => none

def parseDpkgQueryOutput (stdout : String) (ecosystem : Option String) : List InstalledPackage :=
  (lines stdout).filterMap (parseDpkgLine ecosystem)

def AptScanner.getInstalledPackages (apt : AptScanner) (host : Host) :
    Except ScannerError (List InstalledPackage) :=
  match host.command .dpkgQuery with
  | .error e => .error (.command s!"Failed to run dpkg-query: {e}")
  | .ok output =>
    if output.success then
      .ok ((parseDpkgQueryOutput output.stdout apt.ecosystem).map fun package =>
        { package with extraEcosystems := package.extraEcosystems ++ apt.proEcosystem.toList })
    else .error (.command s!"dpkg-query failed: {output.stderr}")

structure Upgradable where
  name : String
  oldVersion : String
  newVersion : String
  isSecurity : Bool
  deriving DecidableEq

/- `package/source version arch [upgradable from: old_version]` -/
def parseAptListLine (line : String) : Option Upgradable :=
  let parts := words line
  match parts with
  | nameSource :: newVersion :: _ :: _ :: _ =>
    let pieces := split '/' nameSource
    some
      { name := pieces.headD ""
        oldVersion := (parts[parts.idxOf "from:" + 1]?.map (trimEndOf ']')).getD "unknown"
        newVersion := newVersion
        isSecurity := contains (pieces[1]?.getD "") "security" }
  | _ => none

/- Where the list cannot be had, this is an error, also when the other tool answers. -/
def getUpgradablePackages (host : Host) : Except ScannerError (List Upgradable) :=
  match host.command .aptList with
  | .error e => .error (.command s!"Failed to run apt list: {e}")
  | .ok output =>
    if output.success then .ok ((lines output.stdout).filterMap parseAptListLine)
    else .error (.command "apt list --upgradable failed")

/- Where the advisories of a package cannot be shown, there are none. -/
def checkSecurityAdvisories (lib : Libraries) (host : Host) (package : String) : List String :=
  match host.command (.aptCacheShow package) with
  | .ok output => if output.success then lib.findAll .cveId output.stdout else []
  | .error _ => []

def sourceOf (installed : List InstalledPackage) (name : String) : Option (String × String) :=
  (installed.reverse.filter fun p => p.name = name).findSome? fun p =>
    p.sourceName.bind fun source => p.sourceVersion.map fun version => (source, version)

def upgradeFinding {Score : Type} (lib : Libraries) (host : Host)
    (installed : List InstalledPackage) (u : Upgradable) : VulnerabilityFinding Score :=
  let (package, version) := (sourceOf installed u.name).getD (u.name, u.oldVersion)
  let finding := outdatedPackage package version u.newVersion "apt"
  if u.isSecurity then
    { finding with
      severity := .high
      description :=
        s!"Security update available for {u.name} ({u.oldVersion} -> {u.newVersion})"
      remediation :=
        some s!"Run: sudo apt update && sudo apt install --only-upgrade {u.name}"
      cveId := (checkSecurityAdvisories lib host u.name).head? }
  else finding

def AptScanner.scanPackages {Score : Type} (lib : Libraries) (apt : AptScanner) (host : Host) :
    Except ScannerError (List (VulnerabilityFinding Score)) :=
  match apt.getInstalledPackages host with
  | .error e => .error e
  | .ok installed =>
    match getUpgradablePackages host with
    | .error e => .error e
    | .ok upgradable => .ok (upgradable.map (upgradeFinding lib host installed))

end Apt

section Rpm

structure RpmEcosystem where
  main : String
  extra : List String
  -- advisories name source packages
  bySource : Bool
  deriving DecidableEq

structure RpmScanner where
  ecosystem : Option RpmEcosystem
  deriving DecidableEq

def rpmEcosystemFromOsRelease (content : String) : Option RpmEcosystem :=
  let fields := parseOsRelease content
  let versionId := (fieldOf fields "VERSION_ID").getD ""
  let major := (split '.' versionId).head?.filter fun major => major ≠ "" ∧ allDigits major = true
  match (fieldOf fields "ID").map toAsciiLowercase with
  | some "almalinux" => major.map fun major => ⟨s!"AlmaLinux:{major}", [], false⟩
  | some "rocky" => major.map fun major => ⟨s!"Rocky Linux:{major}", [], true⟩
  | some "rhel" => major.map fun major =>
    ⟨s!"Red Hat:enterprise_linux:{major}::baseos",
      [s!"Red Hat:enterprise_linux:{major}::appstream"], false⟩
  | some "opensuse-leap" =>
    if versionId ≠ "" ∧ (versionId.toList.all fun c => c.isDigit || c == '.') = true then
      some ⟨s!"openSUSE:Leap {versionId}", [], true⟩
    else none
  | some "opensuse-tumbleweed" => some ⟨"openSUSE:Tumbleweed", [], true⟩
  | _ => none

/- A release file that cannot be read is an empty one. -/
def RpmScanner.new (host : Host) : RpmScanner :=
  ⟨rpmEcosystemFromOsRelease ((host.text osRelease).getD "")⟩

/- The tool alone is not enough: a Debian system may have it. -/
def RpmScanner.isAvailable (host : Host) : Bool :=
  (host.isDir ["/", "var", "lib", "rpm"] || host.isDir ["/", "usr", "lib", "sysimage", "rpm"]) &&
    !host.present ["/", "var", "lib", "dpkg", "status"] &&
    !Output.failed (host.command .rpmVersion)

/- `openssl-3.0.1-41.el9_0.src.rpm` is of `openssl`, in version `3.0.1-41.el9_0`. -/
def parseSourceRpm (sourceRpm : String) : Option (String × String) :=
  (beforeEnd ".src.rpm" sourceRpm <|> beforeEnd ".nosrc.rpm" sourceRpm).bind fun stem =>
    (splitLast '-' stem).bind fun (rest, release) =>
      (splitLast '-' rest).bind fun (name, version) =>
        if name = "" ∨ version = "" ∨ release = "" then none
        else some (name, s!"{version}-{release}")

/- `epoch:version-release`, without the epoch when it is zero. -/
def evr (epoch versionRelease : String) : String :=
  match parseUnsigned 64 (trim epoch) with
  | some number => if 0 < number then s!"{number}:{versionRelease}" else versionRelease
  | none => versionRelease

def isInstallOnly (name : String) : Bool := name == "kernel" || beginsWith "kernel-" name

def withRpmEcosystem (eco : RpmEcosystem) (epoch sourceRpm : String) (p : InstalledPackage) :
    InstalledPackage :=
  let tagged := { p with
    ecosystem := some eco.main
    extraEcosystems := p.extraEcosystems ++ eco.extra }
  if eco.bySource then
    match parseSourceRpm sourceRpm with
    | some (name, versionRelease) => { tagged with
      sourceName := some name
      sourceVersion := some (evr epoch versionRelease) }
    | none => tagged
  else tagged

/- One line of `rpm -qa`: name, epoch, version, release, architecture, source package and vendor.
   Imported keys appear as packages. -/
def parseRpmLine (ecosystem : Option RpmEcosystem) (line : String) : Option InstalledPackage :=
  match split '\t' line with
  | [rawName, epoch, version, release, arch, sourceRpm, rawVendor] =>
    let name := trim rawName
    let vendor := trim rawVendor
    if name = "" ∨ name = "gpg-pubkey" ∨ version = "" then none
    else
      let package := { InstalledPackage.new name (evr epoch s!"{version}-{release}") with
        arch := some (trim arch)
        publisher := if vendor ≠ "" ∧ vendor ≠ "(none)" then some vendor else none }
      some (match ecosystem with
        | some eco => withRpmEcosystem eco epoch sourceRpm package
        | none => package)
  | _ => none

/- Of a kernel package several versions stay installed side by side. -/
def kernelOf (p : InstalledPackage) : Option (String × Option String) :=
  if isInstallOnly p.name then some (p.name, p.arch) else none

def newerPackage (p kept : InstalledPackage) : Bool :=
  compareDebianVersions p.version kept.version == .gt

/- Of a kernel package of one architecture only the newest version stays, where the first
   stood. -/
def parseRpmQueryOutput (output : String) (ecosystem : Option RpmEcosystem) :
    List InstalledPackage :=
  Keyed.keepBest kernelOf newerPackage ((lines output).filterMap (parseRpmLine ecosystem))

def RpmScanner.getInstalledPackages (rpm : RpmScanner) (host : Host) :
    Except ScannerError (List InstalledPackage) :=
  match host.command .rpmQuery with
  | .error e => .error (.command s!"Failed to run rpm: {e}")
  | .ok output =>
    if output.success then .ok (parseRpmQueryOutput output.stdout rpm.ecosystem)
    else .error (.command s!"rpm -qa failed: {output.stderr}")

end Rpm

end SentinelAgent.Vulnerability
