import Mathlib.Data.List.Destutter
import SentinelAgent.Scanner.LanguagePackages

/- The scanners of Windows and macOS: pending updates and the installed software, Homebrew and
   the applications. -/
namespace SentinelAgent.Vulnerability
open Text
open Osv (Severity normalizeCveId truncateUtf16)

section Windows
variable (lib : Libraries)

def collapse (s : String) : String := " ".intercalate (words s)

def isTitleNoise (c : Char) : Bool := c = '-' || c = ',' || isWhitespace c

/- The title without what changes from month to month. -/
def normalizeWindowsUpdateTitle (title : String) : String :=
  let short := collapse (lib.removeAll .titleVersion
    (lib.removeAll .titleKb (lib.removeFirst .titleDatePrefix (trim title))))
  let inner := ((short.toList.dropWhile isTitleNoise).reverse.dropWhile isTitleNoise).reverse
  let cleaned := (String.ofList inner).replace " - - " " - "
  if cleaned = "" then trim title else cleaned

def windowsUpdatePackageName (title : String) (kbIds : List String) : String :=
  kbIds.headD (normalizeWindowsUpdateTitle lib title)

/- The articles of a list separated by commas, or else those in the text. -/
def extractKbIds (text : String) : List String :=
  let listed := (split ',' text).filterMap fun token =>
    let token := trim token
    if token ≠ "" ∧ allDigits token = true then some s!"KB{token}"
    else (lib.captures .kbId token).head?.map fun digits => s!"KB{digits}"
  let ids := Keyed.keepFirst id [] listed
  if ids = [] then
    Keyed.keepFirst id [] ((lib.captures .kbId text).map fun digits => s!"KB{digits}")
  else ids

def updateSeverity (update : WindowsUpdate) : Severity :=
  let severity := match update.severity with
    | "Critical" => Severity.critical
    | "High" => .high
    | "Medium" => .medium
    | _ => .low
  if update.isSecurityUpdate ∧ severity = .low then .medium else severity

/- One finding for each vulnerability that the update is about, or one without. -/
def updateFindings {Score : Type} (update : WindowsUpdate) : List (VulnerabilityFinding Score) :=
  let listed := extractKbIds lib update.kbs
  let kbIds := if listed = [] then extractKbIds lib update.title else listed
  let cves := (((split ',' update.cves).filterMap normalizeCveId).insertionSort
    (· ≤ ·)).destutter (· ≠ ·)
  let slots := if cves = [] then [none] else cves.map some
  let named := if kbIds = [] then "N/A" else ", ".intercalate kbIds
  slots.map fun cveId =>
    { packageName := windowsUpdatePackageName lib update.title kbIds
      installedVersion := "current"
      availableVersion := some (kbIds.headD "update available")
      cveId := cveId
      advisoryId := kbIds.head?
      cvssScore := none
      severity := updateSeverity update
      description := update.description.getD update.title
      remediation := some s!"Install Windows Update: {update.title} (KB: {named})"
      source := "windows-update" }

/- A line of `winget upgrade` read from its end: name, id, version, available, source. -/
def upgradeLine {Score : Type} (line : String) : Option (VulnerabilityFinding Score) :=
  match (words line).reverse with
  | _ :: available :: current :: id :: rest =>
    let name := if rest = [] then id else " ".intercalate rest.reverse
    if current ≠ "" ∧ available ≠ "" ∧ current ≠ available then
      some { outdatedPackage name current available "winget" with
        remediation := some s!"Run: winget upgrade {id}" }
    else none
  | _ => none

/- What stands under the line that ends the headings. -/
def wingetUpgrades {Score : Type} (host : Host) : List (VulnerabilityFinding Score) :=
  match host.command .wingetUpgrade with
  | .ok output =>
    if output.success then
      (((lines output.stdout).dropWhile fun line => !beginsWith "---" line).drop 1).filterMap
        upgradeLine
    else []
  | .error _ => []

/- Where the search for updates fails, this is an error: what is pending is unknown. -/
def windowsScanPackages {Score : Type} (host : Host) :
    Except ScannerError (List (VulnerabilityFinding Score)) :=
  match host.command .windowsUpdates with
  | .ok output =>
    if output.success then
      let printed := (lines output.stdout).filter fun line => trim line ≠ ""
      .ok ((printed.filterMap lib.windowsUpdate).flatMap (updateFindings lib) ++ wingetUpgrades host)
    else
      let stderr := truncateUtf16 (trim output.stderr) 300
      .error (.command s!"Windows Update search failed: {stderr}")
  | .error e => .error (.command s!"Failed to run Windows Update check: {e}")

def registryPackage (app : WindowsApp) : InstalledPackage :=
  { InstalledPackage.new app.name app.version with
    publisher := some (app.publisher.getD "")
    description := some "windows-registry" }

/- A query of the registry that fails finds no software, and there is no error. -/
def registryPackages (host : Host) : List InstalledPackage :=
  match host.command .registrySoftware with
  | .ok output =>
    if output.success then
      (((lines output.stdout).filter fun line => trim line ≠ "").filterMap lib.windowsApp).map
        registryPackage
    else []
  | .error _ => []

/- A line of `winget list`, unless the software is known under its name or id. -/
def addWinget (packages : List InstalledPackage) (line : String) : List InstalledPackage :=
  match (words line).reverse with
  | _ :: version :: id :: rest =>
    let name := if rest = [] then id else " ".intercalate rest.reverse
    if packages.any fun p => lib.toLowercase p.name == lib.toLowercase name ||
        lib.toLowercase p.name == lib.toLowercase id then
      packages
    else packages ++ [{ InstalledPackage.new name version with description := some "winget" }]
  | _ => packages

def windowsInstalledPackages (host : Host) : List InstalledPackage :=
  let registry := registryPackages lib host
  match host.command .wingetList with
  | .ok output =>
    if output.success then
      (((lines output.stdout).dropWhile fun line => !beginsWith "-" line).filter
        fun line => !beginsWith "-" line).foldl (addWinget lib) registry
    else registry
  | .error _ => registry

end Windows

section Brew

structure BrewPackage where
  name : String
  installedVersion : String
  isCask : Bool
  deprecated : Bool
  deprecationReason : Option String

def commonBrewPaths : List (Path × String) :=
  [(["/", "opt", "homebrew", "bin", "brew"], "/opt/homebrew/bin/brew"),
    (["/", "usr", "local", "bin", "brew"], "/usr/local/bin/brew")]

def findBrewExecutable (host : Host) : Option String :=
  match host.command .brewVersion with
  | .ok _ => some "brew"
  | .error _ => (commonBrewPaths.find? fun entry => host.present entry.1).map Prod.snd

def brewPackages (info : BrewInfo) : List BrewPackage :=
  (info.formulae.map fun formula =>
    ⟨formula.name, formula.installed.headD "unknown", false, formula.deprecated,
      formula.deprecationReason⟩) ++
  info.casks.map fun cask => ⟨cask.token, cask.version, true, cask.deprecated, cask.deprecationReason⟩

/- What is printed is read whatever the exit code is, unless it is nothing. -/
def getInstalledPackagesJson (lib : Libraries) (host : Host) (brew : String) :
    Except ScannerError (List BrewPackage) :=
  match host.command (.brewInfo brew) with
  | .error e => .error (.command s!"Failed to execute brew info: {e}")
  | .ok output =>
    if trim output.stdout = "" then
      if output.success then .ok []
      else .error (.command s!"brew info failed: {output.stderr}")
    else match lib.brewInfo output.stdout with
      | .error e => .error (.parse s!"Failed to parse brew info JSON: {e}")
      | .ok info => .ok (brewPackages info)

def getOutdatedPackagesJson (lib : Libraries) (host : Host) (brew : String) :
    Except ScannerError BrewOutdatedInfo :=
  match host.command (.brewOutdated brew) with
  | .error e => .error (.command s!"Failed to execute brew outdated: {e}")
  | .ok output =>
    if trim output.stdout = "" then .ok ⟨[], []⟩
    else match lib.brewOutdated output.stdout with
      | .error e => .error (.parse s!"Failed to parse brew outdated JSON: {e}")
      | .ok outdated => .ok outdated

def deprecatedFinding {Score : Type} (p : BrewPackage) : VulnerabilityFinding Score :=
  let warning := match p.deprecationReason with
    | some reason => s!"deprecated: {reason}"
    | none => "deprecated"
  { outdatedPackage p.name p.installedVersion "unknown" (if p.isCask then "brew-cask" else "brew") with
    description := s!"Package {p.name} is {warning}"
    remediation := some s!"Consider uninstalling or replacing: brew uninstall {p.name}" }

def installedVersionOf (installed : List BrewPackage) (isCask : Bool) (name : String) : String :=
  ((installed.find? fun p => p.isCask = isCask ∧ p.name = name).map (·.installedVersion)).getD
    "unknown"

def brewScanPackages {Score : Type} (lib : Libraries) (host : Host) (brew : String) :
    Except ScannerError (List (VulnerabilityFinding Score)) :=
  match getInstalledPackagesJson lib host brew with
  | .error e => .error e
  | .ok installed =>
    match getOutdatedPackagesJson lib host brew with
    | .error e => .error e
    | .ok outdated =>
      .ok ((installed.filter (·.deprecated)).map deprecatedFinding ++
        ((outdated.formulae.filter fun formula => !formula.pinned).map fun formula =>
          { outdatedPackage formula.name (installedVersionOf installed false formula.name)
              formula.currentVersion "brew" with
            remediation := some s!"Run: brew upgrade {formula.name}" }) ++
        outdated.casks.map fun cask =>
          { outdatedPackage cask.name (installedVersionOf installed true cask.name)
              cask.currentVersion "brew-cask" with
            remediation := some s!"Run: brew upgrade --cask {cask.name}" })

/- Homebrew's names are no names of an ecosystem. -/
def brewInstalledPackages (lib : Libraries) (host : Host) (brew : String) :
    Except ScannerError (List InstalledPackage) :=
  (getInstalledPackagesJson lib host brew).map fun packages => packages.map fun p =>
    { InstalledPackage.new p.name p.installedVersion with
      description := some (if p.isCask then "brew-cask" else "brew") }

end Brew

section Applications

def extractPlistKey (xml key : String) : String :=
  (((afterText s!"<key>{key}</key>" xml).bind (afterText "<string>")).bind
    (beforeText "</string>")).getD "unknown"

def extractPublisher (xml : String) : String :=
  let name := extractPlistKey xml "CFBundleGetInfoString"
  if name = "unknown" ∨ name = "" then extractPlistKey xml "NSHumanReadableCopyright" else name

def appsDir : Path := ["/", "Applications"]

def extractAppMetadata (host : Host) (app : String) : Option InstalledPackage :=
  let plist := appsDir ++ [app, "Contents", "Info.plist"]
  if host.present plist then
    (beforeEnd ".app" app).map fun name =>
      match host.command (.plutil plist) with
      | .ok output =>
        if output.success then
          { InstalledPackage.new name (extractPlistKey output.stdout "CFBundleShortVersionString") with
            publisher := some (extractPublisher output.stdout)
            description := some "macos-app-bundle" }
        else { InstalledPackage.new name "unknown" with description := some "macos-app-bundle" }
      | .error _ => { InstalledPackage.new name "unknown" with description := some "macos-app-bundle" }
  else none

def isApp (name : String) : Bool := endsWith ".app" name && name ≠ ".app"

def appPackages (host : Host) : List InstalledPackage :=
  ((host.listing appsDir).getD []).filterMap fun name =>
    if isApp name then extractAppMetadata host name else none

end Applications

end SentinelAgent.Vulnerability
