import Mathlib.Data.List.Sort
import SentinelAgent.Library.Keyed
import SentinelAgent.Scanner.LinuxPackages

/- The packages of the language package managers: Python, Node.js and Rust. -/
namespace SentinelAgent.Vulnerability
open Text

def maxMetadataBytes : Nat := 1024 * 1024
def maxEntriesPerDir : Nat := 20000

/- The children of a directory that are directories, sorted. One that cannot be read has none. -/
def childDirs (host : Host) (base : Path) (start : String) : List Path :=
  match host.listing base with
  | none => []
  | some names =>
    let dirs := (names.take maxEntriesPerDir).filter fun name =>
      beginsWith start name && host.isDir (base ++ [name])
    (dirs.insertionSort (· ≤ ·)).map fun name => base ++ [name]

def systemProfiles : List String :=
  ["Shared", "Guest", "Public", "Default", "Default User", "All Users"]

def homesBase (system : System) (env : Environment) : Path :=
  match system with
  | .windows =>
    let drive := env.systemDrive.getD "C:"
    [s!"{drive}\\", "Users"]
  | .macos => ["/", "Users"]
  | .linux => ["/", "home"]

def userHomes (system : System) (env : Environment) (host : Host) : List Path :=
  let homes := (childDirs host (homesBase system env) "").filter fun dir =>
    let name := dir.getLast?.getD ""
    name ∉ systemProfiles && !beginsWith "." name
  match env.home with
  | some own => if homes.contains own then homes else homes ++ [own]
  | none => homes

/- The text of a small file that is no symbolic link. -/
def readMetadata (host : Host) (path : Path) : Option String :=
  match host.stat path with
  | some stat =>
    if stat.isFile = false ∨ maxMetadataBytes < stat.len then none else host.text path
  | none => none

section Python
variable (lib : Libraries)

/- Lower case, and one `-` for a run of `-`, `_` and `.`. -/
def normalizePypiName (name : String) : String :=
  ((trim name).toList.foldl (fun (normalized, separated) c =>
    if c = '-' ∨ c = '_' ∨ c = '.' then
      (if separated then normalized else normalized ++ "-", true)
    else (normalized ++ lib.toLowercase (String.ofList [c]), false)) ("", false)).1

/- The headers end at the first blank line. The last of a kind counts. -/
def parsePythonMetadata (content : String) : Option (String × String) :=
  let headers := (lines content).takeWhile fun line => trim line ≠ ""
  let name := (headers.filterMap (afterStart "Name:")).getLast?.map (normalizePypiName lib)
  let version := (headers.filterMap (afterStart "Version:")).getLast?.map trim
  match name, version with
  | some name, some version => if name ≠ "" ∧ version ≠ "" then some (name, version) else none
  | _, _ => none

def published (ecosystem : String) (package : String × String) : InstalledPackage :=
  { InstalledPackage.new package.1 package.2 with
    ecosystem := some ecosystem
    publisher := some ecosystem }

def pythonPackagesIn (host : Host) (sitePackages : Path) : List InstalledPackage :=
  match host.listing sitePackages with
  | none => []
  | some names =>
    ((names.take maxEntriesPerDir).filter (endsWith ".dist-info")).filterMap fun name =>
      ((readMetadata host (sitePackages ++ [name, "METADATA"])).bind
        (parsePythonMetadata lib)).map (published "PyPI")

end Python

def pythonVersionDirs (host : Host) (lib : Path) (leaves : List String) : List Path :=
  (childDirs host lib "python3").flatMap fun dir => leaves.map fun leaf => dir ++ [leaf]

/- The `site-packages` directories outside the distribution's own. -/
def pythonSiteDirs (system : System) (host : Host) (homes : List Path) : List Path :=
  if system = .windows then
    ([["C:\\"], ["C:\\", "Program Files"]].flatMap fun base =>
      (childDirs host base "Python3").map (· ++ ["Lib", "site-packages"])) ++
    homes.flatMap fun home =>
      (childDirs host (home ++ ["AppData", "Local", "Programs", "Python"]) "Python3").map
        (· ++ ["Lib", "site-packages"]) ++
      (childDirs host (home ++ ["AppData", "Roaming", "Python"]) "Python3").map
        (· ++ ["site-packages"])
  else
    pythonVersionDirs host ["/", "usr", "local", "lib"] ["site-packages", "dist-packages"] ++
    pythonVersionDirs host ["/", "opt", "homebrew", "lib"] ["site-packages"] ++
    ((childDirs host ["/", "Library", "Frameworks", "Python.framework", "Versions"] "3").flatMap
      fun framework => pythonVersionDirs host (framework ++ ["lib"]) ["site-packages"]) ++
    homes.flatMap fun home =>
      pythonVersionDirs host (home ++ [".local", "lib"]) ["site-packages"] ++
      (childDirs host (home ++ ["Library", "Python"]) "3").map
        (· ++ ["lib", "python", "site-packages"])

section Node

def parsePackageJson (lib : Libraries) (content : String) : Option (String × String) :=
  (lib.json content).bind fun manifest =>
    (((manifest.get "name").bind Json.asStr).map trim).bind fun name =>
      (((manifest.get "version").bind Json.asStr).map trim).bind fun version =>
        if name ≠ "" ∧ version ≠ "" then some (name, version) else none

/- The packages at the top level, those of a scope included. -/
def npmPackagesIn (lib : Libraries) (host : Host) (nodeModules : Path) : List InstalledPackage :=
  let packageDirs := (childDirs host nodeModules "").flatMap fun dir =>
    let name := dir.getLast?.getD ""
    if beginsWith "@" name then childDirs host dir ""
    else if beginsWith "." name then []
    else [dir]
  packageDirs.filterMap fun dir =>
    ((readMetadata host (dir ++ ["package.json"])).bind (parsePackageJson lib)).map
      (published "npm")

/- The global `node_modules` directories outside the distribution's own. -/
def npmGlobalDirs (system : System) (host : Host) (homes : List Path) : List Path :=
  if system = .windows then
    ["C:\\", "Program Files", "nodejs", "node_modules"] ::
      homes.map (· ++ ["AppData", "Roaming", "npm", "node_modules"])
  else
    ["/", "usr", "local", "lib", "node_modules"] :: ["/", "opt", "homebrew", "lib", "node_modules"] ::
      homes.flatMap fun home =>
        (home ++ [".npm-global", "lib", "node_modules"]) ::
          (childDirs host (home ++ [".nvm", "versions", "node"]) "v").map
            (· ++ ["lib", "node_modules"])

end Node

section Rust

/- `ripgrep 14.1.0 (registry+https://…)`. What was not published has no advisories. -/
def cargoInstall (key : String) : Option InstalledPackage :=
  match splitFirst ' ' key with
  | none => none
  | some (name, rest) =>
    match splitFirst ' ' rest with
    | none => none
    | some (version, source) =>
      if (beginsWith "(registry+" source || beginsWith "(sparse+" source) &&
          (contains source "crates.io-index" || contains source "index.crates.io") &&
          name ≠ "" && version ≠ "" then
        some (published "crates.io" (name, version))
      else none

def parseCargoInstalls (lib : Libraries) (content : String) : List InstalledPackage :=
  match ((lib.json content).bind (·.get "installs")).bind Json.asObject with
  | some installs =>
    (installs.filterMap fun entry => cargoInstall entry.1).insertionSort fun a b => a.name ≤ b.name
  | none => []

end Rust

/- Everything found below the homes and system-wide, each package of an ecosystem and a version
   once. -/
def collect (lib : Libraries) (system : System) (host : Host) (homes : List Path) :
    List InstalledPackage :=
  Keyed.keepFirst (fun p => (p.ecosystem, p.name, p.version)) []
    ((pythonSiteDirs system host homes).flatMap (pythonPackagesIn lib host) ++
      (npmGlobalDirs system host homes).flatMap (npmPackagesIn lib host) ++
      homes.flatMap fun home =>
        ((readMetadata host (home ++ [".cargo", ".crates2.json"])).map
          (parseCargoInstalls lib)).getD [])

end SentinelAgent.Vulnerability
