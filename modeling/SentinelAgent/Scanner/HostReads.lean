import SentinelAgent.Library.Text

/- What a vulnerability scan reads of a host, and what it leaves to libraries. -/
namespace SentinelAgent.Vulnerability

/- The system the agent is built for. -/
inductive System where
  | linux | macos | windows
  deriving DecidableEq

/- The components of a path, the root or drive the first of them. -/
abbrev Path := List String

inductive Command where
  -- `dpkg --version`, `dpkg-query -W`, `apt list --upgradable -qq`, `apt-cache show`
  | dpkgVersion | dpkgQuery | aptList | aptCacheShow (package : String)
  -- `rpm --version`, `rpm -qa`
  | rpmVersion | rpmQuery
  -- `brew --version`, `brew info --json=v2 --installed`, `brew outdated --json`, `plutil -convert xml1`
  | brewVersion | brewInfo (brew : String) | brewOutdated (brew : String) | plutil (plist : Path)
  -- the PowerShell search for pending updates, the one of the registry, `winget upgrade`, `winget list`
  | windowsUpdates | registrySoftware | wingetUpgrade | wingetList
  deriving DecidableEq

structure Output where
  success : Bool
  stdout : String
  stderr : String
  deriving DecidableEq

structure Stat where
  isFile : Bool
  len : Nat
  deriving DecidableEq

/- What a host gives at one moment. A command may not start, a file or directory may be missing
   or not readable. -/
structure Host where
  command : Command → Except String Output
  text : Path → Option String
  -- of the path itself, without following a symbolic link
  stat : Path → Option Stat
  listing : Path → Option (List String)
  isDir : Path → Bool
  present : Path → Bool

/- The variables of the environment: `SystemDrive`, and the home directory where it is absolute. -/
structure Environment where
  systemDrive : Option String
  home : Option Path

inductive Json where
  | null
  | bool (value : Bool)
  | number (text : String)
  | string (value : String)
  | array (items : List Json)
  | object (fields : List (String × Json))

def Json.get (j : Json) (key : String) : Option Json :=
  match j with
  | .object fields => fields.lookup key
  | _ => none

def Json.asBool : Json → Option Bool
  | .bool value => some value
  | _ => none

def Json.asStr : Json → Option String
  | .string value => some value
  | _ => none

def Json.asArray : Json → Option (List Json)
  | .array items => some items
  | _ => none

def Json.asObject : Json → Option (List (String × Json))
  | .object fields => some fields
  | _ => none

/- The regular expressions of the scanners. -/
inductive Pattern where
  -- `CVE-\d{4}-\d+`
  | cveId
  -- the leading `YYYY-MM ` of a title, `(KB5034123)` or `- KB2267602`, `(Version 1.403.1234.0)`
  | titleDatePrefix | titleKb | titleVersion
  -- `KB` and six to eight digits as a word, the digits captured
  | kbId

structure WindowsUpdate where
  title : String
  description : Option String
  severity : String
  kbs : String
  cves : String
  isSecurityUpdate : Bool

structure WindowsApp where
  name : String
  version : String
  publisher : Option String

structure BrewFormula where
  name : String
  installed : List String
  deprecated : Bool
  deprecationReason : Option String

structure BrewCask where
  token : String
  version : String
  deprecated : Bool
  deprecationReason : Option String

structure BrewInfo where
  formulae : List BrewFormula
  casks : List BrewCask

structure BrewOutdatedFormula where
  name : String
  currentVersion : String
  pinned : Bool

structure BrewOutdatedCask where
  name : String
  currentVersion : String

structure BrewOutdatedInfo where
  formulae : List BrewOutdatedFormula
  casks : List BrewOutdatedCask

/- What texts are to the libraries: Unicode, JSON and regular expressions. -/
structure Libraries where
  toLowercase : String → String
  json : String → Option Json
  windowsUpdate : String → Option WindowsUpdate
  windowsApp : String → Option WindowsApp
  brewInfo : String → Except String BrewInfo
  brewOutdated : String → Except String BrewOutdatedInfo
  -- every match, and what each captures
  findAll : Pattern → String → List String
  captures : Pattern → String → List String
  -- the text without its first match, and without any
  removeFirst : Pattern → String → String
  removeAll : Pattern → String → String

def Output.failed (o : Except String Output) : Bool :=
  match o with
  | .ok output => !output.success
  | .error _ => true

/- Some reads of the first moment fail at the second, all others give the same. -/
structure SomeFail (first second : Host) : Prop where
  command : ∀ c, second.command c = first.command c ∨ Output.failed (second.command c) = true
  text : ∀ p, second.text p = first.text p ∨ second.text p = none
  stat : ∀ p, second.stat p = first.stat p ∨ second.stat p = none
  listing : ∀ p, second.listing p = first.listing p ∨ second.listing p = none
  isDir : ∀ p, second.isDir p = first.isDir p ∨ second.isDir p = false
  present : ∀ p, second.present p = first.present p ∨ second.present p = false

end SentinelAgent.Vulnerability
