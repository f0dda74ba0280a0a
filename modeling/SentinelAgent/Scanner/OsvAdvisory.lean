import Mathlib.Algebra.GroupWithZero.Nat
import SentinelAgent.Library.Text

/- The advisories of the vulnerability database: what is kept of one, and what it says of a
   package that was asked about. -/
namespace SentinelAgent.Osv
open Text

structure OsvQuery where
  name : String
  version : String
  ecosystem : String
  deriving DecidableEq

inductive Severity where
  | critical | high | medium | low
  deriving DecidableEq

def Severity.fromLabel (label : String) : Option Severity :=
  match toAsciiLowercase (trim label) with
  | "critical" => some .critical
  | "high" | "important" => some .high
  | "medium" | "moderate" => some .medium
  | "low" | "negligible" | "unimportant" => some .low
  | _ => none

/- What a part of the record that only its database knows has as text under a key. -/
abbrev Specific := String → Option String

structure OsvSeverity where
  severityType : String
  score : String
  deriving DecidableEq

structure OsvAffected where
  package : Option (String × String)
  ranges : List (List (Option String))
  ecosystemSpecific : Option Specific
  databaseSpecific : Option Specific

structure OsvVulnerability where
  id : String
  summary : Option String
  details : Option String
  severity : List OsvSeverity
  affected : List OsvAffected
  aliases : List String
  upstream : List String
  related : List String
  references : List String
  databaseSpecific : Option Specific

/- `CVE-`, four digits, a hyphen and four to nineteen digits, in capitals. -/
def normalizeCveId (value : String) : Option String :=
  let upper := toAsciiUppercase (trim value)
  match upper.toList with
  | 'C' :: 'V' :: 'E' :: '-' :: rest =>
    let year := rest.takeWhile (· ≠ '-')
    match rest.drop year.length with
    | _ :: seq =>
      if year.length = 4 ∧ year.all Char.isDigit = true ∧ 4 ≤ seq.length ∧ seq.length ≤ 19 ∧
          seq.all Char.isDigit = true then
        some upper
      else none
    | [] => none
  | _ => none

def utf16Units (c : Char) : Nat := if c.toNat < 65536 then 1 else 2

def takeUnits : Nat → List Char → List Char
  | _, [] => []
  | budget, c :: cs =>
    if utf16Units c ≤ budget then c :: takeUnits (budget - utf16Units c) cs else []

def truncateUtf16 (value : String) (maxUnits : Nat) : String :=
  if (value.toList.map utf16Units).sum ≤ maxUnits then value
  else
    String.ofList (takeUnits (maxUnits - 3) value.toList) ++ if 3 ≤ maxUnits then "..." else ""

def extractCveId (v : OsvVulnerability) : Option String :=
  normalizeCveId v.id <|> v.aliases.findSome? normalizeCveId <|>
    v.upstream.findSome? normalizeCveId <|> v.related.findSome? normalizeCveId

def severityFromJson (value : Option Specific) : Option Severity :=
  value.bind fun value =>
    (["severity", "urgency"].filterMap value).findSome? Severity.fromLabel

def extractSeverityLabel (v : OsvVulnerability) : Option Severity :=
  (v.severity.filter fun s => !("CVSS_".toList.isPrefixOf s.severityType.toList)).findSome?
      (fun s => Severity.fromLabel s.score) <|>
    severityFromJson v.databaseSpecific <|>
    v.affected.findSome? fun a =>
      severityFromJson a.ecosystemSpecific <|> severityFromJson a.databaseSpecific

structure AffectedPackage where
  name : String
  ecosystem : String
  fixed : Option String
  unimportant : Bool
  deriving DecidableEq

structure Advisory (Score : Type) where
  id : String
  cveId : Option String
  summary : String
  cvssScore : Option Score
  severityLabel : Option Severity
  referenceUrl : Option String
  affected : List AffectedPackage

structure PackageCveResult (Score : Type) where
  packageName : String
  installedVersion : String
  ecosystem : String
  advisoryId : String
  cveId : Option String
  summary : String
  cvssScore : Option Score
  severityLabel : Option Severity
  fixedVersion : Option String
  referenceUrl : Option String
  debianUnimportant : Bool

def ratedUnimportant (specific : Specific) : Bool :=
  (specific "urgency").any fun urgency =>
    let trimmed := ((trim urgency).toList.reverse.dropWhile (· = '*')).reverse
    eqIgnoreAsciiCase (String.ofList trimmed) "unimportant"

def compactAffected (keep : String → String → Bool) (entry : OsvAffected) :
    Option AffectedPackage :=
  match entry.package with
  | none => none
  | some package =>
    if keep package.1 package.2 then some
      { name := package.1
        ecosystem := package.2
        fixed := entry.ranges.flatten.findSome? id
        unimportant := entry.ecosystemSpecific.any ratedUnimportant }
    else none

def summaryOf (v : OsvVulnerability) : String :=
  let label := (extractCveId v).getD v.id
  ((v.summary.map trim).filter (· ≠ "") <|>
    ((v.details.map trim).filter (· ≠ "")).map (truncateUtf16 · 200)).getD s!"Vulnerability {label}"

section Scores
/- The base score of an entry, to one decimal, if its vector has one. -/
variable {Score : Type} (baseScore : OsvSeverity → Option Score)

/- Version 3 first, then version 2. -/
def extractCvssScore (severities : List OsvSeverity) : Option Score :=
  ["CVSS_V3", "CVSS_V2"].findSome? fun kind =>
    (severities.filter fun s => s.severityType = kind).findSome? baseScore

def fromRecord (keep : String → String → Bool) (v : OsvVulnerability) : Advisory Score where
  id := v.id
  cveId := extractCveId v
  summary := summaryOf v
  cvssScore := extractCvssScore baseScore v.severity
  severityLabel := extractSeverityLabel v
  referenceUrl := v.references.find? (· ≠ "")
  affected := v.affected.filterMap (compactAffected keep)

def extractFixedVersion (affected : List AffectedPackage) (name ecosystem : String) :
    Option String :=
  (affected.filter fun a => a.name = name ∧ a.ecosystem = ecosystem).findSome? (·.fixed)

def isDebianUnimportant (affected : List AffectedPackage) (name ecosystem : String) : Bool :=
  "Debian".toList.isPrefixOf ecosystem.toList &&
    affected.any fun a => a.name = name && a.ecosystem = ecosystem && a.unimportant

def buildResult (pkg : OsvQuery) (advisory : Advisory Score) : PackageCveResult Score where
  packageName := pkg.name
  installedVersion := pkg.version
  ecosystem := pkg.ecosystem
  advisoryId := advisory.id
  cveId := advisory.cveId
  summary := advisory.summary
  cvssScore := advisory.cvssScore
  severityLabel := advisory.severityLabel
  fixedVersion := extractFixedVersion advisory.affected pkg.name pkg.ecosystem
  referenceUrl := advisory.referenceUrl
  debianUnimportant := isDebianUnimportant advisory.affected pkg.name pkg.ecosystem

end Scores
end SentinelAgent.Osv
