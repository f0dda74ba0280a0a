import SentinelAgent.Library.Text
import SentinelAgent.Response.IsolationRules

/- Authorizations of the triage, and what an authorization covers. The regular expressions are
   those of a library. -/
namespace SentinelAgent.Response
open Isolation Text

/-! An address, as it is read from a text. -/

def hexValue (c : Char) : Option Nat :=
  if c.isDigit then some (c.toNat - '0'.toNat)
  else if 'a' ≤ c ∧ c ≤ 'f' then some (c.toNat - 'a'.toNat + 10)
  else if 'A' ≤ c ∧ c ≤ 'F' then some (c.toNat - 'A'.toNat + 10)
  else none

def digitOf (radix : Nat) (c : Char) : Option Nat := (hexValue c).filter fun n => decide (n < radix)

/- A number of no more than so many digits below a limit, and what stands after it. -/
def readNumber (radix maxDigits limit : Nat) (allowZeroPrefix : Bool) (text : List Char) :
    Option (Nat × List Char) :=
  let digits := text.takeWhile fun c => (digitOf radix c).isSome
  let value := (digits.filterMap (digitOf radix)).foldl (fun value digit => value * radix + digit) 0
  let zeroPrefix := digits.head? == some '0' && decide (1 < digits.length)
  if digits = [] ∨ maxDigits < digits.length ∨ limit ≤ value ∨
      (zeroPrefix = true ∧ allowZeroPrefix = false) then none
  else some (value, text.drop digits.length)

def readGivenChar (c : Char) : List Char → Option (List Char)
  | [] => none
  | x :: rest => if x = c then some rest else none

/- What stands after the separator, which the first of a sequence has none before it. -/
def readSeparator (separator : Char) (first : Bool) (text : List Char) : Option (List Char) :=
  if first then some text else readGivenChar separator text

def readOctets : Nat → Bool → Nat → List Char → Option (Nat × List Char)
  | 0, _, value, text => some (value, text)
  | left + 1, first, value, text => do
    let text ← readSeparator '.' first text
    let (octet, rest) ← readNumber 10 3 256 false text
    readOctets left false (value * 256 + octet) rest

def readIpv4Addr (text : List Char) : Option (Nat × List Char) := readOctets 4 true 0 text

/- Groups of an IPv6 address, at most so many; the last two may be written as an IPv4 address,
   which ends them. -/
def readGroups : Nat → Bool → List Char → List Nat × Bool × List Char
  | 0, _, text => ([], false, text)
  | left + 1, first, text =>
    match if 0 < left then readSeparator ':' first text >>= readIpv4Addr else none with
    | some (address, rest) => ([address / 65536, address % 65536], true, rest)
    | none =>
      match readSeparator ':' first text >>= readNumber 16 4 65536 true with
      | some (group, rest) =>
        let more := readGroups left false rest
        (group :: more.1, more.2)
      | none => ([], false, text)

def groupsValue (groups : List Nat) : Nat := groups.foldl (fun value group => value * 65536 + group) 0

/- All eight groups, or those on both sides of a `::`. -/
def readIpv6Addr (text : List Char) : Option (Nat × List Char) :=
  let (head, headIpv4, rest) := readGroups 8 true text
  if head.length = 8 then some (groupsValue head, rest)
  else if headIpv4 then none
  else do
    let rest ← readGivenChar ':' rest
    let rest ← readGivenChar ':' rest
    let (tail, _, rest) := readGroups (8 - (head.length + 1)) true rest
    some (groupsValue (head ++ List.replicate (8 - head.length - tail.length) 0 ++ tail), rest)

/- The whole text has to be an address. -/
def parseIpAddr (text : String) : Option IpAddr :=
  match readIpv4Addr text.toList with
  | some (address, rest) => if rest = [] then some (.v4 (Fin.ofNat (2 ^ 32) address)) else none
  | none =>
    match readIpv6Addr text.toList with
    | some (address, rest) => if rest = [] then some (.v6 (Fin.ofNat (2 ^ 128) address)) else none
    | none => none

/-! The authorizations. -/

inductive AllowlistRuleType where
  | ipAddress | processPattern | domain | filePath | usbDevice | systemIncident
  deriving DecidableEq

structure AllowlistRule where
  ruleType : AllowlistRuleType
  pattern : String

/- The expression for a text taken as it is, and whether an expression is in a text. An
   expression that cannot be built is in none. -/
structure Regex where
  escape : String → String
  isMatch : (caseInsensitive : Bool) → (expression value : String) → Bool

/- Titles of incidents in English, as they once were, and those they have had since. -/
def legacyTitlePrefixes : List (String × String) :=
  [("Suspicious process detected: ", "Processus suspect : "),
   ("Crypto miner detected: ", "Mineur de cryptomonnaie : "),
   ("System change detected: Gatekeeper disabled", "Changement système : Gatekeeper désactivé"),
   ("System change detected: SSH root login enabled",
    "Changement système : connexion SSH de root autorisée"),
   ("System change detected: ", "Changement système : "),
   ("Firewall protection disabled", "Pare-feu désactivé"),
   ("Antivirus protection disabled: ", "Antivirus désactivé : "),
   ("Known malicious file: ", "Fichier malveillant connu : "),
   ("Encoded command execution: ", "Commande encodée : "),
   ("Reverse shell detected: ", "Shell inversé : "),
   ("Registry start-up value added: ", "Valeur de registre ajoutée : "),
   ("Registry start-up value changed: ", "Valeur de registre modifiée : "),
   ("Hidden process (", "Processus caché ("),
   ("Hidden listening port (", "Port en écoute caché ("),
   ("Hidden kernel module (", "Module noyau caché ("),
   ("Library forced on every program (", "Bibliothèque imposée à tous les programmes ("),
   ("Network interface capturing all traffic (", "Interface réseau qui capte tout le trafic ("),
   ("Regular file in /dev (", "Fichier ordinaire dans /dev ("),
   ("Hidden program in a temporary directory (", "Programme caché dans un dossier temporaire ("),
   ("Process running a deleted program (", "Processus dont le programme a été supprimé ("),
   ("Account created with the identifier of root: ",
    "Compte créé avec l'identifiant de root : "),
   ("Account created: ", "Compte créé : "),
   ("Account given the identifier of root: ", "Compte doté de l'identifiant de root : "),
   ("Account given a login shell: ", "Compte doté d'un shell de connexion : "),
   ("Account added to an administration group: ",
    "Compte ajouté à un groupe d'administration : "),
   ("Service installed: ", "Service installé : "),
   ("Command of a service changed: ", "Commande d'un service modifiée : "),
   ("New listening port: ", "Nouveau port en écoute : ")]

def dropText (start s : String) : String := String.ofList (s.toList.drop start.toList.length)

/- The text with the first place where a text stands in it rewritten. -/
def replaceFirst (needle replacement s : String) : String :=
  match beforeText needle s, afterText needle s with
  | some before, some after => before ++ replacement ++ after
  | _, _ => s

def beginsIgnoringCase (start s : String) : Bool :=
  eqIgnoreAsciiCase (String.ofList (s.toList.take start.toList.length)) start

def legacyTitlePattern (pattern : String) : Option String :=
  if beginsIgnoringCase "File of the " pattern then
    let rest := dropText "File of the " pattern
    (beforeText " rootkit (" (toAsciiLowercase rest)).map fun before =>
      let name := String.ofList (rest.toList.take before.toList.length)
      "Fichier du rootkit " ++ name ++ dropText (name ++ " rootkit") rest
  else
    (legacyTitlePrefixes.find? fun title => beginsIgnoringCase title.1 pattern).map fun title =>
      let rest := dropText title.1 pattern
      if beginsWith "Account added to an administration group" title.1 then
        title.2 ++ replaceFirst " in " " dans " rest
      else title.2 ++ rest

/- Two addresses agree in their first bits. -/
def sameNetwork (width bits address network : Nat) : Bool :=
  decide (bits ≤ width) && address / 2 ^ (width - bits) == network / 2 ^ (width - bits)

def networkBits (width : Nat) (length : String) : Option Nat :=
  if length = "" then some width else parseUnsigned 32 length

/- A pattern for addresses, `network` or `network/bits`. -/
def addressMatches (pattern value : String) : Bool :=
  let (network, length) := (splitFirst '/' pattern).getD (pattern, "")
  match parseIpAddr value, parseIpAddr network with
  | some (.v4 address), some (.v4 network) =>
    (networkBits 32 length).any fun bits => sameNetwork 32 bits address.val network.val
  | some (.v6 address), some (.v6 network) =>
    (networkBits 128 length).any fun bits => sameNetwork 128 bits address.val network.val
  | _, _ => false

section Coverage
variable (regex : Regex)

def AllowlistRule.patternMatches (rule : AllowlistRule) (pattern value : String) : Bool :=
  if contains pattern "*" then
    let expression := "^" ++ (regex.escape pattern).replace "\\*" ".*" ++ "$"
    regex.isMatch (rule.ruleType != .filePath) expression value
  else if rule.ruleType = .filePath then value == pattern
  else eqIgnoreAsciiCase value pattern

/- Match only the selected scope. -/
def AllowlistRule.isMatch (rule : AllowlistRule) (value : String) : Bool :=
  let pattern := trim rule.pattern
  if pattern = "" ∨ value = "" then false
  else if rule.ruleType = .ipAddress then addressMatches pattern value
  else rule.patternMatches regex pattern value ||
    rule.ruleType == .systemIncident &&
      (legacyTitlePattern pattern).any fun french => rule.patternMatches regex french value

def allowlistCovers (rules : List AllowlistRule) (kind : AllowlistRuleType) (value : String) :
    Bool :=
  rules.any fun rule => rule.ruleType == kind && rule.isMatch regex value

end Coverage

end SentinelAgent.Response
