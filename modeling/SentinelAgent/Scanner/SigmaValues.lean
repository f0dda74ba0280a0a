import SentinelAgent.Library.Base64
import SentinelAgent.Library.Maps
import SentinelAgent.Library.Text
import SentinelAgent.Library.Utf8
import SentinelAgent.Response.IsolationRules
import SentinelAgent.Scanner.Correlation

/- What a YAML document of a rule file holds, and its fields as text. -/
namespace SentinelAgent.Sigma
open Text

inductive Yaml where
  | string (text : String)
  | integer (number : Int)
  | real (text : String)
  | boolean (flag : Bool)
  | null
  | array (items : List Yaml)
  | hash (entries : List (Yaml × Yaml))
  /- An alias, or nothing at all. -/
  | badValue

namespace Yaml

def asStr : Yaml → Option String
  | .string text => some text
  | _ => none

def asBool : Yaml → Option Bool
  | .boolean flag => some flag
  | _ => none

def asInteger : Yaml → Option Int
  | .integer number => some number
  | _ => none

def asHash : Yaml → Option (List (Yaml × Yaml))
  | .hash entries => some entries
  | _ => none

def asArray : Yaml → Option (List Yaml)
  | .array items => some items
  | _ => none

def isBadValue : Yaml → Bool
  | .badValue => true
  | _ => false

def get (document : Yaml) (key : String) : Yaml :=
  ((document.asHash.getD []).find? fun entry => entry.1.asStr == some key).elim .badValue Prod.snd

end Yaml

def scalarText : Yaml → Option String
  | .string text => some text
  | .integer number => some (toString number)
  | .real text => some text
  | .boolean flag => some (toString flag)
  | _ => none

def textField (document : Yaml) (key : String) : Option String :=
  ((scalarText (document.get key)).map trim).filter fun text => text != ""

def tagsOf (document : Yaml) : List String :=
  ((document.get "tags").asArray.getD []).filterMap scalarText

/-!
How the value or the values of one field of a Sigma search become comparisons. What the
libraries do (regular expressions, decimal numbers, addresses) is a parameter.
-/

open Maps

inductive Anchor where
  | exact | contains | startsWith | endsWith
  deriving DecidableEq, Repr

inductive Comparison where
  | lt | lte | gt | gte
  deriving DecidableEq, Repr

structure Modifiers where
  anchor : Anchor
  all : Bool
  regex : Bool
  cased : Bool
  exists' : Bool
  windash : Bool
  wide : Bool
  base64 : Bool
  base64Offset : Bool
  comparison : Option Comparison
  fieldref : Bool
  cidr : Bool
  deriving DecidableEq, Repr

namespace Modifiers

def none : Modifiers where
  anchor := .exact
  all := false
  regex := false
  cased := false
  exists' := false
  windash := false
  wide := false
  base64 := false
  base64Offset := false
  comparison := Option.none
  fieldref := false
  cidr := false

def add (modifiers : Modifiers) (name : String) : Except String Modifiers :=
  match toAsciiLowercase name with
  | "contains" => .ok { modifiers with anchor := .contains }
  | "startswith" => .ok { modifiers with anchor := .startsWith }
  | "endswith" => .ok { modifiers with anchor := .endsWith }
  | "all" => .ok { modifiers with all := true }
  | "re" => .ok { modifiers with regex := true }
  | "cased" => .ok { modifiers with cased := true }
  | "exists" => .ok { modifiers with exists' := true }
  | "windash" => .ok { modifiers with windash := true }
  | "wide" => .ok { modifiers with wide := true }
  | "utf16le" => .ok { modifiers with wide := true }
  | "utf16" => .ok { modifiers with wide := true }
  | "base64" => .ok { modifiers with base64 := true }
  | "base64offset" => .ok { modifiers with base64Offset := true }
  | "lt" => .ok { modifiers with comparison := some .lt }
  | "lte" => .ok { modifiers with comparison := some .lte }
  | "gt" => .ok { modifiers with comparison := some .gt }
  | "gte" => .ok { modifiers with comparison := some .gte }
  | "fieldref" => .ok { modifiers with fieldref := true }
  | "cidr" => .ok { modifiers with cidr := true }
  | unknown => .error s!"modifier '{unknown}' is not supported"

def parse (names : List String) : Except String Modifiers := names.foldlM add none

end Modifiers

/-! What the libraries do. -/

structure Libraries (F : Type) where
  /- A regular expression and whether case counts; then whether it is found in a text. -/
  regex : String → Bool → Except String (String → Bool)
  escape : String → String
  parseF64 : String → Option F
  lt : F → F → Bool
  le : F → F → Bool
  parseAddress : String → Option Isolation.IpAddr

/-! Networks. -/

structure Network where
  address : Isolation.IpAddr
  width : Nat

namespace Network

def parse {F : Type} (l : Libraries F) (source : String) : Except String Network :=
  let text := trim source
  let halves := (splitFirst '/' text).getD (text, "")
  match l.parseAddress halves.1 with
  | none => .error s!"'{text}' is not a network"
  | some address =>
    let widest := if address.isIpv6 then 128 else 32
    if (splitFirst '/' text).isNone then .ok { address, width := widest }
    else
      match (parseUnsigned 8 halves.2).filter fun width => decide (width ≤ widest) with
      | some width => .ok { address, width }
      | none => .error s!"'{text}' is not a network"

def bits : Isolation.IpAddr → Nat
  | .v4 address => address.val * 2 ^ 96
  | .v6 address => address.val

/- An IPv4 address written as IPv6 is that address. -/
def unmapped : Isolation.IpAddr → Isolation.IpAddr
  | .v4 address => .v4 address
  | .v6 address =>
    if address.val / 2 ^ 32 = 0xffff then .v4 (Fin.ofNat _ address.val) else .v6 address

def contains (network : Network) (address : Isolation.IpAddr) : Bool :=
  if (unmapped address).isIpv6 != network.address.isIpv6 then false
  else if network.width = 0 then true
  else bits (unmapped address) / 2 ^ (128 - network.width) ==
    bits network.address / 2 ^ (128 - network.width)

end Network

/-! Comparisons. -/

inductive Matcher (F : Type) where
  | null
  | pattern (isMatch : String → Bool)
  | compare (comparison : Comparison) (threshold : F)
  | fieldRef (other : String)
  | cidr (network : Network)

def Comparison.holds {F : Type} (l : Libraries F) (comparison : Comparison) (number threshold : F) :
    Bool :=
  match comparison with
  | .lt => l.lt number threshold
  | .lte => l.le number threshold
  | .gt => l.lt threshold number
  | .gte => l.le threshold number

def Matcher.matches {F : Type} (l : Libraries F) (m : Matcher F) (value : Option String)
    (event : Scanner.SigmaEvent) : Bool :=
  match m with
  | .null => value.all fun text => text == ""
  | .pattern isMatch => value.any isMatch
  | .compare comparison threshold =>
    (value.bind fun text => l.parseF64 (trim text)).any fun number =>
      comparison.holds l number threshold
  | .fieldRef other =>
    match value, event.lookup other with
    | some text, some held => eqIgnoreAsciiCase text held
    | _, _ => false
  | .cidr network =>
    (value.bind fun text => l.parseAddress (trim text)).any network.contains

/- One entry of a search. -/
structure FieldMatch (F : Type) where
  field : String
  matchers : List (Matcher F)
  all : Bool
  exists' : Option Bool

def FieldMatch.matches {F : Type} (l : Libraries F) (fm : FieldMatch F)
    (event : Scanner.SigmaEvent) : Bool :=
  match fm.exists' with
  | some expected => (event.lookup fm.field).isSome == expected
  | none =>
    if fm.all then fm.matchers.all fun m => m.matches l (event.lookup fm.field) event
    else fm.matchers.any fun m => m.matches l (event.lookup fm.field) event

/-! The variants of a value. -/

def isFlagDash (c : Char) : Bool := c == '-' || c == '/'

/- The dash of a flag stands at the start or after a blank. -/
def hasFlag : Bool → List Char → Bool
  | _, [] => false
  | here, c :: cs => (here && isFlagDash c) || hasFlag (isWhitespace c) cs

def withDash (dash : Char) : Bool → List Char → List Char
  | _, [] => []
  | here, c :: cs => (if here && isFlagDash c then dash else c) :: withDash dash (isWhitespace c) cs

def windashVariants (value : String) : List String :=
  if hasFlag true value.toList then
    ['-', '/', Char.ofNat 0x2013, Char.ofNat 0x2014, Char.ofNat 0x2015].map fun dash =>
      String.ofList (withDash dash true value.toList)
  else [value]

def utf16Units (c : Char) : List Nat :=
  if c.toNat < 0x10000 then [c.toNat]
  else [0xD800 + (c.toNat - 0x10000) / 0x400, 0xDC00 + (c.toNat - 0x10000) % 0x400]

def wideBytes (value : String) : List UInt8 :=
  value.toList.flatMap fun c => (utf16Units c).flatMap fun unit =>
    [UInt8.ofNat (unit % 256), UInt8.ofNat (unit / 256)]

def offsetStart (shift : Nat) : Nat := [0, 2, 3].getD shift 0

def offsetTrimEnd (rest : Nat) : Nat := [0, 3, 2].getD rest 0

def trimPadding (text : List Char) : List Char :=
  (text.reverse.dropWhile fun c => c == Base64.pad).reverse

/- Between the digits that bytes before decide and those that bytes after do. -/
def offsetVariant (bytes : List UInt8) (shift : Nat) : List Char :=
  let encoded := Base64.encode (List.replicate shift 32 ++ bytes)
  let stop := max (encoded.length - offsetTrimEnd ((bytes.length + shift) % 3)) (offsetStart shift)
  trimPadding (if stop ≤ encoded.length then (encoded.take stop).drop (offsetStart shift) else [])

def base64OffsetVariants (bytes : List UInt8) : List String :=
  ((List.range 3).map fun shift => String.ofList (offsetVariant bytes shift)).filter
    fun variant => variant != ""

section Values

variable {F : Type} (l : Libraries F)

def globToRegex : List Char → String
  | [] => ""
  | '\\' :: next :: rest =>
    if next = '*' ∨ next = '?' ∨ next = '\\' then
      l.escape (String.singleton next) ++ globToRegex rest
    else "\\\\" ++ globToRegex (next :: rest)
  | '\\' :: [] => "\\\\"
  | '*' :: rest => ".*" ++ globToRegex rest
  | '?' :: rest => "." ++ globToRegex rest
  | c :: rest => l.escape (String.singleton c) ++ globToRegex rest

def compile (pattern : String) (cased : Bool) : Except String (Matcher F) :=
  match l.regex pattern cased with
  | .ok isMatch => .ok (.pattern isMatch)
  | .error e => .error s!"invalid pattern '{pattern}': {e}"

def encodedVariants (modifiers : Modifiers) (variant : String) : List String :=
  let bytes := if modifiers.wide then wideBytes variant else Utf8.encode variant.toList
  if modifiers.base64Offset then base64OffsetVariants bytes
  else if modifiers.base64 then [String.ofList (Base64.encode bytes)]
  else [variant]

/- The texts a value stands for. -/
def variantsOf (modifiers : Modifiers) (value : String) : List String :=
  let variants := if modifiers.windash then windashVariants value else [value]
  if modifiers.wide || modifiers.base64 || modifiers.base64Offset then
    variants.flatMap (encodedVariants modifiers)
  else variants

def anchored (anchor : Anchor) (body : String) : String :=
  match anchor with
  | .exact => "^" ++ body ++ "$"
  | .contains => body
  | .startsWith => "^" ++ body
  | .endsWith => body ++ "$"

def stringMatchers (value : String) (modifiers : Modifiers) : Except String (List (Matcher F)) :=
  if modifiers.regex then (compile l value true).map fun m => [m]
  else
    (variantsOf modifiers value).mapM fun variant =>
      compile l
        (anchored modifiers.anchor
          (if modifiers.base64 || modifiers.base64Offset then l.escape variant
          else globToRegex l variant.toList))
        (modifiers.cased || modifiers.base64 || modifiers.base64Offset)

/- The comparisons one listed value becomes. -/
def valueMatchers (key : String) (modifiers : Modifiers) (value : Yaml) :
    Except String (List (Matcher F)) :=
  match value with
  | .null => .ok [.null]
  | value =>
    match scalarText value with
    | none => .error s!"{key}: unsupported value"
    | some text =>
      match modifiers.comparison with
      | some comparison =>
        match l.parseF64 (trim text) with
        | some number => .ok [.compare comparison number]
        | none => .error s!"{key}: '{text}' is not a number"
      | none =>
        if modifiers.fieldref then .ok [.fieldRef (toAsciiLowercase (trim text))]
        else if modifiers.cidr then
          match Network.parse l text with
          | .ok network => .ok [.cidr network]
          | .error e => .error s!"{key}: {e}"
        else
          match stringMatchers l text modifiers with
          | .ok matchers => .ok matchers
          | .error e => .error s!"{key}: {e}"

def listedValues : Yaml → List Yaml
  | .array items => items
  | single => [single]

def fieldName (key : String) : String :=
  toAsciiLowercase (trim ((split '|' key).headD ""))

def modifierNames (key : String) : List String := (split '|' key).tail

/- The comparisons of the listed values, a list for each. -/
def matchersByValue (key : String) (modifiers : Modifiers) (value : Yaml) :
    Except String (List (List (Matcher F))) :=
  (listedValues value).mapM (valueMatchers l key modifiers)

def fieldMatch (key : String) (value : Yaml) : Except String (FieldMatch F) :=
  if fieldName key = "" then .error s!"'{key}' names no field"
  else
    match Modifiers.parse (modifierNames key) with
    | .error e => .error s!"{key}: {e}"
    | .ok modifiers =>
      if modifiers.exists' then
        match value with
        | .boolean expected =>
          .ok { field := fieldName key, matchers := [], all := false, exists' := some expected }
        | _ => .error s!"{key}: 'exists' takes true or false"
      else if (listedValues value).isEmpty then .error s!"{key}: no value"
      else
        match matchersByValue l key modifiers value with
        | .error e => .error e
        | .ok groups =>
          .ok { field := fieldName key, matchers := groups.flatten, all := modifiers.all
                exists' := none }

end Values

end SentinelAgent.Sigma
