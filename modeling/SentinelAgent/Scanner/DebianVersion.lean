import SentinelAgent.Library.Text

/- Debian version ordering: `[epoch:]upstream_version[-debian_revision]`, the epoch as a number,
   then the two parts by runs that are not digits and runs that are. -/
namespace SentinelAgent.DebianVersion
open Text

def bytes (s : String) : List Nat :=
  s.toList.flatMap fun c => (String.utf8EncodeChar c).map UInt8.toNat

def isDigit (b : Nat) : Bool := 48 ≤ b && b ≤ 57

def isAlphabetic (b : Nat) : Bool := (65 ≤ b && b ≤ 90) || (97 ≤ b && b ≤ 122)

def splitUpstream (epoch : Nat) (rest : String) : Nat × String × String :=
  match splitLast '-' rest with
  | some (upstream, revision) => (epoch, upstream, revision)
  | none => (epoch, rest, "")

/- An epoch too large for 64 bits is the largest. -/
def splitVersion (version : String) : Nat × String × String :=
  match splitFirst ':' (trim version) with
  | some (epoch, rest) =>
    if epoch ≠ "" ∧ allDigits epoch = true then
      splitUpstream ((parseUnsigned 64 epoch).getD (2 ^ 64 - 1)) rest
    else splitUpstream 0 (trim version)
  | none => splitUpstream 0 (trim version)

/- `~` sorts before the end, letters before other characters. -/
def order : Option Nat → Int
  | none => 0
  | some b => if b = 126 then -1 else if isDigit b then 0 else if isAlphabetic b then b else b + 256

/- The first byte, where it is not a digit. -/
def lead (part : List Nat) : Option Nat := part.head?.filter fun b => !isDigit b

/- The runs that are not digits: where they differ, or what follows them. -/
def otherRuns : Nat → List Nat → List Nat → Except Ordering (List Nat × List Nat)
  | 0, a, b => .ok (a, b)
  | fuel + 1, a, b =>
    if lead a = none ∧ lead b = none then .ok (a, b)
    else if order (lead a) ≠ order (lead b) then .error (compare (order (lead a)) (order (lead b)))
    else otherRuns fuel (if (lead a).isSome then a.tail else a)
      (if (lead b).isSome then b.tail else b)

/- Digits side by side: where they first differ, and what follows. -/
def digitRuns : Ordering → List Nat → List Nat → Ordering × List Nat × List Nat
  | diff, x :: a, y :: b =>
    if isDigit x && isDigit y then digitRuns (diff.then (compare x y)) a b
    else (diff, x :: a, y :: b)
  | diff, a, b => (diff, a, b)

def comparePart : Nat → List Nat → List Nat → Ordering
  | 0, _, _ => .eq
  | fuel + 1, a, b =>
    if a = [] ∧ b = [] then .eq
    else match otherRuns (a.length + b.length) a b with
      | .error differs => differs
      | .ok (a, b) =>
        let (diff, a, b) := digitRuns .eq (a.dropWhile (· = 48)) (b.dropWhile (· = 48))
        -- the longer number is the larger
        if a.head?.any isDigit then .gt
        else if b.head?.any isDigit then .lt
        else if diff ≠ .eq then diff
        else comparePart fuel a b

/- Each round of the loop takes a byte, so there are no more rounds than bytes. -/
def compareText (a b : String) : Ordering :=
  comparePart ((bytes a).length + (bytes b).length) (bytes a) (bytes b)

def compareDebianVersions (a b : String) : Ordering :=
  let (aEpoch, aUpstream, aRevision) := splitVersion a
  let (bEpoch, bUpstream, bRevision) := splitVersion b
  (compare aEpoch bEpoch).then
    ((compareText aUpstream bUpstream).then (compareText aRevision bRevision))

example : compareDebianVersions "6.1.106-3" "6.1.99-1" = .gt ∧
    compareDebianVersions "1.0~rc1-1" "1.0-1" = .lt ∧
    compareDebianVersions "1:1.0-1" "2.0-1" = .gt := by decide

end SentinelAgent.DebianVersion
