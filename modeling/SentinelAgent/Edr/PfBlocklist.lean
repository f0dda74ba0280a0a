import Mathlib.Data.Finset.Sort
import SentinelAgent.Library.Runs

/-!
The IP blocklist on macOS: the rules of one pf anchor, the references that keep pf enabled, and
the record on disk. Every command and every file operation of a call may fail, and what fails
changes nothing. The answers of one call are an argument. Killed states of old connections are
not part of the host, and a reboot is not a call.
-/
namespace SentinelAgent.Edr

def pfAnchor : String := "com.apple/sentinel-blocklist"

structure Blocklist (ι : Type) where
  blocked : Finset ι
  pfToken : Option String

def Blocklist.default (ι : Type) : Blocklist ι := { blocked := ∅, pfToken := none }

/-! Rules and `pfctl` arguments. -/

def ruleLines {ι : Type} (display : ι → String) (ips : List ι) : String :=
  "# Sentinel GRC - blocked IP addresses. Managed by the agent, do not edit.\n" ++
    String.join (ips.map (fun ip =>
      s!"block drop quick from {display ip} to any\n" ++
        s!"block drop quick from any to {display ip}\n"))

/-- The addresses in ascending order, two rules each. -/
def pfRules {ι : Type} [LinearOrder ι] (display : ι → String) (blocked : Finset ι) : String :=
  ruleLines display blocked.sort

/-- What pf and the JSON library do with the texts: the rules are loaded as written, and a record
    reads as it was written. -/
structure PfFormat (ι : Type) [LinearOrder ι] where
  display : ι → String
  isIpv6 : ι → Bool
  rulesPath : String
  statePath : String
  loaded : String → Finset ι
  toJson : Blocklist ι → String
  fromJson : String → Except String (Blocklist ι)
  loaded_pfRules : ∀ blocked, loaded (pfRules display blocked) = blocked
  roundTrip : ∀ b, fromJson (toJson b) = .ok b

inductive PfCommand (ι : Type) where
  | load
  | flush
  | enable
  | release (token : String)
  | killFrom (ip : ι)
  | killTo (ip : ι)

variable {ι : Type} [LinearOrder ι]

def PfCommand.args (f : PfFormat ι) : PfCommand ι → List String
  | load => ["-a", pfAnchor, "-f", f.rulesPath]
  | flush => ["-a", pfAnchor, "-F", "all"]
  | enable => ["-E"]
  | release token => ["-X", token]
  | killFrom ip => ["-k", f.display ip]
  | killTo ip => ["-k", if f.isIpv6 ip then "::/0" else "0.0.0.0/0", "-k", f.display ip]

/-! The token in what `pfctl -E` prints. -/

def isWhite (c : Char) : Bool :=
  decide ((9 ≤ c.toNat ∧ c.toNat ≤ 13) ∨ c.toNat = 0x20 ∨ c.toNat = 0x85 ∨ c.toNat = 0xA0 ∨
    c.toNat = 0x1680 ∨ (0x2000 ≤ c.toNat ∧ c.toNat ≤ 0x200A) ∨ c.toNat = 0x2028 ∨
    c.toNat = 0x2029 ∨ c.toNat = 0x202F ∨ c.toNat = 0x205F ∨ c.toNat = 0x3000)

def trim (cs : List Char) : List Char :=
  ((cs.dropWhile isWhite).reverse.dropWhile isWhite).reverse

def lines : List Char → List (List Char)
  | [] => [[]]
  | c :: cs =>
    match c, lines cs with
    | '\n', rest => [] :: rest
    | c, [] => [[c]]
    | c, line :: rest => (c :: line) :: rest

def splitOnce (sep : Char) : List Char → Option (List Char × List Char)
  | [] => none
  | c :: cs =>
    if c = sep then some ([], cs)
    else (splitOnce sep cs).map (fun parts => (c :: parts.1, parts.2))

def tokenOfLine (line : List Char) : Option String :=
  match splitOnce ':' line with
  | none => none
  | some (label, value) =>
    if (trim label).map Char.toLower = "token".toList ∧ trim value ≠ [] ∧
        (trim value).all Char.isDigit then
      some (String.ofList (trim value))
    else none

def pfToken (output : String) : Option String := (lines output.toList).findSome? tokenOfLine

/-! The host. -/

structure Host (ι : Type) where
  anchor : Finset ι
  references : List String
  rulesFile : Option String
  stateFile : Option String

/-- What a command that succeeds does. A reference that is not held is not released. -/
def Host.effect (f : PfFormat ι) (h : Host ι) : PfCommand ι → Host ι
  | .load => { h with anchor := (h.rulesFile.map f.loaded).getD ∅ }
  | .flush => { h with anchor := ∅ }
  | .release token => { h with references := h.references.erase token }
  | .enable | .killFrom _ | .killTo _ => h

def pfctlError (args : List String) (printed : String) : String :=
  let line := " ".intercalate args
  s!"pfctl {line} failed: {printed}"

/-- `answer` is what a failing `pfctl` prints. -/
def run (f : PfFormat ι) (h : Host ι) (c : PfCommand ι) (answer : Option String) :
    Host ι × Except String Unit :=
  match answer with
  | some printed => (h, .error (pfctlError (c.args f) printed))
  | none => (h.effect f c, .ok ())

/-- `pfctl -E` takes a reference and prints its output. -/
structure Enabled where
  token : String
  output : String

def enable (f : PfFormat ι) (h : Host ι) (answer : Except String Enabled) :
    Host ι × Except String String :=
  match answer with
  | .error printed => (h, .error (pfctlError (PfCommand.enable.args f) printed))
  | .ok enabled =>
    ({ h with references := h.references ++ [enabled.token] }, .ok enabled.output)

structure AnchorAnswers where
  write : Option String
  run : Option String

/-- The answers to the operations of one call, each made at most once: the error, if it fails. -/
structure Answers where
  read : Option String
  enable : Except String Enabled
  load : AnchorAnswers
  save : Option String
  undo : AnchorAnswers
  release : Option String
  remove : Option String

/-! State on disk. -/

def onRecord (f : PfFormat ι) (h : Host ι) : Blocklist ι :=
  match h.stateFile with
  | none => .default ι
  | some text =>
    match f.fromJson text with
    | .ok b => b
    | .error _ => .default ι

/-- A record that cannot be read is taken for an empty one. -/
def load (f : PfFormat ι) (h : Host ι) (answer : Option String) : Blocklist ι :=
  match answer with
  | some _ => .default ι
  | none => onRecord f h

def writeError (path e : String) : String := s!"cannot write {path}: {e}"

def save (f : PfFormat ι) (h : Host ι) (b : Blocklist ι) (answer : Option String) :
    Host ι × Except String Unit :=
  match answer with
  | some e => (h, .error (writeError f.statePath e))
  | none => ({ h with stateFile := some (f.toJson b) }, .ok ())

def removeIfPresent (f : PfFormat ι) (h : Host ι) (answer : Option String) :
    Host ι × Except String Unit :=
  match h.stateFile, answer with
  | none, _ => (h, .ok ())
  | some _, some e => (h, .error s!"cannot delete {f.statePath}: {e}")
  | some _, none => ({ h with stateFile := none }, .ok ())

/-! Blocking and unblocking. -/

/-- The rules file is written before each load, so it does not matter when it is deleted. -/
def loadAnchor (f : PfFormat ι) (h : Host ι) (a : AnchorAnswers) (blocked : Finset ι) :
    Host ι × Except String Unit :=
  if blocked = ∅ then
    match run f h .flush a.run with
    | (h, .error e) => (h, .error e)
    | (h, .ok _) => ({ h with rulesFile := none }, .ok ())
  else
    match a.write with
    | some e => (h, .error (writeError f.rulesPath e))
    | none => run f { h with rulesFile := some (pfRules f.display blocked) } .load a.run

def release (f : PfFormat ι) (h : Host ι) (token : Option String) (answer : Option String) :
    Host ι :=
  match token with
  | none => h
  | some token => (run f h (.release token) answer).1

def loadAndSave (f : PfFormat ι) (h : Host ι) (a : Answers) (next : Blocklist ι) :
    Host ι × Except String Unit :=
  match loadAnchor f h a.load next.blocked with
  | (h, .ok _) => save f h next a.save
  | (h, .error e) => (h, .error e)

def apply (f : PfFormat ι) (h : Host ι) (a : Answers) (previous : Blocklist ι)
    (blocked : Finset ι) : Host ι × Except String Unit :=
  if blocked = ∅ then
    match loadAnchor f h a.load blocked with
    | (h, .error e) => (h, .error e)
    | (h, .ok _) => removeIfPresent f (release f h previous.pfToken a.release) a.remove
  else
    match enable f h a.enable with
    | (h, .error e) => (h, .error e)
    | (h, .ok output) =>
      let next : Blocklist ι := { blocked, pfToken := pfToken output }
      match loadAndSave f h a next with
      | (h, .ok _) => (release f h previous.pfToken a.release, .ok ())
      | (h, .error e) =>
        (release f (loadAnchor f h a.undo previous.blocked).1 next.pfToken a.release, .error e)

/-- Connections opened before the rule keep their state; failures to drop them are ignored. -/
def killStates (f : PfFormat ι) (h : Host ι) (ip : ι) : Host ι :=
  (h.effect f (.killFrom ip)).effect f (.killTo ip)

def block (f : PfFormat ι) (h : Host ι) (a : Answers) (ip : ι) : Host ι × Except String Unit :=
  let current := load f h a.read
  match apply f h a current (insert ip current.blocked) with
  | (h, .error e) => (h, .error e)
  | (h, .ok _) => (killStates f h ip, .ok ())

def unblock (f : PfFormat ι) (h : Host ι) (a : Answers) (ip : ι) : Host ι × Except String Unit :=
  let current := load f h a.read
  if ip ∈ current.blocked then apply f h a current (current.blocked.erase ip) else (h, .ok ())

/-- Returns the number of blocked addresses. -/
def restore (f : PfFormat ι) (h : Host ι) (a : Answers) : Host ι × Except String Nat :=
  let current := load f h a.read
  let count := current.blocked.card
  if 0 < count then
    match apply f h a current current.blocked with
    | (h, .error e) => (h, .error e)
    | (h, .ok _) => (h, .ok count)
  else (h, .ok count)

inductive Call (ι : Type) where
  | block (ip : ι)
  | unblock (ip : ι)
  | restore

def perform (f : PfFormat ι) (h : Host ι) (a : Answers) : Call ι → Host ι × Except String Unit
  | .block ip => block f h a ip
  | .unblock ip => unblock f h a ip
  | .restore => ((restore f h a).1, (restore f h a).2.map (fun _ => ()))

def step (f : PfFormat ι) (h : Host ι) (x : Call ι × Answers) : Host ι := (perform f h x.2 x.1).1

end SentinelAgent.Edr
