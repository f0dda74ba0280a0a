import Mathlib.Data.List.Sort
import SentinelAgent.Library.Text
import SentinelAgent.Network.AddressTexts

/-!
Checks of configuration policies: rules about files, directories, processes, commands and the
registry, each true, false or without an answer, and how a check combines them. Regular
expressions, floating-point numbers and the decoding of bytes are those of libraries.
-/
namespace SentinelAgent.Sca
open Text

def maxReadBytes : Nat := 4 * 1024 * 1024
def maxOutputBytes : Nat := 512 * 1024
def maxDirectoryFiles : Nat := 200
def commandTimeoutSecs : Nat := 30

inductive Unavailable where
  | missing
  | other (reason : String)
  deriving DecidableEq

inductive Truth where
  | true
  | false
  | unknown (reason : String)
  deriving DecidableEq

def Truth.from (value : Bool) : Truth := if value then .true else .false

def Truth.inverted : Truth → Truth
  | .true => .false
  | .false => .true
  | .unknown reason => .unknown reason

/- What the rules ask of the system. -/
structure Host where
  readFile : String → Except Unavailable String
  fileExists : String → Bool
  directoryExists : String → Bool
  listDirectory : String → Except Unavailable (List String)
  processes : List String
  run : List String → Except Unavailable String
  registryKeyExists : String → Except Unavailable Bool
  registryValues : String → Except Unavailable (List (String × String))

inductive Comparison where
  | lt | lte | eq | ne | gte | gt

/- Regular expressions and numbers, with how they are read and compared. -/
structure Matching where
  Regex : Type
  Number : Type
  isMatch : Regex → String → Bool
  captured : Regex → String → Option String
  parse : String → Option Number
  holds : Comparison → Number → Number → Bool

variable {M : Matching}

inductive Pattern (M : Matching) where
  | equals (text : String)
  | matching (regex : M.Regex)
  | number (regex : M.Regex) (comparison : Comparison) (value : M.Number)

def Pattern.matches : Pattern M → String → Bool
  | equals text, line => eqIgnoreAsciiCase (trim line) text
  | matching regex, line => M.isMatch regex line
  | number regex comparison value, line =>
    ((M.captured regex line).bind fun number => M.parse (trim number)).any fun number =>
      M.holds comparison number value

/- Terms one line must all satisfy, each inverted or not. -/
structure Content (M : Matching) where
  terms : List (Bool × Pattern M)

namespace Content

def lineMatches (content : Content M) (line : String) : Bool :=
  content.terms.all fun term => term.2.matches line != term.1

def find (content : Content M) (text : String) : Option String :=
  (lines text).find? content.lineMatches

end Content

inductive Target (M : Matching) where
  | file (paths : List String) (content : Option (Content M))
  | directory (paths : List String) (names content : Option (Content M))
  | process (pattern : Pattern M)
  | command (command : List String) (content : Option (Content M))
  | registry (key : String) (value : Option String) (content : Option (Content M))

structure Rule (M : Matching) where
  source : String
  negated : Bool
  target : Target M

section Search
variable {A : Type}

/- The paths are asked in turn until one has what is looked for. What is kept is the reason of the
   first that does not exist or of the last that could not be read, and whether any was. -/
def search (ask : String → Except Unavailable A) (hit : String → A → Bool) (verb : String) :
    List String → Option String → Bool → Truth
  | [], unknown, readAny =>
    match unknown with
    | some reason => if readAny then .false else .unknown reason
    | none => .false
  | path :: paths, unknown, readAny =>
    match ask path with
    | .ok found => if hit path found then .true else search ask hit verb paths unknown true
    | .error .missing =>
      search ask hit verb paths (unknown <|> some (path ++ " does not exist")) readAny
    | .error (.other reason) =>
      search ask hit verb paths (some (path ++ " cannot be " ++ verb ++ ": " ++ reason)) readAny

end Search

def evaluateFiles (host : Host) (paths : List String) (content : Content M) : Truth :=
  search host.readFile (fun _ text => (content.find text).isSome) "read" paths none false

/- The entries whose content is looked at. -/
def considered (names : Content M) (entries : List String) : List String :=
  (entries.filter names.lineMatches).take maxDirectoryFiles

def entryPath (path name : String) : String := trimEndOf '/' path ++ "/" ++ name

def entryHit (host : Host) (names : Content M) (content : Option (Content M)) (path : String)
    (entries : List String) : Bool :=
  (considered names entries).any fun name =>
    match content with
    | none => true
    | some content =>
      match host.readFile (entryPath path name) with
      | .ok text => (content.find text).isSome
      | .error _ => false

def evaluateDirectories (host : Host) (paths : List String) (names : Content M)
    (content : Option (Content M)) : Truth :=
  search host.listDirectory (entryHit host names content) "listed" paths none false

def evaluateRegistry (host : Host) (key : String) (value : Option String)
    (content : Option (Content M)) : Truth :=
  match value with
  | none =>
    match host.registryKeyExists key with
    | .ok present => Truth.from present
    | .error .missing => .false
    | .error (.other reason) => .unknown reason
  | some value =>
    match host.registryValues key with
    | .error .missing => .false
    | .error (.other reason) => .unknown reason
    | .ok values =>
      match (values.find? fun entry => eqIgnoreAsciiCase entry.1 value).map Prod.snd, content with
      | none, _ => .false
      | some _, none => .true
      | some data, some content => Truth.from (content.lineMatches data)

def evaluateCommand (host : Host) (command : List String) (content : Option (Content M)) : Truth :=
  match host.run command with
  | .ok output =>
    match content with
    | some content => Truth.from (content.find output).isSome
    | none => .true
  | .error .missing => .unknown ("command '" ++ command.headD "" ++ "' is not installed")
  | .error (.other reason) =>
    .unknown ("command '" ++ command.headD "" ++ "' failed: " ++ reason)

def evaluateTarget (host : Host) : Target M → Truth
  | .file paths none => Truth.from (paths.any host.fileExists)
  | .file paths (some content) => evaluateFiles host paths content
  | .directory paths none _ => Truth.from (paths.any host.directoryExists)
  | .directory paths (some names) content => evaluateDirectories host paths names content
  | .process pattern => Truth.from (host.processes.any pattern.matches)
  | .command command content => evaluateCommand host command content
  | .registry key value content => evaluateRegistry host key value content

def Rule.evaluate (rule : Rule M) (host : Host) : Truth :=
  if rule.negated then (evaluateTarget host rule.target).inverted
  else evaluateTarget host rule.target

inductive Condition where
  | all | any | none
  deriving DecidableEq

inductive Outcome where
  | passed
  | failed
  | notApplicable (reason : String)
  deriving DecidableEq

def reasonOf : Truth → Option String
  | .unknown reason => some reason
  | _ => none

def combine (condition : Condition) (truths : List Truth) : Outcome :=
  let anyTrue := truths.contains .true
  let anyFalse := truths.contains .false
  let decided : Option Outcome := match condition with
    | .all => if anyFalse then some .failed else none
    | .any => if anyTrue then some .passed else none
    | .none => if anyTrue then some .failed else none
  match decided, truths.findSome? reasonOf with
  | some outcome, _ => outcome
  | none, some reason => .notApplicable reason
  | none, none =>
    match condition with
    | .all | .none => .passed
    | .any => .failed

def evaluate (condition : Condition) (rules : List (Rule M)) (host : Host) : Outcome × List Truth :=
  let truths := rules.map fun rule => rule.evaluate host
  (combine condition truths, truths)

/-! The system the agent runs on. -/

/- An input or output error: those that say there is nothing there, and the others. -/
inductive Fault where
  | notFound
  | notADirectory
  | other (message : String)
  deriving DecidableEq

inductive FileKind where
  | file | directory | special
  deriving DecidableEq

/- What comes of running a program. -/
inductive Ran where
  | notStarted (fault : Fault)
  | noAnswer
  | waitFailed (message : String)
  | finished (stdout stderr : List UInt8)

structure System where
  windows : Bool
  metadata : String → Except Fault FileKind
  contents : String → Except Fault (List UInt8)
  readDir : String → Except Fault (List (Except Fault String))
  execute : List String → Ran

/- The text of bytes, with what is not UTF-8 replaced. -/
variable (fromUtf8Lossy : List UInt8 → String)

def ioUnavailable : Fault → Unavailable
  | .notFound => .missing
  | .notADirectory => .missing
  | .other message => .other message

namespace System

def runWithTimeout (s : System) (command : List String) : Except Unavailable String :=
  if command = [] then .error (.other "empty command")
  else
    match s.execute command with
    | .notStarted fault => .error (ioUnavailable fault)
    | .noAnswer => .error (.other ("no answer after " ++ commandTimeoutSecs.repr ++ "s"))
    | .waitFailed message => .error (.other message)
    | .finished stdout stderr =>
      .ok (fromUtf8Lossy (stdout.take maxOutputBytes ++ stderr.take maxOutputBytes))

def readFile (s : System) (path : String) : Except Unavailable String :=
  match s.metadata path with
  | .error fault => .error (ioUnavailable fault)
  | .ok .file =>
    match s.contents path with
    | .ok bytes => .ok (fromUtf8Lossy (bytes.take maxReadBytes))
    | .error fault => .error (ioUnavailable fault)
  | .ok _ => .error .missing

def isKind (s : System) (kind : FileKind) (path : String) : Bool :=
  match s.metadata path with
  | .ok found => found == kind
  | .error _ => false

def entryName : Except Fault String → Option String
  | .ok name => some name
  | .error _ => none

/- Entries that cannot be read are left out. -/
def listDirectory (s : System) (path : String) : Except Unavailable (List String) :=
  match s.readDir path with
  | .error fault => .error (ioUnavailable fault)
  | .ok entries => .ok ((entries.filterMap entryName).insertionSort (· ≤ ·))

def processCommand (s : System) : List String :=
  if s.windows then ["tasklist", "/fo", "csv", "/nh"] else ["ps", "-axo", "comm="]

/- The name of the program, without its directory. -/
def processName (windows : Bool) (line : String) : String :=
  let name := if windows then trimOf '"' (((split ',' line).head?).getD "") else trim line
  String.ofList (name.toList.reverse.takeWhile fun c => c != '/' && c != '\\').reverse

def processes (s : System) : List String :=
  match s.runWithTimeout fromUtf8Lossy s.processCommand with
  | .error _ => []
  | .ok output => ((lines output).map (processName s.windows)).filter fun name => name ≠ ""

/- Up to three pieces of a line of `reg query`, which four blanks separate. -/
def pieces (line : String) : List String :=
  match beforeText "    " line, afterText "    " line with
  | some first, some rest =>
    match beforeText "    " rest, afterText "    " rest with
    | some second, some last => [first, second, last]
    | _, _ => [first, rest]
  | _, _ => [line]

def registryData (kind data : String) : String :=
  if kind = "REG_DWORD" ∨ kind = "REG_QWORD" then
    match (afterStart "0x" data).bind fun hex => Network.fromHex 64 hex.toList with
    | some number => number.repr
    | none => data
  else data

def parseRegLine (line : String) : Option (String × String) :=
  match (pieces (trim line)).map trim with
  | name :: kind :: rest =>
    if beginsWith "REG_" kind then some (name, registryData kind (rest.headD "")) else none
  | _ => none

def parseRegQuery (output : String) : List (String × String) :=
  ((lines output).filter (beginsWith "    ")).filterMap parseRegLine

def noRegistry : Unavailable := .other "no registry on this system"

def registryValues (s : System) (key : String) : Except Unavailable (List (String × String)) :=
  if s.windows then
    match s.runWithTimeout fromUtf8Lossy ["reg", "query", key] with
    | .error reason => .error reason
    | .ok output =>
      if contains (toAsciiUppercase output) "HKEY_" then .ok (parseRegQuery output)
      else .error .missing
  else .error noRegistry

def registryKeyExists (s : System) (key : String) : Except Unavailable Bool :=
  if s.windows then .ok (s.registryValues fromUtf8Lossy key).isOk else .error noRegistry

def host (s : System) : Host where
  readFile := s.readFile fromUtf8Lossy
  fileExists := s.isKind .file
  directoryExists := s.isKind .directory
  listDirectory := s.listDirectory
  processes := s.processes fromUtf8Lossy
  run := s.runWithTimeout fromUtf8Lossy
  registryKeyExists := s.registryKeyExists fromUtf8Lossy
  registryValues := s.registryValues fromUtf8Lossy

end System

end SentinelAgent.Sca
