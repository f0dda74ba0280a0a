import SentinelAgent.Library.Lines
import SentinelAgent.Library.Runs
import SentinelAgent.Library.Text

/- Following a log file: the lines written to it since the last reading. One file of the
   tailer; the others have their own reading and their own position. Opening and reading a
   file that is there succeed, and so does writing the positions. -/
namespace SentinelAgent.LogFile
open Text

def maxBytesPerRead : Nat := 4 * 1024 * 1024

def maxLineBytes : Nat := 64 * 1024

def lineFeed : UInt8 := 10

/- The files there were under the name: those renamed since, the oldest first, and the one
   under it now. A file is known by its number in that order. -/
structure Disk where
  renamed : List (List UInt8)
  present : Option (List UInt8)
  deriving DecidableEq

def Disk.files (disk : Disk) : List (List UInt8) := disk.renamed ++ disk.present.toList

def Disk.append (disk : Disk) (bytes : List UInt8) : Disk :=
  { disk with present := some (disk.present.getD [] ++ bytes) }

def Disk.rotate (disk : Disk) : Disk := ⟨disk.files, none⟩

/- What tells a file from the one that replaces it, where the system has it. -/
def identity (unix : Bool) (number : Nat) : Option Nat := if unix then some number else none

structure Position where
  identity : Option Nat
  offset : Nat
  deriving DecidableEq

structure Followed where
  file : Option Nat
  position : Option Position
  partialLine : List UInt8
  skipping : Bool
  seenAbsent : Bool
  deriving DecidableEq

def follow : Followed := ⟨none, none, [], false, false⟩

/- The text of a line, decoded where it says something. The bytes are read as UTF-8, what is
   not replaced: `lossy`. -/
def handOn (lossy : List UInt8 → String) (line : List UInt8) : Option String :=
  let text := String.ofList ((lossy line).toList.reverse.dropWhile (· == '\r')).reverse
  if trim text = "" then none else some text

section Reading
variable (lossy : List UInt8 → String)

def readByte (read : Followed × List String) (byte : UInt8) : Followed × List String :=
  let followed := read.1
  if byte ≠ lineFeed then
    if followed.skipping then read
    else if maxLineBytes ≤ followed.partialLine.length then
      -- the line is cut here; what follows it is dropped
      ({ followed with skipping := true }, read.2)
    else ({ followed with partialLine := followed.partialLine ++ [byte] }, read.2)
  else
    ({ followed with skipping := false, partialLine := [] },
      read.2 ++ (handOn lossy followed.partialLine).toList)

/- Up to so many bytes from the open file, or all there are. -/
def readLines (disk : Disk) (limit : Option Nat) (followed : Followed) : Followed × List String :=
  match followed.file, followed.position with
  | some number, some position =>
    let rest := (disk.files[number]?.getD []).drop position.offset
    let buffer := (limit.map rest.take).getD rest
    buffer.foldl (readByte lossy)
      ({ followed with position := some { position with offset := position.offset + buffer.length } },
        [])
  | _, _ => (followed, [])

variable (unix : Bool)

/- The file under this name is no longer the one being read: finish the old one. -/
def finishReplaced (disk : Disk) (followed : Followed) : Followed × List String :=
  match followed.position, disk.present with
  | some position, some _ =>
    if followed.file.isSome ∧ position.identity.isSome ∧
        position.identity ≠ identity unix disk.renamed.length then
      let finished := readLines lossy disk none followed
      ({ finished.1 with
          file := none, partialLine := [], skipping := false
          position := some ⟨identity unix disk.renamed.length, 0⟩ }, finished.2)
    else (followed, [])
  | _, _ => (followed, [])

/- Where the reading of a file that was not open starts. -/
def openingOffset (disk : Disk) (content : List UInt8) (followed : Followed)
    (saved : Option Position) : Nat :=
  match followed.position.or saved with
  | some position =>
    if position.identity = identity unix disk.renamed.length ∧ position.offset ≤ content.length then
      position.offset
    else 0
  | none => if followed.seenAbsent then 0 else content.length

def openFile (disk : Disk) (content : List UInt8) (followed : Followed)
    (saved : Option Position) : Followed :=
  if followed.file.isNone then
    { followed with
      file := some disk.renamed.length
      position := some ⟨identity unix disk.renamed.length,
        openingOffset unix disk content followed saved⟩ }
  else followed

/- Truncated in place: start again. -/
def restartTruncated (content : List UInt8) (followed : Followed) : Followed :=
  match followed.position with
  | some position =>
    if content.length < position.offset then
      { followed with position := some { position with offset := 0 }, partialLine := [], skipping := false }
    else followed
  | none => followed

def readFile (disk : Disk) (saved : Option Position) (followed : Followed) :
    Followed × List String :=
  let (followed, finished) := finishReplaced lossy unix disk followed
  match disk.present with
  | none =>
    let (followed, rest) := readLines lossy disk none followed
    ({ followed with seenAbsent := true }, finished ++ rest)
  | some content =>
    let followed := restartTruncated content (openFile unix disk content followed saved)
    let (followed, rest) := readLines lossy disk (some maxBytesPerRead) followed
    (followed, finished ++ rest)

end Reading

/- The disk, the tailer, the position it keeps on disk, and what it has handed on; and, for
   the record, what was written after its first position: a stream for each file, the last of
   them to the file that was under the name last. -/
structure State where
  disk : Disk
  followed : Followed
  saved : Option Position
  handed : List String
  written : Option (List (List UInt8) × List UInt8)
  deriving DecidableEq

inductive Action where
  | append (bytes : List UInt8)
  | rotate
  | read
  | restart
  deriving DecidableEq

def appended (disk : Disk) (bytes : List UInt8) (written : List (List UInt8) × List UInt8) :
    List (List UInt8) × List UInt8 :=
  if disk.present.isSome then (written.1, written.2 ++ bytes) else (written.1 ++ [written.2], bytes)

def readNow (lossy : List UInt8 → String) (unix : Bool) (s : State) : State :=
  let (followed, lines) := readFile lossy unix s.disk s.saved s.followed
  { s with
    followed
    saved := if followed.position = s.followed.position then s.saved
      else followed.position.or s.saved
    handed := s.handed ++ lines
    written := s.written.or (s.disk.present.map fun content =>
      ([], content.drop (openingOffset unix s.disk content s.followed s.saved))) }

def step (lossy : List UInt8 → String) (unix : Bool) (s : State) : Action → State
  | .append bytes =>
    { s with disk := s.disk.append bytes, written := s.written.map (appended s.disk bytes) }
  | .rotate => { s with disk := s.disk.rotate }
  | .read => readNow lossy unix s
  | .restart => { s with followed := follow }

/- A file that may hold something, nothing read of it. -/
def start (disk : Disk) : State := ⟨disk, follow, none, [], none⟩

/- The lines of a stream that are complete, a long one cut at the limit. -/
def linesOf (lossy : List UInt8 → String) (stream : List UInt8) : List String :=
  (Lines.complete lineFeed stream).filterMap fun line => handOn lossy (line.take maxLineBytes)

def streams (s : State) : List (List UInt8) :=
  (s.written.map fun written => written.1 ++ [written.2]).getD []

def expected (lossy : List UInt8 → String) (s : State) : List String :=
  (streams s).flatMap (linesOf lossy)

end SentinelAgent.LogFile
