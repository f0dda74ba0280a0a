import SentinelAgent.Library.Captures
import SentinelAgent.Library.Maps
import SentinelAgent.Library.Text

/- From the text of a log line to its fields: the lines of sshd and sudo. Of an event, the fields
   are kept; the services it answers to are left out. -/
namespace SentinelAgent.Decode
open Captures Maps Text

def maxFieldChars : Nat := 8 * 1024

structure DecodedLog where
  fields : Map String String
  deriving DecidableEq

namespace DecodedLog

def empty : DecodedLog := ⟨∅⟩

/- What is kept of the value of a field. -/
def kept (value : String) : String := String.ofList ((trim value).toList.take maxFieldChars)

def set (log : DecodedLog) (name value : String) : DecodedLog :=
  if trim value = "" then log else ⟨log.fields.insert (toAsciiLowercase name) (kept value)⟩

def get (log : DecodedLog) (name : String) : Option String := log.fields.lookup name

end DecodedLog

def nonBlank (c : Char) : Bool := !isWhitespace c

/- `(\S*)`, or `(\S+)` when one is asked for. -/
def nonBlanks (n least : Nat) : Regex := .group n (.many least nonBlank)

def text (s : String) : Regex := .word s.toList

def captured (groups : Groups) (n : Nat) : String := String.ofList ((groups.lookup n).getD [])

section Sshd
variable (engine : Engine)

/- `(\d+)`. -/
def digits (n : Nat) : Regex := .group n (.many 1 engine.isDigit)

def sshdFailed : Regex := sequence
  [text "Failed ", nonBlanks 1 1, text " for ", .maybe (.group 2 (text "invalid user ")),
    nonBlanks 3 0, text " from ", nonBlanks 4 1, text " port ", digits engine 5]

def sshdAccepted : Regex := sequence
  [text "Accepted ", nonBlanks 1 1, text " for ", nonBlanks 2 1, text " from ", nonBlanks 3 1,
    text " port ", digits engine 4]

def sshdInvalid : Regex := sequence
  [text "Invalid user ", nonBlanks 1 0, text " from ", nonBlanks 2 1,
    .maybe (sequence [text " port ", digits engine 3])]

def sshdPreauth : Regex := sequence
  [.either (text "Connection closed by") (text "Disconnected from"), text " ",
    .either (text "authenticating") (text "invalid"), text " user ", nonBlanks 1 0, text " ",
    nonBlanks 2 1, text " port ", digits engine 3, text " [preauth]"]

def sshdMaxAuth : Regex := sequence
  [.maybe (text "error: "), text "maximum authentication attempts exceeded for ",
    .maybe (text "invalid user "), nonBlanks 1 0, text " from ", nonBlanks 2 1, text " port ",
    digits engine 3]

def sshdDenied : Regex := sequence
  [text "User ", nonBlanks 1 1, text " from ", nonBlanks 2 1, text " not allowed because"]

def decodeSshd (log : DecodedLog) (message : List Char) : DecodedLog :=
  match engine.captures (sshdFailed engine) message with
  | some found =>
    let log := (log.set "action" "login_failed").set "auth_method" (captured found 1)
    let log := if (found.lookup 2).isSome then log.set "invalid_user" "true" else log
    ((log.set "user" (captured found 3)).set "src_ip" (captured found 4)).set "src_port"
      (captured found 5)
  | none =>
    match engine.captures (sshdAccepted engine) message with
    | some found =>
      let log := (log.set "action" "login_success").set "auth_method" (captured found 1)
      ((log.set "user" (captured found 2)).set "src_ip" (captured found 3)).set "src_port"
        (captured found 4)
    | none =>
      match engine.captures (sshdInvalid engine) message with
      | some found =>
        let log := (log.set "action" "invalid_user").set "user" (captured found 1)
        let log := log.set "src_ip" (captured found 2)
        match found.lookup 3 with
        | some port => log.set "src_port" (String.ofList port)
        | none => log
      | none =>
        match engine.captures (sshdMaxAuth engine) message with
        | some found =>
          let log := (log.set "action" "max_auth_exceeded").set "user" (captured found 1)
          (log.set "src_ip" (captured found 2)).set "src_port" (captured found 3)
        | none =>
          match engine.captures (sshdPreauth engine) message with
          | some found =>
            let log := (log.set "action" "disconnect_preauth").set "user" (captured found 1)
            (log.set "src_ip" (captured found 2)).set "src_port" (captured found 3)
          | none =>
            match engine.captures sshdDenied message with
            | some found =>
              let log := (log.set "action" "login_denied").set "user" (captured found 1)
              log.set "src_ip" (captured found 2)
            | none => log

end Sshd

/-! sudo. -/

/- The text cut wherever another one stands in it, from its start on. `skip` letters of one that
   was found are still to come. -/
def splitText (separator : List Char) : Nat → List Char → List Char → List (List Char)
  | _, piece, [] => [piece]
  | skip + 1, piece, _ :: rest => splitText separator skip piece rest
  | 0, piece, c :: rest =>
    if separator <+: c :: rest then piece :: splitText separator (separator.length - 1) [] rest
    else splitText separator 0 (piece ++ [c]) rest

def sudoLine : Regex := sequence
  [.many 0 isWhitespace, nonBlanks 1 1, text " : ", .group 2 (.many 1 (· != '\n')), .stop]

section Sudo
variable (engine : Engine)

def sudoAttempts : Regex := sequence
  [digits engine 1, text " incorrect password attempt", .maybe (text "s"), .stop]

/- Whether anything was recognised, and what the line is about. -/
structure SudoRead where
  log : DecodedLog
  action : String
  recognised : Bool

/- Why sudo refused. -/
def refusalAction (part : String) : String :=
  if part = "user NOT in sudoers" ∨ part = "user NOT authorized on host" then "not_in_sudoers"
  else if part = "command not allowed" then "command_not_allowed"
  else if part = "a password is required" then "password_required"
  else "denied"

def settingName (key : String) : Option String :=
  if key = "TTY" then some "tty"
  else if key = "PWD" then some "pwd"
  else if key = "USER" then some "target_user"
  else if key = "GROUP" then some "target_group"
  else none

def sudoPart (read : SudoRead) (part : String) : SudoRead :=
  match splitFirst '=' part with
  | some (key, value) =>
    match settingName key with
    | some name => { read with log := read.log.set name value, recognised := true }
    | none => read
  | none =>
    match engine.captures (sudoAttempts engine) part.toList with
    | some attempts =>
      { log := read.log.set "attempts" (captured attempts 1), action := "incorrect_password"
        recognised := true }
    | none =>
      if part = "" then read
      else { log := read.log.set "reason" part, action := refusalAction part, recognised := true }

def sudoSettings (log : DecodedLog) (settings : String) : SudoRead :=
  ((splitText " ; ".toList 0 [] settings.toList).map fun part =>
    trim (String.ofList part)).foldl (sudoPart engine) ⟨log, "command", false⟩

def decodeSudo (log : DecodedLog) (message : List Char) : DecodedLog :=
  match engine.captures sudoLine message with
  | none => log
  | some found =>
    let line := captured found 2
    let read := sudoSettings engine log ((beforeText "COMMAND=" line).getD line)
    let read := match afterText "COMMAND=" line with
      | some command => { read with log := read.log.set "command" command, recognised := true }
      | none => read
    if read.recognised then
      (read.log.set "user" (captured found 1)).set "action" read.action
    else read.log

end Sudo
end SentinelAgent.Decode
