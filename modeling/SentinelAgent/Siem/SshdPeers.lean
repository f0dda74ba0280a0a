import SentinelAgent.Siem.SshdForged

/-!
Whoever connects names himself: for which names the line of sshd is decoded to come from where
he connects from.
-/
namespace SentinelAgent.Decode
open Captures Spaced Text

namespace SshdLine
variable (engine : Engine) (peer : Peer) (port : UInt16)

/- A copy of what the line says of the peer follows a word. -/
def Copied (line : SshdLine) (name : List Char) : Prop :=
  ∃ word rest, name ++ (spaced (line.words peer port) ++ line.tail) =
      word ++ (spaced (line.words peer port) ++ rest) ∧
    (∀ c ∈ word, nonBlank c = true) ∧ line.least ≤ word.length ∧
      ∀ c ∈ rest.head?, line.barred engine c = false

theorem copied_iff (line : SshdLine) (name : List Char) :
    line.Copied engine peer port name ↔
      line.OneWord name ∨ line.Repeats engine peer port name := by
  have head : (spaced (line.words peer port)).head? = some ' ' := by cases line <;> rfl
  have free : line.barred engine ' ' = false := by
    cases line <;> first | rfl | exact digits_stop engine
  have tail_free : ∀ d ∈ line.tail.head?, line.barred engine d = false := by
    intro d first
    have starts : line.tail.head? = none ∨ line.tail.head? = some ' ' := by
      cases line <;> first | exact Or.inl rfl | exact Or.inr rfl
    rcases starts with nothing | blank
    · rw [nothing] at first
      cases first
    · rw [blank] at first
      rwa [← Option.some.inj first]
  simp only [Copied, Repeats, OneWord, and_assoc]
  exact copies_iff nonBlank (line.barred engine) (unbordered peer port line) head blank_stops free
    tail_free (fun word => line.least ≤ word.length)

section Lines
variable {engine peer port}

theorem run_method (method : Word) (n : Nat) (rs : List Regex) (groups : Groups)
    (rest : List Char) :
    run (sequence (nonBlanks n 1 :: Decode.text " for " :: rs))
        ⟨groups, method.text ++ (" for ".toList ++ rest)⟩ =
      run (sequence rs) ⟨groups ++ [(n, method.text)], rest⟩ :=
  run_many_word_here rs groups rest blank_stops method.plain
    (List.length_pos_of_ne_nil method.nonempty) n "for ".toList

/- What is recorded of a line whose pattern is found. -/
def failedLog (found : Groups) : DecodedLog :=
  let log := (DecodedLog.empty.set "action" "login_failed").set "auth_method" (captured found 1)
  let log := if (found.lookup 2).isSome then log.set "invalid_user" "true" else log
  ((log.set "user" (captured found 3)).set "src_ip" (captured found 4)).set "src_port"
    (captured found 5)

theorem decode_failed {line : List Char} (first : line.head? = some 'F') :
    decodeSshd engine .empty line =
      ((engine.captures (sshdFailed engine) line).map failedLog).getD .empty := by
  have other (c : Char) (differs : c ≠ 'F') : line.head? ≠ some c := by
    rw [first]
    exact fun same => differs (Option.some.inj same).symm
  rw [decodeSshd, accepted_silent engine (other _ (by decide)),
    invalid_silent engine (other _ (by decide)),
    maxAuth_silent engine (other _ (by decide)) (other _ (by decide)),
    preauth_silent engine (other _ (by decide)) (other _ (by decide)),
    denied_silent engine (other _ (by decide))]
  cases engine.captures (sshdFailed engine) line <;> rfl

theorem failed_iff (method : Word) (invalid : Bool) (user : List Char) :
    FromPeer peer port (decodeSshd engine .empty ((failed method invalid).message user peer port)) ↔
      (failed method invalid).Copied engine peer port ((failed method invalid).shown user) := by
  rw [decode_failed rfl]
  obtain ⟨before, known, same⟩ := @first_optional engine [(1, method.text)] 0 3 4 5 peer port
    (.group 2 (.word invalidUserText)) _ (fun rs text stop => first_group_word) invalid user
    " ssh2".toList
  have sets : Sets failedLog before 3 4 5 := by
    intro word address digits
    rcases known with rfl | rfl <;> exact ⟨_, rfl⟩
  have shown_eq : (failed method invalid).shown user =
      if invalid then user else (after invalidUserText user).getD user := by
    cases invalid <;> rfl
  rw [shown_eq]
  have reads : ∀ stop, First (sshdFailed engine) ⟨[], (failed method invalid).message user peer port⟩
      stop ↔ First (sequence (.maybe (.group 2 (.word invalidUserText)) :: fromPort engine 0 3 4 5))
        ⟨[(1, method.text)], (if invalid then invalidUserText else []) ++
          (user ++ (spaced ["from".toList, peer.text, "port".toList, portText port] ++
            " ssh2".toList))⟩ stop := by
    intro stop
    have lead : (failed method invalid).lead = "Failed ".toList ++ (method.text ++
        (" for ".toList ++ if invalid then invalidUserText else [])) := rfl
    rw [First, First, message, lead, List.append_assoc, List.append_assoc, List.append_assoc,
      sshdFailed, Decode.text, run_word_here, run_method]
    rfl
  exact decoded_fromPort engine sets fun stop => (reads stop).trans (same stop)

def acceptedLog (found : Groups) : DecodedLog :=
  let log := (DecodedLog.empty.set "action" "login_success").set "auth_method" (captured found 1)
  ((log.set "user" (captured found 2)).set "src_ip" (captured found 3)).set "src_port"
    (captured found 4)

theorem decode_accepted {line : List Char} (first : line.head? = some 'A') :
    decodeSshd engine .empty line =
      ((engine.captures (sshdAccepted engine) line).map acceptedLog).getD .empty := by
  have other (c : Char) (differs : c ≠ 'A') : line.head? ≠ some c := by
    rw [first]
    exact fun same => differs (Option.some.inj same).symm
  rw [decodeSshd, failed_silent engine (other _ (by decide)),
    invalid_silent engine (other _ (by decide)),
    maxAuth_silent engine (other _ (by decide)) (other _ (by decide)),
    preauth_silent engine (other _ (by decide)) (other _ (by decide)),
    denied_silent engine (other _ (by decide))]
  cases engine.captures (sshdAccepted engine) line <;> rfl

theorem accepted_iff (method : Word) (user : List Char) :
    FromPeer peer port (decodeSshd engine .empty ((accepted method).message user peer port)) ↔
      (accepted method).Copied engine peer port user := by
  rw [decode_accepted rfl]
  have sets : Sets acceptedLog [(1, method.text)] 2 3 4 := fun _ _ _ => ⟨_, rfl⟩
  have reads : ∀ stop, First (sshdAccepted engine) ⟨[], (accepted method).message user peer port⟩
      stop ↔ First (sequence (fromPort engine 1 2 3 4)) ⟨[(1, method.text)],
        user ++ (spaced ["from".toList, peer.text, "port".toList, portText port] ++
          " ssh2".toList)⟩ stop := by
    intro stop
    have lead : (accepted method).lead = "Accepted ".toList ++ (method.text ++ " for ".toList) := rfl
    rw [First, First, message, lead, List.append_assoc, List.append_assoc, sshdAccepted,
      Decode.text, run_word_here, run_method]
    rfl
  exact decoded_fromPort engine sets reads

def maxAuthLog (found : Groups) : DecodedLog :=
  let log := (DecodedLog.empty.set "action" "max_auth_exceeded").set "user" (captured found 1)
  (log.set "src_ip" (captured found 2)).set "src_port" (captured found 3)

theorem decode_maxAuth {line : List Char}
    (first : line.head? = some 'e' ∨ line.head? = some 'm') :
    decodeSshd engine .empty line =
      ((engine.captures (sshdMaxAuth engine) line).map maxAuthLog).getD .empty := by
  have other (c : Char) (differs : c ≠ 'e' ∧ c ≠ 'm') : line.head? ≠ some c := by
    rcases first with first | first
    · rw [first]
      exact fun same => differs.1 (Option.some.inj same).symm
    · rw [first]
      exact fun same => differs.2 (Option.some.inj same).symm
  rw [decodeSshd, failed_silent engine (other _ (by decide)),
    accepted_silent engine (other _ (by decide)), invalid_silent engine (other _ (by decide)),
    preauth_silent engine (other _ (by decide)) (other _ (by decide)),
    denied_silent engine (other _ (by decide))]
  cases engine.captures (sshdMaxAuth engine) line <;> rfl

theorem run_maxAuth (error : Bool) (rs : List Regex) (rest : List Char) :
    run (sequence (.maybe (Decode.text "error: ") ::
        Decode.text "maximum authentication attempts exceeded for " :: rs))
        ⟨[], (if error then "error: ".toList else []) ++
          ("maximum authentication attempts exceeded for ".toList ++ rest)⟩ =
      run (sequence rs) ⟨[], rest⟩ := by
  rw [run_maybe]
  cases error with
  | true =>
    have silent : run (sequence (Decode.text "maximum authentication attempts exceeded for " :: rs))
        ⟨[], "error: ".toList ++
          ("maximum authentication attempts exceeded for ".toList ++ rest)⟩ = [] :=
      run_word_start (c := 'm') rs [] _ (by simp)
    rw [if_pos rfl, silent, List.append_nil, Decode.text, run_word_here, Decode.text, run_word_here]
  | false =>
    have silent : run (sequence (Decode.text "error: " ::
        Decode.text "maximum authentication attempts exceeded for " :: rs))
        ⟨[], "maximum authentication attempts exceeded for ".toList ++ rest⟩ = [] :=
      run_word_start (c := 'e') _ [] _ (by simp)
    rw [if_neg (by decide), List.nil_append, silent, List.nil_append, Decode.text, run_word_here]

theorem maxAuth_iff (error invalid : Bool) (user : List Char) :
    FromPeer peer port (decodeSshd engine .empty ((maxAuth error invalid).message user peer port)) ↔
      (maxAuth error invalid).Copied engine peer port ((maxAuth error invalid).shown user) := by
  have head : ((maxAuth error invalid).message user peer port).head? = some 'e' ∨
      ((maxAuth error invalid).message user peer port).head? = some 'm' := by
    cases error
    · exact Or.inr rfl
    · exact Or.inl rfl
  rw [decode_maxAuth head]
  obtain ⟨before, known, same⟩ := @first_optional engine [] 0 1 2 3 peer port
    (.word invalidUserText) _ (fun rs text stop => Captures.first_word) invalid user
    " ssh2 [preauth]".toList
  have sets : Sets maxAuthLog before 1 2 3 := by
    intro word address digits
    rcases known with rfl | rfl <;> exact ⟨_, rfl⟩
  have shown_eq : (maxAuth error invalid).shown user =
      if invalid then user else (after invalidUserText user).getD user := by
    cases invalid <;> rfl
  rw [shown_eq]
  have reads : ∀ stop, First (sshdMaxAuth engine) ⟨[], (maxAuth error invalid).message user peer port⟩
      stop ↔ First (sequence (.maybe (.word invalidUserText) :: fromPort engine 0 1 2 3))
        ⟨[], (if invalid then invalidUserText else []) ++
          (user ++ (spaced ["from".toList, peer.text, "port".toList, portText port] ++
            " ssh2 [preauth]".toList))⟩ stop := by
    intro stop
    have lead : (maxAuth error invalid).lead = (if error then "error: ".toList else []) ++
        ("maximum authentication attempts exceeded for ".toList ++
          if invalid then invalidUserText else []) := rfl
    rw [First, First, message, lead, List.append_assoc, List.append_assoc, sshdMaxAuth, run_maxAuth]
    rfl
  exact decoded_fromPort engine sets fun stop => (reads stop).trans (same stop)

def invalidLog (found : Groups) : DecodedLog :=
  let log := (DecodedLog.empty.set "action" "invalid_user").set "user" (captured found 1)
  let log := log.set "src_ip" (captured found 2)
  match found.lookup 3 with
  | some port => log.set "src_port" (String.ofList port)
  | none => log

theorem decode_invalid {line : List Char} (first : line.head? = some 'I') :
    decodeSshd engine .empty line =
      ((engine.captures (sshdInvalid engine) line).map invalidLog).getD .empty := by
  have other (c : Char) (differs : c ≠ 'I') : line.head? ≠ some c := by
    rw [first]
    exact fun same => differs (Option.some.inj same).symm
  rw [decodeSshd, failed_silent engine (other _ (by decide)),
    accepted_silent engine (other _ (by decide)),
    maxAuth_silent engine (other _ (by decide)) (other _ (by decide)),
    preauth_silent engine (other _ (by decide)) (other _ (by decide)),
    denied_silent engine (other _ (by decide))]
  cases engine.captures (sshdInvalid engine) line <;> rfl

theorem invalidUser_iff (user : List Char) :
    FromPeer peer port (decodeSshd engine .empty (invalidUser.message user peer port)) ↔
      invalidUser.Copied engine peer port user := by
  rw [decode_invalid rfl]
  have sets : Sets invalidLog [] 1 2 3 := fun _ _ _ => ⟨_, rfl⟩
  have no_port : ∀ word address,
      (invalidLog ([] ++ [(1, word)] ++ [(2, address)])).get "src_port" = none := by
    intro word address
    have log : invalidLog ([] ++ [(1, word)] ++ [(2, address)]) =
        ((DecodedLog.empty.set "action" "invalid_user").set "user" (String.ofList word)).set "src_ip"
          (String.ofList address) := rfl
    have action : toAsciiLowercase "action" = "action" := by decide
    have user : toAsciiLowercase "user" = "user" := by decide
    have src_ip : toAsciiLowercase "src_ip" = "src_ip" := by decide
    rw [log]
    simp [DecodedLog.get_set, DecodedLog.get_empty, action, user, src_ip]
  have reads : ∀ stop, First (sshdInvalid engine) ⟨[], invalidUser.message user peer port⟩ stop ↔
      First (fromMaybePort engine 1 2 3) ⟨[],
        user ++ (spaced ["from".toList, peer.text, "port".toList, portText port] ++ [])⟩ stop := by
    intro stop
    have lead : invalidUser.lead = "Invalid user ".toList := rfl
    rw [First, First, message, lead, sshdInvalid, Decode.text, run_word_here]
    rfl
  refine (decoded_fromMaybePort engine sets no_port reads).trans ?_
  have least (word : List Char) : invalidUser.least ≤ word.length := Nat.zero_le _
  simp only [Copied, least, true_and]
  rfl

def preauthLog (found : Groups) : DecodedLog :=
  let log := (DecodedLog.empty.set "action" "disconnect_preauth").set "user" (captured found 1)
  (log.set "src_ip" (captured found 2)).set "src_port" (captured found 3)

theorem decode_preauth {line : List Char}
    (first : line.head? = some 'C' ∨ line.head? = some 'D') :
    decodeSshd engine .empty line =
      ((engine.captures (sshdPreauth engine) line).map preauthLog).getD .empty := by
  have other (c : Char) (differs : c ≠ 'C' ∧ c ≠ 'D') : line.head? ≠ some c := by
    rcases first with first | first
    · rw [first]
      exact fun same => differs.1 (Option.some.inj same).symm
    · rw [first]
      exact fun same => differs.2 (Option.some.inj same).symm
  rw [decodeSshd, failed_silent engine (other _ (by decide)),
    accepted_silent engine (other _ (by decide)), invalid_silent engine (other _ (by decide)),
    maxAuth_silent engine (other _ (by decide)) (other _ (by decide)),
    denied_silent engine (other _ (by decide))]
  cases engine.captures (sshdPreauth engine) line <;> rfl

theorem run_connection (disconnected : Bool) (rs : List Regex) (rest : List Char) :
    run (sequence (.either (Decode.text "Connection closed by") (Decode.text "Disconnected from") ::
        rs)) ⟨[], (if disconnected then "Disconnected from".toList
          else "Connection closed by".toList) ++ rest⟩ =
      run (sequence rs) ⟨[], rest⟩ := by
  rw [run_either]
  cases disconnected with
  | true =>
    have silent : run (sequence (Decode.text "Connection closed by" :: rs))
        ⟨[], "Disconnected from".toList ++ rest⟩ = [] := run_word_start (c := 'C') rs [] _ (by simp)
    rw [if_pos rfl, silent, List.nil_append, Decode.text, run_word_here]
  | false =>
    have silent : run (sequence (Decode.text "Disconnected from" :: rs))
        ⟨[], "Connection closed by".toList ++ rest⟩ = [] :=
      run_word_start (c := 'D') rs [] _ (by simp)
    rw [if_neg (by decide), silent, List.append_nil, Decode.text, run_word_here]

theorem run_standing (invalid : Bool) (rs : List Regex) (rest : List Char) :
    run (sequence (.either (Decode.text "authenticating") (Decode.text "invalid") :: rs))
        ⟨[], (if invalid then "invalid".toList else "authenticating".toList) ++ rest⟩ =
      run (sequence rs) ⟨[], rest⟩ := by
  rw [run_either]
  cases invalid with
  | true =>
    have silent : run (sequence (Decode.text "authenticating" :: rs))
        ⟨[], "invalid".toList ++ rest⟩ = [] := run_word_start (c := 'a') rs [] _ (by simp)
    rw [if_pos rfl, silent, List.nil_append, Decode.text, run_word_here]
  | false =>
    have silent : run (sequence (Decode.text "invalid" :: rs))
        ⟨[], "authenticating".toList ++ rest⟩ = [] := run_word_start (c := 'i') rs [] _ (by simp)
    rw [if_neg (by decide), silent, List.append_nil, Decode.text, run_word_here]

theorem preauth_iff (disconnected invalid : Bool) (user : List Char) :
    FromPeer peer port
        (decodeSshd engine .empty ((preauth disconnected invalid).message user peer port)) ↔
      (preauth disconnected invalid).Copied engine peer port user := by
  have head : ((preauth disconnected invalid).message user peer port).head? = some 'C' ∨
      ((preauth disconnected invalid).message user peer port).head? = some 'D' := by
    cases disconnected
    · exact Or.inl rfl
    · exact Or.inr rfl
  rw [decode_preauth head]
  have sets : Sets preauthLog [] 1 2 3 := fun _ _ _ => ⟨_, rfl⟩
  have reads : ∀ stop, First (sshdPreauth engine)
      ⟨[], (preauth disconnected invalid).message user peer port⟩ stop ↔
        First (preauthEnd engine 1 2 3) ⟨[], user ++
          (spaced [peer.text, "port".toList, portText port, "[preauth]".toList] ++ [])⟩ stop := by
    intro stop
    have lead : (preauth disconnected invalid).lead =
        (if disconnected then "Disconnected from".toList else "Connection closed by".toList) ++
          (" ".toList ++ ((if invalid then "invalid".toList else "authenticating".toList) ++
            " user ".toList)) := rfl
    rw [First, First, message, lead, List.append_assoc, List.append_assoc, List.append_assoc,
      sshdPreauth, run_connection, Decode.text, run_word_here, run_standing, Decode.text,
      run_word_here]
    rfl
  refine (decoded_preauth engine sets reads).trans ?_
  have least (word : List Char) : (preauth disconnected invalid).least ≤ word.length :=
    Nat.zero_le _
  have free (c : Char) : (preauth disconnected invalid).barred engine c = false := rfl
  simp only [Copied, least, free, and_true, implies_true]
  rfl

def deniedLog (found : Groups) : DecodedLog :=
  let log := (DecodedLog.empty.set "action" "login_denied").set "user" (captured found 1)
  log.set "src_ip" (captured found 2)

theorem decode_denied {line : List Char} (first : line.head? = some 'U') :
    decodeSshd engine .empty line =
      ((engine.captures sshdDenied line).map deniedLog).getD .empty := by
  have other (c : Char) (differs : c ≠ 'U') : line.head? ≠ some c := by
    rw [first]
    exact fun same => differs (Option.some.inj same).symm
  rw [decodeSshd, failed_silent engine (other _ (by decide)),
    accepted_silent engine (other _ (by decide)), invalid_silent engine (other _ (by decide)),
    maxAuth_silent engine (other _ (by decide)) (other _ (by decide)),
    preauth_silent engine (other _ (by decide)) (other _ (by decide))]
  cases engine.captures sshdDenied line <;> rfl

theorem denied_iff (reason user : List Char) :
    FromAddress peer (decodeSshd engine .empty ((denied reason).message user peer port)) ↔
      (denied reason).Copied engine peer port user := by
  rw [decode_denied rfl]
  have sets : ∀ word address, ∃ earlier : DecodedLog,
      deniedLog ([] ++ [(1, word)] ++ [(2, address)]) =
        earlier.set "src_ip" (String.ofList address) := fun _ _ => ⟨_, rfl⟩
  have reads : ∀ stop, First sshdDenied ⟨[], (denied reason).message user peer port⟩ stop ↔
      First (sequence [nonBlanks 1 1, Decode.text " from ", nonBlanks 2 1,
        Decode.text " not allowed because"]) ⟨[], user ++ (spaced ["from".toList, peer.text,
          "not".toList, "allowed".toList, "because".toList] ++ ' ' :: reason)⟩ stop := by
    intro stop
    have lead : (denied reason).lead = "User ".toList := rfl
    rw [First, First, message, lead, sshdDenied, Decode.text, run_word_here]
    rfl
  refine (decoded_denied engine sets reads).trans ?_
  have free (c : Char) : (denied reason).barred engine c = false := rfl
  simp only [Copied, free, and_true, implies_true]
  rfl

end Lines
end SshdLine

/-- A line of sshd is decoded to come from where the connection does just when the user name, after
    what announces a user that is not known, is one word, or has a word first and then what the
    line itself says of the connection. -/
theorem peer_decoded_iff (engine : Engine) (line : SshdLine) (user : List Char) (peer : Peer)
    (port : UInt16) :
    line.Names peer port (decodeSshd engine .empty (line.message user peer port)) ↔
      line.OneWord (line.shown user) ∨ line.Repeats engine peer port (line.shown user) := by
  rw [← SshdLine.copied_iff]
  cases line with
  | failed method invalid => exact SshdLine.failed_iff method invalid user
  | accepted method => exact SshdLine.accepted_iff method user
  | invalidUser => exact SshdLine.invalidUser_iff user
  | maxAuth error invalid => exact SshdLine.maxAuth_iff error invalid user
  | preauth disconnected invalid => exact SshdLine.preauth_iff disconnected invalid user
  | denied reason =>
    rw [SshdLine.Names, and_true]
    exact SshdLine.denied_iff reason user

section Forged

/- An engine for which only `0` to `9` are digits. -/
def asciiEngine : Engine where
  captures := captures
  isDigit := Char.isDigit
  preferred := rfl
  ascii _ digit := digit
  blank c white := by
    by_contra digit
    have plain := digit_plain (by simpa using digit)
    rw [nonBlank, white] at plain
    cases plain

def attacker : Peer where
  text := "203.0.113.9".toList
  nonempty := by decide
  plain := by decide
  short := by decide
  no_bracket := by decide

def password : Word := ⟨"password".toList, by decide, by decide⟩

/-- Whoever logs in as `x from 192.0.2.1 port 22` is decoded to come from 192.0.2.1. -/
theorem peer_forged :
    let line := SshdLine.failed password true
    let user := "x from 192.0.2.1 port 22".toList
    let log := decodeSshd asciiEngine .empty (line.message user attacker 40022)
    ¬ line.Names attacker 40022 log ∧ log.get "src_ip" = some "192.0.2.1" := by
  intro line user log
  have forged : log.get "src_ip" = some "192.0.2.1" := by decide
  have other : String.ofList attacker.text ≠ "192.0.2.1" := by decide
  refine ⟨fun named => ?_, forged⟩
  exact other (Option.some.inj (named.1.symm.trans forged))

end Forged
end SentinelAgent.Decode
