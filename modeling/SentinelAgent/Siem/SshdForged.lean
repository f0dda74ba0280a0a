import Mathlib.Tactic.IntervalCases
import SentinelAgent.Siem.SshdLines

/-!
When a line of sshd is decoded to come from its peer, whatever the user name is.
-/
namespace SentinelAgent.Decode
open Captures Maps Spaced Text

/-! The fields that are set. -/

namespace DecodedLog

theorem get_empty (name : String) : empty.get name = none := Finmap.lookup_empty _

theorem get_set (log : DecodedLog) (name value other : String) : (log.set name value).get other =
    if trim value = "" then log.get other
    else if other = toAsciiLowercase name then some (kept value) else log.get other := by
  rw [set]
  split
  · rfl
  · exact lookup_insert_eq _ _ _ _

end DecodedLog

theorem plain_not_empty {text : List Char} (plain : ∀ c ∈ text, nonBlank c = true)
    (some_letter : 1 ≤ text.length) : trim (String.ofList text) ≠ "" := by
  rw [trim_plain plain]
  intro none_there
  have := congrArg (fun s => s.toList.length) none_there
  simp at this
  simp [this] at some_letter

/- What the line is decoded from is the peer, when both values that are set are its own. -/
theorem peer_set (log : DecodedLog) {address : List Char} (peer : Peer)
    (plain : ∀ c ∈ address, nonBlank c = true) (some_letter : 1 ≤ address.length) :
    (log.set "src_ip" (String.ofList address)).get "src_ip" = some (String.ofList peer.text) ↔
      address = peer.text := by
  have lower : toAsciiLowercase "src_ip" = "src_ip" := by decide
  rw [DecodedLog.get_set, if_neg (plain_not_empty plain some_letter), if_pos lower.symm,
    Option.some.injEq, kept_plain plain peer.short]

/- The peer of an event. -/
def FromPeer (peer : Peer) (port : UInt16) (log : DecodedLog) : Prop :=
  log.get "src_ip" = some (String.ofList peer.text) ∧
    log.get "src_port" = some (String.ofList (portText port))

theorem port_set (log : DecodedLog) {address digits : List Char} (peer : Peer) (port : UInt16)
    (plain : ∀ c ∈ address, nonBlank c = true) (some_letter : 1 ≤ address.length)
    (digits_plain : ∀ c ∈ digits, nonBlank c = true) (some_digit : 1 ≤ digits.length) :
    FromPeer peer port
        ((log.set "src_ip" (String.ofList address)).set "src_port" (String.ofList digits)) ↔
      address = peer.text ∧ digits = portText port := by
  have lower : toAsciiLowercase "src_port" = "src_port" := by decide
  have other : "src_ip" ≠ "src_port" := by decide
  rw [FromPeer, DecodedLog.get_set _ "src_port" _ "src_ip", if_neg (plain_not_empty digits_plain some_digit),
    lower, if_neg other, peer_set log peer plain some_letter, DecodedLog.get_set,
    if_neg (plain_not_empty digits_plain some_digit), lower, if_pos rfl, Option.some.injEq,
    kept_plain digits_plain (port_short port)]

/-! Which pattern a line is for: its first letter tells. -/

section Silent
variable (engine : Engine) {line : List Char}

theorem failed_silent (other : line.head? ≠ some 'F') :
    engine.captures (sshdFailed engine) line = none := by
  rw [engine.preferred]
  exact captures_eq_none (run_word_start _ _ _ other)

theorem accepted_silent (other : line.head? ≠ some 'A') :
    engine.captures (sshdAccepted engine) line = none := by
  rw [engine.preferred]
  exact captures_eq_none (run_word_start _ _ _ other)

theorem invalid_silent (other : line.head? ≠ some 'I') :
    engine.captures (sshdInvalid engine) line = none := by
  rw [engine.preferred]
  exact captures_eq_none (run_word_start _ _ _ other)

theorem denied_silent (other : line.head? ≠ some 'U') : engine.captures sshdDenied line = none := by
  rw [engine.preferred]
  exact captures_eq_none (run_word_start _ _ _ other)

theorem maxAuth_silent (no_error : line.head? ≠ some 'e') (other : line.head? ≠ some 'm') :
    engine.captures (sshdMaxAuth engine) line = none := by
  rw [engine.preferred]
  refine captures_eq_none ?_
  rw [sshdMaxAuth, run_maybe]
  exact List.append_eq_nil_iff.mpr
    ⟨run_word_start _ _ _ no_error, run_word_start _ _ _ other⟩

theorem preauth_silent (no_close : line.head? ≠ some 'C') (other : line.head? ≠ some 'D') :
    engine.captures (sshdPreauth engine) line = none := by
  rw [engine.preferred]
  refine captures_eq_none ?_
  rw [sshdPreauth, run_either]
  exact List.append_eq_nil_iff.mpr
    ⟨run_word_start _ _ _ no_close, run_word_start _ _ _ other⟩

end Silent

/-! The part that may announce a user that is not known. -/

section Optional
variable (engine : Engine) {groups : Groups} {least n m k : Nat} (peer : Peer) (port : UInt16)

theorem invalid_not_read {rest : List Char} {stop : Found} :
    ¬ First (sequence (fromPort engine least n m k)) ⟨groups, SshdLine.invalidUserText ++ rest⟩ stop := by
  rw [first_fromPort]
  rintro ⟨name, address, digits, left, whole, plain, _⟩
  have parts : SshdLine.invalidUserText = "invalid".toList ++ ' ' :: "user ".toList := by decide
  have split : "invalid".toList ++ ' ' :: ("user ".toList ++ rest) =
      name ++ ' ' :: ("from".toList ++ spaced [address, "port".toList, digits] ++ left) := by
    rw [parts] at whole
    simpa [spaced] using whole
  have no_blank : ' ' ∉ "invalid".toList := by decide
  obtain ⟨_, more⟩ := at_first_blank no_blank (plain_no_blank plain) split
  simp at more

theorem straddle_not_read {user rest tail : List Char} {stop : Found}
    (other : ¬ SshdLine.invalidUserText <+: user)
    (whole : user ++ (spaced ["from".toList, peer.text, "port".toList, portText port] ++ tail) =
      SshdLine.invalidUserText ++ rest) :
    ¬ First (sequence (fromPort engine least n m k)) ⟨groups, rest⟩ stop := by
  -- The announced text ends inside what follows the name, so at one of its own blanks.
  have ends : ' ' :: rest =
      spaced ["from".toList, peer.text, "port".toList, portText port] ++ tail := by
    have places : ∀ taken ≤ 13, (SshdLine.invalidUserText.drop taken).head? = some ' ' →
        taken = 7 ∨ taken = 12 := by decide
    rcases List.append_eq_append_iff.mp whole with ⟨left, announced, follows⟩ | ⟨left, rfl, _⟩
    · have left_eq : left = SshdLine.invalidUserText.drop user.length := by rw [announced]; simp
      have short : user.length ≤ 13 := by
        have lengths := congrArg List.length announced
        rw [List.length_append, show SshdLine.invalidUserText.length = 13 by decide] at lengths
        omega
      cases left with
      | nil => exact absurd ⟨[], by rw [announced]; simp⟩ other
      | cons c left =>
        have blank : c = ' ' := by simpa [spaced] using (congrArg List.head? follows).symm
        rw [blank] at left_eq follows
        rcases places user.length short (by rw [← left_eq]; rfl) with early | late
        · rw [left_eq, early, show SshdLine.invalidUserText.drop 7 = " user ".toList by decide]
            at follows
          simp [spaced] at follows
        · rw [left_eq, late, show SshdLine.invalidUserText.drop 12 = [' '] by decide] at follows
          exact follows.symm
    · exact absurd (List.prefix_append _ _) other
  have rest_eq : rest = "from".toList ++ ' ' :: (peer.text ++ ' ' ::
      ("port".toList ++ ' ' :: (portText port ++ tail))) := by
    simpa [spaced] using ends
  rw [first_fromPort]
  rintro ⟨name, address, digits, left, line_eq, plain, _, address_plain, _⟩
  have split : "from".toList ++ ' ' :: (peer.text ++ ' ' ::
      ("port".toList ++ ' ' :: (portText port ++ tail))) =
        name ++ ' ' :: ("from".toList ++ ' ' :: (address ++ ' ' ::
          ("port".toList ++ ' ' :: (digits ++ left)))) := by
    rw [← rest_eq, line_eq]
    simp [spaced]
  obtain ⟨_, split⟩ := at_first_blank (by decide) (plain_no_blank plain) split
  obtain ⟨_, split⟩ := at_first_blank (SshdLine.peer_no_blank peer) (by decide) split
  obtain ⟨_, split⟩ := at_first_blank (by decide) (plain_no_blank address_plain) split
  refine SshdLine.port_not_start port (by decide : 'p'.isDigit = false)
    ("ort".toList ++ ' ' :: (digits ++ left)) ?_
  exact ⟨tail, split⟩

/- The name that is read begins after what announces it. -/
theorem first_optional {announcing : Regex} {announced : Groups}
    (announces : ∀ rs text stop, First (sequence (announcing :: rs)) ⟨groups, text⟩ stop ↔
      ∃ rest, text = SshdLine.invalidUserText ++ rest ∧
        First (sequence rs) ⟨announced, rest⟩ stop)
    (invalid : Bool) (user tail : List Char) :
    ∃ before, (before = groups ∨ before = announced) ∧ ∀ stop,
      First (sequence (.maybe announcing :: fromPort engine least n m k))
          ⟨groups, (if invalid then SshdLine.invalidUserText else []) ++
            (user ++ (spaced ["from".toList, peer.text, "port".toList, portText port] ++ tail))⟩ stop ↔
        First (sequence (fromPort engine least n m k))
          ⟨before, (if invalid then user else (after SshdLine.invalidUserText user).getD user) ++
            (spaced ["from".toList, peer.text, "port".toList, portText port] ++ tail)⟩ stop := by
  have announced_read (rest : List Char) (stop : Found) :
      First (sequence (.maybe announcing :: fromPort engine least n m k))
          ⟨groups, SshdLine.invalidUserText ++ rest⟩ stop ↔
        First (sequence (fromPort engine least n m k)) ⟨announced, rest⟩ stop := by
    rw [first_maybe, announces]
    simp only [invalid_not_read, and_false, or_false, List.append_cancel_left_eq]
    exact exists_eq_left'
  cases invalid with
  | true => exact ⟨announced, Or.inr rfl, fun stop => announced_read _ stop⟩
  | false =>
    simp only [Bool.false_eq_true, if_false, List.nil_append]
    cases there : after SshdLine.invalidUserText user with
    | some rest =>
      rw [after_eq_some.mp there, Option.getD_some]
      refine ⟨announced, Or.inr rfl, fun stop => ?_⟩
      rw [List.append_assoc]
      exact announced_read _ stop
    | none =>
      refine ⟨groups, Or.inl rfl, fun stop => ?_⟩
      have other : ¬ SshdLine.invalidUserText <+: user := by
        rintro ⟨rest, rfl⟩
        rw [after_eq_some.mpr rfl] at there
        cases there
      have silent : ∀ stop, ¬ First (sequence (announcing :: fromPort engine least n m k))
          ⟨groups, user ++ (spaced ["from".toList, peer.text, "port".toList, portText port] ++
            tail)⟩ stop := by
        intro stop found
        obtain ⟨rest, whole, read⟩ := (announces _ _ _).mp found
        exact straddle_not_read engine peer port other whole read
      rw [first_maybe]
      simp only [silent, false_or, not_false_eq_true, implies_true, true_and, Option.getD_none]

end Optional

/-! From what a pattern reads to what is decoded. -/

section Decoded
variable (engine : Engine) {before : Groups} {least n m k : Nat} {peer : Peer} {port : UInt16}
  {pattern : Regex} {line name tail : List Char} {log : Groups → DecodedLog}

/- The peer of an event that has no port. -/
def FromAddress (peer : Peer) (log : DecodedLog) : Prop :=
  log.get "src_ip" = some (String.ofList peer.text)

/- Of a line whose pattern is not found, nothing is set. -/
theorem decoded_iff {Holds : DecodedLog → Prop} (not_empty : ¬ Holds .empty) :
    Holds (((engine.captures pattern line).map log).getD .empty) ↔
      ∃ stop, First pattern ⟨[], line⟩ stop ∧ Holds (log stop.groups) := by
  rw [engine.preferred, captures]
  simp only [First]
  cases (run pattern ⟨[], line⟩).head? with
  | none => simpa using not_empty
  | some found => simp

theorem not_fromPeer_empty : ¬ FromPeer peer port .empty := by
  rintro ⟨address, _⟩
  rw [DecodedLog.get_empty] at address
  cases address

theorem not_fromAddress_empty : ¬ FromAddress peer .empty := by
  rw [FromAddress, DecodedLog.get_empty]
  exact nofun

theorem address_long (peer : Peer) : 1 ≤ peer.text.length :=
  List.length_pos_of_ne_nil peer.nonempty

theorem port_long (port : UInt16) : 1 ≤ (portText port).length :=
  List.length_pos_of_ne_nil (port_nonempty port)

theorem port_read (port : UInt16) : ∀ c ∈ portText port, engine.isDigit c = true :=
  fun c member => engine.ascii c (port_digits port c member)

/- What a pattern that has all three sets, in the order they are captured. -/
def Sets (log : Groups → DecodedLog) (before : Groups) (n m k : Nat) : Prop :=
  ∀ word address digits, ∃ earlier : DecodedLog,
    log (before ++ [(n, word)] ++ [(m, address)] ++ [(k, digits)]) =
      (earlier.set "src_ip" (String.ofList address)).set "src_port" (String.ofList digits)

theorem decoded_fromPort (sets : Sets log before n m k)
    (same : ∀ stop, First pattern ⟨[], line⟩ stop ↔
      First (sequence (fromPort engine least n m k)) ⟨before, name ++
        (spaced ["from".toList, peer.text, "port".toList, portText port] ++ tail)⟩ stop) :
    FromPeer peer port (((engine.captures pattern line).map log).getD .empty) ↔
      ∃ word rest, name ++ (spaced ["from".toList, peer.text, "port".toList, portText port] ++ tail) =
          word ++ (spaced ["from".toList, peer.text, "port".toList, portText port] ++ rest) ∧
        (∀ c ∈ word, nonBlank c = true) ∧ least ≤ word.length ∧
          ∀ c ∈ rest.head?, engine.isDigit c = false := by
  rw [decoded_iff engine not_fromPeer_empty]
  simp only [same, first_fromPort]
  constructor
  · rintro ⟨_, ⟨word, address, digits, rest, whole, plain, long, address_plain, some_address,
      digits_read, some_digit, free, rfl⟩, named⟩
    obtain ⟨earlier, set_eq⟩ := sets word address digits
    rw [set_eq, port_set earlier peer port address_plain some_address
      (digit_is_plain engine digits_read) some_digit] at named
    rw [named.1, named.2] at whole
    exact ⟨word, rest, whole, plain, long, free⟩
  · rintro ⟨word, rest, whole, plain, long, free⟩
    refine ⟨_, ⟨word, peer.text, portText port, rest, whole, plain, long, peer.plain,
      address_long peer, port_read engine port, port_long port, free, rfl⟩, ?_⟩
    obtain ⟨earlier, set_eq⟩ := sets word peer.text (portText port)
    rw [set_eq, port_set earlier peer port peer.plain (address_long peer) (port_plain port)
      (port_long port)]
    exact ⟨rfl, rfl⟩

theorem decoded_preauth (sets : Sets log before n m k)
    (same : ∀ stop, First pattern ⟨[], line⟩ stop ↔
      First (preauthEnd engine n m k) ⟨before, name ++
        (spaced [peer.text, "port".toList, portText port, "[preauth]".toList] ++ tail)⟩ stop) :
    FromPeer peer port (((engine.captures pattern line).map log).getD .empty) ↔
      ∃ word rest, name ++ (spaced [peer.text, "port".toList, portText port, "[preauth]".toList] ++
          tail) =
          word ++ (spaced [peer.text, "port".toList, portText port, "[preauth]".toList] ++ rest) ∧
        ∀ c ∈ word, nonBlank c = true := by
  rw [decoded_iff engine not_fromPeer_empty]
  simp only [same, first_preauthEnd]
  constructor
  · rintro ⟨_, ⟨word, address, digits, rest, whole, plain, address_plain, some_address, digits_read,
      some_digit, rfl⟩, named⟩
    obtain ⟨earlier, set_eq⟩ := sets word address digits
    rw [set_eq, port_set earlier peer port address_plain some_address
      (digit_is_plain engine digits_read) some_digit] at named
    rw [named.1, named.2] at whole
    exact ⟨word, rest, whole, plain⟩
  · rintro ⟨word, rest, whole, plain⟩
    refine ⟨_, ⟨word, peer.text, portText port, rest, whole, plain, peer.plain, address_long peer,
      port_read engine port, port_long port, rfl⟩, ?_⟩
    obtain ⟨earlier, set_eq⟩ := sets word peer.text (portText port)
    rw [set_eq, port_set earlier peer port peer.plain (address_long peer) (port_plain port)
      (port_long port)]
    exact ⟨rfl, rfl⟩

theorem decoded_denied
    (sets : ∀ word address, ∃ earlier : DecodedLog,
      log (before ++ [(n, word)] ++ [(m, address)]) =
        earlier.set "src_ip" (String.ofList address))
    (same : ∀ stop, First pattern ⟨[], line⟩ stop ↔
      First (sequence [nonBlanks n 1, text " from ", nonBlanks m 1, text " not allowed because"])
        ⟨before, name ++ (spaced ["from".toList, peer.text, "not".toList, "allowed".toList,
          "because".toList] ++ tail)⟩ stop) :
    FromAddress peer (((engine.captures pattern line).map log).getD .empty) ↔
      ∃ word rest, name ++ (spaced ["from".toList, peer.text, "not".toList, "allowed".toList,
          "because".toList] ++ tail) =
          word ++ (spaced ["from".toList, peer.text, "not".toList, "allowed".toList,
            "because".toList] ++ rest) ∧
        (∀ c ∈ word, nonBlank c = true) ∧ 1 ≤ word.length := by
  rw [decoded_iff engine not_fromAddress_empty]
  simp only [same, first_denied]
  constructor
  · rintro ⟨_, ⟨word, address, rest, whole, plain, long, address_plain, some_address, rfl⟩, named⟩
    obtain ⟨earlier, set_eq⟩ := sets word address
    rw [FromAddress, set_eq, peer_set earlier peer address_plain some_address] at named
    rw [named] at whole
    exact ⟨word, rest, whole, plain, long⟩
  · rintro ⟨word, rest, whole, plain, long⟩
    refine ⟨_, ⟨word, peer.text, rest, whole, plain, long, peer.plain, address_long peer, rfl⟩, ?_⟩
    obtain ⟨earlier, set_eq⟩ := sets word peer.text
    rw [FromAddress, set_eq, peer_set earlier peer peer.plain (address_long peer)]

theorem decoded_fromMaybePort (sets : Sets log before n m k)
    (no_port : ∀ word address, (log (before ++ [(n, word)] ++ [(m, address)])).get "src_port" = none)
    (same : ∀ stop, First pattern ⟨[], line⟩ stop ↔
      First (fromMaybePort engine n m k) ⟨before, name ++
        (spaced ["from".toList, peer.text, "port".toList, portText port] ++ tail)⟩ stop) :
    FromPeer peer port (((engine.captures pattern line).map log).getD .empty) ↔
      ∃ word rest, name ++ (spaced ["from".toList, peer.text, "port".toList, portText port] ++ tail) =
          word ++ (spaced ["from".toList, peer.text, "port".toList, portText port] ++ rest) ∧
        (∀ c ∈ word, nonBlank c = true) ∧ ∀ c ∈ rest.head?, engine.isDigit c = false := by
  have joined (address digits rest : List Char) :
      spaced ["from".toList, address] ++ (spaced ["port".toList, digits] ++ rest) =
        spaced ["from".toList, address, "port".toList, digits] ++ rest := by simp [spaced]
  rw [decoded_iff engine not_fromPeer_empty]
  simp only [same, first_fromMaybePort]
  constructor
  · rintro ⟨_, ⟨word, address, left, whole, plain, address_plain, some_address, _,
      ⟨digits, rest, ⟨rfl, digits_read, free, some_digit⟩, rfl⟩ | ⟨_, rfl⟩⟩, named⟩
    · obtain ⟨earlier, set_eq⟩ := sets word address digits
      rw [set_eq, port_set earlier peer port address_plain some_address
        (digit_is_plain engine digits_read) some_digit] at named
      rw [joined, named.1, named.2] at whole
      exact ⟨word, rest, whole, plain, free⟩
    · have port_set := named.2
      rw [no_port] at port_set
      cases port_set
  · rintro ⟨word, rest, whole, plain, free⟩
    refine ⟨_, ⟨word, peer.text, spaced ["port".toList, portText port] ++ rest,
      by rw [joined]; exact whole, plain, peer.plain, address_long peer, ?_, Or.inl
      ⟨portText port, rest, ⟨rfl, port_read engine port, free, port_long port⟩, rfl⟩⟩, ?_⟩
    · intro c first
      obtain rfl : ' ' = c := by simpa [spaced] using first
      exact blank_stops
    · obtain ⟨earlier, set_eq⟩ := sets word peer.text (portText port)
      rw [set_eq, port_set earlier peer port peer.plain (address_long peer) (port_plain port)
        (port_long port)]
      exact ⟨rfl, rfl⟩

end Decoded

end SentinelAgent.Decode
