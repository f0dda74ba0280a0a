import SentinelAgent.Library.Spaced
import SentinelAgent.Siem.Decode

/-!
The lines of sshd that carry a user name, which whoever connects has chosen, and the address
they are decoded to come from.
-/
namespace SentinelAgent.Decode
open Captures Spaced Text

/- A word of a line, without a blank. -/
structure Word where
  text : List Char
  nonempty : text ≠ []
  plain : ∀ c ∈ text, nonBlank c = true

/- Where a connection comes from. -/
structure Peer extends Word where
  short : text.length < maxFieldChars
  no_bracket : '[' ∉ text

def portText (port : UInt16) : List Char := port.toNat.repr.toList

inductive SshdLine where
  | failed (method : Word) (invalid : Bool)
  | accepted (method : Word)
  | invalidUser
  | maxAuth (error invalid : Bool)
  | preauth (disconnected invalid : Bool)
  | denied (reason : List Char)

namespace SshdLine

def invalidUserText : List Char := "invalid user ".toList

/- What stands before the user name. -/
def lead : SshdLine → List Char
  | failed method invalid => "Failed ".toList ++ (method.text ++ (" for ".toList ++
      if invalid then invalidUserText else []))
  | accepted method => "Accepted ".toList ++ (method.text ++ " for ".toList)
  | invalidUser => "Invalid user ".toList
  | maxAuth error invalid => (if error then "error: ".toList else []) ++
      ("maximum authentication attempts exceeded for ".toList ++
        if invalid then invalidUserText else [])
  | preauth disconnected invalid =>
    (if disconnected then "Disconnected from".toList else "Connection closed by".toList) ++
      (" ".toList ++ ((if invalid then "invalid".toList else "authenticating".toList) ++
        " user ".toList))
  | denied _ => "User ".toList

/- The words that follow it. -/
def words (peer : Peer) (port : UInt16) : SshdLine → List (List Char)
  | preauth _ _ => [peer.text, "port".toList, portText port, "[preauth]".toList]
  | denied _ => ["from".toList, peer.text, "not".toList, "allowed".toList, "because".toList]
  | _ => ["from".toList, peer.text, "port".toList, portText port]

def tail : SshdLine → List Char
  | failed _ _ | accepted _ => " ssh2".toList
  | maxAuth _ _ => " ssh2 [preauth]".toList
  | invalidUser | preauth _ _ => []
  | denied reason => ' ' :: reason

def message (line : SshdLine) (user : List Char) (peer : Peer) (port : UInt16) : List Char :=
  line.lead ++ (user ++ (spaced (line.words peer port) ++ line.tail))

/- The line is decoded to come from the peer. -/
def Names (line : SshdLine) (peer : Peer) (port : UInt16) (log : DecodedLog) : Prop :=
  log.get "src_ip" = some (String.ofList peer.text) ∧
    match line with
    | denied _ => True
    | _ => log.get "src_port" = some (String.ofList (portText port))

/- A user name may itself begin with what sshd puts before the name of a user it does not know. -/
def shown (line : SshdLine) (user : List Char) : List Char :=
  match line with
  | failed _ false | maxAuth _ false => (after invalidUserText user).getD user
  | _ => user

/- How many letters a name has at least, for the line to be recognised. -/
def least : SshdLine → Nat
  | accepted _ | denied _ => 1
  | _ => 0

/- The letters that may not follow the last word of the line, or they are taken for part of it. -/
def barred (engine : Engine) : SshdLine → Char → Bool
  | preauth _ _ | denied _ => fun _ => false
  | _ => engine.isDigit

/- The name is one word. -/
def OneWord (line : SshdLine) (name : List Char) : Prop :=
  (∀ c ∈ name, nonBlank c = true) ∧ line.least ≤ name.length

/- The name has a word first, and after it what the line says of the peer, letter by letter. -/
def Repeats (engine : Engine) (line : SshdLine) (peer : Peer) (port : UInt16) (name : List Char) :
    Prop :=
  ∃ word more, name = word ++ (spaced (line.words peer port) ++ more) ∧ line.OneWord word ∧
    ∀ c ∈ more.head?, line.barred engine c = false

end SshdLine

/-! Words and digits. -/

theorem trim_plain {text : List Char} (plain : ∀ c ∈ text, nonBlank c = true) :
    trim (String.ofList text) = String.ofList text :=
  trim_unchanged fun c member => by simpa [nonBlank] using plain c member

theorem kept_plain {text whole : List Char} (plain : ∀ c ∈ text, nonBlank c = true)
    (short : whole.length < maxFieldChars) :
    DecodedLog.kept (String.ofList text) = String.ofList whole ↔ text = whole := by
  rw [DecodedLog.kept, trim_plain plain, String.toList_ofList, String.ofList_inj]
  constructor
  · intro same
    have lengths := congrArg List.length same
    rw [List.length_take] at lengths
    rwa [List.take_of_length_le (by omega)] at same
  · rintro rfl
    exact List.take_of_length_le (by omega)

theorem plain_no_blank {text : List Char} (plain : ∀ c ∈ text, nonBlank c = true) : ' ' ∉ text := by
  intro member
  exact absurd (plain ' ' member) (by decide)

theorem digit_plain {c : Char} (digit : c.isDigit = true) : nonBlank c = true := by
  simp only [Char.isDigit, Bool.and_eq_true, decide_eq_true_eq] at digit
  have least : 48 ≤ c.toNat := UInt32.le_iff_toNat_le.mp digit.1
  have most : c.toNat ≤ 57 := UInt32.le_iff_toNat_le.mp digit.2
  simp only [nonBlank, isWhitespace, Bool.not_eq_true', decide_eq_false_iff_not]
  omega

section Port
variable (port : UInt16)

theorem port_digits : ∀ c ∈ portText port, c.isDigit = true := repr_digits _

theorem port_nonempty : portText port ≠ [] := by
  rw [portText, Nat.toList_repr]
  exact Nat.toDigits_ne_nil

theorem port_short : (portText port).length < maxFieldChars := by
  have small : port.toNat < 10 ^ 5 := by
    have := port.toNat_lt
    omega
  rw [portText, Nat.toList_repr]
  have := (Nat.length_toDigits_le_iff (b := 10) (k := 5) (by omega) (by omega)).mpr small
  simp only [maxFieldChars]
  omega

theorem port_plain : ∀ c ∈ portText port, nonBlank c = true :=
  fun c member => digit_plain (port_digits port c member)

end Port

/-! The words after the name do not overlap with themselves. -/

namespace SshdLine
variable (peer : Peer) (port : UInt16)

theorem peer_no_blank : ' ' ∉ peer.text := plain_no_blank peer.plain

theorem port_no_blank : ' ' ∉ portText port := plain_no_blank (port_plain port)

theorem words_no_blank (line : SshdLine) : ∀ word ∈ line.words peer port, ' ' ∉ word := by
  have address := peer_no_blank peer
  have number := port_no_blank port
  cases line <;> simp [words, address, number]

/- A port is not a word of the line that begins otherwise. -/
theorem port_not_start {c : Char} (letter : c.isDigit = false) (rest : List Char) :
    ¬ portText port <+: c :: rest := by
  rintro ⟨left, same⟩
  have digits := port_digits port
  cases there : portText port with
  | nil => exact port_nonempty port there
  | cons d text =>
    rw [there] at same digits
    have first := digits d List.mem_cons_self
    rw [(List.cons.inj same).1, letter] at first
    cases first

theorem port_ne {c : Char} (letter : c.isDigit = false) (rest : List Char) :
    portText port ≠ c :: rest := by
  intro same
  exact port_not_start port letter rest (same ▸ List.prefix_refl _)

theorem unbordered_from : Unbordered (spaced ["from".toList, peer.text, "port".toList,
    portText port]) := by
  have address := peer_no_blank peer
  have no_blank := words_no_blank peer port .invalidUser
  refine unbordered_spaced no_blank fun later among some_later starts => ?_
  simp only [List.tail_cons, List.tails, List.mem_cons, List.not_mem_nil,
    or_false] at among
  rcases among with rfl | rfl | rfl | rfl
  · obtain ⟨is_from, starts⟩ := first_words address (by decide) starts
    obtain ⟨is_peer, _⟩ := first_words (by decide) address starts
    rw [is_from] at is_peer
    exact absurd is_peer (by decide)
  · obtain ⟨is_from, _⟩ := first_words (by decide) (by decide) starts
    exact absurd is_from (by decide)
  · exact port_not_start port (by decide) _ (first_word (port_no_blank port) starts)
  · exact some_later rfl

theorem unbordered_preauth : Unbordered (spaced [peer.text, "port".toList, portText port,
    "[preauth]".toList]) := by
  have address := peer_no_blank peer
  have number := port_no_blank port
  have no_blank := words_no_blank peer port (.preauth false false)
  refine unbordered_spaced no_blank fun later among some_later starts => ?_
  simp only [List.tail_cons, List.tails, List.mem_cons, List.not_mem_nil,
    or_false] at among
  rcases among with rfl | rfl | rfl | rfl
  · obtain ⟨_, starts⟩ := first_words (by decide) address starts
    obtain ⟨is_port, _⟩ := first_words number (by decide) starts
    exact port_ne port (by decide) _ is_port
  · obtain ⟨_, starts⟩ := first_words number address starts
    have short := first_word (by decide) starts
    exact absurd short (by decide)
  · obtain ⟨rest, same⟩ := first_word (by decide) starts
    exact peer.no_bracket (by rw [← same]; simp)
  · exact some_later rfl

theorem unbordered_denied : Unbordered (spaced ["from".toList, peer.text, "not".toList,
    "allowed".toList, "because".toList]) := by
  have address := peer_no_blank peer
  have no_blank := words_no_blank peer 0 (.denied [])
  refine unbordered_spaced no_blank fun later among some_later starts => ?_
  simp only [List.tail_cons, List.tails, List.mem_cons, List.not_mem_nil,
    or_false] at among
  rcases among with rfl | rfl | rfl | rfl | rfl
  · obtain ⟨is_from, starts⟩ := first_words address (by decide) starts
    obtain ⟨is_peer, _⟩ := first_words (by decide) address starts
    rw [is_from] at is_peer
    exact absurd is_peer (by decide)
  · exact absurd (first_words (by decide) (by decide) starts).1 (by decide)
  · exact absurd (first_words (by decide) (by decide) starts).1 (by decide)
  · exact absurd (first_word (by decide) starts) (by decide)
  · exact some_later rfl

theorem unbordered (line : SshdLine) : Unbordered (spaced (line.words peer port)) := by
  cases line with
  | preauth disconnected invalid => exact unbordered_preauth peer port
  | denied reason => exact unbordered_denied peer
  | failed method invalid => exact unbordered_from peer port
  | accepted method => exact unbordered_from peer port
  | invalidUser => exact unbordered_from peer port
  | maxAuth error invalid => exact unbordered_from peer port

end SshdLine

/-! What the end of each pattern reads. -/

section Ends
variable (engine : Engine) {groups : Groups} {least n m k : Nat} {rest : List Char} {stop : Found}

theorem blank_stops : nonBlank ' ' = false := by decide

theorem digits_stop : engine.isDigit ' ' = false := engine.blank ' ' (by decide)

theorem digit_is_plain {d : List Char} (digits : ∀ c ∈ d, engine.isDigit c = true) :
    ∀ c ∈ d, nonBlank c = true := by
  intro c member
  by_contra blank
  have white : isWhitespace c = true := by simpa [nonBlank] using blank
  have digit := digits c member
  rw [engine.blank c white] at digit
  cases digit

/- `(\S*) from (\S+) port (\d+)`. -/
def fromPort (least n m k : Nat) : List Regex :=
  [nonBlanks n least, text " from ", nonBlanks m 1, text " port ", digits engine k]

theorem first_fromPort {line : List Char} :
    First (sequence (fromPort engine least n m k)) ⟨groups, line⟩ stop ↔
      ∃ name address port rest, line = name ++ (spaced ["from".toList, address, "port".toList, port] ++ rest) ∧
        (∀ c ∈ name, nonBlank c = true) ∧ least ≤ name.length ∧
        (∀ c ∈ address, nonBlank c = true) ∧ 1 ≤ address.length ∧
        (∀ c ∈ port, engine.isDigit c = true) ∧ 1 ≤ port.length ∧
        (∀ c ∈ rest.head?, engine.isDigit c = false) ∧
        stop = ⟨groups ++ [(n, name)] ++ [(m, address)] ++ [(k, port)], rest⟩ := by
  have separator : text " from " = .word (' ' :: "from ".toList) := rfl
  have label : text " port " = .word (' ' :: "port ".toList) := rfl
  rw [fromPort, separator, label, nonBlanks, nonBlanks, digits]
  simp only [first_many_word blank_stops, first_many_last]
  constructor
  · rintro ⟨name, _, rfl, plain, long, address, _, rfl, address_plain, some_address, port, rest, rfl,
      port_digits, free, some_port, rfl⟩
    exact ⟨name, address, port, rest, by simp [spaced], plain, long, address_plain, some_address,
      port_digits, some_port, free, rfl⟩
  · rintro ⟨name, address, port, rest, rfl, plain, long, address_plain, some_address, port_digits,
      some_port, free, rfl⟩
    exact ⟨name, _, by simp [spaced]; rfl, plain, long, address, _, by simp, address_plain,
      some_address, port, rest, rfl, port_digits, free, some_port, rfl⟩

/- `(\S*) from (\S+)(?: port (\d+))?`. -/
def fromMaybePort (n m k : Nat) : Regex := sequence
  [nonBlanks n 0, text " from ", nonBlanks m 1, .maybe (sequence [text " port ", digits engine k])]

/- A port is read from what is left of the line. -/
def PortRead (left port rest : List Char) : Prop :=
  left = spaced ["port".toList, port] ++ rest ∧ (∀ c ∈ port, engine.isDigit c = true) ∧
    (∀ c ∈ rest.head?, engine.isDigit c = false) ∧ 1 ≤ port.length

theorem first_port {left : List Char} :
    First (sequence [sequence [text " port ", digits engine k]]) ⟨groups, left⟩ stop ↔
      ∃ port rest, PortRead engine left port rest ∧ stop = ⟨groups ++ [(k, port)], rest⟩ := by
  rw [First, run_sequence_single, ← First, text, Captures.first_word, digits]
  simp only [first_many_last]
  constructor
  · rintro ⟨_, rfl, port, rest, rfl, port_digits, free, some_port, rfl⟩
    exact ⟨port, rest, ⟨by simp [spaced], port_digits, free, some_port⟩, rfl⟩
  · rintro ⟨port, rest, ⟨rfl, port_digits, free, some_port⟩, rfl⟩
    exact ⟨port ++ rest, by simp [spaced], port, rest, rfl, port_digits, free, some_port, rfl⟩

theorem first_fromMaybePort {line : List Char} :
    First (fromMaybePort engine n m k) ⟨groups, line⟩ stop ↔
      ∃ name address left, line = name ++ (spaced ["from".toList, address] ++ left) ∧
        (∀ c ∈ name, nonBlank c = true) ∧ (∀ c ∈ address, nonBlank c = true) ∧
        1 ≤ address.length ∧ (∀ c ∈ left.head?, nonBlank c = false) ∧
        ((∃ port rest, PortRead engine left port rest ∧
          stop = ⟨groups ++ [(n, name)] ++ [(m, address)] ++ [(k, port)], rest⟩) ∨
        (∀ port rest, ¬ PortRead engine left port rest) ∧
          stop = ⟨groups ++ [(n, name)] ++ [(m, address)], left⟩) := by
  have separator : text " from " = .word (' ' :: "from ".toList) := rfl
  have total : ∀ found,
      run (sequence [.maybe (sequence [text " port ", digits engine k])]) found ≠ [] := by
    intro found
    simp [run_sequence_cons, run, run_sequence_nil]
  have none_read (groups : Groups) (left : List Char) : (∀ other : Found,
      ¬ ∃ port rest, PortRead engine left port rest ∧ other = ⟨groups ++ [(k, port)], rest⟩) ↔
        ∀ port rest, ¬ PortRead engine left port rest := by
    constructor
    · intro none_found port rest read
      exact none_found _ ⟨port, rest, read, rfl⟩
    · rintro none_read other ⟨port, rest, read, _⟩
      exact none_read port rest read
  rw [fromMaybePort, separator, nonBlanks, nonBlanks]
  simp only [first_many_word blank_stops, first_many total, first_maybe, first_port, none_read,
    first_nil]
  constructor
  · rintro ⟨name, _, rfl, plain, _, address, left, rfl, address_plain, ends, some_address, read⟩
    exact ⟨name, address, left, by simp [spaced], plain, address_plain, some_address, ends, read⟩
  · rintro ⟨name, address, left, rfl, plain, address_plain, some_address, ends, read⟩
    exact ⟨name, address ++ left, by simp [spaced], plain, Nat.zero_le _, address, left, rfl,
      address_plain, ends, some_address, read⟩

/- `(\S*) (\S+) port (\d+) \[preauth\]`. -/
def preauthEnd (n m k : Nat) : Regex := sequence
  [nonBlanks n 0, text " ", nonBlanks m 1, text " port ", digits engine k, text " [preauth]"]

theorem first_preauthEnd {line : List Char} :
    First (preauthEnd engine n m k) ⟨groups, line⟩ stop ↔
      ∃ name address port rest,
        line = name ++ (spaced [address, "port".toList, port, "[preauth]".toList] ++ rest) ∧
        (∀ c ∈ name, nonBlank c = true) ∧ (∀ c ∈ address, nonBlank c = true) ∧
        1 ≤ address.length ∧ (∀ c ∈ port, engine.isDigit c = true) ∧ 1 ≤ port.length ∧
        stop = ⟨groups ++ [(n, name)] ++ [(m, address)] ++ [(k, port)], rest⟩ := by
  have separator : text " " = .word [' '] := rfl
  have label : text " port " = .word (' ' :: "port ".toList) := rfl
  have ends : text " [preauth]" = .word (' ' :: "[preauth]".toList) := rfl
  rw [preauthEnd, separator, label, ends, nonBlanks, nonBlanks, digits]
  simp only [first_many_word blank_stops, first_many_word (digits_stop engine), first_nil]
  constructor
  · rintro ⟨name, _, rfl, plain, _, address, _, rfl, address_plain, some_address, port, rest, rfl,
      port_digits, some_port, rfl⟩
    exact ⟨name, address, port, rest, by simp [spaced], plain, address_plain, some_address,
      port_digits, some_port, rfl⟩
  · rintro ⟨name, address, port, rest, rfl, plain, address_plain, some_address, port_digits,
      some_port, rfl⟩
    exact ⟨name, _, by simp [spaced]; rfl, plain, Nat.zero_le _, address,
      port ++ (' ' :: "[preauth]".toList ++ rest), by simp, address_plain, some_address, port, rest,
      rfl, port_digits, some_port, rfl⟩

theorem first_denied {line : List Char} :
    First (sequence [nonBlanks n 1, text " from ", nonBlanks m 1, text " not allowed because"])
        ⟨groups, line⟩ stop ↔
      ∃ name address rest,
        line = name ++ (spaced ["from".toList, address, "not".toList, "allowed".toList,
          "because".toList] ++ rest) ∧
        (∀ c ∈ name, nonBlank c = true) ∧ 1 ≤ name.length ∧
        (∀ c ∈ address, nonBlank c = true) ∧ 1 ≤ address.length ∧
        stop = ⟨groups ++ [(n, name)] ++ [(m, address)], rest⟩ := by
  have separator : text " from " = .word (' ' :: "from ".toList) := rfl
  have ends : text " not allowed because" = .word (' ' :: "not allowed because".toList) := rfl
  rw [separator, ends, nonBlanks, nonBlanks]
  simp only [first_many_word blank_stops, first_nil]
  constructor
  · rintro ⟨name, _, rfl, plain, long, address, rest, rfl, address_plain, some_address, rfl⟩
    exact ⟨name, address, rest, by simp [spaced], plain, long, address_plain, some_address, rfl⟩
  · rintro ⟨name, address, rest, rfl, plain, long, address_plain, some_address, rfl⟩
    exact ⟨name, _, by simp [spaced]; rfl, plain, long, address, rest, by simp, address_plain,
      some_address, rfl⟩

end Ends

end SentinelAgent.Decode
