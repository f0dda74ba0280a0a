import SentinelAgent.Network.AddressTexts
import Mathlib.Data.String.Basic

/-!
The line the kernel of a little-endian Linux host has for a TCP socket, and what is read of it:
each 32-bit word of an address is written with its bytes the last first.
-/
namespace SentinelAgent.Network
open Maps Response Text

def kernelDigit (digit : Nat) : Char := Char.ofNat (if digit < 10 then 48 + digit else 55 + digit)

def kernelByte (byte : Nat) : List Char := [kernelDigit (byte / 16), kernelDigit (byte % 16)]

def kernelWord (word : Nat) : List Char := (lowFirst word).flatMap kernelByte

def addressWords (address : Nat) : List Nat :=
  (List.range 4).map fun i => address / 4294967296 ^ (3 - i) % 4294967296

def kernelIpv6 (address : Nat) : List Char := (addressWords address).flatMap kernelWord

def kernelPort (port : Nat) : List Char := kernelByte (port / 256) ++ kernelByte (port % 256)

/- The addresses of the two ends of a socket. -/
inductive Ends where
  | ipv4 (here there : Fin (2 ^ 32))
  | ipv6 (here there : Fin (2 ^ 128))

namespace Ends

def protocol : Ends → ConnectionProtocol
  | ipv4 _ _ => .tcp
  | ipv6 _ _ => .tcp6

def here : Ends → Nat
  | ipv4 here _ => here.val
  | ipv6 here _ => here.val

def there : Ends → Nat
  | ipv4 _ there => there.val
  | ipv6 _ there => there.val

/- An address of the family, as the kernel has it. -/
def kernelText : Ends → Nat → List Char
  | ipv4 _ _, address => kernelWord address
  | ipv6 _ _, address => kernelIpv6 address

/- The same address, as the collector writes it. -/
def written : Ends → Nat → List Char
  | ipv4 _ _, address => ipv4Text address
  | ipv6 _ _, address => fullText address

end Ends

/- The numbers the kernel has for the two states. -/
def established : Nat := 1
def listening : Nat := 10

/- A TCP socket. One that listens has no other end. -/
structure Socket where
  ends : Ends
  localPort : Fin (2 ^ 16)
  remotePort : Fin (2 ^ 16)
  state : Fin 256
  inode : Fin (2 ^ 64)
  unconnected : state.val = listening → ends.there = 0

/- The fields of a line that are read. -/
structure FieldsOf (fields : List String) (socket : Socket) : Prop where
  enough : 10 ≤ fields.length
  here : fields[1]? = some (String.ofList
    (socket.ends.kernelText socket.ends.here ++ ':' :: kernelPort socket.localPort.val))
  there : fields[2]? = some (String.ofList
    (socket.ends.kernelText socket.ends.there ++ ':' :: kernelPort socket.remotePort.val))
  state : fields[3]? = some (String.ofList (kernelByte socket.state.val))
  inode : fields[9]? = some socket.inode.val.repr

def LineOf (line : String) (socket : Socket) : Prop := FieldsOf (words line) socket

section Reading

theorem hexValue_kernelDigit {digit : Nat} (small : digit < 16) :
    hexValue (kernelDigit digit) = some digit := by
  have all : ∀ d : Fin 16, hexValue (kernelDigit d.val) = some d.val := by decide
  exact all ⟨digit, small⟩

theorem kernelDigit_ne {mark : Char} (no_digit : hexValue mark = none) {digit : Nat}
    (small : digit < 16) : kernelDigit digit ≠ mark := by
  intro same
  have value := hexValue_kernelDigit small
  rw [same, no_digit] at value
  cases value

theorem readHex_kernelByte {byte : Nat} (small : byte < 256) (value : Nat) (rest : List Char) :
    readHex value (kernelByte byte ++ rest) = readHex (value * 256 + byte) rest := by
  simp only [kernelByte, List.cons_append, List.nil_append, readHex,
    hexValue_kernelDigit (by omega : byte / 16 < 16),
    hexValue_kernelDigit (Nat.mod_lt byte (by omega) : byte % 16 < 16), Option.bind_some]
  refine congrArg (fun value => readHex value rest) ?_
  omega

theorem fromHex_kernelByte {byte : Nat} (small : byte < 256) (bits : Nat) (rest : List Char) :
    fromHex bits (kernelByte byte ++ rest) =
      (readHex byte rest).filter fun n => decide (n < 2 ^ bits) := by
  have unsigned : kernelDigit (byte / 16) ≠ '+' := kernelDigit_ne (by decide) (by omega)
  have digits : withoutPlus (kernelByte byte ++ rest) = kernelByte byte ++ rest := if_neg unsigned
  rw [fromHex, digits, if_neg (by simp [kernelByte]), readHex_kernelByte small, Nat.zero_mul,
    Nat.zero_add]

theorem fromHex_byte {byte : Nat} (small : byte < 256) : fromHex 8 (kernelByte byte) = some byte := by
  have read := fromHex_kernelByte small 8 []
  rw [List.append_nil] at read
  rw [read]
  simp [readHex, small]

theorem fromHex_port {port : Nat} (small : port < 65536) :
    fromHex 16 (kernelPort port) = some port := by
  rw [kernelPort, fromHex_kernelByte (by omega), ← List.append_nil (kernelByte (port % 256)),
    readHex_kernelByte (by omega)]
  have whole : port / 256 * 256 + port % 256 = port := by omega
  simp [readHex, whole, small]

theorem octets_eq (word : Nat) : octets word =
    [word / 16777216 % 256, word / 65536 % 256, word / 256 % 256, word % 256] := by
  simp [octets, List.range, List.range.loop]

/- The number read of a word has the bytes of the word the other way round. -/
theorem fromHex_word (word : Nat) :
    ∃ n, fromHex 32 (kernelWord word) = some n ∧ lowFirst n = octets word := by
  rw [octets_eq]
  have first_lt : word % 256 < 256 := Nat.mod_lt _ (by omega)
  have second_lt : word / 256 % 256 < 256 := Nat.mod_lt _ (by omega)
  have third_lt : word / 65536 % 256 < 256 := Nat.mod_lt _ (by omega)
  have last_lt : word / 16777216 % 256 < 256 := Nat.mod_lt _ (by omega)
  have bytes : kernelWord word = kernelByte (word % 256) ++ (kernelByte (word / 256 % 256) ++
      (kernelByte (word / 65536 % 256) ++ (kernelByte (word / 16777216 % 256) ++ []))) := by
    simp [kernelWord, lowFirst]
  generalize word % 256 = b0 at *
  generalize word / 256 % 256 = b1 at *
  generalize word / 65536 % 256 = b2 at *
  generalize word / 16777216 % 256 = b3 at *
  refine ⟨((b0 * 256 + b1) * 256 + b2) * 256 + b3, ?_, ?_⟩
  · rw [bytes, fromHex_kernelByte first_lt, readHex_kernelByte second_lt,
      readHex_kernelByte third_lt, readHex_kernelByte last_lt]
    simp only [readHex, Option.filter_some, decide_eq_true_eq]
    rw [if_pos (by omega)]
  · simp only [lowFirst, List.cons.injEq, and_true]
    omega

theorem size_kernelByte {byte : Nat} (small : byte < 256) :
    ∀ c ∈ kernelByte byte, c.utf8Size = 1 := by
  have digit : ∀ d : Fin 16, (kernelDigit d.val).utf8Size = 1 := by decide
  have high : byte / 16 < 16 := by omega
  have low : byte % 16 < 16 := Nat.mod_lt _ (by omega)
  simpa [kernelByte] using ⟨digit ⟨_, high⟩, digit ⟨_, low⟩⟩

theorem size_of_ascii {cs : List Char} (ascii : ∀ c ∈ cs, c.utf8Size = 1) :
    (String.ofList cs).utf8ByteSize = cs.length := by
  rw [String.utf8ByteSize_ofList]
  induction cs with
  | nil => rfl
  | cons c cs ih =>
    rw [String.utf8Len, ascii c (List.mem_cons_self ..),
      ih fun d member => ascii d (List.mem_cons_of_mem c member)]
    rfl

theorem size_kernelWord (word : Nat) : ∀ c ∈ kernelWord word, c.utf8Size = 1 := by
  intro c member
  obtain ⟨byte, in_word, digit⟩ := List.mem_flatMap.mp member
  have small : byte < 256 := by
    simp only [lowFirst, List.mem_cons, List.not_mem_nil, or_false] at in_word
    obtain rfl | rfl | rfl | rfl := in_word
    all_goals exact Nat.mod_lt _ (by omega)
  exact size_kernelByte small c digit

theorem parseHexIpv4_kernelWord (address : Nat) :
    parseHexIpv4 (String.ofList (kernelWord address)) = some (String.ofList (ipv4Text address)) := by
  obtain ⟨n, read, bytes⟩ := fromHex_word address
  have size : (String.ofList (kernelWord address)).utf8ByteSize = 8 :=
    size_of_ascii (size_kernelWord address)
  rw [parseHexIpv4, if_neg (by rw [size]; decide), String.toList_ofList, read]
  simp [bytes, ipv4Text]

theorem groupText_kernelWord (word : Nat) : groupText (kernelWord word) =
    some (hexByte (word / 16777216 % 256) ++ hexByte (word / 65536 % 256) ++ [':'] ++
      hexByte (word / 256 % 256) ++ hexByte (word % 256)) := by
  have byte0 : (kernelWord word).take 2 = kernelByte (word % 256) := rfl
  have byte1 : ((kernelWord word).drop 2).take 2 = kernelByte (word / 256 % 256) := rfl
  have byte2 : ((kernelWord word).drop 4).take 2 = kernelByte (word / 65536 % 256) := rfl
  have byte3 : ((kernelWord word).drop 6).take 2 = kernelByte (word / 16777216 % 256) := rfl
  have small (n : Nat) : n % 256 < 256 := Nat.mod_lt _ (by omega)
  simp [groupText, byte0, byte1, byte2, byte3, fromHex_byte (small _)]

/- Two groups of a word, each in four digits. -/
def wordText (word : Nat) : List Char := hexGroup (word / 65536) ++ ':' :: hexGroup (word % 65536)

theorem groupText_wordText {word : Nat} (small : word < 4294967296) :
    groupText (kernelWord word) = some (wordText word) := by
  have first : word / 65536 / 256 = word / 16777216 % 256 := by omega
  have second : word / 65536 % 256 = word / 65536 % 256 := rfl
  have third : word % 65536 / 256 = word / 256 % 256 := by omega
  have last : word % 65536 % 256 = word % 256 := by omega
  rw [groupText_kernelWord, wordText, hexGroup, hexGroup, first, third, last]
  simp

theorem addressWords_eq (address : Nat) : addressWords address =
    [address / 4294967296 ^ 3 % 4294967296, address / 4294967296 ^ 2 % 4294967296,
      address / 4294967296 ^ 1 % 4294967296, address / 4294967296 ^ 0 % 4294967296] := rfl

theorem segments_eq (address : Nat) : segments address =
    (addressWords address).flatMap fun word => [word / 65536, word % 65536] := by
  have high (k : Nat) : address / 4294967296 ^ k % 4294967296 / 65536 =
      address / 65536 ^ (2 * k + 1) % 65536 := by
    have power : 65536 ^ (2 * k + 1) = 4294967296 ^ k * 65536 := by
      rw [Nat.pow_succ, Nat.pow_mul]
    rw [power, ← Nat.div_div_eq_div_mul]
    omega
  have low (k : Nat) : address / 4294967296 ^ k % 4294967296 % 65536 =
      address / 65536 ^ (2 * k) % 65536 := by
    have power : 65536 ^ (2 * k) = 4294967296 ^ k := by rw [Nat.pow_mul]
    rw [power]
    omega
  simp only [addressWords_eq, List.flatMap_cons, List.flatMap_nil, List.append_nil, high, low]
  rfl

theorem fullText_eq (address : Nat) :
    fullText address = [':'].intercalate ((addressWords address).map wordText) := by
  rw [fullText, segments_eq, addressWords_eq]
  simp [List.intercalate, wordText]

theorem parseHexIpv6_kernelIpv6 (address : Nat) :
    parseHexIpv6 (String.ofList (kernelIpv6 address)) = some (String.ofList (fullText address)) := by
  have ascii : ∀ c ∈ kernelIpv6 address, c.utf8Size = 1 := by
    intro c member
    obtain ⟨word, _, in_word⟩ := List.mem_flatMap.mp member
    exact size_kernelWord word c in_word
  have size : (String.ofList (kernelIpv6 address)).utf8ByteSize = 32 := size_of_ascii ascii
  have groups : ((List.range 4).mapM fun i =>
      groupText (((kernelIpv6 address).drop (8 * i)).take 8)) =
        some ((addressWords address).map wordText) := by
    have small (k : Nat) : address / 4294967296 ^ k % 4294967296 < 4294967296 :=
      Nat.mod_lt _ (by omega)
    have word0 : ((kernelIpv6 address).drop (8 * 0)).take 8 =
      kernelWord (address / 4294967296 ^ 3 % 4294967296) := rfl
    have word1 : ((kernelIpv6 address).drop (8 * 1)).take 8 =
      kernelWord (address / 4294967296 ^ 2 % 4294967296) := rfl
    have word2 : ((kernelIpv6 address).drop (8 * 2)).take 8 =
      kernelWord (address / 4294967296 ^ 1 % 4294967296) := rfl
    have word3 : ((kernelIpv6 address).drop (8 * 3)).take 8 =
      kernelWord (address / 4294967296 ^ 0 % 4294967296) := rfl
    have four : List.range 4 = [0, 1, 2, 3] := rfl
    simp only [four, List.mapM_cons, List.mapM_nil, word0, word1, word2, word3,
      groupText_wordText (small _), addressWords_eq]
    rfl
  rw [parseHexIpv6, if_neg (by rw [size]; decide), String.toList_ofList, groups, fullText_eq]
  rfl

theorem mark_notMem_kernelByte {mark : Char} (no_digit : hexValue mark = none) {byte : Nat}
    (small : byte < 256) : mark ∉ kernelByte byte := by
  have high := kernelDigit_ne no_digit (by omega : byte / 16 < 16)
  have low := kernelDigit_ne no_digit (Nat.mod_lt byte (by omega) : byte % 16 < 16)
  simpa [kernelByte] using ⟨high.symm, low.symm⟩

theorem mark_notMem_kernelWord {mark : Char} (no_digit : hexValue mark = none) (word : Nat) :
    mark ∉ kernelWord word := by
  have small (n : Nat) : n % 256 < 256 := Nat.mod_lt _ (by omega)
  simp [kernelWord, lowFirst, mark_notMem_kernelByte no_digit (small _)]

theorem mark_notMem_kernelText {mark : Char} (no_digit : hexValue mark = none) (ends : Ends)
    (address : Nat) : mark ∉ ends.kernelText address := by
  cases ends with
  | ipv4 here there => exact mark_notMem_kernelWord no_digit address
  | ipv6 here there =>
    intro member
    obtain ⟨word, _, in_word⟩ := List.mem_flatMap.mp member
    exact mark_notMem_kernelWord no_digit word in_word

theorem parseHexAddress_kernelText (ends : Ends) (address : Nat) {port : Nat}
    (small : port < 65536) :
    parseHexAddress (String.ofList (ends.kernelText address ++ ':' :: kernelPort port))
      ends.protocol = some (String.ofList (ends.written address), port) := by
  have clear : ':' ∉ kernelPort port := by
    rw [kernelPort, List.mem_append, not_or]
    exact ⟨mark_notMem_kernelByte (by decide) (by omega),
      mark_notMem_kernelByte (by decide) (Nat.mod_lt _ (by omega))⟩
  have parts : split ':' (String.ofList (ends.kernelText address ++ ':' :: kernelPort port)) =
      [String.ofList (ends.kernelText address), String.ofList (kernelPort port)] := by
    rw [split, String.toList_ofList, List.splitOn_append_cons_self_of_not_mem
      (mark_notMem_kernelText (by decide) ends address), List.splitOn_eq_singleton clear]
    rfl
  unfold parseHexAddress
  rw [parts]
  cases ends with
  | ipv4 here there =>
    simp [Ends.protocol, Ends.written, Ends.kernelText, parseHexIpv4_kernelWord, fromHex_port small]
  | ipv6 here there =>
    simp [Ends.protocol, Ends.written, Ends.kernelText, parseHexIpv6_kernelIpv6, fromHex_port small]

theorem trim_kernelByte {byte : Nat} (small : byte < 256) :
    trim (String.ofList (kernelByte byte)) = String.ofList (kernelByte byte) := by
  have printed : ∀ d : Fin 16, isWhitespace (kernelDigit d.val) = false := by decide
  have high := printed ⟨byte / 16, by omega⟩
  have low := printed ⟨byte % 16, Nat.mod_lt _ (by omega)⟩
  simp [trim, kernelByte, high, low]

theorem parseTcpState_established (state : Fin 256) :
    parseTcpState (String.ofList (kernelByte state.val)) = .established ↔
      state.val = established := by
  rw [parseTcpState, trim_kernelByte state.isLt, String.toList_ofList, fromHex_byte state.isLt,
    Option.getD_some]
  revert state
  decide +kernel

/- What is read of a line. -/
theorem parse_line {line : String} {socket : Socket} (is_line : LineOf line socket)
    (inodes : Map Nat Holder) :
    ∃ conn, parseProcNetLine line socket.ends.protocol inodes = some conn ∧
      (conn.state = .established ↔ socket.state.val = established) ∧
      conn.remoteAddress =
        if String.ofList (socket.ends.written socket.ends.there) = "0.0.0.0" ∨
          String.ofList (socket.ends.written socket.ends.there) = "::" then none
        else some (String.ofList (socket.ends.written socket.ends.there)) := by
  have inode : parseUnsigned 64 socket.inode.val.repr = some socket.inode.val :=
    parseUnsigned_repr socket.inode.isLt
  have enough : ¬ (words line).length < 10 := Nat.not_lt.mpr is_line.enough
  have here := parseHexAddress_kernelText socket.ends socket.ends.here socket.localPort.isLt
  have there := parseHexAddress_kernelText socket.ends socket.ends.there socket.remotePort.isLt
  unfold parseProcNetLine
  simp only [if_neg enough, is_line.here, is_line.there, is_line.state, is_line.inode,
    Option.bind_eq_bind, Option.bind_some, Option.map_some, here, there, inode,
    Option.some.injEq, exists_eq_left']
  exact ⟨parseTcpState_established socket.state, trivial⟩

end Reading

end SentinelAgent.Network
