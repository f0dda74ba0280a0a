import SentinelAgent.Library.Maps
import SentinelAgent.Library.Text
import SentinelAgent.Network.Connection

/- Connections of a Linux host, as they are read from the lines of `/proc/net`. -/
namespace SentinelAgent.Network
open Maps Response Text

def readHex : Nat → List Char → Option Nat
  | value, [] => some value
  | value, c :: cs => (hexValue c).bind fun digit => readHex (value * 16 + digit) cs

def withoutPlus : List Char → List Char
  | [] => []
  | c :: cs => if c = '+' then cs else c :: cs

/- An unsigned number of so many bits: an optional plus sign, then digits. -/
def fromHex (bits : Nat) (text : List Char) : Option Nat :=
  if withoutPlus text = [] then none
  else (readHex 0 (withoutPlus text)).filter fun n => decide (n < 2 ^ bits)

/- The four bytes of a number, the lowest first. -/
def lowFirst (n : Nat) : List Nat := [n % 256, n / 256 % 256, n / 65536 % 256, n / 16777216 % 256]

def parseHexIpv4 (hex : String) : Option String :=
  if hex.utf8ByteSize ≠ 8 then none
  else (fromHex 32 hex.toList).map fun n =>
    String.ofList (['.'].intercalate ((lowFirst n).map fun byte => byte.repr.toList))

/- A byte in two digits. -/
def hexByte (byte : Nat) : List Char := (Nat.toDigits 16 byte).leftpad 2 '0'

/- One of the four groups: its bytes are written the last first. -/
def groupText (group : List Char) : Option (List Char) := do
  let byte0 ← fromHex 8 (group.take 2)
  let byte1 ← fromHex 8 ((group.drop 2).take 2)
  let byte2 ← fromHex 8 ((group.drop 4).take 2)
  let byte3 ← fromHex 8 ((group.drop 6).take 2)
  some (hexByte byte3 ++ hexByte byte2 ++ [':'] ++ hexByte byte1 ++ hexByte byte0)

/- A text with other characters than ASCII is no such address; it is not cut inside one here. -/
def parseHexIpv6 (hex : String) : Option String :=
  if hex.utf8ByteSize ≠ 32 then none
  else
    ((List.range 4).mapM fun i => groupText ((hex.toList.drop (8 * i)).take 8)).map fun segments =>
      String.ofList ([':'].intercalate segments)

def parseHexAddress (text : String) (protocol : ConnectionProtocol) : Option (String × Nat) :=
  match split ':' text with
  | [address, port] => do
    let port ← fromHex 16 port.toList
    let address ← match protocol with
      | .tcp | .udp => parseHexIpv4 address
      | .tcp6 | .udp6 => parseHexIpv6 address
    some (address, port)
  | _ => none

def parseTcpState (text : String) : ConnectionState :=
  match (fromHex 8 (trim text).toList).getD 0 with
  | 1 => .established
  | 2 => .synSent
  | 3 => .synReceived
  | 4 => .finWait1
  | 5 => .finWait2
  | 6 => .timeWait
  | 7 => .closed
  | 8 => .closeWait
  | 9 => .lastAck
  | 10 => .listen
  | 11 => .closing
  | _ => .unknown

/- The process that holds a socket, by the inode of the socket. -/
structure Holder where
  pid : Nat
  name : String
  path : Option String

def parseProcNetLine (line : String) (protocol : ConnectionProtocol) (inodes : Map Nat Holder) :
    Option NetworkConnection := do
  let parts := words line
  if parts.length < 10 then none
  else
    let (localAddress, localPort) ← (parts[1]?).bind fun text => parseHexAddress text protocol
    let (remoteAddress, remotePort) ← (parts[2]?).bind fun text => parseHexAddress text protocol
    let state ← (parts[3]?).map parseTcpState
    let inode ← (parts[9]?).bind (parseUnsigned 64)
    let holder := inodes.lookup inode
    some {
      protocol, localAddress, localPort, state
      remoteAddress :=
        if remoteAddress = "0.0.0.0" ∨ remoteAddress = "::" then none else some remoteAddress
      remotePort := if remotePort = 0 then none else some remotePort
      pid := holder.map Holder.pid
      processName := holder.map Holder.name
      processPath := holder.bind Holder.path }

/-!
An IPv6 address as the collector writes it, with eight groups of four digits each, and as it is
displayed: the two are the same text only when no digit of a group is left out.
-/

/- A group in four digits. -/
def hexGroup (group : Nat) : List Char := hexByte (group / 256) ++ hexByte (group % 256)

def fullText (address : Nat) : List Char := [':'].intercalate ((segments address).map hexGroup)

theorem readHex_append (value : Nat) (first rest : List Char) :
    readHex value (first ++ rest) = (readHex value first).bind fun value => readHex value rest := by
  induction first generalizing value with
  | nil => rfl
  | cons c cs ih =>
    simp only [List.cons_append, readHex, ih]
    cases hexValue c with
    | none => rfl
    | some digit => rfl

theorem hexValue_digitChar {digit : Nat} (small : digit < 16) :
    hexValue digit.digitChar = some digit := by
  have all : ∀ d : Fin 16, hexValue d.val.digitChar = some d.val := by decide
  exact all ⟨digit, small⟩

theorem readHex_toDigits (n : Nat) : readHex 0 (Nat.toDigits 16 n) = some n := by
  induction n using Nat.strongRecOn with
  | ind n ih =>
    by_cases small : n < 16
    · rw [Nat.toDigits_of_lt_base small]
      simp [readHex, hexValue_digitChar small]
    · rw [Nat.toDigits_of_base_le (by omega) (by omega), readHex_append, ih (n / 16) (by omega)]
      have last : n % 16 < 16 := Nat.mod_lt _ (by omega)
      simp only [Option.bind_some, readHex, hexValue_digitChar last, Option.some.injEq]
      omega

theorem hexByte_eq {byte : Nat} (small : byte < 256) :
    hexByte byte = [(byte / 16).digitChar, (byte % 16).digitChar] := by
  have all : ∀ b : Fin 256, hexByte b.val = [(b.val / 16).digitChar, (b.val % 16).digitChar] := by
    decide +kernel
  exact all ⟨byte, small⟩

section Group
variable {group : Nat}

theorem hexGroup_eq (small : group < 65536) :
    hexGroup group = [(group / 256 / 16).digitChar, (group / 256 % 16).digitChar,
      (group % 256 / 16).digitChar, (group % 256 % 16).digitChar] := by
  rw [hexGroup, hexByte_eq (by omega), hexByte_eq (by omega)]
  rfl

theorem readHex_hexGroup (small : group < 65536) : readHex 0 (hexGroup group) = some group := by
  rw [hexGroup_eq small]
  have high : group / 256 / 16 < 16 := by omega
  have next : group / 256 % 16 < 16 := by omega
  have third : group % 256 / 16 < 16 := by omega
  have last : group % 256 % 16 < 16 := by omega
  simp only [readHex, hexValue_digitChar, high, next, third, last, Option.bind_some,
    Option.some.injEq]
  omega

/- Four digits are the digits of the number when it has four. -/
theorem hexGroup_eq_toDigits (small : group < 65536) {other : Nat} :
    hexGroup group = Nat.toDigits 16 other ↔ group = other ∧ 4096 ≤ group := by
  constructor
  · intro same
    have values := readHex_hexGroup small
    rw [same, readHex_toDigits] at values
    cases values
    refine ⟨rfl, ?_⟩
    by_contra short
    have few := (Nat.length_toDigits_le_iff (n := group) (k := 3) (by omega) (by omega)).mpr
      (by omega : group < 16 ^ 3)
    rw [← same, hexGroup_eq small] at few
    simp at few
  · rintro ⟨rfl, long⟩
    rw [hexGroup_eq small, Nat.toDigits_of_base_le (by omega) (by omega),
      Nat.toDigits_of_base_le (by omega) (by omega), Nat.toDigits_of_base_le (by omega) (by omega),
      Nat.toDigits_of_lt_base (by omega)]
    have second : group / 16 / 16 % 16 = group / 256 % 16 := by omega
    have first : group / 16 / 16 / 16 = group / 256 / 16 := by omega
    have third : group / 16 % 16 = group % 256 / 16 := by omega
    have last : group % 16 = group % 256 % 16 := by omega
    rw [first, second, third, last]
    rfl

theorem colon_notMem_hexGroup (small : group < 65536) : ':' ∉ hexGroup group := by
  have digit : ∀ d : Fin 16, ':' ≠ d.val.digitChar := by decide
  rw [hexGroup_eq small]
  simp only [List.mem_cons, List.not_mem_nil, or_false, not_or]
  exact ⟨digit ⟨_, by omega⟩, digit ⟨_, by omega⟩, digit ⟨_, by omega⟩, digit ⟨_, by omega⟩⟩

end Group

theorem mark_notMem_digits {mark : Char} (no_digit : ∀ digit < 16, digit.digitChar ≠ mark)
    {base : Nat} (small : base ≤ 16) (large : 1 < base) (n : Nat) : mark ∉ Nat.toDigits base n := by
  induction n using Nat.strongRecOn with
  | ind n ih =>
    by_cases one : n < base
    · rw [Nat.toDigits_of_lt_base one, List.mem_singleton]
      exact (no_digit n (by omega)).symm
    · rw [Nat.toDigits_of_base_le large (by omega), List.mem_append, List.mem_singleton, not_or]
      have less : n / base < n := Nat.div_lt_self (by omega) large
      have last : n % base < 16 := (Nat.mod_lt n (by omega)).trans_le small
      exact ⟨ih _ less, (no_digit _ last).symm⟩

theorem colon_notMem_digits (n : Nat) : ':' ∉ Nat.toDigits 16 n :=
  mark_notMem_digits (by decide) (by omega) (by omega) n

theorem segments_lt {address group : Nat} (member : group ∈ segments address) : group < 65536 := by
  obtain ⟨i, _, rfl⟩ := List.mem_map.mp member
  exact Nat.mod_lt _ (by omega)

theorem length_segments (address : Nat) : (segments address).length = 8 := by simp [segments]

theorem segments_injective {a b : Nat} (a_small : a < 65536 ^ 8) (b_small : b < 65536 ^ 8)
    (same : segments a = segments b) : a = b := by
  have digit : ∀ i ∈ List.range 8, a / 65536 ^ (7 - i) % 65536 = b / 65536 ^ (7 - i) % 65536 :=
    List.map_inj_left.mp same
  have above : ∀ left ≤ 8, a / 65536 ^ (8 - left) = b / 65536 ^ (8 - left) := by
    intro left
    induction left with
    | zero =>
      intro _
      rw [Nat.div_eq_of_lt a_small, Nat.div_eq_of_lt b_small]
    | succ left ih =>
      intro bound
      have next := ih (by omega)
      have last := digit left (List.mem_range.mpr (by omega))
      rw [show 8 - left = (7 - left) + 1 by omega, Nat.pow_succ, ← Nat.div_div_eq_div_mul,
        ← Nat.div_div_eq_div_mul] at next
      rw [show 8 - (left + 1) = 7 - left by omega]
      generalize a / 65536 ^ (7 - left) = x at next last ⊢
      generalize b / 65536 ^ (7 - left) = y at next last ⊢
      omega
  simpa using above 8 (by omega)

theorem splitOn_fullText (address : Nat) :
    (fullText address).splitOn ':' = (segments address).map hexGroup := by
  refine List.splitOn_intercalate ':' ?_ ?_
  · intro piece member
    obtain ⟨group, in_address, rfl⟩ := List.mem_map.mp member
    exact colon_notMem_hexGroup (segments_lt in_address)
  · have groups := length_segments address
    intro none_left
    rw [List.map_eq_nil_iff.mp none_left] at groups
    cases groups

theorem splitOn_groupsText {groups : List Nat} (some_group : groups ≠ []) :
    (groupsText groups).splitOn ':' = groups.map (Nat.toDigits 16) := by
  refine List.splitOn_intercalate ':' ?_ (by simpa using some_group)
  intro piece member
  obtain ⟨group, _, rfl⟩ := List.mem_map.mp member
  exact colon_notMem_digits group

/- No piece of the text is empty, so it has no two colons in a row. -/
theorem fullText_ne_doubled (address : Nat) (before after : List Char) :
    fullText address ≠ before ++ [':', ':'] ++ after := by
  intro same
  have pieces := splitOn_fullText address
  rw [same, List.append_assoc, List.cons_append, List.splitOn_append_cons_self] at pieces
  have empty : ([] : List Char) ∈ (segments address).map hexGroup := by
    rw [← pieces]
    refine List.mem_append_right _ ?_
    rw [List.cons_append, List.splitOn_cons_eq_if_modifyHead]
    simp
  obtain ⟨group, member, none_there⟩ := List.mem_map.mp empty
  rw [hexGroup_eq (segments_lt member)] at none_there
  cases none_there

theorem longestZeros_of_ne_zero {groups : List Nat} (none_zero : ∀ group ∈ groups, group ≠ 0)
    (i : Nat) (longest current : Nat × Nat) : longestZeros i longest current groups = longest := by
  induction groups generalizing i current with
  | nil => rfl
  | cons group groups ih =>
    have here : group ≠ 0 := none_zero group (List.mem_cons_self ..)
    rw [longestZeros, if_neg here]
    exact ih (fun other member => none_zero other (List.mem_cons_of_mem group member)) _ _

theorem map_hexGroup_eq {groups others : List Nat} (small : ∀ group ∈ groups, group < 65536)
    (same : groups.map hexGroup = others.map (Nat.toDigits 16)) :
    groups = others ∧ ∀ group ∈ groups, 4096 ≤ group := by
  induction groups generalizing others with
  | nil => simpa using same.symm
  | cons group groups ih =>
    cases others with
    | nil => cases same
    | cons other others =>
      obtain ⟨first, rest⟩ := List.cons.inj same
      obtain ⟨rfl, long⟩ := (hexGroup_eq_toDigits (small group (List.mem_cons_self ..))).mp first
      obtain ⟨rfl, all_long⟩ :=
        ih (fun next member => small next (List.mem_cons_of_mem group member)) rest
      exact ⟨rfl, List.forall_mem_cons.mpr ⟨long, all_long⟩⟩

/- Every group has four digits, and none is left out. -/
def LongGroups (address : Nat) : Prop := ∀ group ∈ segments address, 4096 ≤ group

instance (address : Nat) : Decidable (LongGroups address) :=
  inferInstanceAs (Decidable (∀ group ∈ segments address, _))

theorem long_not_mapped {address : Nat} (long : LongGroups address) : address / 2 ^ 32 ≠ 0xffff := by
  intro mapped
  have first := long (address / 65536 ^ 7 % 65536)
    (List.mem_map.mpr ⟨0, List.mem_range.mpr (by omega), rfl⟩)
  omega

theorem ipv6Text_of_longGroups {address : Nat} (long : LongGroups address) :
    ipv6Text address = groupsText (segments address) := by
  have no_zeros : longestZeros 0 (0, 0) (0, 0) (segments address) = (0, 0) := by
    refine longestZeros_of_ne_zero (fun group member zero => ?_) _ _ _
    have large := long group member
    omega
  rw [ipv6Text, if_neg (long_not_mapped long)]
  simp [no_zeros]

theorem fullText_eq_ipv6Text {a b : Nat} (a_small : a < 65536 ^ 8) (b_small : b < 65536 ^ 8) :
    fullText a = ipv6Text b ↔ a = b ∧ LongGroups a := by
  have some_group (address : Nat) : segments address ≠ [] :=
    List.ne_nil_of_length_pos (by rw [length_segments]; omega)
  constructor
  · intro same
    have plain : ipv6Text b = groupsText (segments b) := by
      unfold ipv6Text at same ⊢
      split at same
      · exact absurd same (fullText_ne_doubled a [] _)
      · rename_i not_mapped
        dsimp only at same
        split at same
        · exact absurd same (fullText_ne_doubled a _ _)
        · rename_i no_run
          rw [if_neg not_mapped, if_neg no_run]
    have pieces := splitOn_fullText a
    rw [same, plain, splitOn_groupsText (some_group b)] at pieces
    obtain ⟨groups, long⟩ := map_hexGroup_eq (fun _ member => segments_lt member) pieces.symm
    exact ⟨segments_injective a_small b_small groups, long⟩
  · rintro ⟨rfl, long⟩
    rw [ipv6Text_of_longGroups long, fullText, groupsText]
    refine congrArg _ (List.map_congr_left fun group member => ?_)
    exact (hexGroup_eq_toDigits (segments_lt member)).mpr ⟨rfl, long group member⟩

end SentinelAgent.Network
