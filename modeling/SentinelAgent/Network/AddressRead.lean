import SentinelAgent.Network.AddressTexts

/-!
What the parser of addresses reads of numbers, and of addresses written as they are displayed.
-/
namespace SentinelAgent.Network
open Isolation Response

/-! Numbers. -/

section Numbers
variable {radix : Nat} (small : radix ≤ 16) (large : 1 < radix)
include small

theorem digitOf_digitChar {digit : Nat} (less : digit < radix) :
    digitOf radix digit.digitChar = some digit := by
  rw [digitOf, hexValue_digitChar (by omega)]
  simp [less]

include large

theorem digitOf_digits (n : Nat) : ∀ c ∈ Nat.toDigits radix n, (digitOf radix c).isSome = true := by
  induction n using Nat.strongRecOn with
  | ind n ih =>
    intro c member
    by_cases one : n < radix
    · rw [Nat.toDigits_of_lt_base one, List.mem_singleton] at member
      rw [member, digitOf_digitChar small one]
      rfl
    · rw [Nat.toDigits_of_base_le large (by omega), List.mem_append, List.mem_singleton] at member
      rcases member with before | rfl
      · exact ih _ (Nat.div_lt_self (by omega) large) c before
      · rw [digitOf_digitChar small (Nat.mod_lt _ (by omega))]
        rfl

/- The value of digits is what they were written for. -/
theorem digits_value (n : Nat) : ((Nat.toDigits radix n).filterMap (digitOf radix)).foldl
    (fun value digit => value * radix + digit) 0 = n := by
  induction n using Nat.strongRecOn with
  | ind n ih =>
    by_cases one : n < radix
    · rw [Nat.toDigits_of_lt_base one]
      simp [digitOf_digitChar small one]
    · have last : n % radix < radix := Nat.mod_lt _ (by omega)
      rw [Nat.toDigits_of_base_le large (by omega), List.filterMap_append, List.foldl_append,
        ih _ (Nat.div_lt_self (by omega) large)]
      simp only [List.filterMap_cons, List.filterMap_nil, digitOf_digitChar small last,
        List.foldl_cons, List.foldl_nil]
      exact Nat.div_add_mod' n radix

theorem head_digits {n : Nat} (nonzero : n ≠ 0) : (Nat.toDigits radix n).head? ≠ some '0' := by
  induction n using Nat.strongRecOn with
  | ind n ih =>
    by_cases one : n < radix
    · rw [Nat.toDigits_of_lt_base one]
      intro zero
      have only : ∀ d : Fin 16, d.val.digitChar = '0' → d.val = 0 := by decide
      exact nonzero (only ⟨n, by omega⟩ (Option.some.inj zero))
    · have above : n / radix ≠ 0 := (Nat.div_pos (by omega) (by omega)).ne'
      rw [Nat.toDigits_of_base_le large (by omega), List.head?_append_of_ne_nil _ Nat.toDigits_ne_nil]
      exact ih _ (Nat.div_lt_self (by omega) large) above

theorem readNumber_digits {maxDigits limit n : Nat} {rest : List Char} (fits : n < limit)
    (short : n < radix ^ maxDigits) (some_digit : 0 < maxDigits)
    (stops : ∀ c ∈ rest.head?, digitOf radix c = none) (zeros : Bool) :
    readNumber radix maxDigits limit zeros (Nat.toDigits radix n ++ rest) = some (n, rest) := by
  have taken : (Nat.toDigits radix n ++ rest).takeWhile (fun c => (digitOf radix c).isSome) =
      Nat.toDigits radix n := by
    rw [List.takeWhile_append_of_pos (digitOf_digits small large n)]
    cases rest with
    | nil => simp
    | cons c rest => simp [stops c rfl]
  have no_zero : ((Nat.toDigits radix n).head? == some '0' &&
      decide (1 < (Nat.toDigits radix n).length)) = false := by
    by_cases zero : n = 0
    · subst zero
      rw [Nat.toDigits_zero]
      rfl
    · rw [Bool.and_eq_false_iff]
      exact Or.inl (by simpa using head_digits small large zero)
  have length := (Nat.length_toDigits_le_iff (n := n) large some_digit).mpr short
  simp only [readNumber, taken, digits_value small large, no_zero]
  rw [if_neg]
  · simp
  · simp only [Nat.toDigits_ne_nil, false_or, not_or, Bool.false_eq_true, false_and,
      not_false_eq_true, and_true]
    exact ⟨by omega, by omega⟩

omit small large in
theorem readNumber_none {maxDigits limit : Nat} {text : List Char}
    (stops : ∀ c ∈ text.head?, digitOf radix c = none) (zeros : Bool) :
    readNumber radix maxDigits limit zeros text = none := by
  have nothing : text.takeWhile (fun c => (digitOf radix c).isSome) = [] := by
    cases text with
    | nil => rfl
    | cons c text => simp [stops c rfl]
  simp [readNumber, nothing]

end Numbers

/-! IPv4 addresses. -/

section Octets
variable {rest : List Char}

/- An octet, and what stands after it. -/
theorem readOctets_digits {left octet value : Nat} (fits : octet < 256)
    (stops : ∀ c ∈ rest.head?, digitOf 10 c = none) :
    readOctets (left + 1) true value (Nat.toDigits 10 octet ++ rest) =
        readOctets left false (value * 256 + octet) rest ∧
      readOctets (left + 1) false value ('.' :: (Nat.toDigits 10 octet ++ rest)) =
        readOctets left false (value * 256 + octet) rest := by
  have number := @readNumber_digits 10 (by omega) (by omega) 3 256 octet rest fits (by omega)
    (by omega) stops false
  constructor
  · simp [readOctets, readSeparator, number]
  · simp [readOctets, readSeparator, readGivenChar, number]

theorem ipv4Text_eq (address : Nat) : ipv4Text address =
    Nat.toDigits 10 (address / 256 ^ 3 % 256) ++ '.' :: (Nat.toDigits 10 (address / 256 ^ 2 % 256) ++
      '.' :: (Nat.toDigits 10 (address / 256 % 256) ++ '.' :: Nat.toDigits 10 (address % 256))) := by
  simp [ipv4Text, octets, List.range, List.range.loop, Nat.toList_repr, List.intercalate]

theorem readIpv4Addr_text {address : Nat} (fits : address < 2 ^ 32)
    (stops : ∀ c ∈ rest.head?, digitOf 10 c = none) :
    readIpv4Addr (ipv4Text address ++ rest) = some (address, rest) := by
  have dot (more : List Char) : ∀ c ∈ ('.' :: more).head?, digitOf 10 c = none := by
    intro c first
    obtain rfl := Option.some.inj first
    decide
  rw [ipv4Text_eq, readIpv4Addr]
  simp only [List.append_assoc, List.cons_append]
  rw [(readOctets_digits (by omega) (dot _)).1, (readOctets_digits (by omega) (dot _)).2,
    (readOctets_digits (by omega) (dot _)).2, (readOctets_digits (by omega) stops).2, readOctets]
  congr 2
  omega

/- No address is read where the digits are not followed by a dot. -/
theorem readIpv4Addr_none {text : List Char}
    (no_dot : (text.dropWhile fun c => (digitOf 10 c).isSome).head? ≠ some '.') :
    readIpv4Addr text = none := by
  rw [readIpv4Addr, readOctets]
  simp only [readSeparator, if_true, Option.bind_eq_bind, Option.bind_some]
  cases number : readNumber 10 3 256 false text with
  | none => rfl
  | some read =>
    obtain ⟨octet, after⟩ := read
    have parts := List.takeWhile_append_dropWhile (p := fun c => (digitOf 10 c).isSome) (l := text)
    have after_eq : after = text.dropWhile fun c => (digitOf 10 c).isSome := by
      rw [readNumber] at number
      split_ifs at number
      obtain ⟨_, rfl⟩ := Prod.mk.inj (Option.some.inj number)
      exact (congrArg (List.drop _) parts.symm).trans List.drop_left
    rw [Option.bind_some, readOctets, after_eq]
    cases next : text.dropWhile fun c => (digitOf 10 c).isSome with
    | nil => rfl
    | cons c more =>
      rw [next] at no_dot
      have other : c ≠ '.' := fun same => no_dot (by rw [same]; rfl)
      simp [readSeparator, readGivenChar, other]

end Octets

/-! Groups of an IPv6 address. -/

/- After a group stands a colon, or nothing. -/
def Ended (rest : List Char) : Prop := ∀ c ∈ rest.head?, c = ':'

section Groups
variable {rest : List Char} {group : Nat}

theorem ended_cons (rest : List Char) : Ended (':' :: rest) := by
  intro c first
  exact (Option.some.inj first).symm

theorem ended_nil : Ended [] := by
  intro c first
  cases first

theorem Ended.no_digit (ended : Ended rest) (radix : Nat) :
    ∀ c ∈ rest.head?, digitOf radix c = none := by
  intro c first
  rw [ended c first, digitOf]
  rfl

/- A group is not taken for the first octet of an IPv4 address. -/
theorem group_no_ipv4 (ended : Ended rest) (n : Nat) :
    readIpv4Addr (Nat.toDigits 16 n ++ rest) = none := by
  refine readIpv4Addr_none fun dot => ?_
  have mark : '.' ∉ Nat.toDigits 16 n := mark_notMem_digits (by decide) (by omega) (by omega) n
  rw [List.dropWhile_append] at dot
  split_ifs at dot with all_digits
  · cases rest with
    | nil => cases dot
    | cons c rest =>
      obtain rfl := ended c rfl
      cases dot
  · cases left : (Nat.toDigits 16 n).dropWhile fun c => (digitOf 10 c).isSome with
    | nil => exact all_digits (by rw [left]; rfl)
    | cons c more =>
      rw [left, List.cons_append] at dot
      obtain rfl := Option.some.inj dot
      refine mark ((List.dropWhile_suffix fun c => (digitOf 10 c).isSome).subset ?_)
      rw [left]
      exact List.mem_cons_self

theorem no_ipv4_at_colon (rest : List Char) : readIpv4Addr (':' :: rest) = none := by
  refine readIpv4Addr_none ?_
  rw [List.dropWhile_cons_of_neg (by decide), List.head?_cons]
  decide

theorem no_ipv4_at_end : readIpv4Addr [] = none := by decide

/- One group, and what stands after it. -/
theorem readGroups_digits (left : Nat) (fits : group < 65536) (ended : Ended rest) :
    readGroups (left + 1) true (Nat.toDigits 16 group ++ rest) =
        (group :: (readGroups left false rest).1, (readGroups left false rest).2) ∧
      readGroups (left + 1) false (':' :: (Nat.toDigits 16 group ++ rest)) =
        (group :: (readGroups left false rest).1, (readGroups left false rest).2) := by
  have number := @readNumber_digits 16 (by omega) (by omega) 4 65536 group rest fits (by omega)
    (by omega) (ended.no_digit 16) true
  have no_ipv4 := group_no_ipv4 ended group
  constructor
  · simp [readGroups, readSeparator, number, no_ipv4]
  · simp [readGroups, readSeparator, readGivenChar, number, no_ipv4]

/- Groups end where no separator is followed by another one. -/
theorem readGroups_nothing (left : Nat) : readGroups left false [] = ([], false, []) := by
  cases left with
  | zero => rfl
  | succ left => simp [readGroups, readSeparator, readGivenChar]

theorem readGroups_doubled (left : Nat) (rest : List Char) :
    readGroups left false (':' :: ':' :: rest) = ([], false, ':' :: ':' :: rest) := by
  have number : readNumber 16 4 65536 true (':' :: rest) = none :=
    readNumber_none ((ended_cons rest).no_digit 16) true
  cases left with
  | zero => rfl
  | succ left =>
    simp [readGroups, readSeparator, readGivenChar, no_ipv4_at_colon, number]

theorem readGroups_no_group (left : Nat) (ended : Ended rest) :
    readGroups left true rest = ([], false, rest) := by
  have number : readNumber 16 4 65536 true rest = none :=
    readNumber_none (ended.no_digit 16) true
  have no_ipv4 : readIpv4Addr rest = none := by
    cases rest with
    | nil => exact no_ipv4_at_end
    | cons c rest =>
      obtain rfl := ended c rfl
      exact no_ipv4_at_colon rest
  cases left with
  | zero => rfl
  | succ left => simp [readGroups, readSeparator, number, no_ipv4]

theorem groupsText_cons (group next : Nat) (groups : List Nat) :
    groupsText (group :: next :: groups) =
      Nat.toDigits 16 group ++ ':' :: groupsText (next :: groups) := by
  simp [groupsText, List.intercalate]

/- Groups one after another: what is read of the rest is added to them. -/
theorem readGroups_more {groups : List Nat} {left : Nat} (fits : ∀ group ∈ groups, group < 65536)
    (some_group : groups ≠ []) (room : groups.length ≤ left) (ended : Ended rest) :
    let more := readGroups (left - groups.length) false rest
    readGroups left true (groupsText groups ++ rest) = (groups ++ more.1, more.2) ∧
      readGroups left false (':' :: (groupsText groups ++ rest)) = (groups ++ more.1, more.2) := by
  intro more
  induction groups generalizing left with
  | nil => exact absurd rfl some_group
  | cons group groups ih =>
    obtain ⟨left, rfl⟩ : ∃ fewer, left = fewer + 1 := ⟨left - 1, by
      rw [List.length_cons] at room
      omega⟩
    have small := fits group List.mem_cons_self
    have fewer : left + 1 - (group :: groups).length = left - groups.length := by
      rw [List.length_cons]
      omega
    cases groups with
    | nil =>
      have one : groupsText [group] = Nat.toDigits 16 group := by simp [groupsText]
      have here := readGroups_digits left small ended
      simp only [one, here, more, fewer, List.length_nil, Nat.sub_zero, List.singleton_append,
        and_self]
    | cons next groups =>
      have rest_fits := fun g member => fits g (List.mem_cons_of_mem group member)
      have rest_room : (next :: groups).length ≤ left := by
        rw [List.length_cons] at room
        omega
      have rest_read := (ih rest_fits (by simp) rest_room).2
      have here := readGroups_digits left small (ended_cons (groupsText (next :: groups) ++ rest))
      simp only [groupsText_cons, List.append_assoc, List.cons_append, here, rest_read, more, fewer,
        and_self]

end Groups
end SentinelAgent.Network
