import Mathlib.Data.List.TakeWhile
import SentinelAgent.Network.AddressRead

/-!
An address is read back from the text it is displayed as, and what becomes of a colon and a number
after that text.
-/
namespace SentinelAgent.Network
open Isolation Response

/-! The zeros that are left out. -/

/- Where a run starts, and how many groups it has: they are all zero. -/
def ZeroRun (groups : List Nat) (run : Nat × Nat) : Prop :=
  ∀ i, run.1 ≤ i → i < run.1 + run.2 → groups[i]? = some 0

theorem longestZeros_zeroRun (groups : List Nat) (i : Nat) (longest current : Nat × Nat)
    (longest_run : ZeroRun groups longest) (current_run : ZeroRun groups current)
    (ends : current.2 = 0 ∨ current.1 + current.2 = i) :
    ZeroRun groups (longestZeros i longest current (groups.drop i)) := by
  induction hrest : groups.drop i generalizing i longest current with
  | nil => exact longest_run
  | cons group rest ih =>
    have here : groups[i]? = some group := by
      rw [← List.head?_drop, hrest]
      rfl
    have next : groups.drop (i + 1) = rest := by
      rw [← List.tail_drop, hrest]
      rfl
    by_cases zero : group = 0
    · obtain ⟨run, run_eq⟩ : ∃ run, run = if current.2 = 0 then (i, 1) else (current.1, current.2 + 1) :=
        ⟨_, rfl⟩
      have run_zero : ZeroRun groups run ∧ run.1 + run.2 = i + 1 := by
        rw [run_eq]
        split_ifs with first
        · refine ⟨fun j start stop => ?_, rfl⟩
          obtain rfl : j = i := by
            simp only at start stop
            omega
          rw [here, zero]
        · have up_to := ends.resolve_left first
          refine ⟨fun j start stop => ?_, by simp only; omega⟩
          simp only at start stop
          by_cases last : j = i
          · rw [last, here, zero]
          · exact current_run j start (by omega)
      rw [longestZeros, if_pos zero]
      simp only [← run_eq]
      refine ih (i + 1) _ run ?_ run_zero.1 (Or.inr run_zero.2) next
      split_ifs
      · exact run_zero.1
      · exact longest_run
    · rw [longestZeros, if_neg zero]
      exact ih (i + 1) longest (0, 0) longest_run (fun j _ stop => by simp at stop) (Or.inl rfl) next

theorem groupsValue_segments {address : Nat} (fits : address < 2 ^ 128) :
    groupsValue (segments address) = address := by
  simp only [segments, List.range, List.range.loop, List.map_cons, List.map_nil, groupsValue,
    List.foldl_cons, List.foldl_nil]
  omega

/- Where the run that is left out starts, and how long it is. -/
def leftOut (address : Nat) : Nat × Nat := longestZeros 0 (0, 0) (0, 0) (segments address)

theorem leftOut_zeros (address : Nat) : ZeroRun (segments address) (leftOut address) :=
  longestZeros_zeroRun (segments address) 0 (0, 0) (0, 0) (fun _ _ stop => by simp at stop)
    (fun _ _ stop => by simp at stop) (Or.inl rfl)

/- The run is within the eight groups. -/
theorem leftOut_le {address : Nat} (some_zeros : 0 < (leftOut address).2) :
    (leftOut address).1 + (leftOut address).2 ≤ 8 := by
  have last := leftOut_zeros address ((leftOut address).1 + (leftOut address).2 - 1) (by omega)
    (by omega)
  have inside := (List.getElem?_eq_some_iff.mp last).1
  rw [length_segments] at inside
  omega

/- The groups before the run and after it. -/
def groupsBefore (address : Nat) : List Nat := (segments address).take (leftOut address).1

def groupsAfter (address : Nat) : List Nat :=
  (segments address).drop ((leftOut address).1 + (leftOut address).2)

theorem length_groupsBefore {address : Nat} (some_zeros : 0 < (leftOut address).2) :
    (groupsBefore address).length = (leftOut address).1 := by
  have := leftOut_le some_zeros
  rw [groupsBefore, List.length_take, length_segments]
  omega

theorem length_groupsAfter (address : Nat) :
    (groupsAfter address).length = 8 - ((leftOut address).1 + (leftOut address).2) := by
  rw [groupsAfter, List.length_drop, length_segments]

theorem groups_restored {address : Nat} (some_zeros : 0 < (leftOut address).2) :
    groupsBefore address ++ List.replicate (8 - (groupsBefore address).length -
      (groupsAfter address).length) 0 ++ groupsAfter address = segments address := by
  have within := leftOut_le some_zeros
  have between : List.replicate (leftOut address).2 0 =
      ((segments address).drop (leftOut address).1).take (leftOut address).2 := by
    refine List.ext_getElem? fun i => ?_
    by_cases inside : i < (leftOut address).2
    · rw [List.getElem?_replicate, if_pos inside, List.getElem?_take, if_pos inside,
        List.getElem?_drop]
      exact (leftOut_zeros address _ (by omega) (by omega)).symm
    · rw [List.getElem?_replicate, if_neg inside, List.getElem?_take, if_neg inside]
  have count : 8 - (groupsBefore address).length - (groupsAfter address).length =
      (leftOut address).2 := by
    rw [length_groupsBefore some_zeros, length_groupsAfter]
    omega
  rw [count, between, groupsBefore, groupsAfter, ← List.drop_drop, List.append_assoc,
    List.take_append_drop, List.take_append_drop]

/-! What is read of a displayed address and what stands after it. -/

section Read
variable {rest : List Char}

theorem groups_no_ipv4 (ended : Ended rest) (groups : List Nat) :
    readIpv4Addr (groupsText groups ++ rest) = none := by
  match groups with
  | [] =>
    cases rest with
    | nil => exact no_ipv4_at_end
    | cons c rest =>
      obtain rfl := ended c rfl
      exact no_ipv4_at_colon rest
  | [group] =>
    have one : groupsText [group] = Nat.toDigits 16 group := by simp [groupsText]
    rw [one]
    exact group_no_ipv4 ended group
  | group :: next :: groups =>
    rw [groupsText_cons, List.append_assoc, List.cons_append]
    exact group_no_ipv4 (ended_cons _) group

/- All eight groups. -/
theorem readIpv6Addr_full {groups : List Nat} (fits : ∀ group ∈ groups, group < 65536)
    (eight : groups.length = 8) (ended : Ended rest) :
    readIpv6Addr (groupsText groups ++ rest) = some (groupsValue groups, rest) := by
  have some_group : groups ≠ [] := by
    rintro rfl
    cases eight
  have read := (readGroups_more fits some_group eight.le ended).1
  rw [eight, Nat.sub_self, readGroups, List.append_nil] at read
  rw [readIpv6Addr, read]
  simp only [eight, if_true]

/- Groups on both sides of the zeros that are left out. -/
theorem readIpv6Addr_shortened {groups : List Nat} (fits : ∀ group ∈ groups, group < 65536)
    (short : groups.length < 8) :
    let after := readGroups (8 - (groups.length + 1)) true rest
    readIpv6Addr (groupsText groups ++ ':' :: ':' :: rest) =
      some (groupsValue (groups ++ List.replicate (8 - groups.length - after.1.length) 0 ++ after.1),
        after.2.2) := by
  intro after
  have read : readGroups 8 true (groupsText groups ++ ':' :: ':' :: rest) =
      (groups, false, ':' :: ':' :: rest) := by
    cases groups with
    | nil => exact readGroups_no_group 8 (ended_cons _)
    | cons group groups =>
      rw [(readGroups_more fits (by simp) (by omega) (ended_cons _)).1, readGroups_doubled,
        List.append_nil]
  rw [readIpv6Addr, read]
  simp only [if_neg short.ne, readGivenChar, if_true, Option.bind_eq_bind, Option.bind_some,
    Bool.false_eq_true, if_false]
  rfl

/- The value of hexadecimal digits is below the number of so many digits. -/
theorem value_lt (digits : List Nat) (small : ∀ digit ∈ digits, digit < 16) (start : Nat) :
    digits.foldl (fun value digit => value * 16 + digit) start < (start + 1) * 16 ^ digits.length := by
  induction digits generalizing start with
  | nil => simp
  | cons digit digits ih =>
    have here := small digit List.mem_cons_self
    have more := ih (fun d member => small d (List.mem_cons_of_mem _ member)) (start * 16 + digit)
    calc digits.foldl (fun value digit => value * 16 + digit) (start * 16 + digit)
        < (start * 16 + digit + 1) * 16 ^ digits.length := more
      _ ≤ ((start + 1) * 16) * 16 ^ digits.length := Nat.mul_le_mul_right _ (by omega)
      _ = (start + 1) * 16 ^ (digits.length + 1) := by rw [Nat.pow_succ, Nat.mul_assoc, Nat.mul_comm 16]

theorem decimal_is_hex {c : Char} (digit : c.isDigit = true) : (digitOf 16 c).isSome = true := by
  have range : '0'.toNat ≤ c.toNat ∧ c.toNat ≤ '9'.toNat := by
    simpa [Char.isDigit, Char.le_def, UInt32.le_iff_toNat_le] using digit
  have value : c.toNat - '0'.toNat < 16 := by
    have nine : '9'.toNat = '0'.toNat + 9 := by decide
    omega
  rw [digitOf, hexValue, if_pos digit, Option.filter_some_pos (by simpa using value)]
  rfl

section Number
variable (d : Nat)

theorem decimal_hex_digits : ∀ c ∈ Nat.toDigits 10 d, (digitOf 16 c).isSome = true :=
  fun _ member => decimal_is_hex (Nat.isDigit_of_mem_toDigits (by omega) (by omega) member)

theorem decimal_no_ipv4 : readIpv4Addr (Nat.toDigits 10 d) = none := by
  refine readIpv4Addr_none ?_
  rw [List.dropWhile_eq_nil_iff.mpr (digitOf_digits (by omega) (by omega) d)]
  decide

/- Four digits at most are taken for a group. -/
theorem decimal_group (few : d < 10 ^ 4) :
    ∃ value, readNumber 16 4 65536 true (Nat.toDigits 10 d) = some (value, []) := by
  have taken := List.takeWhile_eq_self_iff.mpr (decimal_hex_digits d)
  have length := (Nat.length_toDigits_le_iff (n := d) (k := 4) (by omega) (by omega)).mpr few
  have digits : ((Nat.toDigits 10 d).filterMap (digitOf 16)).length ≤ 4 :=
    (List.length_filterMap_le _ _).trans length
  have below := value_lt ((Nat.toDigits 10 d).filterMap (digitOf 16)) (by
    intro digit member
    obtain ⟨c, _, value⟩ := List.mem_filterMap.mp member
    simpa using (Option.filter_eq_some_iff.mp value).2) 0
  have power : 16 ^ ((Nat.toDigits 10 d).filterMap (digitOf 16)).length ≤ 16 ^ 4 :=
    Nat.pow_le_pow_right (by omega) digits
  refine ⟨((Nat.toDigits 10 d).filterMap (digitOf 16)).foldl
    (fun value digit => value * 16 + digit) 0, ?_⟩
  simp only [readNumber, taken]
  rw [if_neg]
  · rw [List.drop_length]
  · simp only [Nat.toDigits_ne_nil, false_or, not_or, Bool.true_eq_false, and_false,
      not_false_eq_true, and_true]
    exact ⟨by omega, by omega⟩

theorem decimal_too_long (many : 10 ^ 4 ≤ d) :
    readNumber 16 4 65536 true (Nat.toDigits 10 d) = none := by
  have taken := List.takeWhile_eq_self_iff.mpr (decimal_hex_digits d)
  have length : ¬ (Nat.toDigits 10 d).length ≤ 4 :=
    (Nat.length_toDigits_le_iff (by omega) (by omega)).not.mpr (by omega)
  simp only [readNumber, taken]
  rw [if_pos (Or.inr (Or.inl (by omega)))]

theorem readGroups_few (left : Nat) (few : d < 10 ^ 4) :
    ∃ value, readGroups (left + 1) false (':' :: Nat.toDigits 10 d) = ([value], false, []) := by
  obtain ⟨value, number⟩ := decimal_group d few
  refine ⟨value, ?_⟩
  simp [readGroups, readSeparator, readGivenChar, decimal_no_ipv4, number, readGroups_nothing]

theorem readGroups_many (left : Nat) (many : 10 ^ 4 ≤ d) :
    readGroups left false (':' :: Nat.toDigits 10 d) = ([], false, ':' :: Nat.toDigits 10 d) := by
  cases left with
  | zero => rfl
  | succ left =>
    simp [readGroups, readSeparator, readGivenChar, decimal_no_ipv4, decimal_too_long d many]

end Number

/-! The texts of addresses. -/

theorem readGroups_ipv4 {n : Nat} (fits : n < 2 ^ 32) (ended : Ended rest) (left : Nat) :
    readGroups (left + 2) false (':' :: (ipv4Text n ++ rest)) =
      ([n / 65536, n % 65536], true, rest) := by
  have read := readIpv4Addr_text fits (ended.no_digit 10)
  simp [readGroups, readSeparator, readGivenChar, read]

section Texts
variable {address : Nat}

theorem groupsBefore_lt : ∀ group ∈ groupsBefore address, group < 65536 :=
  fun _ member => segments_lt (List.mem_of_mem_take member)

theorem groupsAfter_lt : ∀ group ∈ groupsAfter address, group < 65536 :=
  fun _ member => segments_lt (List.mem_of_mem_drop member)

theorem readIpv6Addr_mapped (mapped : address / 2 ^ 32 = 0xffff) (ended : Ended rest) :
    readIpv6Addr (ipv6Text address ++ rest) = some (address, rest) := by
  have tail := (readGroups_digits 6 (by omega : 65535 < 65536)
    (ended_cons (ipv4Text (address % 2 ^ 32) ++ rest))).1
  rw [readGroups_ipv4 (Nat.mod_lt _ (by omega)) ended] at tail
  have read := @readIpv6Addr_shortened (Nat.toDigits 16 65535 ++
    ':' :: (ipv4Text (address % 2 ^ 32) ++ rest)) [] (by simp) (by simp)
  have text : ipv6Text address ++ rest = groupsText [] ++ ':' :: ':' ::
      (Nat.toDigits 16 65535 ++ ':' :: (ipv4Text (address % 2 ^ 32) ++ rest)) := by
    have letters : Nat.toDigits 16 65535 = ['f', 'f', 'f', 'f'] := by decide
    rw [ipv6Text, if_pos mapped, letters]
    rfl
  rw [text, read, List.length_nil, tail]
  simp only [Option.some.injEq, Prod.mk.injEq, and_true]
  have zeros : groupsValue ([] ++ List.replicate (8 - 0 - [65535, address % 2 ^ 32 / 65536,
      address % 2 ^ 32 % 65536].length) 0 ++ [65535, address % 2 ^ 32 / 65536,
        address % 2 ^ 32 % 65536]) =
      (65535 * 65536 + address % 2 ^ 32 / 65536) * 65536 + address % 2 ^ 32 % 65536 := rfl
  rw [zeros]
  omega

theorem readIpv6Addr_whole (fits : address < 2 ^ 128) (not_mapped : address / 2 ^ 32 ≠ 0xffff)
    (few_zeros : ¬ 1 < (leftOut address).2) (ended : Ended rest) :
    readIpv6Addr (ipv6Text address ++ rest) = some (address, rest) := by
  have text : ipv6Text address = groupsText (segments address) := by
    rw [leftOut] at few_zeros
    rw [ipv6Text, if_neg not_mapped]
    simp only [few_zeros, if_false]
  rw [text, readIpv6Addr_full (fun _ => segments_lt) (length_segments address) ended,
    groupsValue_segments fits]

theorem shortened_text (not_mapped : address / 2 ^ 32 ≠ 0xffff) (zeros : 1 < (leftOut address).2) :
    ipv6Text address ++ rest = groupsText (groupsBefore address) ++ ':' :: ':' ::
      (groupsText (groupsAfter address) ++ rest) := by
  have same : ipv6Text address = groupsText (groupsBefore address) ++ [':', ':'] ++
      groupsText (groupsAfter address) := by
    rw [groupsBefore, groupsAfter]
    rw [leftOut] at zeros ⊢
    rw [ipv6Text, if_neg not_mapped]
    simp only [zeros, if_true]
  rw [same]
  simp

/- What is read after the zeros decides what becomes of the text. -/
theorem readIpv6Addr_zeros (not_mapped : address / 2 ^ 32 ≠ 0xffff)
    (zeros : 1 < (leftOut address).2) :
    let after := readGroups (8 - ((groupsBefore address).length + 1)) true
      (groupsText (groupsAfter address) ++ rest)
    readIpv6Addr (ipv6Text address ++ rest) =
      some (groupsValue (groupsBefore address ++ List.replicate
        (8 - (groupsBefore address).length - after.1.length) 0 ++ after.1), after.2.2) := by
  have short : (groupsBefore address).length < 8 := by
    have := @leftOut_le address (by omega)
    rw [length_groupsBefore (by omega)]
    omega
  rw [shortened_text not_mapped zeros]
  exact readIpv6Addr_shortened groupsBefore_lt short

/- The parts of an address before and after its zeros have its value. -/
theorem zeros_value (fits : address < 2 ^ 128) (zeros : 1 < (leftOut address).2) :
    groupsValue (groupsBefore address ++ List.replicate (8 - (groupsBefore address).length -
      (groupsAfter address).length) 0 ++ groupsAfter address) = address := by
  rw [groups_restored (by omega), groupsValue_segments fits]

/- There is room for the groups after the zeros, and for one more. -/
theorem room_after (zeros : 1 < (leftOut address).2) :
    (groupsAfter address).length < 8 - ((groupsBefore address).length + 1) := by
  have := @leftOut_le address (by omega)
  rw [length_groupsBefore (by omega), length_groupsAfter]
  omega

theorem readIpv6Addr_nothing_after (fits : address < 2 ^ 128)
    (not_mapped : address / 2 ^ 32 ≠ 0xffff) (zeros : 1 < (leftOut address).2)
    (nothing : groupsAfter address = []) (ended : Ended rest) :
    readIpv6Addr (ipv6Text address ++ rest) = some (address, rest) := by
  have value := zeros_value fits zeros
  rw [nothing] at value
  have read : readGroups (8 - ((groupsBefore address).length + 1)) true
      (groupsText (groupsAfter address) ++ rest) = ([], false, rest) := by
    rw [nothing]
    exact readGroups_no_group _ ended
  rw [readIpv6Addr_zeros not_mapped zeros, read, value]

/- Where groups come after the zeros, what is read of the rest is added to them. -/
theorem readGroups_after (zeros : 1 < (leftOut address).2) (some_after : groupsAfter address ≠ [])
    (ended : Ended rest) : ∃ left,
      let more := readGroups (left + 1) false rest
      readGroups (8 - ((groupsBefore address).length + 1)) true
        (groupsText (groupsAfter address) ++ rest) = (groupsAfter address ++ more.1, more.2) := by
  have room := room_after zeros
  refine ⟨8 - ((groupsBefore address).length + 1) - (groupsAfter address).length - 1, ?_⟩
  rw [Nat.sub_add_cancel (by omega)]
  exact (readGroups_more groupsAfter_lt some_after room.le ended).1

theorem readIpv6Addr_stopped (fits : address < 2 ^ 128) (not_mapped : address / 2 ^ 32 ≠ 0xffff)
    (zeros : 1 < (leftOut address).2) (some_after : groupsAfter address ≠ []) (ended : Ended rest)
    (stops : ∀ left, readGroups (left + 1) false rest = ([], false, rest)) :
    readIpv6Addr (ipv6Text address ++ rest) = some (address, rest) := by
  obtain ⟨left, read⟩ := readGroups_after zeros some_after ended
  simp only [stops left, List.append_nil] at read
  rw [readIpv6Addr_zeros not_mapped zeros, read, zeros_value fits zeros]

/-- Where groups come after the zeros, a number of at most four digits is taken for one more. -/
theorem readIpv6Addr_longer (not_mapped : address / 2 ^ 32 ≠ 0xffff)
    (zeros : 1 < (leftOut address).2) (some_after : groupsAfter address ≠ []) {d : Nat}
    (few : d < 10 ^ 4) :
    ∃ value, readIpv6Addr (ipv6Text address ++ ':' :: Nat.toDigits 10 d) = some (value, []) := by
  obtain ⟨left, read⟩ := readGroups_after zeros some_after (ended_cons (Nat.toDigits 10 d))
  obtain ⟨group, more⟩ := readGroups_few d left few
  rw [more] at read
  exact ⟨_, by rw [readIpv6Addr_zeros not_mapped zeros, read]⟩

end Texts

end Read

/- Groups come after the zeros that are left out of the text, so that it can go on. -/
def Continues (address : Nat) : Prop :=
  address / 2 ^ 32 ≠ 0xffff ∧ 1 < (leftOut address).2 ∧ groupsAfter address ≠ []

instance (address : Nat) : Decidable (Continues address) :=
  inferInstanceAs (Decidable (_ ∧ _ ∧ _))

section Whole
variable {address : Nat} {rest : List Char}

/-- A text that cannot go on is read up to a colon. -/
theorem readIpv6Addr_ended (fits : address < 2 ^ 128) (closed : ¬ Continues address)
    (ended : Ended rest) : readIpv6Addr (ipv6Text address ++ rest) = some (address, rest) := by
  by_cases mapped : address / 2 ^ 32 = 0xffff
  · exact readIpv6Addr_mapped mapped ended
  · by_cases zeros : 1 < (leftOut address).2
    · have nothing : groupsAfter address = [] := by
        by_contra some_after
        exact closed ⟨mapped, zeros, some_after⟩
      exact readIpv6Addr_nothing_after fits mapped zeros nothing ended
    · exact readIpv6Addr_whole fits mapped zeros ended

/-- An address is read back from its text. -/
theorem readIpv6Addr_text (fits : address < 2 ^ 128) :
    readIpv6Addr (ipv6Text address) = some (address, []) := by
  rw [← List.append_nil (ipv6Text address)]
  by_cases continues : Continues address
  · obtain ⟨not_mapped, zeros, some_after⟩ := continues
    exact readIpv6Addr_stopped fits not_mapped zeros some_after ended_nil
      fun left => readGroups_nothing _
  · exact readIpv6Addr_ended fits continues ended_nil

/-- With a colon and a number after it, an address is read as another one just when its text can go
    on and the number has at most four digits. -/
theorem readIpv6Addr_number (fits : address < 2 ^ 128) (d : Nat) :
    (∃ value, readIpv6Addr (ipv6Text address ++ ':' :: Nat.toDigits 10 d) = some (value, [])) ↔
      Continues address ∧ d < 10 ^ 4 := by
  constructor
  · rintro ⟨value, read⟩
    by_contra other
    have left_over : readIpv6Addr (ipv6Text address ++ ':' :: Nat.toDigits 10 d) =
        some (address, ':' :: Nat.toDigits 10 d) := by
      by_cases continues : Continues address
      · obtain ⟨not_mapped, zeros, some_after⟩ := continues
        have many : 10 ^ 4 ≤ d := by
          by_contra few
          exact other ⟨⟨not_mapped, zeros, some_after⟩, by omega⟩
        exact readIpv6Addr_stopped fits not_mapped zeros some_after (ended_cons _)
          fun left => readGroups_many d _ many
      · exact readIpv6Addr_ended fits continues (ended_cons _)
    rw [left_over] at read
    cases read
  · rintro ⟨⟨not_mapped, zeros, some_after⟩, few⟩
    exact readIpv6Addr_longer not_mapped zeros some_after few

end Whole
end SentinelAgent.Network
