import SentinelAgent.Scanner.SigmaValues

/-!
The base64 forms of a value wherever it stands in what is encoded: what the digits it decides
by itself are, at each offset.
-/
namespace SentinelAgent.Sigma
open Base64

/- The digits between those that earlier bytes decide and those that later ones do. -/
def ownDigits (bytes : List UInt8) (shift : Nat) : List Char :=
  ((encode (List.replicate shift 32 ++ bytes)).take (decided (shift + bytes.length))).drop
    (offsetStart shift)

theorem trimPadding_free {text : List Char} (free : pad ∉ text) : trimPadding text = text := by
  have kept : text.reverse.dropWhile (fun c => c == pad) = text.reverse := by
    cases last : text.reverse with
    | nil => rfl
    | cons c cs =>
      have there : c ∈ text := List.mem_reverse.mp (last ▸ List.mem_cons_self)
      have other : (c == pad) = false := by
        rw [beq_eq_false_iff_ne]
        rintro rfl
        exact free there
      rw [List.dropWhile_cons, other]
      rfl
  rw [trimPadding, kept, List.reverse_reverse]

theorem shift_cases {shift : Nat} (small : shift < 3) : shift = 0 ∨ shift = 1 ∨ shift = 2 := by
  omega

theorem start_le_decided {shift n : Nat} (small : shift < 3) (some_byte : 0 < n) :
    offsetStart shift ≤ decided (shift + n) := by
  unfold decided
  rcases shift_cases small with rfl | rfl | rfl <;> simp only [offsetStart, List.getD_cons_zero,
    List.getD_cons_succ] <;> omega

/-- What is cut off at the end are the digits that later bytes decide. -/
theorem trimmed_end (n : Nat) : 4 * ((n + 2) / 3) - offsetTrimEnd (n % 3) = decided n := by
  have digits : n % 3 = 0 ∨ n % 3 = 1 ∨ n % 3 = 2 := by omega
  unfold decided
  rcases digits with rest | rest | rest <;> rw [rest] <;> simp only [offsetTrimEnd,
    List.getD_cons_zero, List.getD_cons_succ] <;> omega

theorem offsetVariant_eq {bytes : List UInt8} {shift : Nat} (nonempty : bytes ≠ [])
    (small : shift < 3) : offsetVariant bytes shift = ownDigits bytes shift := by
  have some_byte : 0 < bytes.length := List.length_pos_of_ne_nil nonempty
  have size : (List.replicate shift (32 : UInt8) ++ bytes).length = shift + bytes.length := by
    rw [List.length_append, List.length_replicate]
  have stop : max ((encode (List.replicate shift 32 ++ bytes)).length -
      offsetTrimEnd ((bytes.length + shift) % 3)) (offsetStart shift) =
        decided (shift + bytes.length) := by
    rw [length_encode, size, Nat.add_comm bytes.length, trimmed_end]
    exact max_eq_left (start_le_decided small some_byte)
  have inside : decided (shift + bytes.length) ≤
      (encode (List.replicate shift 32 ++ bytes)).length := by
    rw [length_encode, size]
    unfold decided
    omega
  have free : pad ∉ ownDigits bytes shift := by
    intro there
    have whole := pad_notMem_take (List.replicate shift 32 ++ bytes)
    rw [size] at whole
    exact whole (List.mem_of_mem_drop there)
  rw [offsetVariant, stop, if_pos inside]
  exact trimPadding_free free

theorem length_ownDigits (bytes : List UInt8) (shift : Nat) :
    (ownDigits bytes shift).length = decided (shift + bytes.length) - offsetStart shift := by
  rw [ownDigits, List.length_drop, List.length_take, length_encode, List.length_append,
    List.length_replicate]
  unfold decided
  omega

theorem ownDigits_ne_nil {bytes : List UInt8} {shift : Nat} (nonempty : bytes ≠ [])
    (small : shift < 3) (decides : bytes.length ≠ 1 ∨ shift ≠ 1) : ownDigits bytes shift ≠ [] := by
  have some_byte : 0 < bytes.length := List.length_pos_of_ne_nil nonempty
  refine List.ne_nil_of_length_pos ?_
  rw [length_ownDigits]
  unfold decided
  rcases shift_cases small with rfl | rfl | rfl <;> simp only [offsetStart, List.getD_cons_zero,
    List.getD_cons_succ] <;> omega

/-- What the bytes before are does not matter, only how many they are. -/
theorem ownDigits_other (first bytes : List UInt8) (small : first.length < 3) :
    ownDigits bytes first.length =
      ((encode (first ++ bytes)).take (decided (first ++ bytes).length)).drop
        (offsetStart first.length) := by
  rw [ownDigits, List.length_append, List.drop_take, List.drop_take]
  congr 1
  match first, small with
  | [], _ => rfl
  | [a], _ => exact drop_encode_one 32 a bytes
  | [a, b], _ => exact drop_encode_two 32 a 32 b bytes

theorem ownDigits_infix (before bytes rest : List UInt8) :
    ownDigits bytes (before.length % 3) <:+: encode (before ++ bytes ++ rest) := by
  have aligned : (before.take (before.length - before.length % 3)).length =
      before.length - before.length % 3 := by
    rw [List.length_take]
    omega
  have size : (before.drop (before.length - before.length % 3)).length = before.length % 3 := by
    rw [List.length_drop]
    omega
  have small : before.length % 3 < 3 := Nat.mod_lt _ (by decide)
  have cut := List.take_append_drop (before.length - before.length % 3) before
  generalize before.take (before.length - before.length % 3) = groups at aligned cut
  generalize before.drop (before.length - before.length % 3) = first at size cut
  have whole : encode (before ++ bytes ++ rest) =
      encode groups ++ encode (first ++ bytes ++ rest) := by
    rw [← cut, List.append_assoc, List.append_assoc, encode_append _ (by omega),
      List.append_assoc]
  rw [whole, ← size]
  rw [← size] at small
  rw [ownDigits_other first bytes small, ← take_encode_append (first ++ bytes) rest]
  have shown := (List.drop_suffix (offsetStart first.length) _).isInfix.trans
    (List.take_prefix (decided (first ++ bytes).length) (encode (first ++ bytes ++ rest))).isInfix
  exact shown.trans (List.suffix_append _ _).isInfix

theorem mem_base64OffsetVariants {bytes : List UInt8} {variant : String} :
    variant ∈ base64OffsetVariants bytes ↔
      variant ≠ "" ∧ ∃ shift < 3, variant = String.ofList (offsetVariant bytes shift) := by
  simp only [base64OffsetVariants, List.mem_filter, List.mem_map, List.mem_range, bne_iff_ne]
  constructor
  · rintro ⟨⟨shift, small, rfl⟩, filled⟩
    exact ⟨filled, shift, small, rfl⟩
  · rintro ⟨filled, shift, small, rfl⟩
    exact ⟨⟨shift, small, rfl⟩, filled⟩

/-- A value is found at every offset at which it decides a digit. One byte between two others
    decides none. -/
theorem offset_variants_complete {bytes : List UInt8} (nonempty : bytes ≠ [])
    (before rest : List UInt8) :
    ((bytes.length ≠ 1 ∨ before.length % 3 ≠ 1) →
      String.ofList (offsetVariant bytes (before.length % 3)) ∈ base64OffsetVariants bytes ∧
        offsetVariant bytes (before.length % 3) <:+: encode (before ++ bytes ++ rest)) ∧
    (bytes.length = 1 → before.length % 3 = 1 →
      offsetVariant bytes (before.length % 3) = []) ∧
    ∀ variant ∈ base64OffsetVariants bytes, variant ≠ "" := by
  have small : before.length % 3 < 3 := Nat.mod_lt _ (by decide)
  have own := offsetVariant_eq nonempty small
  refine ⟨?_, ?_, ?_⟩
  · intro decides
    have filled := ownDigits_ne_nil nonempty small decides
    rw [own]
    refine ⟨mem_base64OffsetVariants.mpr ⟨?_, before.length % 3, small, by rw [own]⟩,
      ownDigits_infix before bytes rest⟩
    intro empty
    exact filled (by simpa using congrArg String.toList empty)
  · intro one second
    rw [own, ← List.length_eq_zero_iff, length_ownDigits, one, second]
    decide
  · intro variant listed
    exact (mem_base64OffsetVariants.mp listed).1

/-- `IEX` after one byte and before two. -/
theorem offset_variants_complete_second :
    String.ofList (offsetVariant [73, 69, 88] 1) ∈ base64OffsetVariants [73, 69, 88] ∧
      offsetVariant [73, 69, 88] 1 <:+: encode ([40] ++ [73, 69, 88] ++ [32, 41]) :=
  (offset_variants_complete (List.cons_ne_nil 73 [69, 88]) [40] [32, 41]).1
    (Or.inl (by decide))

/-- A single byte after another one is not found. -/
theorem offset_variants_not_complete :
    ¬ ∀ bytes : List UInt8, bytes ≠ [] → ∀ before rest : List UInt8,
      (∃ variant ∈ base64OffsetVariants bytes,
        variant.toList <:+: encode (before ++ bytes ++ rest)) ∧
      ∀ variant ∈ base64OffsetVariants bytes, variant ≠ "" := by
  intro claimed
  obtain ⟨variant, listed, found⟩ := (claimed [65] (by decide) [0] []).1
  have variants : base64OffsetVariants [65] = ["Q", "B"] := by decide
  have text : encode ([0] ++ [65] ++ []) = ['A', 'E', 'E', '='] := by decide
  rw [variants] at listed
  rw [text] at found
  have among := found.subset
  rcases List.mem_cons.mp listed with rfl | listed
  · exact absurd (among (List.mem_singleton_self 'Q')) (by decide)
  · rw [List.mem_singleton.mp listed] at among
    exact absurd (among (List.mem_singleton_self 'B')) (by decide)

end SentinelAgent.Sigma
