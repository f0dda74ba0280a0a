import SentinelAgent.Library.Lines

/-!
Text as bytes. A character of the first 128 is one byte, and no other character has such a
byte in it; so a text cut at the byte of such a character is cut between characters, and its
lines are the lines of its bytes.
-/
namespace Utf8

def encode (text : List Char) : List UInt8 := text.flatMap String.utf8EncodeChar

/-- The text with these bytes, where they are one. -/
def decode (bytes : List UInt8) : Option (List Char) :=
  bytes.toByteArray.utf8Decode?.map Array.toList

@[simp] theorem encode_nil : encode [] = [] := rfl

theorem encode_cons (c : Char) (text : List Char) :
    encode (c :: text) = String.utf8EncodeChar c ++ encode text := List.flatMap_cons

theorem encode_append (a b : List Char) : encode (a ++ b) = encode a ++ encode b :=
  List.flatMap_append

@[simp] theorem decode_encode (text : List Char) : decode (encode text) = some text := by
  have bytes : (encode text).toByteArray = text.utf8Encode := rfl
  rw [decode, bytes, List.utf8Decode?_utf8Encode, Option.map_some, List.toList_toArray]

theorem encode_decode {bytes : List UInt8} {text : List Char} (reads : decode bytes = some text) :
    encode text = bytes := by
  obtain ⟨chars, decoded, rfl⟩ := Option.map_eq_some_iff.mp reads
  have there : bytes.toByteArray.utf8Decode?.isSome = true := by rw [decoded]; rfl
  have back : (bytes.toByteArray.utf8Decode?.get there).toList.utf8Encode = bytes.toByteArray :=
    ByteArray.utf8Encode_get_utf8Decode?
  rw [Option.get_of_eq_some there decoded] at back
  have lists := congrArg (fun b => b.data.toList) back
  simpa [encode, List.utf8Encode] using lists

theorem decode_eq {bytes : List UInt8} {text : List Char} :
    decode bytes = some text ↔ bytes = encode text := by
  constructor
  · intro reads
    exact (encode_decode reads).symm
  · rintro rfl
    exact decode_encode text

theorem encode_injective {a b : List Char} (same : encode a = encode b) : a = b := by
  have decoded := decode_encode a
  rw [same, decode_encode] at decoded
  exact (Option.some.inj decoded).symm

/-- The byte of a character of the first 128. -/
def byteOf (c : Char) : UInt8 := UInt8.ofNat c.toNat

theorem encode_ascii {c : Char} (ascii : c.toNat < 128) : String.utf8EncodeChar c = [byteOf c] := by
  have small : c.val.toNat ≤ 0x7f := by
    have : c.val.toNat = c.toNat := rfl
    omega
  rw [String.utf8EncodeChar, if_pos small]
  rfl

theorem byteOf_small {c : Char} (ascii : c.toNat < 128) : (byteOf c).toNat = c.toNat := by
  rw [byteOf, UInt8.toNat_ofNat']
  omega

/-- The bytes of any other character. -/
theorem bytes_large {c : Char} (other : 128 ≤ c.toNat) :
    ∀ byte ∈ String.utf8EncodeChar c, 128 ≤ byte.toNat := by
  have large : ¬ c.val.toNat ≤ 0x7f := by
    have : c.val.toNat = c.toNat := rfl
    omega
  intro byte member
  rw [String.utf8EncodeChar, if_neg large] at member
  split at member
  · simp only [List.mem_cons, List.not_mem_nil, or_false] at member
    rcases member with rfl | rfl <;> rw [UInt8.toNat_ofNat'] <;> omega
  · split at member
    · simp only [List.mem_cons, List.not_mem_nil, or_false] at member
      rcases member with rfl | rfl | rfl <;> rw [UInt8.toNat_ofNat'] <;> omega
    · simp only [List.mem_cons, List.not_mem_nil, or_false] at member
      rcases member with rfl | rfl | rfl | rfl <;> rw [UInt8.toNat_ofNat'] <;> omega

theorem mem_encodeChar {mark c : Char} (ascii : mark.toNat < 128)
    (member : byteOf mark ∈ String.utf8EncodeChar c) : c = mark := by
  by_cases small : c.toNat < 128
  · rw [encode_ascii small, List.mem_singleton] at member
    have same := congrArg UInt8.toNat member
    rw [byteOf_small ascii, byteOf_small small] at same
    exact (Char.toNat_inj.mp same).symm
  · have large := bytes_large (Nat.le_of_not_lt small) _ member
    rw [byteOf_small ascii] at large
    omega

theorem mem_encode {mark : Char} (ascii : mark.toNat < 128) {text : List Char} :
    byteOf mark ∈ encode text ↔ mark ∈ text := by
  rw [encode, List.mem_flatMap]
  constructor
  · rintro ⟨c, member, byte⟩
    rw [← mem_encodeChar ascii byte]
    exact member
  · intro member
    refine ⟨mark, member, ?_⟩
    rw [encode_ascii ascii]
    exact List.mem_singleton_self _

section Cut
variable {mark : Char} (ascii : mark.toNat < 128)
include ascii

/-- A text whose bytes are cut at such a character. -/
theorem encode_cut {text : List Char} {before after : List UInt8}
    (bytes : encode text = before ++ byteOf mark :: after) :
    ∃ a b, text = a ++ mark :: b ∧ encode a = before ∧ encode b = after := by
  induction text generalizing before with
  | nil => simp at bytes
  | cons c text ih =>
    rw [encode_cons] at bytes
    by_cases here : c = mark
    · subst here
      rw [encode_ascii ascii, List.singleton_append] at bytes
      cases before with
      | nil => exact ⟨[], text, rfl, rfl, (List.cons.inj bytes).2⟩
      | cons first before =>
        obtain ⟨rfl, rest⟩ := List.cons.inj bytes
        obtain ⟨a, b, rfl, rfl, rfl⟩ := ih rest
        refine ⟨c :: a, b, rfl, ?_, rfl⟩
        rw [encode_cons, encode_ascii ascii, List.singleton_append]
    · have absent : byteOf mark ∉ String.utf8EncodeChar c := fun member =>
        here (mem_encodeChar ascii member)
      -- the character stands before the mark as a whole
      rcases List.append_eq_append_iff.mp bytes with ⟨rest, first, last⟩ | ⟨rest, first, last⟩
      · obtain ⟨a, b, rfl, rfl, rfl⟩ := ih last
        exact ⟨c :: a, b, rfl, by rw [encode_cons, first], rfl⟩
      · cases rest with
        | nil =>
          rw [List.append_nil] at first
          obtain ⟨a, b, rfl, empty, rfl⟩ := @ih [] last.symm
          refine ⟨c :: a, b, rfl, ?_, rfl⟩
          rw [encode_cons, empty, first, List.append_nil]
        | cons byte rest =>
          obtain ⟨rfl, _⟩ := List.cons.inj last
          rw [first] at absent
          exact absurd (List.mem_append_right _ List.mem_cons_self) absent

theorem splitOn_encode (text : List Char) :
    (encode text).splitOn (byteOf mark) = (text.splitOn mark).map encode := by
  induction short : text.length using Nat.strongRecOn generalizing text with
  | _ n ih =>
    by_cases there : mark ∈ text
    · obtain ⟨line, rest, rfl, absent⟩ := List.eq_append_cons_of_mem there
      have unmarked : byteOf mark ∉ encode line := fun byte => absent ((mem_encode ascii).mp byte)
      have shorter : rest.length < n := by
        rw [← short, List.length_append, List.length_cons]
        omega
      rw [List.splitOn_append_cons_self_of_not_mem absent, encode_append, encode_cons,
        encode_ascii ascii, List.singleton_append,
        List.splitOn_append_cons_self_of_not_mem unmarked, ih _ shorter rest rfl, List.map_cons]
    · have unmarked : byteOf mark ∉ encode text := fun byte => there ((mem_encode ascii).mp byte)
      rw [List.splitOn_eq_singleton there, List.splitOn_eq_singleton unmarked, List.map_singleton]

theorem complete_encode (text : List Char) :
    Lines.complete (byteOf mark) (encode text) = (Lines.complete mark text).map encode := by
  rw [Lines.complete, splitOn_encode ascii, Lines.complete, List.map_dropLast]

theorem unended_encode (text : List Char) :
    Lines.unended (byteOf mark) (encode text) = encode (Lines.unended mark text) := by
  have cut := splitOn_encode ascii text
  rw [Lines.splitOn_eq mark text, List.map_append, List.map_singleton] at cut
  exact (Lines.of_splitOn cut).2

/-- What follows the end of a line is text by itself. -/
theorem encode_drop {text : List Char} {n : Nat}
    (line : Lines.unended (byteOf mark) ((encode text).take n) = []) :
    ∃ rest, (encode text).drop n = encode rest := by
  rcases Lines.unended_eq_nil.mp line with none_before | last
  · refine ⟨text, ?_⟩
    have whole := List.take_append_drop n (encode text)
    rw [none_before, List.nil_append] at whole
    exact whole
  · obtain ⟨before, ended⟩ := List.getLast?_eq_some_iff.mp last
    have whole := List.take_append_drop n (encode text)
    rw [ended, List.append_assoc, List.singleton_append] at whole
    obtain ⟨_, rest, _, _, bytes⟩ := encode_cut ascii whole.symm
    exact ⟨rest, bytes.symm⟩

end Cut

end Utf8
