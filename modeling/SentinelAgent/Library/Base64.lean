import Mathlib.Data.List.Basic

/-!
Standard base64 with padding: three bytes are four digits. What stands in the digits that some
bytes decide by themselves, whatever comes before and after them.
-/
namespace Base64

def alphabet : List Char :=
  "ABCDEFGHIJKLMNOPQRSTUVWXYZabcdefghijklmnopqrstuvwxyz0123456789+/".toList

def pad : Char := '='

def digit (n : Nat) : Char := alphabet.getD n pad

@[grind =] def encode : List UInt8 → List Char
  | [] => []
  | [a] => [digit (a.toNat / 4), digit (a.toNat % 4 * 16), pad, pad]
  | [a, b] =>
    [digit (a.toNat / 4), digit (a.toNat % 4 * 16 + b.toNat / 16), digit (b.toNat % 16 * 4), pad]
  | a :: b :: c :: rest =>
    digit (a.toNat / 4) :: digit (a.toNat % 4 * 16 + b.toNat / 16) ::
      digit (b.toNat % 16 * 4 + c.toNat / 64) :: digit (c.toNat % 64) :: encode rest

/-- The digits that so many bytes decide, counted from the start. -/
def decided (bytes : Nat) : Nat := 4 * bytes / 3

theorem decided_add_three (n : Nat) : decided (n + 3) = decided n + 4 := by
  unfold decided
  omega

@[simp] theorem decided_zero : decided 0 = 0 := by decide

@[simp] theorem decided_one : decided 1 = 1 := by decide

@[simp] theorem decided_two : decided 2 = 2 := by decide

theorem digit_ne_pad {n : Nat} (small : n < 64) : digit n ≠ pad := by
  have all_digits : ∀ n < 64, digit n ≠ pad := by decide +kernel
  exact all_digits n small

theorem length_encode (xs : List UInt8) : (encode xs).length = 4 * ((xs.length + 2) / 3) := by
  induction xs using encode.induct with
  | case1 => rfl
  | case2 a => simp [encode]
  | case3 a b => simp [encode]
  | case4 a b c rest ih =>
    simp only [encode, List.length_cons, ih]
    omega

theorem encode_append {xs : List UInt8} (ys : List UInt8) (aligned : 3 ∣ xs.length) :
    encode (xs ++ ys) = encode xs ++ encode ys := by
  induction xs using encode.induct with
  | case1 => rfl
  | case2 a => simp at aligned
  | case3 a b => simp at aligned
  | case4 a b c rest ih =>
    have rest_aligned : 3 ∣ rest.length := by
      simp only [List.length_cons] at aligned
      omega
    simp only [List.cons_append, encode, ih rest_aligned]

/-- What follows changes no decided digit. -/
theorem take_encode_append (xs ys : List UInt8) :
    (encode (xs ++ ys)).take (decided xs.length) = (encode xs).take (decided xs.length) := by
  induction xs using encode.induct with
  | case1 => rfl
  | case2 a =>
    cases ys with
    | nil => rfl
    | cons b ys => cases ys <;> simp [encode]
  | case3 a b => cases ys <;> simp [encode]
  | case4 a b c rest ih =>
    simp only [List.length_cons, decided_add_three, List.cons_append, encode, List.take_succ_cons,
      ih]

theorem pad_notMem_take (xs : List UInt8) : pad ∉ (encode xs).take (decided xs.length) := by
  have byte : ∀ a : UInt8, a.toNat < 256 := UInt8.toNat_lt
  induction xs using encode.induct with
  | case1 => exact List.not_mem_nil
  | case2 a =>
    have first := byte a
    have sure : digit (a.toNat / 4) ≠ pad := digit_ne_pad (by omega)
    simp [encode, sure.symm]
  | case3 a b =>
    have first := byte a
    have second := byte b
    have sure : digit (a.toNat / 4) ≠ pad := digit_ne_pad (by omega)
    have next_sure : digit (a.toNat % 4 * 16 + b.toNat / 16) ≠ pad := digit_ne_pad (by omega)
    simp [encode, sure.symm, next_sure.symm]
  | case4 a b c rest ih =>
    have first := byte a
    have second := byte b
    have third := byte c
    simp only [List.length_cons, decided_add_three, encode, List.take_succ_cons, List.mem_cons,
      not_or]
    exact ⟨(digit_ne_pad (by omega)).symm, (digit_ne_pad (by omega)).symm,
      (digit_ne_pad (by omega)).symm, (digit_ne_pad (by omega)).symm, ih⟩

/-- A byte before decides two digits. -/
theorem drop_encode_one (a a' : UInt8) (xs : List UInt8) :
    (encode (a :: xs)).drop 2 = (encode (a' :: xs)).drop 2 := by
  cases xs with
  | nil => rfl
  | cons b xs => cases xs <;> rfl

/-- Two bytes before decide three. -/
theorem drop_encode_two (a a' b b' : UInt8) (xs : List UInt8) :
    (encode (a :: b :: xs)).drop 3 = (encode (a' :: b' :: xs)).drop 3 := by
  cases xs <;> rfl

end Base64
