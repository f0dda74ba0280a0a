import SentinelAgent.Response.Allowlist
import SentinelAgent.Scanner.SigmaValues

/-!
The networks a value names, and the addresses in them: those that agree with the network on its
first bits.
-/
namespace SentinelAgent.Sigma
open Isolation Text

/- The bits of a number of so many, the highest first. -/
def bitsOf (n value : Nat) : List Bool := (List.range n).map fun i => value.testBit (n - 1 - i)

theorem take_bits_iff {n w a b : Nat} (fits : w ≤ n) (a_small : a < 2 ^ n) (b_small : b < 2 ^ n) :
    (bitsOf n a).take w = (bitsOf n b).take w ↔ a / 2 ^ (n - w) = b / 2 ^ (n - w) := by
  have bit (value i : Nat) : (value / 2 ^ (n - w)).testBit i = value.testBit (n - w + i) := by
    rw [Nat.testBit_div_two_pow, Nat.add_comm]
  have high {value : Nat} (small : value < 2 ^ n) {i : Nat} (above : n ≤ i) :
      value.testBit i = false :=
    Nat.testBit_lt_two_pow (small.trans_le (Nat.pow_le_pow_right (by omega) above))
  rw [bitsOf, bitsOf, ← List.map_take, ← List.map_take, List.take_range, Nat.min_eq_left fits,
    List.map_inj_left]
  constructor
  · intro same
    refine Nat.eq_of_testBit_eq fun i => ?_
    rw [bit, bit]
    by_cases below : n - w + i < n
    · have there := same (w - 1 - i) (List.mem_range.mpr (by omega))
      rwa [show n - 1 - (w - 1 - i) = n - w + i by omega] at there
    · rw [high a_small (by omega), high b_small (by omega)]
  · intro same i member
    have within := List.mem_range.mp member
    have there := congrArg (Nat.testBit · (w - 1 - i)) same
    simp only [bit] at there
    rwa [show n - w + (w - 1 - i) = n - 1 - i by omega] at there

deriving instance DecidableEq for Network

namespace Network

def addressBits : IpAddr → List Bool
  | .v4 address => bitsOf 32 address.val
  | .v6 address => bitsOf 128 address.val

/- The address is of the network's family and agrees with it on the bits that count. -/
def Agrees (network : Network) (address : IpAddr) : Prop :=
  address.isIpv6 = network.address.isIpv6 ∧
    (addressBits address).take network.width = (addressBits network.address).take network.width

/- An IPv6 address that an IPv4 address is written as. -/
def Mapped : IpAddr → Prop
  | .v4 _ => False
  | .v6 address => address.val / 2 ^ 32 = 0xffff

instance (address : IpAddr) : Decidable (Mapped address) :=
  match address with
  | .v4 _ => inferInstanceAs (Decidable False)
  | .v6 _ => inferInstanceAs (Decidable (_ = _))

/- The bits that count, of the 128. -/
def mask (width : Nat) : BitVec 128 := BitVec.allOnes 128 <<< (128 - width)

/- A network holds the addresses it is written for, its own address among them. Where bits count,
   they are compared under a mask that is shifted by less than its width. -/
structure HoldsItsOwn (network : Network) : Prop where
  members : ∀ address, network.contains address = true ↔ network.Agrees (unmapped address)
  base : network.contains network.address = true
  shift : network.width ≠ 0 → network.width ≤ 128 ∧ 128 - network.width < 128
  masked : network.width ≠ 0 → ∀ address,
    (unmapped address).isIpv6 = network.address.isIpv6 →
      (network.contains address = true ↔
        BitVec.ofNat 128 (bits (unmapped address)) &&& mask network.width =
          BitVec.ofNat 128 (bits network.address) &&& mask network.width)

def widest (address : IpAddr) : Nat := if address.isIpv6 then 128 else 32

theorem parse_width {F : Type} {l : Libraries F} {text : String} {network : Network}
    (read : parse l text = .ok network) : network.width ≤ widest network.address := by
  unfold parse at read
  dsimp only at read
  split at read
  · cases read
  · rename_i address _
    split_ifs at read with bare v6 v6
    · obtain rfl := Except.ok.inj read
      simp [widest, v6]
    · obtain rfl := Except.ok.inj read
      simp [widest, v6]
    · split at read
      · rename_i width fits
        obtain rfl := Except.ok.inj read
        simpa [widest, v6] using (Option.filter_eq_some_iff.mp fits).2
      · cases read
    · split at read
      · rename_i width fits
        obtain rfl := Except.ok.inj read
        simpa [widest, v6] using (Option.filter_eq_some_iff.mp fits).2
      · cases read

/- The bits of an address stand first among the 128 that are compared. -/
theorem bits_div (address : IpAddr) {width : Nat} (fits : width ≤ widest address) :
    bits address / 2 ^ (128 - width) = address.value / 2 ^ (widest address - width) := by
  cases address with
  | v6 address => rfl
  | v4 address =>
    have fits : width ≤ 32 := fits
    have powers : 2 ^ (128 - width) = 2 ^ (32 - width) * 2 ^ 96 := by
      rw [← Nat.pow_add]
      congr 1
      omega
    simp only [bits, IpAddr.value, widest, IpAddr.isIpv6, Bool.false_eq_true, if_false]
    rw [powers, Nat.mul_div_mul_right _ _ (by decide)]

theorem addressBits_eq (address : IpAddr) :
    addressBits address = bitsOf (widest address) address.value := by
  cases address <;> rfl

theorem value_lt (address : IpAddr) : address.value < 2 ^ widest address := by
  cases address with
  | v4 address => exact address.isLt
  | v6 address => exact address.isLt

theorem widest_le (address : IpAddr) : widest address ≤ 128 := by
  cases address with
  | v4 _ => exact (by decide : 32 ≤ 128)
  | v6 _ => exact Nat.le_refl 128

theorem bits_lt (address : IpAddr) : bits address < 2 ^ 128 := by
  cases address with
  | v4 address =>
    have small : address.val < 2 ^ 32 := address.isLt
    simp only [bits]
    omega
  | v6 address => exact address.isLt

theorem contains_iff {network : Network} (fits : network.width ≤ widest network.address)
    (address : IpAddr) : network.contains address = true ↔ network.Agrees (unmapped address) := by
  rw [contains, Agrees]
  by_cases family : (unmapped address).isIpv6 = network.address.isIpv6
  · have same_width : widest (unmapped address) = widest network.address := by
      rw [widest, widest, family]
    have small := value_lt (unmapped address)
    rw [addressBits_eq, addressBits_eq, same_width,
      take_bits_iff fits (same_width ▸ small) (value_lt _)]
    have fits' : network.width ≤ widest (unmapped address) := same_width ▸ fits
    rw [bits_div _ fits, bits_div _ fits', same_width]
    by_cases none_counts : network.width = 0
    · rw [same_width] at small
      simp [family, none_counts, Nat.div_eq_of_lt small, Nat.div_eq_of_lt (value_lt network.address)]
    · simp [family, none_counts]
  · simp [family]

theorem masked_iff {a b : Nat} (a_small : a < 2 ^ 128) (b_small : b < 2 ^ 128) (width : Nat) :
    BitVec.ofNat 128 a &&& mask width = BitVec.ofNat 128 b &&& mask width ↔
      a / 2 ^ (128 - width) = b / 2 ^ (128 - width) := by
  have bit (value i : Nat) (within : i < 128) :
      (BitVec.ofNat 128 value &&& mask width).getLsbD i =
        (decide (128 - width ≤ i) && value.testBit i) := by
    simp only [mask, BitVec.getLsbD_and, BitVec.getLsbD_ofNat, BitVec.getLsbD_shiftLeft,
      BitVec.getLsbD_allOnes, within, decide_true, Bool.true_and]
    by_cases counts : 128 - width ≤ i
    · simp [counts, show i - (128 - width) < 128 by omega, show ¬ i < 128 - width by omega]
    · simp [counts, show i < 128 - width by omega]
  have shifted (value i : Nat) :
      (value / 2 ^ (128 - width)).testBit i = value.testBit (128 - width + i) := by
    rw [Nat.testBit_div_two_pow, Nat.add_comm]
  constructor
  · intro same
    refine Nat.eq_of_testBit_eq fun i => ?_
    rw [shifted, shifted]
    by_cases within : 128 - width + i < 128
    · have there := congrArg (BitVec.getLsbD · (128 - width + i)) same
      simpa [bit _ _ within] using there
    · rw [Nat.testBit_lt_two_pow (a_small.trans_le (Nat.pow_le_pow_right (by omega) (by omega))),
        Nat.testBit_lt_two_pow (b_small.trans_le (Nat.pow_le_pow_right (by omega) (by omega)))]
  · intro same
    refine BitVec.eq_of_getLsbD_eq fun i within => ?_
    rw [bit _ _ within, bit _ _ within]
    by_cases counts : 128 - width ≤ i
    · have there := congrArg (Nat.testBit · (i - (128 - width))) same
      simp only [shifted, show 128 - width + (i - (128 - width)) = i by omega] at there
      rw [there]
    · simp [counts]

theorem contains_masked {network : Network} (counts : network.width ≠ 0) {address : IpAddr}
    (family : (unmapped address).isIpv6 = network.address.isIpv6) :
    network.contains address = true ↔
      BitVec.ofNat 128 (bits (unmapped address)) &&& mask network.width =
        BitVec.ofNat 128 (bits network.address) &&& mask network.width := by
  rw [masked_iff (bits_lt _) (bits_lt _), contains]
  simp [family, counts]

/-- A network that is read holds the addresses it is written for just when it is not written
    with an IPv4 address as IPv6. -/
theorem network_holds_iff {F : Type} (l : Libraries F) {text : String} {network : Network}
    (read : parse l text = .ok network) : HoldsItsOwn network ↔ ¬ Mapped network.address := by
  have fits := parse_width read
  have narrow := fits.trans (widest_le network.address)
  constructor
  · intro holds mapped
    have base := (contains_iff fits network.address).mp holds.base
    cases there : network.address with
    | v4 address =>
      rw [there] at mapped
      exact mapped
    | v6 address =>
      rw [there] at mapped
      have ipv4 : address.val / 2 ^ 32 = 0xffff := mapped
      have families := base.1
      rw [there, unmapped, if_pos ipv4] at families
      cases families
  · intro not_mapped
    have plain : unmapped network.address = network.address := by
      cases there : network.address with
      | v4 address => rfl
      | v6 address =>
        rw [there] at not_mapped
        exact if_neg not_mapped
    exact {
      members := contains_iff fits
      base := (contains_iff fits network.address).mpr (by rw [plain]; exact ⟨rfl, rfl⟩)
      shift := fun counts => ⟨narrow, by omega⟩
      masked := fun counts _ family => contains_masked counts family }

section Mapped

/- The addresses are read; the values of this section need nothing else. -/
def addressReader : Libraries Nat where
  regex _ _ := .ok fun _ => true
  escape := id
  parseF64 _ := none
  lt _ _ := false
  le _ _ := false
  parseAddress := Response.parseIpAddr

theorem network_holds_iff_private :
    ∃ network, parse addressReader "10.0.0.0/8" = .ok network ∧
      (HoldsItsOwn network ↔ ¬ Mapped network.address) := by
  have read : parse addressReader "10.0.0.0/8" = .ok ⟨.v4 (Fin.ofNat _ 0x0a000000), 8⟩ := by
    decide
  exact ⟨_, read, network_holds_iff addressReader read⟩

/-- A network of IPv4 addresses written as IPv6 holds no address, not even its own. -/
theorem mapped_network_empty :
    let network : Network := ⟨.v6 (Fin.ofNat _ 0xffffc0000200), 120⟩
    parse addressReader "::ffff:192.0.2.0/120" = .ok network ∧ ¬ HoldsItsOwn network ∧
      network.contains network.address = false := by
  refine ⟨by decide, ?_, by decide⟩
  intro holds
  exact absurd holds.base (by decide)

end Mapped
end Network
end SentinelAgent.Sigma
