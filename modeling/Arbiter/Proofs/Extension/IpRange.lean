/-
# IP ranges are sets of addresses

A network has the addresses from its first to its last one (`Network.Holds`), which are those that
begin with its network part (`Network.holds_iff_bits`).  So one range lies in another when its
addresses do, and that is a matter of the bits of the shorter network part
(`Network.isIn_iff_subset`, `Network.isIn_iff_bits`).

Loopback and multicast networks are found by their length and the first octet, or by the address
itself.  Both say what two ranges say, one of each family (`IpAddress.isLoopback_eq`,
`IpAddress.isMulticast_eq`).
-/
import Arbiter.Extension.IpAddress.Text
import Mathlib.Data.Nat.Digits.Defs
import Mathlib.Tactic.TFAE

namespace Arbiter

/-! ## 1. Networks as intervals -/

namespace Network

variable {w : Nat} {n r : Network w}

/-- The address is none before the first and none behind the last of the network. -/
def Holds (n : Network w) (x : BitVec w) : Prop := n.first ≤ x ∧ x ≤ n.last

/-- The number of bits behind the network part. -/
def hostBits (n : Network w) : Nat := w - n.len

theorem toNat_hostMask (n : Network w) : n.hostMask.toNat = 2 ^ n.hostBits - 1 := by
  refine Nat.eq_of_testBit_eq fun i => ?_
  rw [Nat.testBit_two_pow_sub_one, hostMask, hostBits, BitVec.testBit_toNat,
    BitVec.getLsbD_ushiftRight, BitVec.getLsbD_allOnes]
  have hlen := n.len_le
  simp only [decide_eq_decide]
  omega

theorem toNat_last (n : Network w) :
    n.last.toNat = n.addr.toNat / 2 ^ n.hostBits * 2 ^ n.hostBits + (2 ^ n.hostBits - 1) := by
  have hlt : 2 ^ n.hostBits - 1 < 2 ^ n.hostBits := Nat.sub_lt (Nat.two_pow_pos _) Nat.one_pos
  refine Nat.eq_of_testBit_eq fun i => ?_
  rw [last, BitVec.toNat_or, toNat_hostMask, Nat.testBit_or, Nat.mul_comm,
    Nat.testBit_two_pow_mul_add _ hlt, Nat.testBit_two_pow_sub_one, Nat.testBit_div_two_pow]
  by_cases hi : i < n.hostBits
  · simp [hi]
  · simp [hi, Nat.sub_add_cancel (Nat.le_of_not_lt hi)]

theorem toNat_first (n : Network w) :
    n.first.toNat = n.addr.toNat / 2 ^ n.hostBits * 2 ^ n.hostBits := by
  refine Nat.eq_of_testBit_eq fun i => ?_
  have hmask : (~~~n.hostMask).toNat.testBit i = (decide (i < w) && !decide (i < n.hostBits)) := by
    rw [BitVec.testBit_toNat, BitVec.getLsbD_not, ← BitVec.testBit_toNat, toNat_hostMask,
      Nat.testBit_two_pow_sub_one]
  rw [first, BitVec.toNat_and, Nat.testBit_and, hmask, Nat.testBit_mul_two_pow,
    Nat.testBit_div_two_pow]
  by_cases hi : i < n.hostBits
  · simp [hi, Nat.not_le.mpr hi]
  · -- No bit of the address stands above its width.
    have hwidth : n.addr.toNat.testBit i = true → i < w := by
      rw [BitVec.testBit_toNat]
      exact BitVec.lt_of_getLsbD
    have hle := Nat.le_of_not_lt hi
    simpa [hi, hle, Nat.sub_add_cancel hle] using hwidth

/-- The addresses of a network are those that agree with it above the host bits. -/
theorem holds_iff_div {x : BitVec w} :
    n.Holds x ↔ x.toNat / 2 ^ n.hostBits = n.addr.toNat / 2 ^ n.hostBits := by
  have hpos := Nat.two_pow_pos n.hostBits
  rw [Holds, BitVec.le_def, BitVec.le_def, toNat_first, toNat_last, Nat.div_eq_iff hpos,
    Nat.add_sub_assoc hpos]

/-! ## 2. Networks as bits -/

/-- Two addresses agree above the last bits when they begin with the same bits. -/
theorem div_eq_div_iff {len : Nat} (hlen : len ≤ w) {x y : BitVec w} :
    x.toNat / 2 ^ (w - len) = y.toNat / 2 ^ (w - len) ↔
      ∀ i < len, x.getMsbD i = y.getMsbD i := by
  have hbit (z : BitVec w) (i : Nat) :
      (z.toNat / 2 ^ (w - len)).testBit i = z.getLsbD (i + (w - len)) := by
    rw [Nat.testBit_div_two_pow, BitVec.testBit_toNat]
  constructor
  · intro h i hi
    have hindex : w - 1 - i = len - 1 - i + (w - len) := by omega
    rw [BitVec.getMsbD_eq_getLsbD, BitVec.getMsbD_eq_getLsbD, hindex, ← hbit, ← hbit, h]
  · intro h
    refine Nat.eq_of_testBit_eq fun i => ?_
    rw [hbit, hbit, BitVec.getLsbD_eq_getMsbD, BitVec.getLsbD_eq_getMsbD]
    by_cases hi : i + (w - len) < w
    · rw [h _ (by omega)]
    · simp [hi]

/-- **The addresses of a network are those that begin with its network part.** -/
theorem holds_iff_bits {x : BitVec w} :
    n.Holds x ↔ ∀ i < n.len, x.getMsbD i = n.addr.getMsbD i :=
  holds_iff_div.trans (div_eq_div_iff n.len_le)

theorem holds_first (n : Network w) : n.Holds n.first := by
  rw [holds_iff_div, toNat_first, Nat.mul_div_cancel _ (Nat.two_pow_pos _)]

theorem holds_last (n : Network w) : n.Holds n.last := by
  have hpos := Nat.two_pow_pos n.hostBits
  rw [holds_iff_div, Nat.div_eq_iff hpos, toNat_last, Nat.add_sub_assoc hpos]
  exact ⟨Nat.le_add_right _ _, Nat.le_refl _⟩

theorem holds_addr (n : Network w) : n.Holds n.addr := holds_iff_div.mpr rfl

/-! ## 3. Ranges -/

/-- **A network lies in a range when its addresses are addresses of the range.** -/
theorem isIn_iff_subset : n.isIn r = true ↔ ∀ x, n.Holds x → r.Holds x := by
  simp only [isIn, Bool.and_eq_true, decide_eq_true_eq, ← BitVec.le_def]
  constructor
  · rintro ⟨hfirst, hlast⟩ x ⟨hx, hx'⟩
    exact ⟨BitVec.le_trans hfirst hx, BitVec.le_trans hx' hlast⟩
  · intro h
    exact ⟨(h _ n.holds_first).1, (h _ n.holds_last).2⟩

/-- A range has no fewer addresses than a network in it, so its network part is no longer. -/
theorem len_le_of_isIn (h : n.isIn r = true) : r.len ≤ n.len := by
  simp only [isIn, Bool.and_eq_true, decide_eq_true_eq] at h
  rw [toNat_first, toNat_first, toNat_last, toNat_last] at h
  have hpos := Nat.two_pow_pos n.hostBits
  have hpos' := Nat.two_pow_pos r.hostBits
  have hpow : 2 ^ n.hostBits ≤ 2 ^ r.hostBits := by omega
  have hbits := (Nat.pow_le_pow_iff_right (by decide)).mp hpow
  unfold hostBits at hbits
  have hlen := r.len_le
  omega

/-- **A network lies in a range when the network part of the range is a beginning of its own.** -/
theorem isIn_iff_bits : n.isIn r = true ↔
    r.len ≤ n.len ∧ ∀ i < r.len, n.addr.getMsbD i = r.addr.getMsbD i := by
  constructor
  · intro h
    exact ⟨len_le_of_isIn h, holds_iff_bits.mp (isIn_iff_subset.mp h _ n.holds_addr)⟩
  · rintro ⟨hlen, hbits⟩
    refine isIn_iff_subset.mpr fun x hx => holds_iff_bits.mpr fun i hi => ?_
    exact (holds_iff_bits.mp hx i (Nat.lt_of_lt_of_le hi hlen)).trans (hbits i hi)

/-- Whether a network lies in a range, by the number that the network part of the range is. -/
theorem isIn_iff_div : n.isIn r = true ↔
    r.len ≤ n.len ∧ n.addr.toNat / 2 ^ r.hostBits = r.addr.toNat / 2 ^ r.hostBits := by
  rw [isIn_iff_bits, hostBits, div_eq_div_iff r.len_le]

/-- The first bits of the first octet are those of the address, as far as the network part goes. -/
theorem firstOctet_div (hw : 8 ≤ w) {k : Nat} (hk : k ≤ 8) (hlen : k ≤ n.len) :
    n.firstOctet.toNat / 2 ^ (8 - k) = n.addr.toNat / 2 ^ (w - k) := by
  have hfirst : n.first.toNat / 2 ^ (w - 8) < 2 ^ 8 := by
    rw [Nat.div_lt_iff_lt_mul (Nat.two_pow_pos _), ← Nat.pow_add, Nat.add_sub_cancel' hw]
    exact n.first.isLt
  have hbelow : n.first.toNat / 2 ^ (w - k) = n.addr.toNat / 2 ^ (w - k) :=
    (div_eq_div_iff (Nat.le_trans hk hw)).mpr fun i hi =>
      holds_iff_bits.mp n.holds_first i (Nat.lt_of_lt_of_le hi hlen)
  have hbits : w - 8 + (8 - k) = w - k := by omega
  rw [firstOctet, BitVec.extractLsb'_toNat, Nat.shiftRight_eq_div_pow, Nat.mod_eq_of_lt hfirst,
    Nat.div_div_eq_div_mul, ← Nat.pow_add, hbits, hbelow]

/-- Whether a network lies in a range is said by the first octets when the network part of the range
is no longer than that. -/
theorem isIn_iff_firstOctet (hw : 8 ≤ w) (hr : r.len ≤ 8) : n.isIn r = true ↔
    r.len ≤ n.len ∧
      n.firstOctet.toNat / 2 ^ (8 - r.len) = r.firstOctet.toNat / 2 ^ (8 - r.len) := by
  rw [isIn_iff_bits, ← div_eq_div_iff r.len_le]
  refine and_congr_right fun hlen => ?_
  rw [firstOctet_div hw hr hlen, firstOctet_div hw hr (Nat.le_refl _)]

/-! ## 4. Loopback and multicast networks -/

/-- The network `127.0.0.0/8`. -/
def loopback4 : Network 32 := ⟨0x7f000000#32, 8, Nat.le_of_ble_eq_true rfl⟩

/-- The network `::1/128`. -/
def loopback6 : Network 128 := ⟨1#128, 128, Nat.le_of_ble_eq_true rfl⟩

/-- The network `224.0.0.0/4`. -/
def multicast4 : Network 32 := ⟨0xe0000000#32, 4, Nat.le_of_ble_eq_true rfl⟩

/-- The network `ff00::/8`. -/
def multicast6 : Network 128 := ⟨0xff#128 <<< 120, 8, Nat.le_of_ble_eq_true rfl⟩

theorem beq_iff_toNat {k : Nat} (x y : BitVec k) :
    (x == y) = true ↔ x.toNat / 2 ^ 0 = y.toNat / 2 ^ 0 := by
  rw [beq_iff_eq, BitVec.toNat_eq, Nat.pow_zero, Nat.div_one, Nat.div_one]

/-- The mask leaves the first four bits of an octet. -/
theorem masked_beq_iff (o : BitVec 8) :
    (o &&& 0xf0#8 == 0xe0#8) = true ↔ o.toNat / 2 ^ 4 = (0xe0#8).toNat / 2 ^ 4 := by
  revert o
  decide +kernel

theorem isIn_loopback4 (n : Network 32) :
    n.isIn loopback4 = (8 ≤ n.len && n.firstOctet == 127#8) := by
  have hoctet : loopback4.firstOctet = 127#8 := by decide
  rw [Bool.eq_iff_iff, isIn_iff_firstOctet (by decide) (by decide), Bool.and_eq_true,
    decide_eq_true_eq, beq_iff_toNat, hoctet]
  rfl

/-- Of a single address the network part is all of it. -/
theorem isIn_loopback6 (n : Network 128) : n.isIn loopback6 = (n.len == 128 && n.addr == 1#128) := by
  have hlen : n.len = 128 ↔ 128 ≤ n.len := ⟨Nat.le_of_eq ∘ Eq.symm, Nat.le_antisymm n.len_le⟩
  rw [Bool.eq_iff_iff, isIn_iff_div, Bool.and_eq_true, beq_iff_eq, hlen, beq_iff_toNat]
  rfl

theorem isIn_multicast4 (n : Network 32) :
    n.isIn multicast4 = (4 ≤ n.len && n.firstOctet &&& 0xf0#8 == 0xe0#8) := by
  have hoctet : multicast4.firstOctet = 0xe0#8 := by decide
  rw [Bool.eq_iff_iff, isIn_iff_firstOctet (by decide) (by decide), Bool.and_eq_true,
    decide_eq_true_eq, masked_beq_iff, hoctet]
  rfl

theorem isIn_multicast6 (n : Network 128) :
    n.isIn multicast6 = (8 ≤ n.len && n.firstOctet == 0xff#8) := by
  have hoctet : multicast6.firstOctet = 0xff#8 := by decide
  rw [Bool.eq_iff_iff, isIn_iff_firstOctet (by decide) (by decide), Bool.and_eq_true,
    decide_eq_true_eq, beq_iff_toNat, hoctet]
  rfl

end Network

/-! ## 5. The two families -/

/-- An address of either family. -/
inductive Address where
  | v4 (bits : BitVec 32)
  | v6 (bits : BitVec 128)

namespace IpAddress

open Network

variable {a b r : IpAddress}

/-- Whether an address belongs to a network, which has none of the other family. -/
def Holds : IpAddress → Address → Prop
  | .v4 n, .v4 x => n.Holds x
  | .v6 n, .v6 x => n.Holds x
  | _, _ => False

/-- The bit at an index, the most significant one first. -/
def bit : IpAddress → Nat → Bool
  | .v4 n => n.addr.getMsbD
  | .v6 n => n.addr.getMsbD

theorem isInRange_iff_subset :
    a.isInRange r = true ↔ a.isV4 = r.isV4 ∧ ∀ x, a.Holds x → r.Holds x := by
  cases a with
  | v4 n =>
    cases r with
    | v4 m =>
      refine isIn_iff_subset.trans ⟨fun h => ⟨rfl, ?_⟩, fun h x => h.2 (.v4 x)⟩
      rintro (x | x) hx
      · exact h x hx
      · cases hx
    | v6 m => exact iff_of_false nofun fun h => nomatch h.1
  | v6 n =>
    cases r with
    | v4 m => exact iff_of_false nofun fun h => nomatch h.1
    | v6 m =>
      refine isIn_iff_subset.trans ⟨fun h => ⟨rfl, ?_⟩, fun h x => h.2 (.v6 x)⟩
      rintro (x | x) hx
      · cases hx
      · exact h x hx

theorem isInRange_iff_bits : a.isInRange r = true ↔
    a.isV4 = r.isV4 ∧ r.len ≤ a.len ∧ ∀ i < r.len, a.bit i = r.bit i := by
  cases a with
  | v4 n =>
    cases r with
    | v4 m => exact isIn_iff_bits.trans (and_iff_right rfl).symm
    | v6 m => exact iff_of_false nofun fun h => nomatch h.1
  | v6 n =>
    cases r with
    | v4 m => exact iff_of_false nofun fun h => nomatch h.1
    | v6 m => exact isIn_iff_bits.trans (and_iff_right rfl).symm

theorem isLoopback_eq (a : IpAddress) :
    a.isLoopback = (a.isInRange (.v4 loopback4) || a.isInRange (.v6 loopback6)) := by
  cases a with
  | v4 n => exact (isIn_loopback4 n).symm.trans (Bool.or_false _).symm
  | v6 n => exact (isIn_loopback6 n).symm

theorem isMulticast_eq (a : IpAddress) :
    a.isMulticast = (a.isInRange (.v4 multicast4) || a.isInRange (.v6 multicast6)) := by
  cases a with
  | v4 n => exact (isIn_multicast4 n).symm.trans (Bool.or_false _).symm
  | v6 n => exact (isIn_multicast6 n).symm

/-- **Being in a range is inclusion of addresses.**  One network lies in another when both are of
one family and the addresses of the one are addresses of the other, which is so when the network
part of the other one is a beginning of its own.  Every network lies in itself, and what lies in a
network that lies in a third one lies in that.  The loopback networks are those in `127.0.0.0/8` and
`::1/128`, the multicast networks those in `224.0.0.0/4` and `ff00::/8`. -/
theorem isInRange_exact :
    (∀ a r : IpAddress, List.TFAE [a.isInRange r = true,
      a.isV4 = r.isV4 ∧ ∀ x, a.Holds x → r.Holds x,
      a.isV4 = r.isV4 ∧ r.len ≤ a.len ∧ ∀ i < r.len, a.bit i = r.bit i]) ∧
    (∀ a : IpAddress, a.isInRange a = true) ∧
    (∀ a b c : IpAddress, a.isInRange b = true → b.isInRange c = true → a.isInRange c = true) ∧
    (∀ a : IpAddress, a.isLoopback = true ↔
      a.isInRange (.v4 loopback4) = true ∨ a.isInRange (.v6 loopback6) = true) ∧
    (∀ a : IpAddress, a.isMulticast = true ↔
      a.isInRange (.v4 multicast4) = true ∨ a.isInRange (.v6 multicast6) = true) := by
  refine ⟨fun a r => ?_, fun a => ?_, fun a b c hab hbc => ?_, fun a => ?_, fun a => ?_⟩
  · tfae_have 1 ↔ 2 := isInRange_iff_subset
    tfae_have 1 ↔ 3 := isInRange_iff_bits
    tfae_finish
  · exact isInRange_iff_subset.mpr ⟨rfl, fun _ => id⟩
  · obtain ⟨hfamily, hsubset⟩ := isInRange_iff_subset.mp hab
    obtain ⟨hfamily', hsubset'⟩ := isInRange_iff_subset.mp hbc
    exact isInRange_iff_subset.mpr ⟨hfamily.trans hfamily', fun x hx => hsubset' x (hsubset x hx)⟩
  · rw [isLoopback_eq, Bool.or_eq_true]
  · rw [isMulticast_eq, Bool.or_eq_true]

/-! The network `10.9.9.9/8` is given with bits behind its network part; `10.9.9.9/0` has all
addresses of its family. -/

namespace Hosts

def host : IpAddress := ofV4 0x0a010203#32

def wide : IpAddress := .v4 ⟨0x0a090909#32, 8, Nat.le_of_ble_eq_true rfl⟩

def all : IpAddress := .v4 ⟨0x0a090909#32, 0, Nat.zero_le 32⟩

theorem isInRange_exact_hosts :
    host.isInRange wide = true ∧ wide.isInRange all = true ∧ host.isInRange all = true := by
  have hhost : host.isInRange wide = true := by decide
  have hwide : wide.isInRange all = true := by decide
  exact ⟨hhost, hwide, isInRange_exact.2.2.1 _ _ _ hhost hwide⟩

end Hosts

end IpAddress

end Arbiter
