/-
# Unsigned integers of 256 bits

A number is four 64-bit limbs, the most significant first, so that the order of the numbers is
the order of their limbs taken one after the other.

Arithmetic goes through the limbs with words of 128 bits.  Ten times a number needs a carry that
goes from the last limb to the first, and division a remainder that goes from the first limb to the
last.  The wide words hold what they are to hold (`toNat_wideTimesTen`, `toNat_wideRemainder`), and
each limb hands on less than one limb, so that the whole is exact (`timesTenPlus?_eq_some_iff`,
`toNat_fst_divRem`).
-/

namespace Arbiter

/-- A 256-bit number as four limbs, the most significant first. -/
structure U256 where
  limb₃ : UInt64
  limb₂ : UInt64
  limb₁ : UInt64
  limb₀ : UInt64
  deriving DecidableEq, Repr, Inhabited

namespace U256

/-- The number of values of a limb. -/
def limbBase : Nat := 0x10000000000000000

/-- The number that the limbs denote. -/
def toNat (n : U256) : Nat :=
  ((n.limb₃.toNat * limbBase + n.limb₂.toNat) * limbBase + n.limb₁.toNat) * limbBase
    + n.limb₀.toNat

/-- The number of values. -/
def bound : Nat := limbBase * limbBase * limbBase * limbBase

theorem toNat_lt (n : U256) : n.toNat < bound := by
  have h₃ := n.limb₃.toNat_lt
  have h₂ := n.limb₂.toNat_lt
  have h₁ := n.limb₁.toNat_lt
  have h₀ := n.limb₀.toNat_lt
  unfold toNat bound limbBase
  omega

theorem toNat_injective {m n : U256} (h : m.toNat = n.toNat) : m = n := by
  obtain ⟨a₃, a₂, a₁, a₀⟩ := m
  obtain ⟨b₃, b₂, b₁, b₀⟩ := n
  unfold toNat limbBase at h
  simp only at h
  have ha₂ := a₂.toNat_lt
  have ha₁ := a₁.toNat_lt
  have ha₀ := a₀.toNat_lt
  have hb₂ := b₂.toNat_lt
  have hb₁ := b₁.toNat_lt
  have hb₀ := b₀.toNat_lt
  have h₀ : a₀.toNat = b₀.toNat := by omega
  have h₁ : a₁.toNat = b₁.toNat := by omega
  have h₂ : a₂.toNat = b₂.toNat := by omega
  have h₃ : a₃.toNat = b₃.toNat := by omega
  rw [UInt64.toNat_inj.mp h₃, UInt64.toNat_inj.mp h₂, UInt64.toNat_inj.mp h₁,
    UInt64.toNat_inj.mp h₀]

/-- Numbers are ordered by their limbs, the most significant first. -/
instance : Ord U256 :=
  ⟨compareLex (compareOn limb₃) (compareLex (compareOn limb₂)
    (compareLex (compareOn limb₁) (compareOn limb₀)))⟩

instance : Std.TransOrd U256 :=
  inferInstanceAs (Std.TransCmp (compareLex (compareOn limb₃) (compareLex (compareOn limb₂)
    (compareLex (compareOn limb₁) (compareOn limb₀)))))

theorem compare_def (a b : U256) :
    compare a b = (compare a.limb₃ b.limb₃).then ((compare a.limb₂ b.limb₂).then
      ((compare a.limb₁ b.limb₁).then (compare a.limb₀ b.limb₀))) := rfl

instance : Std.LawfulEqOrd U256 where
  compare_self := Std.ReflCmp.compare_self
  eq_of_compare {a b} h := by
    obtain ⟨h₃, h⟩ := Ordering.then_eq_eq.1 ((compare_def a b).symm.trans h)
    obtain ⟨h₂, h⟩ := Ordering.then_eq_eq.1 h
    obtain ⟨h₁, h₀⟩ := Ordering.then_eq_eq.1 h
    cases a; cases b
    cases Std.LawfulEqCmp.eq_of_compare h₃
    cases Std.LawfulEqCmp.eq_of_compare h₂
    cases Std.LawfulEqCmp.eq_of_compare h₁
    cases Std.LawfulEqCmp.eq_of_compare h₀
    rfl

/-- Zero. -/
def zero : U256 := ⟨0, 0, 0, 0⟩

/-- The largest number. -/
def max : U256 := ⟨-1, -1, -1, -1⟩

/-- A number of one limb. -/
def ofUInt64 (n : UInt64) : U256 := ⟨0, 0, 0, n⟩

/-- Whether all limbs are zero. -/
def isZero (n : U256) : Bool :=
  n.limb₃ == 0 && n.limb₂ == 0 && n.limb₁ == 0 && n.limb₀ == 0

theorem isZero_iff {n : U256} : n.isZero = true ↔ n.toNat = 0 := by
  simp only [isZero, Bool.and_eq_true, beq_iff_eq, toNat, ← UInt64.toNat_inj]
  unfold limbBase
  constructor
  · rintro ⟨⟨⟨h₃, h₂⟩, h₁⟩, h₀⟩
    rw [h₃, h₂, h₁, h₀]
    rfl
  · intro h
    have h0 : (0 : UInt64).toNat = 0 := rfl
    omega

/-! ## 1. Wide words -/

/-- A limb as a wide word. -/
def widen (limb : UInt64) : BitVec 128 := limb.toBitVec.setWidth 128

/-- The limb at the end of a wide word. -/
def narrow (wide : BitVec 128) : UInt64 := ⟨wide.setWidth 64⟩

theorem toNat_widen (limb : UInt64) : (widen limb).toNat = limb.toNat := by
  rw [widen, BitVec.toNat_setWidth_of_le (by decide), UInt64.toNat_toBitVec]

theorem toNat_widen_lt (limb : UInt64) : (widen limb).toNat < limbBase := by
  rw [toNat_widen]
  exact limb.toNat_lt

theorem toNat_narrow (wide : BitVec 128) : (narrow wide).toNat = wide.toNat % limbBase := by
  rw [narrow, UInt64.toNat_ofBitVec, BitVec.toNat_setWidth]
  rfl

/-! ## 2. Ten times a number -/

/-- Ten times a limb and a carry. -/
def wideTimesTen (limb : UInt64) (carry : BitVec 128) : BitVec 128 := widen limb * 10 + carry

/-- The limb and the carry of ten times a limb and a carry. -/
def timesTenLimb (limb : UInt64) (carry : BitVec 128) : UInt64 × BitVec 128 :=
  (narrow (wideTimesTen limb carry), wideTimesTen limb carry >>> 64)

/-- Ten times the number and a digit, unless that leaves the range. -/
def timesTenPlus? (n : U256) (digit : UInt64) : Option U256 :=
  let r₀ := timesTenLimb n.limb₀ (widen digit)
  let r₁ := timesTenLimb n.limb₁ r₀.2
  let r₂ := timesTenLimb n.limb₂ r₁.2
  let r₃ := timesTenLimb n.limb₃ r₂.2
  if r₃.2 = 0 then some ⟨r₃.1, r₂.1, r₁.1, r₀.1⟩ else none

/-- With a carry of one limb there is no overflow. -/
theorem toNat_wideTimesTen (limb : UInt64) {carry : BitVec 128} (h : carry.toNat < limbBase) :
    (wideTimesTen limb carry).toNat = limb.toNat * 10 + carry.toNat := by
  have hlimb := limb.toNat_lt
  unfold limbBase at h
  have hten : (10 : BitVec 128).toNat = 10 := rfl
  rw [wideTimesTen, BitVec.toNat_add, BitVec.toNat_mul, toNat_widen, hten]
  omega

/-- Limb and carry together are ten times the limb and the carry, and the carry is small again. -/
theorem timesTenLimb_spec (limb : UInt64) {carry : BitVec 128} (h : carry.toNat < limbBase) :
    (timesTenLimb limb carry).2.toNat * limbBase + (timesTenLimb limb carry).1.toNat
      = limb.toNat * 10 + carry.toNat ∧ (timesTenLimb limb carry).2.toNat < limbBase := by
  have hlimb := limb.toNat_lt
  have hwide := toNat_wideTimesTen limb h
  have hhigh : (timesTenLimb limb carry).2.toNat = (limb.toNat * 10 + carry.toNat) / limbBase := by
    rw [timesTenLimb, BitVec.toNat_ushiftRight, hwide, Nat.shiftRight_eq_div_pow]
    rfl
  have hlow : (timesTenLimb limb carry).1.toNat = (limb.toNat * 10 + carry.toNat) % limbBase := by
    rw [timesTenLimb, toNat_narrow, hwide]
  rw [hhigh, hlow]
  refine ⟨Nat.div_add_mod' _ _, ?_⟩
  unfold limbBase at h ⊢
  omega

/-- Ten times the number and a digit, exactly when that is a number of 256 bits. -/
theorem timesTenPlus?_eq_some_iff {n m : U256} {digit : UInt64} :
    n.timesTenPlus? digit = some m ↔ m.toNat = n.toNat * 10 + digit.toNat := by
  simp only [timesTenPlus?]
  have h₀ := timesTenLimb_spec n.limb₀ (toNat_widen_lt digit)
  generalize timesTenLimb n.limb₀ (widen digit) = r₀ at h₀ ⊢
  have h₁ := timesTenLimb_spec n.limb₁ h₀.2
  generalize timesTenLimb n.limb₁ r₀.2 = r₁ at h₁ ⊢
  have h₂ := timesTenLimb_spec n.limb₂ h₁.2
  generalize timesTenLimb n.limb₂ r₁.2 = r₂ at h₂ ⊢
  have h₃ := timesTenLimb_spec n.limb₃ h₂.2
  generalize timesTenLimb n.limb₃ r₂.2 = r₃ at h₃ ⊢
  have hsum : r₃.2.toNat * bound + (⟨r₃.1, r₂.1, r₁.1, r₀.1⟩ : U256).toNat
      = n.toNat * 10 + digit.toNat := by
    rw [toNat_widen] at h₀
    simp only [toNat, bound, limbBase] at h₀ h₁ h₂ h₃ ⊢
    omega
  have hzero : r₃.2 = 0 ↔ r₃.2.toNat = 0 := BitVec.toNat_inj.symm
  constructor
  · intro h
    split at h
    · rename_i hcarry
      cases h
      rw [hzero.mp hcarry] at hsum
      omega
    · cases h
  · intro h
    have hm := m.toNat_lt
    have hcarry : r₃.2.toNat = 0 := by
      refine Nat.eq_zero_of_not_pos fun hpos => ?_
      have hle := Nat.mul_le_mul_right bound hpos
      omega
    have hvalue : (⟨r₃.1, r₂.1, r₁.1, r₀.1⟩ : U256).toNat = m.toNat := by
      rw [hcarry] at hsum
      omega
    rw [if_pos (hzero.mpr hcarry), toNat_injective hvalue]

/-! ## 3. Division -/

/-- A limb behind a remainder. -/
def wideRemainder (rem : BitVec 128) (limb : UInt64) : BitVec 128 := rem <<< 64 ||| widen limb

/-- Quotient and remainder of a limb behind a remainder. -/
def divLimb (divisor : UInt64) (rem : BitVec 128) (limb : UInt64) : UInt64 × BitVec 128 :=
  (narrow (wideRemainder rem limb / widen divisor), wideRemainder rem limb % widen divisor)

/-- Quotient and remainder by a divisor of one limb. -/
def divRem (n : U256) (divisor : UInt64) : U256 × UInt64 :=
  let r₃ := divLimb divisor 0 n.limb₃
  let r₂ := divLimb divisor r₃.2 n.limb₂
  let r₁ := divLimb divisor r₂.2 n.limb₁
  let r₀ := divLimb divisor r₁.2 n.limb₀
  (⟨r₃.1, r₂.1, r₁.1, r₀.1⟩, narrow r₀.2)

/-- A remainder of one limb is not shifted out. -/
theorem toNat_wideRemainder {rem : BitVec 128} (h : rem.toNat < limbBase) (limb : UInt64) :
    (wideRemainder rem limb).toNat = rem.toNat * limbBase + limb.toNat := by
  have hlimb := limb.toNat_lt
  have hshift : (rem <<< 64).toNat = rem.toNat <<< 64 := by
    rw [BitVec.toNat_shiftLeft, Nat.shiftLeft_eq]
    unfold limbBase at h
    omega
  rw [wideRemainder, BitVec.toNat_or, hshift, toNat_widen,
    ← Nat.shiftLeft_add_eq_or_of_lt hlimb, Nat.shiftLeft_eq]
  rfl

/-- Quotient and remainder of a limb behind a remainder; the quotient is one limb. -/
theorem divLimb_spec {divisor : UInt64} {rem : BitVec 128} (h : rem.toNat < divisor.toNat)
    (limb : UInt64) :
    divisor.toNat * (divLimb divisor rem limb).1.toNat + (divLimb divisor rem limb).2.toNat
      = rem.toNat * limbBase + limb.toNat ∧
        (divLimb divisor rem limb).2.toNat < divisor.toNat := by
  have hwide := toNat_wideRemainder (Nat.lt_trans h divisor.toNat_lt) limb
  have hquotient : (rem.toNat * limbBase + limb.toNat) / divisor.toNat < limbBase := by
    refine Nat.div_lt_of_lt_mul ?_
    calc rem.toNat * limbBase + limb.toNat < rem.toNat * limbBase + limbBase :=
          Nat.add_lt_add_left limb.toNat_lt _
      _ = (rem.toNat + 1) * limbBase := (Nat.succ_mul _ _).symm
      _ ≤ divisor.toNat * limbBase := Nat.mul_le_mul_right _ h
  rw [divLimb, toNat_narrow, BitVec.toNat_udiv, BitVec.toNat_umod, hwide, toNat_widen,
    Nat.mod_eq_of_lt hquotient]
  exact ⟨Nat.div_add_mod _ _, Nat.mod_lt _ (Nat.zero_lt_of_lt h)⟩

/-- The digits of a quotient are found one after the other. -/
theorem div_step {d quotient rem n digit rem' limb : Nat} (h : d * quotient + rem = n)
    (hstep : d * digit + rem' = rem * limbBase + limb) :
    d * (quotient * limbBase + digit) + rem' = n * limbBase + limb := by
  calc d * (quotient * limbBase + digit) + rem'
      = d * quotient * limbBase + (d * digit + rem') := by
        rw [Nat.mul_add, Nat.mul_assoc, Nat.add_assoc]
    _ = (d * quotient + rem) * limbBase + limb := by
        rw [hstep, Nat.add_mul, Nat.add_assoc]
    _ = n * limbBase + limb := by rw [h]

/-- Quotient and remainder of the number. -/
theorem divRem_spec (n : U256) {divisor : UInt64} (h : 0 < divisor.toNat) :
    divisor.toNat * (n.divRem divisor).1.toNat + (n.divRem divisor).2.toNat = n.toNat ∧
      (n.divRem divisor).2.toNat < divisor.toNat := by
  simp only [divRem]
  have hstart : (0 : BitVec 128).toNat = 0 := rfl
  have h₃ := divLimb_spec (hstart.symm ▸ h) n.limb₃
  rw [hstart, Nat.zero_mul, Nat.zero_add] at h₃
  generalize divLimb divisor 0 n.limb₃ = r₃ at h₃ ⊢
  have h₂ := divLimb_spec h₃.2 n.limb₂
  generalize divLimb divisor r₃.2 n.limb₂ = r₂ at h₂ ⊢
  have h₁ := divLimb_spec h₂.2 n.limb₁
  generalize divLimb divisor r₂.2 n.limb₁ = r₁ at h₁ ⊢
  have h₀ := divLimb_spec h₁.2 n.limb₀
  generalize divLimb divisor r₁.2 n.limb₀ = r₀ at h₀ ⊢
  have hrem : (narrow r₀.2).toNat = r₀.2.toNat := by
    rw [toNat_narrow]
    exact Nat.mod_eq_of_lt (Nat.lt_trans h₀.2 divisor.toNat_lt)
  rw [hrem]
  exact ⟨div_step (div_step (div_step h₃.1 h₂.1) h₁.1) h₀.1, h₀.2⟩

theorem toNat_fst_divRem (n : U256) {divisor : UInt64} (h : 0 < divisor.toNat) :
    (n.divRem divisor).1.toNat = n.toNat / divisor.toNat := by
  obtain ⟨hsum, hlt⟩ := n.divRem_spec h
  rw [Nat.add_comm] at hsum
  exact ((Nat.div_mod_unique h).mpr ⟨hsum, hlt⟩).1.symm

theorem toNat_snd_divRem (n : U256) {divisor : UInt64} (h : 0 < divisor.toNat) :
    (n.divRem divisor).2.toNat = n.toNat % divisor.toNat := by
  obtain ⟨hsum, hlt⟩ := n.divRem_spec h
  rw [Nat.add_comm] at hsum
  exact ((Nat.div_mod_unique h).mpr ⟨hsum, hlt⟩).2.symm

end U256

end Arbiter
