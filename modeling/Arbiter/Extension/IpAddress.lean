/-
# IP addresses and networks

An address of either family with the length of its network part.  An address by itself has the
whole width as its length.  The two families differ in the width of an address, so a network is
defined for every width.
-/

namespace Arbiter

/-! ## 1. Networks of any width -/

/-- An address of `w` bits of which the first `len` name the network. -/
structure Network (w : Nat) where
  addr : BitVec w
  len : Nat
  len_le : len ≤ w := by omega
  deriving DecidableEq

namespace Network

variable {w : Nat}

/-- Networks are ordered by address, then by length. -/
instance : Ord (Network w) := ⟨compareLex (compareOn addr) (compareOn len)⟩

instance : Std.TransOrd (Network w) :=
  inferInstanceAs (Std.TransCmp (compareLex (compareOn addr) (compareOn len)))

theorem compare_def (a b : Network w) :
    compare a b = (compare a.addr b.addr).then (compare a.len b.len) := rfl

instance : Std.LawfulEqOrd (Network w) where
  compare_self := Std.ReflCmp.compare_self
  eq_of_compare {a b} h := by
    obtain ⟨ha, hl⟩ := Ordering.then_eq_eq.1 ((compare_def a b).symm.trans h)
    cases a; cases b
    cases Std.LawfulEqCmp.eq_of_compare ha
    cases Std.LawfulEqCmp.eq_of_compare hl
    rfl

/-- The bits that do not belong to the network part. -/
def hostMask (n : Network w) : BitVec w := BitVec.allOnes w >>> n.len

/-- The first address of the network. -/
def first (n : Network w) : BitVec w := n.addr &&& ~~~n.hostMask

/-- The last address of the network. -/
def last (n : Network w) : BitVec w := n.addr ||| n.hostMask

/-- Whether all addresses of `n` lie between the first and the last of `range`. -/
def isIn (n range : Network w) : Bool :=
  range.first.toNat ≤ n.first.toNat && n.last.toNat ≤ range.last.toNat

/-- The first octet of the first address. -/
def firstOctet (n : Network w) : BitVec 8 := n.first.extractLsb' (w - 8) 8

end Network

/-! ## 2. The two families -/

/-- An address of either family with the length of its network part. -/
inductive IpAddress where
  | v4 (net : Network 32)
  | v6 (net : Network 128)
  deriving DecidableEq

namespace IpAddress

/-- The order: the addresses of four octets before the longer ones. -/
def cmp : IpAddress → IpAddress → Ordering
  | .v4 a, .v4 b => compare a b
  | .v4 _, .v6 _ => .lt
  | .v6 _, .v4 _ => .gt
  | .v6 a, .v6 b => compare a b

instance : Ord IpAddress := ⟨cmp⟩

instance : Std.LawfulEqOrd IpAddress where
  compare_self {a} :=
    match a with
    | .v4 n => (Std.ReflCmp.compare_self : compare n n = .eq)
    | .v6 n => (Std.ReflCmp.compare_self : compare n n = .eq)
  eq_of_compare {a b} h :=
    match a, b, h with
    | .v4 m, .v4 n, h =>
      congrArg v4 (Std.LawfulEqCmp.eq_of_compare (show compare m n = .eq from h))
    | .v6 m, .v6 n, h =>
      congrArg v6 (Std.LawfulEqCmp.eq_of_compare (show compare m n = .eq from h))

instance : Std.TransOrd IpAddress where
  eq_swap {a b} :=
    match a, b with
    | .v4 m, .v4 n => (Std.OrientedCmp.eq_swap : compare m n = (compare n m).swap)
    | .v6 m, .v6 n => (Std.OrientedCmp.eq_swap : compare m n = (compare n m).swap)
    | .v4 _, .v6 _ => rfl
    | .v6 _, .v4 _ => rfl
  isLE_trans {a b c} hab hbc :=
    match a, b, c, hab, hbc with
    | .v4 k, .v4 m, .v4 n, hab, hbc =>
      show (compare k n).isLE from Std.TransCmp.isLE_trans
        (show (compare k m).isLE from hab) (show (compare m n).isLE from hbc)
    | .v6 k, .v6 m, .v6 n, hab, hbc =>
      show (compare k n).isLE from Std.TransCmp.isLE_trans
        (show (compare k m).isLE from hab) (show (compare m n).isLE from hbc)
    | .v4 _, _, .v6 _, _, _ => rfl
    | .v6 _, .v4 _, _, hab, _ => nomatch (hab : Ordering.isLE .gt = true)
    | .v4 _, .v6 _, .v4 _, _, hbc => nomatch (hbc : Ordering.isLE .gt = true)
    | .v6 _, .v6 _, .v4 _, _, hbc => nomatch (hbc : Ordering.isLE .gt = true)

/-- An address of four octets by itself. -/
def ofV4 (addr : BitVec 32) : IpAddress := .v4 ⟨addr, 32, Nat.le_refl _⟩

/-- An address of eight groups by itself. -/
def ofV6 (addr : BitVec 128) : IpAddress := .v6 ⟨addr, 128, Nat.le_refl _⟩

/-- The length of the network part. -/
def len : IpAddress → Nat
  | .v4 n => n.len
  | .v6 n => n.len

/-- Whether the address has four octets. -/
def isV4 : IpAddress → Bool
  | .v4 _ => true
  | .v6 _ => false

/-- Whether the address has eight groups. -/
def isV6 : IpAddress → Bool
  | .v4 _ => false
  | .v6 _ => true

/-- Whether the whole network is a loopback one: the first octet is 127, or it is just `::1`. -/
def isLoopback : IpAddress → Bool
  | .v4 n => 8 ≤ n.len && n.firstOctet == 127
  | .v6 n => n.len == 128 && n.addr == 1

/-- Whether the whole network is a multicast one: the first four bits are 1110, or the first
octet is 255. -/
def isMulticast : IpAddress → Bool
  | .v4 n => 4 ≤ n.len && n.firstOctet &&& 0xf0 == 0xe0
  | .v6 n => 8 ≤ n.len && n.firstOctet == 0xff

/-- Whether all addresses of a network belong to another one; networks of different families have
none in common. -/
def isInRange : IpAddress → IpAddress → Bool
  | .v4 n, .v4 range => n.isIn range
  | .v6 n, .v6 range => n.isIn range
  | _, _ => false

end IpAddress

end Arbiter
