/-!
The number of dimensions of an array type, a machine word.
-/

namespace ActionAtlas

structure Rank where
  word : UInt64
deriving DecidableEq, Repr, Inhabited

namespace Rank

def ofNat (n : Nat) : Rank :=
  ⟨UInt64.ofNat n⟩

def toNat (rank : Rank) : Nat :=
  rank.word.toNat

instance : NatCast Rank := ⟨ofNat⟩

instance (n : Nat) : OfNat Rank n := ⟨ofNat n⟩

instance : Coe Rank Nat := ⟨toNat⟩

theorem toNat_lt (rank : Rank) : rank.toNat < 0x10000000000000000 :=
  rank.word.toNat_lt

@[simp] theorem ofNat_toNat (rank : Rank) : ofNat rank.toNat = rank := by
  cases rank with
  | mk word => exact congrArg Rank.mk UInt64.ofNat_toNat

end Rank

end ActionAtlas
