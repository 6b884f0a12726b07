/-!
# The C `int`

A value that the source narrows to an `int` (a `time_t`, an `Odr_int`, a `size_t`) is converted
modulo 2^32 (`toInt32`): a sum of converted values is the conversion of the sum (`toInt32_add`), and
a value in range is its own conversion (`toInt32_eq`).

A sum of `int`s that leaves the range is undefined, and is read in one way throughout. One that is
stored, compared or answered comes to its conversion, as on the machines the source is built for.
A counter that a loop runs on or that counts places in memory (`--d` of `add_bytes`, `len` and `num`
of `set_databaseNames`) is where compilers rely on there being no overflow: there it is a fault of
its own, and nothing is said of what comes behind it.
-/

set_option autoImplicit false

namespace Yazpp

/-- The conversion to a 32-bit `int`. -/
def toInt32 (x : Int) : Int := x.bmod 0x100000000

/-- A value in range is converted to itself. -/
theorem toInt32_eq {x : Int} (lower : -0x80000000 ≤ x) (upper : x < 0x80000000) :
    toInt32 x = x :=
  Int.bmod_eq_of_le lower upper

@[simp] theorem toInt32_zero : toInt32 0 = 0 := rfl

@[simp] theorem toInt32_idem (x : Int) : toInt32 (toInt32 x) = toInt32 x := Int.bmod_bmod

/-- A sum may be converted in parts. -/
@[simp] theorem toInt32_add (x y : Int) : toInt32 (toInt32 x + y) = toInt32 (x + y) :=
  Int.bmod_add_bmod

@[simp] theorem add_toInt32 (x y : Int) : toInt32 (x + toInt32 y) = toInt32 (x + y) :=
  Int.add_bmod_bmod

/-- What is left of a number behind its own conversion. -/
@[simp] theorem toInt32_sub_self (x : Int) : toInt32 (x - toInt32 x) = 0 := by
  show (x - x.bmod 0x100000000).bmod 0x100000000 = 0
  rw [Int.sub_bmod_bmod, Int.sub_self]
  rfl

theorem toInt32_lt (x : Int) : toInt32 x < 0x80000000 :=
  Int.bmod_lt (by decide)

/-- The conversion by the residue: the lower half of the residues stay, the upper half are
negative. -/
theorem toInt32_cases (x : Int) :
    (x % 0x100000000 < 0x80000000 ∧ toInt32 x = x % 0x100000000) ∨
      (0x80000000 ≤ x % 0x100000000 ∧ toInt32 x = x % 0x100000000 - 0x100000000) := by
  unfold toInt32 Int.bmod
  dsimp only
  split
  · next h => exact .inl ⟨by omega, rfl⟩
  · next h => exact .inr ⟨by omega, rfl⟩

/-- The conversion of a natural number is not larger than it. -/
theorem toInt32_le {x : Int} (h : 0 ≤ x) : toInt32 x ≤ x := by
  have hcases := toInt32_cases x
  omega

theorem le_toInt32 (x : Int) : -0x80000000 ≤ toInt32 x := by
  have hcases := toInt32_cases x
  omega

/-- The conversion to a 64-bit `size_t`. -/
def toSize (x : Int) : Nat := (x % 0x10000000000000000).toNat

end Yazpp
