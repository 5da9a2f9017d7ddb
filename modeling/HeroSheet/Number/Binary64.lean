import HeroSheet.Number.Power

/-!
Binary64 numbers. Every finite one is a whole number of units of `2 ^ -1074`, so a magnitude is a
natural number with at most 53 significant bits, and arithmetic is exact arithmetic followed by one
rounding.
-/

namespace HeroSheet

/-- The number of binary places: one unit is `2 ^ -1074`. -/
def binaryPlaces : Nat := 1074

/-- The number of units in one. -/
def unitsPerOne : Nat := power 2 binaryPlaces

/-- Magnitudes from here on, that is from `2 ^ 1024`, are out of range. -/
def overflowUnits : Nat := power 2 (binaryPlaces + 1024)

theorem unitsPerOne_pos : 0 < unitsPerOne := power_two_pos _

private theorem overflowUnits_pos : 0 < overflowUnits := power_two_pos _

/-- The nearest natural number to `num / den` with 53 significant bits; a tie goes to the even one. -/
def nearestUnits (num den : Nat) : Nat :=
  let shift := (num / den).log2 + 1 - 53
  let step := den * power 2 shift
  let below := num / step
  let rest := num % step
  if step < 2 * rest ∨ (2 * rest = step ∧ below % 2 = 1) then (below + 1) * power 2 shift
  else below * power 2 shift

private theorem shift_le_of_lt {k s : Nat} (positive : 0 < k) (small : k < power 2 53) :
    (k * power 2 s).log2 + 1 - 53 ≤ s := by
  have nonzero : k * power 2 s ≠ 0 := Nat.ne_of_gt (Nat.mul_pos positive (power_two_pos s))
  have bound : (k * power 2 s).log2 < 53 + s := by
    rw [log2_lt_iff nonzero, power_add]
    exact Nat.mul_lt_mul_of_pos_right small (power_two_pos s)
  omega

/-- A number of 53 significant bits is its own nearest. -/
theorem nearestUnits_eq_self {k s : Nat} (small : k ≤ power 2 53) :
    nearestUnits (k * power 2 s) 1 = k * power 2 s := by
  have divides : power 2 ((k * power 2 s).log2 + 1 - 53) ∣ k * power 2 s := by
    rcases Nat.eq_zero_or_pos k with zero | positive
    · rw [zero, Nat.zero_mul]; exact Nat.dvd_zero _
    · rcases Nat.lt_or_eq_of_le small with lt | eq
      · exact Nat.dvd_trans (power_dvd_power 2 (shift_le_of_lt positive lt)) (Nat.dvd_mul_left _ _)
      · subst eq
        rw [← power_add, log2_power_two]
        exact power_dvd_power 2 (by omega)
  obtain ⟨count, eq⟩ := divides
  unfold nearestUnits
  simp only [Nat.div_one, Nat.one_mul]
  have positive := power_two_pos ((k * power 2 s).log2 + 1 - 53)
  have rest : (k * power 2 s) % power 2 ((k * power 2 s).log2 + 1 - 53) = 0 :=
    Nat.mod_eq_zero_of_dvd ⟨count, eq⟩
  rw [rest]
  have noStep : ¬ (power 2 ((k * power 2 s).log2 + 1 - 53) < 2 * 0 ∨
      (2 * 0 = power 2 ((k * power 2 s).log2 + 1 - 53) ∧
        k * power 2 s / power 2 ((k * power 2 s).log2 + 1 - 53) % 2 = 1)) := by omega
  rw [if_neg noStep]
  exact Nat.div_mul_cancel ⟨count, eq⟩

/-- The places that are left when others are dropped are 53 at most. -/
theorem significand_lt (num den : Nat) : num / (den * power 2 ((num / den).log2 + 1 - 53)) < power 2 53 := by
  rw [← Nat.div_div_eq_div_mul]
  apply Nat.div_lt_of_lt_mul
  rw [← power_add]
  rcases Nat.eq_zero_or_pos (num / den) with zero | positive
  · rw [zero]; exact power_two_pos _
  · apply (log2_lt_iff (Nat.ne_of_gt positive)).1
    omega

/-- A rounded number has 53 significant bits. -/
theorem exists_nearestUnits_eq (num den : Nat) :
    ∃ k s, k ≤ power 2 53 ∧ nearestUnits num den = k * power 2 s := by
  have below := significand_lt num den
  unfold nearestUnits
  simp only
  split
  · exact ⟨_, _, below, rfl⟩
  · exact ⟨_, _, Nat.le_of_lt below, rfl⟩

/-- Rounding a second time changes nothing. -/
theorem nearestUnits_nearestUnits (num den : Nat) :
    nearestUnits (nearestUnits num den) 1 = nearestUnits num den := by
  obtain ⟨k, s, small, eq⟩ := exists_nearestUnits_eq num den
  rw [eq, nearestUnits_eq_self small]

/-- The magnitude of a finite number, in units of `2 ^ -1074`. -/
structure Magnitude where
  units : Nat
  nearest : nearestUnits units 1 = units
  bounded : units < overflowUnits
  deriving DecidableEq

/-- A binary64 number; there is one `nan`, and zero keeps its sign. -/
inductive Binary64 where
  | finite (negative : Bool) (size : Magnitude)
  | infinite (negative : Bool)
  | nan
  deriving DecidableEq

namespace Magnitude

def zero : Magnitude := ⟨0, by decide, overflowUnits_pos⟩

instance : Inhabited Magnitude := ⟨zero⟩

/-- The magnitude is a whole number. -/
def isWhole (m : Magnitude) : Bool := m.units % unitsPerOne = 0

/-- The whole number below or at the magnitude. -/
def floor (m : Magnitude) : Nat := m.units / unitsPerOne

/-- The whole number above or at the magnitude. -/
def ceil (m : Magnitude) : Nat := (m.units + (unitsPerOne - 1)) / unitsPerOne

end Magnitude

namespace Binary64

instance : Inhabited Binary64 := ⟨.finite false .zero⟩

def zero : Binary64 := .finite false .zero

/-- The number nearest to `± num / den` units; infinite when that is out of range. -/
def ofUnits (negative : Bool) (num den : Nat) : Binary64 :=
  if bounded : nearestUnits num den < overflowUnits then
    .finite negative ⟨nearestUnits num den, nearestUnits_nearestUnits num den, bounded⟩
  else .infinite negative

/-- The number nearest to `± num / den`. -/
def ofRatio (negative : Bool) (num den : Nat) : Binary64 :=
  ofUnits negative (num * unitsPerOne) den

/-- The number nearest to an integer. -/
def ofInt (n : Int) : Binary64 := ofRatio (n < 0) n.natAbs 1

/-- The number nearest to `± digits * 10 ^ exponent`. -/
def ofDecimal (negative : Bool) (digits : Nat) (exponent : Int) : Binary64 :=
  match exponent with
  | .ofNat e => ofRatio negative (digits * power 10 e) 1
  | .negSucc e => ofRatio negative digits (power 10 (e + 1))

def isFinite : Binary64 → Bool
  | .finite _ _ => true
  | _ => false

/-- A finite number in signed units. -/
def signedUnits (negative : Bool) (size : Magnitude) : Int :=
  if negative then -(size.units : Int) else size.units

/-- The number nearest to a signed count of units; `negativeZero` is the sign of a zero. -/
def ofSignedUnits (negativeZero : Bool) (units : Int) : Binary64 :=
  if units = 0 then ofUnits negativeZero 0 1 else ofUnits (units < 0) units.natAbs 1

def neg : Binary64 → Binary64
  | .finite negative size => .finite (!negative) size
  | .infinite negative => .infinite (!negative)
  | .nan => .nan

def abs : Binary64 → Binary64
  | .finite _ size => .finite false size
  | .infinite _ => .infinite false
  | .nan => .nan

def add : Binary64 → Binary64 → Binary64
  | .finite s a, .finite t b => ofSignedUnits (s && t) (signedUnits s a + signedUnits t b)
  | .finite _ _, .infinite t => .infinite t
  | .infinite s, .finite _ _ => .infinite s
  | .infinite s, .infinite t => if s = t then .infinite s else .nan
  | _, _ => .nan

def sub (x y : Binary64) : Binary64 := x.add y.neg

def mul : Binary64 → Binary64 → Binary64
  | .finite s a, .finite t b => ofUnits (s ^^ t) (a.units * b.units) unitsPerOne
  | .finite s a, .infinite t => if a.units = 0 then .nan else .infinite (s ^^ t)
  | .infinite s, .finite t b => if b.units = 0 then .nan else .infinite (s ^^ t)
  | .infinite s, .infinite t => .infinite (s ^^ t)
  | _, _ => .nan

def div : Binary64 → Binary64 → Binary64
  | .finite s a, .finite t b =>
    if b.units = 0 then (if a.units = 0 then .nan else .infinite (s ^^ t))
    else ofUnits (s ^^ t) (a.units * unitsPerOne) b.units
  | .finite s _, .infinite t => .finite (s ^^ t) .zero
  | .infinite s, .finite t _ => .infinite (s ^^ t)
  | _, _ => .nan

instance : Neg Binary64 := ⟨neg⟩
instance : Add Binary64 := ⟨add⟩
instance : Sub Binary64 := ⟨sub⟩
instance : Mul Binary64 := ⟨mul⟩
instance : Div Binary64 := ⟨div⟩

/-- Strictly less; false when either side is not a number. -/
def lt : Binary64 → Binary64 → Bool
  | .finite s a, .finite t b => signedUnits s a < signedUnits t b
  | .finite _ _, .infinite t => !t
  | .infinite s, .finite _ _ => s
  | .infinite s, .infinite t => s && !t
  | _, _ => false

/-- Equal to zero, of either sign. -/
def isZero : Binary64 → Bool
  | .finite _ size => size.units = 0
  | _ => false

/-- Equal in value: zeros of both signs are equal, and `nan` equals nothing. -/
def same : Binary64 → Binary64 → Bool
  | .finite s a, .finite t b => signedUnits s a = signedUnits t b
  | .infinite s, .infinite t => s = t
  | _, _ => false

/-- A finite number without a fractional part. -/
def isWhole : Binary64 → Bool
  | .finite _ size => size.isWhole
  | _ => false

/-- The integer left when the fractional part is dropped; none unless finite. -/
def truncate? : Binary64 → Option Int
  | .finite negative size => some (if negative then -(size.floor : Int) else size.floor)
  | _ => none

/-- The largest integer not above a finite number. -/
def floor? : Binary64 → Option Int
  | .finite negative size => some (if negative then -(size.ceil : Int) else size.floor)
  | _ => none

/-- The smallest integer not below a finite number. -/
def ceil? : Binary64 → Option Int
  | .finite negative size => some (if negative then -(size.floor : Int) else size.ceil)
  | _ => none

def half : Binary64 := ofRatio false 1 2

/-- The nearest integer, halves upward. -/
def round? (x : Binary64) : Option Int := (x + half).floor?

/-- A zero with the sign of a number. -/
def zeroLike : Binary64 → Binary64
  | .finite negative _ => .finite negative .zero
  | .infinite negative => .finite negative .zero
  | .nan => .nan

/-- What is left of `x` after whole multiples of `y` are taken off toward zero; it has the sign of
`x`. -/
def remainder : Binary64 → Binary64 → Binary64
  | .finite s a, .finite _ b => if b.units = 0 then .nan else ofUnits s (a.units % b.units) 1
  | .finite s a, .infinite _ => .finite s a
  | _, _ => .nan

/-- One number is below zero and the other is not. -/
def signsDiffer (x y : Binary64) : Bool := x.lt .zero != y.lt .zero

/-- What is left after division rounded down; it has the sign of the divisor. -/
def mod (x y : Binary64) : Binary64 :=
  let left := remainder x y
  if left.isZero then zeroLike y else if signsDiffer left y then left + y else left

/-- The largest whole number not above `x`. -/
def floored (x : Binary64) : Binary64 :=
  match x.floor? with
  | some n => .ofInt n
  | none => x

/-- Division rounded down. -/
def floorDiv (x y : Binary64) : Binary64 :=
  let left := remainder x y
  let quotient := (x - left) / y
  let lowered := if !left.isZero && signsDiffer left y then quotient - .ofInt 1 else quotient
  if lowered.isZero then zeroLike (x / y)
  else
    let below := lowered.floored
    if half.lt (lowered - below) then below + .ofInt 1 else below

end Binary64

end HeroSheet
