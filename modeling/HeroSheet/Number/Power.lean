namespace HeroSheet

/-- A base multiplied with itself so many times. -/
def power (base exponent : Nat) : Nat := Nat.pow base exponent

theorem power_two_pos (n : Nat) : 0 < power 2 n := Nat.two_pow_pos n

theorem power_add (base m n : Nat) : power base (m + n) = power base m * power base n :=
  Nat.pow_add base m n

theorem power_dvd_power (base : Nat) {m n : Nat} (le : m ≤ n) : power base m ∣ power base n :=
  Nat.pow_dvd_pow base le

theorem log2_lt_iff {n k : Nat} (nonzero : n ≠ 0) : n.log2 < k ↔ n < power 2 k :=
  Nat.log2_lt nonzero

theorem log2_power_two (n : Nat) : (power 2 n).log2 = n := Nat.log2_two_pow

end HeroSheet
