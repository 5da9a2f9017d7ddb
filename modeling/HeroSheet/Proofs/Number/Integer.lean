import HeroSheet.Proofs.Number.Written
import HeroSheet.Proofs.Text.Blank

namespace HeroSheet

/-- The digits of the integer, without its sign. -/
def magnitudeText (n : Int) : List Char := naturalText n.natAbs

theorem isDigit_of_mem_magnitudeText {n : Int} {c : Char} (member : c ∈ magnitudeText n) : c.isDigit :=
  isDigit_of_mem_naturalText member

theorem magnitudeText_ne_nil (n : Int) : magnitudeText n ≠ [] := naturalText_ne_nil _

/-- A sign stands in front of the digits of an integer below zero. -/
theorem integerText_eq (n : Int) :
    ∃ negative, integerText n = (if negative then ['-'] else []) ++ magnitudeText n ∧
      signedInteger negative n.natAbs = n := by
  cases n with
  | ofNat n => exact ⟨false, rfl, rfl⟩
  | negSucc n => exact ⟨true, rfl, rfl⟩

private theorem not_isWhiteSpace_of_not_isBlank {c : Char} (solid : isBlank c = false) : isWhiteSpace c = false :=
  (Bool.or_eq_false_iff.mp solid).1

theorem mem_of_mem_integerText {n : Int} {c : Char} (member : c ∈ integerText n) : c ∈ '-' :: asciiDigits := by
  obtain ⟨negative, written, _⟩ := integerText_eq n
  rw [written] at member
  rcases List.mem_append.mp member with sign | digit
  · cases negative with
    | false => cases sign
    | true => exact List.mem_cons.mpr (Or.inl (List.mem_singleton.mp sign))
  · exact List.mem_cons_of_mem _ (mem_asciiDigits (isDigit_of_mem_magnitudeText digit))

theorem not_isBlank_of_mem_integerText {n : Int} {c : Char} (member : c ∈ integerText n) : isBlank c = false := by
  have solid : ∀ d ∈ '-' :: asciiDigits, isBlank d = false := forall_of_all (by decide)
  exact solid c (mem_of_mem_integerText member)

private theorem signSpan_signed (negative : Bool) {cs : List Char} (digits : ∀ c ∈ cs.head?, c.isDigit) :
    signSpan ((if negative then ['-'] else []) ++ cs) = (negative, cs) := by
  cases negative with
  | true => rfl
  | false =>
    cases cs with
    | nil => rfl
    | cons c cs =>
      have digit := digits c rfl
      unfold signSpan
      split
      · rename_i minus
        rw [(List.cons.inj minus).1] at digit
        exact absurd digit (by decide)
      · rename_i plus
        rw [(List.cons.inj plus).1] at digit
        exact absurd digit (by decide)
      · rfl

private theorem digitSpan_magnitudeText (n : Int) :
    digitSpan false (magnitudeText n) = ((magnitudeText n).filterMap digitValue?, []) := by
  have span := digitSpan_digits false (fun c => isDigit_of_mem_magnitudeText (n := n)) endsDigits_nil
  rwa [List.append_nil] at span

/-- The text of an integer is read as that integer or refused for its length. -/
theorem readInteger_integerText (n : Int) :
    readInteger (integerText n) =
      if maxIntegerDigits < (magnitudeText n).length then .error (.tooLong (magnitudeText n).length)
      else .ok n := by
  have solid : ∀ c ∈ integerText n, isWhiteSpace c = false :=
    fun c member => not_isWhiteSpace_of_not_isBlank (not_isBlank_of_mem_integerText member)
  have stripped : Text.strip isWhiteSpace (integerText n) = integerText n := Text.strip_of_forall_mem solid
  obtain ⟨negative, written, signed⟩ := integerText_eq n
  have digits : ∀ c ∈ (magnitudeText n).head?, c.isDigit :=
    fun c first => isDigit_of_mem_magnitudeText (List.mem_of_mem_head? first)
  have sign := signSpan_signed negative digits
  rw [← written] at sign
  have size : ((magnitudeText n).filterMap digitValue?).length = (magnitudeText n).length :=
    length_filterMap_digits fun c => isDigit_of_mem_magnitudeText
  have present := digits_isEmpty (fun c => isDigit_of_mem_magnitudeText (n := n)) (magnitudeText_ne_nil n)
  have value : digitsValue ((magnitudeText n).filterMap digitValue?) = n.natAbs := digitsNumber_naturalText _
  unfold readInteger
  simp only [stripped, sign, digitSpan_magnitudeText, present, size, value, signed]
  simp

section Real

variable {n : Int}

theorem readReal?_naturalText (n : Nat) : readReal? (naturalText n) = some (.ofInt n) := by
  rw [readReal?_digits (fun c => isDigit_of_mem_naturalText) (naturalText_ne_nil n), digitsNumber_naturalText,
    Decimal.toBinary64_eq]
  have whole : n * power 10 0 = n := Nat.mul_one n
  have above : decide ((n : Int) < 0) = false := decide_eq_false (by omega)
  change some (Binary64.ofRatio false (n * power 10 0) 1) = some (Binary64.ofRatio (decide ((n : Int) < 0)) n 1)
  rw [whole, above]

private theorem Binary64.neg_ofUnits (negative : Bool) (num den : Nat) :
    -(ofUnits negative num den) = ofUnits (!negative) num den := by
  change (ofUnits negative num den).neg = _
  unfold ofUnits
  split <;> rfl

/-- The number nearest to an integer below zero is that of its size, with a sign. -/
theorem Binary64.ofInt_of_neg (below : n < 0) : Binary64.ofInt n = -(Binary64.ofInt n.natAbs) := by
  have above : decide ((n.natAbs : Int) < 0) = false := decide_eq_false (by omega)
  have sign : decide (n < 0) = true := decide_eq_true below
  change ofUnits (decide (n < 0)) (n.natAbs * unitsPerOne) 1 =
    -(ofUnits (decide ((n.natAbs : Int) < 0)) (n.natAbs * unitsPerOne) 1)
  rw [neg_ofUnits, above, sign]
  rfl

theorem Binary64.isFinite_neg (x : Binary64) : (-x).isFinite = x.isFinite := by
  cases x <;> rfl

theorem Binary64.isFinite_ofInt_natAbs (n : Int) : (ofInt n.natAbs).isFinite = (ofInt n).isFinite := by
  by_cases below : n < 0
  · rw [ofInt_of_neg below, isFinite_neg]
  · rw [Int.natAbs_of_nonneg (Int.not_lt.mp below)]

/-- The integer is a binary number itself. -/
def Binary64.IsExact (n : Int) : Prop :=
  ∃ size : Magnitude, ofInt n = .finite (decide (n < 0)) size ∧ size.units = n.natAbs * unitsPerOne

theorem Binary64.isExact_of_units {m : Magnitude} (units : m.units = n.natAbs * unitsPerOne) : IsExact n := by
  refine ⟨m, ?_, units⟩
  rw [ofInt, ofRatio, ← units]
  exact ofUnits_magnitude _ m

/-- Integers of 53 significant bits are binary numbers themselves. -/
theorem Binary64.isExact_of_small (small : n.natAbs ≤ power 2 53) : IsExact n := by
  have exact : nearestUnits (n.natAbs * unitsPerOne) 1 = n.natAbs * unitsPerOne := nearestUnits_eq_self small
  have room : n.natAbs * unitsPerOne < overflowUnits := by
    have top : power 2 53 * unitsPerOne < overflowUnits := by
      rw [unitsPerOne, overflowUnits, ← power_add]
      exact power_lt_power (by decide) (by omega)
    exact Nat.lt_of_le_of_lt (Nat.mul_le_mul_right unitsPerOne small) top
  exact isExact_of_units (m := ⟨n.natAbs * unitsPerOne, exact, room⟩) rfl

private theorem Magnitude.isWhole_of_units {m : Magnitude} {k : Nat} (units : m.units = k * unitsPerOne) :
    m.isWhole := by
  rw [isWhole, units, Nat.mul_mod_left]
  rfl

theorem Magnitude.floor_of_units {m : Magnitude} {k : Nat} (units : m.units = k * unitsPerOne) : m.floor = k := by
  rw [floor, units, Nat.mul_div_cancel k unitsPerOne_pos]

theorem Magnitude.ceil_of_units {m : Magnitude} {k : Nat} (units : m.units = k * unitsPerOne) : m.ceil = k := by
  have positive := unitsPerOne_pos
  rw [ceil, units, Nat.add_comm, Nat.add_mul_div_right _ _ positive, Nat.div_eq_of_lt (by omega), Nat.zero_add]

theorem signed_natAbs (n : Int) : (if decide (n < 0) then -(n.natAbs : Int) else n.natAbs) = n := by
  by_cases below : n < 0
  · rw [if_pos (decide_eq_true below)]
    omega
  · rw [if_neg (by simpa using below)]
    omega

section Exact

variable (exact : Binary64.IsExact n)
include exact

theorem Binary64.IsExact.isFinite : (ofInt n).isFinite := by
  obtain ⟨size, eq, _⟩ := exact
  rw [eq]
  rfl

theorem Binary64.IsExact.isWhole : (ofInt n).isWhole := by
  obtain ⟨size, eq, units⟩ := exact
  rw [eq]
  exact Magnitude.isWhole_of_units units

theorem Binary64.IsExact.truncate? : (ofInt n).truncate? = some n := by
  obtain ⟨size, eq, units⟩ := exact
  rw [eq, Binary64.truncate?, Magnitude.floor_of_units units]
  exact congrArg some (signed_natAbs n)

theorem Binary64.IsExact.floor? : (ofInt n).floor? = some n := by
  obtain ⟨size, eq, units⟩ := exact
  rw [eq, Binary64.floor?, Magnitude.floor_of_units units, Magnitude.ceil_of_units units]
  exact congrArg some (signed_natAbs n)

end Exact

/-- Integers of 53 significant bits are in range. -/
theorem Binary64.isFinite_ofInt (small : n.natAbs ≤ power 2 53) : (ofInt n).isFinite := (isExact_of_small small).isFinite

end Real

theorem length_magnitudeText_of_lt {n : Int} (small : n.natAbs < 10) : (magnitudeText n).length = 1 := by
  rw [magnitudeText, naturalText, Nat.toDigits_of_lt_base small, List.length_singleton]

end HeroSheet
