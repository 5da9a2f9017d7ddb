import HeroSheet.Dice.Library
import HeroSheet.Dice.Token
import HeroSheet.Proofs.Number.Written
import HeroSheet.Proofs.Text.Blank
import HeroSheet.Roll.Advantage

namespace HeroSheet

/-- Whether the higher of two dice is kept. -/
def Advantage.highest? : Advantage → Option Bool
  | .normal => none
  | .advantage => some true
  | .disadvantage => some false

namespace Dice

/-- A sign, and the blanks behind it. -/
structure Sign where
  negative : Bool
  gap : List Char
  deriving DecidableEq, Repr

/-- An operand of a sum in its digits: an integer, dice with or without a count, or a single d20 with or without
its count. -/
inductive Operand where
  | integer (digits : List Char)
  | dice (count sides : List Char)
  | d20 (counted : Bool)
  deriving DecidableEq, Repr

/-- An operand with the signs in front of it and the blanks behind it. -/
structure Addend where
  signs : List Sign
  operand : Operand
  gap : List Char
  deriving DecidableEq, Repr

/-- Operands, each but the first with a sign that joins it to those before. -/
structure SignedSum where
  first : Addend
  others : List (Sign × Addend)
  deriving DecidableEq, Repr

section Texts

def Sign.text (sign : Sign) : List Char := (if sign.negative then '-' else '+') :: sign.gap

def Operand.text (state : Advantage) : Operand → List Char
  | .integer digits => digits
  | .dice count sides => count ++ 'd' :: sides
  | .d20 counted => state.dice.getD (if counted then ['1', 'd', '2', '0'] else ['d', '2', '0'])

def Addend.text (state : Advantage) (addend : Addend) : List Char :=
  addend.signs.flatMap Sign.text ++ (addend.operand.text state ++ addend.gap)

def othersText (state : Advantage) (others : List (Sign × Addend)) : List Char :=
  others.flatMap fun (sign, addend) => sign.text ++ addend.text state

theorem othersText_cons (other : Sign × Addend) (others : List (Sign × Addend)) :
    othersText state (other :: others) = other.1.text ++ (other.2.text state ++ othersText state others) := by
  rw [othersText, List.flatMap_cons, List.append_assoc]
  rfl

/-- The sum as it is written, with its single d20 as the advantage has it. -/
def SignedSum.text (state : Advantage) (sum : SignedSum) : List Char :=
  sum.first.text state ++ othersText state sum.others

/-- The sum as a formula. -/
def SignedSum.formula (state : Advantage) (sum : SignedSum) : String := String.ofList (sum.text state)

end Texts

section Written

/-- The operand is in digits, and a single d20 is said to be one. -/
def Operand.Written : Operand → Prop
  | .integer digits => digits ≠ [] ∧ ∀ c ∈ digits, c.isDigit
  | .dice count sides => (∀ c ∈ count, c.isDigit) ∧ (sides ≠ [] ∧ ∀ c ∈ sides, c.isDigit) ∧
      ¬ ((count = [] ∨ count = ['1']) ∧ sides = ['2', '0'])
  | .d20 _ => True

instance : (operand : Operand) → Decidable operand.Written
  | .integer digits => decidable_of_iff (digits ≠ [] ∧ digits.all Char.isDigit) (by simp [Operand.Written])
  | .dice count sides =>
    decidable_of_iff (count.all Char.isDigit ∧ (sides ≠ [] ∧ sides.all Char.isDigit) ∧
      ¬ ((count = [] ∨ count = ['1']) ∧ sides = ['2', '0'])) (by simp [Operand.Written])
  | .d20 _ => .isTrue trivial

def Sign.Written (sign : Sign) : Prop := ∀ c ∈ sign.gap, isGap c

instance (sign : Sign) : Decidable sign.Written := decidable_of_iff (sign.gap.all isGap) List.all_eq_true

def Addend.Written (addend : Addend) : Prop :=
  (∀ sign ∈ addend.signs, sign.Written) ∧ addend.operand.Written ∧ ∀ c ∈ addend.gap, isGap c

instance (addend : Addend) : Decidable addend.Written :=
  decidable_of_iff ((∀ sign ∈ addend.signs, sign.Written) ∧ addend.operand.Written ∧ addend.gap.all isGap)
    (by simp [Addend.Written])

/-- Integers and dice are in digits, and between them stand no more than signs and blanks. -/
def SignedSum.Written (sum : SignedSum) : Prop :=
  sum.first.Written ∧ ∀ other ∈ sum.others, other.1.Written ∧ other.2.Written

instance (sum : SignedSum) : Decidable sum.Written := inferInstanceAs (Decidable (_ ∧ _))

end Written

section Joints

variable {state : Advantage} {rest : List Char}

/-- A sign or a blank. -/
def isJoint (c : Char) : Bool := c == '+' || c == '-' || isGap c

/-- What may stand behind an operand: a sign, a blank, or nothing. -/
def EndsOperand (rest : List Char) : Prop := ∀ c ∈ rest.head?, isJoint c

/-- What holds of the signs and of each blank holds of a joint. -/
theorem of_isJoint {p : Char → Prop} [DecidablePred p] {c : Char} (joint : isJoint c)
    (each : ['+', '-', ' ', '\t', '\x0c', '\r', '\n'].all fun d => p d) : p c := by
  refine forall_of_all each c ?_
  simpa [isJoint, isGap, or_assoc] using joint

private theorem joint_apart {c : Char} (joint : isJoint c) : c.isDigit = false ∧ c ≠ 'd' ∧ c ≠ '.' ∧ c ≠ 'k' :=
  of_isJoint (p := fun c => c.isDigit = false ∧ c ≠ 'd' ∧ c ≠ '.' ∧ c ≠ 'k') joint (by decide)

theorem EndsOperand.apart (ends : EndsOperand rest) {c : Char} (first : c ∈ rest.head?) :
    c.isDigit = false ∧ c ≠ 'd' ∧ c ≠ '.' ∧ c ≠ 'k' :=
  joint_apart (ends c first)

theorem isJoint_of_isGap {c : Char} (blank : isGap c) : isJoint c := by simp [isJoint, blank]

theorem isJoint_of_mem_sign {sign : Sign} (written : sign.Written) {c : Char} (member : c ∈ sign.text) : isJoint c := by
  rcases List.mem_cons.mp member with rfl | blank
  · cases sign.negative <;> decide
  · exact isJoint_of_isGap (written c blank)

theorem EndsOperand.append {gap : List Char} (blank : ∀ c ∈ gap, isGap c) (ends : EndsOperand rest) :
    EndsOperand (gap ++ rest) := by
  cases gap with
  | nil => exact ends
  | cons c gap =>
    rintro d ⟨⟩
    exact isJoint_of_isGap (blank c List.mem_cons_self)

theorem endsOperand_othersText (others : List (Sign × Addend)) : EndsOperand (othersText state others) := by
  cases others with
  | nil => simp [EndsOperand, othersText]
  | cons other others =>
    rintro c ⟨⟩
    cases other.1.negative <;> decide

/-- An operand starts with a digit or with the `d` of its dice. -/
theorem operand_text_eq_cons (state : Advantage) {operand : Operand} (written : operand.Written) :
    ∃ c cs, operand.text state = c :: cs ∧ (c.isDigit ∨ c = 'd') := by
  cases operand with
  | integer digits =>
    obtain ⟨present, all⟩ := written
    obtain ⟨c, digits, rfl⟩ := List.exists_cons_of_ne_nil present
    exact ⟨c, digits, rfl, Or.inl (all c List.mem_cons_self)⟩
  | dice count sides =>
    cases count with
    | nil => exact ⟨'d', sides, rfl, Or.inr rfl⟩
    | cons c count => exact ⟨c, count ++ 'd' :: sides, rfl, Or.inl (written.1 c List.mem_cons_self)⟩
  | d20 counted => cases state <;> cases counted <;> exact ⟨_, _, rfl, by decide⟩

theorem trim_text_ne_nil (state : Advantage) {sum : SignedSum} (written : sum.Written) :
    Text.trim (sum.text state) ≠ [] := by
  obtain ⟨c, cs, eq, starts⟩ := operand_text_eq_cons state written.1.2.1
  have member : c ∈ sum.text state := by
    simp [SignedSum.text, Addend.text, eq]
  intro none
  have blank := Text.strip_eq_nil_iff.mp none c member
  have solid : ∀ d ∈ asciiDigits, isBlank d = false := forall_of_all (by decide)
  rcases starts with digit | rfl
  · rw [solid c (mem_asciiDigits digit)] at blank
    cases blank
  · exact absurd blank (by decide)

end Joints

section Meaning

/-- The operands of a sum from left to right. -/
def SignedSum.operands (sum : SignedSum) : List Operand :=
  sum.first.operand :: sum.others.map fun other => other.2.operand

def Operand.isD20 : Operand → Bool
  | .d20 _ => true
  | _ => false

/-- Dice without a count are one die. -/
def countOf (digits : List Char) : Nat := if digits.isEmpty then 1 else digitsNumber digits

/-- How many dice an operand rolls, and with how many sides. -/
def Operand.rolls? (state : Advantage) : Operand → Option (Nat × Nat)
  | .integer _ => none
  | .dice count sides => some (countOf count, digitsNumber sides)
  | .d20 _ => some (if state.highest?.isSome then 2 else 1, decidingSides)

/-- The dice of operands before the first single d20. -/
def diceBefore (operands : List Operand) : Nat :=
  ((operands.takeWhile fun operand => !operand.isD20).map fun operand =>
    ((operand.rolls? .normal).map Prod.fst).getD 0).sum

def SignedSum.diceBefore (sum : SignedSum) : Nat := Dice.diceBefore sum.operands

/-- The signs in front of the addend make it negative. -/
def Addend.isNegative (addend : Addend) : Bool :=
  addend.signs.foldr (fun sign negative => sign.negative ^^ negative) false

/-- The operands of a sum, each with whether it is taken off. -/
def SignedSum.terms (sum : SignedSum) : List (Bool × Operand) :=
  (sum.first.isNegative, sum.first.operand) ::
    sum.others.map fun (sign, addend) => (sign.negative ^^ addend.isNegative, addend.operand)

/-- What terms come to with the kept faces of their dice, which are listed for one term after the other. -/
def totalOf : List (Bool × Operand) → List (List Nat) → Int
  | [], _ => 0
  | (negative, .integer digits) :: terms, kept => signedInteger negative (digitsNumber digits) + totalOf terms kept
  | (negative, _) :: terms, kept => signedInteger negative (kept.headD []).sum + totalOf terms kept.tail

end Meaning

end Dice

end HeroSheet
