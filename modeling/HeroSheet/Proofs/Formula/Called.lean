import HeroSheet.Proofs.Formula.Limits
import HeroSheet.Proofs.Formula.Referred
import HeroSheet.Proofs.Formula.Spaced
import HeroSheet.Proofs.Number.Whole

namespace HeroSheet

namespace Formula

open PhraseReader Text

/-- The function that rounds as the wrapper does. -/
def Wrapper.function? : Wrapper → Option Function
  | .ceil => some .ceil
  | .floor => some .floor
  | .round => some .round
  | .abs => none

section Rounding

variable {w : Wrapper} {f : Function} {x : Binary64}

theorem Wrapper.exists_function (rounds : w ≠ .abs) : ∃ f, w.function? = some f := by
  cases w with
  | abs => exact absurd rfl rounds
  | _ => exact ⟨_, rfl⟩

theorem Wrapper.of_function? (function : w.function? = some f) :
    f.name = w.name ∧ Function.ofName? f.name = some f ∧ f.accepts 1 := by
  cases w with
  | abs => cases function
  | ceil | floor | round => obtain rfl := Option.some.inj function; exact ⟨rfl, rfl, rfl⟩

/-- Rounding gives an integer that is a binary number itself, and the wrapper writes it. -/
theorem Wrapper.exists_roundTo? (function : w.function? = some f) (finite : x.isFinite) :
    ∃ n, f.roundTo? x = some n ∧ Binary64.IsExact n ∧ w.apply x = integerText n := by
  cases w with
  | abs => cases function
  | ceil =>
    obtain rfl := Option.some.inj function
    obtain ⟨n, ceil⟩ := Binary64.exists_ceil? finite
    exact ⟨n, ceil, Binary64.isExact_of_ceil? ceil, by simp only [apply, ceil]⟩
  | floor =>
    obtain rfl := Option.some.inj function
    obtain ⟨n, floor⟩ := Binary64.exists_floor? finite
    exact ⟨n, floor, Binary64.isExact_of_floor? floor, by simp only [apply, floor]⟩
  | round =>
    obtain rfl := Option.some.inj function
    obtain ⟨n, round⟩ := Binary64.exists_floor? (Binary64.isFinite_add_half finite)
    have same : x.round? = some n := round
    exact ⟨n, same, Binary64.isExact_of_floor? round, by simp only [apply, same]⟩

private theorem value_call_single {e : Expr} {n : Int} (value : e.value = .ok x) (rounded : f.roundTo? x = some n)
    (finite : (Binary64.ofInt n).isFinite) : (Expr.call f [e]).value = .ok (.ofInt n) := by
  have kept : finiteOnly (.ofInt n) = .ok (.ofInt n) := by rw [finiteOnly, if_pos finite]
  cases f with
  | max | min => cases rounded
  | floor | ceil | round =>
    simp only [Expr.value]
    refine bind_eq_ok_iff.mpr ⟨x, value, ?_⟩
    rw [rounded]
    exact kept

end Rounding

section Lexes

variable {position : Nat} {cs : List Char} {tokens : List Token}

private theorem lexes_call (f : Function) (lexes : Lexes position cs tokens) :
    ∃ name opening closing front, Lexes 0 (f.name ++ '(' :: (cs ++ [')'])) (name :: opening :: (front ++ [closing])) ∧
      (name.kind = .function ∧ name.text = f.name) ∧ opening.kind = .openParen ∧ closing.kind = .closeParen ∧
        Alike front tokens := by
  have last : Lexes (f.name.length + 1 + cs.length) [')'] [⟨.closeParen, [')'], f.name.length + 1 + cs.length⟩] :=
    lexes_mark (by decide) rfl .nil
  obtain ⟨front, inside, alike⟩ := lexes.append (.mark (by decide) rfl cs []) last
  have opening := lexes_mark (c := '(') (by decide) rfl inside
  obtain ⟨c, name, written⟩ : ∃ c name, f.name = c :: name := by cases f <;> exact ⟨_, _, rfl⟩
  have here : readToken 0 c name = .ok (some ⟨.function, c :: name, 0⟩, name.length) := by
    cases f <;> obtain ⟨rfl, rfl⟩ := List.cons.inj written <;> rfl
  have parted : Parted (c :: name) ('(' :: (cs ++ [')'])) := .mark (by decide) rfl _ _
  have first := (readToken_append parted).trans here
  refine ⟨⟨.function, f.name, 0⟩, ⟨.openParen, ['('], f.name.length⟩, ⟨.closeParen, [')'], f.name.length + 1 + cs.length⟩,
    front, ?_, ⟨rfl, rfl⟩, rfl, rfl, alike⟩
  rw [written, List.cons_append]
  rw [written, List.length_cons] at opening
  refine .step first ?_
  rw [List.drop_left, Nat.zero_add]
  exact opening

end Lexes

section Call

variable {cs : List Char} {tokens : List Token} {f : Function} {x : Binary64} {n : Int}

private theorem evaluate_of_lexes (lexes : Lexes 0 cs tokens) :
    evaluate cs = (parse tokens >>= Expr.value).mapError (Fault.inExpression cs) := by
  have read : tokenize cs = .ok tokens := mapError_eq_ok_iff.mpr (tokensFrom_of_lexes lexes)
  unfold evaluate
  rw [read]
  rfl

theorem Fault.ExceedsLimit.inExpression {fault : Fault} (exceeds : fault.ExceedsLimit) (cs : List Char) :
    (fault.inExpression cs).ExceedsLimit := by
  cases fault with
  | illFormed => exact exceeds
  | malformed cause position character expression => cases cause <;> exact exceeds

/-- A call of a text with a value comes to the integer that the function rounds it to, or to a limit. -/
theorem limited_evaluate_call (single : f.accepts 1) (named : Function.ofName? f.name = some f)
    (ok : evaluate cs = .ok x) (rounded : f.roundTo? x = some n) (finite : (Binary64.ofInt n).isFinite) :
    Limited Fault.ExceedsLimit (evaluate (f.name ++ '(' :: (cs ++ [')']))) (.ok (.ofInt n)) := by
  obtain ⟨tokens, e, lexes, parsed, value⟩ := evaluate_eq_ok_iff.mp ok
  obtain ⟨name, opening, closing, front, whole, ⟨kind, text⟩, opens, closes, alike⟩ := lexes_call f lexes
  have sound := whole.sound
  have inside : ∀ token ∈ front, token.Sound := fun token member => sound token (by simp [member])
  have again : parse front = .ok e := alike.parse lexes.sound inside parsed
  have called := limited_parse_call inside kind (text ▸ named) opens closing closes (sound closing (by simp)) single again
  rw [evaluate_of_lexes whole]
  rcases called with tree | ⟨fault, limited, exceeds⟩
  · left
    rw [tree]
    exact mapError_eq_ok_iff.mpr (value_call_single value rounded finite)
  · right
    exact ⟨_, by rw [limited]; rfl, exceeds.inExpression _⟩

end Call

end Formula

end HeroSheet
