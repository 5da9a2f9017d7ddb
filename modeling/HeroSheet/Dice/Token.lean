import HeroSheet.Dice.Expr
import HeroSheet.Number.Numeral

/-!
Tokens of dice expressions. Blanks may follow a token but not stand in front of the first one; a pool
is one token, and so is each annotation. Digits are those of ASCII.
-/

namespace HeroSheet.Dice

/-- A token; `digits` is the size of the longest integer in it. -/
inductive Token where
  | number (value : Amount) (digits : Nat)
  | pool (pool : Pool) (digits : Nat)
  | operator (op : Operator)
  | openParen
  | closeParen
  | notes (text : List Char)
  deriving DecidableEq

/-- A blank between tokens. -/
def isGap (c : Char) : Bool := c == ' ' || c == '\t' || c == '\x0c' || c == '\r' || c == '\n'

/-- An integer of the token has more digits than can be read. -/
def Token.isTooLong : Token → Bool
  | .number _ digits => maxIntegerDigits < digits
  | .pool _ digits => maxIntegerDigits < digits
  | _ => false

/-- What is read at the front of a text: the number of its characters, and of the digits of its longest
integer. -/
structure Span where
  width : Nat
  digits : Nat
  deriving DecidableEq, Repr

/-- One span behind another. -/
def Span.append (first second : Span) : Span :=
  ⟨first.width + second.width, max first.digits second.digits⟩

instance : Append Span := ⟨Span.append⟩

/-- The span of characters other than digits. -/
def Span.marks (width : Nat) : Span := ⟨width, 0⟩

/-- The span of an integer. -/
def Span.integer (digits : List Char) : Span := ⟨digits.length, digits.length⟩

/-- What is kept of a pool, as it is written behind it. -/
def readKeeps (cs : List Char) : List Keep × Span :=
  match cs with
  | 'k' :: end? :: rest =>
    let count := plainDigits rest
    if (end? == 'h' || end? == 'l') && !count.isEmpty then
      let (keeps, span) := readKeeps (rest.drop count.length)
      (⟨end? == 'h', digitsNumber count⟩ :: keeps, .marks 2 ++ .integer count ++ span)
    else ([], .marks 0)
  | _ => ([], .marks 0)
termination_by cs.length
decreasing_by simp only [List.length_cons, List.length_drop]; omega

/-- The dice whose count was read before, from behind the `d`; and the number of all their characters. -/
def readSides? (count : Nat) (before : Span) (cs : List Char) : Option (Token × Nat) :=
  let sides := plainDigits cs
  if sides.isEmpty then none
  else
    let (keeps, behind) := readKeeps (cs.drop sides.length)
    let span := before ++ .marks 1 ++ .integer sides ++ behind
    some (.pool ⟨count, digitsNumber sides, keeps⟩ span.digits, span.width)

/-- A number, or dice behind their count; and the number of characters. -/
def readNumber? (cs : List Char) : Option (Token × Nat) :=
  let whole := plainDigits cs
  match cs.drop whole.length with
  | 'd' :: rest => readSides? (digitsNumber whole) (.integer whole) rest
  | '.' :: rest =>
    let fraction := plainDigits rest
    if fraction.isEmpty then none
    else
      let text := whole ++ '.' :: fraction
      (readReal? text).map fun x => (.number (.real x) 0, text.length)
  | _ => some (.number (.whole (digitsNumber whole)) whole.length, whole.length)

/-- The annotation in brackets at the front of a text, as it is written. -/
def readNotes? : List Char → Option (List Char)
  | '[' :: rest =>
    let inner := rest.takeWhile fun c => c != ']' && c != '\n'
    if (rest.drop inner.length).head? = some ']' then some ('[' :: inner ++ [']']) else none
  | _ => none

/-- The token at the front of a text, and the number of its characters. -/
def readToken? (cs : List Char) : Option (Token × Nat) :=
  match cs with
  | '+' :: _ => some (.operator .add, 1)
  | '-' :: _ => some (.operator .sub, 1)
  | '*' :: _ => some (.operator .mul, 1)
  | '/' :: '/' :: _ => some (.operator .floorDiv, 2)
  | '/' :: _ => some (.operator .div, 1)
  | '%' :: _ => some (.operator .mod, 1)
  | '(' :: _ => some (.openParen, 1)
  | ')' :: _ => some (.closeParen, 1)
  | '[' :: _ => (readNotes? cs).map fun notes => (.notes notes, notes.length)
  | 'd' :: rest => readSides? 1 (.marks 0) rest
  | c :: _ => if c.isDigit then readNumber? cs else none
  | [] => none

/-- The tokens of a text, unless some of it is none. -/
def tokens? : List Char → Option (List Token)
  | [] => some []
  | c :: cs => do
    let (token, width) ← readToken? (c :: cs)
    let tokens ← tokens? ((cs.drop (width - 1)).dropWhile isGap)
    some (token :: tokens)
termination_by cs => cs.length
decreasing_by
  have gap := (List.dropWhile_suffix isGap : _ <:+ cs.drop (width - 1)).length_le
  simp at gap ⊢
  omega

end HeroSheet.Dice
