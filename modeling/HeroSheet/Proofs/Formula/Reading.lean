import HeroSheet.Dice.Roll
import HeroSheet.Formula.Simplify
import HeroSheet.Proofs.Phrase

/-!
What a formula rolls. A formula is read with the usual precedence, products before sums and both from the
left; a die takes as its count the one operand directly before it, which is a numeral, a group or a call.
Its total depends on the faces of the dice.
-/

namespace HeroSheet

namespace Formula

/-- A symbol of a formula that is rolled. -/
inductive Symbol where
  | number (value : Binary64)
  | operator (op : Dice.Operator)
  | function (f : Function)
  | openParen
  | closeParen
  | comma
  | die (sides : Nat) (keeps : List Dice.Keep)
  deriving DecidableEq

/-- The operator as it stands in dice arithmetic. -/
def Operator.rolled : Operator → Dice.Operator
  | .add => .add
  | .sub => .sub
  | .mul => .mul
  | .div => .div

def Symbol.ofToken? (token : Token) : Option Symbol :=
  match token.kind with
  | .number => (readReal? token.text).map .number
  | .operator => (Operator.ofName? token.text).map fun op => .operator op.rolled
  | .function => (Function.ofName? token.text).map .function
  | .openParen => some .openParen
  | .closeParen => some .closeParen
  | .comma => some .comma

/-- The die at the front of a text with what is kept of it, and the number of their characters. -/
def readDie? (cs : List Char) : Option (Symbol × Nat) :=
  if startsDie cs then
    let sides := (cs.drop 1).takeWhile isDecimal
    let (keeps, span) := Dice.readKeeps (cs.drop (1 + sides.length))
    some (.die (digitsNumber sides) keeps, 1 + sides.length + span.width)
  else none

/-- What stands at the front of `c :: cs`: a symbol, or a blank or a note, which count for nothing; and how
many characters of `cs` belong to it. -/
def readSymbol? (c : Char) (cs : List Char) : Option (Option Symbol × Nat) :=
  match readDie? (c :: cs) with
  | some (die, width) => some (some die, width - 1)
  | none =>
    match Dice.readNotes? (c :: cs) with
    | some notes => some (none, notes.length - 1)
    | none =>
      if c = '%' then some (some (.operator .mod), 0)
      else if c = '/' ∧ cs.head? = some '/' then some (some (.operator .floorDiv), 1)
      else
        match readToken 0 c cs with
        | .ok (some token, more) => (Symbol.ofToken? token).map fun symbol => (some symbol, more)
        | .ok (none, more) => some (none, more)
        | .error _ => none

/-- The symbols of a text, unless some of it is none. -/
def symbols? : List Char → Option (List Symbol)
  | [] => some []
  | c :: cs => do
    let (symbol, more) ← readSymbol? c cs
    let symbols ← symbols? (cs.drop more)
    some (symbol.toList ++ symbols)
termination_by cs => cs.length
decreasing_by simp only [List.length_cons, List.length_drop]; omega

/-- An expression whose leaves are numbers and whose dice have counts. -/
inductive Term where
  | number (value : Binary64)
  | neg (operand : Term)
  | binary (op : Dice.Operator) (left right : Term)
  | call (f : Function) (args : List Term)
  | dice (count : Term) (sides : Nat) (keeps : List Dice.Keep)

abbrev TermReader := PhraseReader Unit Symbol Term

def addSymbol? : Symbol → Option Dice.Operator
  | .operator op => if op.isSum then some op else none
  | _ => none

def mulSymbol? : Symbol → Option Dice.Operator
  | .operator op => if op.isSum then none else some op
  | _ => none

def commaSymbol? : Symbol → Option Unit
  | .comma => some ()
  | _ => none

/-- A sum of products of factors. -/
def sumTerm (factor : TermReader) : TermReader :=
  PhraseReader.chain (PhraseReader.chain factor mulSymbol? Term.binary) addSymbol? Term.binary

/-- The arguments of a call, with commas between them. -/
def arguments (argument : TermReader) : PhraseReader Unit Symbol (List Term) :=
  PhraseReader.chain (PhraseReader.single argument) commaSymbol? fun _ before after => before ++ after

/-- An operand, or the dice whose count it is. -/
def counted (operand : Term) (symbols : List Symbol) :
    { read : Term × List Symbol // read.2.length ≤ symbols.length } :=
  match symbols with
  | .die sides keeps :: rest => ⟨(.dice operand sides keeps, rest), Nat.le_succ _⟩
  | symbols => ⟨(operand, symbols), Nat.le_refl _⟩

/-- A factor whose inner factors are read by `inner`; a die without an operand before it is one die. -/
def primaryTerm (inner : TermReader) : TermReader
  | .number value :: rest =>
    let ⟨read, bound⟩ := counted (.number value) rest
    .ok ⟨read, Nat.lt_succ_of_le bound⟩
  | .die sides keeps :: rest =>
    .ok ⟨(.dice (.number (.ofInt 1)) sides keeps, rest), Nat.lt_succ_self _⟩
  | .operator .add :: rest =>
    match inner rest with
    | .error _ => .error ()
    | .ok ⟨read, shorter⟩ => .ok ⟨read, Nat.lt_succ_of_lt shorter⟩
  | .operator .sub :: rest =>
    match inner rest with
    | .error _ => .error ()
    | .ok ⟨(operand, after), shorter⟩ => .ok ⟨(.neg operand, after), Nat.lt_succ_of_lt shorter⟩
  | .openParen :: rest =>
    match sumTerm inner rest with
    | .ok ⟨(term, .closeParen :: after), shorter⟩ =>
      let ⟨read, bound⟩ := counted term after
      .ok ⟨read, by simp at *; omega⟩
    | _ => .error ()
  | .function f :: .openParen :: rest =>
    match arguments (sumTerm inner) rest with
    | .ok ⟨(args, .closeParen :: after), shorter⟩ =>
      if f.accepts args.length then
        let ⟨read, bound⟩ := counted (.call f args) after
        .ok ⟨read, by simp at *; omega⟩
      else .error ()
    | _ => .error ()
  | _ => .error ()

/-- A factor in which factors may nest `room` deep, itself included. -/
def factorTerm : Nat → TermReader
  | 0 => fun _ => .error ()
  | room + 1 => primaryTerm (factorTerm room)

/-- The term of a whole list of symbols; no more factors can nest than there are symbols. -/
def readTerm? (symbols : List Symbol) : Option Term :=
  match sumTerm (factorTerm symbols.length) symbols with
  | .ok ⟨(term, []), _⟩ => some term
  | _ => none

def finite? (x : Binary64) : Option Binary64 := if x.isFinite then some x else none

/-- What a function gives for values. -/
def Function.result? (f : Function) (values : List Binary64) : Option Binary64 :=
  match f, values with
  | .max, first :: others => finite? (greatest first others)
  | .min, first :: others => finite? (least first others)
  | f, [value] => (f.roundTo? value).bind fun n => finite? (.ofInt n)
  | _, _ => none

/-- The total of so many dice, and how many dice were rolled by then. A negative count takes the dice
off; another count than a whole one rolls nothing. -/
def rollDice? (faces : Dice.Faces) (before : Nat) (count : Binary64) (sides : Nat)
    (keeps : List Dice.Keep) : Option (Binary64 × Nat) :=
  if count.isWhole then
    count.truncate?.bind fun number =>
      (Dice.Pool.roll faces before ⟨number.natAbs, sides, keeps⟩).toOption.bind fun read =>
        (finite? (.ofInt read.1.total)).map fun total => (if number < 0 then -total else total, read.2)
  else none

mutual

/-- The total of a term whose dice are rolled from left to right, and how many were rolled by then. -/
def Term.total (faces : Dice.Faces) (before : Nat) : Term → Option (Binary64 × Nat)
  | .number value => (finite? value).map fun x => (x, before)
  | .neg operand => do
    let (value, after) ← operand.total faces before
    (finite? (-value)).map fun x => (x, after)
  | .binary op left right => do
    let (a, between) ← left.total faces before
    let (b, after) ← right.total faces between
    if op.divides && b.isZero then none else (finite? (op.applyReal a b)).map fun x => (x, after)
  | .call f args => do
    let (values, after) ← totals faces before args
    (f.result? values).map fun x => (x, after)
  | .dice count sides keeps => do
    let (number, between) ← count.total faces before
    rollDice? faces between number sides keeps

/-- The totals of terms, in order. -/
def totals (faces : Dice.Faces) (before : Nat) : List Term → Option (List Binary64 × Nat)
  | [] => some ([], before)
  | term :: terms => do
    let (value, between) ← term.total faces before
    let (values, after) ← totals faces between terms
    some (value :: values, after)

end

/-- The number without the sign of a zero. -/
def unsignedZero (x : Binary64) : Binary64 := if x.isZero then .zero else x

/-- What symbols roll, by the faces of their dice; nothing when they make up no term. -/
def total? (faces : Dice.Faces) (symbols : List Symbol) : Option (Binary64 × Nat) :=
  (readTerm? symbols).bind fun term => term.total faces 0

/-- What a formula rolls; nothing when it cannot be read. A line end behind it does not count. -/
def rolled? (faces : Dice.Faces) (cs : List Char) : Option Binary64 :=
  (symbols? (Text.withoutFinalNewline cs)).bind fun symbols =>
    (total? faces symbols).map fun read => unsignedZero read.1

end Formula

end HeroSheet
