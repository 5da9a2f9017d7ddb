import HeroSheet.Data
import HeroSheet.Entries
import HeroSheet.Number.Numeral

/-!
Recorded data from JSON text. Fields keep the places in which their names first stand; of several values
under one name the last one counts. A number without a fraction and an exponent is an integer. Infinities
and `NaN` are numbers, too.
-/

namespace HeroSheet.Json

/-- The text without the blanks at its front. -/
def skipBlanks (cs : List Char) : List Char :=
  cs.dropWhile fun c => c == ' ' || c == '\t' || c == '\n' || c == '\r'

/-- The value of a hexadecimal digit. -/
def hexDigit? (c : Char) : Option Nat :=
  if c.isDigit then some (c.toNat - 48)
  else if 'a' ≤ c && c ≤ 'f' then some (c.toNat - 87)
  else if 'A' ≤ c && c ≤ 'F' then some (c.toNat - 55)
  else none

/-- The value of hexadecimal digits. -/
def hexNumber? (cs : List Char) : Option Nat :=
  (cs.mapM hexDigit?).map fun digits => digits.foldl (fun value d => 16 * value + d) 0

/-- The character that a letter behind a backslash stands for. -/
def escaped? : Char → Option Char
  | '"' => some '"'
  | '\\' => some '\\'
  | '/' => some '/'
  | 'b' => some '\x08'
  | 'f' => some '\x0c'
  | 'n' => some '\n'
  | 'r' => some '\r'
  | 't' => some '\t'
  | _ => none

def isHighSurrogate (n : Nat) : Bool := 0xD800 ≤ n && n < 0xDC00

def isLowSurrogate (n : Nat) : Bool := 0xDC00 ≤ n && n < 0xE000

/-- The character of a code unit that stands alone; half of a pair is shown as one that is missing. -/
def unitChar (n : Nat) : Char :=
  if isHighSurrogate n || isLowSurrogate n then '\uFFFD' else Char.ofNat n

/-- The character of a pair of code units. -/
def pairChar (high low : Nat) : Char :=
  Char.ofNat (0x10000 + (high - 0xD800) * 0x400 + (low - 0xDC00))

/-- The second half of a pair that is written in front of a text. -/
def lowUnit? : List Char → Option Nat
  | '\\' :: 'u' :: a :: b :: c :: d :: _ => (hexNumber? [a, b, c, d]).filter isLowSurrogate
  | _ => none

/-- A text up to its closing quote, and what follows. The characters in front of it are given backwards;
`high` is the first half of a pair whose second half comes next. -/
def textFrom (before : List Char) (high : Option Nat) : List Char → Option (String × List Char)
  | '"' :: cs => some (String.ofList before.reverse, cs)
  | '\\' :: 'u' :: a :: b :: c :: d :: cs =>
    match hexNumber? [a, b, c, d] with
    | none => none
    | some n =>
      match high with
      | some m => textFrom (pairChar m n :: before) none cs
      | none =>
        if isHighSurrogate n && (lowUnit? cs).isSome then textFrom before (some n) cs
        else textFrom (unitChar n :: before) none cs
  | '\\' :: c :: cs =>
    match escaped? c with
    | some e => textFrom (e :: before) none cs
    | none => none
  | c :: cs => if c.toNat < 32 then none else textFrom (c :: before) none cs
  | [] => none

/-- The digits behind a point at the front of a text, and the point. -/
def fractionSpan : List Char → List Char
  | '.' :: cs => if (plainDigits cs).isEmpty then [] else '.' :: plainDigits cs
  | _ => []

/-- The exponent at the front of a text. -/
def exponentSpan : List Char → List Char
  | c :: cs =>
    let sign := cs.take (if cs.head? = some '+' ∨ cs.head? = some '-' then 1 else 0)
    let digits := plainDigits (cs.drop sign.length)
    if (c == 'e' || c == 'E') && !digits.isEmpty then c :: sign ++ digits else []
  | [] => []

/-- The number at the front of a text. -/
def number? (cs : List Char) : Option (Data × List Char) :=
  let sign := cs.take (if cs.head? = some '-' then 1 else 0)
  let unsigned := cs.drop sign.length
  let whole := if unsigned.head? = some '0' then ['0'] else plainDigits unsigned
  let fraction := fractionSpan (unsigned.drop whole.length)
  let exponent := exponentSpan (unsigned.drop (whole.length + fraction.length))
  let numeral := sign ++ whole ++ fraction ++ exponent
  let rest := cs.drop numeral.length
  if whole.isEmpty then none
  else if fraction.isEmpty && exponent.isEmpty then
    (readInteger numeral).toOption.map fun n => (.int n, rest)
  else (readReal? numeral).map fun x => (.real x, rest)

/-- Words that stand for values. -/
def constants : List (String × Data) :=
  [ ("null", .null), ("true", .flag true), ("false", .flag false), ("NaN", .real .nan),
    ("Infinity", .real (.infinite false)), ("-Infinity", .real (.infinite true)) ]

/-- The word for a value at the front of a text. -/
def constant? (cs : List Char) : Option (Data × List Char) :=
  (constants.find? fun e => e.1.toList.isPrefixOf cs).map fun e => (e.2, cs.drop e.1.length)

mutual

/-- The value at the front of a text, and what follows; `room` bounds how deep readings nest. -/
def value (room : Nat) (cs : List Char) : Option (Data × List Char) :=
  match room with
  | 0 => none
  | room + 1 =>
    match skipBlanks cs with
    | '"' :: rest => (textFrom [] none rest).map fun (s, rest) => (.text s, rest)
    | '[' :: rest =>
      match skipBlanks rest with
      | ']' :: rest => some (.list [], rest)
      | rest => items room [] rest
    | '{' :: rest =>
      match skipBlanks rest with
      | '}' :: rest => some (.fields [], rest)
      | rest => fields room [] rest
    | rest => (constant? rest).or (number? rest)

/-- A list up to its closing bracket; the items in front of it are given backwards. -/
def items (room : Nat) (before : List Data) (cs : List Char) : Option (Data × List Char) :=
  match room with
  | 0 => none
  | room + 1 =>
    match value room cs with
    | none => none
    | some (item, rest) =>
      match skipBlanks rest with
      | ',' :: rest => items room (item :: before) rest
      | ']' :: rest => some (.list (item :: before).reverse, rest)
      | _ => none

/-- A record up to its closing brace, with the fields in front of it. -/
def fields (room : Nat) (before : List (String × Data)) (cs : List Char) : Option (Data × List Char) :=
  match room with
  | 0 => none
  | room + 1 =>
    match skipBlanks cs with
    | '"' :: rest =>
      match textFrom [] none rest with
      | none => none
      | some (name, rest) =>
        match skipBlanks rest with
        | ':' :: rest =>
          match value room rest with
          | none => none
          | some (item, rest) =>
            let read := Entries.put before name item
            match skipBlanks rest with
            | ',' :: rest => fields room read rest
            | '}' :: rest => some (.fields read, rest)
            | _ => none
        | _ => none
    | _ => none

end

end HeroSheet.Json

namespace HeroSheet.Data

/-- The data that a text writes. Each character of it opens two readings at most. -/
def ofJson? (cs : List Char) : Option Data :=
  match Json.value (2 * cs.length + 1) cs with
  | some (d, rest) => if (Json.skipBlanks rest).isEmpty then some d else none
  | none => none

end HeroSheet.Data
