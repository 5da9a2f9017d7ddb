/-!
Finding phrases in a text. A text is read once from left to right and cut into the phrases that a
recogniser finds and the characters between them; phrases are replaced in place.
-/

namespace HeroSheet.Text

/-- A character of the text, or a phrase that was found in it. -/
inductive Piece (α : Type) where
  | char (c : Char)
  | found (phrase : α)
  deriving Repr

/-- Looks at the character before and at the text from here on; gives the phrase found here and how
many characters it covers, at least one. -/
abbrev Recogniser (α : Type) := Option Char → List Char → Option (α × Nat)

/-- The pieces from here on; `covered` characters still belong to the phrase found last. -/
def piecesFrom {α : Type} (recognise : Recogniser α) :
    Option Char → Nat → List Char → List (Piece α)
  | _, _, [] => []
  | _, covered + 1, c :: cs => piecesFrom recognise (some c) covered cs
  | before, 0, c :: cs =>
    match recognise before (c :: cs) with
    | some (phrase, width) => .found phrase :: piecesFrom recognise (some c) (width - 1) cs
    | none => .char c :: piecesFrom recognise (some c) 0 cs

/-- The pieces of a text: phrases that do not overlap, leftmost first, and what stands between. -/
def pieces {α : Type} (recognise : Recogniser α) (cs : List Char) : List (Piece α) :=
  piecesFrom recognise none 0 cs

/-- The phrases among pieces. -/
def phrases {α : Type} (ps : List (Piece α)) : List α :=
  ps.filterMap fun
    | .char _ => none
    | .found phrase => some phrase

/-- The text of pieces, where each phrase is written as `write` says. -/
def assemble {α : Type} (write : α → List Char) (ps : List (Piece α)) : List Char :=
  ps.flatMap fun
    | .char c => [c]
    | .found phrase => write phrase

/-- The text with every phrase that is found written as `write` says. -/
def replacePhrases {α : Type} (recognise : Recogniser α) (write : α → List Char) (cs : List Char) :
    List Char :=
  assemble write (pieces recognise cs)

/-- Recognises one fixed word. -/
def word (target : List Char) : Recogniser Unit := fun _ cs =>
  if target.isPrefixOf cs then some ((), target.length) else none

/-- The text with `new` for every occurrence of `old`. -/
def replaceAll (old new cs : List Char) : List Char :=
  replacePhrases (word old) (fun _ => new) cs

/-- The text without the occurrences of a word. -/
def removeAll (old cs : List Char) : List Char := replaceAll old [] cs

/-- The word occurs in the text. -/
def contains (target : List Char) : List Char → Bool
  | [] => target.isEmpty
  | c :: cs => target.isPrefixOf (c :: cs) || contains target cs

/-- The part after the last occurrence of a character, or the whole text. -/
def afterLast (c : Char) (cs : List Char) : List Char :=
  (cs.reverse.takeWhile (· != c)).reverse

/-- The text without its last character, when that is a line end. -/
def withoutFinalNewline (cs : List Char) : List Char :=
  if cs.getLast? = some '\n' then cs.dropLast else cs

end HeroSheet.Text

namespace HeroSheet

/-- The word occurs in the string. -/
def mentions (s word : String) : Bool := Text.contains word.toList s.toList

end HeroSheet
