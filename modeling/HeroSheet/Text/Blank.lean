namespace HeroSheet

/-- White space as Unicode has it. -/
def isWhiteSpace (c : Char) : Bool :=
  let n := c.toNat
  (9 ≤ n && n ≤ 13) || n == 32 || n == 0x85 || n == 0xA0 || n == 0x1680 ||
    (0x2000 ≤ n && n ≤ 0x200A) || n == 0x2028 || n == 0x2029 || n == 0x202F || n == 0x205F ||
    n == 0x3000

/-- The control characters that separate files, groups, records and units. -/
def isSeparator (c : Char) : Bool := 28 ≤ c.toNat && c.toNat ≤ 31

/-- White space, or a separator. -/
def isBlank (c : Char) : Bool := isWhiteSpace c || isSeparator c

namespace Text

/-- The text without the characters of a class at its end. -/
def stripEnd (inClass : Char → Bool) (cs : List Char) : List Char :=
  (cs.reverse.dropWhile inClass).reverse

/-- The text without the characters of a class at its ends. -/
def strip (inClass : Char → Bool) (cs : List Char) : List Char :=
  stripEnd inClass (cs.dropWhile inClass)

/-- The text without the blanks at its ends. -/
def trim (cs : List Char) : List Char := strip isBlank cs

end Text

end HeroSheet
