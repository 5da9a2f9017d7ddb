import HeroSheet.Text.Blank
import HeroSheet.Text.LowerCase

namespace HeroSheet

/-- Small letters of the English alphabet, digits, blanks and colons make up a rule name. -/
def isRuleNameChar (c : Char) : Bool := c.isLower || c.isDigit || isBlank c || c == ':'

/-- The text with one space for each run of blanks. -/
def collapseBlanks : List Char → List Char
  | [] => []
  | c :: cs =>
    if isBlank c then
      if cs.head?.any isBlank then collapseBlanks cs else ' ' :: collapseBlanks cs
    else c :: collapseBlanks cs

/-- The form of a name under which rules are kept: small letters, no punctuation but colons, and single
spaces between words. -/
def normalizeRuleName (cs : List Char) : List Char :=
  Text.trim (collapseBlanks ((Text.lower cs).filter isRuleNameChar))

/-- The normal form of a string. -/
def ruleKey (name : String) : String := String.ofList (normalizeRuleName name.toList)

end HeroSheet
