import HeroSheet.Journal.Notice
import HeroSheet.Rule.Catalog
import HeroSheet.Rule.Edition

namespace HeroSheet.Journal

/-- About a rule that was looked up under a name. -/
def ruleNotices (name : String) (rule : Option Rule) : List Notice :=
  (rule.map (Notice.ruleMatched name)).toList

/-- About asking whether a spell is of a certain shape, which looks its rule up. -/
def spellRuleNotices (catalog : RuleCatalog) (name : String) (edition : Option Edition) :
    List Notice :=
  ruleNotices name (catalog.lookup name (some .spell) edition)

/-- About finding out the edition of a sheet. -/
def editionNotices (c : Option Character) : List Notice :=
  match c with
  | some c => if c.showsEdition2024 then [.edition2024 c.name] else []
  | none => []

end HeroSheet.Journal
