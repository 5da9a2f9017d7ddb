import HeroSheet.Settings
import HeroSheet.Sheet.Character
import HeroSheet.Text.Search

namespace HeroSheet

namespace Character

/-- The sheet has a sign of the 2024 edition: a feature or a spell that names it, resources and
features counted in uses of the proficiency bonus, features that are bonus action and reaction in one,
or ritual spells of a level. -/
def showsEdition2024 (c : Character) : Bool :=
  (c.features.any fun f => mentions f.name "2024") ||
  (c.spells.any fun s => mentions s.description "2024") ||
  (c.resources.any fun r => mentions r.name "proficiency" && mentions r.name "uses") ||
  (c.features.any fun f =>
    mentions f.description "uses = proficiency bonus" ||
      mentions f.description "proficiency bonus uses") ||
  (c.features.any fun f =>
    mentions f.description "bonus action" && mentions f.description "reaction") ||
  (c.spells.any fun s => mentions s.description "ritual" && 0 < s.baseLevel)

end Character

/-- The edition of a sheet, or the one that the settings assume. -/
def detectEdition (settings : Settings) (c : Option Character) : Edition :=
  if c.any Character.showsEdition2024 then .of2024 else settings.defaultEdition

end HeroSheet
