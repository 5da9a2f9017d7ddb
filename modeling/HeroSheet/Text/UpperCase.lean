namespace HeroSheet

/-- Characters beyond ASCII that have English letters for capitals. -/
def foreignCapitals : List (Char × String) :=
  [ ('ß', "SS"), ('ı', "I"), ('ſ', "S"), ('ﬀ', "FF"), ('ﬁ', "FI"), ('ﬂ', "FL"), ('ﬃ', "FFI"),
    ('ﬄ', "FFL"), ('ﬅ', "ST"), ('ﬆ', "ST") ]

/-- The capitals of a character; it stays as it is when they are not English. -/
def capitalsOf (c : Char) : List Char :=
  match foreignCapitals.lookup c with
  | some capitals => capitals.toList
  | none => [c.toUpper]

/-- A string in English capitals. -/
def capitalized (s : String) : String := String.ofList (s.toList.flatMap capitalsOf)

end HeroSheet
