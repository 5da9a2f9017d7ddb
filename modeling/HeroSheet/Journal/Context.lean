import HeroSheet.Journal.Notice

/-!
Entries of a journal. Fields that are bound in a context stand in every entry that is made in it, unless
the event has a field of that name; long formulas are shortened.
-/

namespace HeroSheet.Journal

/-- Fields that are bound while something is resolved. -/
abbrev Context := List (String × Data)

namespace Context

/-- The fields that a character binds, on top of others. -/
def ofCharacter (c : Option Character) (extra : List (String × Data)) : Context :=
  match c with
  | none => extra
  | some c =>
    let named := Entries.put extra "character" (.text c.name)
    if c.className.isEmpty then named else Entries.put named "class_name" (.text c.className)

/-- The context with more fields bound; fields that were bound before are covered. -/
def bind (context : Context) (bound : List (String × Data)) : Context :=
  bound.foldl (fun fields (name, value) => Entries.put fields name value) context

/-- The context without fields of these names. -/
def unbind (context : Context) (bound : List (String × Data)) : Context :=
  context.filter fun e => !(bound.map (·.1)).contains e.1

/-- The fields that a block covers, as they were before it. -/
def covered (before : Context) (bound : List (String × Data)) : Context :=
  before.filter fun e => (bound.map (·.1)).contains e.1

/-- The context after a block is left: what it bound is taken off, and what it covered is bound
again. -/
def restore (inside before : Context) (bound : List (String × Data)) : Context :=
  (inside.unbind bound).bind (before.covered bound)

end Context

/-- A block in which fields are bound, and whether all fields are cleared at its end. -/
structure Block where
  bound : List (String × Data)
  clears : Bool

/-- The contexts on the way into nested blocks and out again; and the last of them. -/
def contextsFrom (before : Context) : List Block → List Context × Context
  | [] => ([], before)
  | block :: blocks =>
    let inside := before.bind block.bound
    let (seen, after) := contextsFrom inside blocks
    let left := Context.restore (if block.clears then [] else after) before block.bound
    (inside :: seen ++ [left], left)

/-- The contexts before, inside and after nested blocks. -/
def contexts (blocks : List Block) : List Context := [] :: (contextsFrom [] blocks).1

/-- The fields that may hold long formulas. -/
def formulaFields : List String := ["formula", "original", "resolved", "result"]

/-- The longest formula that is written down whole. -/
def maxFormulaLength : Nat := 120

/-- A text, cut and marked with three points when it is too long. -/
def shortened (s : String) : String :=
  let cs := s.toList
  if maxFormulaLength < cs.length then String.ofList (cs.take (maxFormulaLength - 3) ++ ['.', '.', '.'])
  else s

/-- A field as it is written down. -/
def shortenField : String × Data → String × Data
  | (name, .text s) => (name, .text (if formulaFields.contains name then shortened s else s))
  | field => field

/-- Fields with the name of the application, unless they have one, and with short formulas. -/
def tagged (application : String) (fields : List (String × Data)) : List (String × Data) :=
  let named := match Entries.get? fields "app" with
    | some _ => fields
    | none => Entries.put fields "app" (.text application)
  named.map shortenField

/-- A notice and the context in which it was made. -/
structure Entry where
  context : Context
  notice : Notice

namespace Entry

def level (e : Entry) : LogLevel := e.notice.event.level

/-- The fields of an entry; those of the event cover those of the context, and its level and title
cover both. -/
def fields (application : String) (e : Entry) : List (String × Data) :=
  let event := e.notice.event
  let own := Context.bind event.fields
    [("event", .text event.title), ("level", .text event.level.label)]
  tagged application (e.context.bind own)

end Entry

/-- Notices that were made in one context. -/
def within (context : Context) (notices : List Notice) : List Entry := notices.map (Entry.mk context)

/-- The entries of a level and above. -/
def atLeast (level : LogLevel) (entries : List Entry) : List Entry :=
  entries.filter fun e => level.rank ≤ e.level.rank

end HeroSheet.Journal
