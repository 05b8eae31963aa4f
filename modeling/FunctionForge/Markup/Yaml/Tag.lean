/-!
# Tags

A tag says what a node of a YAML text has to be. Its text may hold bytes that are written as escapes
and make up no character; `TagText` keeps a place for them. `Tag.ofText` tells the kinds of tags
apart that make a difference: four tags of the core schema, tags of one's own, which start with `!`,
and all others.
-/

namespace FunctionForge.Markup.Yaml

/-- The text of a tag, in which bytes that make up no character leave an empty place. -/
abbrev TagText := List (Option Char)

namespace TagText

/-- A text without empty places. -/
def ofString (text : String) : TagText :=
  text.toList.map some

/-- What comes before the first null character, which ends the text of a tag. -/
def untilNull (text : TagText) : TagText :=
  text.takeWhile fun place => place ≠ some (Char.ofNat 0)

end TagText

/-- What a tag asks of a node. -/
inductive Tag where
  | bool
  | int
  | float
  | null
  /-- Any other tag that does not start with `!`. -/
  | foreign
  /-- A tag that starts with `!`. -/
  | localTag
  /-- A tag that starts with `!` and has an empty place. It gives a node no meaning of its own. -/
  | garbled
  deriving Repr, DecidableEq

/-- What a tag asks, by its text. -/
def Tag.ofText (text : TagText) : Tag :=
  if text = .ofString "tag:yaml.org,2002:bool" then .bool
  else if text = .ofString "tag:yaml.org,2002:int" then .int
  else if text = .ofString "tag:yaml.org,2002:float" then .float
  else if text = .ofString "tag:yaml.org,2002:null" then .null
  else if text.head? = some (some '!') then
    if text.all Option.isSome then .localTag else .garbled
  else .foreign

end FunctionForge.Markup.Yaml
