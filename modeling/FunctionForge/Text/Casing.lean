import FunctionForge.Text.CasingData

/-!
# Casing

`Casing` is what names need to know of characters: their full mappings to the other case, which may
give several characters, and the properties lowercase, uppercase and alphanumeric. Functions on
names take a `Casing`, so that what is proved of them rests on stated facts about it alone;
`Casing.unicode` is the casing of the Unicode character database.

Below `U+0080` the casing is computed from the character; above it is looked up.
-/

namespace FunctionForge.Text

/-- What names need to know of characters. -/
structure Casing where
  /-- The full uppercase mapping. -/
  upper : Char → List Char
  /-- The full lowercase mapping, regardless of what stands around the character. -/
  lower : Char → List Char
  /-- The property Lowercase. -/
  isLower : Char → Bool
  /-- The property Uppercase. -/
  isUpper : Char → Bool
  /-- The property Alphabetic, or a numeric character. -/
  isAlphanumeric : Char → Bool

namespace Casing

/-- Whether a character is listed in a table. -/
def listed (runs : Array CasingData.Run) (c : Char) : Bool :=
  (CasingData.find? runs c.toNat).isSome

/-- The image of a character under a table of single images; itself if it is not listed. -/
def image (runs : Array CasingData.Run) (c : Char) : Char :=
  match CasingData.find? runs c.toNat with
  | some run => Char.ofNat (run.apply c.toNat)
  | none => c

/-- The full uppercase mapping of a character above ASCII. -/
def upperBeyond (c : Char) : List Char :=
  match CasingData.toUpperSeveral.lookup c.toNat with
  | some images => images.map Char.ofNat
  | none => [image CasingData.toUpper c]

/-- The full lowercase mapping of a character above ASCII. Only the capital I with a dot above has
more than one character in lower case. -/
def lowerBeyond (c : Char) : List Char :=
  if c.toNat = 0x130 then [Char.ofNat 0x69, Char.ofNat 0x307] else [image CasingData.toLower c]

/-- The casing of the Unicode character database. -/
def unicode : Casing where
  upper c := if c.toNat < 0x80 then [c.toUpper] else upperBeyond c
  lower c := if c.toNat < 0x80 then [c.toLower] else lowerBeyond c
  isLower c := if c.toNat < 0x80 then c.isLower else listed CasingData.lowercase c
  isUpper c := if c.toNat < 0x80 then c.isUpper else listed CasingData.uppercase c
  isAlphanumeric c :=
    if c.toNat < 0x80 then c.isAlphanum
    else listed CasingData.alphabetic c || listed CasingData.numeric c

end Casing

end FunctionForge.Text
