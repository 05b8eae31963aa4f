import FunctionForge.Text.Casing
import FunctionForge.Text.Cut

/-!
# Identifiers

`identifier` makes an identifier of a name: the name is cut at its separators `-` and `_`, and the
first character of every segment becomes uppercase. A separator survives as `_` where nothing else
marks the start of a segment: at either end of the name, between empty segments, and before a
character that has no other uppercase form. So nothing is lost, and an identifier made from an
identifier is the same again.

`sanitize` replaces every run of characters that are neither ASCII letters nor digits by one `_`.
-/

namespace FunctionForge.Naming

open Text (Casing)

/-! ### Identifiers -/

/-- Whether a character separates the segments of a name. -/
def isSeparator (c : Char) : Bool :=
  c == '-' || c == '_'

/-- Whether a character is a lowercase one whose uppercase form begins with another character. -/
def raises (casing : Casing) (c : Char) : Bool :=
  casing.isLower c && (casing.upper c).head? != some c

/-- How many separators of a run stay before the character that starts the next segment. At the
start of a name all of them stay. -/
def kept (casing : Casing) (atStart : Bool) (run : Nat) (c : Char) : Nat :=
  if atStart || !raises casing c then run else run - 1

/-- The identifier of the rest of a name, before which `run` separators have been read that are not
yet written. `atStart` holds until the first segment begins. -/
def identifierFrom (casing : Casing) (atStart : Bool) (run : Nat) : List Char → List Char
  | [] => List.replicate run '_'
  | c :: rest =>
    if isSeparator c then identifierFrom casing atStart (run + 1) rest
    else if atStart || run != 0 then
      List.replicate (kept casing atStart run c) '_' ++ casing.upper c ++
        identifierFrom casing false 0 rest
    else c :: identifierFrom casing false 0 rest

/-- The identifier of a name; the empty name gets a lone `_`. -/
def identifierOf (casing : Casing) (name : List Char) : List Char :=
  if name.isEmpty then ['_'] else identifierFrom casing true 0 name

/-- The identifier of a name. -/
def identifier (name : String) : String :=
  String.ofList (identifierOf .unicode name.toList)

/-! ### Other forms of a name -/

/-- A text with its first character in upper case. -/
def capitalizeChars (casing : Casing) : List Char → List Char
  | [] => []
  | c :: rest => casing.upper c ++ rest

/-- A string with its first character in upper case. -/
def capitalize (text : String) : String :=
  String.ofList (capitalizeChars .unicode text.toList)

/-- Replaces runs of characters that are neither ASCII letters nor digits by one `_`, `inRun`
telling whether the text before ends in such a run. -/
def sanitizeFrom (inRun : Bool) : List Char → List Char
  | [] => []
  | c :: rest =>
    if c.isAlphanum then c :: sanitizeFrom false rest
    else if inRun then sanitizeFrom true rest
    else '_' :: sanitizeFrom true rest

/-- A string in which each run of characters that are neither ASCII letters nor digits is one
`_`. -/
def sanitize (text : String) : String :=
  String.ofList (sanitizeFrom false text.toList)

/-- The name at the end of a reference: what stands after the last `/`. -/
def refName (path : String) : String :=
  String.ofList (Text.afterLast '/' path.toList)

/-! ### Class names -/

/-- What is written before and after the identifier in the name of a generated class. -/
structure ClassNaming where
  lead : String
  trail : String
  deriving Repr, DecidableEq

namespace ClassNaming

/-- Class names that are the bare identifiers. -/
def plain : ClassNaming := ⟨"", ""⟩

instance : Inhabited ClassNaming := ⟨plain⟩

/-- The name of the class generated for a schema. -/
def className (naming : ClassNaming) (name : String) : String :=
  naming.lead ++ identifier name ++ naming.trail

/-- The name of the class generated for the schema that a reference points at. -/
def classNameOfRef (naming : ClassNaming) (path : String) : String :=
  naming.className (refName path)

end ClassNaming

end FunctionForge.Naming
