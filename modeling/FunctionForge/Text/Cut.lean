/-!
# Cutting and replacing

Texts are cut at the first or at the last occurrence of a character, and occurrences of a pattern
are replaced from left to right, without overlaps, and without looking into what replaced them.
-/

namespace FunctionForge.Text

/-! ### Cutting at a character -/

/-- What stands before and after the first `mark`, if there is one. -/
def splitFirst (mark : Char) : List Char → Option (List Char × List Char)
  | [] => none
  | c :: rest =>
    if c = mark then some ([], rest)
    else (splitFirst mark rest).map fun (before, after) => (c :: before, after)

/-- What stands before and after the first `mark` of a string, if there is one. -/
def cutFirst (mark : Char) (text : String) : Option (String × String) :=
  (splitFirst mark text.toList).map fun (before, after) =>
    (String.ofList before, String.ofList after)

/-- The pieces between the occurrences of `mark`: one more than there are occurrences. -/
def pieces (mark : Char) : List Char → List (List Char)
  | [] => [[]]
  | c :: rest =>
    if c = mark then [] :: pieces mark rest
    else
      match pieces mark rest with
      | piece :: more => (c :: piece) :: more
      | [] => [[c]]

/-- The pieces of a string between the occurrences of `mark`. -/
def cut (mark : Char) (text : String) : List String :=
  (pieces mark text.toList).map String.ofList

/-- What stands after the last `mark`; the whole text if there is none. -/
def afterLast (mark : Char) (text : List Char) : List Char :=
  (text.reverse.takeWhile (· != mark)).reverse

/-- What a text holds after `lead`, if it starts with it. -/
def dropLead? (lead text : String) : Option String :=
  if lead.toList.isPrefixOf text.toList then
    some (String.ofList (text.toList.drop lead.toList.length))
  else none

/-- Whether a text starts with `lead`. -/
def startsWith (lead text : String) : Bool :=
  lead.toList.isPrefixOf text.toList

/-- A text without the occurrences of `mark` at its two ends. -/
def stripMark (mark : Char) (text : String) : String :=
  String.ofList
    (((text.toList.dropWhile (· == mark)).reverse.dropWhile (· == mark)).reverse)

/-! ### Replacing a pattern -/

/-- Replaces `pattern` in a text of which the first `skip` characters are already dealt with. -/
def replaceFrom (pattern new : List Char) : Nat → List Char → List Char
  | _, [] => []
  | skip + 1, _ :: rest => replaceFrom pattern new skip rest
  | 0, c :: rest =>
    if pattern.isPrefixOf (c :: rest) then
      new ++ replaceFrom pattern new (pattern.length - 1) rest
    else c :: replaceFrom pattern new 0 rest

/-- Replaces every occurrence of a nonempty pattern, from left to right. -/
def replaceAll (pattern new text : String) : String :=
  String.ofList (replaceFrom pattern.toList new.toList 0 text.toList)

/-- Whether a pattern occurs in a list of characters. -/
def occursIn (pattern : List Char) : List Char → Bool
  | [] => pattern.isEmpty
  | c :: rest => pattern.isPrefixOf (c :: rest) || occursIn pattern rest

/-- Whether a pattern occurs in a text. -/
def contains (pattern text : String) : Bool :=
  occursIn pattern.toList text.toList

/-! ### ASCII case -/

/-- A text with its ASCII capital letters in lower case. -/
def asciiLower (text : String) : String :=
  String.ofList (text.toList.map Char.toLower)

/-- Whether two texts differ in the case of ASCII letters only. -/
def sameIgnoringCase (a b : String) : Bool :=
  asciiLower a == asciiLower b

/-- The strings of a list, one after the other, with `separator` between them. -/
def join (separator : String) : List String → String
  | [] => ""
  | [last] => last
  | first :: rest => first ++ separator ++ join separator rest

end FunctionForge.Text
