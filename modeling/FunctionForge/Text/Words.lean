import FunctionForge.Text.Casing

/-!
# Words

A name is cut into words at every character that is no letter and no digit, between a lowercase
and an uppercase character, and before the last of several uppercase characters if a lowercase one
follows it. `lowerCamel` joins the words of a name again: the first in lower case, the others
capitalised.
-/

namespace FunctionForge.Text

/-- The case of the last cased character of the word that is being read. -/
inductive Trend where
  | uncased
  | lower
  | upper
  deriving Repr, DecidableEq

/-- The trend of a word after one more character. -/
def Trend.next (casing : Casing) (trend : Trend) (c : Char) : Trend :=
  if casing.isLower c then .lower else if casing.isUpper c then .upper else trend

/-- The words in a run of letters and digits, `word` in reverse being what was read of the first. -/
def caseWords (casing : Casing) (word : List Char) (trend : Trend) :
    List Char → List (List Char)
  | [] => if word.isEmpty then [] else [word.reverse]
  | [c] => [(c :: word).reverse]
  | c :: next :: rest =>
    if trend.next casing c = .lower ∧ casing.isUpper next then
      (c :: word).reverse :: caseWords casing [] .uncased (next :: rest)
    else if trend = .upper ∧ casing.isUpper c ∧ casing.isLower next then
      word.reverse :: caseWords casing [c] .uncased (next :: rest)
    else caseWords casing (c :: word) (trend.next casing c) (next :: rest)

/-- The maximal runs of letters and digits of a text, `run` in reverse being what was read of the
first. -/
def alphanumericRuns (casing : Casing) (run : List Char) : List Char → List (List Char)
  | [] => [run.reverse]
  | c :: rest =>
    if casing.isAlphanumeric c then alphanumericRuns casing (c :: run) rest
    else run.reverse :: alphanumericRuns casing [] rest

/-- The words of a text. -/
def nameWords (casing : Casing) (text : List Char) : List (List Char) :=
  (alphanumericRuns casing [] text).flatMap (caseWords casing [] .uncased)

/-- A word in lower case. A sigma that ends it takes its final form. -/
def lowerWord (casing : Casing) : List Char → List Char
  | [] => []
  | [c] => if c.toNat = 0x3A3 then [Char.ofNat 0x3C2] else casing.lower c
  | c :: rest => casing.lower c ++ lowerWord casing rest

/-- A word in lower case but for its first character. -/
def capitalWord (casing : Casing) : List Char → List Char
  | [] => []
  | c :: rest => casing.upper c ++ lowerWord casing rest

/-- A name as one word that starts in lower case, each further word starting with a capital. -/
def lowerCamel (text : String) : String :=
  match nameWords .unicode text.toList with
  | [] => ""
  | first :: others =>
    String.ofList (lowerWord .unicode first ++ others.flatMap (capitalWord .unicode))

end FunctionForge.Text
