import FunctionForge.Number.Double

/-!
# Nodes

`Node` is a marked-up document as it stands on the page: scalars, sequences, mappings that keep the
order and the repetitions of their keys, and aliases. What a scalar means depends on the place it
stands at. A place that takes anything reads it as an `Atom`; a place that takes a text reads the
text; a place whose value may be absent asks whether the scalar stands for nothing. `Scalar` holds
all these readings, so that the two notations for documents differ only in how they make scalars.

`Source` is a whole document: its root, the nodes that aliases point at, the bounds on how deep and
how often it may be entered, and what its notation leaves to records.
-/

namespace FunctionForge.Markup

/-- What a scalar is where anything is accepted. -/
inductive Atom where
  | null
  | bool (b : Bool)
  | number (n : Number)
  /-- The integer zero with a minus sign, which is a number but no natural one. -/
  | minusZero
  /-- An infinity, or no number at all. -/
  | unbounded
  | string (s : String)
  deriving Repr, DecidableEq

/-- A scalar with the readings that different places of a document take of it. -/
structure Scalar where
  /-- What it is where anything is accepted; none if it can be passed over but not be read. -/
  atom : Option Atom
  /-- What it is where a text is expected. -/
  text : Option String
  /-- Whether it stands for an absent value; none if that cannot be told. -/
  isAbsent : Option Bool
  /-- Whether nothing is written, which counts as an empty sequence or mapping. -/
  isBlank : Bool
  /-- What it is where a natural number is expected. -/
  natural : Option Nat
  deriving Repr, DecidableEq

/-- A document as it stands on the page. -/
inductive Node where
  | scalar (s : Scalar)
  /-- A sequence, and whether it has a tag of its own, so that only a place that expects a sequence
  accepts it. -/
  | sequence (tagged : Bool) (items : List Node)
  /-- A mapping, and whether it has a tag of its own. -/
  | mapping (tagged : Bool) (entries : List (Node × Node))
  /-- Stands for the node with the anchor of this number. -/
  | alias (anchor : Nat)
  deriving Repr

/-- A document as it is read. -/
structure Source where
  root : Node
  /-- The nodes with an anchor. -/
  anchors : List (Nat × Node)
  /-- How many aliases may be followed. -/
  jumps : Nat
  /-- How many sequences and mappings may be entered, one inside the other. -/
  depth : Nat
  /-- Whether a record may be written as the sequence of its parts. -/
  listsRecords : Bool
  deriving Repr

end FunctionForge.Markup
