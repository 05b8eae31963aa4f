import FunctionForge.Config.Load

/-!
# Commands

What the program can be asked for: to run a command, or to tell about itself.
-/

namespace FunctionForge.CommandLine

open Files (Path)

/-- How an inspection is written. -/
inductive SummaryFormat where
  | yaml
  | json
  deriving Repr, DecidableEq

/-- A command. -/
inductive Command where
  /-- Generate what a configuration says. -/
  | generate (config : Path)
  /-- Tell whether all definitions of a document can be used. -/
  | validate (input : Path)
  /-- Write what a document holds. -/
  | inspect (input : Path) (form : SummaryFormat)
  /-- Write a configuration to begin with. -/
  | init (force : Bool)
  /-- Write completions for a shell. -/
  | completions (shell : String)
  deriving Repr, DecidableEq

/-- What help is given about. -/
inductive Topic where
  | program
  | generate
  | validate
  | inspect
  | init
  | completions
  | help
  deriving Repr, DecidableEq

/-- The topics that commands are, by their names. -/
def Topic.byName : List (String × Topic) :=
  [("generate", .generate), ("validate", .validate), ("inspect", .inspect), ("init", .init),
    ("completions", .completions), ("help", .help)]

/-- What the program is asked for. -/
inductive Request where
  | run (command : Command)
  | help (topic : Topic)
  | version
  /-- The arguments ask for nothing that there is. -/
  | refused
  deriving Repr, DecidableEq

end FunctionForge.CommandLine
