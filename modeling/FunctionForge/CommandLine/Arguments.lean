import FunctionForge.CommandLine.Command

/-!
# Arguments

Reads a request off the arguments of the program. The first argument names the command; the others
are its options. An option is written `--name value`, `--name=value`, `-n value`, `-nvalue` or
`-n=value`, at most once, and a value that is an argument of its own cannot start with a dash.
Behind `--` there are no options.

The arguments are read in order, and what is asked for first counts: help that is asked for behind
an argument that makes no sense is not given.
-/

namespace FunctionForge.CommandLine

/-! ### Options -/

/-- What an option takes. -/
inductive Expectation where
  | nothing
  /-- A path, which cannot be empty. -/
  | path
  | oneOf (words : List String)
  deriving Repr, DecidableEq

/-- Whether a text can be the value of an option. -/
def Expectation.accepts : Expectation → String → Bool
  | .nothing, text => text.isEmpty
  | .path, text => !text.isEmpty
  | .oneOf words, text => words.contains text

/-- An option of a command. -/
structure Opt where
  name : String
  letter : Option Char
  expects : Expectation
  deriving Repr, DecidableEq

/-- What a command takes: options, and perhaps one of some words by itself. -/
structure Grammar where
  options : List Opt
  operand : List String
  deriving Repr, DecidableEq

/-- The name that an operand's value is kept under. -/
def operandName : String := ""

/-- What arguments come down to. -/
inductive Parsed where
  /-- The values of the options that were given. -/
  | values (given : Fields String)
  | help
  | refused
  deriving Repr, DecidableEq

/-- An argument by its shape. -/
inductive Argument where
  /-- The end of the options. -/
  | escape
  | long (name : String) (value : Option String)
  | short (letter : Char) (rest : List Char)
  | plain (text : String)
  deriving Repr, DecidableEq

/-- The shape of an argument. A single dash is plain. -/
def Argument.ofText (text : String) : Argument :=
  match text.toList with
  | ['-', '-'] => .escape
  | '-' :: '-' :: rest =>
    let body := String.ofList rest
    match Text.cutFirst '=' body with
    | some (name, value) => .long name (some value)
    | none => .long body none
  | '-' :: letter :: rest => .short letter rest
  | _ => .plain text

/-- The value that stands in one argument with the letter of its option. -/
def attachedValue : List Char → Option String
  | [] => none
  | '=' :: rest => some (String.ofList rest)
  | rest => some (String.ofList rest)

/-! ### Reading -/

namespace Grammar

/-- Gives an option a value. None if it has one already, or does not take this one. -/
def give? (given : Fields String) (option : Opt) (value : String) : Option (Fields String) :=
  if given.has option.name || !option.expects.accepts value then none
  else some (given ++ [(option.name, value)])

/-- Gives the operand a value. -/
def giveOperand? (grammar : Grammar) (given : Fields String) (word : String) :
    Option (Fields String) :=
  if grammar.operand.contains word && !given.has operandName then
    some (given ++ [(operandName, word)])
  else none

/-- What to do with an option: its value is given, or comes next. -/
def meet (given : Fields String) (option : Opt) (value : Option String) :
    Option (Fields String × Option Opt) :=
  match option.expects, value with
  | .nothing, none => (give? given option "").map (·, none)
  | .nothing, some _ => none
  | _, some value => (give? given option value).map (·, none)
  | _, none => some (given, some option)

/-- Reads operands behind the end of the options. -/
def parseOperands (grammar : Grammar) (given : Fields String) : List String → Parsed
  | [] => .values given
  | word :: rest =>
    match grammar.giveOperand? given word with
    | some given => parseOperands grammar given rest
    | none => .refused

/-- Reads arguments; `pending` is an option whose value comes next. -/
def parse (grammar : Grammar) (given : Fields String) (pending : Option Opt) :
    List String → Parsed
  | [] => if pending.isSome then .refused else .values given
  | argument :: rest =>
    match Argument.ofText argument, pending with
    | .plain word, some option =>
      match give? given option word with
      | some given => parse grammar given none rest
      | none => .refused
    | _, some _ => .refused
    | .plain word, none =>
      match grammar.giveOperand? given word with
      | some given => parse grammar given none rest
      | none => .refused
    | .escape, none => parseOperands grammar given rest
    | .long name value, none =>
      if name = "help" then if value.isSome then .refused else .help
      else
        match (grammar.options.find? (·.name = name)).bind (meet given · value) with
        | some (given, pending) => parse grammar given pending rest
        | none => .refused
    | .short letter letters, none =>
      if letter = 'h' then .help
      else
        match (grammar.options.find? (·.letter = some letter)).bind
            (meet given · (attachedValue letters)) with
        | some (given, pending) => parse grammar given pending rest
        | none => .refused

end Grammar

/-! ### Commands -/

/-- The path to a configuration. -/
def configOption : Opt := ⟨"config", some 'c', .path⟩

/-- The path to a document. -/
def inputOption : Opt := ⟨"input", some 'i', .path⟩

/-- The format of an inspection. -/
def formatOption : Opt := ⟨"format", none, .oneOf ["yaml", "json"]⟩

/-- Whether a file may be written over. -/
def forceOption : Opt := ⟨"force", none, .nothing⟩

/-- The shells that there are completions for. -/
def shells : List String := ["bash", "elvish", "fish", "powershell", "zsh"]

/-- What the command of a topic takes. -/
def Topic.grammar : Topic → Grammar
  | .generate => ⟨[configOption], []⟩
  | .validate => ⟨[inputOption], []⟩
  | .inspect => ⟨[inputOption, formatOption], []⟩
  | .init => ⟨[forceOption], []⟩
  | .completions => ⟨[], shells⟩
  | .program | .help => ⟨[], []⟩

/-- The command of a topic with these values, if none is missing. -/
def Topic.command? (given : Fields String) : Topic → Option Command
  | .generate => some (.generate ⟨(given.get? "config").getD Config.fileName⟩)
  | .validate => (given.get? "input").map fun input => .validate ⟨input⟩
  | .inspect => do
    let input ← given.get? "input"
    let form := if given.get? "format" = some "json" then SummaryFormat.json else .yaml
    return .inspect ⟨input⟩ form
  | .init => some (.init (given.has "force"))
  | .completions => (given.get? operandName).map .completions
  | .program | .help => none

/-- The request for help about a command. -/
def helpRequest : List String → Request
  | [] => .help .program
  | [name] =>
    match Topic.byName.lookup name with
    | some topic => .help topic
    | none => .refused
  | _ => .refused

/-- The request for a command with its arguments. -/
def commandRequest (topic : Topic) (arguments : List String) : Request :=
  match topic.grammar.parse [] none arguments with
  | .help => .help topic
  | .refused => .refused
  | .values given =>
    match topic.command? given with
    | some command => .run command
    | none => .refused

/-- What the program is asked for by its arguments. -/
def Request.ofArguments : List String → Request
  | [] => .refused
  | argument :: rest =>
    match Argument.ofText argument with
    | .long "help" none => .help .program
    | .long "version" none => .version
    | .short 'h' _ => .help .program
    | .short 'V' _ => .version
    | .plain name =>
      match Topic.byName.lookup name with
      | some .help => helpRequest rest
      | some topic => commandRequest topic rest
      | none => .refused
    | _ => .refused

end FunctionForge.CommandLine
