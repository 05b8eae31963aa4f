import FunctionForge.Target
import FunctionForge.Text.Lines

/-!
# Source files

What all generated source files have in common. A source is a list of lines; a line that comes from
a document may itself hold line breaks.
-/

namespace FunctionForge.CSharp

open Files (Path)

/-- A source: its lines. -/
abbrev Source := List String

/-- The text of a source. The last line is not ended. -/
def Source.text (source : Source) : String :=
  Text.join "\n" source

/-- What every generated file's name ends with. -/
def fileSuffix : String := ".generated.cs"

/-- The file of a generated type. -/
def outputFile (folder : Path) (typeName : String) (source : Source) : GeneratedFile :=
  ⟨folder.join (typeName ++ fileSuffix), source.text⟩

/-- The comment at the head of a file; `origin` tells what it was generated from. -/
def header (origin : String) : Source :=
  [ "// <auto-generated>",
    "//     Generated by oafn" ++ origin ++ ". Changes will be lost on the next run.",
    "// </auto-generated>" ]

/-- The origin of a file that is generated from a schema. -/
def fromSchema (rawName : String) : String :=
  " from \"" ++ rawName ++ "\""

/-- The lines that import namespaces. -/
def usings (imports : List String) : Source :=
  imports.map fun name => "using " ++ name ++ ";"

/-- The lines of a description, without blanks around it. -/
def docLines (text : Option String) : List String :=
  match text with
  | none => []
  | some text => (Text.lines (Text.trim text)).map Text.trimEnd

/-- A comment that documents what follows it; none if there is nothing to say. -/
def summaryComment (indent : String) (lines : List String) : Source :=
  if lines.isEmpty then []
  else
    [indent ++ "/// <summary>"] ++ lines.map (indent ++ "/// " ++ ·) ++
      [indent ++ "/// </summary>"]

/-- Adds names to a list as far as they are not in it. -/
def addImports (imports names : List String) : List String :=
  names.foldl (fun imports name => if imports.contains name then imports else imports ++ [name])
    imports

/-- The names of several lists, each once, in the order in which they come up. -/
def mergeImports (lists : List (List String)) : List String :=
  lists.foldl addImports []

end FunctionForge.CSharp
