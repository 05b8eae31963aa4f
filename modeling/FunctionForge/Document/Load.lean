import FunctionForge.Document.Decode
import FunctionForge.Files.Tree
import FunctionForge.Markup.Json
import FunctionForge.Markup.Yaml.Document

/-!
# Loading documents

A document is written in JSON or in YAML; the extension of its file tells which. `load` gives an API
document, whose version has to be 3, and `loadValue` any document as a value.
-/

namespace FunctionForge.Document

open Files (FileError FileTree Path)
open Markup (Place Reading Source)

/-- The formats of documents. -/
inductive Format where
  | json
  | yaml
  deriving Repr, DecidableEq

/-- Why a document cannot be used. -/
inductive LoadError where
  /-- It is not well formed, or not what is expected. -/
  | malformed (form : Format)
  | unreadable (path : Path) (cause : FileError)
  | unsupportedVersion (version : String)
  deriving Repr, DecidableEq

/-- The message of an error. What is wrong with a malformed document is not said. -/
def LoadError.message : LoadError → String
  | .malformed .json => "failed to parse JSON"
  | .malformed .yaml => "failed to parse YAML"
  | .unreadable path cause => "failed to read " ++ path.text ++ ": " ++ cause.message
  | .unsupportedVersion version => "unsupported OpenAPI version: " ++ version

/-- What lies behind an error. -/
def LoadError.causes : LoadError → List String
  | .unreadable _ cause => [cause.message]
  | _ => []

namespace Format

/-- The format of a file. -/
def ofPath (path : Path) : Format :=
  match path.extension? with
  | some extension => if Text.sameIgnoringCase extension "json" then .json else .yaml
  | none => .yaml

/-- A text as a marked-up document. -/
def source? : Format → String → Option Source
  | .json, text => Markup.Json.read? text
  | .yaml, text => Markup.Yaml.read? text

/-- Reads a text. -/
def read {α : Type} (form : Format) (reading : Place → Reading α) (text : String) :
    Except LoadError α :=
  match form.source? text with
  | some source =>
    match source.read? reading with
    | some result => .ok result
    | none => .error (.malformed form)
  | none => .error (.malformed form)

end Format

/-- The API document that a text writes. -/
def parse (form : Format) (text : String) : Except LoadError ApiDocument := do
  let document ← form.read Decode.apiDocument text
  if Text.startsWith "3." document.openapi then return document
  else throw (.unsupportedVersion document.openapi)

/-- The text of a file. -/
def readFile (files : FileTree) (path : Path) : Except LoadError String :=
  match files.read path with
  | .ok text => .ok text
  | .error cause => .error (.unreadable path cause)

/-- The API document in a file. -/
def load (files : FileTree) (path : Path) : Except LoadError ApiDocument := do
  parse (Format.ofPath path) (← readFile files path)

/-- The value that a file holds. -/
def loadValue (files : FileTree) (path : Path) : Except LoadError Value := do
  (Format.ofPath path).read Place.value (← readFile files path)

end FunctionForge.Document
