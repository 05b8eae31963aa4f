import FunctionForge.Text.Cut

/-!
# HTTP methods

The methods that a path can declare operations for. A document writes them in any case, a generated
file in one.
-/

namespace FunctionForge.Document

/-- A method that a path can declare an operation for. -/
inductive HttpMethod where
  | get
  | post
  | put
  | delete
  | patch
  | options
  | head
  | trace
  deriving Repr, DecidableEq

namespace HttpMethod

/-- The methods with their names in lower case. -/
def byKey : List (String × HttpMethod) :=
  [("get", .get), ("post", .post), ("put", .put), ("delete", .delete), ("patch", .patch),
    ("options", .options), ("head", .head), ("trace", .trace)]

/-- The method that a key of a path names, in any case. -/
def ofKey? (key : String) : Option HttpMethod :=
  byKey.lookup (Text.asciiLower key)

/-- The name of a method in capital letters. -/
def text : HttpMethod → String
  | .get => "GET"
  | .post => "POST"
  | .put => "PUT"
  | .delete => "DELETE"
  | .patch => "PATCH"
  | .options => "OPTIONS"
  | .head => "HEAD"
  | .trace => "TRACE"

/-- The name of a method in lower case. -/
def lowerText (method : HttpMethod) : String :=
  Text.asciiLower method.text

end HttpMethod

end FunctionForge.Document
