import FunctionForge.Endpoint.Basic
import FunctionForge.Notice

/-!
# Summaries of responses

What an operation gives back if all goes well is read off its responses that report success. It is
untyped if there is none, if the body of one of them cannot be used, or if they differ in type.
-/

namespace FunctionForge.Endpoint

/-- The name of the class that wraps a body together with its code. -/
def wrapperName (content : TypeRef) : String :=
  content.stem ++ "ResultWrapper"

/-- The responses that report success. -/
def successes (responses : List ResponseInfo) : List ResponseInfo :=
  responses.filter ResponseInfo.isSuccess

/-- Whether all responses of a list have the content of the first. -/
def agree : List ResponseInfo → Bool
  | [] => true
  | first :: others => others.all fun other => other.content == first.content

/-- What an operation with these responses gives back, `degraded` being the codes of those whose
body cannot be used. -/
def summarize (responses : List ResponseInfo) (degraded : List Nat) : ResponseSummary :=
  match successes responses with
  | [] => .untyped
  | first :: others =>
    if (first :: others).any fun response => degraded.contains response.code then .untyped
    else if !agree (first :: others) then .untyped
    else if others.isEmpty then .single first.content first.code
    else
      .multiCode first.content ((first :: others).map ResponseInfo.code)
        (first.content.map wrapperName)

/-- What is reported of these responses. -/
def summaryNotices (location : String) (responses : List ResponseInfo) (degraded : List Nat) :
    List Notice :=
  let good := successes responses
  if good.any fun response => degraded.contains response.code then []
  else if agree good then []
  else [.untypedResult location]

end FunctionForge.Endpoint
