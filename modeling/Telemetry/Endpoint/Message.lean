import Telemetry.Endpoint
import Telemetry.Text.Digits
import Telemetry.Text.Split

/-!
# Messages of the report endpoint

A request is known by the first line of its head, and a head ends with an
empty line. Every connection carries one request and one response.
-/

set_option autoImplicit false

namespace Telemetry.Endpoint

def lineEnd : String := "\r\n"

def isComplete (head : String) : Bool :=
  (Text.split '\n' head.toList).dropLast.contains ['\r']

def Request.ofHead? (head : String) : Option Request :=
  match Text.split ' ' (head.toList.takeWhile (· != '\r')) with
  | [method, target, version] =>
    if method ≠ [] ∧ target ≠ [] ∧ "HTTP/1.".toList.isPrefixOf version then
      some ⟨String.ofList method, String.ofList target⟩
    else none
  | _ => none

def reason : Nat → String
  | 200 => "OK"
  | 404 => "Not Found"
  | _ => "Bad Request"

def Response.headers (r : Response) : List (String × String) :=
  (r.contentType.map fun t => ("content-type", t)).toList
    ++ [("content-length", Text.natText r.body.utf8ByteSize), ("connection", "close")]

def Response.text (r : Response) : String :=
  "HTTP/1.1 " ++ Text.natText r.status ++ " " ++ reason r.status ++ lineEnd
    ++ String.join (r.headers.map fun h => h.1 ++ ": " ++ h.2 ++ lineEnd) ++ lineEnd ++ r.body

def badRequest : Response := ⟨400, none, ""⟩

def answer (reports : Reports) (head : String) : Response :=
  match Request.ofHead? head with
  | some r => respond reports r
  | none => badRequest

end Telemetry.Endpoint
