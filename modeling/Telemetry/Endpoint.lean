import Telemetry.Report

/-!
# Report endpoint

A request for the reports gets the current document; any other request finds
nothing. A request that does not arrive gets no response.
-/

set_option autoImplicit false

namespace Telemetry.Endpoint

structure Request where
  method : String
  target : String
  deriving DecidableEq, Repr

structure Response where
  status : Nat
  contentType : Option String
  body : String
  deriving DecidableEq, Repr

def reportPath : String := "/report"

def afterAuthority (target : List Char) : List Char :=
  match target.dropWhile Char.isAlphanum with
  | ':' :: '/' :: '/' :: rest => rest.dropWhile fun c => !"/?#".toList.contains c
  | _ => target

def path (target : String) : String :=
  String.ofList ((afterAuthority target.toList).takeWhile fun c => c != '?' && c != '#')

def respond (reports : Reports) (r : Request) : Response :=
  if r.method = "GET" ∧ path r.target = reportPath then
    ⟨200, some "application/json", reports.text⟩
  else ⟨404, none, ""⟩

inductive Network where
  | up
  | down
  deriving DecidableEq, Repr

def exchange (reports : Reports) (r : Request) : Network → Option Response
  | .up => some (respond reports r)
  | .down => none

def address (apiPort : String) : String :=
  "0.0.0.0:" ++ apiPort ++ reportPath

end Telemetry.Endpoint
