import AivenExamples.Data.Json

/-! Responses of web services as an HTTP client library presents them. -/

namespace AivenExamples

/-- A response; the body is missing when it is not JSON. -/
structure Response where
  status : Nat
  body : Option Json

namespace Response

/-- Whether the status is none that `raise_for_status` rejects. -/
def ok (response : Response) : Bool := !(400 ≤ response.status && response.status < 600)

/-- The method call `response.json()`. -/
def json (response : Response) : Except PyError Json :=
  match response.body with
  | some value => .ok value
  | none => .error (.valueError "Expecting value")

/-- The body parses exactly when it is JSON. -/
theorem json_eq_ok {response : Response} {value : Json} :
    response.json = .ok value ↔ response.body = some value := by
  -- Parsing raises exactly when there is no JSON body.
  cases present : response.body <;> simp [json, present]

end Response

/-- What becomes of a request: a response, or an exception when none arrives. -/
abbrev Reply := Except PyError Response

/-- The request was answered with a status that is not rejected. -/
def Reply.accepted (reply : Reply) : Bool :=
  match reply with
  | .ok response => response.ok
  | .error _ => false

end AivenExamples
