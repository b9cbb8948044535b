import Launcher.Common.JsonCpp

set_option autoImplicit false

/-! # Request bodies

`app/JsonBody.cpp`: what the controllers read from the JSON object a request comes with. A field
that does not read is an `ApiException`, which answers the request with its error. -/

namespace Launcher

open Lib

/-- `requireJsonObject`, of what `getJsonObject` makes of the body. -/
def requireJsonObject : Option Json → Result Json
  | none => failure .InvalidInput
      (ascii "the request body must be a JSON object with content-type application/json")
  | some body =>
      if !JsonValue.isObject body then
        failure .InvalidInput (ascii "the request body must be a JSON object")
      else .ok body

theorem requireJsonObject_ok {request : Option Json} {body : Json}
    (h : requireJsonObject request = .ok body) :
    request = some body ∧ JsonValue.isObject body = true := by
  cases request with
  | none => cases h
  | some value =>
      cases hobject : JsonValue.isObject value with
      | false => simp [requireJsonObject, hobject, failure] at h
      | true =>
          simp only [requireJsonObject, hobject, Bool.not_true, Bool.false_eq_true, if_false,
            Except.ok.injEq] at h
          subst h
          exact ⟨rfl, hobject⟩

def requireInt64 (body : Json) (field : Bytes) : Except LogicError (Result Int) := do
  let present ← JsonValue.isMember body field
  let value := JsonValue.member body field
  if !present || !JsonValue.isNumeric value then
    return failure .InvalidInput (field ++ ascii " is required and must be a number")
  if !JsonValue.isIntegral value || !JsonValue.isInt64 value then
    return failure .InvalidInput (field ++ ascii " must be a whole number that fits in 64 bits")
  return .ok (JsonValue.asInteger value)

end Launcher
