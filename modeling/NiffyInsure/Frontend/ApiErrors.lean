import Mathlib.Data.List.Infix

/-!
# The errors of the API client

`apiFetch` (`lib/api/client.ts`) reads the body of a response with `parseBody`, and throws
`toApiError` of a response that is not a success.  Both can throw something else: a body that is not
JSON may fail to be read, and the code and the message of the envelope are whatever the JSON has
there, of which not everything has a text.

* `toApiError_isSome_iff`: when `toApiError` does not.
-/

namespace NiffyInsure.Frontend.ApiClient

/-! ## Values of JSON -/

/-- What a JSON document is parsed to.  A number is its text; an array is built up from its items,
and an object from its properties, which have different keys. -/
inductive Json where
  | null
  | bool (b : Bool)
  | number (text : String)
  | string (s : String)
  | nil
  | cons (item rest : Json)
  | empty
  | property (key : String) (value rest : Json)
  deriving DecidableEq

namespace Json

/-- `!!value`. -/
def truthy : Json → Bool
  | null => false
  | bool b => b
  | number text => text ≠ "0"
  | string s => s ≠ ""
  | nil | cons _ _ | empty | property _ _ _ => true

/-- `value && typeof value === "object"`. -/
def isObject : Json → Bool
  | null | bool _ | number _ | string _ => false
  | nil | cons _ _ | empty | property _ _ _ => true

/-- `value[name]`, for a name that neither arrays nor all objects have. -/
def get (name : String) : Json → Option Json
  | property key value rest => if key = name then some value else rest.get name
  | _ => none

/-- `String(value)`, or the exception: an object that has a property `toString`, which is no
function then, has no text. -/
def toText : Json → Option String
  | null => some "null"
  | bool b => some (if b then "true" else "false")
  | number text => some text
  | string s => some s
  | nil => some ""
  | cons item rest =>
    (if item = null then some "" else item.toText).bind fun text =>
      if rest = nil then some text else rest.toText.map (text ++ "," ++ ·)
  | empty => some "[object Object]"
  | property key _ rest => if key = "toString" then none else rest.toText

end Json

/-! ## Errors -/

/-- `undefined` is `none`, here and below. -/
structure ApiError where
  code : Json
  message : String
  status : Nat
  details : Option Json
  deriving DecidableEq

def ERROR_MESSAGES : List (String × String) :=
  [("unauthorized", "You are not authorized. Please sign in again."),
    ("forbidden", "You do not have permission to perform this action."),
    ("not_found", "The requested resource was not found."),
    ("validation_error", "Please check the submitted data and try again."),
    ("rate_limited", "Too many requests. Please try again later."),
    ("internal_error", "Something went wrong. Please try again.")]

def FALLBACK_MESSAGE : String := "Something went wrong. Please try again."

/-- `value && …`, `value || …`: the value, if it is truthy. -/
def ifTruthy (value : Option Json) : Option Json := value.filter (·.truthy)

section ToApiError

-- the texts of what every object inherits, by the names: `ERROR_MESSAGES` has these too
variable (inherited : String → Option String)

/-- `ERROR_MESSAGES[name]`. -/
def errorMessage (name : String) : Option String := (ERROR_MESSAGES.lookup name).or (inherited name)

/-- The text of the message that `mapErrorMessage` gives for a code, or the exception. -/
def mapErrorMessage (code : Json) (fallback : Option Json) : Option String :=
  (if code.truthy then code.toText.map (errorMessage inherited) else some none).bind fun known =>
    match known with
    | some message => some message
    | none => ((ifTruthy fallback).getD (.string FALLBACK_MESSAGE)).toText

/-- Where the envelope is: an object without properties, if there is none. -/
def parseErrorEnvelope (body : Option Json) : Json :=
  match body with
  | none => .empty
  | some record =>
    if record.isObject then ((record.get "error").filter (·.isObject)).getD record else .empty

/-- The code, as it is in the envelope or by default. -/
def errorCode (status : Nat) (envelope : Json) : Json :=
  (ifTruthy (envelope.get "code")).getD
    (.string (if status = 401 then "unauthorized" else "internal_error"))

/-- `none`: it throws a `TypeError`. -/
def toApiError (status : Nat) (body : Option Json) : Option ApiError :=
  let envelope := parseErrorEnvelope body
  let code := errorCode status envelope
  (mapErrorMessage inherited code (envelope.get "message")).map fun message =>
    ⟨code, message, status, envelope.get "details"⟩

theorem truthy_errorCode (status : Nat) (envelope : Json) : (errorCode status envelope).truthy := by
  unfold errorCode ifTruthy
  cases hcode : (envelope.get "code").filter (·.truthy) with
  | some code => exact (Option.filter_eq_some_iff.mp hcode).2
  | none =>
    rw [Option.getD_none]
    split <;> decide

/-- The code of the envelope has a text; and its message has one, if it is needed. -/
def Expressible (status : Nat) (envelope : Json) : Prop :=
  ∃ name, (errorCode status envelope).toText = some name ∧
    (errorMessage inherited name = none →
      ∀ message ∈ ifTruthy (envelope.get "message"), message.toText.isSome)

/-- **When there is an `ApiError`.** -/
theorem toApiError_isSome_iff (status : Nat) (body : Option Json) :
    (toApiError inherited status body).isSome ↔
      Expressible inherited status (parseErrorEnvelope body) := by
  unfold toApiError Expressible mapErrorMessage
  rw [Option.isSome_map, if_pos (truthy_errorCode status _)]
  cases (errorCode status (parseErrorEnvelope body)).toText with
  | none => simp
  | some name =>
    rw [Option.map_some, Option.bind_some]
    cases hknown : errorMessage inherited name with
    | some message => simp [hknown]
    | none =>
      cases ifTruthy ((parseErrorEnvelope body).get "message") with
      | none => simp [Json.toText]
      | some message => simp [hknown]

end ToApiError

/-! ## Bodies -/

/-- A response of `fetch`.  `json` and `text` are what reading its body in that way gives, and
`none` if that fails. -/
structure Response where
  status : Nat
  contentType : Option String
  json : Option Json
  text : Option String
  deriving DecidableEq

namespace Response

variable (r : Response)

def ok : Bool := 200 ≤ r.status ∧ r.status ≤ 299

/-- `contentType.includes("application/json")`. -/
def isJson : Bool := "application/json".toList <:+: (r.contentType.getD "").toList

/-- The body, or the exception. -/
def parseBody : Option (Option Json) :=
  if r.status = 204 then some none
  else if r.isJson then some r.json
  else r.text.map fun text => if text = "" then none else some (.string text)

end Response

end NiffyInsure.Frontend.ApiClient
