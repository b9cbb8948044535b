import Launcher.Common.Basic
import Launcher.Lib.JsonReader

set_option autoImplicit false

/-! # jsoncpp

The server reads JSON with jsoncpp, which is not in the repository: what `Json::CharReader`
makes of a text and how `asString` writes a number are parameters. The rest of `Json::Value` is
what its documentation says, on the values the texts denote. -/

namespace Launcher

open Lib

structure JsonCpp where
  /-- `CharReader::parse`; `none` when it fails. -/
  parse : Bytes → Option Json
  /-- What `parseFromStream` writes about a text it fails on. -/
  parseErrors : Bytes → Bytes
  /-- `asString` of a number. -/
  numberText : ℚ → Bytes
  /-- `asDouble` of a number; a double is the fraction it stands for. -/
  asDouble : ℚ → ℚ

/-- Every RFC 8259 text is read to the value it denotes, and the bytes of a string above 0x1f
are passed through as they are. -/
structure JsonCpp.ReadsRfc8259 (jsoncpp : JsonCpp) : Prop where
  parse : ∀ text value, Json.Denotes Json.unescaped text value → jsoncpp.parse text = some value

/-- A text of the RFC in whose strings control characters may stand for themselves is refused or
read to the value it denotes. So it is by a reader that keeps to the RFC, and by one that lets
the control characters through. -/
structure JsonCpp.ReadsOrRefuses (jsoncpp : JsonCpp) : Prop where
  parse : ∀ text value, Json.Denotes Json.notDelimiter text value →
    jsoncpp.parse text = none ∨ jsoncpp.parse text = some value

/-- `Json::LogicError`; the publishing command and the start of the server do not catch it. -/
structure LogicError where
  what : Bytes
  deriving DecidableEq, Repr

namespace JsonValue

def isObject : Json → Bool
  | .object _ => true
  | _ => false

/-- `isMember`, which goes through `find`. -/
def isMember (value : Json) (key : Bytes) : Except LogicError Bool :=
  match value with
  | .null => .ok false
  | .object members => .ok (members.any (fun m => m.1 == key))
  | _ => .error
      ⟨ascii "in Json::Value::find(begin, end): requires objectValue or nullValue"⟩

/-- `operator[]` on an object: null when the key is absent; a repeated key has been
overwritten by its last value. -/
def member (value : Json) (key : Bytes) : Json :=
  match value with
  | .object members => ((members.reverse.find? (fun m => m.1 == key)).map Prod.snd).getD .null
  | _ => .null

/-- `isInt`, `isInt64` and so on: a whole number within the range. -/
def isIntegerIn (low high : Int) : Json → Bool
  | .number q => q.den == 1 && decide (low ≤ q.num) && decide (q.num ≤ high)
  | _ => false

def isNumeric : Json → Bool
  | .number _ => true
  | _ => false

/-- `isIntegral`: a whole number that a signed or an unsigned integer of 64 bits holds. -/
def isIntegral (value : Json) : Bool := isIntegerIn (-2 ^ 63) (2 ^ 64 - 1) value

def isInt (value : Json) : Bool := isIntegerIn (-2 ^ 31) (2 ^ 31 - 1) value

def isInt64 (value : Json) : Bool := isIntegerIn (-2 ^ 63) (2 ^ 63 - 1) value

/-- `asInt` and `asInt64`, where the test above has passed. -/
def asInteger : Json → Int
  | .number q => q.num
  | _ => 0

/-- `asInt64` of a number: what is after the point is dropped. -/
def asInt64 (q : ℚ) : Except LogicError Int :=
  if q < -2 ^ 63 ∨ 2 ^ 64 ≤ q then .error ⟨ascii "double out of Int64 range"⟩
  else if (2 ^ 63 : ℚ) ≤ q then .error ⟨ascii "LargestUInt out of Int64 range"⟩
  else .ok (q.num.tdiv q.den)

/-- `asBool`: null and zero are false, the other numbers true. -/
def asBool (jsoncpp : JsonCpp) : Json → Except LogicError Bool
  | .bool b => .ok b
  | .null => .ok false
  | .number q => .ok (jsoncpp.asDouble q != 0)
  | .string _ => .error ⟨ascii "Value is not convertible to bool."⟩
  | .array _ => .error ⟨ascii "Value is not convertible to bool."⟩
  | .object _ => .error ⟨ascii "Value is not convertible to bool."⟩

def asString (jsoncpp : JsonCpp) : Json → Except LogicError Bytes
  | .null => .ok []
  | .string s => .ok s
  | .bool b => .ok (ascii (if b then "true" else "false"))
  | .number q => .ok (jsoncpp.numberText q)
  | .array _ => .error ⟨ascii "Type is not convertible to string"⟩
  | .object _ => .error ⟨ascii "Type is not convertible to string"⟩

end JsonValue

/-! ## A reader to run on

The reader of the grammar stands in for jsoncpp. -/

def referenceJson : JsonCpp where
  parse := Json.read Json.unescaped
  parseErrors := fun _ => ascii "* Line 1, Column 1\n  Syntax error: value expected.\n"
  numberText := fun q => decimal q.num
  asDouble := fun q => q

theorem referenceJson_reads : referenceJson.ReadsRfc8259 where
  parse := fun _ _ h => Json.read_complete h

/-- As jsoncpp does, this one lets control characters through. -/
def lenientJson : JsonCpp := { referenceJson with parse := Json.read Json.notDelimiter }

theorem lenientJson_parse {text : Bytes} {value : Json}
    (h : Json.Denotes Json.notDelimiter text value) : lenientJson.parse text = some value :=
  Json.read_complete h

theorem lenientJson_reads : lenientJson.ReadsOrRefuses where
  parse := fun _ _ h => Or.inr (lenientJson_parse h)

end Launcher
