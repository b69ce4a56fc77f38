import TraceReplay.Document
import TraceReplay.Json.Reading

/-!
# JSON documents

Integers are literals without fraction and exponent; every number can be read as
a double; the text of a string, or of any key of a record, has to be well-formed.
A choice may also be written as an object with the one member `"name": null`.
-/

namespace TraceReplay.Json

def entries? : Json → Option (List (String × Json))
  | .object members => members.mapM fun (key, value) => (decodeText key).map (·, value)
  | _ => none

def text? : Json → Option String
  | .string body => decodeText body
  | _ => none

instance : Document Json where
  entries? := entries?
  items?
    | .array items => some items
    | _ => none
  integer?
    | .number literal => literal.toInt?
    | _ => none
  real?
    | .number literal => literal.toFloat?
    | _ => none
  truth?
    | .bool b => some b
    | _ => none
  text? := text?
  variant?
    | _, .object [(key, .null)] => decodeText key
    | _, value => text? value
  isNull
    | .null => true
    | _ => false

end TraceReplay.Json
