import Slideshow.Json.Number
import Slideshow.Json.Reader

/-
  This file defines how typed values are taken from JSON
  values.

  A record may be written with its keys or as a list of its
  fields in order.  Unknown keys are passed over, and known
  keys may occur only once.

  Key definitions include:
    * `Json.Decoder`
    * `Json.Decoder.parts?`
    * `Json.Decoder.orElse`
    * `Json.Decoder.required`
    * `Json.Decoder.unit?`
-/

namespace Slideshow

namespace Json

/- A partial function from values to a type. -/
abbrev Decoder (α : Type) :=
  Value → Option α

namespace Decoder

------------------------------------------------------------
-- Leaves
------------------------------------------------------------

/- A string that is a text. -/
def text : Decoder String
  | .text t => t.whole?
  | _ => none

/- A number within the range of doubles. -/
def float : Decoder Float
  | .number n => n.toFloat?
  | _ => none

/- A whole number that fits 64 bits. -/
def word : Decoder UInt64
  | .number n => n.toWord?
  | _ => none

/- A whole number that fits 32 bits. -/
def word32 : Decoder UInt32 := fun v =>
  (word v).bind fun n =>
    if n.toNat < UInt32.size then some n.toUInt32 else none

/- A whole number that fits 8 bits. -/
def word8 : Decoder UInt8 := fun v =>
  (word v).bind fun n =>
    if n.toNat < UInt8.size then some n.toUInt8 else none

------------------------------------------------------------
-- Lists and Records
------------------------------------------------------------

/- A list of values of one type. -/
def list
    {α : Type}
    (item : Decoder α) : Decoder (List α)
  | .list items => items.mapM item
  | _ => none

/- The value of a key, unless the key is repeated. -/
def single?
    (fields : List (Text × Value))
    (key : String) : Option (Option Value) :=
  match Value.fieldsOf key fields with
  | [] => some none
  | [v] => some (some v)
  | _ => none

/-
  The fields of a record with the given keys, those that are
  absent as `none`.
-/
def parts?
    (keys : List String) : Decoder (List (Option Value))
  | .record fields =>
      if fields.all fun field => field.1.whole?.isSome then
        keys.mapM (single? fields)
      else none
  | .list items =>
      if items.length ≤ keys.length then
        some (items.map some ++
          List.replicate (keys.length - items.length) none)
      else none
  | _ => none

/- A field that stands for a default when it is absent. -/
def orElse
    {α : Type}
    (decode : Decoder α)
    (default : α) :
    Option Value → Option α
  | some v => decode v
  | none => some default

/- A field that has to be present. -/
def required
    {α : Type}
    (decode : Decoder α) :
    Option Value → Option α
  | some v => decode v
  | none => none

------------------------------------------------------------
-- Named Alternatives
------------------------------------------------------------

/-
  A name out of a fixed set, written as a string or as a
  record that maps the name to null.
-/
def unit?
    {α : Type}
    (ofName? : String → Option α) : Decoder α
  | .text t => t.whole?.bind ofName?
  | .record [(key, .null)] => key.whole?.bind ofName?
  | _ => none

end Decoder

end Json

end Slideshow
