/-
  This file defines the tree of a JSON document as it is
  written, before any of it is given a type.

  Key definitions include:
    * `Json.Number`
    * `Json.Text`
    * `Json.Value`
    * `Json.Value.field?`
-/

namespace Slideshow

namespace Json

------------------------------------------------------------
-- Leaves
------------------------------------------------------------

/-
  A number as written: its sign, the digits before and after
  the point, and the power of ten, each part that may be
  absent as an option.
-/
structure Number where
  negative : Bool
  whole : List Char
  fraction : Option (List Char)
  exponent : Option (Bool × List Char)
deriving DecidableEq, Repr

/-
  A string as written.  A `broken` one has an escape that
  names only half of a surrogate pair, so it is no text,
  although it may stand where nobody reads it.
-/
inductive Text where
| whole (s : String)
| broken
deriving DecidableEq, Repr

/- The text of a string that is one. -/
def Text.whole? :
    Text → Option String
  | .whole s => some s
  | .broken => none

------------------------------------------------------------
-- Trees
------------------------------------------------------------

/-
  A value.  A record keeps its fields in order, repeated
  keys included.
-/
inductive Value where
| null
| bool (b : Bool)
| number (n : Number)
| text (t : Text)
| list (items : List Value)
| record (fields : List (Text × Value))

namespace Value

/- The fields of one key, in order. -/
def fieldsOf
    (key : String)
    (fields : List (Text × Value)) : List Value :=
  (fields.filter fun field => field.1 == .whole key).map
    Prod.snd

/- The last field of one key. -/
def lastField?
    (key : String)
    (fields : List (Text × Value)) : Option Value :=
  (fieldsOf key fields).getLast?

end Value

end Json

end Slideshow
