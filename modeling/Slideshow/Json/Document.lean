import Slideshow.Decimal.Layout

/-
  This file defines the documents that the library writes
  and their indented JSON text.

  Key definitions include:
    * `Json.Document`
    * `Json.Document.indented`
-/

namespace Slideshow

namespace Json

/-
  A value to be written.  A record writes its fields in the
  given order.
-/
inductive Document where
| null
| bool (b : Bool)
| natural (n : Nat)
| real (x : Float)
| text (s : String)
| list (items : List Document)
| record (fields : List (String × Document))

namespace Document

/- An optional value, with null for its absence. -/
def optional
    {α : Type}
    (write : α → Document) :
    Option α → Document
  | none => .null
  | some a => write a

/- A value with a name: a record of one field. -/
def tagged
    (name : String)
    (value : Document) : Document :=
  .record [(name, value)]

------------------------------------------------------------
-- Strings
------------------------------------------------------------

/- The hexadecimal digit of a number below sixteen. -/
def hexDigit (n : Nat) : Char :=
  Nat.digitChar n

/- The written form of one character of a string. -/
def escape (c : Char) : List Char :=
  match c with
  | '"' => ['\\', '"']
  | '\\' => ['\\', '\\']
  | '\x08' => ['\\', 'b']
  | '\x0c' => ['\\', 'f']
  | '\n' => ['\\', 'n']
  | '\r' => ['\\', 'r']
  | '\t' => ['\\', 't']
  | _ =>
      if c.toNat < 0x20 then
        ['\\', 'u', '0', '0', hexDigit (c.toNat / 16),
          hexDigit (c.toNat % 16)]
      else [c]

/- A string between its quotes. -/
def quoted (s : String) : String :=
  String.ofList
    ('"' :: (s.toList.flatMap escape ++ ['"']))

------------------------------------------------------------
-- Indented Text
------------------------------------------------------------

/- A line break and the indentation of a level. -/
def newLine (level : Nat) : String :=
  String.ofList ('\n' :: List.replicate (2 * level) ' ')

/-
  Put the written parts of a list or record on lines of
  their own between two marks.  Without parts the marks
  stand side by side.
-/
def enclose
    (opening closing : String)
    (level : Nat)
    (parts : List String) : String :=
  if parts.isEmpty then opening ++ closing
  else
    opening ++ newLine (level + 1) ++
      (("," ++ newLine (level + 1)).intercalate parts) ++
      newLine level ++ closing

mutual

/- The text of a document at a level of indentation. -/
def textAt
    (level : Nat) :
    Document → String
  | .null => "null"
  | .bool true => "true"
  | .bool false => "false"
  | .natural n => Numeral.write n
  | .real x => Decimal.numberText x
  | .text s => quoted s
  | .list items =>
      enclose "[" "]" level (itemTexts (level + 1) items)
  | .record fields =>
      enclose "\x7b" "\x7d" level
        (fieldTexts (level + 1) fields)

/- The texts of the items of a list. -/
def itemTexts
    (level : Nat) :
    List Document → List String
  | [] => []
  | item :: rest =>
      textAt level item :: itemTexts level rest

/- The texts of the fields of a record. -/
def fieldTexts
    (level : Nat) :
    List (String × Document) → List String
  | [] => []
  | (key, value) :: rest =>
      (quoted key ++ ": " ++ textAt level value) ::
        fieldTexts level rest

end

/-
  The text of a document, indented by two spaces a level.
-/
def indented (d : Document) : String :=
  textAt 0 d

end Document

end Json

end Slideshow
