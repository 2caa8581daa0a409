import Slideshow.Json.Value
import Slideshow.Decimal.Reading

/-
  This file defines how JSON text is read: characters are
  grouped into tokens, and a stack of open lists and records
  turns the tokens into one value.  Nesting is not limited
  here; `Json.Value.isSound` does so for those who ask.

  Key definitions include:
    * `Json.Token`
    * `Json.tokens?`
    * `Json.Value.ofTokens?`
    * `Json.read?`
-/

namespace Slideshow

namespace Json

/- The units of JSON text. -/
inductive Token where
| openRecord
| closeRecord
| openList
| closeList
| comma
| colon
| text (t : Text)
| atom (v : Value)

------------------------------------------------------------
-- Strings
------------------------------------------------------------

/- A piece of a string: a character or half a pair. -/
inductive Piece where
| char (c : Char)
| high (n : Nat)
| low (n : Nat)

/- The character of a one-letter escape. -/
def escape? :
    Char → Option Char
  | '"' => some '"'
  | '\\' => some '\\'
  | '/' => some '/'
  | 'b' => some '\x08'
  | 'f' => some '\x0c'
  | 'n' => some '\n'
  | 'r' => some '\r'
  | 't' => some '\t'
  | _ => none

/- The value of a hexadecimal digit in either case. -/
def hexDigit?
    (c : Char) : Option Nat :=
  if '0' ≤ c ∧ c ≤ '9' then some (c.toNat - 48)
  else if 'a' ≤ c ∧ c ≤ 'f' then some (c.toNat - 87)
  else if 'A' ≤ c ∧ c ≤ 'F' then some (c.toNat - 55)
  else none

/- The piece that four hexadecimal digits name. -/
def unicodePiece?
    (a b c d : Char) : Option Piece := do
  let a ← hexDigit? a
  let b ← hexDigit? b
  let c ← hexDigit? c
  let d ← hexDigit? d
  let n := ((a * 16 + b) * 16 + c) * 16 + d
  if 0xD800 ≤ n ∧ n ≤ 0xDBFF then return .high n
  else if 0xDC00 ≤ n ∧ n ≤ 0xDFFF then return .low n
  else return .char (Char.ofNat n)

/-
  Read the pieces of a string up to its closing quote.  The
  pieces read so far are kept in reverse.
-/
def pieces?
    (done : List Piece) :
    List Char → Option (List Piece × List Char)
  | '"' :: rest => some (done.reverse, rest)
  | '\\' :: 'u' :: a :: b :: c :: d :: rest =>
      match unicodePiece? a b c d with
      | some piece => pieces? (piece :: done) rest
      | none => none
  | '\\' :: c :: rest =>
      match escape? c with
      | some c => pieces? (.char c :: done) rest
      | none => none
  | c :: rest =>
      if c.toNat < 0x20 ∨ c = '\\' then none
      else pieces? (.char c :: done) rest
  | [] => none

theorem length_of_pieces?
    (done : List Piece)
    (cs : List Char)
    (result : List Piece × List Char)
    (hRead : pieces? done cs = some result) :
    result.2.length < cs.length := by
  fun_induction pieces? done cs <;>
    simp_all <;> grind

/- Join the halves of pairs into characters. -/
def joinPieces? :
    List Piece → Option (List Char)
  | [] => some []
  | .char c :: rest => (joinPieces? rest).map (c :: ·)
  | .high h :: .low l :: rest =>
      let n := 0x10000 + (h - 0xD800) * 0x400 + (l - 0xDC00)
      (joinPieces? rest).map (Char.ofNat n :: ·)
  | _ => none

/- The string that pieces make up. -/
def Text.ofPieces (pieces : List Piece) : Text :=
  match joinPieces? pieces with
  | some cs => .whole (String.ofList cs)
  | none => .broken

------------------------------------------------------------
-- Numbers and Words
------------------------------------------------------------

/- A character that may occur in a number. -/
def isNumberChar (c : Char) : Bool :=
  Decimal.isDigit c || ['-', '+', '.', 'e', 'E'].contains c

/- A character of a word. -/
def isWordChar (c : Char) : Bool :=
  'a' ≤ c && c ≤ 'z'

/- The digits before the point: no leading zeros. -/
def isWholePart : List Char → Bool
  | [] => false
  | ['0'] => true
  | c :: cs => c != '0' && (c :: cs).all Decimal.isDigit

/- A run of digits with at least one digit. -/
def isDigits (cs : List Char) : Bool :=
  !cs.isEmpty && cs.all Decimal.isDigit

/- Split the exponent part off, if there is one. -/
def numberExponent?
    (cs : List Char) :
    Option (Option (Bool × List Char)) :=
  match cs with
  | [] => some none
  | mark :: rest =>
      let (negative, digits) := Decimal.takeSign rest
      if (mark = 'e' ∨ mark = 'E') ∧ isDigits digits then
        some (some (negative, digits))
      else none

/- Read the whole of a numeral. -/
def Number.ofChars?
    (cs : List Char) : Option Number :=
  let (negative, unsigned) :=
    match cs with
    | '-' :: rest => (true, rest)
    | _ => (false, cs)
  let whole := unsigned.takeWhile Decimal.isDigit
  let afterWhole := unsigned.dropWhile Decimal.isDigit
  let (fraction, tail) :=
    match afterWhole with
    | '.' :: rest =>
        (some (rest.takeWhile Decimal.isDigit),
          rest.dropWhile Decimal.isDigit)
    | _ => (none, afterWhole)
  let fractionFits :=
    match fraction with
    | some digits => !digits.isEmpty
    | none => true
  if isWholePart whole ∧ fractionFits then
    (numberExponent? tail).map fun exponent =>
      ⟨negative, whole, fraction, exponent⟩
  else none

/- The value that a word stands for. -/
def wordValue?
    (cs : List Char) : Option Value :=
  if cs = ['n', 'u', 'l', 'l'] then some .null
  else if cs = ['t', 'r', 'u', 'e'] then some (.bool true)
  else if cs = ['f', 'a', 'l', 's', 'e'] then
    some (.bool false)
  else none

------------------------------------------------------------
-- Tokens
------------------------------------------------------------

/- The white space between tokens. -/
def isSpace (c : Char) : Bool :=
  [' ', '\t', '\n', '\r'].contains c

/- The token of a punctuation mark. -/
def mark? :
    Char → Option Token
  | '\x7b' => some .openRecord
  | '\x7d' => some .closeRecord
  | '[' => some .openList
  | ']' => some .closeList
  | ',' => some .comma
  | ':' => some .colon
  | _ => none

theorem length_dropWhile_le
    (p : Char → Bool)
    (cs : List Char) :
    (cs.dropWhile p).length ≤ cs.length :=
  (List.dropWhile_suffix p).length_le

/- Group the characters of a text into tokens. -/
def tokens?
    (cs : List Char) : Option (List Token) :=
  match cs with
  | [] => some []
  | c :: rest =>
      if isSpace c then tokens? rest
      else
        match mark? c with
        | some token => (tokens? rest).map (token :: ·)
        | none =>
            if c = '"' then
              match _hPieces : pieces? [] rest with
              | some (pieces, rest') =>
                  (tokens? rest').map
                    (.text (Text.ofPieces pieces) :: ·)
              | none => none
            else if isWordChar c then
              match wordValue?
                  (c :: rest.takeWhile isWordChar) with
              | some v =>
                  (tokens? (rest.dropWhile isWordChar)).map
                    (.atom v :: ·)
              | none => none
            else
              match Number.ofChars?
                  (c :: rest.takeWhile isNumberChar) with
              | some n =>
                  (tokens?
                    (rest.dropWhile isNumberChar)).map
                    (.atom (.number n) :: ·)
              | none => none
termination_by cs.length
decreasing_by
  · simp
  · simp
  · have hShorter := length_of_pieces? [] rest _ _hPieces
    simp at hShorter ⊢
    omega
  · have hShorter := length_dropWhile_le isWordChar rest
    simp
    omega
  · have hShorter := length_dropWhile_le isNumberChar rest
    simp
    omega

------------------------------------------------------------
-- Values
------------------------------------------------------------

/-
  An open list or record: what it holds so far, in reverse.
  An open record also has the key whose value comes next.
-/
inductive Frame where
| items (done : List Value)
| fields (done : List (Text × Value)) (key : Text)

/- What may come next. -/
inductive Mode where
| value
| firstItem
| firstKey
| key (done : List (Text × Value))
| colon (done : List (Text × Value)) (key : Text)
| after (v : Value)

/- Begin a value. -/
def beginValue
    (stack : List Frame) :
    Token → Option (Mode × List Frame)
  | .atom v => some (.after v, stack)
  | .text t => some (.after (.text t), stack)
  | .openList => some (.firstItem, stack)
  | .openRecord => some (.firstKey, stack)
  | _ => none

/- Go on after a complete value. -/
def afterValue
    (v : Value)
    (token : Token) :
    List Frame → Option (Mode × List Frame)
  | [] => none
  | .items done :: stack =>
      match token with
      | .comma => some (.value, .items (v :: done) :: stack)
      | .closeList =>
          some (.after (.list (v :: done).reverse), stack)
      | _ => none
  | .fields done key :: stack =>
      match token with
      | .comma => some (.key ((key, v) :: done), stack)
      | .closeRecord =>
          some (.after (.record ((key, v) :: done).reverse),
            stack)
      | _ => none

/- Take one token. -/
def takeToken
    (mode : Mode)
    (stack : List Frame)
    (token : Token) :
    Option (Mode × List Frame) :=
  match mode with
  | .value => beginValue stack token
  | .firstItem =>
      match token with
      | .closeList => some (.after (.list []), stack)
      | _ => beginValue (.items [] :: stack) token
  | .firstKey =>
      match token with
      | .closeRecord => some (.after (.record []), stack)
      | .text t => some (.colon [] t, stack)
      | _ => none
  | .key done =>
      match token with
      | .text t => some (.colon done t, stack)
      | _ => none
  | .colon done key =>
      match token with
      | .colon => some (.value, .fields done key :: stack)
      | _ => none
  | .after v => afterValue v token stack

/- Take all tokens and close with one complete value. -/
def takeTokens?
    (mode : Mode)
    (stack : List Frame) :
    List Token → Option Value
  | [] =>
      match mode, stack with
      | .after v, [] => some v
      | _, _ => none
  | token :: rest =>
      match takeToken mode stack token with
      | some (mode, stack) => takeTokens? mode stack rest
      | none => none

/- The value that a list of tokens writes out. -/
def Value.ofTokens?
    (tokens : List Token) : Option Value :=
  takeTokens? .value [] tokens

/- Read a text that holds exactly one value. -/
def read? (s : String) : Option Value :=
  (tokens? s.toList).bind Value.ofTokens?

end Json

end Slideshow
