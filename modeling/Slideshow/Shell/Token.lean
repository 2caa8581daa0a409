import Slideshow.Text.Chars

/-
  This file defines the tokens of a shell script: words with
  their quoting, redirections, and the operators between
  commands.

  Key definitions include:
    * `Shell.Piece`
    * `Shell.Token`
    * `Shell.tokens?`
-/

namespace Slideshow

namespace Shell

------------------------------------------------------------
-- Words
------------------------------------------------------------

/-
  A part of a word: a character, a parameter to be replaced
  by its value, or quotes around nothing.
-/
inductive Piece where
| char (c : Char) (isQuoted : Bool)
| parameter (name : String) (isQuoted : Bool)
| empty
deriving DecidableEq, Repr

/- A word before its parameters are replaced. -/
abbrev Word :=
  List Piece

/- A character that may begin the name of a parameter. -/
def isNameStart (c : Char) : Bool :=
  c.isAlpha || c == '_'

/- A character that may go on a name. -/
def isNameChar (c : Char) : Bool :=
  c.isAlphanum || c == '_'

/- A parameter whose name is a single character. -/
def isSpecialName (c : Char) : Bool :=
  c.isDigit || ['#', '@', '*', '?', '$'].contains c

/- Read what follows a dollar sign. -/
def readParameter
    (isQuoted : Bool)
    (cs : List Char) : Piece × List Char :=
  match cs with
  | [] => (.char '$' isQuoted, [])
  | c :: rest =>
      if c = '\x7b' then
        let name := rest.takeWhile (· != '\x7d')
        (.parameter (String.ofList name) isQuoted,
          rest.drop (name.length + 1))
      else if isSpecialName c then
        (.parameter (String.ofList [c]) isQuoted, rest)
      else if isNameStart c then
        let name := cs.takeWhile isNameChar
        (.parameter (String.ofList name) isQuoted,
          cs.drop name.length)
      else (.char '$' isQuoted, cs)

/- The quoted characters of a text. -/
def quotedWord (cs : List Char) : Word :=
  if cs.isEmpty then [.empty]
  else cs.map fun c => .char c true

/- Read up to the closing single quote. -/
def readSingle?
    (cs : List Char) : Option (Word × List Char) :=
  let text := cs.takeWhile (· != '\'')
  match cs.drop text.length with
  | _ :: rest => some (quotedWord text, rest)
  | [] => none

/- A character that a backslash quotes in double quotes. -/
def isDoubleEscape (c : Char) : Bool :=
  ['$', '"', '\\', '\x60'].contains c

/- Read up to the closing double quote. -/
def readDouble? :
    Nat → List Char → Option (Word × List Char)
  | _, '"' :: rest => some ([], rest)
  | fuel + 1, '\\' :: c :: rest => do
      let (word, after) ← readDouble? fuel rest
      if isDoubleEscape c then
        return (.char c true :: word, after)
      else if c = '\n' then return (word, after)
      else
        return (.char '\\' true :: .char c true :: word,
          after)
  | fuel + 1, '$' :: rest => do
      let (piece, rest) := readParameter true rest
      let (word, after) ← readDouble? fuel rest
      return (piece :: word, after)
  | fuel + 1, c :: rest => do
      let (word, after) ← readDouble? fuel rest
      return (.char c true :: word, after)
  | _, _ => none

/- A character that ends a word outside quotes. -/
def endsWord (c : Char) : Bool :=
  [' ', '\t', '\n', ';', '&', '|', '<', '>', '(', ')'].contains
    c

/- Read a word up to a character that ends it. -/
def readWord? :
    Nat → List Char → Option (Word × List Char)
  | _, [] => some ([], [])
  | 0, _ => none
  | fuel + 1, c :: rest =>
      if endsWord c then some ([], c :: rest)
      else
        match c, rest with
        | '\'', _ => do
            let (text, rest) ← readSingle? rest
            let (word, after) ← readWord? fuel rest
            return (text ++ word, after)
        | '"', _ => do
            let (text, rest) ← readDouble? fuel rest
            let (word, after) ← readWord? fuel rest
            let text := if text.isEmpty then [.empty] else text
            return (text ++ word, after)
        | '\\', '\n' :: rest => readWord? fuel rest
        | '\\', d :: rest => do
            let (word, after) ← readWord? fuel rest
            return (.char d true :: word, after)
        | '$', _ => do
            let (piece, rest) := readParameter false rest
            let (word, after) ← readWord? fuel rest
            return (piece :: word, after)
        | _, _ => do
            let (word, after) ← readWord? fuel rest
            return (.char c false :: word, after)

------------------------------------------------------------
-- Tokens
------------------------------------------------------------

/- What a redirection does with its stream. -/
inductive RedirectKind where
| write
| append
| read
| copy
deriving DecidableEq, Repr

/- A token; the word behind a redirection is its target. -/
inductive Token where
| word (w : Word)
| redirect (stream : Nat) (kind : RedirectKind)
| both
| either
| separator
deriving DecidableEq, Repr

/- Read a redirection sign behind an optional digit. -/
def readRedirect? :
    List Char → Option (Token × List Char)
  | '>' :: '>' :: rest => some (.redirect 1 .append, rest)
  | '>' :: '&' :: rest => some (.redirect 1 .copy, rest)
  | '>' :: rest => some (.redirect 1 .write, rest)
  | '<' :: rest => some (.redirect 0 .read, rest)
  | d :: '>' :: rest =>
      if d.isDigit then
        let stream := d.toNat - '0'.toNat
        match rest with
        | '>' :: rest => some (.redirect stream .append, rest)
        | '&' :: rest => some (.redirect stream .copy, rest)
        | _ => some (.redirect stream .write, rest)
      else none
  | _ => none

/- The tokens of a script that can be read. -/
def tokensFrom? :
    Nat → List Char → Option (List Token)
  | _, [] => some []
  | 0, _ => none
  | fuel + 1, c :: rest =>
      match readRedirect? (c :: rest) with
      | some (token, rest) => do
          return token :: (← tokensFrom? fuel rest)
      | none =>
          match c, rest with
          | ' ', _ => tokensFrom? fuel rest
          | '\t', _ => tokensFrom? fuel rest
          | '\\', '\n' :: rest => tokensFrom? fuel rest
          | '#', _ =>
              tokensFrom? fuel (rest.dropWhile (· != '\n'))
          | '&', '&' :: rest => do
              return .both :: (← tokensFrom? fuel rest)
          | '|', '|' :: rest => do
              return .either :: (← tokensFrom? fuel rest)
          | '\n', _ => do
              return .separator :: (← tokensFrom? fuel rest)
          | ';', _ => do
              return .separator :: (← tokensFrom? fuel rest)
          | _, _ =>
              if endsWord c then none
              else do
                let (word, rest) ← readWord? fuel (c :: rest)
                return .word word :: (← tokensFrom? fuel rest)

/- The tokens of a script that can be read. -/
def tokens? (cs : List Char) : Option (List Token) :=
  tokensFrom? (cs.length + 2) cs

end Shell

end Slideshow
