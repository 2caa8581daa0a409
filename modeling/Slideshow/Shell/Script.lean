import Slideshow.Shell.Token

/-
  This file defines shell scripts as trees of commands and
  how they are read.

  Key definitions include:
    * `Shell.Redirect`
    * `Shell.Script`
    * `Shell.Script.read?`
-/

namespace Slideshow

namespace Shell

------------------------------------------------------------
-- Trees
------------------------------------------------------------

/- A redirection of a stream. -/
structure Redirect where
  stream : Nat
  kind : RedirectKind
  target : Word
deriving DecidableEq, Repr

/- A simple command with its assignments. -/
structure SimpleCommand where
  assignments : List (String × Word)
  words : List Word
  redirects : List Redirect
deriving DecidableEq, Repr

/- A script. -/
inductive Script where
| nothing
| simple (command : SimpleCommand)
| sequence (first second : Script)
| both (first second : Script)
| either (first second : Script)
| negated (body : Script)
| forEach
    (name : String)
    (values : List Word)
    (body : Script)
| branch (test yes no : Script)
| loop (test body : Script)
deriving Repr

------------------------------------------------------------
-- Words
------------------------------------------------------------

/- A character outside quotes. -/
def Piece.plain? : Piece → Option Char
  | .char c false => some c
  | _ => none

/- The text of a word without quotes and parameters. -/
def Word.plain? (w : Word) : Option String :=
  (w.mapM Piece.plain?).map String.ofList

/- The token is a given keyword. -/
def Token.isKeyword
    (keyword : String) :
    Token → Bool
  | .word w => Word.plain? w == some keyword
  | _ => false

/- The keywords that end a list of commands. -/
def closingKeywords : List String :=
  ["do", "done", "then", "elif", "else", "fi", "\x7d"]

/- The token ends a list of commands. -/
def Token.closes (token : Token) : Bool :=
  closingKeywords.any fun keyword => token.isKeyword keyword

/- The name and the value of an assignment. -/
def Word.assignment? (w : Word) : Option (String × Word) :=
  let name := w.takeWhile fun piece =>
    piece.plain?.any isNameChar
  match Word.plain? name, w.drop name.length with
  | some text, .char '=' false :: value =>
      if (text.toList.head?.any isNameStart) then
        some (text, value)
      else none
  | _, _ => none

------------------------------------------------------------
-- Reading
------------------------------------------------------------

/- Drop separators in front. -/
def skipSeparators (tokens : List Token) : List Token :=
  tokens.dropWhile (· == .separator)

/- Take a keyword off the front. -/
def expect?
    (keyword : String)
    (tokens : List Token) : Option (List Token) :=
  match skipSeparators tokens with
  | token :: rest =>
      if token.isKeyword keyword then some rest else none
  | [] => none

/- The words in front of other tokens. -/
def takeWords : List Token → List Word × List Token
  | .word w :: rest =>
      let (words, after) := takeWords rest
      (w :: words, after)
  | tokens => ([], tokens)

/-
  Read a simple command.  Assignments stand in front of its
  first word; `begun` says that there was one.
-/
def readSimple?
    (begun : Bool) :
    List Token → Option (SimpleCommand × List Token)
  | .word w :: rest =>
      match begun, Word.assignment? w with
      | false, some assignment => do
          let (command, after) ← readSimple? false rest
          return ({ command with
            assignments :=
              assignment :: command.assignments }, after)
      | _, _ => do
          let (command, after) ← readSimple? true rest
          return ({ command with
            words := w :: command.words }, after)
  | .redirect stream kind :: .word w :: rest => do
      let (command, after) ← readSimple? begun rest
      return ({ command with
        redirects := ⟨stream, kind, w⟩ :: command.redirects },
        after)
  | .redirect _ _ :: _ => none
  | tokens => some (⟨[], [], []⟩, tokens)

mutual

/- Read commands up to a keyword that ends them. -/
def readList? :
    Nat → List Token → Option (Script × List Token)
  | 0, _ => none
  | fuel + 1, tokens =>
      match skipSeparators tokens with
      | [] => some (.nothing, [])
      | token :: rest =>
          if token.closes then
            some (.nothing, token :: rest)
          else do
            let (first, after) ← readChain? fuel (token :: rest)
            match after with
            | .separator :: after => do
                let (second, after) ← readList? fuel after
                return (.sequence first second, after)
            | _ => return (first, after)

/- Read commands that are joined by `&&` and `||`. -/
def readChain? :
    Nat → List Token → Option (Script × List Token)
  | 0, _ => none
  | fuel + 1, tokens => do
      let (first, after) ← readCommand? fuel tokens
      readChainFrom? fuel first after

/- Go on with a chain of commands. -/
def readChainFrom? :
    Nat → Script → List Token →
      Option (Script × List Token)
  | 0, _, _ => none
  | fuel + 1, first, tokens =>
      match tokens with
      | .both :: rest => do
          let (second, after) ←
            readCommand? fuel (skipSeparators rest)
          readChainFrom? fuel (.both first second) after
      | .either :: rest => do
          let (second, after) ←
            readCommand? fuel (skipSeparators rest)
          readChainFrom? fuel (.either first second) after
      | _ => some (first, tokens)

/- Read one command. -/
def readCommand? :
    Nat → List Token → Option (Script × List Token)
  | 0, _ => none
  | fuel + 1, tokens =>
      match tokens with
      | [] => none
      | token :: rest =>
          if token.isKeyword "for" then readFor? fuel rest
          else if token.isKeyword "if" then readIf? fuel rest
          else if token.isKeyword "while" then do
            let (test, after) ← readList? fuel rest
            let (body, after) ←
              readList? fuel (← expect? "do" after)
            return (.loop test body, ← expect? "done" after)
          else if token.isKeyword "!" then do
            let (body, after) ← readCommand? fuel rest
            return (.negated body, after)
          else if token.isKeyword "\x7b" then do
            let (body, after) ← readList? fuel rest
            return (body, ← expect? "\x7d" after)
          else if token.closes then none
          else do
            let (command, after) ← readSimple? false tokens
            if command = ⟨[], [], []⟩ then none
            else return (.simple command, after)

/- Read a loop behind its first keyword. -/
def readFor? :
    Nat → List Token → Option (Script × List Token)
  | 0, _ => none
  | fuel + 1, tokens =>
      match tokens with
      | .word w :: rest => do
          let name ← Word.plain? w
          let (values, rest) :=
            match expect? "in" rest with
            | some rest => takeWords rest
            | none => ([[.parameter "@" true]], rest)
          let (body, after) ←
            readList? fuel (← expect? "do" rest)
          return (.forEach name values body,
            ← expect? "done" after)
      | _ => none

/- Read a choice behind its first keyword. -/
def readIf? :
    Nat → List Token → Option (Script × List Token)
  | 0, _ => none
  | fuel + 1, tokens => do
      let (test, after) ← readList? fuel tokens
      let (yes, after) ←
        readList? fuel (← expect? "then" after)
      match skipSeparators after with
      | token :: rest =>
          if token.isKeyword "elif" then do
            let (no, after) ← readIf? fuel rest
            return (.branch test yes no, after)
          else if token.isKeyword "else" then do
            let (no, after) ← readList? fuel rest
            return (.branch test yes no,
              ← expect? "fi" after)
          else
            return (.branch test yes .nothing,
              ← expect? "fi" after)
      | [] => none

end

/- The script of a text, if it can be read. -/
def Script.read? (cs : List Char) : Option Script := do
  let tokens ← tokens? cs
  let (script, rest) ←
    readList? (4 * tokens.length + 4) tokens
  if rest.isEmpty then return script else none

end Shell

end Slideshow
