import Slideshow.FileTree.Basic

/-
  This file defines the small commands of a shell that
  compute something: `echo`, `printf` and `test`.

  Key definitions include:
    * `Shell.echo`
    * `Shell.printf`
    * `Shell.test`
-/

namespace Slideshow

namespace Shell

------------------------------------------------------------
-- Escapes
------------------------------------------------------------

/- The byte of an escape of one letter. -/
def escapeByte? (c : Char) : Option UInt8 :=
  match c with
  | 'a' => some 7
  | 'b' => some 8
  | 't' => some 9
  | 'n' => some 10
  | 'v' => some 11
  | 'f' => some 12
  | 'r' => some 13
  | '\\' => some 92
  | _ => none

/- An octal digit. -/
def isOctal (c : Char) : Bool :=
  '0' ≤ c && c ≤ '7'

/- The byte of octal digits. -/
def octalByte (cs : List Char) : UInt8 :=
  (cs.foldl (fun n c => 8 * n + (c.toNat - '0'.toNat))
    0).toUInt8

/- The bytes of a character. -/
def charBytes (c : Char) : Bytes :=
  Utf8.encode (String.ofList [c])

/-
  Read an escape behind its backslash: its bytes and the
  characters behind it.
-/
def readEscape
    (cs : List Char) : Bytes × List Char :=
  match cs with
  | [] => ([92], [])
  | c :: rest =>
      if isOctal c then
        let digits := (cs.take 3).takeWhile isOctal
        ([octalByte digits], cs.drop digits.length)
      else
        match escapeByte? c with
        | some b => ([b], rest)
        | none => (92 :: charBytes c, rest)

/- Replace the escapes in the words of `echo`. -/
def unescape : Nat → List Char → Bytes
  | 0, _ => []
  | _, [] => []
  | _, '\\' :: 'c' :: _ => []
  | fuel + 1, '\\' :: '0' :: rest =>
      let digits := (rest.take 3).takeWhile isOctal
      octalByte digits ::
        unescape fuel (rest.drop digits.length)
  | fuel + 1, '\\' :: rest =>
      match rest with
      | c :: after =>
          match escapeByte? c with
          | some b => b :: unescape fuel after
          | none => 92 :: unescape fuel rest
      | [] => [92]
  | fuel + 1, c :: rest => charBytes c ++ unescape fuel rest

------------------------------------------------------------
-- Writing
------------------------------------------------------------

/- What `echo` writes. -/
def echo (args : List String) : Bytes :=
  match args with
  | "-n" :: rest => words rest
  | _ => words args ++ [10]
where
  words (args : List String) : Bytes :=
    let cs := (Text.join " " args).toList
    unescape (cs.length + 1) cs

/-
  One pass of `printf` over its format: the bytes, and the
  arguments that are left.
-/
def printfOnce :
    Nat → List Char → List String → Bytes × List String
  | 0, _, args => ([], args)
  | _, [], args => ([], args)
  | fuel + 1, '%' :: '%' :: rest, args =>
      let (bytes, args) := printfOnce fuel rest args
      (37 :: bytes, args)
  | fuel + 1, '%' :: c :: rest, args =>
      let zero := if c = 'd' then "0" else ""
      let (bytes, left) := printfOnce fuel rest args.tail
      (Utf8.encode (args.headD zero) ++ bytes, left)
  | fuel + 1, '\\' :: rest, args =>
      let (escape, rest) := readEscape rest
      let (bytes, args) := printfOnce fuel rest args
      (escape ++ bytes, args)
  | fuel + 1, c :: rest, args =>
      let (bytes, args) := printfOnce fuel rest args
      (charBytes c ++ bytes, args)

/- Pass over a format until no arguments are left. -/
def printfAll
    (format : List Char) :
    Nat → List String → Bytes
  | 0, _ => []
  | fuel + 1, args =>
      let (bytes, left) :=
        printfOnce (format.length + 1) format args
      if left.isEmpty || left.length == args.length then
        bytes
      else bytes ++ printfAll format fuel left

/- What `printf` writes. -/
def printf (args : List String) : Bytes :=
  match args with
  | [] => []
  | format :: args =>
      printfAll format.toList (args.length + 1) args

------------------------------------------------------------
-- Testing
------------------------------------------------------------

/- The comparison of an operator on whole numbers. -/
def compare?
    (op : String)
    (a b : Int) : Option Bool :=
  if op = "-eq" then some (a == b)
  else if op = "-ne" then some (a != b)
  else if op = "-lt" then some (a < b)
  else if op = "-le" then some (a ≤ b)
  else if op = "-gt" then some (b < a)
  else if op = "-ge" then some (b ≤ a)
  else none

/- The test of an operator on one text. -/
def testOne?
    (tree : FileTree)
    (op s : String) : Option Bool :=
  if op = "-n" then some !s.isEmpty
  else if op = "-z" then some s.isEmpty
  else if op = "-e" then some (tree.pathExists s)
  else if op = "-f" then some (tree.isFile s)
  else if op = "-d" then some (tree.isDirectory s)
  else if op = "-s" then
    match tree.read s with
    | .ok content => some !content.isEmpty
    | .error _ => some (tree.isDirectory s)
  else none

/- The outcome of a test; `none` is a test that is wrong. -/
def test?
    (tree : FileTree) :
    List String → Option Bool
  | [] => some false
  | [s] => some !s.isEmpty
  | ["!", s] => some s.isEmpty
  | [op, s] => testOne? tree op s
  | [a, "=", b] => some (a == b)
  | [a, "!=", b] => some (a != b)
  | ["!", op, s] => (testOne? tree op s).map (!·)
  | [a, op, b] => do compare? op (← a.toInt?) (← b.toInt?)
  | "!" :: rest => (test? tree rest).map (!·)
  | _ => none

/- The exit code of a test. -/
def test
    (tree : FileTree)
    (args : List String) : Nat :=
  match test? tree args with
  | some true => 0
  | some false => 1
  | none => 2

end Shell

end Slideshow
