import Slideshow.Random.Source

/-
  This file defines the seeded source of random words: a
  ChaCha keystream of twelve rounds whose key is expanded
  from a 64-bit seed.

  Key definitions include:
    * `Quad`
    * `Grid.block`
    * `Keystream.ofSeed`
-/

namespace Slideshow

------------------------------------------------------------
-- Four Words Side by Side
------------------------------------------------------------

/- Four words that are computed on in parallel. -/
structure Quad where
  a : UInt32
  b : UInt32
  c : UInt32
  d : UInt32

namespace Quad

/- Combine two quads word by word. -/
def zip
    (f : UInt32 → UInt32 → UInt32)
    (x y : Quad) : Quad :=
  ⟨f x.a y.a, f x.b y.b, f x.c y.c, f x.d y.d⟩

/- Rotate each word to the left by `n` bits, 0 < n < 32. -/
def rotateBits
    (n : UInt32)
    (x : Quad) : Quad :=
  let rotate := fun w : UInt32 =>
    (w <<< n) ||| (w >>> (32 - n))
  ⟨rotate x.a, rotate x.b, rotate x.c, rotate x.d⟩

/- Move each word one place to the left. -/
def rotateWords (x : Quad) : Quad :=
  ⟨x.b, x.c, x.d, x.a⟩

/- The four words in order. -/
def toList (x : Quad) : List UInt32 :=
  [x.a, x.b, x.c, x.d]

end Quad

------------------------------------------------------------
-- Blocks
------------------------------------------------------------

/- The state of the cipher: four rows of four words. -/
structure Grid where
  first : Quad
  second : Quad
  third : Quad
  fourth : Quad

namespace Grid

/- Combine two grids word by word. -/
def zip
    (f : UInt32 → UInt32 → UInt32)
    (x y : Grid) : Grid :=
  ⟨x.first.zip f y.first, x.second.zip f y.second,
    x.third.zip f y.third, x.fourth.zip f y.fourth⟩

/- Mix the four columns. -/
def mixColumns (g : Grid) : Grid :=
  let a := g.first.zip (· + ·) g.second
  let d := (g.fourth.zip (· ^^^ ·) a).rotateBits 16
  let c := g.third.zip (· + ·) d
  let b := (g.second.zip (· ^^^ ·) c).rotateBits 12
  let a := a.zip (· + ·) b
  let d := (d.zip (· ^^^ ·) a).rotateBits 8
  let c := c.zip (· + ·) d
  let b := (b.zip (· ^^^ ·) c).rotateBits 7
  ⟨a, b, c, d⟩

/- Turn the rows so that diagonals become columns. -/
def toDiagonals (g : Grid) : Grid :=
  ⟨g.first, g.second.rotateWords,
    g.third.rotateWords.rotateWords,
    g.fourth.rotateWords.rotateWords.rotateWords⟩

/- Turn the rows back. -/
def ofDiagonals (g : Grid) : Grid :=
  ⟨g.first,
    g.second.rotateWords.rotateWords.rotateWords,
    g.third.rotateWords.rotateWords,
    g.fourth.rotateWords⟩

/- A round over the columns and one over the diagonals. -/
def doubleRound (g : Grid) : Grid :=
  g.mixColumns.toDiagonals.mixColumns.ofDiagonals

/- The words of the keystream block of a grid. -/
def block (g : Grid) : List UInt32 :=
  let mixed := (List.range 6).foldl
    (fun g _ => g.doubleRound) g
  let sum := mixed.zip (· + ·) g
  sum.first.toList ++ sum.second.toList ++
    sum.third.toList ++ sum.fourth.toList

end Grid

------------------------------------------------------------
-- Seeded Streams
------------------------------------------------------------

/-
  A keystream in progress: its two rows of key, the number
  of the next block, and the words left of the last one.
-/
structure Keystream where
  keyLow : Quad
  keyHigh : Quad
  counter : UInt64
  left : List UInt32

namespace Keystream

/- One step of the generator that expands a seed. -/
def expandStep (s : UInt64) : UInt64 :=
  s * 6364136223846793005 + 11634580027462260723

/- The key word of an expander state. -/
def expandWord (s : UInt64) : UInt32 :=
  let mixed := (((s >>> 18) ^^^ s) >>> 27).toUInt32
  let turn := (s >>> 59).toUInt32
  (mixed >>> turn) ||| (mixed <<< ((32 - turn) % 32))

/- Four key words and the expander state after them. -/
def expandQuad (s : UInt64) : Quad × UInt64 :=
  let s₁ := expandStep s
  let s₂ := expandStep s₁
  let s₃ := expandStep s₂
  let s₄ := expandStep s₃
  (⟨expandWord s₁, expandWord s₂, expandWord s₃,
    expandWord s₄⟩, s₄)

/- The stream of a seed, at its beginning. -/
def ofSeed (seed : UInt64) : Keystream :=
  let (keyLow, s) := expandQuad seed
  let (keyHigh, _) := expandQuad s
  ⟨keyLow, keyHigh, 0, []⟩

/- The grid from which a block is computed. -/
def grid
    (k : Keystream)
    (counter : UInt64) : Grid where
  first :=
    ⟨0x61707865, 0x3320646e, 0x79622d32, 0x6b206574⟩
  second := k.keyLow
  third := k.keyHigh
  fourth :=
    ⟨counter.toUInt32, (counter >>> 32).toUInt32, 0, 0⟩

/- The next word of the stream. -/
def next (k : Keystream) : UInt32 × Keystream :=
  match k.left with
  | word :: left => (word, { k with left })
  | [] =>
      match (k.grid k.counter).block with
      | word :: left =>
          (word, { k with counter := k.counter + 1, left })
      | [] => (0, k)

instance : WordSource Keystream where
  next := next

end Keystream

end Slideshow
