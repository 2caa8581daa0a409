import Mathlib.Algebra.GroupWithZero.Nat
import Slideshow.Proofs.Speech.Chunk

/-
  This file proves how sentences are gathered into chunks.

  Only the numbers of words count: the sentences of the
  chunks have the lengths that a greedy grouping of the
  lengths of all sentences has (`Chunk.map_lengths_split`).
  What the grouping keeps is said of the group that is open
  (`ChunkBounds.IsOpen`), and each group that it closes is
  described by its neighbours (`ChunkBounds.IsGroup`).

  A group is closed as soon as it reaches the lower bound,
  with one exception: a sentence that did not fit the group
  before is not measured when it opens the next one
  (`ChunkBounds.IsLate`).

  Key definitions include:
    * `ChunkBounds.group`
    * `ChunkBounds.IsTimely`
    * `ChunkBounds.IsLate`
    * `ChunkBounds.IsGroup`
    * `ChunkBounds.AreGroups`
    * `Chunk.lengths`

  Main results include:
    * `ChunkBounds.areGroups_group`
    * `Chunk.map_lengths_split`
    * `speechChunks_areFilled`
    * `speechChunks_isClosedInTime_iff`
-/

namespace Slideshow

------------------------------------------------------------
-- Groups of Lengths
------------------------------------------------------------

namespace ChunkBounds

/- Close a group; an empty one is none. -/
def closeGroup (opened : List Nat) : List (List Nat) :=
  if opened = [] then [] else [opened]

/-
  Group lengths, beginning with an open group.  One that
  does not fit closes the open group and begins another.
-/
def group
    (bounds : ChunkBounds)
    (opened : List Nat) : List Nat → List (List Nat)
  | [] => closeGroup opened
  | n :: rest =>
      if opened.sum + n ≤ bounds.high then
        if bounds.low ≤ opened.sum + n then
          (opened ++ [n]) :: bounds.group [] rest
        else bounds.group (opened ++ [n]) rest
      else closeGroup opened ++ bounds.group [n] rest

/- Without its last members a group is below a bound. -/
def IsTimely (low : Nat) (members : List Nat) : Prop :=
  ∀ front back,
    members = front ++ back →
      front ≠ [] → back ≠ [] → front.sum < low

/-
  A group of two, the first of which did not fit the group
  before and reaches the lower bound by itself.
-/
def IsLate
    (bounds : ChunkBounds)
    (previous : Option (List Nat))
    (members : List Nat) : Prop :=
  ∃ before first second,
    previous = some before ∧
      bounds.high < before.sum + first ∧
      members = [first, second] ∧
      bounds.low ≤ first

/-
  A closed group between the one before and the length that
  comes next.
-/
structure IsGroup
    (bounds : ChunkBounds)
    (previous : Option (List Nat))
    (members : List Nat)
    (next : Option Nat) : Prop where
  ne_nil : members ≠ []
  /- It keeps the upper bound, or has one member. -/
  fits : members.sum ≤ bounds.high ∨ members.length = 1
  /- It is closed since it is full, or since nothing fits. -/
  closed :
    bounds.low ≤ members.sum ∨
      ∀ n, next = some n → bounds.high < members.sum + n
  /- It is closed as soon as it is full, or it is late. -/
  timely :
    IsTimely bounds.low members ∨
      bounds.IsLate previous members

/- Closed groups in a row, behind another one. -/
def AreGroups
    (bounds : ChunkBounds) :
    Option (List Nat) → List (List Nat) → Prop
  | _, [] => True
  | previous, members :: rest =>
      bounds.IsGroup previous members
          (rest.head?.bind List.head?) ∧
        bounds.AreGroups (some members) rest

/-
  What holds of an open group: it is empty, below the lower
  bound, or one member that did not fit elsewhere.
-/
structure IsOpen
    (bounds : ChunkBounds)
    (previous : Option (List Nat))
    (opened : List Nat) : Prop where
  fits : opened.sum ≤ bounds.high ∨ opened.length = 1
  short :
    opened = [] ∨ opened.sum < bounds.low ∨
      ∃ first, opened = [first] ∧
        (bounds.high < first ∨
          ∃ before, previous = some before ∧
            bounds.high < before.sum + first)

variable {bounds : ChunkBounds}
variable {previous : Option (List Nat)}
variable {opened members : List Nat}
variable {next : Option Nat}
variable {n : Nat}

theorem IsLate.not_isTimely
    (hLate : bounds.IsLate previous members) :
    ¬ IsTimely bounds.low members := by
  rcases hLate with ⟨before, first, second, -, -, rfl, hLow⟩
  intro hTimely
  have hBelow := hTimely [first] [second] rfl
    (List.cons_ne_nil first []) (List.cons_ne_nil second [])
  rw [List.sum_singleton] at hBelow
  omega

theorem IsGroup.isTimely_iff
    (hGroup : bounds.IsGroup previous members next) :
    IsTimely bounds.low members ↔
      ¬ bounds.IsLate previous members := by
  constructor
  · intro hTimely hLate
    exact hLate.not_isTimely hTimely
  · intro hNot
    exact hGroup.timely.resolve_right hNot

/- Groups below the lower bound are closed in time. -/
theorem isTimely_concat
    {low : Nat}
    (hShort : opened = [] ∨ opened.sum < low) :
    IsTimely low (opened ++ [n]) := by
  intro front back hEq hFront hBack
  rcases List.eq_nil_or_concat' back with
    rfl | ⟨middle, last, rfl⟩
  · exact absurd rfl hBack
  · rw [← List.append_assoc] at hEq
    have hOpened := (List.append_inj' hEq rfl).1
    rcases hShort with hNone | hSum
    · rw [hNone] at hOpened
      exact absurd (List.append_eq_nil_iff.mp
        hOpened.symm).1 hFront
    · rw [hOpened, List.sum_append] at hSum
      omega

/- An open group is closed in time if it is now. -/
theorem IsOpen.isTimely
    (hOpen : bounds.IsOpen previous opened) :
    IsTimely bounds.low opened := by
  intro front back hEq hFront hBack
  rcases hOpen.short with rfl | hSum | ⟨first, rfl, -⟩
  · exact absurd (List.append_eq_nil_iff.mp hEq.symm).1
      hFront
  · rw [hEq, List.sum_append] at hSum
    omega
  · rcases List.append_eq_singleton_iff.mp hEq.symm with
      ⟨rfl, -⟩ | ⟨-, rfl⟩
    · exact absurd rfl hFront
    · exact absurd rfl hBack

theorem isOpen_nil : bounds.IsOpen previous [] where
  fits := Or.inl (Nat.zero_le bounds.high)
  short := Or.inl rfl

/- A member that fits and leaves room keeps a group open. -/
theorem isOpen_concat
    (hFits : opened.sum + n ≤ bounds.high)
    (hShort : ¬ bounds.low ≤ opened.sum + n) :
    bounds.IsOpen previous (opened ++ [n]) := by
  have hSum : (opened ++ [n]).sum = opened.sum + n := by
    rw [List.sum_append, List.sum_singleton]
  constructor
  · left
    omega
  · right
    left
    omega

theorem isOpen_singleton
    (hOver : bounds.high < n ∨
      ∃ before, previous = some before ∧
        bounds.high < before.sum + n) :
    bounds.IsOpen previous [n] where
  fits := Or.inr rfl
  short := Or.inr (Or.inr ⟨n, rfl, hOver⟩)

theorem IsOpen.isGroup
    (hOpen : bounds.IsOpen previous opened)
    (hSome : opened ≠ [])
    (hNext : ∀ n, next = some n →
      bounds.high < opened.sum + n) :
    bounds.IsGroup previous opened next where
  ne_nil := hSome
  fits := hOpen.fits
  closed := Or.inr hNext
  timely := Or.inl hOpen.isTimely

/- A group is closed if it has become full. -/
theorem IsOpen.isGroup_concat
    (hOpen : bounds.IsOpen previous opened)
    (hFits : opened.sum + n ≤ bounds.high)
    (hFull : bounds.low ≤ opened.sum + n) :
    bounds.IsGroup previous (opened ++ [n]) next := by
  have hSum : (opened ++ [n]).sum = opened.sum + n := by
    rw [List.sum_append, List.sum_singleton]
  refine ⟨List.append_ne_nil_of_right_ne_nil opened
    (List.cons_ne_nil n []), Or.inl ?_, Or.inl ?_, ?_⟩
  · rwa [hSum]
  · rwa [hSum]
  · by_cases hShort :
        opened = [] ∨ opened.sum < bounds.low
    · exact Or.inl (isTimely_concat hShort)
    · rw [not_or] at hShort
      right
      rcases hOpen.short with hNone | hBelow |
        ⟨first, rfl, hOver | ⟨before, hBefore, hOver⟩⟩
      · exact absurd hNone hShort.1
      · exact absurd hBelow hShort.2
      · rw [List.sum_singleton] at hFits
        omega
      · rw [List.sum_singleton, Nat.not_lt] at hShort
        exact ⟨before, first, n, hBefore, hOver, rfl,
          hShort.2⟩

/- The first group begins as the open one does. -/
theorem head?_of_group
    (hSome : opened ≠ [])
    (lengths : List Nat)
    (hFirst : members ∈ (bounds.group opened lengths).head?) :
    members.head? = opened.head? := by
  induction lengths generalizing opened with
  | nil =>
      rw [group, closeGroup, if_neg hSome] at hFirst
      rw [Option.mem_some.mp hFirst]
  | cons n rest ih =>
      have hHead :
          (opened ++ [n]).head? = opened.head? :=
        List.head?_append_of_ne_nil opened hSome
      by_cases hFits : opened.sum + n ≤ bounds.high
      · by_cases hFull : bounds.low ≤ opened.sum + n
        · rw [group, if_pos hFits, if_pos hFull] at hFirst
          rw [← Option.mem_some.mp hFirst, hHead]
        · rw [group, if_pos hFits, if_neg hFull] at hFirst
          rw [ih (List.append_ne_nil_of_left_ne_nil hSome
            [n]) hFirst, hHead]
      · rw [group, if_neg hFits, closeGroup, if_neg hSome]
          at hFirst
        rw [← Option.mem_some.mp hFirst]

/- Grouping closes groups as they should be. -/
theorem areGroups_group
    (hOpen : bounds.IsOpen previous opened)
    (lengths : List Nat) :
    bounds.AreGroups previous
      (bounds.group opened lengths) := by
  induction lengths generalizing previous opened with
  | nil =>
      rw [group, closeGroup]
      by_cases hSome : opened = []
      · rw [if_pos hSome]
        exact trivial
      · rw [if_neg hSome]
        refine ⟨hOpen.isGroup hSome ?_, trivial⟩
        intro n hNext
        cases hNext
  | cons n rest ih =>
      by_cases hFits : opened.sum + n ≤ bounds.high
      · by_cases hFull : bounds.low ≤ opened.sum + n
        · rw [group, if_pos hFits, if_pos hFull]
          exact ⟨hOpen.isGroup_concat hFits hFull,
            ih isOpen_nil⟩
        · rw [group, if_pos hFits, if_neg hFull]
          exact ih (isOpen_concat hFits hFull)
      · rw [group, if_neg hFits, closeGroup]
        rw [Nat.not_le] at hFits
        by_cases hSome : opened = []
        · rw [if_pos hSome, List.nil_append]
          rw [hSome, List.sum_nil, Nat.zero_add] at hFits
          exact ih (isOpen_singleton (Or.inl hFits))
        · rw [if_neg hSome]
          refine ⟨hOpen.isGroup hSome ?_, ih
            (isOpen_singleton
              (Or.inr ⟨opened, rfl, hFits⟩))⟩
          intro m hNext
          rcases Option.bind_eq_some_iff.mp hNext with
            ⟨members, hMembers, hHead⟩
          rw [head?_of_group (List.cons_ne_nil n []) rest
            hMembers] at hHead
          rw [← Option.some.inj hHead]
          exact hFits

/- Each of some groups in a row is between its neighbours. -/
theorem AreGroups.isGroup
    {before after : List (List Nat)}
    (hGroups :
      bounds.AreGroups previous (before ++ members :: after)) :
    bounds.IsGroup (before.getLast?.or previous) members
      (after.head?.bind List.head?) := by
  induction before generalizing previous with
  | nil => exact hGroups.1
  | cons first before ih =>
      have hRest := ih hGroups.2
      rw [Option.or_some] at hRest
      rwa [List.getLast?_cons, Option.some_or]

end ChunkBounds

------------------------------------------------------------
-- Lengths of Sentences
------------------------------------------------------------

namespace Chunk

variable {bounds : ChunkBounds}
variable {cs chunk : List Char}
variable {part rest : List (List Char)}

/- The numbers of words in the sentences of a text. -/
def lengths (cs : List Char) : List Nat :=
  (Sentence.split cs).map wordCount

theorem sum_lengths (cs : List Char) :
    (lengths cs).sum = wordCount cs := by
  rw [wordCount, ← Sentence.flatMap_words_split cs,
    List.length_flatMap, lengths]
  rfl

theorem lengths_trim
    (hSome : ¬ Chars.AreBlank cs) :
    lengths (Chars.trim cs) = lengths cs := by
  have hWords := congrArg (List.map List.length)
    (Sentence.map_words_split_trim hSome)
  rwa [List.map_map, List.map_map] at hWords

/- A closed text has the sentences that it was made of. -/
theorem map_lengths_close
    (hSome : ¬ Chars.AreBlank cs)
    (hPart : part <:+: Sentence.split cs) :
    (close part.flatten).map lengths =
      ChunkBounds.closeGroup (part.map wordCount) := by
  cases part with
  | nil => rfl
  | cons sentence part =>
      have hVisible :
          ¬ Chars.AreBlank (sentence :: part).flatten := by
        rw [List.flatten_cons, Chars.areBlank_append_iff]
        intro hBlank
        exact Sentence.not_areBlank_of_mem_split hSome
          (hPart.subset List.mem_cons_self) hBlank.1
      have hTrim :
          (Chars.trim (sentence :: part).flatten).isEmpty =
            false := by
        simpa using Chars.trim_ne_nil hVisible
      rw [close, hTrim, if_neg Bool.false_ne_true,
        List.map_singleton, lengths_trim hVisible, lengths,
        Sentence.split_flatten_of_isInfix hPart,
        ChunkBounds.closeGroup, if_neg (by simp)]

/-
  Gathering sentences behind open ones is grouping their
  lengths, if both are neighbours in a text.
-/
theorem map_lengths_gather
    (bounds : ChunkBounds)
    (hSome : ¬ Chars.AreBlank cs)
    (hPart : part ++ rest <:+: Sentence.split cs) :
    (gather bounds part.flatten (part.map wordCount).sum
        rest).map lengths =
      bounds.group (part.map wordCount)
        (rest.map wordCount) := by
  induction rest generalizing part with
  | nil =>
      rw [List.append_nil] at hPart
      exact map_lengths_close hSome hPart
  | cons sentence rest ih =>
      have hJoined :
          (part ++ [sentence]) ++ rest <:+:
            Sentence.split cs := by
        rwa [List.append_assoc]
      have hAlone :
          [sentence] ++ rest <:+: Sentence.split cs :=
        (List.suffix_append part _).isInfix.trans hPart
      have hBehind : [] ++ rest <:+: Sentence.split cs :=
        (List.suffix_append [sentence] _).isInfix.trans
          hAlone
      have hClosed := map_lengths_close hSome
        ((List.prefix_append part _).isInfix.trans hPart)
      rw [List.map_cons]
      by_cases hFits :
          (part.map wordCount).sum + wordCount sentence ≤
            bounds.high
      · by_cases hFull :
            bounds.low ≤
              (part.map wordCount).sum + wordCount sentence
        · have hRest := ih hBehind
          have hWhole := map_lengths_close hSome
            ((List.prefix_append _ rest).isInfix.trans
              hJoined)
          have hFilled :
              (close (part.flatten ++ sentence)).map lengths =
                [part.map wordCount ++
                  [wordCount sentence]] := by
            simpa [ChunkBounds.closeGroup] using hWhole
          rw [gather, if_pos hFits, if_pos hFull,
            ChunkBounds.group, if_pos hFits, if_pos hFull,
            List.map_append, hFilled,
            List.singleton_append]
          exact congrArg (List.cons _) hRest
        · have hRest := ih hJoined
          rw [gather, if_pos hFits, if_neg hFull,
            ChunkBounds.group, if_pos hFits, if_neg hFull]
          simpa using hRest
      · have hRest := ih hAlone
        rw [gather, if_neg hFits, ChunkBounds.group,
          if_neg hFits, List.map_append, hClosed]
        simpa using hRest

/- The sentences of chunks are grouped by their lengths. -/
theorem map_lengths_split
    (bounds : ChunkBounds)
    (hSome : ¬ Chars.AreBlank cs) :
    (split bounds cs).map lengths =
      bounds.group [] (lengths cs) := by
  have hPart :
      [] ++ Sentence.split cs <:+: Sentence.split cs :=
    List.infix_rfl
  exact map_lengths_gather bounds hSome hPart

/- The lengths of a text's chunks are closed groups. -/
theorem areGroups_map_lengths_split
    (bounds : ChunkBounds)
    (cs : List Char) :
    bounds.AreGroups none
      ((split bounds cs).map lengths) := by
  by_cases hBlank : Chars.AreBlank cs
  · rw [(split_isCutInto bounds cs).eq_nil_iff.mpr hBlank]
    exact trivial
  · rw [map_lengths_split bounds hBlank]
    exact ChunkBounds.areGroups_group
      ChunkBounds.isOpen_nil (lengths cs)

/- Each chunk of a text is a group between its neighbours. -/
theorem isGroup_of_split
    {before after : List (List Char)}
    (hSplit : split bounds cs = before ++ chunk :: after) :
    bounds.IsGroup (before.getLast?.map lengths)
      (lengths chunk)
      (after.head?.bind fun next =>
        (lengths next).head?) := by
  have hGroups := areGroups_map_lengths_split bounds cs
  rw [hSplit, List.map_append, List.map_cons] at hGroups
  have hGroup := hGroups.isGroup
  rwa [Option.or_none, List.getLast?_map, List.head?_map,
    Option.bind_map] at hGroup

/-
  Sentences that a text begins with have fewer words than a
  bound, unless they are all of its sentences.
-/
def IsClosedInTime (low : Nat) (chunk : String) : Prop :=
  ∀ front back,
    sentences chunk = front ++ back →
      front ≠ [] → back ≠ [] →
        (front.map fun sentence =>
          wordCount sentence.toList).sum < low

theorem lengths_toList (s : String) :
    lengths s.toList =
      (sentences s).map fun sentence =>
        wordCount sentence.toList := by
  rw [lengths, ← map_toList_sentences, List.map_map]
  rfl

/- A text is closed in time if the group of it is timely. -/
theorem isTimely_lengths_iff
    {low : Nat}
    {s : String} :
    ChunkBounds.IsTimely low (lengths s.toList) ↔
      IsClosedInTime low s := by
  rw [lengths_toList]
  constructor
  · intro hTimely front back hSentences hFront hBack
    apply hTimely _ (back.map fun sentence =>
      wordCount sentence.toList)
    · rw [hSentences, List.map_append]
    · rwa [ne_eq, List.map_eq_nil_iff]
    · rwa [ne_eq, List.map_eq_nil_iff]
  · intro hTimely front back hLengths hFront hBack
    rcases List.map_eq_append_iff.mp hLengths with
      ⟨first, last, hSentences, rfl, rfl⟩
    rw [ne_eq, List.map_eq_nil_iff] at hFront hBack
    exact hTimely first last hSentences hFront hBack

/- A text is late if the group of its sentences is. -/
theorem isLate_lengths_iff
    {previous : Option String}
    {s : String} :
    bounds.IsLate
        (previous.map fun text => lengths text.toList)
        (lengths s.toList) ↔
      ∃ before first second,
        previous = some before ∧
          bounds.high <
            wordCount before.toList +
              wordCount first.toList ∧
          sentences s = [first, second] ∧
          bounds.low ≤ wordCount first.toList := by
  constructor
  · rintro ⟨members, n, m, hPrevious, hOver, hLengths, hLow⟩
    rcases Option.map_eq_some_iff.mp hPrevious with
      ⟨before, hBefore, rfl⟩
    rw [lengths_toList, List.map_eq_cons_iff] at hLengths
    rcases hLengths with ⟨first, rest, hFirst, rfl, hRest⟩
    rcases List.map_eq_singleton_iff.mp hRest with
      ⟨second, rfl, -⟩
    rw [sum_lengths] at hOver
    exact ⟨before, first, second, hBefore, hOver, hFirst,
      hLow⟩
  · rintro ⟨before, first, second, rfl, hOver, hSentences,
      hLow⟩
    refine ⟨lengths before.toList, wordCount first.toList,
      wordCount second.toList, rfl, ?_, ?_, hLow⟩
    · rwa [sum_lengths]
    · rw [lengths_toList, hSentences]
      rfl

/- Each chunk of a string is a group of its sentences. -/
theorem isGroup_of_chunksWithin
    {s text : String}
    {before after : List String}
    (hChunks :
      chunksWithin bounds s = before ++ text :: after) :
    bounds.IsGroup
      (before.getLast?.map fun previous =>
        lengths previous.toList)
      (lengths text.toList)
      (after.head?.bind fun next =>
        (lengths next.toList).head?) := by
  have hSplit := congrArg (List.map String.toList) hChunks
  rw [chunksWithin, List.map_map, List.map_append,
    List.map_cons] at hSplit
  have hSame :
      String.toList ∘ String.ofList = id :=
    funext fun cs => String.toList_ofList
  rw [hSame, List.map_id] at hSplit
  have hGroup := isGroup_of_split hSplit
  rwa [List.getLast?_map, Option.map_map, List.head?_map,
    Option.bind_map] at hGroup

end Chunk

------------------------------------------------------------
-- Chunks of a String
------------------------------------------------------------

/-
  If the target and the tolerance add up within a word, each
  chunk keeps the upper bound or is one sentence, and no
  chunk is closed without need: it has reached the lower
  bound, or the first sentence of the next chunk would have
  taken it past the upper one.
-/
theorem speechChunks_areFilled
    (target tolerance : UInt64)
    (s : String)
    (hBound : target.toNat + tolerance.toNat < 2 ^ 64) :
    let low := target.toNat - tolerance.toNat
    let high := target.toNat + tolerance.toNat
    ∃ chunks,
      speechChunks target tolerance s = .ok chunks ∧
        (∀ chunk ∈ chunks,
          Chunk.wordCount chunk.toList ≤ high ∨
            (sentences chunk).length = 1) ∧
        ∀ before chunk next after,
          chunks = before ++ chunk :: next :: after →
            low ≤ Chunk.wordCount chunk.toList ∨
              ∃ first,
                (sentences next).head? = some first ∧
                  high <
                    Chunk.wordCount chunk.toList +
                      Chunk.wordCount first.toList := by
  intro low high
  refine ⟨chunksWithin (.around target tolerance) s,
    speechChunks_eq_ok_iff.mpr ⟨hBound, rfl⟩, ?_, ?_⟩
  · intro chunk hChunk
    rcases List.append_of_mem hChunk with
      ⟨before, after, hChunks⟩
    have hFits := (Chunk.isGroup_of_chunksWithin hChunks).fits
    rwa [Chunk.sum_lengths, Chunk.lengths_toList,
      List.length_map] at hFits
  · intro before chunk next after hChunks
    have hClosed :=
      (Chunk.isGroup_of_chunksWithin hChunks).closed
    have hNext :=
      (Chunk.isGroup_of_chunksWithin
        (hChunks.trans (List.append_cons before chunk _))).ne_nil
    rw [Chunk.lengths_toList, ne_eq, List.map_eq_nil_iff]
      at hNext
    rcases List.exists_cons_of_ne_nil hNext with
      ⟨first, others, hFirst⟩
    have hHead :
        (Chunk.lengths next.toList).head? =
          some (Chunk.wordCount first.toList) := by
      rw [Chunk.lengths_toList, hFirst]
      rfl
    rw [Chunk.sum_lengths] at hClosed
    apply hClosed.imp_right
    intro hOver
    refine ⟨first, ?_, hOver _ hHead⟩
    rw [hFirst, List.head?_cons]

/-
  A chunk that is closed since the next sentence does not
  fit, though it has not reached the lower bound.
-/
theorem speechChunks_areFilled_unfitting :
    (4 : UInt64).toNat + (1 : UInt64).toNat < 2 ^ 64 ∧
      speechChunks 4 1 "a b. c d e f. g." =
        .ok ["a b.", "c d e f. g."] ∧
      ∃ first,
        (sentences "c d e f. g.").head? = some first ∧
          5 <
            Chunk.wordCount "a b.".toList +
              Chunk.wordCount first.toList := by
  have hBound :
      (4 : UInt64).toNat + (1 : UInt64).toNat < 2 ^ 64 := by
    decide
  have hSpeech :
      speechChunks 4 1 "a b. c d e f. g." =
        .ok ["a b.", "c d e f. g."] := by
    decide +kernel
  have hShort : ¬ 3 ≤ Chunk.wordCount "a b.".toList := by
    decide
  refine ⟨hBound, hSpeech, ?_⟩
  rcases speechChunks_areFilled 4 1 "a b. c d e f. g."
    hBound with ⟨chunks, hChunks, -, hFilled⟩
  rw [hSpeech] at hChunks
  have hLast :=
    hFilled [] "a b." "c d e f. g." []
      (Except.ok.inj hChunks).symm
  exact hLast.resolve_left hShort

/-
  A chunk is closed as soon as it reaches the lower bound,
  with one exception: two sentences, the first of which did
  not fit the chunk before and reaches that bound by itself.
-/
theorem speechChunks_isClosedInTime_iff
    (target tolerance : UInt64)
    (s chunk : String)
    (before after : List String)
    (hChunks :
      speechChunks target tolerance s =
        .ok (before ++ chunk :: after)) :
    let bounds := ChunkBounds.around target tolerance
    Chunk.IsClosedInTime bounds.low chunk ↔
      ¬ ∃ previous first second,
        before.getLast? = some previous ∧
          bounds.high <
            Chunk.wordCount previous.toList +
              Chunk.wordCount first.toList ∧
          sentences chunk = [first, second] ∧
          bounds.low ≤ Chunk.wordCount first.toList := by
  intro bounds
  have hGroup :=
    Chunk.isGroup_of_chunksWithin
      (speechChunks_eq_ok_iff.mp hChunks).2.symm
  rw [← Chunk.isTimely_lengths_iff, hGroup.isTimely_iff,
    Chunk.isLate_lengths_iff]

/- A chunk of two sentences, the first of which is short. -/
theorem speechChunks_isClosedInTime_short :
    speechChunks 2 0 "a b. c. d." =
        .ok ["a b.", "c. d."] ∧
      Chunk.IsClosedInTime 2 "c. d." := by
  have hChunks :
      speechChunks 2 0 "a b. c. d." =
        .ok ["a b.", "c. d."] := by
    decide +kernel
  have hSentences : sentences "c. d." = ["c. ", "d."] := by
    decide +kernel
  refine ⟨hChunks, ?_⟩
  apply (speechChunks_isClosedInTime_iff 2 0 "a b. c. d."
    "c. d." ["a b."] [] hChunks).mpr
  rintro ⟨previous, first, second, -, -, hBoth, hLow⟩
  rw [hSentences] at hBoth
  cases hBoth
  exact absurd hLow (by decide)

/-
  A sentence that does not fit the chunk before opens a
  chunk that is not closed though it reaches the bound.
-/
theorem speechChunks_not_isClosedInTime :
    let bounds := ChunkBounds.around 2 1
    1 ≤ bounds.low ∧
      speechChunks 2 1 "a b c d. e. f." =
        .ok ["a b c d.", "e. f."] ∧
      ¬ Chunk.IsClosedInTime bounds.low "e. f." := by
  intro bounds
  have hSentences : sentences "e. f." = ["e. ", "f."] := by
    decide +kernel
  refine ⟨by decide, by decide +kernel, ?_⟩
  intro hTimely
  have hBelow := hTimely ["e. "] ["f."] hSentences
    (List.cons_ne_nil _ _) (List.cons_ne_nil _ _)
  exact absurd hBelow (by decide)

end Slideshow
