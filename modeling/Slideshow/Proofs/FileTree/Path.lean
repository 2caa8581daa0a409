import Slideshow.FileTree.Path
import Slideshow.Proofs.Text.Separator

/-
  This file proves how the names of a path are cut from its
  text: what joining adds to them, and which of them is the
  file name.

  Main results include:
    * `Path.segments_join`
    * `Path.join_append`
    * `Path.fileName?_of_segments`
    * `Path.exists_fileName?_append`
    * `Path.mem_segments_of_fileName?`
    * `Path.not_mem_of_extension?`
    * `Path.extension_splitName_append`
-/

namespace Slideshow

namespace Path

------------------------------------------------------------
-- Names Between Slashes
------------------------------------------------------------

theorem segments_of_toList
    {path : String}
    {front back : List Char}
    (hPath : path.toList = front ++ '/' :: back) :
    segments path =
      segments (String.ofList front) ++
        segments (String.ofList back) := by
  unfold segments Text.split Chars.split
  rw [hPath, List.splitOnP_append_cons front back rfl]
  simp

theorem segments_of_not_mem
    {path : String}
    (hSlash : '/' ∉ path.toList) :
    segments path = [path] :=
  Text.split_eq_singleton_iff.mpr ⟨hSlash, rfl⟩

/- The pieces of a list hold no separators. -/
theorem not_mem_of_mem_split
    {sep : Char}
    {cs piece : List Char}
    (hPiece : piece ∈ Chars.split sep cs) :
    sep ∉ piece := by
  unfold Chars.split at hPiece
  induction cs generalizing piece with
  | nil =>
      simp at hPiece
      simp [hPiece]
  | cons c cs ih =>
      rw [List.splitOnP_cons_eq_if_modifyHead] at hPiece
      by_cases hSep : c = sep
      · rw [if_pos (by simp [hSep])] at hPiece
        rcases List.mem_cons.mp hPiece with rfl | hPiece
        · simp
        · exact ih hPiece
      · rw [if_neg (by simp [hSep])] at hPiece
        cases hPieces : cs.splitOnP (· == sep) with
        | nil =>
            rw [hPieces] at hPiece
            simp at hPiece
        | cons first rest =>
            rw [hPieces, List.modifyHead_cons] at hPiece
            rcases List.mem_cons.mp hPiece with
              rfl | hPiece
            · have hFirst : sep ∉ first :=
                ih (by simp [hPieces])
              simp [Ne.symm hSep, hFirst]
            · exact ih (by simp [hPieces, hPiece])

theorem not_mem_of_mem_segments
    {path name : String}
    (hName : name ∈ segments path) :
    '/' ∉ name.toList := by
  rcases List.mem_map.mp hName with ⟨piece, hPiece, rfl⟩
  simpa using not_mem_of_mem_split hPiece

/- Joining puts the name behind the directory. -/
theorem exists_join_eq_append
    (base : String)
    {name : String}
    (hName : isAbsolute name = false) :
    ∃ rest, join base name = base ++ rest := by
  unfold join
  rw [if_neg (by simp [hName])]
  by_cases hSlash :
    base.isEmpty ∨ base.toList.getLast? = some '/'
  · rw [if_pos hSlash]
    exact ⟨name, rfl⟩
  · rw [if_neg hSlash, String.append_assoc]
    exact ⟨_, rfl⟩

theorem exists_join_eq_append_self (base path : String) :
    ∃ front, join base path = front ++ path := by
  unfold join
  split_ifs
  · exact ⟨"", (String.empty_append).symm⟩
  · exact ⟨base, rfl⟩
  · exact ⟨base ++ "/", rfl⟩

/- The text of a joined path. -/
theorem toList_join
    {base name : String}
    (hBase : base ≠ "")
    (hName : isAbsolute name = false) :
    ∃ front,
      (join base name).toList =
          front ++ '/' :: name.toList ∧
        (base.toList = front ∨
          base.toList = front ++ ['/']) := by
  unfold join
  rw [if_neg (by simp [hName])]
  by_cases hSlash : base.toList.getLast? = some '/'
  · rw [if_pos (Or.inr hSlash)]
    rcases List.getLast?_eq_some_iff.mp hSlash with
      ⟨front, hFront⟩
    exact ⟨front, by simp [hFront], Or.inr hFront⟩
  · rw [if_neg (by simp [hBase, hSlash])]
    exact ⟨base.toList, by simp, Or.inl rfl⟩

/-
  Joining puts names behind those of the directory.  A slash
  at the end of the directory was an empty name.
-/
theorem segments_join
    {base path : String}
    (hBase : base ≠ "")
    (hPath : isAbsolute path = false) :
    ∃ names,
      segments (join base path) = names ++ segments path ∧
        (segments base = names ∨
          segments base = names ++ [""]) := by
  rcases toList_join hBase hPath with ⟨front, hJoin, hFront⟩
  refine ⟨segments (String.ofList front), ?_, ?_⟩
  · rw [segments_of_toList hJoin, String.ofList_toList]
  · rcases hFront with hFront | hFront
    · left
      rw [← hFront, String.ofList_toList]
    · right
      rw [segments_of_toList hFront]
      rfl

/- A joined path starts where its directory does. -/
theorem isAbsolute_join
    {base name : String}
    (hBase : base ≠ "")
    (hName : isAbsolute name = false) :
    isAbsolute (join base name) = isAbsolute base := by
  rcases toList_join hBase hName with ⟨front, hJoin, hFront⟩
  have hNonempty : base.toList ≠ [] := by
    simpa using hBase
  unfold isAbsolute
  rw [hJoin]
  cases front with
  | nil =>
      rcases hFront with hFront | hFront
      · exact absurd hFront hNonempty
      · simp [hFront]
  | cons c cs =>
      rcases hFront with hFront | hFront
      · simp [hFront]
      · simp [hFront]

/-
  What is put behind a path without another slash goes to
  its last name.
-/
theorem exists_segments_append (path : String) :
    ∃ before last, ∀ tail : String, '/' ∉ tail.toList →
      segments (path ++ tail) = before ++ [last ++ tail] := by
  by_cases hSlash : '/' ∈ path.toList
  · rcases List.eq_append_cons_of_mem
      (List.mem_reverse.mpr hSlash) with
      ⟨back, front, hPath, hBack⟩
    have hParts :
        path.toList =
          front.reverse ++ '/' :: back.reverse := by
      have hReverse := congrArg List.reverse hPath
      simpa using hReverse
    refine ⟨segments (String.ofList front.reverse),
      String.ofList back.reverse, ?_⟩
    intro tail hTail
    have hText :
        (path ++ tail).toList =
          front.reverse ++
            '/' :: (back.reverse ++ tail.toList) := by
      rw [String.toList_append, hParts, List.append_assoc,
        List.cons_append]
    have hLast :
        String.ofList (back.reverse ++ tail.toList) =
          String.ofList back.reverse ++ tail := by
      rw [String.ofList_append, String.ofList_toList]
    have hSingle :
        '/' ∉ (String.ofList back.reverse ++ tail).toList := by
      simp [hBack, hTail]
    rw [segments_of_toList hText, hLast,
      segments_of_not_mem hSingle]
  · refine ⟨[], path, ?_⟩
    intro tail hTail
    apply segments_of_not_mem
    simp [hSlash, hTail]

/- Joining leaves what stands behind the path. -/
theorem join_append
    (base path tail : String)
    (hTail : tail.toList.head? ≠ some '/') :
    join base (path ++ tail) = join base path ++ tail := by
  have hAbsolute :
      isAbsolute (path ++ tail) = isAbsolute path := by
    unfold isAbsolute
    rw [String.toList_append]
    cases hPath : path.toList with
    | nil =>
        simpa using hTail
    | cons c cs =>
        simp
  unfold join
  rw [hAbsolute]
  by_cases hRoot : isAbsolute path = true
  · rw [if_pos hRoot, if_pos hRoot]
  · rw [if_neg hRoot, if_neg hRoot]
    by_cases hSlash :
      base.isEmpty ∨ base.toList.getLast? = some '/'
    · rw [if_pos hSlash, if_pos hSlash,
        String.append_assoc]
    · rw [if_neg hSlash, if_neg hSlash,
        String.append_assoc, String.append_assoc,
        String.append_assoc]

------------------------------------------------------------
-- File Names
------------------------------------------------------------

/- Names are idle all, or one that counts is the last. -/
theorem exists_last_name (names : List String) :
    (∀ name ∈ names, isIdle name = true) ∨
      ∃ before name idles,
        names = before ++ name :: idles ∧
          isIdle name = false ∧
          ∀ idle ∈ idles, isIdle idle = true := by
  induction names with
  | nil =>
      left
      simp
  | cons first rest ih =>
      rcases ih with
        hIdle | ⟨before, name, idles, rfl, hName, hIdle⟩
      · by_cases hFirst : isIdle first = true
        · left
          simpa [hFirst] using hIdle
        · right
          exact ⟨[], first, rest, rfl,
            by simpa using hFirst, hIdle⟩
      · right
        exact ⟨first :: before, name, idles, rfl, hName,
          hIdle⟩

theorem trimIdle_of_isIdle
    {idles : List String}
    (hIdle : ∀ idle ∈ idles, isIdle idle = true) :
    trimIdle idles = [] := by
  unfold trimIdle
  rw [List.reverse_eq_nil_iff, List.dropWhile_eq_nil_iff]
  intro idle hMem
  exact hIdle idle (List.mem_reverse.mp hMem)

/- The last name that counts stays with all before it. -/
theorem trimIdle_append_cons
    {before idles : List String}
    {name : String}
    (hName : isIdle name = false)
    (hIdle : ∀ idle ∈ idles, isIdle idle = true) :
    trimIdle (before ++ name :: idles) =
      before ++ [name] := by
  unfold trimIdle
  rw [List.reverse_append, List.reverse_cons,
    List.append_assoc, List.dropWhile_append_of_pos]
  · simp [hName]
  · intro idle hMem
    exact hIdle idle (List.mem_reverse.mp hMem)

/- An absolute path starts with an empty name. -/
theorem segments_of_isAbsolute
    {path : String}
    (hAbsolute : isAbsolute path = true) :
    ∃ names, segments path = "" :: names := by
  have hHead : path.toList.head? = some '/' := by
    simpa [isAbsolute] using hAbsolute
  rcases List.head?_eq_some_iff.mp hHead with ⟨cs, hPath⟩
  have hFront : path.toList = [] ++ '/' :: cs := hPath
  exact ⟨segments (String.ofList cs),
    segments_of_toList hFront⟩

/-
  A relative path starts with a name that is not empty,
  unless it is empty as a whole.
-/
theorem segments_eq_of_empty
    {path : String}
    {rest : List String}
    (hRelative : isAbsolute path = false)
    (hSegments : segments path = "" :: rest) :
    rest = [] := by
  cases hPath : path.toList with
  | nil =>
      unfold segments Text.split Chars.split at hSegments
      rw [hPath] at hSegments
      simpa using hSegments.symm
  | cons c cs =>
      have hSlash : c ≠ '/' := by
        rintro rfl
        simp [isAbsolute, hPath] at hRelative
      unfold segments Text.split Chars.split at hSegments
      rw [hPath, List.splitOnP_cons_eq_if_modifyHead,
        if_neg (by simp [hSlash])] at hSegments
      cases hPieces : cs.splitOnP (· == '/') with
      | nil =>
          simp [hPieces] at hSegments
      | cons first pieces =>
          simp [hPieces] at hSegments

/-
  The body of a path ends with the last name that counts.
  Before it are the names after the root, nothing, or a
  first name and those after it.
-/
theorem body_cases
    {path name : String}
    {before idles : List String}
    (hSegments : segments path = before ++ name :: idles)
    (hName : isIdle name = false)
    (hIdle : ∀ idle ∈ idles, isIdle idle = true) :
    (isAbsolute path = true ∧ ∃ rest,
      before = "" :: rest ∧
        body path = ([], rest ++ [name])) ∨
      (isAbsolute path = false ∧ before = [] ∧
        body path = ([name], [])) ∨
      (isAbsolute path = false ∧ ∃ first rest,
        before = first :: rest ∧ first ≠ "" ∧
          body path = ([first], rest ++ [name])) := by
  have hEmpty : name ≠ "" := by
    rintro rfl
    simp [isIdle] at hName
  by_cases hAbsolute : isAbsolute path = true
  · left
    refine ⟨hAbsolute, ?_⟩
    rcases segments_of_isAbsolute hAbsolute with
      ⟨names, hNames⟩
    cases before with
    | nil =>
        rw [hNames] at hSegments
        exact absurd (List.cons.inj hSegments).1.symm hEmpty
    | cons first rest =>
        have hFirst : first = "" := by
          rw [hNames] at hSegments
          exact (List.cons.inj hSegments).1.symm
        refine ⟨rest, by rw [hFirst], ?_⟩
        unfold body
        rw [if_pos hAbsolute, hSegments, List.cons_append,
          List.tail_cons, trimIdle_append_cons hName hIdle]
  · right
    have hRelative : isAbsolute path = false := by
      simpa using hAbsolute
    cases before with
    | nil =>
        left
        refine ⟨hRelative, rfl, ?_⟩
        unfold body
        rw [if_neg hAbsolute, hSegments]
        simp [hEmpty, trimIdle_of_isIdle hIdle]
    | cons first rest =>
        right
        have hFirst : first ≠ "" := by
          rintro rfl
          have hNone := segments_eq_of_empty hRelative
            hSegments
          simp at hNone
        refine ⟨hRelative, first, rest, rfl, hFirst, ?_⟩
        unfold body
        rw [if_neg hAbsolute, hSegments]
        simp only [List.cons_append, String.isEmpty_iff,
          if_neg hFirst, trimIdle_append_cons hName hIdle]

/-
  The file name is the last name that counts, if it is not
  two dots.
-/
theorem fileName?_of_segments
    {path name : String}
    {before idles : List String}
    (hSegments : segments path = before ++ name :: idles)
    (hName : isIdle name = false)
    (hUp : name ≠ "..")
    (hIdle : ∀ idle ∈ idles, isIdle idle = true) :
    fileName? path = some name := by
  have hDot : name ≠ "." := by
    rintro rfl
    simp [isIdle] at hName
  have hLast :
      ((body path).1 ++ (body path).2).getLast? =
        some name := by
    rcases body_cases hSegments hName hIdle with
      ⟨-, rest, -, hBody⟩ | ⟨-, -, hBody⟩ |
        ⟨-, first, rest, -, -, hBody⟩
    · rw [hBody, List.nil_append, List.getLast?_concat]
    · rw [hBody]
      rfl
    · rw [hBody, ← List.append_assoc, List.getLast?_concat]
  unfold fileName?
  simp [hLast, hDot, hUp]

/-
  What is put behind a path, without another slash and not
  too short, goes to its file name.
-/
theorem exists_fileName?_append (path : String) :
    ∃ last, ∀ tail : String, '/' ∉ tail.toList →
      2 < tail.toList.length →
        fileName? (path ++ tail) = some (last ++ tail) := by
  rcases exists_segments_append path with
    ⟨before, last, hSegments⟩
  refine ⟨last, ?_⟩
  intro tail hTail hLength
  have hLong : 2 < (last ++ tail).toList.length := by
    rw [String.toList_append, List.length_append]
    omega
  have hOther :
      ∀ name : String, name.toList.length ≤ 2 →
        last ++ tail ≠ name := by
    rintro name hName rfl
    omega
  apply fileName?_of_segments (hSegments tail hTail)
  · simp [isIdle, hOther "" (by decide),
      hOther "." (by decide)]
  · exact hOther ".." (by decide)
  · simp

theorem mem_of_mem_trimIdle
    {names : List String}
    {name : String}
    (hName : name ∈ trimIdle names) :
    name ∈ names := by
  have hMem := List.mem_reverse.mp hName
  exact List.mem_reverse.mp
    ((List.dropWhile_sublist _).subset hMem)

/- The file name is one of the names of a path. -/
theorem mem_segments_of_fileName?
    {path name : String}
    (hName : fileName? path = some name) :
    name ∈ segments path := by
  have hMem :
      name ∈ (body path).1 ++ (body path).2 := by
    unfold fileName? at hName
    cases hLast :
      ((body path).1 ++ (body path).2).getLast? with
    | none =>
        simp [hLast] at hName
    | some last =>
        have hEq : last = name := by
          simp only [hLast] at hName
          split at hName
          · cases hName
          · exact Option.some.inj hName
        rw [← hEq]
        exact List.mem_of_getLast? hLast
  unfold body at hMem
  by_cases hAbsolute : isAbsolute path = true
  · rw [if_pos hAbsolute] at hMem
    exact List.mem_of_mem_tail
      (mem_of_mem_trimIdle (by simpa using hMem))
  · rw [if_neg hAbsolute] at hMem
    cases hSegments : segments path with
    | nil =>
        simp [hSegments] at hMem
    | cons first rest =>
        rw [hSegments] at hMem
        by_cases hFirst : first.isEmpty = true
        · simp [hFirst] at hMem
        · simp only [if_neg hFirst] at hMem
          rcases List.mem_append.mp hMem with hMem | hMem
          · rw [List.mem_singleton.mp hMem]
            exact List.mem_cons_self ..
          · exact List.mem_cons_of_mem _
              (mem_of_mem_trimIdle hMem)

------------------------------------------------------------
-- Parents
------------------------------------------------------------

/- The names that count. -/
def steps (names : List String) : List String :=
  names.filter fun name => !isIdle name

/- Trimming keeps all names that count. -/
theorem steps_trimIdle (names : List String) :
    steps (trimIdle names) = steps names := by
  have hDropped :
      steps (names.reverse.takeWhile isIdle).reverse =
        [] := by
    unfold steps
    rw [List.filter_eq_nil_iff]
    intro name hName
    have hIdle := List.mem_takeWhile_imp
      (List.mem_reverse.mp hName)
    simp [hIdle]
  have hParts :
      names = trimIdle names ++
        (names.reverse.takeWhile isIdle).reverse := by
    unfold trimIdle
    rw [← List.reverse_append,
      List.takeWhile_append_dropWhile, List.reverse_reverse]
  rw [steps] at hDropped
  conv =>
    rhs
    rw [hParts, steps, List.filter_append, hDropped,
      List.append_nil]
  rfl

theorem steps_cons_trimIdle
    (first : String)
    (rest : List String) :
    steps (first :: trimIdle rest) =
      steps (first :: rest) := by
  have hRest := steps_trimIdle rest
  unfold steps at hRest ⊢
  rw [List.filter_cons, List.filter_cons, hRest]

theorem segments_textJoin
    {names : List String}
    (hNames : ∀ name ∈ names, '/' ∉ name.toList)
    (hNonempty : names ≠ []) :
    segments (Text.join "/" names) = names :=
  Text.split_join hNames hNonempty

theorem steps_segments_textJoin
    {names : List String}
    (hNames : ∀ name ∈ names, '/' ∉ name.toList) :
    steps (segments (Text.join "/" names)) =
      steps names := by
  by_cases hNonempty : names = []
  · rw [hNonempty]
    rfl
  · rw [segments_textJoin hNames hNonempty]

theorem segments_slash (text : String) :
    segments ("/" ++ text) = "" :: segments text := by
  have hText :
      ("/" ++ text).toList = [] ++ '/' :: text.toList := by
    rw [String.toList_append]
    rfl
  rw [segments_of_toList hText, String.ofList_toList]
  rfl

/- The parent of a path lacks the last name of its body. -/
theorem parent?_of_body
    {path name : String}
    {first rest : List String}
    (hBody : body path = (first, rest ++ [name])) :
    parent? path =
      some (ofSegments (isAbsolute path)
        (first ++ trimIdle rest)) := by
  unfold parent?
  rw [hBody]
  cases hRest : rest ++ [name] with
  | nil =>
      simp at hRest
  | cons head tail =>
      have hDrop : (head :: tail).dropLast = rest := by
        rw [← hRest, List.dropLast_concat]
      cases first with
      | nil =>
          simp only [hDrop]
      | cons only others =>
          simp only [hDrop]

/-
  The parent of a path has the names that count before the
  file name.  It is empty, or starts where the path does.
-/
theorem parent?_of_segments
    {path name : String}
    {before idles : List String}
    (hSegments : segments path = before ++ name :: idles)
    (hName : isIdle name = false)
    (hIdle : ∀ idle ∈ idles, isIdle idle = true) :
    ∃ parent, parent? path = some parent ∧
      steps (segments parent) = steps before ∧
      ((parent = "" ∧ isAbsolute path = false) ∨
        (parent ≠ "" ∧
          isAbsolute parent = isAbsolute path)) := by
  have hSlashes :
      ∀ other ∈ before, '/' ∉ other.toList := by
    intro other hOther
    have hMem : other ∈ segments path := by
      rw [hSegments]
      exact List.mem_append_left _ hOther
    exact not_mem_of_mem_segments hMem
  rcases body_cases hSegments hName hIdle with
    ⟨hAbsolute, rest, rfl, hBody⟩ |
      ⟨hRelative, rfl, hBody⟩ |
      ⟨hRelative, first, rest, rfl, hFirst, hBody⟩
  · have hParent :
        parent? path =
          some ("/" ++ Text.join "/" (trimIdle rest)) := by
      rw [parent?_of_body hBody, hAbsolute]
      rfl
    refine ⟨_, hParent, ?_, Or.inr ⟨?_, ?_⟩⟩
    · rw [segments_slash, steps, steps,
        List.filter_cons_of_neg (by decide),
        List.filter_cons_of_neg (by decide), ← steps,
        ← steps, steps_segments_textJoin, steps_trimIdle]
      intro other hOther
      exact hSlashes other (List.mem_cons_of_mem _
        (mem_of_mem_trimIdle hOther))
    · intro hEq
      have hChars := congrArg String.toList hEq
      rw [String.toList_append] at hChars
      cases hChars
    · rw [hAbsolute, isAbsolute, String.toList_append]
      rfl
  · refine ⟨"", ?_, rfl, Or.inl ⟨rfl, hRelative⟩⟩
    unfold parent?
    rw [hBody]
  · have hParent :
        parent? path = some
          (Text.join "/" (first :: trimIdle rest)) := by
      rw [parent?_of_body hBody, hRelative]
      rfl
    have hParts :
        segments (Text.join "/" (first :: trimIdle rest)) =
          first :: trimIdle rest := by
      apply segments_textJoin
      · intro other hOther
        rcases List.mem_cons.mp hOther with rfl | hOther
        · exact hSlashes _ (List.mem_cons_self ..)
        · exact hSlashes _ (List.mem_cons_of_mem _
            (mem_of_mem_trimIdle hOther))
      · simp
    refine ⟨_, hParent, ?_, Or.inr ⟨?_, ?_⟩⟩
    · rw [hParts, steps_cons_trimIdle]
    · intro hEq
      rw [hEq] at hParts
      exact hFirst (List.cons.inj hParts).1.symm
    · rw [hRelative]
      by_contra hAbsolute
      rcases segments_of_isAbsolute
        (by simpa using hAbsolute) with ⟨names, hNames⟩
      rw [hParts] at hNames
      exact hFirst (List.cons.inj hNames).1

------------------------------------------------------------
-- Extensions
------------------------------------------------------------

/- What follows the last dot of a name is its extension. -/
theorem extension_splitName_append
    {name : String}
    {front back : List Char}
    (hName : name.toList = front ++ '.' :: back)
    (hFront : front ≠ [])
    (hBack : '.' ∉ back) :
    (splitName name).2 = some (String.ofList back) := by
  have hEnding :
      (name.toList.reverse.takeWhile (· != '.')).reverse =
        back := by
    rw [hName, List.reverse_append, List.reverse_cons,
      List.append_assoc, List.takeWhile_append_of_pos]
    · simp
    · intro c hc
      have hNe : c ≠ '.' := by
        rintro rfl
        exact hBack (List.mem_reverse.mp hc)
      simpa using hNe
  have hCount :
      ¬ name.toList.length - back.length ≤ 1 := by
    have hPos := List.length_pos_of_ne_nil hFront
    rw [hName, List.length_append, List.length_cons]
    omega
  unfold splitName
  simp only [hEnding]
  rw [if_neg hCount]

/- A dot in front of a name is followed by no extension. -/
theorem extension_splitName_cons
    {name : String}
    {back : List Char}
    (hName : name.toList = '.' :: back)
    (hBack : '.' ∉ back) :
    (splitName name).2 = none := by
  have hEnding :
      (name.toList.reverse.takeWhile (· != '.')).reverse =
        back := by
    rw [hName, List.reverse_cons,
      List.takeWhile_append_of_pos]
    · simp
    · intro c hc
      have hNe : c ≠ '.' := by
        rintro rfl
        exact hBack (List.mem_reverse.mp hc)
      simpa using hNe
  have hCount :
      name.toList.length - back.length ≤ 1 := by
    rw [hName, List.length_cons]
    omega
  unfold splitName
  simp only [hEnding]
  rw [if_pos hCount]

/- An extension holds neither dots nor slashes. -/
theorem not_mem_of_extension?
    {path extension : String}
    (hExtension : extension? path = some extension) :
    '.' ∉ extension.toList ∧ '/' ∉ extension.toList := by
  rcases Option.bind_eq_some_iff.mp hExtension with
    ⟨name, hName, hSplit⟩
  unfold splitName at hSplit
  by_cases hCount :
    name.toList.length -
        (name.toList.reverse.takeWhile
          (· != '.')).reverse.length ≤ 1
  · simp only [if_pos hCount] at hSplit
    cases hSplit
  · simp only [if_neg hCount] at hSplit
    cases hSplit
    rw [String.toList_ofList]
    constructor
    · intro hDot
      have hNe := List.mem_takeWhile_imp
        (List.mem_reverse.mp hDot)
      simp at hNe
    · intro hSlash
      have hMem := (List.takeWhile_sublist _).subset
        (List.mem_reverse.mp hSlash)
      exact not_mem_of_mem_segments
        (mem_segments_of_fileName? hName)
        (List.mem_reverse.mp hMem)

end Path

end Slideshow
