import Mathlib.Data.List.Forall2
import Slideshow.Json.Number
import Slideshow.Proofs.Json.Tree

/-
  This file proves that the indented text of a document is a
  layout of a value it is written as.

  The fields of a record may be written in any order, so one
  document is written as several values.  The indented text
  is that of the value with the order of the document.

  Key definitions include:
    * `Json.IsReadBack`
    * `Json.Document.IsWrittenAs`
    * `Json.Document.reals`
    * `Json.Document.fields`
    * `Json.LaysOut`

  Main results include:
    * `Json.laysOut_enclose`
    * `Json.Document.exists_isWrittenAs`
    * `Json.Document.exists_isLaidOut_indented`
-/

namespace Slideshow

namespace Json

------------------------------------------------------------
-- Written Documents
------------------------------------------------------------

/- The text of a double is read as the same double. -/
def IsReadBack (x : Float) : Prop :=
  (Number.ofChars? (Decimal.numberText x).toList).bind
    Number.toFloat? = some x

instance (x : Float) : Decidable (IsReadBack x) :=
  inferInstanceAs (Decidable (_ = _))

namespace Document

mutual

/-
  A document is written as a value.  A real number stands as
  its numeral, and the fields of a record in any order.
-/
inductive IsWrittenAs : Document → Value → Prop
| null :
    IsWrittenAs .null .null
| bool (b : Bool) :
    IsWrittenAs (.bool b) (.bool b)
| natural (n : Nat) :
    IsWrittenAs (.natural n)
      (.number ⟨false, Nat.toDigits 10 n, none, none⟩)
| real {x : Float} {n : Number}
    (hNumeral :
      Number.ofChars? (Decimal.numberText x).toList =
        some n) :
    IsWrittenAs (.real x) (.number n)
| text (s : String) :
    IsWrittenAs (.text s) (.text (.whole s))
| list {items : List Document} {values : List Value}
    (hItems : AreWrittenAs items values) :
    IsWrittenAs (.list items) (.list values)
| record {fields : List (String × Document)}
    {known written : List (Text × Value)}
    (hFields : AreFieldsAs fields known)
    (hOrder : written.Perm known) :
    IsWrittenAs (.record fields) (.record written)

/- Documents are written as values, one by one. -/
inductive AreWrittenAs :
    List Document → List Value → Prop
| nil :
    AreWrittenAs [] []
| cons {item : Document} {items : List Document}
    {v : Value} {values : List Value}
    (hItem : IsWrittenAs item v)
    (hItems : AreWrittenAs items values) :
    AreWrittenAs (item :: items) (v :: values)

/- Fields are written as fields, one by one. -/
inductive AreFieldsAs :
    List (String × Document) →
      List (Text × Value) → Prop
| nil :
    AreFieldsAs [] []
| cons {key : String} {item : Document}
    {fields : List (String × Document)}
    {v : Value} {known : List (Text × Value)}
    (hItem : IsWrittenAs item v)
    (hFields : AreFieldsAs fields known) :
    AreFieldsAs ((key, item) :: fields)
      ((.whole key, v) :: known)

end

mutual

/- The real numbers in a document, in order. -/
def reals : Document → List Float
  | .real x => [x]
  | .list items => itemReals items
  | .record fields => fieldReals fields
  | _ => []

/- The real numbers in the items of a list. -/
def itemReals : List Document → List Float
  | [] => []
  | item :: rest => reals item ++ itemReals rest

/- The real numbers in the fields of a record. -/
def fieldReals : List (String × Document) → List Float
  | [] => []
  | (_, item) :: rest => reals item ++ fieldReals rest

end

/- The fields of a document that is a record. -/
def fields : Document → List (String × Document)
  | .record fields => fields
  | _ => []

end Document

------------------------------------------------------------
-- Layouts of Parts
------------------------------------------------------------

/- What follows may stand behind any token. -/
def Stops (tail : List Char) : Prop :=
  ∀ c ∈ tail.head?,
    isWordChar c = false ∧ isNumberChar c = false

/-
  Tokens can be laid out as a text in front of every layout
  that may stand behind them.
-/
def LaysOut
    (tokens : List Token)
    (cs : List Char) : Prop :=
  ∀ rest tail,
    Stops tail →
      IsLaidOut rest tail →
        IsLaidOut (tokens ++ rest) (cs ++ tail)

/- A mark stops what stands in front of it. -/
theorem stops_of_mark
    {c : Char}
    {token : Token}
    (hMark : mark? c = some token)
    (cs : List Char) :
    Stops (c :: cs) := by
  intro d hd
  cases hd
  unfold mark? at hMark
  split at hMark
  all_goals first | decide | cases hMark

theorem stops_newLine
    (level : Nat)
    (cs : List Char) :
    Stops ((Document.newLine level).toList ++ cs) := by
  intro c hc
  rw [Document.newLine, String.toList_ofList] at hc
  cases hc
  decide

theorem isSpace_newLine (level : Nat) :
    ∀ c ∈ (Document.newLine level).toList,
      isSpace c = true := by
  intro c hc
  rw [Document.newLine, String.toList_ofList,
    List.mem_cons] at hc
  rcases hc with rfl | hc
  · decide
  · rw [List.eq_of_mem_replicate hc]
    decide

theorem endsBefore_of_stops
    {tail : List Char}
    (token : Token)
    (hStops : Stops tail) :
    token.EndsBefore tail := by
  cases token with
  | atom v =>
      exact hStops
  | _ =>
      trivial

theorem laysOut_singleton
    {token : Token}
    {cs : List Char}
    (hToken : token.IsSpelled cs) :
    LaysOut [token] cs := by
  intro rest tail hStops hRest
  have hNone : ∀ c ∈ ([] : List Char), isSpace c = true := by
    simp
  exact .next hNone hToken
    (endsBefore_of_stops token hStops) hRest

/- White space may stand in front of a layout. -/
theorem LaysOut.space
    {tokens : List Token}
    {space cs : List Char}
    (hTokens : LaysOut tokens cs)
    (hSpace : ∀ c ∈ space, isSpace c = true) :
    LaysOut tokens (space ++ cs) := by
  intro rest tail hStops hRest
  have hBoth :
      ∀ more : List Char, (∀ c ∈ more, isSpace c = true) →
        ∀ c ∈ space ++ more, isSpace c = true := by
    intro more hMore c hc
    rcases List.mem_append.mp hc with hc | hc
    · exact hSpace c hc
    · exact hMore c hc
  have hText := hTokens rest tail hStops hRest
  rw [List.append_assoc]
  generalize tokens ++ rest = all at hText
  generalize cs ++ tail = text at hText
  cases hText with
  | done hMore =>
      exact .done (hBoth _ hMore)
  | next hMore hToken hEnd hRest =>
      rw [← List.append_assoc]
      exact .next (hBoth _ hMore) hToken hEnd hRest

/- One layout may stand in front of another that stops it. -/
theorem LaysOut.append
    {tokens tokens' : List Token}
    {cs cs' : List Char}
    (hFirst : LaysOut tokens cs)
    (hSecond : LaysOut tokens' cs')
    (hStops : ∀ tail, Stops tail → Stops (cs' ++ tail)) :
    LaysOut (tokens ++ tokens') (cs ++ cs') := by
  intro rest tail hTail hRest
  rw [List.append_assoc, List.append_assoc]
  exact hFirst _ _ (hStops tail hTail)
    (hSecond rest tail hTail hRest)

theorem LaysOut.append_mark
    {tokens : List Token}
    {cs : List Char}
    {c : Char}
    {token : Token}
    (hTokens : LaysOut tokens cs)
    (hMark : mark? c = some token) :
    LaysOut (tokens ++ [token]) (cs ++ [c]) :=
  hTokens.append (laysOut_singleton (.mark hMark))
    fun tail _ => stops_of_mark hMark tail

/- A mark and a line break may stand in front of a layout. -/
theorem LaysOut.markedLine
    {tokens : List Token}
    {cs : List Char}
    {c : Char}
    {token : Token}
    (hTokens : LaysOut tokens cs)
    (hMark : mark? c = some token)
    (level : Nat) :
    LaysOut (token :: tokens)
      (c :: ((Document.newLine level).toList ++ cs)) := by
  refine (laysOut_singleton (.mark hMark)).append
    (hTokens.space (isSpace_newLine level)) ?_
  intro tail _
  have hStops := stops_newLine level (cs ++ tail)
  rw [← List.append_assoc] at hStops
  exact hStops

/- Parts are laid out on lines of their own. -/
theorem laysOut_intercalate
    {parts : List (List Token)}
    {texts : List String}
    (level : Nat)
    (hParts :
      List.Forall₂
        (fun tokens text => LaysOut tokens text.toList)
        parts texts) :
    LaysOut ([Token.comma].intercalate parts)
      (("," ++ Document.newLine level).intercalate
        texts).toList := by
  induction hParts with
  | nil =>
      intro rest tail _ hRest
      exact hRest
  | @cons tokens text parts texts hFirst hRest ih =>
      rw [String.toList_intercalate] at ih ⊢
      cases hRest with
      | nil =>
          rw [List.map_singleton,
            List.intercalate_singleton,
            List.intercalate_singleton]
          exact hFirst
      | cons hNext hRest =>
          have hComma : mark? ',' = some .comma := rfl
          have hBoth :=
            hFirst.append (ih.markedLine hComma level)
              fun tail _ => stops_of_mark hComma _
          rw [List.map_cons, List.map_cons,
            List.intercalate_cons_cons,
            List.intercalate_cons_cons, ← List.map_cons,
            List.append_assoc, List.append_assoc]
          rw [String.toList_append] at hBoth ⊢
          exact hBoth

/- Parts are laid out between two marks. -/
theorem laysOut_enclose
    {opening closing : String}
    {first last : Char}
    {openToken closeToken : Token}
    {parts : List (List Token)}
    {texts : List String}
    (level : Nat)
    (hFirst : opening.toList = [first])
    (hLast : closing.toList = [last])
    (hOpen : mark? first = some openToken)
    (hClose : mark? last = some closeToken)
    (hParts :
      List.Forall₂
        (fun tokens text => LaysOut tokens text.toList)
        parts texts) :
    LaysOut
      (openToken ::
        ([Token.comma].intercalate parts ++ [closeToken]))
      (Document.enclose opening closing level
        texts).toList := by
  have hLines := laysOut_intercalate (level + 1) hParts
  cases hParts with
  | nil =>
      have hMarks :=
        (laysOut_singleton (.mark hOpen)).append_mark hClose
      rw [Document.enclose, List.isEmpty_nil, if_pos rfl,
        String.toList_append, hFirst, hLast,
        List.intercalate_nil]
      exact hMarks
  | cons _ _ =>
      have hEnd :=
        (laysOut_singleton (.mark hClose)).space
          (isSpace_newLine level)
      have hInner :=
        (hLines.append hEnd fun tail _ => by
          rw [List.append_assoc]
          exact stops_newLine level _).markedLine hOpen
            (level + 1)
      rw [Document.enclose, if_neg (by simp)]
      simp only [String.toList_append, hFirst, hLast,
        List.append_assoc, List.singleton_append]
        at hInner ⊢
      exact hInner

------------------------------------------------------------
-- Indented Text
------------------------------------------------------------

namespace Document

mutual

/-
  A document is written as a value whose tokens are laid out
  as its text.
-/
theorem exists_isWrittenAs
    (d : Document)
    (level : Nat)
    (hReals : ∀ x ∈ d.reals, IsReadBack x) :
    ∃ v,
      d.IsWrittenAs v ∧
        LaysOut v.tokens (d.textAt level).toList := by
  cases d with
  | null =>
      refine ⟨_, .null, ?_⟩
      rw [textAt]
      exact laysOut_singleton (.word rfl)
  | bool b =>
      refine ⟨_, .bool b, ?_⟩
      cases b with
      | true =>
          rw [textAt]
          exact laysOut_singleton (.word rfl)
      | false =>
          rw [textAt]
          exact laysOut_singleton (.word rfl)
  | natural n =>
      refine ⟨_, .natural n, ?_⟩
      rw [textAt]
      exact laysOut_singleton
        (.number (Number.ofChars?_write n))
  | real x =>
      have hBack := hReals x (by simp [reals])
      rcases Option.bind_eq_some_iff.mp hBack with
        ⟨n, hNumeral, -⟩
      refine ⟨_, .real hNumeral, ?_⟩
      rw [textAt]
      exact laysOut_singleton (.number hNumeral)
  | text s =>
      refine ⟨_, .text s, ?_⟩
      rw [textAt]
      exact laysOut_singleton (Token.isSpelled_quoted s)
  | list items =>
      rw [reals] at hReals
      rcases exists_areWrittenAs items (level + 1) hReals with
        ⟨values, hItems, hParts⟩
      refine ⟨_, .list hItems, ?_⟩
      rw [Value.tokens_list, textAt]
      exact laysOut_enclose level rfl rfl rfl rfl hParts
  | record fields =>
      rw [reals] at hReals
      rcases exists_areFieldsAs fields (level + 1) hReals with
        ⟨known, hFields, hParts⟩
      refine ⟨_, .record hFields (.refl known), ?_⟩
      rw [Value.tokens_record, textAt]
      exact laysOut_enclose level rfl rfl rfl rfl hParts

/- So are the items of a list. -/
theorem exists_areWrittenAs
    (items : List Document)
    (level : Nat)
    (hReals : ∀ x ∈ itemReals items, IsReadBack x) :
    ∃ values,
      AreWrittenAs items values ∧
        List.Forall₂
          (fun tokens text => LaysOut tokens text.toList)
          (values.map Value.tokens)
          (itemTexts level items) := by
  cases items with
  | nil =>
      exact ⟨[], .nil, .nil⟩
  | cons item items =>
      rw [itemReals, List.forall_mem_append] at hReals
      rcases exists_isWrittenAs item level hReals.1 with
        ⟨v, hItem, hPart⟩
      rcases exists_areWrittenAs items level hReals.2 with
        ⟨values, hItems, hParts⟩
      exact ⟨v :: values, .cons hItem hItems,
        .cons hPart hParts⟩

/- And the fields of a record. -/
theorem exists_areFieldsAs
    (fields : List (String × Document))
    (level : Nat)
    (hReals : ∀ x ∈ fieldReals fields, IsReadBack x) :
    ∃ known,
      AreFieldsAs fields known ∧
        List.Forall₂
          (fun tokens text => LaysOut tokens text.toList)
          (known.map Value.fieldParts)
          (fieldTexts level fields) := by
  cases fields with
  | nil =>
      exact ⟨[], .nil, .nil⟩
  | cons field fields =>
      rcases field with ⟨key, item⟩
      rw [fieldReals, List.forall_mem_append] at hReals
      rcases exists_isWrittenAs item level hReals.1 with
        ⟨v, hItem, hPart⟩
      rcases exists_areFieldsAs fields level hReals.2 with
        ⟨known, hFields, hParts⟩
      refine ⟨(.whole key, v) :: known, .cons hItem hFields,
        .cons ?_ hParts⟩
      have hColon : mark? ':' = some .colon := rfl
      have hSpace : ∀ c ∈ [' '], isSpace c = true := by
        simp [isSpace]
      have hKey :=
        (laysOut_singleton
          (Token.isSpelled_quoted key)).append_mark hColon
      have hField :=
        hKey.append (hPart.space hSpace) fun tail _ => by
          intro c hc
          cases hc
          decide
      rw [String.toList_append, String.toList_append]
      simp only [List.append_assoc] at hField ⊢
      exact hField

end

/- The indented text of a document is a layout of it. -/
theorem exists_isLaidOut_indented
    {d : Document}
    (hReals : ∀ x ∈ d.reals, IsReadBack x) :
    ∃ v,
      d.IsWrittenAs v ∧
        IsLaidOut v.tokens d.indented.toList := by
  rcases exists_isWrittenAs d 0 hReals with
    ⟨v, hWritten, hTokens⟩
  have hNone : ∀ c ∈ ([] : List Char), isSpace c = true := by
    simp
  have hText := hTokens [] [] (by simp [Stops]) (.done hNone)
  rw [List.append_nil, List.append_nil] at hText
  exact ⟨v, hWritten, hText⟩

end Document

end Json

end Slideshow
