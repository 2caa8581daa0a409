import Slideshow.Json.Decoder
import Slideshow.Proofs.Json.Document

/-
  This file proves that a decoder reads a document from any
  value it is written as.

  The fields of a record are found by their keys, so what
  stands in them depends neither on their order nor on other
  fields with keys of their own, as long as no key is
  repeated.

  Key definitions include:
    * `Json.HoldsFields`
    * `Json.IsPart`
    * `Json.Decoder.Reads`
    * `Json.Document.IsSound`

  Main results include:
    * `Json.HoldsFields.exists_parts?`
    * `Json.Decoder.reads_list`
    * `Json.IsPart.orElse_eq`
    * `Json.Document.IsWrittenAs.holdsFields_of_perm`
    * `Json.Document.IsWrittenAs.exists_parts?`
    * `Json.Document.isSound_record`
-/

namespace Slideshow

namespace Json

------------------------------------------------------------
-- Fields by Key
------------------------------------------------------------

/-
  A record holds the chosen ones of its fields, in any order
  and among others with keys of their own.
-/
def HoldsFields
    (fields : List (String × Document))
    (chosen : List String)
    (written : List (Text × Value)) : Prop :=
  ∃ known extra,
    Document.AreFieldsAs
        (fields.filter fun field => field.1 ∈ chosen)
        known ∧
      (∀ field ∈ extra,
        ∃ key,
          field.1 = .whole key ∧
            key ∉ fields.map Prod.fst) ∧
        written.Perm (known ++ extra)

/- What is found in the place of a field. -/
inductive IsPart (chosen : List String) :
    String × Document → Option Value → Prop
| given {key : String} {d : Document} {v : Value}
    (hChosen : key ∈ chosen)
    (hWritten : d.IsWrittenAs v) :
    IsPart chosen (key, d) (some v)
| absent {key : String} {d : Document}
    (hAbsent : key ∉ chosen) :
    IsPart chosen (key, d) none

namespace Document

/- What is written of fields is written of one of them. -/
theorem AreFieldsAs.exists_of_mem
    {fields : List (String × Document)}
    {known : List (Text × Value)}
    (hFields : AreFieldsAs fields known) :
    ∀ place ∈ known,
      ∃ field ∈ fields,
        place.1 = .whole field.1 ∧
          field.2.IsWrittenAs place.2 := by
  induction fields generalizing known with
  | nil =>
      cases hFields
      simp
  | cons field fields ih =>
      cases hFields with
      | cons hItem hRest =>
          rw [List.forall_mem_cons]
          refine ⟨⟨_, List.mem_cons_self, rfl, hItem⟩, ?_⟩
          intro place hPlace
          rcases ih hRest place hPlace with
            ⟨other, hOther, hEq⟩
          exact ⟨other, List.mem_cons_of_mem _ hOther, hEq⟩

/- So it is with the items of a list. -/
theorem AreWrittenAs.exists_of_mem
    {items : List Document}
    {values : List Value}
    (hItems : AreWrittenAs items values) :
    ∀ v ∈ values, ∃ item ∈ items, item.IsWrittenAs v := by
  induction items generalizing values with
  | nil =>
      cases hItems
      simp
  | cons item items ih =>
      cases hItems with
      | cons hItem hRest =>
          rw [List.forall_mem_cons]
          refine ⟨⟨_, List.mem_cons_self, hItem⟩, ?_⟩
          intro v hv
          rcases ih hRest v hv with ⟨other, hOther, hEq⟩
          exact ⟨other, List.mem_cons_of_mem _ hOther, hEq⟩

/- Fields in another order are written in that order. -/
theorem AreFieldsAs.exists_of_perm
    {fields fields' : List (String × Document)}
    {known : List (Text × Value)}
    (hFields : AreFieldsAs fields known)
    (hOrder : fields.Perm fields') :
    ∃ known',
      AreFieldsAs fields' known' ∧ known.Perm known' := by
  induction hOrder generalizing known with
  | nil =>
      exact ⟨known, hFields, .refl known⟩
  | cons field _ ih =>
      cases hFields with
      | cons hItem hRest =>
          rcases ih hRest with ⟨known', hRest', hSame⟩
          exact ⟨_, .cons hItem hRest', hSame.cons _⟩
  | swap first second fields =>
      rcases hFields with _ | ⟨hSecond, _ | ⟨hFirst, hRest⟩⟩
      exact ⟨_, .cons hFirst (.cons hSecond hRest),
        .swap _ _ _⟩
  | trans _ _ ih ih' =>
      rcases ih hFields with ⟨middle, hMiddle, hSame⟩
      rcases ih' hMiddle with ⟨known', hFields', hSame'⟩
      exact ⟨known', hFields', hSame.trans hSame'⟩

/- Fields in two parts are written in two parts. -/
theorem AreFieldsAs.exists_of_append
    {first second : List (String × Document)}
    {known : List (Text × Value)}
    (hFields : AreFieldsAs (first ++ second) known) :
    ∃ front back,
      known = front ++ back ∧
        AreFieldsAs first front ∧
        AreFieldsAs second back := by
  induction first generalizing known with
  | nil =>
      exact ⟨[], known, rfl, .nil, hFields⟩
  | cons field first ih =>
      cases hFields with
      | cons hItem hRest =>
          rcases ih hRest with
            ⟨front, back, rfl, hFront, hBack⟩
          exact ⟨_, back, rfl, .cons hItem hFront, hBack⟩

end Document

theorem fieldsOf_eq_nil
    {key : String}
    {written : List (Text × Value)}
    (hKey : ∀ field ∈ written, field.1 ≠ .whole key) :
    Value.fieldsOf key written = [] := by
  rw [Value.fieldsOf, List.map_eq_nil_iff,
    List.filter_eq_nil_iff]
  intro field hField hEq
  exact hKey field hField (by simpa using hEq)

theorem fieldsOf_append
    (key : String)
    (first second : List (Text × Value)) :
    Value.fieldsOf key (first ++ second) =
      Value.fieldsOf key first ++
        Value.fieldsOf key second := by
  rw [Value.fieldsOf, List.filter_append, List.map_append]
  rfl

namespace Document

/- A key without field is not written. -/
theorem AreFieldsAs.fieldsOf_of_not_mem
    {fields : List (String × Document)}
    {known : List (Text × Value)}
    {key : String}
    (hFields : AreFieldsAs fields known)
    (hKey : key ∉ fields.map Prod.fst) :
    Value.fieldsOf key known = [] := by
  refine fieldsOf_eq_nil ?_
  intro place hPlace hEq
  rcases hFields.exists_of_mem place hPlace with
    ⟨field, hField, hWhole, -⟩
  rw [hEq] at hWhole
  cases hWhole
  exact hKey (List.mem_map_of_mem hField)

/- A field is written once if its key is not repeated. -/
theorem AreFieldsAs.fieldsOf_of_mem
    {fields : List (String × Document)}
    {known : List (Text × Value)}
    {key : String}
    {d : Document}
    (hFields : AreFieldsAs fields known)
    (hKeys : (fields.map Prod.fst).Nodup)
    (hMem : (key, d) ∈ fields) :
    ∃ v,
      Value.fieldsOf key known = [v] ∧ d.IsWrittenAs v := by
  induction fields generalizing known with
  | nil =>
      cases hMem
  | cons field fields ih =>
      cases hFields with
      | @cons other item _ v known hItem hRest =>
          rw [List.map_cons, List.nodup_cons] at hKeys
          rw [← List.singleton_append, fieldsOf_append]
          rcases List.mem_cons.mp hMem with hEq | hMem
          · cases hEq
            refine ⟨v, ?_, hItem⟩
            rw [hRest.fieldsOf_of_not_mem hKeys.1]
            simp [Value.fieldsOf]
          · rcases ih hRest hKeys.2 hMem with
              ⟨v, hSingle, hWritten⟩
            have hKey := List.mem_map_of_mem
              (f := Prod.fst) hMem
            have hOther : other ≠ key := by
              rintro rfl
              exact hKeys.1 hKey
            refine ⟨v, ?_, hWritten⟩
            rw [hSingle, fieldsOf_eq_nil (by
              simpa using hOther), List.nil_append]

end Document

namespace HoldsFields

variable {fields : List (String × Document)}
variable {chosen : List String}
variable {written : List (Text × Value)}

/- All keys of such a record are texts. -/
theorem all_whole
    (hHolds : HoldsFields fields chosen written) :
    (written.all fun field => field.1.whole?.isSome) =
      true := by
  rcases hHolds with ⟨known, extra, hKnown, hExtra, hOrder⟩
  rw [hOrder.all_eq, List.all_append, Bool.and_eq_true,
    List.all_eq_true, List.all_eq_true]
  constructor
  · intro place hPlace
    rcases hKnown.exists_of_mem place hPlace with
      ⟨field, -, hWhole, -⟩
    rw [hWhole]
    rfl
  · intro place hPlace
    rcases hExtra place hPlace with ⟨key, hWhole, -⟩
    rw [hWhole]
    rfl

/- The place of a field holds what was written of it. -/
theorem exists_single?
    (hHolds : HoldsFields fields chosen written)
    (hKeys : (fields.map Prod.fst).Nodup)
    {field : String × Document}
    (hField : field ∈ fields) :
    ∃ part,
      Decoder.single? written field.1 = some part ∧
        IsPart chosen field part := by
  rcases hHolds with ⟨known, extra, hKnown, hExtra, hOrder⟩
  rcases field with ⟨key, d⟩
  have hNone : Value.fieldsOf key extra = [] := by
    refine fieldsOf_eq_nil ?_
    intro other hOther hEq
    rcases hExtra other hOther with ⟨_, hWhole, hFresh⟩
    rw [hEq] at hWhole
    cases hWhole
    exact hFresh (List.mem_map_of_mem hField)
  have hPerm :
      (Value.fieldsOf key written).Perm
        (Value.fieldsOf key known) := by
    have hPerm := (hOrder.filter fun field =>
      field.1 == .whole key).map Prod.snd
    have hBoth := fieldsOf_append key known extra
    rw [hNone, List.append_nil] at hBoth
    rw [← hBoth]
    exact hPerm
  by_cases hChosen : key ∈ chosen
  · have hMem :
        (key, d) ∈
          fields.filter fun field => field.1 ∈ chosen := by
      rw [List.mem_filter]
      exact ⟨hField, decide_eq_true hChosen⟩
    have hOnce :
        ((fields.filter fun field =>
          field.1 ∈ chosen).map Prod.fst).Nodup :=
      hKeys.sublist (List.filter_sublist.map Prod.fst)
    rcases hKnown.fieldsOf_of_mem hOnce hMem with
      ⟨v, hSingle, hWritten⟩
    rw [hSingle, List.perm_singleton] at hPerm
    refine ⟨some v, ?_, .given hChosen hWritten⟩
    rw [Decoder.single?, hPerm]
  · have hAbsent :
        key ∉ (fields.filter fun field =>
          field.1 ∈ chosen).map Prod.fst := by
      intro hMem
      rcases List.mem_map.mp hMem with ⟨other, hOther, hEq⟩
      rw [List.mem_filter, hEq] at hOther
      exact hChosen (of_decide_eq_true hOther.2)
    rw [hKnown.fieldsOf_of_not_mem hAbsent,
      List.perm_nil] at hPerm
    refine ⟨none, ?_, .absent hChosen⟩
    rw [Decoder.single?, hPerm]

/- The value of a chosen field is found by its key. -/
theorem exists_value
    (hHolds : HoldsFields fields chosen written)
    (hKeys : (fields.map Prod.fst).Nodup)
    {key : String}
    {d : Document}
    (hField : (key, d) ∈ fields)
    (hChosen : key ∈ chosen) :
    ∃ v,
      Decoder.single? written key = some (some v) ∧
        d.IsWrittenAs v := by
  rcases hHolds.exists_single? hKeys hField with
    ⟨_, hSingle, hPart⟩
  cases hPart with
  | given _ hWritten =>
      exact ⟨_, hSingle, hWritten⟩
  | absent hAbsent =>
      exact absurd hChosen hAbsent

/- The parts of such a record are found by their keys. -/
theorem exists_parts?
    (hHolds : HoldsFields fields chosen written)
    (hKeys : (fields.map Prod.fst).Nodup) :
    ∃ parts,
      Decoder.parts? (fields.map Prod.fst)
          (.record written) = some parts ∧
        List.Forall₂ (IsPart chosen) fields parts := by
  have hPlaces :
      ∀ field ∈ fields,
        ∃ part,
          Decoder.single? written field.1 = some part ∧
            IsPart chosen field part :=
    fun field hField =>
      hHolds.exists_single? hKeys hField
  rw [Decoder.parts?, if_pos hHolds.all_whole]
  clear hHolds hKeys
  induction fields with
  | nil =>
      exact ⟨[], rfl, .nil⟩
  | cons field fields ih =>
      rw [List.forall_mem_cons] at hPlaces
      rcases hPlaces.1 with ⟨part, hSingle, hPart⟩
      rcases ih hPlaces.2 with ⟨parts, hParts, hRest⟩
      refine ⟨part :: parts, ?_, .cons hPart hRest⟩
      rw [List.map_cons, List.mapM_cons, hSingle, hParts]
      rfl

end HoldsFields

------------------------------------------------------------
-- Decoders
------------------------------------------------------------

/- A decoder reads what a document stands for. -/
def Decoder.Reads
    {α : Type}
    (decode : Decoder α)
    (d : Document)
    (a : α) : Prop :=
  ∀ v, d.IsWrittenAs v → decode v = some a

namespace Decoder

/- A written number has its value. -/
theorem word_natural
    {n : Nat}
    (hFits : n < UInt64.size) :
    word (.number ⟨false, Nat.toDigits 10 n, none, none⟩) =
      some n.toUInt64 := by
  have hValue :
      Number.digitsValue (Nat.toDigits 10 n) = n := by
    rw [Number.digitsValue, Numeral.valueFrom?_toDigits]
    rfl
  rw [word, Number.toWord?]
  simp only [hValue]
  rw [if_pos ⟨rfl, rfl, hFits⟩]

/- A number of 32 bits is read. -/
theorem reads_word32 (n : UInt32) :
    word32.Reads (.natural n.toNat) n := by
  intro v hWritten
  cases hWritten
  have hSize := n.toNat_lt
  have hWord : n.toNat.toUInt64.toNat = n.toNat := by
    simp
  rw [word32, word_natural (by simp [UInt64.size]; omega),
    Option.bind_some, hWord, if_pos hSize]
  congr 1
  apply UInt32.toNat_inj.mp
  simp

/- A number of 8 bits is read. -/
theorem reads_word8 (n : UInt8) :
    word8.Reads (.natural n.toNat) n := by
  intro v hWritten
  cases hWritten
  have hSize := n.toNat_lt
  have hWord : n.toNat.toUInt64.toNat = n.toNat := by
    simp
  rw [word8, word_natural (by simp [UInt64.size]; omega),
    Option.bind_some, hWord, if_pos hSize]
  congr 1
  apply UInt8.toNat_inj.mp
  simp

theorem reads_float
    {x : Float}
    (hBack : IsReadBack x) :
    float.Reads (.real x) x := by
  intro v hWritten
  cases hWritten with
  | real hNumeral =>
      rw [IsReadBack, hNumeral] at hBack
      exact hBack

theorem reads_text (s : String) :
    text.Reads (.text s) s := by
  intro v hWritten
  cases hWritten
  rfl

theorem reads_unit?
    {α : Type}
    {ofName? : String → Option α}
    {name : String}
    {a : α}
    (hName : ofName? name = some a) :
    (unit? ofName?).Reads (.text name) a := by
  intro v hWritten
  cases hWritten
  exact hName

/- A list is read item by item. -/
theorem reads_list
    {α : Type}
    {decode : Decoder α}
    {write : α → Document}
    (hItem : ∀ a, decode.Reads (write a) a)
    (items : List α) :
    (list decode).Reads (.list (items.map write)) items := by
  intro v hWritten
  cases hWritten with
  | @list _ values hItems =>
      rw [list]
      induction items generalizing values with
      | nil =>
          cases hItems
          rfl
      | cons a items ih =>
          cases hItems with
          | cons hFirst hRest =>
              rw [List.mapM_cons, hItem a _ hFirst,
                ih hRest]
              rfl

end Decoder

namespace IsPart

variable {α : Type}
variable {decode : Decoder α}
variable {chosen : List String}
variable {key : String}
variable {d : Document}
variable {a : α}
variable {part : Option Value}

/- A field that may be left out is read or has its default. -/
theorem orElse_eq
    (hPart : IsPart chosen (key, d) part)
    (hReads : decode.Reads d a)
    (default : α) :
    Decoder.orElse decode default part =
      some (if key ∈ chosen then a else default) := by
  cases hPart with
  | given hChosen hWritten =>
      rw [if_pos hChosen]
      exact hReads _ hWritten
  | absent hAbsent =>
      rw [if_neg hAbsent]
      rfl

theorem required_eq
    (hPart : IsPart chosen (key, d) part)
    (hReads : decode.Reads d a)
    (hChosen : key ∈ chosen) :
    Decoder.required decode part = some a := by
  cases hPart with
  | given _ hWritten =>
      exact hReads _ hWritten
  | absent hAbsent =>
      exact absurd hChosen hAbsent

end IsPart

------------------------------------------------------------
-- Whole Records
------------------------------------------------------------

namespace Document

variable {fields : List (String × Document)}
variable {v : Value}

/-
  A record that has chosen fields in any order, among others
  with keys of their own, is written with them.
-/
theorem IsWrittenAs.holdsFields_of_perm
    {order extra : List (String × Document)}
    {chosen : List String}
    (hWritten : (Document.record order).IsWrittenAs v)
    (hOrder :
      order.Perm
        ((fields.filter fun field => field.1 ∈ chosen) ++
          extra))
    (hFresh :
      ∀ field ∈ extra, field.1 ∉ fields.map Prod.fst) :
    ∃ written,
      v = .record written ∧
        HoldsFields fields chosen written := by
  cases hWritten with
  | @record _ _ written hFields hSame =>
      rcases hFields.exists_of_perm hOrder with
        ⟨_, hFields, hSame'⟩
      rcases hFields.exists_of_append with
        ⟨known, back, rfl, hKnown, hBack⟩
      refine ⟨written, rfl, known, back, hKnown, ?_,
        hSame.trans hSame'⟩
      intro place hPlace
      rcases hBack.exists_of_mem place hPlace with
        ⟨field, hField, hWhole, -⟩
      exact ⟨field.1, hWhole, hFresh field hField⟩

/- A record is written with all of its fields. -/
theorem IsWrittenAs.holdsFields
    (hWritten : (Document.record fields).IsWrittenAs v) :
    ∃ written,
      v = .record written ∧
        HoldsFields fields (fields.map Prod.fst)
          written := by
  refine IsWrittenAs.holdsFields_of_perm hWritten
    (?_ : fields.Perm (_ ++ [])) ?_
  · rw [List.append_nil, List.filter_eq_self.mpr]
    intro field hField
    exact decide_eq_true (List.mem_map_of_mem hField)
  · simp

/- So all of its parts are found by their keys. -/
theorem IsWrittenAs.exists_parts?
    (hWritten : (Document.record fields).IsWrittenAs v)
    (keys : List String)
    (hFields : fields.map Prod.fst = keys)
    (hKeys : keys.Nodup) :
    ∃ parts,
      Decoder.parts? keys v = some parts ∧
        List.Forall₂ (IsPart keys) fields parts := by
  rcases hWritten.holdsFields with ⟨written, rfl, hHolds⟩
  subst hFields
  exact hHolds.exists_parts? hKeys

------------------------------------------------------------
-- Sound Documents
------------------------------------------------------------

/-
  However a document is written, it can be kept in memory
  within a limit of nesting.
-/
def IsSound
    (limit : Nat)
    (d : Document) : Prop :=
  ∀ v, d.IsWrittenAs v → v.isSound limit = true

/- A text is no nesting. -/
theorem isSound_text
    (limit : Nat)
    (s : String) :
    IsSound limit (.text s) := by
  intro v hWritten
  cases hWritten
  cases limit with
  | zero =>
      rfl
  | succ limit =>
      rfl

/- A list is one level around its items. -/
theorem isSound_list
    {limit : Nat}
    {items : List Document}
    (hItems : ∀ item ∈ items, IsSound limit item) :
    IsSound (limit + 1) (.list items) := by
  intro v hWritten
  cases hWritten with
  | list hValues =>
      rw [Value.isSound, List.all_eq_true]
      intro v hv
      rcases hValues.exists_of_mem v hv with
        ⟨item, hItem, hWritten⟩
      exact hItems item hItem v hWritten

/- A record is one level around its fields. -/
theorem isSound_record
    {limit : Nat}
    (hFields : ∀ field ∈ fields, IsSound limit field.2) :
    IsSound (limit + 1) (.record fields) := by
  intro v hWritten
  cases hWritten with
  | @record _ known written hKnown hOrder =>
      rw [Value.isSound, hOrder.all_eq, List.all_eq_true]
      intro place hPlace
      rcases hKnown.exists_of_mem place hPlace with
        ⟨field, hField, hWhole, hWritten⟩
      rw [Bool.and_eq_true, hWhole]
      exact ⟨rfl, hFields field hField _ hWritten⟩

end Document

end Json

end Slideshow
