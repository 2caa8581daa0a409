import Slideshow.Proofs.Json.Layout

/-
  This file proves that a JSON value is read from any text
  that its tokens are laid out as.

  The tokens of a value are taken one by one with the lists
  and records around it on a stack, so it is proved for any
  stack and any tokens behind the value.

  Key definitions include:
    * `Json.Value.tokens`

  Main results include:
    * `Json.Value.tokens_list`
    * `Json.Value.tokens_record`
    * `Json.takeTokens?_tokens`
    * `Json.read?_of_isLaidOut`
-/

namespace Slideshow

namespace Json

------------------------------------------------------------
-- Tokens of Values
------------------------------------------------------------

namespace Value

mutual

/- The tokens of a value. -/
def tokens : Value → List Token
  | .null => [.atom .null]
  | .bool b => [.atom (.bool b)]
  | .number n => [.atom (.number n)]
  | .text t => [.text t]
  | .list [] => [.openList, .closeList]
  | .list (item :: rest) =>
      .openList :: (tokens item ++ itemTokens rest)
  | .record [] => [.openRecord, .closeRecord]
  | .record ((key, v) :: rest) =>
      .openRecord :: .text key :: .colon ::
        (tokens v ++ fieldTokens rest)

/- The tokens behind an item, up to the end of its list. -/
def itemTokens : List Value → List Token
  | [] => [.closeList]
  | item :: rest =>
      .comma :: (tokens item ++ itemTokens rest)

/- The tokens behind a field, up to the end of its record. -/
def fieldTokens : List (Text × Value) → List Token
  | [] => [.closeRecord]
  | (key, v) :: rest =>
      .comma :: .text key :: .colon ::
        (tokens v ++ fieldTokens rest)

end

/- The tokens of a field. -/
def fieldParts (field : Text × Value) : List Token :=
  .text field.1 :: .colon :: field.2.tokens

/- A comma stands in front of each item behind the first. -/
theorem tokens_append_itemTokens
    (item : Value)
    (items : List Value) :
    item.tokens ++ itemTokens items =
      [Token.comma].intercalate
          ((item :: items).map tokens) ++ [.closeList] := by
  induction items generalizing item with
  | nil =>
      rw [itemTokens, List.map_singleton,
        List.intercalate_singleton]
  | cons next items ih =>
      rw [itemTokens, ih]
      simp only [List.map_cons, List.intercalate_cons_cons,
        List.append_assoc]
      rfl

/- So it does in front of each field behind the first. -/
theorem fieldParts_append_fieldTokens
    (field : Text × Value)
    (fields : List (Text × Value)) :
    fieldParts field ++ fieldTokens fields =
      [Token.comma].intercalate
          ((field :: fields).map fieldParts) ++
        [.closeRecord] := by
  induction fields generalizing field with
  | nil =>
      rw [fieldTokens, List.map_singleton,
        List.intercalate_singleton]
  | cons next fields ih =>
      have hNext := ih next
      rw [fieldParts, List.cons_append, List.cons_append]
        at hNext
      rw [fieldTokens, hNext]
      simp only [List.map_cons, List.intercalate_cons_cons,
        List.append_assoc]
      rfl

/- The tokens of a list, part by part. -/
theorem tokens_list (items : List Value) :
    (Value.list items).tokens =
      .openList :: ([Token.comma].intercalate
        (items.map tokens) ++ [.closeList]) := by
  cases items with
  | nil =>
      rw [tokens, List.map_nil, List.intercalate_nil,
        List.nil_append]
  | cons item items =>
      rw [tokens, tokens_append_itemTokens]

/- The tokens of a record, part by part. -/
theorem tokens_record (fields : List (Text × Value)) :
    (Value.record fields).tokens =
      .openRecord :: ([Token.comma].intercalate
        (fields.map fieldParts) ++ [.closeRecord]) := by
  cases fields with
  | nil =>
      rw [tokens, List.map_nil, List.intercalate_nil,
        List.nil_append]
  | cons field fields =>
      rw [tokens, ← fieldParts_append_fieldTokens]
      rfl

end Value

/- The first item of a list is begun as any value. -/
theorem takeTokens?_firstItem
    (v : Value)
    (stack : List Frame)
    (rest : List Token) :
    takeTokens? .firstItem stack (v.tokens ++ rest) =
      takeTokens? .value (.items [] :: stack)
        (v.tokens ++ rest) := by
  cases v with
  | list items =>
      cases items with
      | nil =>
          rfl
      | cons item items =>
          rfl
  | record fields =>
      cases fields with
      | nil =>
          rfl
      | cons field fields =>
          rfl
  | _ =>
      rfl

mutual

/- The tokens of a value make it the value of the moment. -/
theorem takeTokens?_tokens
    (v : Value)
    (stack : List Frame)
    (rest : List Token) :
    takeTokens? .value stack (v.tokens ++ rest) =
      takeTokens? (.after v) stack rest := by
  cases v with
  | list items =>
      cases items with
      | nil =>
          rfl
      | cons item items =>
          have hFirst :=
            takeTokens?_firstItem item stack
              (Value.itemTokens items ++ rest)
          rw [takeTokens?_tokens item,
            takeTokens?_itemTokens items item []] at hFirst
          rw [Value.tokens, List.cons_append,
            List.append_assoc]
          exact hFirst
  | record fields =>
      cases fields with
      | nil =>
          rfl
      | cons field fields =>
          rcases field with ⟨key, item⟩
          have hFirst :=
            takeTokens?_tokens item
              (.fields [] key :: stack)
              (Value.fieldTokens fields ++ rest)
          rw [takeTokens?_fieldTokens fields key item []]
            at hFirst
          rw [Value.tokens, List.cons_append,
            List.cons_append, List.cons_append,
            List.append_assoc]
          exact hFirst
  | _ =>
      rfl
termination_by sizeOf v

/- The tokens behind an item complete its list. -/
theorem takeTokens?_itemTokens
    (items : List Value)
    (v : Value)
    (done : List Value)
    (stack : List Frame)
    (rest : List Token) :
    takeTokens? (.after v) (.items done :: stack)
        (Value.itemTokens items ++ rest) =
      takeTokens? (.after (.list (done.reverse ++ v :: items)))
        stack rest := by
  cases items with
  | nil =>
      rw [Value.itemTokens, List.singleton_append,
        ← List.reverse_cons]
      rfl
  | cons item items =>
      have hNext :=
        takeTokens?_tokens item (.items (v :: done) :: stack)
          (Value.itemTokens items ++ rest)
      rw [takeTokens?_itemTokens items item (v :: done),
        List.reverse_cons, List.append_assoc] at hNext
      rw [Value.itemTokens, List.cons_append,
        List.append_assoc]
      exact hNext
termination_by sizeOf items

/- The tokens behind a field complete its record. -/
theorem takeTokens?_fieldTokens
    (fields : List (Text × Value))
    (key : Text)
    (v : Value)
    (done : List (Text × Value))
    (stack : List Frame)
    (rest : List Token) :
    takeTokens? (.after v) (.fields done key :: stack)
        (Value.fieldTokens fields ++ rest) =
      takeTokens?
        (.after
          (.record (done.reverse ++ (key, v) :: fields)))
        stack rest := by
  cases fields with
  | nil =>
      rw [Value.fieldTokens, List.singleton_append,
        ← List.reverse_cons]
      rfl
  | cons field fields =>
      rcases field with ⟨nextKey, next⟩
      have hNext :=
        takeTokens?_tokens next
          (.fields ((key, v) :: done) nextKey :: stack)
          (Value.fieldTokens fields ++ rest)
      rw [takeTokens?_fieldTokens fields nextKey next
          ((key, v) :: done),
        List.reverse_cons, List.append_assoc] at hNext
      rw [Value.fieldTokens, List.cons_append,
        List.cons_append, List.cons_append,
        List.append_assoc]
      exact hNext
termination_by sizeOf fields

end

theorem ofTokens?_tokens (v : Value) :
    Value.ofTokens? v.tokens = some v := by
  have hTokens := takeTokens?_tokens v [] []
  rw [List.append_nil] at hTokens
  exact hTokens

/- A text that the tokens are laid out as is read as it. -/
theorem read?_of_isLaidOut
    {v : Value}
    {text : String}
    (hText : IsLaidOut v.tokens text.toList) :
    read? text = some v := by
  rw [read?, tokens?_of_isLaidOut hText, Option.bind_some,
    ofTokens?_tokens]

end Json

end Slideshow
