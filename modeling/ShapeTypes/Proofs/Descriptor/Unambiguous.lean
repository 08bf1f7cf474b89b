import ShapeTypes.Proofs.Descriptor.Reader

/-
  The texts of types are unambiguous.

  The reader gives every flat type back from its text.  So
  two plain types have the same text just if they are the
  same up to unions in generic arrays.

  Key definitions include:
    * `ShapeTypes.Descriptor.elementText`
    * `ShapeTypes.Descriptor.Front`
    * `ShapeTypes.Descriptor.ReadsAsElement`
    * `ShapeTypes.Descriptor.ReadsAsMember`
    * `ShapeTypes.Descriptor.ReadsAsType`
    * `ShapeTypes.Descriptor.Readable`

  Key theorems include:
    * `ShapeTypes.Descriptor.Flat.front`
    * `ShapeTypes.Descriptor.Flat.readable`
    * `ShapeTypes.Descriptor.read?_render`
    * `ShapeTypes.Descriptor.render_eq_render_iff`
-/

------------------------------------------------------------
-- Texts
------------------------------------------------------------

namespace ShapeTypes

namespace Text

theorem all_isIdentifierPart
    {text : String}
    (hText : isIdentifier text = true) :
    text.toList.all isIdentifierPart = true := by
  unfold isIdentifier at hText
  split at hText
  · simp at hText
  · rename_i first others hChars
    rw [Bool.and_eq_true] at hText
    have hFirst : isIdentifierPart first = true := by
      have hStart := hText.1
      simp only [isIdentifierStart, Bool.or_eq_true] at hStart
      simp only [isIdentifierPart, isAlphanumeric, Bool.or_eq_true]
      tauto
    rw [hChars, List.all_cons, hFirst, hText.2]
    rfl

theorem toList_ne_nil_of_isIdentifier
    {text : String}
    (hText : isIdentifier text = true) :
    text.toList ≠ [] := by
  intro hNone
  simp [isIdentifier, hNone] at hText

end Text

namespace Descriptor

/- The text of an element of an array. -/
def elementText
    (type : Descriptor) :
    String :=
  parenthesized (type.isFunctionLike || type.isUnionLike) type.render

theorem render_array
    (element : Descriptor) :
    (array element).render = element.elementText ++ "[]" := by
  rw [render, elementText]

theorem render_genericArray
    (members : List Descriptor) :
    (genericArray members).render =
      Layout.members.write (members.map memberText) := by
  rw [render, renderMembers_eq_map]
  cases members with
  | nil => rfl
  | cons => simp [Layout.write, Layout.members]

theorem render_record
    (fields : List (String × Descriptor)) :
    (record fields).render =
      Layout.fields.write (fields.map fieldText) := by
  rw [render, renderFields_eq_map]
  cases fields with
  | nil => rfl
  | cons =>
      simp only [List.map_cons]
      rw [show " \x7d" = " " ++ "\x7d" from rfl, ← String.append_assoc]
      rfl

theorem render_function
    (parameters : List (String × Descriptor))
    (result : Descriptor) :
    (function parameters result).render =
      Layout.parameters.write (parameters.map fieldText) ++
        result.render := by
  rw [render, renderFields_eq_map]
  cases parameters with
  | nil => rfl
  | cons => simp [Layout.write, Layout.parameters]

/- A text without an equals sign has no arrow. -/
theorem hasArrow_eq_false
    {cs : List Char}
    (hNone : '=' ∉ cs) :
    hasArrow cs = false := by
  fun_induction hasArrow cs with
  | case1 => simp at hNone
  | case2 _ _ _ ih => exact ih fun hMem => hNone (List.mem_cons_of_mem _ hMem)
  | case3 => rfl

/- A plain type reads as a function only if it is one. -/
theorem isFunctionLike_eq_true_iff
    {type : Descriptor}
    (hPlain : type.IsPlain) :
    type.isFunctionLike = true ↔
      ∃ parameters result, type = function parameters result := by
  cases type with
  | named text =>
      have hNone : '=' ∉ text.toList := fun hMem =>
        absurd (List.all_eq_true.1 (Text.all_isIdentifierPart hPlain.1) _ hMem)
          (by decide)
      simp [isFunctionLike, hasArrow_eq_false hNone]
  | _ => simp [isFunctionLike]

/- A plain type reads as a union only if it is one. -/
theorem isUnionLike_eq_true_iff
    {type : Descriptor}
    (hPlain : type.IsPlain) :
    type.isUnionLike = true ↔ type.IsUnion := by
  cases type with
  | named text =>
      have hNone : '|' ∉ text.toList := fun hMem =>
        absurd (List.all_eq_true.1 (Text.all_isIdentifierPart hPlain.1) _ hMem)
          (by decide)
      simp [isUnionLike, IsUnion, hNone]
  | _ => simp [isUnionLike, IsUnion]

/- A plain type that is no union is a member as it is an element. -/
theorem memberText_eq_elementText
    {type : Descriptor}
    (hPlain : type.IsPlain)
    (hUnion : ¬ type.IsUnion) :
    type.memberText = type.elementText := by
  rw [← isUnionLike_eq_true_iff hPlain, Bool.not_eq_true] at hUnion
  rw [memberText, elementText, hUnion, Bool.or_false]

/- A type that is neither function nor union has no parentheses. -/
theorem elementText_eq_render
    {type : Descriptor}
    (hFunction : type.isFunctionLike = false)
    (hUnion : type.isUnionLike = false) :
    type.elementText = type.render := by
  simp [elementText, parenthesized, hFunction, hUnion]

/- The union of what a plain type contributes to unions. -/
theorem join_alternatives
    {type : Descriptor}
    (hPlain : type.IsPlain) :
    join type.alternatives = type := by
  have hSame :
      type.alternatives.flatMap alternatives = type.alternatives := by
    have hSingle :
        ∀ member ∈ type.alternatives, member.alternatives = [member] := by
      intro member hMember
      have hUnion := not_isUnion_of_mem_alternatives hPlain hMember
      cases member with
      | union => exact absurd trivial hUnion
      | _ => rfl
    rw [List.flatMap_congr hSingle, List.flatMap_singleton']
  rw [join, hSame]
  cases type with
  | union members =>
      have hTwo := hPlain.1
      rcases members with _ | ⟨first, _ | ⟨second, others⟩⟩
      · simp at hTwo
      · simp at hTwo
      · rfl
  | _ => rfl

end Descriptor

end ShapeTypes

------------------------------------------------------------
-- The Front of a Text
------------------------------------------------------------

namespace ShapeTypes

namespace Descriptor

/- A list starts with its first mark. -/
theorem Layout.exists_write_eq
    (layout : Layout)
    (texts : List String) :
    ∃ more, (layout.write texts).toList = layout.opening.toList ++ more := by
  unfold write
  split <;> simp

variable {rest : List Char}

/-
  How the text of a type other than a function starts: with a
  type in parentheses, with a word that is no name of a
  field, or with a brace.
-/
inductive Front : List Char → Prop where
  | parenthesized {type : Descriptor} {more : List Char}
      (hFlat : type.Flat) :
      Front
        ("(".toList ++ (type.render.toList ++ (")".toList ++ more)))
  | word {word more : List Char}
      (hSome : word ≠ [])
      (hWord : word.all Text.isIdentifierPart = true)
      (hMore :
        ∀ c ∈ more.head?, Text.isIdentifierPart c = false ∧ c ≠ ':') :
      Front (word ++ more)
  | brace {more : List Char} :
      Front ("\x7b".toList ++ more)

/- The words that are types. -/
theorem word_front
    {text : String}
    (hSome : text.toList ≠ [])
    (hWord : text.toList.all Text.isIdentifierPart = true)
    (hRest : Follows behindElement rest) :
    Front (text.toList ++ rest) := by
  refine .word hSome hWord ?_
  intro c hc
  rcases behindElement_head hRest c hc with ⟨hPart, -, hColon⟩
  exact ⟨hPart, hColon⟩

/-
  An array starts as its element does, and a union starts as
  its first member does.
-/
theorem Flat.front
    {type : Descriptor}
    (hFlat : type.Flat)
    (hFunction : type.isFunctionLike = false)
    (hRest : Follows behindElement rest) :
    Front (type.render.toList ++ rest) := by
  induction hFlat generalizing rest with
  | @intro type hHere hParts ih =>
      cases type with
      | primitive type =>
          refine word_front ?_ ?_ hRest <;> cases type <;> decide
      | named text =>
          exact word_front (Text.toList_ne_nil_of_isIdentifier hHere.1.1)
            (Text.all_isIdentifierPart hHere.1.1) hRest
      | unknown => exact word_front (by decide) (by decide) hRest
      | array element =>
          have hElement := hParts element (by simp [parts])
          rw [render_array, String.toList_append, List.append_assoc]
          have hBrackets : Follows behindElement ("[]".toList ++ rest) :=
            .of_append "[]" (by decide) rest
          by_cases hParens : element.isFunctionLike || element.isUnionLike
          · have hText : element.elementText = "(" ++ element.render ++ ")" := by
              simp [elementText, parenthesized, hParens]
            rw [hText]
            simpa using Front.parenthesized hElement
          · rw [Bool.not_eq_true, Bool.or_eq_false_iff] at hParens
            rw [elementText_eq_render hParens.1 hParens.2]
            exact ih element (by simp [parts]) hParens.1 hBrackets
      | genericArray members =>
          rw [render_genericArray]
          rcases Layout.members.exists_write_eq (members.map memberText) with
            ⟨more, hText⟩
          have hOpening :
              Layout.members.opening.toList = "Array".toList ++ ['<'] := by
            decide
          rw [hText, hOpening, List.append_assoc, List.append_assoc]
          refine .word (by decide) (by decide) ?_
          rintro c ⟨⟩
          decide
      | record fields =>
          rw [render_record]
          rcases Layout.fields.exists_write_eq (fields.map fieldText) with
            ⟨more, hText⟩
          rw [hText, List.append_assoc]
          exact .brace
      | function => simp [isFunctionLike] at hFunction
      | union members =>
          have hTwo := hHere.1.1
          rcases members with _ | ⟨first, _ | ⟨second, others⟩⟩
          · simp at hTwo
          · simp at hTwo
          · have hFirst := hParts first (by simp [parts])
            have hText :
                (union (first :: second :: others)).render =
                  first.memberText ++ (" | " ++
                    " | ".intercalate
                      ((second :: others).map memberText)) := by
              simp [render, renderMembers_eq_map, String.append_assoc]
            rw [hText, String.toList_append, String.toList_append,
              List.append_assoc, List.append_assoc]
            by_cases hParens : first.isFunctionLike = true
            · rw [memberText, hParens]
              simpa [Descriptor.parenthesized] using
                Front.parenthesized hFirst
            · rw [Bool.not_eq_true] at hParens
              rw [memberText, hParens]
              exact ih first (by simp [parts]) hParens
                (.of_append " | " (by decide) _)

/- A text is neither a field nor the end of a list. -/
structure NoField
    (cs : List Char) : Prop where
  unnamed : skip ": " (cs.dropWhile Text.isIdentifierPart) = none
  unclosed : ∃ c ∈ cs.head?, c ≠ ')' ∧ c ≠ '>'

/- A text that starts with another character. -/
theorem NoField.of_cons
    {c : Char}
    {cs : List Char}
    (hPart : Text.isIdentifierPart c = false)
    (hColon : c ≠ ':')
    (hEnd : c ≠ ')' ∧ c ≠ '>') :
    NoField (c :: cs) := by
  constructor
  · rw [List.dropWhile_cons_of_neg (by simp [hPart])]
    apply skip_eq_none_of_head (by decide)
    intro hHead
    exact hColon (Option.some.inj hHead)
  · exact ⟨c, rfl, hEnd⟩

theorem Front.noField
    {cs : List Char}
    (hFront : Front cs) :
    NoField cs := by
  cases hFront with
  | parenthesized => exact .of_cons (by decide) (by decide) (by decide)
  | brace => exact .of_cons (by decide) (by decide) (by decide)
  | @word word more hSome hWord hMore =>
      rcases word_append hWord fun c hc => (hMore c hc).1 with ⟨-, hDrop⟩
      constructor
      · rw [hDrop]
        apply skip_eq_none_of_head (by decide)
        exact fun hHead => (hMore ':' hHead).2 rfl
      · rcases List.exists_cons_of_ne_nil hSome with ⟨c, cs, rfl⟩
        have hPart := List.all_eq_true.1 hWord c (by simp)
        refine ⟨c, rfl, ?_, ?_⟩
        · rintro rfl
          exact absurd hPart (by decide)
        · rintro rfl
          exact absurd hPart (by decide)

theorem Flat.noField
    {type : Descriptor}
    (hFlat : type.Flat)
    (hRest : Follows behindElement rest) :
    NoField (type.render.toList ++ rest) := by
  by_cases hFunction : type.isFunctionLike = true
  · rcases (isFunctionLike_eq_true_iff hFlat.here.1).1 hFunction with
      ⟨parameters, result, rfl⟩
    rcases Layout.parameters.exists_write_eq (parameters.map fieldText) with
      ⟨more, hText⟩
    rw [render_function, String.toList_append, hText, List.append_assoc,
      List.append_assoc]
    exact .of_cons (by decide) (by decide) (by decide)
  · rw [Bool.not_eq_true] at hFunction
    exact (hFlat.front hFunction hRest).noField

/- Only a function is read as a function. -/
theorem Front.readFunction_eq_none
    {cs : List Char}
    (hFront : Front cs)
    (type : Reader Descriptor)
    (count : Nat) :
    readFunction type count cs = none := by
  cases hFront with
  | @parenthesized inner more hFlat =>
      have hNoField := hFlat.noField (.of_append ")" (by decide) more)
      have hClosing :
          skip Layout.parameters.closing
            (inner.render.toList ++ (")".toList ++ more)) = none := by
        rcases hNoField.unclosed with ⟨c, hHead, hOther, -⟩
        apply skip_eq_none_of_head (by decide)
        rw [hHead]
        exact fun hSame => hOther (Option.some.inj hSame)
      have hField :
          readField type (inner.render.toList ++ (")".toList ++ more)) =
            none := by
        simp only [readField, hNoField.unnamed]
        rfl
      have hNone :
          readSeparated Layout.parameters.separator (readField type) count
            (inner.render.toList ++ (")".toList ++ more)) = none :=
        readSeparated_eq_none hField count
      have hOpening :
          skip Layout.parameters.opening
              ("(".toList ++ (inner.render.toList ++ (")".toList ++ more))) =
            some (inner.render.toList ++ (")".toList ++ more)) :=
        skip_append "(" _
      have hPadding (cs : List Char) :
          skip Layout.parameters.padding cs = some cs :=
        skip_append "" cs
      simp only [readFunction, Layout.read, hOpening, hClosing, hPadding,
        hNone, Option.bind_eq_bind, Option.bind_some, Option.bind_none]
  | @word word more hSome hWord hMore =>
      apply Descriptor.readFunction_eq_none
      rw [List.head?_append_of_ne_nil _ hSome]
      intro hHead
      exact absurd (List.all_eq_true.1 hWord '(' (List.mem_of_mem_head? hHead))
        (by decide)
  | brace => exact Descriptor.readFunction_eq_none (by simp)

end Descriptor

end ShapeTypes

------------------------------------------------------------
-- Reading Back
------------------------------------------------------------

namespace ShapeTypes

namespace Descriptor

/- The type is read from its text as an element of an array. -/
def ReadsAsElement
    (type : Descriptor) : Prop :=
  ∀ fuel rest,
    type.elementText.length < fuel →
      Follows behindElement rest →
        readMember fuel (type.elementText.toList ++ rest) =
          some (readBrackets type rest)

/- The type is read from its text as a member of a union. -/
def ReadsAsMember
    (type : Descriptor) : Prop :=
  ∀ fuel rest,
    type.memberText.length < fuel →
      Follows behindMember rest →
        readMember fuel (type.memberText.toList ++ rest) =
          some (type, rest)

/- The type is read from its text. -/
def ReadsAsType
    (type : Descriptor) : Prop :=
  ∀ fuel rest,
    type.render.length + 1 < fuel →
      Follows closings rest →
        readType fuel (type.render.toList ++ rest) = some (type, rest)

/- The reader gives a type back, in an array and on its own. -/
structure Readable
    (type : Descriptor) : Prop where
  element : type.ReadsAsElement
  whole : type.ReadsAsType

variable {type : Descriptor} {rest : List Char} {fuel : Nat}

/- A type that is no union is a member as it is an element. -/
theorem ReadsAsElement.member
    (hElement : type.ReadsAsElement)
    (hPlain : type.IsPlain)
    (hUnion : ¬ type.IsUnion) :
    type.ReadsAsMember := by
  intro fuel rest hFuel hRest
  rw [memberText_eq_elementText hPlain hUnion] at hFuel ⊢
  rw [hElement fuel rest hFuel (hRest.mono (List.subset_cons_self _ _)),
    readBrackets_of_follows type hRest]

/-
  A type that is no function is read as the union of what it
  contributes to one.
-/
theorem readsAsType_of_members
    (hFlat : type.Flat)
    (hFunction : type.isFunctionLike = false)
    (hMembers : ∀ member ∈ type.alternatives, member.ReadsAsMember) :
    type.ReadsAsType := by
  intro fuel rest hFuel hRest
  have hText :
      type.render =
        " | ".intercalate (type.alternatives.map memberText) := by
    rw [intercalate_alternatives, memberText, hFunction]
    rfl
  have hElement : Follows behindElement rest :=
    hRest.mono (by simp [behindElement, behindMember])
  cases fuel with
  | zero => omega
  | succ fuel =>
      -- The reader tries a function first, which fails on this front.
      have hNone :=
        (hFlat.front hFunction hElement).readFunction_eq_none
          (readType fuel) (fuel + 1)
      have hCount :=
        length_le_length_intercalate " | " (by decide)
          (type.alternatives.map memberText)
      have hRead :
          readSeparated " | " (readMember fuel) (fuel + 1)
              ((" | ".intercalate
                (type.alternatives.map memberText)).toList ++ rest) =
            some (type.alternatives, rest) := by
        refine readSeparated_intercalate (alternatives_ne_nil hFlat.here.1)
          ?_ (skip_bar_of_follows hRest) ?_
        · rw [List.length_map, ← hText] at hCount
          omega
        · intro member hMember more hMore
          apply hMembers member hMember
          · have hLe :=
              length_le_of_mem_intercalate " | "
                (List.mem_map_of_mem (f := memberText) hMember)
            rw [← hText] at hLe
            omega
          · rcases hMore with hMore | rfl
            · exact Or.inr ⟨" | ", by decide, hMore⟩
            · exact hRest.mono (by simp [behindMember])
      rw [readType, hNone, Option.none_or, readUnion, hText, hRead]
      simp [join_alternatives hFlat.here.1]

/- A type without parentheses is readable if it is as an element. -/
theorem Readable.of_element
    (hFlat : type.Flat)
    (hFunction : type.isFunctionLike = false)
    (hUnion : ¬ type.IsUnion)
    (hElement :
      ∀ fuel rest,
        type.render.length < fuel + 1 →
          Follows behindElement rest →
            readMember (fuel + 1) (type.render.toList ++ rest) =
              some (readBrackets type rest)) :
    type.Readable := by
  have hUnionLike : type.isUnionLike = false := by
    rw [← Bool.not_eq_true, isUnionLike_eq_true_iff hFlat.here.1]
    exact hUnion
  have hReads : type.ReadsAsElement := by
    intro fuel rest hFuel hRest
    rw [elementText_eq_render hFunction hUnionLike] at hFuel ⊢
    cases fuel with
    | zero => omega
    | succ fuel => exact hElement fuel rest hFuel hRest
  refine ⟨hReads, readsAsType_of_members hFlat hFunction ?_⟩
  have hSingle : type.alternatives = [type] := by
    cases type with
    | union => exact absurd trivial hUnion
    | _ => rfl
  rw [hSingle]
  intro member hMember
  rw [List.mem_singleton.1 hMember]
  exact hReads.member hFlat.here.1 hUnion

/- A type with parentheses is readable if it is on its own. -/
theorem Readable.of_whole
    (hParens : (type.isFunctionLike || type.isUnionLike) = true)
    (hWhole : type.ReadsAsType) :
    type.Readable := by
  refine ⟨?_, hWhole⟩
  intro fuel rest hFuel hRest
  -- The parentheses pay for the fuel that the type inside needs more.
  have hText : type.elementText = "(" ++ type.render ++ ")" := by
    rw [elementText, hParens]
    rfl
  rw [hText] at hFuel ⊢
  cases fuel with
  | zero => omega
  | succ fuel =>
      have hLength :
          ("(" ++ type.render ++ ")").length = type.render.length + 2 := by
        rw [String.length_append, String.length_append,
          show "(".length = 1 from rfl, show ")".length = 1 from rfl]
        omega
      have hRead :=
        hWhole fuel (")".toList ++ rest) (by omega)
          (.of_append ")" (by decide) rest)
      have hParenthesized :
          readParenthesized (readType fuel)
              (("(" ++ type.render ++ ")").toList ++ rest) =
            some (type, rest) := by
        have hSplit :
            ("(" ++ type.render ++ ")").toList ++ rest =
              "(".toList ++ (type.render.toList ++ (")".toList ++ rest)) := by
          simp
        simp only [hSplit, readParenthesized, skip_append, hRead,
          Option.bind_eq_bind, Option.bind_some]
      rw [readMember, hParenthesized]
      rfl

theorem readable_word
    (hFlat : type.Flat)
    (hFunction : type.isFunctionLike = false)
    (hUnion : ¬ type.IsUnion)
    (hSome : type.render.toList ≠ [])
    (hWord : type.render.toList.all Text.isIdentifierPart = true)
    (hType : ofWord type.render = type) :
    type.Readable := by
  refine .of_element hFlat hFunction hUnion ?_
  intro fuel rest hFuel hRest
  have hHead := behindElement_head hRest
  rcases word_append hWord fun c hc => (hHead c hc).1 with ⟨hTake, hDrop⟩
  have hStarts (c : Char) (hc : Text.isIdentifierPart c = false) :
      (type.render.toList ++ rest).head? ≠ some c := by
    rw [List.head?_append_of_ne_nil _ hSome]
    intro hHere
    have hPart := List.all_eq_true.1 hWord c (List.mem_of_mem_head? hHere)
    rw [hc] at hPart
    exact Bool.false_ne_true hPart
  have hGeneric :
      readGenericArray (readMember fuel) (fuel + 1)
        (type.render.toList ++ rest) = none := by
    -- The word may be `Array`, but then no `<` follows it.
    have hSkip :
        skip Layout.members.opening (type.render.toList ++ rest) = none := by
      apply if_neg
      rintro ⟨more, hMore⟩
      rw [← hMore] at hDrop
      exact (hHead '<' (by rw [← hDrop]; rfl)).2.1 rfl
    simp [readGenericArray, Layout.read, hSkip]
  have hRead :
      readWord (type.render.toList ++ rest) = some (type, rest) := by
    unfold readWord
    rw [hTake, hDrop]
    split
    · rename_i hNone
      exact absurd hNone hSome
    · rw [String.ofList_toList, hType]
  rw [readMember, readParenthesized_eq_none (hStarts '(' (by decide)),
    readRecord_eq_none (hStarts '\x7b' (by decide)), hGeneric, hRead]
  rfl

/- A field starts with a character of its name. -/
theorem head?_fieldText
    {field : String × Descriptor}
    (hName : Text.isIdentifier field.1 = true) :
    ∃ c, (fieldText field).toList.head? = some c ∧
      Text.isIdentifierPart c = true := by
  rcases List.exists_cons_of_ne_nil
      (Text.toList_ne_nil_of_isIdentifier hName) with
    ⟨c, cs, hChars⟩
  refine ⟨c, ?_, ?_⟩
  · simp [fieldText, hChars]
  · exact List.all_eq_true.1 (Text.all_isIdentifierPart hName) c
      (by simp [hChars])

/- A name and a readable type are read as a field. -/
theorem readField_fieldText
    {field : String × Descriptor}
    (hName : Text.isIdentifier field.1 = true)
    (hType : field.2.Readable)
    (hFuel : field.2.render.length + 1 < fuel)
    (hRest : Follows closings rest) :
    readField (readType fuel) ((fieldText field).toList ++ rest) =
      some (field, rest) := by
  have hText :
      (fieldText field).toList ++ rest =
        field.1.toList ++ (": ".toList ++
          (field.2.render.toList ++ rest)) := by
    simp [fieldText]
  have hColon :
      ∀ c ∈ (": ".toList ++ (field.2.render.toList ++ rest)).head?,
        Text.isIdentifierPart c = false := by
    rintro c ⟨⟩
    decide
  rcases word_append (Text.all_isIdentifierPart hName) hColon with
    ⟨hTake, hDrop⟩
  simp only [readField, hText, hTake, hDrop, skip_append,
    hType.whole fuel rest hFuel hRest, Option.bind_eq_bind,
    Option.bind_some, String.ofList_toList]

/-
  A list of names and readable types is read if its first
  name is not its end, and every type in it ends.
-/
theorem read_fields
    (layout : Layout)
    {fields : List (String × Descriptor)}
    (hNames : ∀ field ∈ fields, Text.isIdentifier field.1 = true)
    (hTypes : ∀ type ∈ fields.map Prod.snd, type.Readable)
    (hFuel : (layout.write (fields.map fieldText)).length ≤ fuel)
    (hFirst :
      fields ≠ [] →
        ∃ c ∈
          (layout.padding ++
            layout.separator.intercalate
              (fields.map fieldText)).toList.head?,
          layout.closing.toList.head? ≠ some c)
    (hEnds :
      ∀ more,
        (layout.separator.toList <+: more ∨
            (layout.padding ++ layout.closing).toList <+: more) →
          Follows closings more) :
    layout.read (readField (readType fuel)) (fuel + 1)
        ((layout.write (fields.map fieldText)).toList ++ rest) =
      some (fields, rest) := by
  have hInside := layout.length_intercalate_add_two_le (fields.map fieldText)
  have hCount :=
    length_le_length_intercalate layout.separator layout.separator_ne
      (fields.map fieldText)
  rw [List.length_map] at hCount
  refine Layout.read_write (by omega) hFirst ?_
  intro field hField more hMore
  refine readField_fieldText (hNames field hField)
    (hTypes field.2 (List.mem_map_of_mem hField)) ?_ (hEnds more hMore)
  have hLe :=
    length_le_of_mem_intercalate layout.separator
      (List.mem_map_of_mem (f := fieldText) hField)
  simp only [fieldText, String.length_append] at hLe
  rw [show ": ".length = 2 from rfl] at hLe
  omega

theorem readable_record
    {fields : List (String × Descriptor)}
    (hFlat : (record fields).Flat)
    (hTypes : ∀ type ∈ fields.map Prod.snd, type.Readable) :
    (record fields).Readable := by
  refine .of_element hFlat rfl id ?_
  intro fuel rest hFuel hRest
  rw [render_record] at hFuel ⊢
  have hFields :
      Layout.fields.read (readField (readType fuel)) (fuel + 1)
          ((Layout.fields.write (fields.map fieldText)).toList ++ rest) =
        some (fields, rest) := by
    refine read_fields _ hFlat.here.1 hTypes (by omega) ?_ ?_
    · exact fun _ => ⟨' ', by simp [Layout.fields], by decide⟩
    · rintro more (hMore | hMore)
      · exact Or.inr ⟨"; ", by decide, hMore⟩
      · exact Or.inr ⟨" \x7d", by decide, hMore⟩
  have hRecord :
      readRecord (readType fuel) (fuel + 1)
          ((Layout.fields.write (fields.map fieldText)).toList ++ rest) =
        some (record fields, rest) := by
    rw [readRecord, hFields]
    rfl
  rcases Layout.fields.exists_write_eq (fields.map fieldText) with
    ⟨more, hText⟩
  have hHead :
      ((Layout.fields.write (fields.map fieldText)).toList ++ rest).head? ≠
        some '(' := by
    rw [hText]
    simp [Layout.fields]
  rw [readMember, readParenthesized_eq_none hHead, hRecord]
  rfl

theorem readable_function
    {parameters : List (String × Descriptor)}
    {result : Descriptor}
    (hFlat : (function parameters result).Flat)
    (hTypes : ∀ type ∈ parameters.map Prod.snd, type.Readable)
    (hResult : result.Readable) :
    (function parameters result).Readable := by
  refine .of_whole rfl ?_
  intro fuel rest hFuel hRest
  cases fuel with
  | zero => omega
  | succ fuel =>
      rw [render_function, String.length_append] at hFuel
      rw [render_function, String.toList_append, List.append_assoc]
      have hInside :=
        Layout.parameters.length_intercalate_add_two_le
          (parameters.map fieldText)
      have hParameters :
          Layout.parameters.read (readField (readType fuel)) (fuel + 1)
              ((Layout.parameters.write
                (parameters.map fieldText)).toList ++
                  (result.render.toList ++ rest)) =
            some (parameters, result.render.toList ++ rest) := by
        refine read_fields _ hFlat.here.1 hTypes (by omega) ?_ ?_
        · apply Layout.exists_head rfl
          intro field hField
          rcases head?_fieldText (hFlat.here.1 field hField) with
            ⟨c, hHead, hPart⟩
          refine ⟨c, hHead, ?_⟩
          intro hSame
          rw [← Option.some.inj hSame] at hPart
          exact absurd hPart (by decide)
        · rintro more (hMore | hMore)
          · exact Or.inr ⟨", ", by decide, hMore⟩
          · refine Or.inr ⟨")", by decide, List.IsPrefix.trans ?_ hMore⟩
            decide
      have hFunction :
          readFunction (readType fuel) (fuel + 1)
              ((Layout.parameters.write
                (parameters.map fieldText)).toList ++
                  (result.render.toList ++ rest)) =
            some (function parameters result, rest) := by
        simp only [readFunction, hParameters,
          hResult.whole fuel rest (by omega) hRest, Option.bind_eq_bind,
          Option.bind_some]
      rw [readType, hFunction]
      rfl

theorem readable_array
    {element : Descriptor}
    (hFlat : (array element).Flat)
    (hElement : element.Readable) :
    (array element).Readable := by
  refine .of_element hFlat rfl id ?_
  intro fuel rest hFuel hRest
  rw [render_array, String.length_append] at hFuel
  rw [render_array, String.toList_append, List.append_assoc,
    hElement.element (fuel + 1) _ (by omega)
      (.of_append "[]" (by decide) rest)]
  rfl

theorem readable_union
    {members : List Descriptor}
    (hFlat : (union members).Flat)
    (hMembers : ∀ member ∈ members, member.Readable) :
    (union members).Readable := by
  refine .of_whole rfl (readsAsType_of_members hFlat rfl ?_)
  intro member hMember
  exact (hMembers member hMember).element.member
    (hFlat.parts member hMember).here.1 (hFlat.here.1.2 member hMember)

/- A member starts with something other than the end of a list. -/
theorem Flat.head?_memberText
    (hFlat : type.Flat) :
    ∃ c, type.memberText.toList.head? = some c ∧ c ≠ '>' := by
  by_cases hFunction : type.isFunctionLike = true
  · refine ⟨'(', ?_, by decide⟩
    rw [memberText, hFunction]
    simp [parenthesized]
  · rw [Bool.not_eq_true] at hFunction
    have hNoField := hFlat.noField (Or.inl rfl)
    rw [List.append_nil] at hNoField
    rcases hNoField.unclosed with ⟨c, hHead, -, hOther⟩
    rw [memberText, hFunction]
    exact ⟨c, hHead, hOther⟩

theorem readable_genericArray
    {members : List Descriptor}
    (hFlat : (genericArray members).Flat)
    (hMembers : ∀ member ∈ members, member.Readable) :
    (genericArray members).Readable := by
  refine .of_element hFlat rfl id ?_
  intro fuel rest hFuel hRest
  rw [render_genericArray] at hFuel ⊢
  have hInside :=
    Layout.members.length_intercalate_add_two_le (members.map memberText)
  have hCount :=
    length_le_length_intercalate Layout.members.separator
      Layout.members.separator_ne (members.map memberText)
  rw [List.length_map] at hCount
  have hRead :
      Layout.members.read (readMember fuel) (fuel + 1)
          ((Layout.members.write (members.map memberText)).toList ++ rest) =
        some (members, rest) := by
    refine Layout.read_write (by omega) ?_ ?_
    · apply Layout.exists_head rfl
      intro member hMember
      have hPart : member.Flat := hFlat.parts member hMember
      rcases hPart.head?_memberText with ⟨c, hHead, hOther⟩
      exact ⟨c, hHead, fun hSame => hOther (Option.some.inj hSame).symm⟩
    · intro member hMember more hMore
      have hLe :=
        length_le_of_mem_intercalate Layout.members.separator
          (List.mem_map_of_mem (f := memberText) hMember)
      have hReads :=
        (hMembers member hMember).element.member
          (hFlat.parts member hMember).here.1 (hFlat.here.2 member hMember)
      apply hReads fuel more (by omega)
      rcases hMore with hMore | hMore
      · exact Or.inr ⟨" | ", by decide, hMore⟩
      · exact Or.inr ⟨">", by decide, hMore⟩
  have hGeneric :
      readGenericArray (readMember fuel) (fuel + 1)
          ((Layout.members.write (members.map memberText)).toList ++ rest) =
        some (genericArray members, rest) := by
    rw [readGenericArray, hRead]
    rfl
  rcases Layout.members.exists_write_eq (members.map memberText) with
    ⟨more, hText⟩
  have hHead :
      ((Layout.members.write (members.map memberText)).toList ++
        rest).head? = some 'A' := by
    rw [hText]
    rfl
  rw [readMember, readParenthesized_eq_none (by simp [hHead]),
    readRecord_eq_none (by simp [hHead]), hGeneric]
  rfl

/- The text of a flat type gives the type back. -/
theorem Flat.readable
    (hFlat : type.Flat) :
    type.Readable := by
  induction hFlat with
  | @intro type hHere hParts ih =>
      have hFlat : type.Flat := .intro hHere hParts
      cases type with
      | primitive type =>
          refine readable_word hFlat rfl id ?_ ?_ ?_ <;>
            cases type <;> decide
      | named text =>
          have hFunction : (named text).isFunctionLike = false := by
            rw [← Bool.not_eq_true, isFunctionLike_eq_true_iff hHere.1]
            simp
          have hType : ofWord text = named text := by
            simp [ofWord, hHere.1.2.1, hHere.1.2.2]
          exact readable_word hFlat hFunction id
            (Text.toList_ne_nil_of_isIdentifier hHere.1.1)
            (Text.all_isIdentifierPart hHere.1.1) hType
      | unknown =>
          exact readable_word hFlat rfl id (by decide) (by decide)
            (by decide)
      | array element =>
          exact readable_array hFlat (ih element (by simp [parts]))
      | genericArray members => exact readable_genericArray hFlat ih
      | record fields => exact readable_record hFlat ih
      | function parameters result =>
          exact readable_function hFlat
            (fun type hType => ih type (List.mem_cons_of_mem _ hType))
            (ih result (by simp [parts]))
      | union members => exact readable_union hFlat ih

/- The reader gives flat types back from their texts. -/
theorem read?_render
    (hFlat : type.Flat) :
    read? type.render = some type := by
  have hWhole :=
    hFlat.readable.whole (type.render.length + 2) [] (by omega) (Or.inl rfl)
  rw [List.append_nil] at hWhole
  rw [read?, hWhole]

/-
  Two plain types have the same text if and only if they are
  equal once the members of every union that stands directly
  in a generic array are put in its place.
-/
theorem render_eq_render_iff
    {s t : Descriptor}
    (hs : s.Plain)
    (ht : t.Plain) :
    s.render = t.render ↔ s.spliced = t.spliced := by
  rw [← render_spliced hs, ← render_spliced ht]
  constructor
  · intro hText
    have hRead := congrArg read? hText
    rw [read?_render hs.spliced, read?_render ht.spliced] at hRead
    exact Option.some.inj hRead
  · intro hSame
    rw [hSame]

/-
  A union of a name and a function, and the same members one
  by one, in the generic array of a field.
-/
theorem render_eq_render_iff_genericArray :
    (record [("x", genericArray
        [union [named "A", function [("f", named "A")] unknown],
          primitive .null])]).render =
      "\x7b x: Array<A | ((f: A) => unknown) | null> \x7d" ∧
    (record [("x", genericArray
        [union [named "A", function [("f", named "A")] unknown],
          primitive .null])]).spliced =
      (record [("x", genericArray
        [named "A", function [("f", named "A")] unknown,
          primitive .null])]).spliced := by
  refine ⟨by decide +kernel, (render_eq_render_iff ?_ ?_).1 ?_⟩ <;>
    decide +kernel

end Descriptor

end ShapeTypes
