import Mathlib.Data.List.Basic
import ShapeTypes.Proofs.Descriptor.Spliced

/-
  A reader for the texts of types.

  The reader takes the longest type from the front of a text
  and returns it with the rest.  A nested type is read with
  less fuel, and the length of the text is fuel enough.

  Key definitions include:
    * `ShapeTypes.Descriptor.Layout`
    * `ShapeTypes.Descriptor.readType`
    * `ShapeTypes.Descriptor.readMember`
    * `ShapeTypes.Descriptor.read?`
    * `ShapeTypes.Descriptor.Follows`

  Key theorems include:
    * `ShapeTypes.Descriptor.readSeparated_intercalate`
    * `ShapeTypes.Descriptor.Layout.read_write`
-/

------------------------------------------------------------
-- Readers
------------------------------------------------------------

namespace ShapeTypes

namespace Descriptor

/- Take something from the front of a text. -/
abbrev Reader (α : Type) :=
  List Char → Option (α × List Char)

/- Take a mark from the front of a text. -/
def skip
    (mark : String)
    (cs : List Char) :
    Option (List Char) :=
  if mark.toList <+: cs then some (cs.drop mark.length) else none

/- Read at least one item, with a mark between any two. -/
def readSeparated
    {α : Type}
    (separator : String)
    (item : Reader α) :
    Nat → Reader (List α)
  | 0, _ => none
  | count + 1, cs => do
      let (first, cs) ← item cs
      match skip separator cs with
      | none => some ([first], cs)
      | some cs => do
          let (others, cs) ← readSeparated separator item count cs
          some (first :: others, cs)

/-
  How a list is written: the marks around it, the padding
  inside them unless the list is empty, and the mark between
  two items.  The first character tells whether another item
  follows.
-/
structure Layout where
  opening : String
  padding : String
  separator : String
  closing : String
  opening_ne : opening.toList ≠ [] := by decide
  separator_ne : separator.toList ≠ [] := by decide
  closing_ne : closing.toList ≠ [] := by decide
  apart :
    separator.toList.head? ≠ (padding ++ closing).toList.head? := by decide

namespace Layout

/- The fields of a record. -/
def fields : Layout where
  opening := "\x7b"
  padding := " "
  separator := "; "
  closing := "\x7d"

/- The parameters of a function, up to its result. -/
def parameters : Layout where
  opening := "("
  padding := ""
  separator := ", "
  closing := ") => "

/- The members of a generic array. -/
def members : Layout where
  opening := "Array<"
  padding := ""
  separator := " | "
  closing := ">"

/- Write a list of texts. -/
def write
    (layout : Layout) :
    List String → String
  | [] => layout.opening ++ layout.closing
  | texts =>
      layout.opening ++ layout.padding
        ++ layout.separator.intercalate texts
        ++ layout.padding ++ layout.closing

/- Read a list of items. -/
def read
    {α : Type}
    (layout : Layout)
    (item : Reader α)
    (count : Nat) :
    Reader (List α) :=
  fun cs => do
    let cs ← skip layout.opening cs
    match skip layout.closing cs with
    | some cs => some ([], cs)
    | none => do
        let cs ← skip layout.padding cs
        let (items, cs) ← readSeparated layout.separator item count cs
        let cs ← skip layout.padding cs
        let cs ← skip layout.closing cs
        some (items, cs)

end Layout

------------------------------------------------------------
-- Parts of Types
------------------------------------------------------------

/- Read a name and a type. -/
def readField
    (type : Reader Descriptor) :
    Reader (String × Descriptor) :=
  fun cs => do
    let name := String.ofList (cs.takeWhile Text.isIdentifierPart)
    let cs ← skip ": " (cs.dropWhile Text.isIdentifierPart)
    let (type, cs) ← type cs
    some ((name, type), cs)

/- Read a function type. -/
def readFunction
    (type : Reader Descriptor)
    (count : Nat) :
    Reader Descriptor :=
  fun cs => do
    let (parameters, cs) ← Layout.parameters.read (readField type) count cs
    let (result, cs) ← type cs
    some (function parameters result, cs)

/- Read the members of a union, of which there may be one. -/
def readUnion
    (member : Reader Descriptor)
    (count : Nat) :
    Reader Descriptor :=
  fun cs => do
    let (members, cs) ← readSeparated " | " member count cs
    some (join members, cs)

/- Read a type in parentheses. -/
def readParenthesized
    (type : Reader Descriptor) :
    Reader Descriptor :=
  fun cs => do
    let cs ← skip "(" cs
    let (type, cs) ← type cs
    let cs ← skip ")" cs
    some (type, cs)

/- Read a record. -/
def readRecord
    (type : Reader Descriptor)
    (count : Nat) :
    Reader Descriptor :=
  fun cs => do
    let (fields, cs) ← Layout.fields.read (readField type) count cs
    some (record fields, cs)

/- Read a generic array. -/
def readGenericArray
    (member : Reader Descriptor)
    (count : Nat) :
    Reader Descriptor :=
  fun cs => do
    let (members, cs) ← Layout.members.read member count cs
    some (genericArray members, cs)

/- Read a type that is one word. -/
def readWord : Reader Descriptor :=
  fun cs =>
    match cs.takeWhile Text.isIdentifierPart with
    | [] => none
    | word =>
        some
          (ofWord (String.ofList word),
            cs.dropWhile Text.isIdentifierPart)

/- Read the brackets behind the element of an array. -/
def readBrackets
    (element : Descriptor) :
    List Char → Descriptor × List Char
  | '[' :: ']' :: cs => readBrackets (array element) cs
  | cs => (element, cs)

------------------------------------------------------------
-- Types
------------------------------------------------------------

mutual

/- Read a type. -/
def readType : Nat → Reader Descriptor
  | 0, _ => none
  | fuel + 1, cs =>
      (readFunction (readType fuel) (fuel + 1) cs).or
        (readUnion (readMember fuel) (fuel + 1) cs)

/- Read a member of a union. -/
def readMember : Nat → Reader Descriptor
  | 0, _ => none
  | fuel + 1, cs => do
      let (element, cs) ←
        (((readParenthesized (readType fuel) cs).or
          (readRecord (readType fuel) (fuel + 1) cs)).or
            (readGenericArray (readMember fuel) (fuel + 1) cs)).or
              (readWord cs)
      some (readBrackets element cs)

end

/- The type that a text describes. -/
def read?
    (text : String) :
    Option Descriptor :=
  match readType (text.length + 2) text.toList with
  | some (type, []) => some type
  | _ => none

end Descriptor

end ShapeTypes

------------------------------------------------------------
-- Marks
------------------------------------------------------------

namespace ShapeTypes

namespace Descriptor

variable {mark : String} {cs rest : List Char}

@[simp]
theorem skip_append
    (mark : String)
    (cs : List Char) :
    skip mark (mark.toList ++ cs) = some cs := by
  simp [skip, ← String.length_toList]

theorem skip_eq_none_of_head
    (hMark : mark.toList ≠ [])
    (hHead : cs.head? ≠ mark.toList.head?) :
    skip mark cs = none := by
  unfold skip
  apply if_neg
  rintro ⟨more, rfl⟩
  apply hHead
  exact List.head?_append_of_ne_nil _ hMark

theorem readParenthesized_eq_none
    {type : Reader Descriptor}
    (hHead : cs.head? ≠ some '(') :
    readParenthesized type cs = none := by
  have hSkip : skip "(" cs = none :=
    skip_eq_none_of_head (by decide) hHead
  simp [readParenthesized, hSkip]

theorem readFunction_eq_none
    {type : Reader Descriptor}
    {count : Nat}
    (hHead : cs.head? ≠ some '(') :
    readFunction type count cs = none := by
  have hSkip : skip Layout.parameters.opening cs = none :=
    skip_eq_none_of_head (by decide) hHead
  simp [readFunction, Layout.read, hSkip]

theorem readRecord_eq_none
    {type : Reader Descriptor}
    {count : Nat}
    (hHead : cs.head? ≠ some '\x7b') :
    readRecord type count cs = none := by
  have hSkip : skip Layout.fields.opening cs = none :=
    skip_eq_none_of_head (by decide) hHead
  simp [readRecord, Layout.read, hSkip]

/- The rest of a text is empty or starts with one of some marks. -/
def Follows
    (marks : List String)
    (rest : List Char) : Prop :=
  rest = [] ∨ ∃ mark ∈ marks, mark.toList <+: rest

/- The marks that may stand behind a type. -/
def closings : List String :=
  [")", ">", ", ", "; ", " \x7d"]

/- The marks that may stand behind a member of a union. -/
def behindMember : List String :=
  " | " :: closings

/- The marks that may stand behind an element of an array. -/
def behindElement : List String :=
  "[]" :: behindMember

namespace Follows

variable {marks : List String}

theorem of_append
    (mark : String)
    (hMark : mark ∈ marks)
    (rest : List Char) :
    Follows marks (mark.toList ++ rest) :=
  Or.inr ⟨mark, hMark, List.prefix_append _ _⟩

theorem mono
    {others : List String}
    (hRest : Follows marks rest)
    (hMarks : marks ⊆ others) :
    Follows others rest := by
  rcases hRest with rfl | ⟨mark, hMark, hStarts⟩
  · exact Or.inl rfl
  · exact Or.inr ⟨mark, hMarks hMark, hStarts⟩

/- The first character of what follows is that of a mark. -/
theorem head
    {check : Char → Bool}
    (hRest : Follows marks rest)
    (hMarks : (marks.all fun mark => mark.toList.head?.any check) = true) :
    ∀ c ∈ rest.head?, check c = true := by
  rcases hRest with rfl | ⟨mark, hMark, more, rfl⟩
  · simp
  · have hAny := List.all_eq_true.1 hMarks mark hMark
    cases hHead : mark.toList.head? with
    | none => simp [hHead] at hAny
    | some c =>
        rw [List.head?_append, hHead]
        rintro _ ⟨⟩
        simpa [hHead] using hAny

end Follows

/- What follows an element ends a word, and is no field. -/
theorem behindElement_head
    (hRest : Follows behindElement rest) :
    ∀ c ∈ rest.head?,
      Text.isIdentifierPart c = false ∧ c ≠ '<' ∧ c ≠ ':' := by
  have hHead :
      ∀ c ∈ rest.head?,
        (!Text.isIdentifierPart c && c != '<' && c != ':') = true :=
    hRest.head (by decide)
  intro c hc
  simpa [and_assoc] using hHead c hc

/- What follows a member is no bracket. -/
theorem readBrackets_of_follows
    (type : Descriptor)
    (hRest : Follows behindMember rest) :
    readBrackets type rest = (type, rest) := by
  have hHead : ∀ c ∈ rest.head?, (c != '[') = true :=
    hRest.head (by decide)
  unfold readBrackets
  split
  · exact absurd (hHead '[' rfl) (by decide)
  · rfl

/- What follows a type does not go on with a union. -/
theorem skip_bar_of_follows
    (hRest : Follows closings rest) :
    skip " | " rest = none := by
  rcases hRest with rfl | ⟨mark, hMark, more, rfl⟩
  · rfl
  · simp only [closings, List.mem_cons, List.not_mem_nil, or_false] at hMark
    rcases hMark with rfl | rfl | rfl | rfl | rfl <;> simp [skip]

/- A word ends where something else follows. -/
theorem word_append
    {word : List Char}
    (hWord : word.all Text.isIdentifierPart = true)
    (hRest : ∀ c ∈ rest.head?, Text.isIdentifierPart c = false) :
    (word ++ rest).takeWhile Text.isIdentifierPart = word ∧
      (word ++ rest).dropWhile Text.isIdentifierPart = rest := by
  rw [List.all_eq_true] at hWord
  rw [List.takeWhile_append_of_pos hWord, List.dropWhile_append_of_pos hWord]
  cases rest with
  | nil => simp
  | cons c rest => simp [hRest c rfl]

end Descriptor

end ShapeTypes

------------------------------------------------------------
-- Lists
------------------------------------------------------------

namespace ShapeTypes

namespace Descriptor

variable {α : Type} {item : Reader α} {text : α → String}
variable {items : List α} {count : Nat} {rest : List Char}

theorem readSeparated_eq_none
    {separator : String}
    {cs : List Char}
    (hItem : item cs = none)
    (count : Nat) :
    readSeparated separator item count cs = none := by
  cases count with
  | zero => rfl
  | succ count => simp [readSeparated, hItem]

/- Items with separators between them are read one by one. -/
theorem readSeparated_intercalate
    {separator : String}
    (hItems : items ≠ [])
    (hCount : items.length ≤ count)
    (hRest : skip separator rest = none)
    (hItem :
      ∀ x ∈ items, ∀ more,
        (separator.toList <+: more ∨ more = rest) →
          item ((text x).toList ++ more) = some (x, more)) :
    readSeparated separator item count
        ((separator.intercalate (items.map text)).toList ++ rest) =
      some (items, rest) := by
  induction items generalizing count with
  | nil => exact absurd rfl hItems
  | cons x items ih =>
      cases count with
      | zero => simp at hCount
      | succ count =>
          by_cases hLast : items = []
          · have hRead := hItem x (by simp) rest (Or.inr rfl)
            simp [hLast, readSeparated, hRead, hRest]
          · have hMore :=
              ih hLast (by simpa using hCount)
                fun y hy => hItem y (by simp [hy])
            have hRead :=
              hItem x (by simp)
                (separator.toList ++
                  ((separator.intercalate (items.map text)).toList ++ rest))
                (Or.inl (List.prefix_append _ _))
            have hJoined :
                (separator.intercalate ((x :: items).map text)).toList ++
                    rest =
                  (text x).toList ++ (separator.toList ++
                    ((separator.intercalate (items.map text)).toList ++
                      rest)) := by
              rw [List.map_cons,
                String.intercalate_cons_of_ne_nil (by simpa using hLast)]
              simp
            rw [hJoined, readSeparated, hRead]
            simp only [Option.bind_eq_bind, Option.bind_some, skip_append,
              hMore]

theorem head?_intercalate
    (separator : String)
    {first : String}
    (others : List String)
    (hFirst : first.toList ≠ []) :
    (separator.intercalate (first :: others)).toList.head? =
      first.toList.head? := by
  by_cases hLast : others = []
  · rw [hLast, String.intercalate_singleton]
  · rw [String.intercalate_cons_of_ne_nil hLast, String.toList_append,
      String.toList_append, List.append_assoc,
      List.head?_append_of_ne_nil _ hFirst]

/- The items are at most one more than their joined text is long. -/
theorem length_le_length_intercalate
    (separator : String)
    (hSeparator : separator.toList ≠ [])
    (texts : List String) :
    texts.length ≤ (separator.intercalate texts).length + 1 := by
  have hLength := List.length_pos_iff.2 hSeparator
  rw [String.length_toList] at hLength
  induction texts with
  | nil => simp
  | cons first texts ih =>
      by_cases hLast : texts = []
      · simp [hLast]
      · rw [String.intercalate_cons_of_ne_nil hLast]
        simp only [List.length_cons, String.length_append]
        omega

theorem length_le_of_mem_intercalate
    (separator : String)
    {first : String}
    {texts : List String}
    (hMem : first ∈ texts) :
    first.length ≤ (separator.intercalate texts).length := by
  induction texts with
  | nil => simp at hMem
  | cons other texts ih =>
      by_cases hLast : texts = []
      · rw [hLast, List.mem_singleton] at hMem
        simp [hLast, hMem]
      · rw [String.intercalate_cons_of_ne_nil hLast]
        simp only [String.length_append]
        rcases List.mem_cons.1 hMem with rfl | hMem
        · omega
        · have hLe := ih hMem
          omega

namespace Layout

/- Behind the last item there is no separator. -/
theorem skip_separator_eq_none
    (layout : Layout)
    (more : List Char) :
    skip layout.separator
      (layout.padding.toList ++ (layout.closing.toList ++ more)) = none := by
  rw [← List.append_assoc, ← String.toList_append]
  apply skip_eq_none_of_head layout.separator_ne
  rw [List.head?_append_of_ne_nil]
  · exact layout.apart.symm
  · rw [String.toList_append]
    exact List.append_ne_nil_of_right_ne_nil _ layout.closing_ne

/- The items stand inside the marks. -/
theorem length_intercalate_add_two_le
    (layout : Layout)
    (texts : List String) :
    (layout.separator.intercalate texts).length + 2 ≤
      (layout.write texts).length := by
  have hOpening := List.length_pos_iff.2 layout.opening_ne
  have hClosing := List.length_pos_iff.2 layout.closing_ne
  rw [String.length_toList] at hOpening hClosing
  unfold write
  split
  · rw [String.intercalate_nil, String.length_append,
      show "".length = 0 from rfl]
    omega
  · simp only [String.length_append]
    omega

/- A list without padding starts as one of its items does. -/
theorem exists_head
    {layout : Layout}
    (hPadding : layout.padding = "")
    (hHeads :
      ∀ x ∈ items,
        ∃ c ∈ (text x).toList.head?, layout.closing.toList.head? ≠ some c)
    (hItems : items ≠ []) :
    ∃ c ∈
      (layout.padding ++
        layout.separator.intercalate (items.map text)).toList.head?,
      layout.closing.toList.head? ≠ some c := by
  rcases List.exists_cons_of_ne_nil hItems with ⟨x, others, rfl⟩
  rcases hHeads x (by simp) with ⟨c, hHead, hOther⟩
  have hText : (text x).toList ≠ [] := by
    intro hNone
    simp [hNone] at hHead
  refine ⟨c, ?_, hOther⟩
  rw [hPadding, String.empty_append, List.map_cons,
    head?_intercalate _ _ hText]
  exact hHead

/- What is written as a list is read as a list. -/
theorem read_write
    {layout : Layout}
    (hCount : items.length ≤ count)
    (hFirst :
      items ≠ [] →
        ∃ c ∈
          (layout.padding ++
            layout.separator.intercalate (items.map text)).toList.head?,
          layout.closing.toList.head? ≠ some c)
    (hItem :
      ∀ x ∈ items, ∀ more,
        (layout.separator.toList <+: more ∨
            (layout.padding ++ layout.closing).toList <+: more) →
          item ((text x).toList ++ more) = some (x, more)) :
    layout.read item count
        ((layout.write (items.map text)).toList ++ rest) =
      some (items, rest) := by
  by_cases hItems : items = []
  · simp [hItems, write, read]
  · have hSeparated :=
      readSeparated_intercalate hItems hCount
        (layout.skip_separator_eq_none rest)
        fun x hx more hMore => hItem x hx more (hMore.imp_right ?_)
    · have hClosing (more : List Char) :
          skip layout.closing
            (layout.padding.toList ++
              ((layout.separator.intercalate (items.map text)).toList ++
                more)) = none := by
        rcases hFirst hItems with ⟨c, hHead, hNe⟩
        rw [← List.append_assoc, ← String.toList_append]
        apply skip_eq_none_of_head layout.closing_ne
        rw [List.head?_append, hHead]
        exact hNe.symm
      have hWritten :
          (layout.write (items.map text)).toList ++ rest =
            layout.opening.toList ++ (layout.padding.toList ++
              ((layout.separator.intercalate (items.map text)).toList ++
                (layout.padding.toList ++
                  (layout.closing.toList ++ rest)))) := by
        unfold write
        split
        · rename_i hNone
          exact absurd (List.map_eq_nil_iff.1 hNone) hItems
        · simp
      simp only [hWritten, read, Option.bind_eq_bind, Option.bind_some,
        skip_append, hClosing, hSeparated]
    · rintro rfl
      exact ⟨rest, by simp⟩

end Layout

end Descriptor

end ShapeTypes
