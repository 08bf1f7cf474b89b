import Mathlib.Algebra.BigOperators.Group.List.Basic
import Mathlib.Algebra.GroupWithZero.Nat
import ShapeTypes.Proofs.Descriptor.Unambiguous
import ShapeTypes.Proofs.Placeholder.Spots

/-
  Where the placeholders in the text of a type come from.

  A type is written with marks, keywords, the texts of named
  types and the names of fields and parameters.  Marks part
  all the others, and no keyword is a placeholder, so just
  the texts and the names bring placeholders along.

  Key definitions include:
    * `ShapeTypes.Descriptor.gather`
    * `ShapeTypes.Descriptor.names`
    * `ShapeTypes.Descriptor.texts`
    * `ShapeTypes.Descriptor.IsSettled`

  Key theorems include:
    * `ShapeTypes.Descriptor.gather_eq`
    * `ShapeTypes.Descriptor.madeOf_render`
    * `ShapeTypes.Descriptor.count_render`
    * `ShapeTypes.Descriptor.length_scan_render`
    * `ShapeTypes.Descriptor.sum_texts_of_settled`
-/

------------------------------------------------------------
-- Names and Texts
------------------------------------------------------------

namespace ShapeTypes

namespace Descriptor

/- What holds of a type if it holds of its parts, holds of all types. -/
theorem induction_parts
    {property : Descriptor → Prop}
    (hStep :
      ∀ type, (∀ part ∈ type.parts, property part) → property type)
    (type : Descriptor) :
    property type :=
  hStep type fun part _hPart => induction_parts hStep part
termination_by sizeOf type
decreasing_by exact sizeOf_lt_of_mem_parts _hPart

mutual

/- What a type and all types inside it have of their own. -/
def gather
    (own : Descriptor → List String) :
    Descriptor → List String
  | array element => own (array element) ++ gather own element
  | genericArray members =>
      own (genericArray members) ++ gatherMembers own members
  | record fields => own (record fields) ++ gatherFields own fields
  | function parameters result =>
      own (function parameters result) ++
        (gather own result ++ gatherFields own parameters)
  | union members => own (union members) ++ gatherMembers own members
  | type => own type

/- What some types have. -/
def gatherMembers
    (own : Descriptor → List String) :
    List Descriptor → List String
  | [] => []
  | type :: types => gather own type ++ gatherMembers own types

/- What some named types have. -/
def gatherFields
    (own : Descriptor → List String) :
    List (String × Descriptor) → List String
  | [] => []
  | (_, type) :: fields => gather own type ++ gatherFields own fields

end

variable (own : Descriptor → List String)

theorem gatherMembers_eq_flatMap
    (types : List Descriptor) :
    gatherMembers own types = types.flatMap (gather own) := by
  induction types with
  | nil => rfl
  | cons type types ih => simp [gatherMembers, ih]

theorem gatherFields_eq_flatMap
    (fields : List (String × Descriptor)) :
    gatherFields own fields =
      (fields.map Prod.snd).flatMap (gather own) := by
  induction fields with
  | nil => rfl
  | cons field fields ih => simp [gatherFields, ih]

/- What a type has of its own comes before what its parts have. -/
theorem gather_eq
    (type : Descriptor) :
    type.gather own = own type ++ type.parts.flatMap (gather own) := by
  cases type with
  | array element => simp [gather, parts]
  | genericArray members =>
      rw [gather, gatherMembers_eq_flatMap, parts]
  | record fields => rw [gather, gatherFields_eq_flatMap, parts]
  | function parameters result =>
      rw [gather, gatherFields_eq_flatMap, parts, List.flatMap_cons]
  | union members => rw [gather, gatherMembers_eq_flatMap, parts]
  | primitive | named | unknown => simp [gather, parts]

/- A sum over all that is gathered, part by part. -/
theorem sum_gather
    (value : String → Nat)
    (type : Descriptor) :
    ((type.gather own).map value).sum =
      ((own type).map value).sum +
        (type.parts.map fun part =>
          ((part.gather own).map value).sum).sum := by
  rw [gather_eq, List.map_append, List.sum_append, List.map_flatMap,
    List.flatMap_def, List.sum_flatten, List.map_map]
  rfl

/- The keys of a record, or the parameters of a function. -/
def ownNames : Descriptor → List String
  | record fields => fields.map Prod.fst
  | function parameters _ => parameters.map Prod.fst
  | _ => []

/- The names of a type itself, or its text if it is a named type. -/
def ownTexts : Descriptor → List String
  | named text => [text]
  | type => type.ownNames

/- The record keys and parameter names in a type, at any depth. -/
def names
    (type : Descriptor) :
    List String :=
  type.gather ownNames

/- The names in a type and the texts of the named types, at any depth. -/
def texts
    (type : Descriptor) :
    List String :=
  type.gather ownTexts

end Descriptor

end ShapeTypes

------------------------------------------------------------
-- Marks of the Notation
------------------------------------------------------------

namespace ShapeTypes

namespace Descriptor

open Placeholder (MadeOf Parted Wordless count)

namespace Layout

/- The marks of a layout part what is written between them. -/
structure Parting
    (layout : Layout) : Prop where
  opening : layout.opening.toList.getLast?.any Text.isWord = false
  quiet : count layout.opening.toList = 0
  padding : Wordless layout.padding.toList
  separator : Wordless layout.separator.toList
  closing : Wordless layout.closing.toList

namespace Parting

variable {layout : Layout}

/- A written list is made of what its items are made of. -/
theorem madeOf_write
    {α : Type}
    {items : List α}
    {text : α → String}
    {texts : α → List String}
    (hParting : layout.Parting)
    (hItems : ∀ item ∈ items, MadeOf (texts item) (text item).toList) :
    MadeOf (items.flatMap texts) (layout.write (items.map text)).toList := by
  have hOpening
      {inside : List String}
      {rest : List Char}
      (hRest : MadeOf inside rest) :
      MadeOf inside (layout.opening.toList ++ rest) :=
    (MadeOf.quiet hParting.quiet).append hRest (Or.inl hParting.opening)
  unfold write
  split
  · rename_i hNone
    rw [List.map_eq_nil_iff.1 hNone, String.toList_append]
    exact hOpening (.quiet hParting.closing.count_eq_zero)
  · have hJoined :=
      MadeOf.intercalate hItems hParting.separator layout.separator_ne
    simp only [String.toList_append, List.append_assoc]
    exact hOpening
      ((hJoined.append_mark
        (hParting.padding.append hParting.closing)).mark_append
          hParting.padding)

theorem parted_write
    (hParting : layout.Parting)
    (texts : List String)
    (rest : List Char) :
    Parted (layout.write texts).toList rest := by
  have hClosed :
      ∃ front, (layout.write texts).toList =
        front ++ layout.closing.toList := by
    unfold write
    split
    · exact ⟨_, String.toList_append⟩
    · exact ⟨_, String.toList_append⟩
  rcases hClosed with ⟨front, hFront⟩
  rw [hFront]
  exact hParting.closing.parted_append layout.closing_ne

end Parting

theorem fields_parting : fields.Parting :=
  ⟨by decide, by decide, by decide, by decide, by decide⟩

theorem parameters_parting : parameters.Parting :=
  ⟨by decide, by decide, by decide, by decide, by decide⟩

theorem members_parting : members.Parting :=
  ⟨by decide, by decide, by decide, by decide, by decide⟩

end Layout

theorem madeOf_parenthesized
    {texts : List String}
    {text : String}
    (condition : Bool)
    (hText : MadeOf texts text.toList) :
    MadeOf texts (parenthesized condition text).toList := by
  unfold parenthesized
  split
  · rw [String.toList_append, String.toList_append]
    exact (hText.mark_append (by decide)).append_mark (by decide)
  · exact hText

end Descriptor

end ShapeTypes

------------------------------------------------------------
-- Placeholders in Types
------------------------------------------------------------

namespace ShapeTypes

namespace Descriptor

open Placeholder (MadeOf Spot count offsets scan)

theorem flatMap_fields_perm
    (fields : List (String × Descriptor)) :
    (fields.flatMap fun field => field.1 :: field.2.texts).Perm
      (fields.map Prod.fst ++ (fields.map Prod.snd).flatMap texts) := by
  induction fields with
  | nil => exact .refl _
  | cons field fields ih =>
      simp only [List.flatMap_cons, List.map_cons, List.cons_append]
      refine .cons _ ((ih.append_left _).trans ?_)
      rw [← List.append_assoc, ← List.append_assoc]
      exact List.perm_append_comm.append_right _

theorem madeOf_fieldText
    {field : String × Descriptor}
    (hType : MadeOf field.2.texts field.2.render.toList) :
    MadeOf (field.1 :: field.2.texts) (fieldText field).toList := by
  rw [fieldText, String.toList_append, String.toList_append,
    List.append_assoc]
  exact (MadeOf.whole field.1).between hType (by decide) (by decide)

theorem madeOf_write_fields
    {layout : Layout}
    {fields : List (String × Descriptor)}
    (hParting : layout.Parting)
    (hTypes :
      ∀ type ∈ fields.map Prod.snd, MadeOf type.texts type.render.toList) :
    MadeOf (fields.map Prod.fst ++ (fields.map Prod.snd).flatMap texts)
      (layout.write (fields.map fieldText)).toList := by
  refine (hParting.madeOf_write ?_).perm (flatMap_fields_perm fields)
  intro field hField
  exact madeOf_fieldText (hTypes field.2 (List.mem_map_of_mem hField))

/- The text of a type is made of the texts in it. -/
theorem madeOf_render
    (type : Descriptor) :
    MadeOf type.texts type.render.toList := by
  induction type using induction_parts with
  | hStep type ih =>
      rw [texts, gather_eq]
      change MadeOf (type.ownTexts ++ type.parts.flatMap texts) _
      cases type with
      | primitive p => exact .quiet (by cases p <;> decide)
      | array element =>
          have hElement := ih element (List.mem_singleton_self element)
          rw [render_array, String.toList_append, parts,
            List.flatMap_singleton]
          exact (madeOf_parenthesized _ hElement).append_mark (by decide)
      | genericArray members =>
          rw [render_genericArray]
          exact Layout.members_parting.madeOf_write fun member hMember =>
            madeOf_parenthesized _ (ih member hMember)
      | record fields =>
          rw [render_record]
          exact madeOf_write_fields Layout.fields_parting ih
      | function parameters result =>
          rcases List.forall_mem_cons.1 ih with ⟨hResult, hTypes⟩
          have hParting := Layout.parameters_parting
          have hBoth :=
            (madeOf_write_fields hParting hTypes).append hResult
              (hParting.parted_write _ _)
          rw [render_function, String.toList_append]
          refine hBoth.perm ?_
          rw [List.append_assoc]
          exact List.perm_append_comm.append_left _
      | union members =>
          rw [render, renderMembers_eq_map]
          exact MadeOf.intercalate
            (fun member hMember => madeOf_parenthesized _ (ih member hMember))
            (by decide) (by decide)
      | named text => exact .whole text
      | unknown => exact .quiet (by decide)

/- The placeholders in the text of a type are those of its texts. -/
theorem count_render
    (type : Descriptor) :
    count type.render.toList =
      (type.texts.map fun text => count text.toList).sum :=
  (madeOf_render type).count_eq

/-
  The placeholders found in the text of a type are those found
  in each of its texts alone.  Every text stands in it once,
  one behind the other, and there are no placeholders but
  those within.
-/
theorem length_scan_render
    (type : Descriptor) :
    (scan type.render).length =
        (type.texts.map fun text => (scan text).length).sum ∧
      ∃ spots : List Spot,
        (spots.map Spot.text).Perm type.texts ∧
          (∀ spot ∈ spots, spot.StandsIn type.render.toList) ∧
          spots.Pairwise (fun a b => a.stop ≤ b.start) ∧
          offsets type.render = spots.flatMap Spot.offsets := by
  constructor
  · simp only [Placeholder.length_scan]
    exact count_render type
  · rcases madeOf_render type with ⟨spots, hCovers, hTexts⟩
    refine ⟨spots, hTexts, hCovers.stands, hCovers.apart, ?_⟩
    rw [Placeholder.offsets_eq, hCovers.all]

------------------------------------------------------------
-- Settled Types
------------------------------------------------------------

/- The text of a named type holds no placeholder. -/
def IsSettled
    (type : Descriptor) : Prop :=
  match type with
  | named text => count text.toList = 0
  | _ => True

/- The texts of settled types bring no placeholder, so the names do. -/
theorem sum_texts_of_settled
    {type : Descriptor}
    (hSettled : type.Everywhere IsSettled) :
    (type.texts.map fun text => count text.toList).sum =
      (type.names.map fun name => count name.toList).sum := by
  induction hSettled with
  | @intro type hHere _ ih =>
      have hOwn :
          (type.ownTexts.map fun text => count text.toList).sum =
            (type.ownNames.map fun name => count name.toList).sum := by
        cases type with
        | named text => simpa [ownTexts, ownNames, IsSettled] using hHere
        | _ => rfl
      rw [texts, names, sum_gather, sum_gather, hOwn]
      congr 2
      exact List.map_congr_left ih

end Descriptor

end ShapeTypes
