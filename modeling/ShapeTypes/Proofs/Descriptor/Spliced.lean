import ShapeTypes.Descriptor.Render
import ShapeTypes.Text.Word

/-
  Types whose text says what they are.

  A union that is a member of a generic array cannot be told
  from its own members there.  Splicing puts the members in
  its place, which does not change the text.

  Key definitions include:
    * `ShapeTypes.Descriptor.parts`
    * `ShapeTypes.Descriptor.Everywhere`
    * `ShapeTypes.Descriptor.Plain`
    * `ShapeTypes.Descriptor.Flat`
    * `ShapeTypes.Descriptor.spliced`

  Key theorems include:
    * `ShapeTypes.Descriptor.render_spliced`
    * `ShapeTypes.Descriptor.Plain.spliced`
-/

------------------------------------------------------------
-- Types and Their Parts
------------------------------------------------------------

namespace ShapeTypes

namespace Descriptor

/- The types that stand directly inside a type. -/
def parts : Descriptor → List Descriptor
  | array element => [element]
  | genericArray members => members
  | record fields => fields.map Prod.snd
  | function parameters result => result :: parameters.map Prod.snd
  | union members => members
  | _ => []

/- A property of a type and of all types inside it. -/
inductive Everywhere
    (property : Descriptor → Prop) :
    Descriptor → Prop where
  | intro {type : Descriptor}
      (hHere : property type)
      (hParts : ∀ part ∈ type.parts, Everywhere property part) :
      Everywhere property type

namespace Everywhere

variable {property : Descriptor → Prop} {type : Descriptor}

theorem here
    (hAll : type.Everywhere property) :
    property type := by
  cases hAll
  assumption

theorem parts
    (hAll : type.Everywhere property) :
    ∀ part ∈ type.parts, part.Everywhere property := by
  cases hAll
  assumption

theorem alternatives
    (hAll : type.Everywhere property) :
    ∀ member ∈ type.alternatives, member.Everywhere property := by
  cases type with
  | union members => exact hAll.parts
  | _ =>
      intro member hMember
      rw [List.mem_singleton.1 hMember]
      exact hAll

end Everywhere

theorem sizeOf_lt_of_mem_parts
    {type part : Descriptor}
    (hPart : part ∈ type.parts) :
    sizeOf part < sizeOf type := by
  have hField
      {fields : List (String × Descriptor)}
      (hMem : part ∈ fields.map Prod.snd) :
      sizeOf part < sizeOf fields := by
    rcases List.mem_map.1 hMem with ⟨⟨name, type⟩, hField, hType⟩
    have hLt := List.sizeOf_lt_of_mem hField
    rw [Prod.mk.sizeOf_spec] at hLt
    rw [← hType]
    show sizeOf type < sizeOf fields
    omega
  cases type with
  | array element =>
      rw [List.mem_singleton.1 hPart]
      simp
  | genericArray members =>
      have hLt : sizeOf part < sizeOf members :=
        List.sizeOf_lt_of_mem hPart
      simp only [genericArray.sizeOf_spec]
      omega
  | record fields =>
      have hLt := hField hPart
      simp only [record.sizeOf_spec]
      omega
  | function parameters result =>
      simp only [function.sizeOf_spec]
      rcases List.mem_cons.1 hPart with rfl | hPart
      · omega
      · have hLt := hField hPart
        omega
  | union members =>
      have hLt : sizeOf part < sizeOf members :=
        List.sizeOf_lt_of_mem hPart
      simp only [union.sizeOf_spec]
      omega
  | _ => simp [parts] at hPart

instance decidableEverywhere
    (property : Descriptor → Prop)
    [DecidablePred property]
    (type : Descriptor) :
    Decidable (type.Everywhere property) :=
  have (part : { part // part ∈ type.parts }) :
      Decidable (part.1.Everywhere property) :=
    decidableEverywhere property part.1
  decidable_of_iff
    (property type ∧
      (type.parts.attach.all fun part =>
        decide (part.1.Everywhere property)) = true)
    (by
      simp only [List.all_eq_true, decide_eq_true_eq]
      constructor
      · rintro ⟨hHere, hParts⟩
        exact .intro hHere fun part hPart =>
          hParts ⟨part, hPart⟩ (List.mem_attach _ _)
      · intro hAll
        exact ⟨hAll.here, fun part _ => hAll.parts part.1 part.2⟩)
termination_by sizeOf type
decreasing_by exact sizeOf_lt_of_mem_parts part.2

end Descriptor

end ShapeTypes

------------------------------------------------------------
-- Plain Types
------------------------------------------------------------

namespace ShapeTypes

namespace Descriptor

/- The type is a union. -/
def IsUnion
    (type : Descriptor) : Prop :=
  match type with
  | union _ => True
  | _ => False

instance
    (type : Descriptor) :
    Decidable type.IsUnion := by
  unfold IsUnion
  split <;> infer_instance

/-
  The names of a type are identifiers, and a named type does
  not have the name of another type.  A union has at least
  two members, and none of them is a union.
-/
def IsPlain
    (type : Descriptor) : Prop :=
  match type with
  | named text =>
      Text.isIdentifier text = true ∧
        text ≠ "unknown" ∧ Primitive.ofText? text = none
  | record fields =>
      ∀ field ∈ fields, Text.isIdentifier field.1 = true
  | function parameters _ =>
      ∀ parameter ∈ parameters, Text.isIdentifier parameter.1 = true
  | union members =>
      2 ≤ members.length ∧ ∀ member ∈ members, ¬ member.IsUnion
  | _ => True

instance
    (type : Descriptor) :
    Decidable type.IsPlain := by
  unfold IsPlain
  split <;> infer_instance

/- The type and all types inside it are plain. -/
def Plain
    (type : Descriptor) : Prop :=
  type.Everywhere IsPlain

instance : DecidablePred Plain := fun type =>
  inferInstanceAs (Decidable (type.Everywhere IsPlain))

/- No member of a generic array is a union. -/
def IsFlat
    (type : Descriptor) : Prop :=
  match type with
  | genericArray members => ∀ member ∈ members, ¬ member.IsUnion
  | _ => True

/- The type and all types inside it are plain and flat. -/
def Flat
    (type : Descriptor) : Prop :=
  type.Everywhere fun inner => inner.IsPlain ∧ inner.IsFlat

variable {type : Descriptor}

/- What a plain type contributes to a union are no unions. -/
theorem not_isUnion_of_mem_alternatives
    {member : Descriptor}
    (hPlain : type.IsPlain)
    (hMember : member ∈ type.alternatives) :
    ¬ member.IsUnion := by
  cases type with
  | union members => exact hPlain.2 member hMember
  | _ =>
      rw [List.mem_singleton.1 hMember]
      exact id

/- A plain type contributes something to a union. -/
theorem alternatives_ne_nil
    (hPlain : type.IsPlain) :
    type.alternatives ≠ [] := by
  cases type with
  | union members =>
      intro hNone
      have hTwo := hPlain.1
      rw [show members = [] from hNone] at hTwo
      simp at hTwo
  | _ => simp [alternatives]

end Descriptor

end ShapeTypes

------------------------------------------------------------
-- Splicing
------------------------------------------------------------

namespace ShapeTypes

namespace Descriptor

mutual

/-
  Put the members of unions in generic arrays in the place of
  the unions, at every depth.
-/
def spliced : Descriptor → Descriptor
  | array element => array (spliced element)
  | genericArray members =>
      genericArray ((splicedMembers members).flatMap alternatives)
  | record fields => record (splicedFields fields)
  | function parameters result =>
      function (splicedFields parameters) (spliced result)
  | union members => union (splicedMembers members)
  | type => type

/- Splice each of some types. -/
def splicedMembers : List Descriptor → List Descriptor
  | [] => []
  | type :: types => spliced type :: splicedMembers types

/- Splice each of some named types. -/
def splicedFields :
    List (String × Descriptor) → List (String × Descriptor)
  | [] => []
  | (name, type) :: fields => (name, spliced type) :: splicedFields fields

end

theorem splicedMembers_eq_map
    (types : List Descriptor) :
    splicedMembers types = types.map spliced := by
  induction types with
  | nil => rfl
  | cons type types ih => simp [splicedMembers, ih]

theorem splicedFields_eq_map
    (fields : List (String × Descriptor)) :
    splicedFields fields =
      fields.map fun field => (field.1, field.2.spliced) := by
  induction fields with
  | nil => rfl
  | cons field fields ih => simp [splicedFields, ih]

variable {type : Descriptor}

theorem isUnion_spliced :
    type.spliced.IsUnion ↔ type.IsUnion := by
  cases type <;> simp [spliced, IsUnion]

/- Splicing keeps the names of a type, and unions of no unions. -/
theorem IsPlain.spliced
    (hPlain : type.IsPlain) :
    type.spliced.IsPlain := by
  cases type with
  | record fields =>
      rw [Descriptor.spliced, splicedFields_eq_map]
      exact List.forall_mem_map.2 hPlain
  | function parameters result =>
      rw [Descriptor.spliced, splicedFields_eq_map]
      exact List.forall_mem_map.2 hPlain
  | union members =>
      rw [Descriptor.spliced, splicedMembers_eq_map]
      refine ⟨by simpa using hPlain.1, List.forall_mem_map.2 ?_⟩
      intro member hMember
      rw [isUnion_spliced]
      exact hPlain.2 member hMember
  | named text => exact hPlain
  | _ => trivial

/-
  A part of a spliced type is spliced from a part, or is what
  such a part contributes to a union.
-/
theorem exists_of_mem_parts_spliced
    {part : Descriptor}
    (hPart : part ∈ type.spliced.parts) :
    ∃ p ∈ type.parts,
      part = p.spliced ∨ part ∈ p.spliced.alternatives := by
  cases type with
  | array element =>
      exact ⟨element, by simp [parts], Or.inl (List.mem_singleton.1 hPart)⟩
  | genericArray members =>
      rw [spliced, parts, List.mem_flatMap, splicedMembers_eq_map] at hPart
      rcases hPart with ⟨member, hMember, hFrom⟩
      rcases List.mem_map.1 hMember with ⟨m, hm, rfl⟩
      exact ⟨m, hm, Or.inr hFrom⟩
  | record fields =>
      rw [spliced, parts, splicedFields_eq_map, List.map_map] at hPart
      rcases List.mem_map.1 hPart with ⟨field, hField, rfl⟩
      exact ⟨field.2, List.mem_map_of_mem hField, Or.inl rfl⟩
  | function parameters result =>
      rw [spliced, parts, splicedFields_eq_map, List.map_map] at hPart
      rcases List.mem_cons.1 hPart with rfl | hPart
      · exact ⟨result, by simp [parts], Or.inl rfl⟩
      · rcases List.mem_map.1 hPart with ⟨field, hField, rfl⟩
        exact ⟨field.2,
          List.mem_cons_of_mem _ (List.mem_map_of_mem hField), Or.inl rfl⟩
  | union members =>
      rw [spliced, parts, splicedMembers_eq_map] at hPart
      rcases List.mem_map.1 hPart with ⟨m, hm, rfl⟩
      exact ⟨m, hm, Or.inl rfl⟩
  | _ => simp [spliced, parts] at hPart

/- Splicing a plain type leaves no union in a generic array. -/
theorem Plain.spliced
    (hPlain : type.Plain) :
    type.spliced.Flat := by
  induction hPlain with
  | @intro type hHere hParts ih =>
      have hFlat : type.spliced.IsFlat := by
        cases type with
        | genericArray members =>
            intro member hMember
            rw [splicedMembers_eq_map, List.mem_flatMap] at hMember
            rcases hMember with ⟨_, hMember, hFrom⟩
            rcases List.mem_map.1 hMember with ⟨m, hm, rfl⟩
            exact not_isUnion_of_mem_alternatives (ih m hm).here.1 hFrom
        | _ => trivial
      refine .intro ⟨hHere.spliced, hFlat⟩ ?_
      intro part hPart
      rcases exists_of_mem_parts_spliced hPart with ⟨p, hp, rfl | hFrom⟩
      · exact ih p hp
      · exact (ih p hp).alternatives part hFrom

end Descriptor

end ShapeTypes

------------------------------------------------------------
-- The Text of Spliced Types
------------------------------------------------------------

namespace ShapeTypes

namespace Descriptor

/- The text of a member of a union. -/
def memberText
    (type : Descriptor) :
    String :=
  parenthesized type.isFunctionLike type.render

/- The text of a record field or a parameter. -/
def fieldText
    (field : String × Descriptor) :
    String :=
  field.1 ++ ": " ++ field.2.render

theorem renderMembers_eq_map
    (types : List Descriptor) :
    renderMembers types = types.map memberText := by
  induction types with
  | nil => simp [renderMembers]
  | cons type types ih => simp [renderMembers, ih, memberText]

theorem renderFields_eq_map
    (fields : List (String × Descriptor)) :
    renderFields fields = fields.map fieldText := by
  induction fields with
  | nil => simp [renderFields]
  | cons field fields ih => simp [renderFields, ih, fieldText]

/- A list that is joined in groups is joined. -/
theorem intercalate_flatMap
    {α : Type}
    (separator : String)
    (group : α → List String)
    {items : List α}
    (hGroups : ∀ item ∈ items, group item ≠ []) :
    separator.intercalate (items.flatMap group) =
      separator.intercalate
        (items.map fun item => separator.intercalate (group item)) := by
  induction items with
  | nil => rfl
  | cons item items ih =>
      have hRest := ih fun other hOther => hGroups other (by simp [hOther])
      by_cases hNil : items = []
      · simp [hNil]
      · have hFlat : items.flatMap group ≠ [] := by
          rcases List.exists_mem_of_ne_nil items hNil with ⟨other, hOther⟩
          intro hNone
          exact hGroups other (by simp [hOther])
            (List.flatMap_eq_nil_iff.1 hNone other hOther)
        rw [List.flatMap_cons, List.map_cons,
          String.intercalate_append_of_ne_nil (hGroups item (by simp)) hFlat,
          String.intercalate_cons_of_ne_nil (by simpa using hNil), hRest]

/- A type reads as what it contributes to a union. -/
theorem intercalate_alternatives
    (type : Descriptor) :
    " | ".intercalate (type.alternatives.map memberText) =
      type.memberText := by
  cases type with
  | union members =>
      simp [alternatives, memberText, parenthesized, isFunctionLike, render,
        renderMembers_eq_map]
  | _ => simp [alternatives]

theorem isFunctionLike_spliced
    (type : Descriptor) :
    type.spliced.isFunctionLike = type.isFunctionLike := by
  cases type <;> simp [spliced, isFunctionLike]

theorem isUnionLike_spliced
    (type : Descriptor) :
    type.spliced.isUnionLike = type.isUnionLike := by
  cases type <;> simp [spliced, isUnionLike]

theorem map_memberText_spliced
    {members : List Descriptor}
    (hTexts : ∀ member ∈ members, member.spliced.render = member.render) :
    (members.map spliced).map memberText = members.map memberText := by
  rw [List.map_map, List.map_inj_left]
  intro member hMember
  simp [memberText, isFunctionLike_spliced, hTexts member hMember]

theorem map_fieldText_spliced
    {fields : List (String × Descriptor)}
    (hTexts :
      ∀ type ∈ fields.map Prod.snd, type.spliced.render = type.render) :
    (fields.map fun field => (field.1, field.2.spliced)).map fieldText =
      fields.map fieldText := by
  rw [List.map_map, List.map_inj_left]
  intro field hField
  simp [fieldText, hTexts field.2 (List.mem_map_of_mem hField)]

/- Splicing does not change the text of a plain type. -/
theorem render_spliced
    {type : Descriptor}
    (hPlain : type.Plain) :
    type.spliced.render = type.render := by
  induction hPlain with
  | @intro type hHere hParts ih =>
      cases type with
      | array element =>
          have hElement := ih element (by simp [parts])
          simp [spliced, render, hElement, isFunctionLike_spliced,
            isUnionLike_spliced]
      | genericArray members =>
          have hGroups :
              ∀ member ∈ members.map spliced,
                member.alternatives.map memberText ≠ [] := by
            rw [List.forall_mem_map]
            intro member hMember
            have hNe := alternatives_ne_nil (hParts member hMember).here.spliced
            simpa using hNe
          simp only [spliced, render, renderMembers_eq_map,
            splicedMembers_eq_map, List.map_flatMap]
          rw [intercalate_flatMap " | " _ hGroups]
          have hMembers :
              (members.map spliced).map memberText =
                members.map memberText :=
            map_memberText_spliced ih
          simp only [intercalate_alternatives, hMembers]
      | record fields =>
          simp only [spliced, render, renderFields_eq_map,
            splicedFields_eq_map, map_fieldText_spliced ih]
      | function parameters result =>
          have hResult := ih result (by simp [parts])
          have hParameters :=
            map_fieldText_spliced fun type hType =>
              ih type (List.mem_cons_of_mem _ hType)
          simp only [spliced, render, renderFields_eq_map,
            splicedFields_eq_map, hParameters, hResult]
      | union members =>
          have hMembers :
              (members.map spliced).map memberText =
                members.map memberText :=
            map_memberText_spliced ih
          simp only [spliced, render, renderMembers_eq_map,
            splicedMembers_eq_map, hMembers]
      | primitive | named | unknown => rfl

end Descriptor

end ShapeTypes
