import ShapeTypes.Proofs.Descriptor.Spliced
import ShapeTypes.Proofs.Inference.Walk

/-
  Properties of all inferred types.

  A property that `unknown` has, and that every line of the
  table passes on from the parts of a node to the node, is a
  property of every inferred type, whatever the store is.  So
  is what the table makes sure of for every type by itself,
  at any depth: named types have known texts, and unions and
  generic arrays are in normal form.

  Key definitions include:
    * `ShapeTypes.Engine.Passes`
    * `ShapeTypes.Engine.MakesUnkeyed`
    * `ShapeTypes.Engine.Makes`
    * `ShapeTypes.Engine.Known`
    * `ShapeTypes.Descriptor.IsNormal`

  Key theorems include:
    * `ShapeTypes.Engine.Passes.infer`
    * `ShapeTypes.Engine.MakesUnkeyed.passes`
    * `ShapeTypes.Engine.passes_known`
    * `ShapeTypes.Engine.infer_normal`
-/

------------------------------------------------------------
-- Properties That Are Passed On
------------------------------------------------------------

namespace ShapeTypes

namespace Engine

/- The table passes a property on to types made of others. -/
structure Passes
    (engine : Engine)
    (store : Store)
    (property : Descriptor → Prop) : Prop where
  unknown : property .unknown
  combine :
    ∀ kind types,
      (∀ type ∈ types, property type) →
        property (engine.combine store kind types)

variable {engine : Engine} {store : Store}
variable {property : Descriptor → Prop}

/- Types that are each given with the property have it. -/
theorem forall_mem_of_forall₂
    {ids : List NodeId}
    {types : List Descriptor}
    (hTypes : List.Forall₂ (fun _ type => property type) ids types) :
    ∀ type ∈ types, property type := by
  induction hTypes with
  | nil => exact List.forall_mem_nil _
  | cons hHead _ ih => exact List.forall_mem_cons.2 ⟨hHead, ih⟩

/- Every inferred type has the property. -/
theorem Passes.infer
    (hPasses : engine.Passes store property)
    (id : NodeId) :
    property (engine.infer store id) := by
  have hGives :
      engine.Gives store (fun _ _ _ => True)
        (fun _ type => property type) := by
    constructor
    · exact fun _ _ => hPasses.unknown
    · exact fun _ _ _ _ => trivial
    · intro depth active id node types _ _ _ hTypes
      exact hPasses.combine node.kind types (forall_mem_of_forall₂ hTypes)
  exact hGives.infer trivial

end Engine

end ShapeTypes

------------------------------------------------------------
-- Properties of Types at Any Depth
------------------------------------------------------------

namespace ShapeTypes

namespace Descriptor

/- A weaker property holds wherever a stronger one does. -/
theorem Everywhere.imp
    {property weaker : Descriptor → Prop}
    {type : Descriptor}
    (hAll : type.Everywhere property)
    (hImp : ∀ inner, property inner → weaker inner) :
    type.Everywhere weaker := by
  induction hAll with
  | intro hHere _ ih => exact .intro (hImp _ hHere) ih

/- A text names `unknown`, a primitive type or a named type. -/
theorem ofText_cases
    (text : String) :
    ofText text = unknown ∨
      (∃ type, ofText text = primitive type) ∨
        ∃ name, ofText text = named name := by
  unfold ofText ofWord
  split
  · exact Or.inl rfl
  · split
    · exact Or.inr (Or.inl ⟨_, rfl⟩)
    · exact Or.inr (Or.inr ⟨_, rfl⟩)

/- A text names a type without parts. -/
theorem parts_ofText
    (text : String) :
    (ofText text).parts = [] := by
  rcases ofText_cases text with hType | ⟨_, hType⟩ | ⟨_, hType⟩ <;>
    simp [hType, parts]

/- Types that are neither none nor one are at least two. -/
theorem two_le_length
    {types : List Descriptor}
    (hNone : types ≠ [])
    (hOne : ∀ type, types ≠ [type]) :
    2 ≤ types.length := by
  rcases types with _ | ⟨first, _ | ⟨second, rest⟩⟩
  · exact absurd rfl hNone
  · exact absurd rfl (hOne first)
  · simp

theorem nodup_eraseDups
    (types : List Descriptor) :
    types.eraseDups.Nodup := by
  induction hLength : types.length using Nat.strongRecOn
    generalizing types with
  | ind length ih =>
      cases types with
      | nil => simp
      | cons type types =>
          rw [List.eraseDups_cons, List.nodup_cons]
          have hShorter :=
            List.length_filter_le (fun other => !other == type) types
          rw [List.length_cons] at hLength
          exact ⟨by simp [List.mem_eraseDups], ih _ (by omega) _ rfl⟩

end Descriptor

namespace Engine

open Descriptor (Everywhere)

/-
  Every type that the table makes, other than a record, has a
  property by itself.  The members of a generic array are at
  least two and are different, and those of a union are at
  least two and come from types that have the property.
-/
structure MakesUnkeyed
    (engine : Engine)
    (property : Descriptor → Prop) : Prop where
  unknown : property .unknown
  literal : ∀ value, property (literalType value)
  parameter : property (.ofText engine.options.parameterPlaceholder)
  call :
    ∀ pattern ∈ engine.registry.patterns,
      property (.ofText pattern.descriptor)
  array : ∀ element, property (.array element)
  genericArray :
    ∀ members, 2 ≤ members.length → members.Nodup →
      property (.genericArray members)
  function :
    ∀ parameters result, property (.function parameters result)
  union :
    ∀ types : List Descriptor, (∀ type ∈ types, property type) →
      2 ≤ (types.flatMap Descriptor.alternatives).length →
        property (.union (types.flatMap Descriptor.alternatives))

/- So has every record, whatever its keys are. -/
structure Makes
    (engine : Engine)
    (property : Descriptor → Prop) : Prop
    extends MakesUnkeyed engine property where
  record : ∀ fields, property (.record fields)

namespace MakesUnkeyed

variable {engine : Engine} {property : Descriptor → Prop}
variable {types : List Descriptor}

theorem everywhere_unknown
    (hMakes : engine.MakesUnkeyed property) :
    Descriptor.unknown.Everywhere property :=
  .intro hMakes.unknown (by simp [Descriptor.parts])

theorem everywhere_literalType
    (hMakes : engine.MakesUnkeyed property)
    (value : LiteralValue) :
    (literalType value).Everywhere property :=
  .intro (hMakes.literal value)
    (by cases value <;> simp [literalType, Descriptor.parts])

/- The join of types with the property has it at any depth. -/
theorem everywhere_join
    (hMakes : engine.MakesUnkeyed property)
    (hTypes : ∀ type ∈ types, type.Everywhere property) :
    (Descriptor.join types).Everywhere property := by
  have hMembers :
      ∀ member ∈ types.flatMap Descriptor.alternatives,
        member.Everywhere property := by
    intro member hMember
    rcases List.mem_flatMap.1 hMember with ⟨type, hType, hFrom⟩
    exact (hTypes type hType).alternatives member hFrom
  unfold Descriptor.join
  split
  · exact hMakes.everywhere_unknown
  · rename_i type hOne
    exact hMembers type (by simp [hOne])
  · rename_i hNone hOne
    have hHere := fun type hType => (hTypes type hType).here
    exact .intro
      (hMakes.union types hHere (Descriptor.two_le_length hNone hOne))
      hMembers

/- An array of types with the property has it at any depth. -/
theorem everywhere_arrayType
    (hMakes : engine.MakesUnkeyed property)
    (hTypes : ∀ type ∈ types, type.Everywhere property) :
    (arrayType types).Everywhere property := by
  have hMembers :
      ∀ type ∈ types.eraseDups, type.Everywhere property :=
    fun type hType => hTypes type (List.mem_eraseDups.1 hType)
  have hArray
      {type : Descriptor}
      (hType : type.Everywhere property) :
      (Descriptor.array type).Everywhere property :=
    .intro (hMakes.array type) (List.forall_mem_singleton.2 hType)
  unfold arrayType
  split
  · exact hArray hMakes.everywhere_unknown
  · rename_i type hOne
    exact hArray (hMembers type (by simp [hOne]))
  · rename_i hNone hOne
    exact .intro
      (hMakes.genericArray _ (Descriptor.two_le_length hNone hOne)
        (Descriptor.nodup_eraseDups types))
      hMembers

/- So has a function, whose parameters have the property. -/
theorem everywhere_functionType
    (hMakes : engine.MakesUnkeyed property)
    (names : List String)
    {result : Descriptor}
    (hResult : result.Everywhere property) :
    (functionType engine.options names result).Everywhere property := by
  refine .intro (hMakes.function _ _) ?_
  intro part hPart
  rcases List.mem_cons.1 hPart with rfl | hPart
  · exact hResult
  · rw [List.map_map] at hPart
    rcases List.mem_map.1 hPart with ⟨_, -, rfl⟩
    dsimp only [Function.comp_apply]
    refine .intro hMakes.parameter ?_
    rw [Descriptor.parts_ofText]
    exact List.forall_mem_nil _

/- So has what two branches give. -/
theorem everywhere_branchType
    {type other : Descriptor}
    (hMakes : engine.MakesUnkeyed property)
    (hTypes : ∀ part ∈ [type, other], part.Everywhere property) :
    (branchType engine.options type other).Everywhere property := by
  unfold branchType
  split
  · exact hTypes type (by simp)
  · exact hMakes.everywhere_join hTypes

/- So has what two operands give. -/
theorem everywhere_operandType
    {type other : Descriptor}
    (hMakes : engine.MakesUnkeyed property)
    (hTypes : ∀ part ∈ [type, other], part.Everywhere property) :
    (operandType engine.options type other).Everywhere property := by
  unfold operandType
  split
  · exact hTypes type (by simp)
  · split
    · exact hMakes.everywhere_join hTypes
    · exact hMakes.everywhere_unknown

/- So has the type of a call. -/
theorem everywhere_inferCall
    (hMakes : engine.MakesUnkeyed property)
    (store : Store)
    (callee : NodeId) :
    (engine.inferCall store callee).value.Everywhere property := by
  unfold inferCall
  split
  · exact hMakes.everywhere_unknown
  · rename_i path hPath
    split
    · rename_i type hType
      rcases Option.map_eq_some_iff.1 hType with ⟨pattern, hLookup, rfl⟩
      rw [Reported.value_pure]
      have hListed : pattern ∈ engine.registry.patterns := by
        rcases Option.or_eq_some_iff.1 hLookup with hExact | ⟨-, hSimple⟩
        · exact List.mem_of_find?_eq_some hExact
        · exact List.mem_of_find?_eq_some hSimple
      refine .intro (hMakes.call pattern hListed) ?_
      rw [Descriptor.parts_ofText]
      exact List.forall_mem_nil _
    · exact hMakes.everywhere_unknown

/-
  The table passes on what it makes sure of at every depth, if
  it does so for records whose keys are the names of stored
  properties.
-/
theorem passes
    (hMakes : engine.MakesUnkeyed property)
    (store : Store)
    (hRecord :
      ∀ fields : List (String × Descriptor),
        (∀ field ∈ fields, ∃ id value,
          store.namedField? id = some (field.1, value)) →
            property (.record fields)) :
    engine.Passes store (Everywhere property) := by
  refine ⟨hMakes.everywhere_unknown, ?_⟩
  intro kind types hTypes
  cases kind with
  | variableDeclaration keyword declarations =>
      exact hMakes.everywhere_join hTypes
  | variableDeclarator name type init =>
      cases init with
      | none => exact hMakes.everywhere_unknown
      | some init =>
          rcases types with _ | ⟨type, _ | ⟨_, _⟩⟩
          · exact hMakes.everywhere_unknown
          · exact hTypes type (by simp)
          · exact hMakes.everywhere_unknown
  | literal value raw => exact hMakes.everywhere_literalType value
  | arrayExpression elements => exact hMakes.everywhere_arrayType hTypes
  | objectExpression properties =>
      refine .intro (hRecord _ ?_) ?_
      · intro field hField
        rcases List.mem_map.1 (List.of_mem_zip hField).1 with
          ⟨⟨name, value⟩, hNamed, hName⟩
        rcases List.mem_filterMap.1 hNamed with ⟨id, -, hFound⟩
        rw [← hName]
        exact ⟨id, value, hFound⟩
      · intro part hPart
        rcases List.mem_map.1 hPart with ⟨field, hField, rfl⟩
        exact hTypes _ (List.of_mem_zip hField).2
  | arrowFunction params body returnType =>
      cases body with
      | expression body =>
          rcases types with _ | ⟨type, _ | ⟨_, _⟩⟩
          · exact hMakes.everywhere_unknown
          · exact hMakes.everywhere_functionType _ (hTypes type (by simp))
          · exact hMakes.everywhere_unknown
      | block body =>
          exact hMakes.everywhere_functionType _ hMakes.everywhere_unknown
  | conditional test consequent alternate =>
      rcases types with _ | ⟨type, _ | ⟨other, _ | ⟨_, _⟩⟩⟩
      · exact hMakes.everywhere_unknown
      · exact hMakes.everywhere_unknown
      · exact hMakes.everywhere_branchType hTypes
      · exact hMakes.everywhere_unknown
  | binary operator left right =>
      rcases types with _ | ⟨type, _ | ⟨other, _ | ⟨_, _⟩⟩⟩
      · exact hMakes.everywhere_unknown
      · exact hMakes.everywhere_unknown
      · exact hMakes.everywhere_operandType hTypes
      · exact hMakes.everywhere_unknown
  | call callee arguments => exact hMakes.everywhere_inferCall store callee
  | _ => exact hMakes.everywhere_unknown

end MakesUnkeyed

/- So it does if it does so for all records. -/
theorem Makes.passes
    {engine : Engine}
    {property : Descriptor → Prop}
    (hMakes : engine.Makes property)
    (store : Store) :
    engine.Passes store (Everywhere property) :=
  hMakes.toMakesUnkeyed.passes store fun _ _ => hMakes.record _

end Engine

end ShapeTypes

------------------------------------------------------------
-- Named Types
------------------------------------------------------------

namespace ShapeTypes

namespace Engine

open Descriptor (Everywhere)

/-
  The texts of the named types that an engine can write: that
  of regular expressions, of its parameters, and of calls.
-/
def Writes
    (engine : Engine)
    (text : String) : Prop :=
  text = "RegExp" ∨
    Descriptor.ofText engine.options.parameterPlaceholder = .named text ∨
      ∃ pattern ∈ engine.registry.patterns,
        Descriptor.ofText pattern.descriptor = .named text

/- If the type is a named type, the engine can write it. -/
def Known
    (engine : Engine)
    (type : Descriptor) : Prop :=
  ∀ text, type = .named text → engine.Writes text

theorem makes_known
    (engine : Engine) :
    engine.Makes engine.Known where
  unknown := nofun
  literal := by
    intro value text hNamed
    cases value with
    | regexp pattern =>
        cases hNamed
        exact Or.inl rfl
    | _ => cases hNamed
  parameter := fun _ hNamed => Or.inr (Or.inl hNamed)
  call := fun pattern hPattern _ hNamed =>
    Or.inr (Or.inr ⟨pattern, hPattern, hNamed⟩)
  array := fun _ _ hNamed => nomatch hNamed
  genericArray := fun _ _ _ _ hNamed => nomatch hNamed
  record := fun _ _ hNamed => nomatch hNamed
  function := fun _ _ _ hNamed => nomatch hNamed
  union := fun _ _ _ _ hNamed => nomatch hNamed

theorem everywhere_unknown
    {engine : Engine} :
    Descriptor.unknown.Everywhere engine.Known :=
  engine.makes_known.everywhere_unknown

theorem passes_known
    (engine : Engine)
    (store : Store) :
    engine.Passes store (Everywhere engine.Known) :=
  engine.makes_known.passes store

end Engine

end ShapeTypes

------------------------------------------------------------
-- Normal Forms
------------------------------------------------------------

namespace ShapeTypes

/-
  A union has at least two members, none of them a union, and
  a generic array has at least two, all of them different.
-/
def Descriptor.IsNormal
    (type : Descriptor) : Prop :=
  match type with
  | union members =>
      2 ≤ members.length ∧ ∀ member ∈ members, ¬ member.IsUnion
  | genericArray members => 2 ≤ members.length ∧ members.Nodup
  | _ => True

namespace Engine

/- The members of normal types make a normal union. -/
theorem isNormal_union
    {types : List Descriptor}
    (hTypes : ∀ type ∈ types, type.IsNormal)
    (hTwo : 2 ≤ (types.flatMap Descriptor.alternatives).length) :
    (Descriptor.union (types.flatMap Descriptor.alternatives)).IsNormal := by
  refine ⟨hTwo, ?_⟩
  intro member hMember
  rcases List.mem_flatMap.1 hMember with ⟨type, hType, hFrom⟩
  have hNormal := hTypes type hType
  cases type with
  | union members => exact hNormal.2 member hFrom
  | _ =>
      rw [List.mem_singleton.1 hFrom]
      exact id

/- A type that a text names is neither a union nor an array. -/
theorem isNormal_ofText
    (text : String) :
    (Descriptor.ofText text).IsNormal := by
  rcases Descriptor.ofText_cases text with
      hType | ⟨_, hType⟩ | ⟨_, hType⟩ <;>
    simp [hType, Descriptor.IsNormal]

theorem makes_normal
    (engine : Engine) :
    engine.Makes Descriptor.IsNormal where
  unknown := trivial
  literal := fun value => by cases value <;> exact trivial
  parameter := isNormal_ofText _
  call := fun pattern _ => isNormal_ofText pattern.descriptor
  array := fun _ => trivial
  genericArray := fun _ hTwo hNodup => ⟨hTwo, hNodup⟩
  record := fun _ => trivial
  function := fun _ _ => trivial
  union := fun _ => isNormal_union

/-
  Whatever the store and the engine are, unions and generic
  arrays are in normal form at every depth of an inferred type.
-/
theorem infer_normal
    (engine : Engine)
    (store : Store)
    (id : NodeId) :
    (engine.infer store id).Everywhere Descriptor.IsNormal :=
  (engine.makes_normal.passes store).infer id

end Engine

end ShapeTypes
