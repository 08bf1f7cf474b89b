import ShapeTypes.Proofs.Concrete.Layout
import ShapeTypes.Proofs.Draft.Drawn
import ShapeTypes.Store.Program

/-
  What is composed is drawn.

  Each construct of the language has its own way to compose
  an outline from the parts of a draft.  For each of them it
  is shown that the outline is drawn, and the table of
  constructs puts them together.

  Key theorems include:
    * `ShapeTypes.Draft.compose_drawn`
    * `ShapeTypes.Draft.ofTree_drawn`
    * `ShapeTypes.Draft.program_drawn`
-/

------------------------------------------------------------
-- Declarations, Arrays and Objects
------------------------------------------------------------

namespace ShapeTypes

namespace Draft

variable {source : List Char} {draft : Draft}

/- A name with a type and a value, by their roles. -/
theorem binding_drawn
    (fields : List String)
    {kind : NodeId → Option NodeId → Option NodeId → Kind}
    {name : Draft}
    {type value : Option Draft}
    (hDrawn : ∀ part ∈ draft.parts, IsDrawn source part)
    (hFields :
      fields.filterMap (field? draft.parts) =
        name :: (type.toList ++ value.toList))
    (hNodup : fields.Nodup)
    (hKind : ∀ a b c, (kind a b c).isAssembled = true)
    (hLists :
      ∀ a b c, (kind a b c).children = a :: (b.toList ++ c.toList)) :
    Drawn source draft
      [.binding draft.label.location kind name.outline
        (type.map outline) (value.map outline)] := by
  cases type with
  | none =>
      cases value with
      | none =>
          exact node_fields fields _ hDrawn hFields hNodup (hKind _ _ _)
            (hLists _ _ _)
      | some value =>
          exact node_fields fields _ hDrawn hFields hNodup (hKind _ _ _)
            (hLists _ _ _)
  | some type =>
      cases value with
      | none =>
          exact node_fields fields _ hDrawn hFields hNodup (hKind _ _ _)
            (hLists _ _ _)
      | some value =>
          exact node_fields fields _ hDrawn hFields hNodup (hKind _ _ _)
            (hLists _ _ _)

theorem declaration_drawn
    (hDrawn : ∀ part ∈ draft.parts, IsDrawn source part) :
    Drawn source draft [declaration source draft.label draft.parts] := by
  have hSublist :
      ((substantial draft.parts).filter
        (·.label.kind == "variable_declarator")).Sublist draft.parts :=
    List.filter_sublist.trans (substantial_sublist _)
  refine node_singles rfl ?_ hSublist.subperm
    fun part hPart => (hDrawn part (hSublist.subset hPart)).drawn
  simp [Kind.children]

theorem declarator_drawn
    (hDrawn : ∀ part ∈ draft.parts, IsDrawn source part) :
    Drawn source draft [declarator draft.label draft.parts] := by
  unfold declarator
  split
  · exact other_drawn hDrawn
  · rename_i name hName
    refine binding_drawn ["name", "type", "value"] hDrawn ?_
      (by decide) (fun _ _ _ => rfl) (fun _ _ _ => rfl)
    simp [List.filterMap_eq_flatMap_toList, hName]

/- The elements of an array are some of its parts, in order. -/
theorem slots_sublist
    (isOpen : Bool)
    (parts : List Draft) :
    ((slots isOpen parts).filterMap id).Sublist parts := by
  induction parts generalizing isOpen with
  | nil => simp [slots]
  | cons part parts ih =>
      rw [slots]
      split
      · exact (ih isOpen).cons part
      · split
        · split
          · simpa using (ih true).cons part
          · exact (ih true).cons part
        · simpa using ih false

/- The elements that are there get the next places. -/
theorem placesFrom_filterMap
    (place : Nat)
    (elements : List (Option Outline)) :
    (Outline.placesFrom place elements).filterMap id =
      List.range' place (elements.filterMap id).length := by
  induction elements generalizing place with
  | nil => rfl
  | cons element elements ih =>
      cases element with
      | none => simpa [Outline.placesFrom] using ih place
      | some outline =>
          simpa [Outline.placesFrom, List.range'_succ] using ih (place + 1)

theorem array_drawn
    (hDrawn : ∀ part ∈ draft.parts, IsDrawn source part) :
    Drawn source draft [array draft.label draft.parts] := by
  have hSublist := slots_sublist true draft.parts
  have hElements :
      ((slots true draft.parts).map (·.map outline)).filterMap id =
        ((slots true draft.parts).filterMap id).map outline := by
    rw [List.filterMap_map, List.map_filterMap]
    rfl
  rw [array, Outline.array, hElements]
  refine node_singles rfl ?_ hSublist.subperm
    fun part hPart => (hDrawn part (hSublist.subset hPart)).drawn
  rw [Kind.children, placesFrom_filterMap, hElements, List.length_map,
    List.range_eq_range']

/- The key of a property is drawn from the part that holds it. -/
theorem key_drawn
    {key : Draft}
    (hDrawn : key.Everywhere (IsDrawn source)) :
    Drawn source key [((computedKey? key).getD key).outline] := by
  cases hComputed : computedKey? key with
  | none => exact hDrawn.here.drawn
  | some inner =>
      have hInner : inner ∈ key.parts := by
        unfold computedKey? at hComputed
        split at hComputed
        · exact (substantial_sublist _).subset
            (List.mem_of_mem_head? hComputed)
        · simp at hComputed
      exact spread_part hInner (hDrawn.parts inner hInner).here.drawn

theorem pair_drawn
    {key value : Draft}
    (hDrawn : draft.Everywhere (IsDrawn source))
    (hKey : field? draft.parts "key" = some key)
    (hValue : field? draft.parts "value" = some value) :
    Drawn source draft [property draft.label key value.outline false] := by
  have hSubperm : [key, value].Subperm draft.parts := by
    have hFields : ["key", "value"].Nodup := by decide
    simpa [hKey, hValue] using fields_subperm draft.parts hFields
  have hNode :
      Drawn source draft
        [.node draft.label.location
          (.property 0 1 (computedKey? key).isSome false false)
          (Picks.outlines
            [(key, [((computedKey? key).getD key).outline]),
              (value, [value.outline])])] := by
    refine .node rfl rfl hSubperm ?_
    intro pick hPick
    rcases List.mem_cons.1 hPick with rfl | hPick
    · exact key_drawn (hDrawn.parts key (mem_of_field? hKey))
    · rw [List.mem_singleton.1 hPick]
      exact (hDrawn.parts value (mem_of_field? hValue)).here.drawn
  exact hNode

/- A part that is not named stands apart from those that are. -/
theorem cons_substantial_subperm
    {parts : List Draft}
    {part : Draft}
    (hPart : part ∈ parts)
    (hUnnamed : part.label.isSubstantial = false) :
    (part :: substantial parts).Subperm parts := by
  have hLeft :
      [part].Sublist (parts.filter fun d => !d.label.isSubstantial) := by
    rw [List.singleton_sublist, List.mem_filter]
    exact ⟨hPart, by simp [hUnnamed]⟩
  have hAll :
      (substantial parts ++ [part]).Subperm
        (substantial parts ++
          parts.filter fun d => !d.label.isSubstantial) :=
    ((List.Sublist.refl _).append hLeft).subperm
  have hSwap :
      (part :: substantial parts).Perm (substantial parts ++ [part]) :=
    (List.perm_append_singleton part (substantial parts)).symm
  exact (hSwap.subperm.trans hAll).trans
    (List.filter_append_perm _ parts).subperm

/- A method keeps its name, and all its named parts in its value. -/
theorem method_drawn
    {name : Draft}
    (hDrawn : draft.Everywhere (IsDrawn source))
    (hName : field? draft.parts "name" = some name) :
    Drawn source draft
      [property draft.label name (other draft.label draft.parts) true] := by
  have hMem := mem_of_field? hName
  have hKey := key_drawn (hDrawn.parts name hMem)
  have hValue :=
    other_drawn fun part hPart => (hDrawn.parts part hPart).here
  cases hNamed : name.label.isSubstantial with
  | false =>
      refine .unnamedMethod ?_ hValue
      have hSpread :
          Drawn source draft
            (Picks.outlines
              ((name, [((computedKey? name).getD name).outline]) ::
                Picks.singles outline (substantial draft.parts))) := by
        refine .spread ?_ ?_
        · simpa using cons_substantial_subperm hMem hNamed
        · intro pick hPick
          rcases List.mem_cons.1 hPick with rfl | hPick
          · exact hKey
          · refine singles_drawn ?_ pick hPick
            intro part hPart
            have hSublist := substantial_sublist draft.parts
            exact (hDrawn.parts part (hSublist.subset hPart)).here.drawn
      simpa using hSpread
  | true =>
      refine .method (spread_part hMem hKey) hValue ?_
      have hListed : name ∈ substantial draft.parts :=
        List.mem_filter.2 ⟨hMem, hNamed⟩
      cases hComputed : computedKey? name with
      | none => exact Or.inl (List.mem_map_of_mem hListed)
      | some inner =>
          unfold computedKey? at hComputed
          split at hComputed
          · rename_i hKind
            have hOutline : name.outline = other name.label name.parts := by
              rw [(hDrawn.parts name hMem).here.composed, compose, hKind]
              rfl
            have hCopy :
                name.outline ∈ (substantial draft.parts).map outline :=
              List.mem_map_of_mem hListed
            rw [hOutline] at hCopy
            exact Or.inr ⟨name.label.location, name.label.kind,
              (substantial name.parts).map outline, hCopy,
              List.mem_map_of_mem (List.mem_of_mem_head? hComputed)⟩
          · simp at hComputed

/- What a shorthand property stands around is a name. -/
theorem outline_of_shorthand
    (hDrawn : IsDrawn source draft)
    (hForm : MemberForm.ofKind draft.label.kind = .shorthand) :
    draft.outline =
      .leaf draft.label.location
        (.identifier (draft.label.text source)) := by
  have hKind : draft.label.kind = "shorthand_property_identifier" := by
    unfold MemberForm.ofKind at hForm
    split at hForm <;> simp_all
  rw [hDrawn.composed, compose, hKind]
  rfl

theorem member_drawn
    (hDrawn : draft.Everywhere (IsDrawn source)) :
    Drawn source draft [member draft] := by
  have hOther :=
    other_drawn fun part hPart => (hDrawn.parts part hPart).here
  unfold member
  split
  · split
    · rename_i hKey hValue
      exact pair_drawn hDrawn hKey hValue
    · exact hOther
  · rename_i hForm
    exact .shorthand (outline_of_shorthand hDrawn.here hForm)
      hDrawn.here.drawn
  · split
    · rename_i hName
      exact method_drawn hDrawn hName
    · exact hOther
  · exact hDrawn.here.drawn

theorem object_drawn
    (hDrawn :
      ∀ part ∈ draft.parts, part.Everywhere (IsDrawn source)) :
    Drawn source draft [object draft.label draft.parts] := by
  have hSublist := substantial_sublist draft.parts
  refine node_singles rfl ?_ hSublist.subperm
    fun part hPart => member_drawn (hDrawn part (hSublist.subset hPart))
  simp [Kind.children]

end Draft

end ShapeTypes

------------------------------------------------------------
-- Functions
------------------------------------------------------------

namespace ShapeTypes

namespace Draft

variable {source : List Char} {draft : Draft}

theorem parameter_drawn
    (hDrawn : draft.Everywhere (IsDrawn source)) :
    Drawn source draft [parameter draft] := by
  have hParts : ∀ part ∈ draft.parts, IsDrawn source part :=
    fun part hPart => (hDrawn.parts part hPart).here
  unfold parameter
  split
  · dsimp only
    split
    · exact other_drawn hParts
    · rename_i pattern hPattern
      refine binding_drawn ["pattern", "type", "value"] hParts ?_
        (by decide) (fun _ _ _ => rfl) (fun _ _ _ => rfl)
      simp [List.filterMap_eq_flatMap_toList, hPattern]
  · dsimp only
    split
    · exact other_drawn hParts
    · rename_i pattern hPattern
      change
        Drawn source draft
          [.binding draft.label.location .parameter pattern.outline
            ((none : Option Draft).map outline)
            ((field? draft.parts "right").map outline)]
      refine binding_drawn ["left", "right"] hParts ?_
        (by decide) (fun _ _ _ => rfl) (fun _ _ _ => rfl)
      simp [List.filterMap_eq_flatMap_toList, hPattern]
  · exact .bare hDrawn.here.drawn

/-
  The parameters of an arrow function come from one of its
  parts, which is not its return type or its body.
-/
theorem parameters_picked
    (parts : List Draft) :
    ∃ picks : Picks,
      picks.outlines = parameters parts ∧
        (∀ pick ∈ picks,
          pick.1 ∈ parts ∧
            (pick.2 = [bareParameter pick.1] ∨
              pick.2 = (substantial pick.1.parts).map parameter)) ∧
          ∃ fields : List String,
            fields.filterMap (field? parts) = picks.drafts ∧
              (fields ++ ["return_type", "body"]).Nodup := by
  unfold parameters
  split
  · rename_i part hField
    refine ⟨[(part, [bareParameter part])], rfl, ?_,
      ["parameter"], by simp [hField], by decide⟩
    simpa using mem_of_field? hField
  · rename_i part _ hField
    refine ⟨[(part, (substantial part.parts).map parameter)], by simp, ?_,
      ["parameters"], by simp [hField], by decide⟩
    simpa using mem_of_field? hField
  · exact ⟨[], rfl, by simp, [], rfl, by decide⟩

theorem parameters_drawn
    {part : Draft}
    {outlines : List Outline}
    (hDrawn : part.Everywhere (IsDrawn source))
    (hOutlines :
      outlines = [bareParameter part] ∨
        outlines = (substantial part.parts).map parameter) :
    Drawn source part outlines := by
  rcases hOutlines with rfl | rfl
  · exact .bare hDrawn.here.drawn
  · have hSublist := substantial_sublist part.parts
    refine spread_singles hSublist.subperm ?_
    intro param hParam
    exact parameter_drawn (hDrawn.parts param (hSublist.subset hParam))

/- The parts of an arrow function are listed in order. -/
theorem arrow_children
    (params : List Outline)
    (returnType : Option Outline)
    {kind : NodeId → ArrowBody}
    (hKind : ∀ id, (kind id).id = id) :
    (Kind.arrowFunction (List.range params.length)
        (kind (params.length + returnType.toList.length))
        (returnType.map fun _ => params.length)).children =
      List.range (params.length + returnType.toList.length + 1) := by
  cases returnType with
  | none => simp [Kind.children, hKind, List.range_succ]
  | some type => simp [Kind.children, hKind, List.range_succ]

theorem arrow_drawn
    (hArrow : draft.label.kind = "arrow_function")
    (hDrawn :
      ∀ part ∈ draft.parts, part.Everywhere (IsDrawn source)) :
    Drawn source draft [arrow draft.label draft.parts] := by
  have hOwn : ∀ part ∈ draft.parts, Drawn source part [part.outline] :=
    fun part hPart => (hDrawn part hPart).here.drawn
  obtain ⟨picks, hOutlines, hPicks, fields, hFields, hNodup⟩ :=
    parameters_picked draft.parts
  have hSubperm := fields_subperm draft.parts hNodup
  rw [List.filterMap_append, hFields] at hSubperm
  -- The return type, and the body if there is one.
  have hRest :
      ∀ pick ∈ picks ++
          Picks.singles outline
            (["return_type", "body"].filterMap (field? draft.parts)),
        Drawn source pick.1 pick.2 := by
    intro pick hPick
    rcases List.mem_append.1 hPick with hPick | hPick
    · obtain ⟨hPart, hDrawnFrom⟩ := hPicks pick hPick
      exact parameters_drawn (hDrawn pick.1 hPart) hDrawnFrom
    · refine singles_drawn (fun part hPart => hOwn part ?_) pick hPick
      exact hSubperm.subset (List.mem_append_right _ hPart)
  unfold arrow
  dsimp only
  split
  · rename_i hBody
    have hSpread := Drawn.spread (by simpa using hSubperm) hRest
    have hNamed :=
      spread_singles (substantial_sublist draft.parts).subperm
        fun part hPart => hOwn part ((substantial_sublist _).subset hPart)
    refine .bodiless hArrow hBody ?_ hNamed
    simpa [hOutlines, hBody, List.filterMap_eq_flatMap_toList,
      Option.toList_map] using hSpread
  · rename_i body hBody
    have hParts :
        (picks ++
          Picks.singles outline
            (["return_type", "body"].filterMap
              (field? draft.parts))).outlines =
          parameters draft.parts ++
            ((field? draft.parts "return_type").map outline).toList ++
              [body.outline] := by
      simp [hOutlines, hBody, List.filterMap_eq_flatMap_toList,
        Option.toList_map]
    rw [Outline.arrow, ← hParts]
    refine .node rfl ?_ (by simpa using hSubperm) hRest
    rw [arrow_children]
    · rw [hParts]
      simp [Nat.add_assoc]
    · intro id
      split <;> rfl

end Draft

end ShapeTypes

------------------------------------------------------------
-- Expressions
------------------------------------------------------------

namespace ShapeTypes

namespace Draft

variable {source : List Char} {draft : Draft}

theorem template_drawn
    (hDrawn :
      ∀ part ∈ draft.parts, part.Everywhere (IsDrawn source)) :
    Drawn source draft [template draft.label draft.parts] := by
  let substitutions :=
    (substantial draft.parts).filter
      (·.label.kind == "template_substitution")
  let picks : Picks :=
    substitutions.map fun part =>
      (part, (substantial part.parts).map outline)
  have hSublist : substitutions.Sublist draft.parts :=
    List.filter_sublist.trans (substantial_sublist _)
  have hDrafts : picks.drafts = substitutions := by
    simp [picks, Picks.drafts, Function.comp_def]
  have hOutlines :
      picks.outlines =
        (substitutions.flatMap fun part => substantial part.parts).map
          outline := by
    rw [Picks.outlines, List.flatMap_map, List.map_flatMap]
  have hPicks : ∀ pick ∈ picks, Drawn source pick.1 pick.2 := by
    intro pick hPick
    rcases List.mem_map.1 hPick with ⟨part, hPart, rfl⟩
    have hAll := hDrawn part (hSublist.subset hPart)
    have hInner := substantial_sublist part.parts
    exact spread_singles hInner.subperm fun inner hMem =>
      (hAll.parts inner (hInner.subset hMem)).here.drawn
  rw [template, Outline.listing, ← hOutlines]
  exact .node rfl rfl (hDrafts ▸ hSublist.subperm) hPicks

theorem conditional_drawn
    (hDrawn : ∀ part ∈ draft.parts, IsDrawn source part) :
    Drawn source draft [conditional draft.label draft.parts] := by
  unfold conditional
  split
  · rename_i hTest hConsequent hAlternate
    exact node_fields ["condition", "consequence", "alternative"]
      (.conditional 0 1 2) hDrawn
      (by simp [hTest, hConsequent, hAlternate]; rfl) (by decide) rfl rfl
  · exact other_drawn hDrawn

theorem binary_drawn
    (hDrawn : ∀ part ∈ draft.parts, IsDrawn source part) :
    Drawn source draft [binary draft.label draft.parts] := by
  unfold binary
  split
  · rename_i operator _ _ _ hLeft hRight
    exact node_fields ["left", "right"] (.binary operator 0 1) hDrawn
      (by simp [hLeft, hRight]; rfl) (by decide) rfl rfl
  · exact other_drawn hDrawn

theorem unary_drawn
    (hDrawn : ∀ part ∈ draft.parts, IsDrawn source part) :
    Drawn source draft [unary draft.label draft.parts] := by
  unfold unary
  split
  · rename_i operator _ _ hArgument
    exact node_fields ["argument"] (.unary operator 0) hDrawn
      (by simp [hArgument]; rfl) (by decide) rfl rfl
  · exact other_drawn hDrawn

theorem access_drawn
    (computed : Bool)
    (hDrawn : ∀ part ∈ draft.parts, IsDrawn source part) :
    Drawn source draft [access computed draft.label draft.parts] := by
  unfold access
  split
  · rename_i hObject hName
    exact node_fields
      ["object", if computed then "index" else "property"]
      (.member 0 1 computed) hDrawn
      (by simp [hObject, hName]; rfl) (by cases computed <;> decide) rfl rfl
  · exact other_drawn hDrawn

/- The arguments of a call come from one of its parts. -/
theorem arguments_picked
    (parts : List Draft) :
    ∃ picks : Picks,
      picks.outlines = arguments parts ∧
        (∀ pick ∈ picks,
          pick.1 ∈ parts ∧
            (pick.2 = [pick.1.outline] ∨
              pick.2 = (substantial pick.1.parts).map outline)) ∧
          ["arguments"].filterMap (field? parts) = picks.drafts := by
  unfold arguments
  split
  · rename_i part hField
    split
    · refine ⟨[(part, (substantial part.parts).map outline)], by simp, ?_,
        by simp [hField]⟩
      simpa using mem_of_field? hField
    · refine ⟨[(part, [part.outline])], rfl, ?_, by simp [hField]⟩
      simpa using mem_of_field? hField
  · rename_i hField
    exact ⟨[], rfl, by simp, by simp [hField]⟩

theorem arguments_drawn
    {part : Draft}
    {outlines : List Outline}
    (hDrawn : part.Everywhere (IsDrawn source))
    (hOutlines :
      outlines = [part.outline] ∨
        outlines = (substantial part.parts).map outline) :
    Drawn source part outlines := by
  rcases hOutlines with rfl | rfl
  · exact hDrawn.here.drawn
  · have hSublist := substantial_sublist part.parts
    exact spread_singles hSublist.subperm fun inner hMem =>
      (hDrawn.parts inner (hSublist.subset hMem)).here.drawn

theorem call_drawn
    (hDrawn :
      ∀ part ∈ draft.parts, part.Everywhere (IsDrawn source)) :
    Drawn source draft [call draft.label draft.parts] := by
  unfold call
  split
  · exact other_drawn fun part hPart => (hDrawn part hPart).here
  · rename_i callee hCallee
    obtain ⟨picks, hOutlines, hPicks, hFields⟩ :=
      arguments_picked draft.parts
    have hSubperm : (callee :: picks.drafts).Subperm draft.parts := by
      have hNodup : ["function", "arguments"].Nodup := by decide
      rw [← hFields]
      simpa [hCallee] using fields_subperm draft.parts hNodup
    have hNode :
        Drawn source draft
          [.node draft.label.location
            (.call 0 (List.range' 1 (arguments draft.parts).length))
            (Picks.outlines ((callee, [callee.outline]) :: picks))] := by
      refine .node rfl ?_ hSubperm ?_
      · simp [Kind.children, hOutlines, List.range_eq_range',
          List.range'_succ]
      · intro pick hPick
        rcases List.mem_cons.1 hPick with rfl | hPick
        · exact (hDrawn callee (mem_of_field? hCallee)).here.drawn
        · obtain ⟨hPart, hDrawnFrom⟩ := hPicks pick hPick
          exact arguments_drawn (hDrawn pick.1 hPart) hDrawnFrom
    simpa [Outline.call, hOutlines] using hNode

theorem asExpression_drawn
    {expression type : Draft}
    (hDrawn : ∀ part ∈ draft.parts, IsDrawn source part)
    (hParts : substantial draft.parts = [expression, type]) :
    Drawn source draft
      [.node draft.label.location (.asExpression 0 1)
        [expression.outline, ascription source type.label]] := by
  have hSublist := substantial_sublist draft.parts
  rw [hParts] at hSublist
  have hNode :
      Drawn source draft
        [.node draft.label.location (.asExpression 0 1)
          (Picks.outlines
            [(expression, [expression.outline]),
              (type, [ascription source type.label])])] := by
    refine .node rfl rfl hSublist.subperm ?_
    intro pick hPick
    rcases List.mem_cons.1 hPick with rfl | hPick
    · exact (hDrawn expression (hSublist.subset (by simp))).drawn
    · rw [List.mem_singleton.1 hPick]
      exact .ascription type
  exact hNode

end Draft

end ShapeTypes

------------------------------------------------------------
-- The Table of Constructs
------------------------------------------------------------

namespace ShapeTypes

open Concrete (Label Tree)

namespace Draft

variable {source : List Char} {draft : Draft}

theorem kind_of_arrow
    {kind : String}
    (hForm : Form.ofKind kind = .arrow) :
    kind = "arrow_function" := by
  unfold Form.ofKind at hForm
  split at hForm <;> simp_all

/- A node around the first of the named parts. -/
theorem first_drawn
    {kind : Kind}
    {first : Draft}
    {rest : List Draft}
    (hDrawn : ∀ part ∈ draft.parts, IsDrawn source part)
    (hParts : substantial draft.parts = first :: rest)
    (hKind : kind.isAssembled = true)
    (hLists : kind.children = [0]) :
    Drawn source draft
      [.node draft.label.location kind [first.outline]] := by
  have hSublist := substantial_sublist draft.parts
  rw [hParts] at hSublist
  have hFirst : first ∈ draft.parts := hSublist.subset (by simp)
  have hNode :
      Drawn source draft
        [.node draft.label.location kind
          (Picks.outlines [(first, [first.outline])])] := by
    refine .node hKind hLists
      (List.singleton_sublist.2 hFirst).subperm ?_
    intro pick hPick
    rw [List.mem_singleton.1 hPick]
    exact (hDrawn first hFirst).drawn
  exact hNode

/- What is composed by the table is drawn. -/
theorem compose_drawn
    (hDrawn :
      ∀ part ∈ draft.parts, part.Everywhere (IsDrawn source)) :
    Drawn source draft [compose source draft.label draft.parts] := by
  have hOwn : ∀ part ∈ draft.parts, IsDrawn source part :=
    fun part hPart => (hDrawn part hPart).here
  have hOther := other_drawn hOwn
  have hSublist := substantial_sublist draft.parts
  unfold compose
  dsimp only
  split
  · exact declaration_drawn hOwn
  · exact declarator_drawn hOwn
  · -- An expression statement.
    split
    · rename_i hParts
      exact first_drawn hOwn hParts rfl rfl
    · exact hOther
  · -- A block.
    refine node_singles rfl ?_ hSublist.subperm
      fun part hPart => (hOwn part (hSublist.subset hPart)).drawn
    simp [Kind.children]
  · -- A return statement.
    cases hParts : substantial draft.parts with
    | nil => exact leaf_drawn rfl rfl
    | cons first rest => exact first_drawn hOwn hParts rfl rfl
  · exact leaf_drawn rfl rfl
  · exact leaf_drawn rfl rfl
  · exact leaf_drawn rfl rfl
  · exact leaf_drawn rfl rfl
  · exact leaf_drawn rfl rfl
  · exact template_drawn hDrawn
  · exact leaf_drawn rfl rfl
  · exact array_drawn hOwn
  · exact object_drawn hDrawn
  · -- A spread element.
    split
    · rename_i hParts
      exact first_drawn hOwn hParts rfl rfl
    · exact hOther
  · rename_i hForm
    exact arrow_drawn (kind_of_arrow hForm) hDrawn
  · exact conditional_drawn hOwn
  · exact binary_drawn hOwn
  · exact unary_drawn hOwn
  · exact call_drawn hDrawn
  · exact access_drawn false hOwn
  · exact access_drawn true hOwn
  · -- Parentheses are taken away.
    split
    · rename_i inner hParts
      have hInner : inner ∈ draft.parts :=
        hSublist.subset (by simp [hParts])
      exact spread_part hInner (hOwn inner hInner).drawn
    · exact hOther
  · split
    · rename_i hParts
      exact asExpression_drawn hOwn hParts
    · exact hOther
  · -- A type, without the colon in front of it.
    split
    · rename_i type rest hParts
      have hType : type ∈ draft.parts :=
        hSublist.subset (by simp [hParts])
      exact spread_part hType (.ascription type)
    · exact .ascription draft
  · exact hOther

/- The drafts of a tree are all drawn. -/
theorem ofTree_drawn
    (source : List Char)
    (tree : Tree) :
    (ofTree source tree).Everywhere (IsDrawn source) := by
  induction tree using Tree.induct with
  | hNode label children ih =>
      have hParts :
          ∀ part ∈ (ofTree source (.node label children)).parts,
            part.Everywhere (IsDrawn source) := by
        intro part hPart
        rw [parts_ofTree] at hPart
        rcases List.mem_map.1 hPart with ⟨child, hChild, rfl⟩
        exact ih child hChild
      have hComposed := outline_ofTree source (.node label children)
      refine .intro ⟨hComposed, ?_⟩ hParts
      rw [hComposed]
      exact compose_drawn hParts

/- The parts of a program are drawn from its tree. -/
theorem program_drawn
    (source : List Char)
    (tree : Tree) :
    Drawn source (ofTree source tree)
      (Store.programOutline source tree).parts := by
  have hSublist := substantial_sublist (ofTree source tree).parts
  have hSpread :
      Drawn source (ofTree source tree)
        ((substantial (ofTree source tree).parts).map outline) :=
    spread_singles hSublist.subperm fun part hPart =>
      ((ofTree_drawn source tree).parts part
        (hSublist.subset hPart)).here.drawn
  rw [parts_ofTree, ← ofTrees_eq_map] at hSpread
  exact hSpread

end Draft

end ShapeTypes
