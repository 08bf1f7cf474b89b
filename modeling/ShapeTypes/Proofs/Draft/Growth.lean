import Mathlib.Algebra.Order.BigOperators.Group.List
import Mathlib.Algebra.Order.Ring.Nat
import ShapeTypes.Proofs.Draft.Outlines

/-
  How large the outline of a draft is.

  Every part of a draft gets a budget.  A construct uses some
  of its parts, each once, so that its outline has one node
  more than the budgets of the parts allow, if each of them
  pays for what is drawn from the part.  A method of an object
  is different: its name is drawn twice.

  Key definitions include:
    * `ShapeTypes.Draft.Budgeted`

  Key theorems include:
    * `ShapeTypes.Draft.size_le_of_picks`
    * `ShapeTypes.Draft.size_compose_le`
    * `ShapeTypes.Draft.size_parameter_le`
    * `ShapeTypes.Draft.size_method_le`
-/

------------------------------------------------------------
-- Budgets
------------------------------------------------------------

namespace ShapeTypes

namespace Outline

theorem sizeAll_append
    (a b : List Outline) :
    sizeAll (a ++ b) = sizeAll a + sizeAll b := by
  induction a with
  | nil => simp [sizeAll]
  | cons part a ih => rw [List.cons_append, sizeAll, sizeAll, ih, Nat.add_assoc]

end Outline

namespace Draft

variable {cost : Draft → Nat} {parts : List Draft} {outline : Outline}

/-
  A part has a budget for its own outline, and for those of
  its named parts.
-/
structure Budgeted
    (cost : Draft → Nat)
    (part : Draft) : Prop where
  own : part.outline.size ≤ cost part
  inner :
    Outline.sizeAll ((substantial part.parts).map Draft.outline) ≤ cost part

/- What is drawn from separate parts is paid by their budgets. -/
theorem sizeAll_outlines_le
    {picks : Picks}
    (hPicks : picks.drafts.Subperm parts)
    (hCost : ∀ pick ∈ picks, Outline.sizeAll pick.2 ≤ cost pick.1) :
    Outline.sizeAll picks.outlines ≤ (parts.map cost).sum := by
  have hDrafts :
      Outline.sizeAll picks.outlines ≤ (picks.drafts.map cost).sum := by
    clear hPicks
    induction picks with
    | nil => exact Nat.le_refl 0
    | cons pick picks ih =>
        rw [List.forall_mem_cons] at hCost
        rw [Picks.outlines_cons, Outline.sizeAll_append, Picks.drafts_cons,
          List.map_cons, List.sum_cons]
        exact Nat.add_le_add hCost.1 (ih hCost.2)
  rcases hPicks with ⟨kept, hPerm, hSublist⟩
  calc
    Outline.sizeAll picks.outlines ≤ (picks.drafts.map cost).sum := hDrafts
    _ = (kept.map cost).sum := ((hPerm.map cost).sum_eq).symm
    _ ≤ (parts.map cost).sum :=
      (hSublist.map cost).sum_le_sum fun _ _ => Nat.zero_le _

/- A node around what is drawn from separate parts. -/
theorem size_le_of_picks
    (picks : Picks)
    (hParts : outline.parts = picks.outlines)
    (hPicks : picks.drafts.Subperm parts)
    (hCost : ∀ pick ∈ picks, Outline.sizeAll pick.2 ≤ cost pick.1) :
    outline.size ≤ (parts.map cost).sum + 1 := by
  rw [Outline.size_eq, hParts]
  exact Nat.succ_le_succ (sizeAll_outlines_le hPicks hCost)

theorem sizeAll_map_le
    {draw : Draft → Outline}
    {drafts : List Draft}
    (hDrafts : drafts.Subperm parts)
    (hCost : ∀ part ∈ drafts, (draw part).size ≤ cost part) :
    Outline.sizeAll (drafts.map draw) ≤ (parts.map cost).sum := by
  have hAll :
      ∀ pick ∈ Picks.singles draw drafts,
        Outline.sizeAll pick.2 ≤ cost pick.1 := by
    intro pick hPick
    rcases List.mem_map.1 hPick with ⟨part, hPart, rfl⟩
    exact hCost part hPart
  simpa using sizeAll_outlines_le (by simpa using hDrafts) hAll

/- A node around one outline from each of some parts. -/
theorem size_le_of_singles
    {draw : Draft → Outline}
    {drafts : List Draft}
    (hParts : outline.parts = drafts.map draw)
    (hDrafts : drafts.Subperm parts)
    (hCost : ∀ part ∈ drafts, (draw part).size ≤ cost part) :
    outline.size ≤ (parts.map cost).sum + 1 := by
  rw [Outline.size_eq, hParts]
  exact Nat.succ_le_succ (sizeAll_map_le hDrafts hCost)

/- A node around the outlines of parts with certain roles. -/
theorem size_le_of_fields
    (fields : List String)
    (hNodup : fields.Nodup)
    (hParts :
      outline.parts =
        (fields.filterMap (field? parts)).map Draft.outline)
    (hBudget : ∀ part ∈ parts, part.Budgeted cost) :
    outline.size ≤ (parts.map cost).sum + 1 := by
  have hSubperm := fields_subperm parts hNodup
  exact size_le_of_singles hParts hSubperm
    fun part hPart => (hBudget part (hSubperm.subset hPart)).own

end Draft

end ShapeTypes

------------------------------------------------------------
-- Declarations, Arrays and Objects
------------------------------------------------------------

namespace ShapeTypes

open Concrete (Label)

namespace Draft

variable {cost : Draft → Nat} {label : Label} {parts : List Draft}

theorem size_leaf_le
    (location : Location)
    (kind : Kind) :
    (Outline.leaf location kind).size ≤ (parts.map cost).sum + 1 :=
  size_le_of_picks [] rfl (List.nil_subperm) (by simp)

theorem size_other_le
    (hBudget : ∀ part ∈ parts, part.Budgeted cost) :
    (other label parts).size ≤ (parts.map cost).sum + 1 := by
  have hSublist := substantial_sublist parts
  exact size_le_of_singles rfl hSublist.subperm
    fun part hPart => (hBudget part (hSublist.subset hPart)).own

theorem size_declaration_le
    (source : List Char)
    (hBudget : ∀ part ∈ parts, part.Budgeted cost) :
    (declaration source label parts).size ≤ (parts.map cost).sum + 1 := by
  have hSublist :
      ((substantial parts).filter
        (·.label.kind == "variable_declarator")).Sublist parts :=
    List.filter_sublist.trans (substantial_sublist _)
  exact size_le_of_singles rfl hSublist.subperm
    fun part hPart => (hBudget part (hSublist.subset hPart)).own

/- A name with a type and a value, by their roles. -/
theorem size_binding_le
    (fields : List String)
    {location : Location}
    {kind : NodeId → Option NodeId → Option NodeId → Kind}
    {name : Draft}
    {type value : Option Draft}
    (hBudget : ∀ part ∈ parts, part.Budgeted cost)
    (hFields :
      fields.filterMap (field? parts) =
        name :: (type.toList ++ value.toList))
    (hNodup : fields.Nodup) :
    (Outline.binding location kind name.outline
        (type.map Draft.outline) (value.map Draft.outline)).size ≤
      (parts.map cost).sum + 1 := by
  refine size_le_of_fields fields hNodup ?_ hBudget
  rw [hFields]
  simp [Outline.binding, Outline.parts, Option.toList_map]

theorem size_declarator_le
    (hBudget : ∀ part ∈ parts, part.Budgeted cost) :
    (declarator label parts).size ≤ (parts.map cost).sum + 1 := by
  unfold declarator
  split
  · exact size_other_le hBudget
  · rename_i name hName
    refine size_binding_le ["name", "type", "value"] hBudget ?_ (by decide)
    simp [List.filterMap_eq_flatMap_toList, hName]

theorem size_array_le
    (hBudget : ∀ part ∈ parts, part.Budgeted cost) :
    (array label parts).size ≤ (parts.map cost).sum + 1 := by
  have hSublist := slots_sublist true parts
  refine size_le_of_singles ?_ hSublist.subperm
    fun part hPart => (hBudget part (hSublist.subset hPart)).own
  rw [array, Outline.array, Outline.parts, List.filterMap_map,
    List.map_filterMap]
  rfl

/- The key of a property, in brackets or not. -/
theorem size_key_le
    {key : Draft}
    (hKey : key.Budgeted cost) :
    ((computedKey? key).getD key).outline.size ≤ cost key := by
  cases hComputed : computedKey? key with
  | none => exact hKey.own
  | some inner =>
      have hInner : inner ∈ substantial key.parts := by
        unfold computedKey? at hComputed
        split at hComputed
        · exact List.mem_of_mem_head? hComputed
        · simp at hComputed
      exact Nat.le_trans
        (Outline.size_le_sizeAll (List.mem_map_of_mem hInner)) hKey.inner

theorem size_pair_le
    {key value : Draft}
    (hBudget : ∀ part ∈ parts, part.Budgeted cost)
    (hKey : field? parts "key" = some key)
    (hValue : field? parts "value" = some value) :
    (property label key value.outline false).size ≤
      (parts.map cost).sum + 1 := by
  have hNodup : ["key", "value"].Nodup := by decide
  refine size_le_of_picks
    [(key, [((computedKey? key).getD key).outline]),
      (value, [value.outline])] rfl ?_ ?_
  · simpa [hKey, hValue] using fields_subperm parts hNodup
  · intro pick hPick
    rcases List.mem_cons.1 hPick with rfl | hPick
    · exact size_key_le (hBudget key (mem_of_field? hKey))
    · rw [List.mem_singleton.1 hPick]
      exact (hBudget value (mem_of_field? hValue)).own

/- The nodes of a method, whose value is the method again. -/
theorem size_method_eq
    (label : Label)
    (name : Draft)
    (parts : List Draft) :
    (property label name (other label parts) true).size =
      ((computedKey? name).getD name).outline.size +
        Outline.sizeAll ((substantial parts).map Draft.outline) + 2 := by
  simp only [property, other, Outline.listing, Outline.size, Outline.sizeAll]
  omega

/-
  A method.  Its name is drawn twice, as the key and among
  the named parts, so it needs a budget for both.
-/
theorem size_method_le
    {name : Draft}
    (hOwn : ∀ part ∈ parts, part.outline.size ≤ cost part)
    (hName : name ∈ parts)
    (hTwice :
      ((computedKey? name).getD name).outline.size + name.outline.size ≤
        cost name) :
    (property label name (other label parts) true).size ≤
      (parts.map cost).sum + 2 := by
  have hNamed :
      ∀ rest ⊆ parts,
        Outline.sizeAll ((substantial rest).map Draft.outline) ≤
          (rest.map cost).sum := by
    intro rest hRest
    have hSublist := substantial_sublist rest
    exact sizeAll_map_le hSublist.subperm
      fun part hPart => hOwn part (hRest (hSublist.subset hPart))
  obtain ⟨before, after, hSplit⟩ := List.append_of_mem hName
  have hBefore := hNamed before (by simp [hSplit])
  have hAfter := hNamed after (by simp [hSplit])
  have hValue :
      Outline.sizeAll ((substantial parts).map Draft.outline) ≤
        (before.map cost).sum + (name.outline.size + (after.map cost).sum) := by
    rw [hSplit, substantial, List.filter_append, List.map_append,
      Outline.sizeAll_append]
    refine Nat.add_le_add hBefore ?_
    rw [List.filter_cons]
    split
    · exact Nat.add_le_add_left hAfter _
    · exact Nat.le_trans hAfter (Nat.le_add_left _ _)
  have hSum :
      (parts.map cost).sum =
        (before.map cost).sum + (cost name + (after.map cost).sum) := by
    simp [hSplit]
  rw [size_method_eq]
  omega

/- Only methods are kept as such. -/
theorem kind_of_method
    {kind : String}
    (hForm : MemberForm.ofKind kind = .method) :
    kind = "method_definition" := by
  unfold MemberForm.ofKind at hForm
  split at hForm <;> simp_all

theorem size_member_le
    {draft : Draft}
    {bound : Nat}
    (hBudget : ∀ part ∈ draft.parts, part.Budgeted cost)
    (hSum : (draft.parts.map cost).sum + 2 ≤ bound)
    (hOwn : draft.outline.size + 1 ≤ bound)
    (hMethod :
      ∀ name ∈ draft.parts,
        name.label.field = some "name" →
          draft.label.kind = "method_definition" →
            ((computedKey? name).getD name).outline.size +
                name.outline.size ≤
              cost name) :
    (member draft).size ≤ bound := by
  have hOther :
      (other draft.label draft.parts).size ≤
        (draft.parts.map cost).sum + 1 :=
    size_other_le hBudget
  unfold member
  split
  · split
    · rename_i hKey hValue
      exact Nat.le_trans (size_pair_le hBudget hKey hValue) (by omega)
    · omega
  · simp only [Outline.size, Outline.sizeAll]
    omega
  · rename_i hForm
    split
    · rename_i name hName
      have hMem := mem_of_field? hName
      have hField : name.label.field = some "name" := by
        simpa using List.find?_some hName
      refine Nat.le_trans ?_ hSum
      exact size_method_le (fun part hPart => (hBudget part hPart).own) hMem
        (hMethod name hMem hField (kind_of_method hForm))
    · omega
  · omega

theorem size_object_le
    (hMember : ∀ part ∈ parts, (member part).size ≤ cost part) :
    (object label parts).size ≤ (parts.map cost).sum + 1 := by
  have hSublist := substantial_sublist parts
  exact size_le_of_singles rfl hSublist.subperm
    fun part hPart => hMember part (hSublist.subset hPart)

end Draft

end ShapeTypes

------------------------------------------------------------
-- Functions
------------------------------------------------------------

namespace ShapeTypes

open Concrete (Label)

namespace Draft

variable {cost : Draft → Nat} {label : Label} {parts : List Draft}

theorem size_parameter_le
    {draft : Draft}
    {bound : Nat}
    (hBudget : ∀ part ∈ draft.parts, part.Budgeted cost)
    (hSum : (draft.parts.map cost).sum + 1 ≤ bound)
    (hOwn : draft.outline.size + 1 ≤ bound) :
    (parameter draft).size ≤ bound := by
  have hOther :
      (other draft.label draft.parts).size ≤
        (draft.parts.map cost).sum + 1 :=
    size_other_le hBudget
  unfold parameter
  split
  · dsimp only
    split
    · omega
    · rename_i pattern hPattern
      refine Nat.le_trans ?_ hSum
      refine size_binding_le ["pattern", "type", "value"] hBudget ?_
        (by decide)
      simp [List.filterMap_eq_flatMap_toList, hPattern]
  · dsimp only
    split
    · omega
    · rename_i pattern hPattern
      refine Nat.le_trans ?_ hSum
      change
        (Outline.binding draft.label.location .parameter pattern.outline
          ((none : Option Draft).map Draft.outline)
          ((field? draft.parts "right").map Draft.outline)).size ≤ _
      refine size_binding_le ["left", "right"] hBudget ?_ (by decide)
      simp [List.filterMap_eq_flatMap_toList, hPattern]
  · exact Nat.le_trans (Nat.le_refl _) hOwn

/-
  What is drawn from the part that holds the parameters of
  an arrow function.
-/
structure BudgetedParameters
    (cost : Draft → Nat)
    (part : Draft) : Prop where
  bare : (bareParameter part).size ≤ cost part
  list :
    Outline.sizeAll ((substantial part.parts).map parameter) ≤ cost part

theorem size_arrow_le
    (hBudget : ∀ part ∈ parts, part.Budgeted cost)
    (hParameters : ∀ part ∈ parts, part.BudgetedParameters cost)
    (hBody : (field? parts "body").isSome) :
    (arrow label parts).size ≤ (parts.map cost).sum + 1 := by
  obtain ⟨body, hBody⟩ := Option.isSome_iff_exists.1 hBody
  obtain ⟨picks, hOutlines, hPicks, fields, hFields, hNodup⟩ :=
    parameters_picked parts
  have hSubperm := fields_subperm parts hNodup
  rw [List.filterMap_append, hFields] at hSubperm
  unfold arrow
  simp only [hBody]
  refine size_le_of_picks
    (picks ++
      Picks.singles Draft.outline
        (["return_type", "body"].filterMap (field? parts)))
    ?_ (by simpa using hSubperm) ?_
  · simp [Outline.arrow, Outline.parts, hOutlines, hBody,
      List.filterMap_eq_flatMap_toList, Option.toList_map]
  · intro pick hPick
    rcases List.mem_append.1 hPick with hPick | hPick
    · obtain ⟨hPart, hEither⟩ := hPicks pick hPick
      rcases hEither with hBare | hList
      · rw [hBare]
        exact (hParameters pick.1 hPart).bare
      · rw [hList]
        exact (hParameters pick.1 hPart).list
    · rcases List.mem_map.1 hPick with ⟨part, hPart, rfl⟩
      exact (hBudget part
        (hSubperm.subset (List.mem_append_right _ hPart))).own

end Draft

end ShapeTypes

------------------------------------------------------------
-- Expressions
------------------------------------------------------------

namespace ShapeTypes

open Concrete (Label)

namespace Draft

variable {cost : Draft → Nat} {label : Label} {parts : List Draft}

theorem size_template_le
    (hBudget : ∀ part ∈ parts, part.Budgeted cost) :
    (template label parts).size ≤ (parts.map cost).sum + 1 := by
  let substitutions :=
    (substantial parts).filter (·.label.kind == "template_substitution")
  have hSublist : substitutions.Sublist parts :=
    List.filter_sublist.trans (substantial_sublist _)
  refine size_le_of_picks
    (substitutions.map fun part =>
      (part, (substantial part.parts).map Draft.outline)) ?_ ?_ ?_
  · rw [Picks.outlines, List.flatMap_map]
    exact List.map_flatMap
  · simpa [Picks.drafts, Function.comp_def] using hSublist.subperm
  · intro pick hPick
    rcases List.mem_map.1 hPick with ⟨part, hPart, rfl⟩
    exact (hBudget part (hSublist.subset hPart)).inner

theorem size_conditional_le
    (hBudget : ∀ part ∈ parts, part.Budgeted cost) :
    (conditional label parts).size ≤ (parts.map cost).sum + 1 := by
  unfold conditional
  split
  · rename_i hTest hConsequent hAlternate
    refine size_le_of_fields ["condition", "consequence", "alternative"]
      (by decide) ?_ hBudget
    simp [hTest, hConsequent, hAlternate, Outline.parts]
  · exact size_other_le hBudget

theorem size_binary_le
    (hBudget : ∀ part ∈ parts, part.Budgeted cost) :
    (binary label parts).size ≤ (parts.map cost).sum + 1 := by
  unfold binary
  split
  · rename_i hLeft hRight
    refine size_le_of_fields ["left", "right"] (by decide) ?_ hBudget
    simp [hLeft, hRight, Outline.parts]
  · exact size_other_le hBudget

theorem size_unary_le
    (hBudget : ∀ part ∈ parts, part.Budgeted cost) :
    (unary label parts).size ≤ (parts.map cost).sum + 1 := by
  unfold unary
  split
  · rename_i hArgument
    refine size_le_of_fields ["argument"] (by decide) ?_ hBudget
    simp [hArgument, Outline.parts]
  · exact size_other_le hBudget

theorem size_access_le
    (computed : Bool)
    (hBudget : ∀ part ∈ parts, part.Budgeted cost) :
    (access computed label parts).size ≤ (parts.map cost).sum + 1 := by
  unfold access
  split
  · rename_i hObject hName
    refine size_le_of_fields
      ["object", if computed then "index" else "property"]
      (by cases computed <;> decide) ?_ hBudget
    simp [hObject, hName, Outline.parts]
  · exact size_other_le hBudget

theorem size_call_le
    (hBudget : ∀ part ∈ parts, part.Budgeted cost) :
    (call label parts).size ≤ (parts.map cost).sum + 1 := by
  unfold call
  split
  · exact size_other_le hBudget
  · rename_i callee hCallee
    obtain ⟨picks, hOutlines, hPicks, hFields⟩ := arguments_picked parts
    refine size_le_of_picks ((callee, [callee.outline]) :: picks) ?_ ?_ ?_
    · simp [Outline.call, Outline.parts, hOutlines]
    · have hNodup : ["function", "arguments"].Nodup := by decide
      rw [Picks.drafts_cons, ← hFields]
      simpa [hCallee] using fields_subperm parts hNodup
    · intro pick hPick
      rcases List.mem_cons.1 hPick with rfl | hPick
      · exact (hBudget callee (mem_of_field? hCallee)).own
      · obtain ⟨hPart, hEither⟩ := hPicks pick hPick
        rcases hEither with hOwn | hInner
        · rw [hOwn]
          exact (hBudget pick.1 hPart).own
        · rw [hInner]
          exact (hBudget pick.1 hPart).inner

/- A node around the first of the named parts. -/
theorem size_first_le
    {location : Location}
    {kind : Kind}
    {first : Draft}
    {rest : List Draft}
    (hBudget : ∀ part ∈ parts, part.Budgeted cost)
    (hParts : substantial parts = first :: rest) :
    (Outline.node location kind [first.outline]).size ≤
      (parts.map cost).sum + 1 := by
  have hSublist := substantial_sublist parts
  rw [hParts] at hSublist
  have hFirst : first ∈ parts := hSublist.subset (by simp)
  refine size_le_of_picks [(first, [first.outline])] rfl
    (List.singleton_sublist.2 hFirst).subperm ?_
  intro pick hPick
  rw [List.mem_singleton.1 hPick]
  exact (hBudget first hFirst).own

theorem size_asExpression_le
    {location : Location}
    {source : List Char}
    {expression type : Draft}
    (hBudget : ∀ part ∈ parts, part.Budgeted cost)
    (hParts : substantial parts = [expression, type]) :
    (Outline.node location (.asExpression 0 1)
        [expression.outline, ascription source type.label]).size ≤
      (parts.map cost).sum + 1 := by
  have hSublist := substantial_sublist parts
  rw [hParts] at hSublist
  refine size_le_of_picks
    [(expression, [expression.outline]),
      (type, [ascription source type.label])] rfl hSublist.subperm ?_
  intro pick hPick
  rcases List.mem_cons.1 hPick with rfl | hPick
  · exact (hBudget expression (hSublist.subset (by simp))).own
  · rw [List.mem_singleton.1 hPick]
    -- A type is a leaf, and the part has a node of its own.
    refine Nat.le_trans ?_ (hBudget type (hSublist.subset (by simp))).own
    rw [Outline.size_eq type.outline]
    exact Nat.succ_le_succ (Nat.zero_le _)

end Draft

end ShapeTypes

------------------------------------------------------------
-- The Table of Constructs
------------------------------------------------------------

namespace ShapeTypes

open Concrete (Label)

namespace Draft

variable {cost : Draft → Nat} {label : Label} {parts : List Draft}

theorem kind_of_object
    {kind : String}
    (hForm : Form.ofKind kind = .object) :
    kind = "object" := by
  unfold Form.ofKind at hForm
  split at hForm <;> simp_all

/-
  What is composed has one node more than the budgets of the
  parts allow.  Only objects and arrow functions draw more
  from a part than its outline or those of its named parts.
-/
theorem size_compose_le
    (source : List Char)
    (hBudget : ∀ part ∈ parts, part.Budgeted cost)
    (hObject :
      label.kind = "object" →
        ∀ part ∈ parts, (member part).size ≤ cost part)
    (hArrow :
      label.kind = "arrow_function" →
        (field? parts "body").isSome ∧
          ∀ part ∈ parts, part.BudgetedParameters cost) :
    (compose source label parts).size ≤ (parts.map cost).sum + 1 := by
  have hOther : (other label parts).size ≤ (parts.map cost).sum + 1 :=
    size_other_le hBudget
  have hSublist := substantial_sublist parts
  unfold compose
  dsimp only
  split
  · exact size_declaration_le source hBudget
  · exact size_declarator_le hBudget
  · -- An expression statement.
    split
    · rename_i hParts
      exact size_first_le hBudget hParts
    · exact hOther
  · -- A block.
    exact size_le_of_singles rfl hSublist.subperm
      fun part hPart => (hBudget part (hSublist.subset hPart)).own
  · -- A return statement.
    cases hParts : substantial parts with
    | nil => exact size_leaf_le _ _
    | cons first rest => exact size_first_le hBudget hParts
  · exact size_leaf_le _ _
  · exact size_leaf_le _ _
  · exact size_leaf_le _ _
  · exact size_leaf_le _ _
  · exact size_leaf_le _ _
  · exact size_template_le hBudget
  · exact size_leaf_le _ _
  · exact size_array_le hBudget
  · rename_i hForm
    exact size_object_le (hObject (kind_of_object hForm))
  · -- A spread element.
    split
    · rename_i hParts
      exact size_first_le hBudget hParts
    · exact hOther
  · rename_i hForm
    obtain ⟨hBody, hParameters⟩ := hArrow (kind_of_arrow hForm)
    exact size_arrow_le hBudget hParameters hBody
  · exact size_conditional_le hBudget
  · exact size_binary_le hBudget
  · exact size_unary_le hBudget
  · exact size_call_le hBudget
  · exact size_access_le false hBudget
  · exact size_access_le true hBudget
  · -- Parentheses are taken away.
    split
    · rename_i inner hParts
      have hInner : inner ∈ parts := hSublist.subset (by simp [hParts])
      refine Nat.le_trans (hBudget inner hInner).own ?_
      refine Nat.le_succ_of_le ?_
      exact List.single_le_sum (by simp) _ (List.mem_map_of_mem hInner)
    · exact hOther
  · split
    · rename_i hParts
      exact size_asExpression_le hBudget hParts
    · exact hOther
  · -- A type, without the colon in front of it.
    split
    · exact size_leaf_le _ _
    · exact size_leaf_le _ _
  · exact hOther

end Draft

end ShapeTypes
