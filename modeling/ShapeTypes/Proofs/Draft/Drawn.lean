import Mathlib.Data.List.Nodup
import Mathlib.Data.List.Perm.Subperm
import ShapeTypes.Draft.Basic

/-
  How outlines are drawn from drafts.

  The outline of a concrete node is assembled from outlines
  of its children, of which each is used once.  `Drawn` says
  all the ways in which this can happen, so that what holds
  of every built outline is proved along it.

  Key definitions include:
    * `ShapeTypes.Draft.Everywhere`
    * `ShapeTypes.Draft.Picks`
    * `ShapeTypes.Draft.Drawn`

  Key theorems include:
    * `ShapeTypes.Draft.fields_subperm`
    * `ShapeTypes.Draft.spread_singles`
    * `ShapeTypes.Draft.node_fields`
-/

------------------------------------------------------------
-- Drafts and Their Parts
------------------------------------------------------------

namespace ShapeTypes

open Concrete (Label Tree)

namespace Draft

/- A property of a draft and of all drafts below it. -/
inductive Everywhere
    (property : Draft → Prop) :
    Draft → Prop where
  | intro {draft : Draft}
      (hHere : property draft)
      (hParts : ∀ part ∈ draft.parts, Everywhere property part) :
      Everywhere property draft

namespace Everywhere

variable {property : Draft → Prop} {draft : Draft}

theorem here
    (hAll : draft.Everywhere property) :
    property draft := by
  cases hAll
  assumption

theorem parts
    (hAll : draft.Everywhere property) :
    ∀ part ∈ draft.parts, part.Everywhere property := by
  cases hAll
  assumption

end Everywhere

theorem ofTrees_eq_map
    (source : List Char)
    (trees : List Tree) :
    ofTrees source trees = trees.map (ofTree source) := by
  induction trees with
  | nil => rfl
  | cons tree trees ih => simp [ofTrees, ih]

@[simp]
theorem label_ofTree
    (source : List Char)
    (tree : Tree) :
    (ofTree source tree).label = tree.label := by
  cases tree
  rfl

@[simp]
theorem parts_ofTree
    (source : List Char)
    (tree : Tree) :
    (ofTree source tree).parts = tree.children.map (ofTree source) := by
  cases tree
  simp [ofTree, parts, ofTrees_eq_map, Tree.children]

theorem outline_ofTree
    (source : List Char)
    (tree : Tree) :
    (ofTree source tree).outline =
      compose source tree.label (ofTree source tree).parts := by
  cases tree
  rfl

theorem mem_of_field?
    {parts : List Draft}
    {field : String}
    {part : Draft}
    (hField : field? parts field = some part) :
    part ∈ parts :=
  List.mem_of_find?_eq_some hField

/- Parts with different roles are different parts. -/
theorem fields_subperm
    {fields : List String}
    (parts : List Draft)
    (hNodup : fields.Nodup) :
    (fields.filterMap (field? parts)).Subperm parts := by
  refine List.Nodup.subperm ?_ ?_
  · refine hNodup.filterMap ?_
    intro f g part hf hg
    have hPartF := List.find?_some hf
    have hPartG := List.find?_some hg
    rw [beq_iff_eq] at hPartF hPartG
    exact Option.some.inj (hPartF.symm.trans hPartG)
  · intro part hPart
    rcases List.mem_filterMap.1 hPart with ⟨f, _, hField⟩
    exact mem_of_field? hField

theorem substantial_sublist
    (parts : List Draft) :
    (substantial parts).Sublist parts :=
  List.filter_sublist

end Draft

end ShapeTypes

------------------------------------------------------------
-- Drawing
------------------------------------------------------------

namespace ShapeTypes

/-
  The kinds that nodes with parts get.  Types are leaves, and
  there is one program.
-/
def Kind.isAssembled : Kind → Bool
  | program _ => false
  | ascription _ => false
  | _ => true

namespace Draft

/- Some drafts, each with the outlines that are drawn from it. -/
abbrev Picks :=
  List (Draft × List Outline)

namespace Picks

/- The drafts. -/
def drafts
    (picks : Picks) :
    List Draft :=
  picks.map Prod.fst

/- The outlines. -/
def outlines
    (picks : Picks) :
    List Outline :=
  picks.flatMap Prod.snd

/- One outline from each of some drafts. -/
def singles
    (draw : Draft → Outline)
    (drafts : List Draft) :
    Picks :=
  drafts.map fun draft => (draft, [draw draft])

@[simp]
theorem drafts_singles
    (draw : Draft → Outline)
    (drafts : List Draft) :
    (singles draw drafts).drafts = drafts := by
  simp [singles, Picks.drafts, Function.comp_def]

@[simp]
theorem outlines_singles
    (draw : Draft → Outline)
    (drafts : List Draft) :
    (singles draw drafts).outlines = drafts.map draw := by
  rw [singles, outlines, List.flatMap_map, List.map_eq_flatMap]

@[simp]
theorem drafts_nil :
    drafts [] = [] :=
  rfl

@[simp]
theorem outlines_nil :
    outlines [] = [] :=
  rfl

@[simp]
theorem drafts_append
    (a b : Picks) :
    drafts (a ++ b) = drafts a ++ drafts b :=
  List.map_append

@[simp]
theorem outlines_append
    (a b : Picks) :
    outlines (a ++ b) = outlines a ++ outlines b :=
  List.flatMap_append

@[simp]
theorem drafts_cons
    (pick : Draft × List Outline)
    (picks : Picks) :
    drafts (pick :: picks) = pick.1 :: drafts picks :=
  rfl

@[simp]
theorem outlines_cons
    (pick : Draft × List Outline)
    (picks : Picks) :
    outlines (pick :: picks) = pick.2 ++ outlines picks :=
  rfl

end Picks

/-
  What is drawn from a draft.  A node gets the outlines that
  are drawn from some of the parts, and lists them in order.

  Some constructs are different.  A shorthand property and a
  bare parameter stand around what is drawn from their own
  draft, which is a name for the former.  A method keeps all
  its named parts in its value, so its name stands there
  again, inside brackets if it is computed.  An arrow
  function without a body uses parts twice.
-/
inductive Drawn
    (source : List Char) :
    Draft → List Outline → Prop where
  | ascription (draft : Draft) :
      Drawn source draft [Draft.ascription source draft.label]
  | spread {draft : Draft} {picks : Picks}
      (hPicks : picks.drafts.Subperm draft.parts)
      (hDrawn : ∀ pick ∈ picks, Drawn source pick.1 pick.2) :
      Drawn source draft picks.outlines
  | node {draft : Draft} {picks : Picks} {kind : Kind}
      (hKind : kind.isAssembled = true)
      (hLists : kind.children = List.range picks.outlines.length)
      (hPicks : picks.drafts.Subperm draft.parts)
      (hDrawn : ∀ pick ∈ picks, Drawn source pick.1 pick.2) :
      Drawn source draft
        [.node draft.label.location kind picks.outlines]
  | shorthand {draft : Draft} {part : Outline} {name : String}
      (hName : part = .leaf draft.label.location (.identifier name))
      (hDrawn : Drawn source draft [part]) :
      Drawn source draft
        [.node draft.label.location (.property 0 0 false true false) [part]]
  | bare {draft : Draft} {part : Outline}
      (hDrawn : Drawn source draft [part]) :
      Drawn source draft
        [.node draft.label.location (.parameter 0 none none) [part]]
  | method {draft : Draft} {key : Outline} {parts : List Outline}
      {computed : Bool} {kind : String}
      (hKey : Drawn source draft [key])
      (hValue :
        Drawn source draft
          [.listing draft.label.location (.other kind) parts])
      (hNamed :
        key ∈ parts ∨
          ∃ location kind' inner,
            Outline.listing location (.other kind') inner ∈ parts ∧
              key ∈ inner) :
      Drawn source draft
        [.node draft.label.location (.property 0 1 computed false true)
          [key, .listing draft.label.location (.other kind) parts]]
  | unnamedMethod {draft : Draft} {key : Outline}
      {parts : List Outline} {computed : Bool} {kind : String}
      (hParts : Drawn source draft (key :: parts))
      (hValue :
        Drawn source draft
          [.listing draft.label.location (.other kind) parts]) :
      Drawn source draft
        [.node draft.label.location (.property 0 1 computed false true)
          [key, .listing draft.label.location (.other kind) parts]]
  | bodiless {draft : Draft} {abandoned own : List Outline}
      (hArrow : draft.label.kind = "arrow_function")
      (hBody : field? draft.parts "body" = none)
      (hAbandoned : Drawn source draft abandoned)
      (hOwn : Drawn source draft own) :
      Drawn source draft
        [.remainder draft.label.location draft.label.kind abandoned own]

end Draft

end ShapeTypes

------------------------------------------------------------
-- Common Layouts
------------------------------------------------------------

namespace ShapeTypes

namespace Draft

variable {source : List Char} {draft : Draft}

/- The outline of a draft is composed by the table, and drawn. -/
structure IsDrawn
    (source : List Char)
    (draft : Draft) : Prop where
  composed : draft.outline = compose source draft.label draft.parts
  drawn : Drawn source draft [draft.outline]

theorem singles_drawn
    {draw : Draft → Outline}
    {drafts : List Draft}
    (hDrawn : ∀ part ∈ drafts, Drawn source part [draw part]) :
    ∀ pick ∈ Picks.singles draw drafts, Drawn source pick.1 pick.2 := by
  intro pick hPick
  rcases List.mem_map.1 hPick with ⟨part, hPart, rfl⟩
  exact hDrawn part hPart

/- What is drawn from some parts is drawn from the draft. -/
theorem spread_singles
    {draw : Draft → Outline}
    {drafts : List Draft}
    (hDrafts : drafts.Subperm draft.parts)
    (hDrawn : ∀ part ∈ drafts, Drawn source part [draw part]) :
    Drawn source draft (drafts.map draw) := by
  have hSpread : Drawn source draft (Picks.singles draw drafts).outlines :=
    .spread (by simpa using hDrafts) (singles_drawn hDrawn)
  simpa using hSpread

/- What is drawn from one part is drawn from the draft. -/
theorem spread_part
    {part : Draft}
    {outlines : List Outline}
    (hPart : part ∈ draft.parts)
    (hDrawn : Drawn source part outlines) :
    Drawn source draft outlines := by
  have hSpread :
      Drawn source draft (Picks.outlines [(part, outlines)]) := by
    refine .spread ?_ ?_
    · exact (List.singleton_sublist.2 hPart).subperm
    · intro pick hPick
      rw [List.mem_singleton.1 hPick]
      exact hDrawn
  simpa [Picks.outlines] using hSpread

/- A node that lists one outline from each of some parts. -/
theorem node_singles
    {draw : Draft → Outline}
    {drafts : List Draft}
    {kind : Kind}
    (hKind : kind.isAssembled = true)
    (hLists : kind.children = List.range drafts.length)
    (hDrafts : drafts.Subperm draft.parts)
    (hDrawn : ∀ part ∈ drafts, Drawn source part [draw part]) :
    Drawn source draft
      [.node draft.label.location kind (drafts.map draw)] := by
  have hNode :
      Drawn source draft
        [.node draft.label.location kind
          (Picks.singles draw drafts).outlines] :=
    .node hKind (by simpa using hLists) (by simpa using hDrafts)
      (singles_drawn hDrawn)
  simpa using hNode

theorem leaf_drawn
    {kind : Kind}
    (hKind : kind.isAssembled = true)
    (hLists : kind.children = []) :
    Drawn source draft [.leaf draft.label.location kind] := by
  have hNode :
      Drawn source draft
        [.node draft.label.location kind (Picks.outlines [])] :=
    .node hKind hLists List.nil_subperm (by simp)
  exact hNode

/- A node that lists the outlines of parts with certain roles. -/
theorem node_fields
    (fields : List String)
    (kind : Kind)
    {drafts : List Draft}
    (hDrawn : ∀ part ∈ draft.parts, IsDrawn source part)
    (hFields : fields.filterMap (field? draft.parts) = drafts)
    (hNodup : fields.Nodup)
    (hKind : kind.isAssembled = true)
    (hLists : kind.children = List.range drafts.length) :
    Drawn source draft
      [.node draft.label.location kind (drafts.map outline)] := by
  subst hFields
  have hSubperm := fields_subperm draft.parts hNodup
  exact node_singles hKind hLists hSubperm
    fun part hPart => (hDrawn part (hSubperm.subset hPart)).drawn

theorem other_drawn
    (hDrawn : ∀ part ∈ draft.parts, IsDrawn source part) :
    Drawn source draft [other draft.label draft.parts] := by
  have hSublist := substantial_sublist draft.parts
  refine node_singles rfl ?_ hSublist.subperm
    fun part hPart => (hDrawn part (hSublist.subset hPart)).drawn
  simp [Kind.children]

end Draft

end ShapeTypes
