import ShapeTypes.Proofs.Draft.Composed
import ShapeTypes.Proofs.Outline.Site

/-
  What holds of the outlines that are drawn from drafts.

  Every node lists all its parts in order, unless it is an
  arrow function without a body.  The parts of a node lie
  inside it and apart from each other, with one exception:
  the name of a method stands again in its value.

  Key definitions include:
    * `ShapeTypes.Outline.Echo`
    * `ShapeTypes.Outline.Spanned`

  Key theorems include:
    * `ShapeTypes.Draft.Drawn.forall_nodes`
    * `ShapeTypes.Draft.Drawn.listsOnce`
    * `ShapeTypes.Draft.Drawn.spanned`
-/

------------------------------------------------------------
-- From Trees to Drafts
------------------------------------------------------------

namespace ShapeTypes

open Concrete (Tree)

namespace Draft

/- What holds everywhere in a tree holds everywhere in its draft. -/
theorem everywhere_ofTree
    {source : List Char}
    {tree : Tree}
    {onTree : Tree → Prop}
    {onDraft : Draft → Prop}
    (hTree : tree.Everywhere onTree)
    (hImp : ∀ t, onTree t → onDraft (ofTree source t)) :
    (ofTree source tree).Everywhere onDraft := by
  induction tree using Tree.induct with
  | hNode label children ih =>
      rcases Tree.everywhere_node_iff.1 hTree with ⟨hTop, hChildren⟩
      refine .intro (hImp _ hTop) ?_
      intro part hPart
      rw [parts_ofTree] at hPart
      rcases List.mem_map.1 hPart with ⟨child, hChild, rfl⟩
      exact ih child hChild (hChildren child hChild)

/- A draft of an arrow function has a part that is its body. -/
def HasBody
    (draft : Draft) : Prop :=
  draft.label.kind = "arrow_function" →
    field? draft.parts "body" ≠ none

/- The arrow functions of a tree keep their bodies. -/
theorem everywhere_hasBody
    {tree : Tree}
    (source : List Char)
    (hBodies : tree.ArrowsHaveBodies) :
    (ofTree source tree).Everywhere HasBody := by
  refine everywhere_ofTree hBodies ?_
  intro t hBody hArrow hNone
  rw [label_ofTree] at hArrow
  rcases hBody hArrow with ⟨child, hChild, hField⟩
  rw [parts_ofTree, field?, List.find?_eq_none] at hNone
  have hNot := hNone _ (List.mem_map_of_mem hChild)
  simp [hField] at hNot

/- One draft stands before the other. -/
def Apart
    (a b : Draft) : Prop :=
  a.label.location.Apart b.label.location

instance : Std.Symm Apart where
  symm _ _ hApart := hApart.symm

/- The parts of a draft lie inside it and apart from each other. -/
structure HoldsParts
    (draft : Draft) : Prop where
  inside :
    ∀ part ∈ draft.parts,
      part.label.location.Inside draft.label.location
  apart : draft.parts.Pairwise Apart

/- The nodes of a nested tree hold their parts. -/
theorem everywhere_holdsParts
    {tree : Tree}
    (source : List Char)
    (hNested : tree.Nested) :
    (ofTree source tree).Everywhere HoldsParts := by
  refine everywhere_ofTree hNested ?_
  intro t hHolds
  constructor
  · intro part hPart
    rw [parts_ofTree] at hPart
    rcases List.mem_map.1 hPart with ⟨child, hChild, rfl⟩
    simpa using hHolds.1 child hChild
  · rw [parts_ofTree, List.pairwise_map]
    refine hHolds.2.imp ?_
    intro a b hBefore
    rw [Apart, label_ofTree, label_ofTree]
    exact Or.inl hBefore

end Draft

end ShapeTypes

------------------------------------------------------------
-- Parts in Order
------------------------------------------------------------

namespace ShapeTypes

namespace Draft

namespace Drawn

variable {source : List Char} {draft : Draft} {outlines : List Outline}

/- The outlines of picks keep what each of them keeps. -/
theorem forall_outlines
    {property : Outline → Prop}
    {picks : Picks}
    (hPicks : ∀ pick ∈ picks, ∀ part ∈ pick.2, property part) :
    ∀ part ∈ picks.outlines, property part := by
  intro part hPart
  rcases List.mem_flatMap.1 hPart with ⟨pick, hPick, hMem⟩
  exact hPicks pick hPick part hMem

/-
  What holds of every single node that can be drawn holds of
  all nodes that are drawn.
-/
theorem forall_nodes
    {property : Outline → Prop}
    {onDraft : Draft → Prop}
    (hDrawn : Drawn source draft outlines)
    (hDraft : draft.Everywhere onDraft)
    (hAscription :
      ∀ d : Draft, onDraft d → property (Draft.ascription source d.label))
    (hNode :
      ∀ (d : Draft) (kind : Kind) (parts : List Outline),
        onDraft d → kind.isAssembled = true →
          (Outline.node d.label.location kind parts).ListsOnce →
            property (.node d.label.location kind parts))
    (hRemainder :
      ∀ (d : Draft) (abandoned own : List Outline),
        onDraft d → d.label.kind = "arrow_function" →
          field? d.parts "body" = none →
            property
              (.remainder d.label.location d.label.kind abandoned own)) :
    ∀ part ∈ outlines, part.Forall property := by
  induction hDrawn with
  | ascription draft =>
      rw [List.forall_mem_singleton]
      exact .intro (hAscription draft hDraft.here) (List.forall_mem_nil _)
  | spread hPicks _ ih =>
      refine forall_outlines fun pick hPick => ih pick hPick ?_
      exact hDraft.parts _ (hPicks.subset (List.mem_map_of_mem hPick))
  | node hKind hLists hPicks _ ih =>
      rw [List.forall_mem_singleton]
      refine .intro (hNode _ _ _ hDraft.here hKind (Or.inl hLists)) ?_
      refine forall_outlines fun pick hPick => ih pick hPick ?_
      exact hDraft.parts _ (hPicks.subset (List.mem_map_of_mem hPick))
  | shorthand hName _ ih =>
      rw [List.forall_mem_singleton]
      refine .intro (hNode _ _ _ hDraft.here rfl (Or.inr ?_)) (ih hDraft)
      exact ⟨rfl, _, _, congrArg (fun part => [part]) hName⟩
  | bare _ ih =>
      rw [List.forall_mem_singleton]
      exact .intro (hNode _ _ _ hDraft.here rfl (Or.inl rfl)) (ih hDraft)
  | method _ _ _ ihKey ihValue =>
      rw [List.forall_mem_singleton]
      refine .intro (hNode _ _ _ hDraft.here rfl (Or.inl rfl)) ?_
      exact List.forall_mem_cons.2
        ⟨ihKey hDraft _ (by simp), ihValue hDraft⟩
  | unnamedMethod _ _ ihParts ihValue =>
      rw [List.forall_mem_singleton]
      refine .intro (hNode _ _ _ hDraft.here rfl (Or.inl rfl)) ?_
      exact List.forall_mem_cons.2
        ⟨ihParts hDraft _ (by simp), ihValue hDraft⟩
  | bodiless hArrow hBody _ _ ihAbandoned ihOwn =>
      rw [List.forall_mem_singleton]
      refine .intro (hRemainder _ _ _ hDraft.here hArrow hBody) ?_
      exact List.forall_mem_append.2 ⟨ihAbandoned hDraft, ihOwn hDraft⟩

/- Every node that is drawn lists its parts once. -/
theorem listsOnce
    (hDrawn : Drawn source draft outlines)
    (hBodies : draft.Everywhere HasBody) :
    ∀ part ∈ outlines, part.Forall Outline.ListsOnce := by
  refine hDrawn.forall_nodes hBodies ?_ ?_ ?_
  · intro d _
    exact Or.inl rfl
  · intro d kind parts _ _ hOnce
    exact hOnce
  · intro d abandoned own hBody hArrow hNone
    exact absurd hNone (hBody hArrow)

/- Nothing that is drawn is a program. -/
theorem not_program
    {onDraft : Draft → Prop}
    (hDrawn : Drawn source draft outlines)
    (hDraft : draft.Everywhere onDraft) :
    ∀ part ∈ outlines,
      part.Forall fun lower => ∀ body, lower.kind ≠ .program body := by
  refine hDrawn.forall_nodes hDraft ?_ ?_ ?_
  · rintro d - body ⟨⟩
  · rintro d kind parts - hKind - body hProgram
    rw [show kind = .program body from hProgram] at hKind
    simp [Kind.isAssembled] at hKind
  · rintro d abandoned own - - - body ⟨⟩

/- Every node that is drawn refers to its parts only. -/
theorem refersToParts
    {onDraft : Draft → Prop}
    (hDrawn : Drawn source draft outlines)
    (hDraft : draft.Everywhere onDraft) :
    ∀ part ∈ outlines, part.Forall Outline.RefersToParts := by
  refine hDrawn.forall_nodes hDraft ?_ ?_ ?_
  · rintro d - place ⟨⟩
  · intro d kind parts _ _ hOnce
    exact hOnce.listsParts.refersToParts
  · intro d abandoned own _ _ _ place hPlace
    simp only [Outline.remainder, Outline.kind, Outline.parts,
      Kind.children, List.mem_range'_1, List.length_append] at hPlace ⊢
    exact hPlace.2

/-
  An annotation that is drawn has the span and the text of a
  draft.
-/
theorem reads
    {onDraft : Draft → Prop}
    (hDrawn : Drawn source draft outlines)
    (hDraft : draft.Everywhere onDraft) :
    ∀ part ∈ outlines,
      part.Forall fun lower =>
        ∀ text, lower.kind = .ascription text →
          ∃ d, onDraft d ∧ lower.location = d.label.location ∧
            text = d.label.text source := by
  refine hDrawn.forall_nodes hDraft ?_ ?_ ?_
  · rintro d hHere text ⟨⟩
    exact ⟨d, hHere, rfl, rfl⟩
  · rintro d kind parts _ hKind _ text hText
    rw [show kind = .ascription text from hText] at hKind
    simp [Kind.isAssembled] at hKind
  · rintro d abandoned own _ _ _ text ⟨⟩

end Drawn

end Draft

end ShapeTypes

------------------------------------------------------------
-- Spans
------------------------------------------------------------

namespace ShapeTypes

namespace Outline

/- One outline stands before the other. -/
def Apart
    (a b : Outline) : Prop :=
  a.location.Apart b.location

instance : Std.Symm Apart where
  symm _ _ hApart := hApart.symm

/-
  How an outline may lie to the name of a method that stands
  before it: it is the name itself, lies apart from it, or
  lies around it and has such parts only.
-/
inductive Echo
    (key : Outline) :
    Outline → Prop where
  | same : Echo key key
  | apart {outline : Outline}
      (hApart : key.Apart outline) :
      Echo key outline
  | around {location : Location} {kind : String} {places : List NodeId}
      {parts : List Outline}
      (hInside : key.location.Inside location)
      (hParts : ∀ part ∈ parts, Echo key part) :
      Echo key (node location (.other kind places) parts)

/-
  The parts of every node lie inside it.  They lie apart from
  each other, or are the name and the value of a method.
-/
inductive Spanned : Outline → Prop where
  | apart {location : Location} {kind : Kind} {parts : List Outline}
      (hInside : ∀ part ∈ parts, part.location.Inside location)
      (hApart : parts.Pairwise Apart)
      (hParts : ∀ part ∈ parts, Spanned part) :
      Spanned (node location kind parts)
  | method {location : Location} {key value : Outline} {computed : Bool}
      (hKey : key.location.Inside location)
      (hValue : value.location.Inside location)
      (hEcho : Echo key value)
      (hKeySpanned : Spanned key)
      (hValueSpanned : Spanned value) :
      Spanned
        (node location (.property 0 1 computed false true) [key, value])

/- The parts of an uninterpreted node lie apart. -/
theorem Spanned.of_other
    {location : Location}
    {kind : String}
    {places : List NodeId}
    {parts : List Outline}
    (hSpanned : Spanned (node location (.other kind places) parts)) :
    (∀ part ∈ parts, part.location.Inside location) ∧
      parts.Pairwise Apart ∧ ∀ part ∈ parts, Spanned part := by
  cases hSpanned with
  | apart hInside hApart hParts => exact ⟨hInside, hApart, hParts⟩

/- Apart from a part that holds the name, all lies apart from the name. -/
theorem echo_of_mem
    {key copy : Outline}
    {parts : List Outline}
    (hApart : parts.Pairwise Apart)
    (hCopy : copy ∈ parts)
    (hInside : key.location.Inside copy.location)
    (hEcho : Echo key copy) :
    ∀ part ∈ parts, Echo key part := by
  intro part hPart
  by_cases hSame : part = copy
  · rw [hSame]
    exact hEcho
  · have hSeparate : copy.Apart part :=
      hApart.forall hCopy hPart (Ne.symm hSame)
    exact .apart (Location.Apart.mono hSeparate hInside (.refl _))

end Outline

namespace Draft

namespace Drawn

variable {source : List Char} {draft : Draft} {outlines : List Outline}

/- Outlines that lie inside a draft, apart from each other. -/
structure Fits
    (draft : Draft)
    (outlines : List Outline) : Prop where
  inside :
    ∀ part ∈ outlines, part.location.Inside draft.label.location
  spanned : ∀ part ∈ outlines, part.Spanned
  apart : outlines.Pairwise Outline.Apart

/- One outline that lies inside a draft. -/
theorem Fits.single
    {part : Outline}
    (hInside : part.location.Inside draft.label.location)
    (hSpanned : part.Spanned) :
    Fits draft [part] := by
  refine ⟨?_, ?_, List.pairwise_singleton _ _⟩
  · rw [List.forall_mem_singleton]
    exact hInside
  · rw [List.forall_mem_singleton]
    exact hSpanned

/- What fits into separate parts fits into the draft. -/
theorem Fits.picks
    {picks : Picks}
    (hHolds : draft.HoldsParts)
    (hPicks : picks.drafts.Subperm draft.parts)
    (hFits : ∀ pick ∈ picks, Fits pick.1 pick.2) :
    Fits draft picks.outlines := by
  refine ⟨?_, ?_, ?_⟩
  · refine forall_outlines fun pick hPick part hPart => ?_
    have hMem := hPicks.subset (List.mem_map_of_mem hPick)
    exact ((hFits pick hPick).inside part hPart).trans
      (hHolds.inside pick.1 hMem)
  · exact forall_outlines fun pick hPick => (hFits pick hPick).spanned
  · obtain ⟨kept, hPerm, hSublist⟩ := hPicks
    have hDrafts : picks.drafts.Pairwise Draft.Apart :=
      (hHolds.apart.sublist hSublist).perm hPerm Location.Apart.symm
    have hSeparate : picks.Pairwise fun a b => a.1.Apart b.1 :=
      List.pairwise_map.1 hDrafts
    refine List.pairwise_flatMap.2
      ⟨fun pick hPick => (hFits pick hPick).apart, ?_⟩
    refine hSeparate.imp_of_mem ?_
    intro a b ha hb hApart x hx y hy
    exact Location.Apart.mono hApart
      ((hFits a ha).inside x hx) ((hFits b hb).inside y hy)

/- A method whose value holds its name fits. -/
theorem Fits.method
    {key : Outline}
    {parts : List Outline}
    {computed : Bool}
    {kind : String}
    (hKey : Fits draft [key])
    (hValue :
      Fits draft [.listing draft.label.location (.other kind) parts])
    (hEcho : ∀ part ∈ parts, Outline.Echo key part) :
    Fits draft
      [.node draft.label.location (.property 0 1 computed false true)
        [key, .listing draft.label.location (.other kind) parts]] := by
  have hInside := hKey.inside key (by simp)
  exact .single (.refl _)
    (.method hInside (.refl _) (.around hInside hEcho)
      (hKey.spanned key (by simp)) (hValue.spanned _ (by simp)))

/- What is drawn from a nested draft fits into it. -/
theorem spanned
    (hDrawn : Drawn source draft outlines)
    (hBodies : draft.Everywhere HasBody)
    (hHolds : draft.Everywhere HoldsParts) :
    Fits draft outlines := by
  induction hDrawn with
  | ascription draft =>
      exact .single (.refl _)
        (.apart (List.forall_mem_nil _) .nil (List.forall_mem_nil _))
  | spread hPicks _ ih =>
      refine .picks hHolds.here hPicks fun pick hPick => ?_
      have hMem := hPicks.subset (List.mem_map_of_mem hPick)
      exact ih pick hPick (hBodies.parts _ hMem) (hHolds.parts _ hMem)
  | node _ _ hPicks _ ih =>
      have hFits := Fits.picks hHolds.here hPicks fun pick hPick =>
        have hMem := hPicks.subset (List.mem_map_of_mem hPick)
        ih pick hPick (hBodies.parts _ hMem) (hHolds.parts _ hMem)
      exact .single (.refl _)
        (.apart hFits.inside hFits.apart hFits.spanned)
  | shorthand _ _ ih =>
      have hFits := ih hBodies hHolds
      exact .single (.refl _)
        (.apart hFits.inside hFits.apart hFits.spanned)
  | bare _ ih =>
      have hFits := ih hBodies hHolds
      exact .single (.refl _)
        (.apart hFits.inside hFits.apart hFits.spanned)
  | @method draft key parts computed kind _ _ hNamed ihKey ihValue =>
      have hKey := ihKey hBodies hHolds
      have hValue := ihValue hBodies hHolds
      refine .method hKey hValue ?_
      obtain ⟨hInside, hApart, hSpanned⟩ :=
        Outline.Spanned.of_other
          (hValue.spanned _ (List.mem_singleton.2 rfl))
      rcases hNamed with hMem | ⟨location, kind', inner, hCopy, hMem⟩
      · exact Outline.echo_of_mem hApart hMem (.refl _) .same
      · obtain ⟨hInner, hInnerApart, _⟩ :=
          Outline.Spanned.of_other (hSpanned _ hCopy)
        have hAround : key.location.Inside location := hInner key hMem
        exact Outline.echo_of_mem hApart hCopy hAround
          (.around hAround
            (Outline.echo_of_mem hInnerApart hMem (.refl _) .same))
  | unnamedMethod _ _ ihParts ihValue =>
      have hParts := ihParts hBodies hHolds
      have hKey := List.pairwise_cons.1 hParts.apart
      refine .method ?_ (ihValue hBodies hHolds) ?_
      · exact .single (hParts.inside _ (by simp))
          (hParts.spanned _ (by simp))
      · intro part hPart
        exact .apart (hKey.1 part hPart)
  | bodiless hArrow hBody => exact absurd hBody (hBodies.here hArrow)

end Drawn

end Draft

end ShapeTypes

------------------------------------------------------------
-- Outlines of Programs
------------------------------------------------------------

namespace ShapeTypes

open Concrete (Tree)

namespace Store

variable {tree : Tree}

theorem programOutline_listsOnce
    (source : List Char)
    (hBodies : tree.ArrowsHaveBodies) :
    (programOutline source tree).Forall Outline.ListsOnce :=
  .intro (Or.inl rfl)
    ((Draft.program_drawn source tree).listsOnce
      (Draft.everywhere_hasBody source hBodies))

theorem programOutline_listsParts
    (source : List Char)
    (hBodies : tree.ArrowsHaveBodies) :
    (programOutline source tree).Forall Outline.ListsParts :=
  (programOutline_listsOnce source hBodies).imp
    fun _ => Outline.ListsOnce.listsParts

theorem programOutline_not_program
    (source : List Char)
    (tree : Tree) :
    ∀ part ∈ (programOutline source tree).parts,
      part.Forall fun lower => ∀ body, lower.kind ≠ .program body :=
  (Draft.program_drawn source tree).not_program
    (Draft.ofTree_drawn source tree)

theorem programOutline_refersToParts
    (source : List Char)
    (tree : Tree) :
    (programOutline source tree).Forall Outline.RefersToParts :=
  .intro (Outline.ListsParts.of_range rfl).refersToParts
    ((Draft.program_drawn source tree).refersToParts
      (Draft.ofTree_drawn source tree))

theorem programOutline_spanned
    (source : List Char)
    (hNested : tree.Nested)
    (hBodies : tree.ArrowsHaveBodies) :
    (programOutline source tree).Spanned := by
  have hFits :=
    (Draft.program_drawn source tree).spanned
      (Draft.everywhere_hasBody source hBodies)
      (Draft.everywhere_holdsParts source hNested)
  have hInside := hFits.inside
  rw [Draft.label_ofTree] at hInside
  exact .apart hInside hFits.apart hFits.spanned

/-
  An annotation of a program reads as a node of the tree does,
  at the positions of its byte offsets.
-/
theorem programOutline_reads
    {source : List Char}
    (hPlaced : tree.Placed source) :
    (programOutline source tree).Forall fun outline =>
      ∀ text, outline.kind = .ascription text →
        ∃ label : Concrete.Label,
          outline.location = label.location ∧
            text = label.text source ∧
            Concrete.IsAt source label.location.offsetStart
              label.location.start ∧
            Concrete.IsAt source label.location.offsetEnd
              label.location.stop := by
  have hDraft :
      (Draft.ofTree source tree).Everywhere fun draft =>
        Concrete.IsAt source draft.label.location.offsetStart
            draft.label.location.start ∧
          Concrete.IsAt source draft.label.location.offsetEnd
            draft.label.location.stop := by
    refine Draft.everywhere_ofTree hPlaced ?_
    intro t hPlace
    rwa [Draft.label_ofTree]
  refine .intro (fun text hText => nomatch hText) ?_
  intro part hPart
  refine ((Draft.program_drawn source tree).reads hDraft part hPart).imp ?_
  intro lower hReads text hText
  rcases hReads text hText with ⟨draft, hPlace, hLocation, hSame⟩
  exact ⟨draft.label, hLocation, hSame, hPlace⟩

end Store

end ShapeTypes
