import ShapeTypes.Proofs.Draft.Outlines
import ShapeTypes.Proofs.Outline.Stored

/-
  Where the words of a program come from.

  Words are the literals and the identifiers.  Each stands for
  a concrete node, at whose span it is kept as the source
  has it.  All other nodes are assembled around words and
  types, and hold no text of the source themselves.

  Key definitions include:
    * `ShapeTypes.Concrete.Tree.HasLabel`
    * `ShapeTypes.Draft.word?`
    * `ShapeTypes.Outline.ReadFrom`
    * `ShapeTypes.Outline.IsRead`

  Key theorems include:
    * `ShapeTypes.Draft.compose_read`
    * `ShapeTypes.Draft.ofTree_read`
    * `ShapeTypes.Store.exists_label_of_word`
-/

------------------------------------------------------------
-- Words
------------------------------------------------------------

namespace ShapeTypes

open Concrete (Label)

/- A literal or an identifier. -/
def Kind.isWord : Kind → Bool
  | literal _ _ => true
  | identifier _ => true
  | _ => false

theorem Kind.map_eq_self_of_isWord
    {f : NodeId → NodeId}
    {kind : Kind}
    (hWord : (kind.map f).isWord = true) :
    kind.map f = kind := by
  cases kind with
  | literal | identifier => rfl
  | _ => cases hWord

/- One of the nodes of a tree has a label. -/
def Concrete.Tree.HasLabel
    (tree : Concrete.Tree)
    (label : Label) : Prop :=
  ∃ t ∈ tree.subtrees, t.label = label

/- The word that a concrete node stands for, if it is one. -/
def Draft.word?
    (source : List Char)
    (label : Label) :
    Option Kind :=
  let text := label.text source
  match Form.ofKind label.kind with
  | .string => some (.literal (.string (unquote text)) text)
  | .number => some (.literal (numeric text) text)
  | .boolean => some (.literal (.boolean (text == "true")) text)
  | .null => some (.literal .null "null")
  | .regexp => some (.literal (.regexp text) text)
  | .name => some (.identifier text)
  | _ => none

namespace Outline

/-
  If the top node is a word, it is read from one of some
  concrete nodes, at the same span.
-/
def ReadFrom
    (source : List Char)
    (among : Label → Prop)
    (outline : Outline) : Prop :=
  outline.kind.isWord = true →
    ∃ label, among label ∧ outline.location = label.location ∧
      Draft.word? source label = some outline.kind

/- All words of an outline are read from some concrete nodes. -/
def IsRead
    (source : List Char)
    (among : Label → Prop)
    (outline : Outline) : Prop :=
  outline.Forall (ReadFrom source among)

end Outline

end ShapeTypes

------------------------------------------------------------
-- Assembled Nodes
------------------------------------------------------------

namespace ShapeTypes

open Concrete (Label)

namespace Draft

variable {source : List Char} {among : Label → Prop}
variable {label : Label} {parts : List Draft}

/- All words of the outline of a draft are read. -/
def IsRead
    (source : List Char)
    (among : Label → Prop)
    (draft : Draft) : Prop :=
  draft.outline.IsRead source among

/- A node that is no word is read if its parts are. -/
theorem node_read
    {location : Location}
    {kind : Kind}
    {outlines : List Outline}
    (hKind : kind.isWord = false)
    (hParts : ∀ part ∈ outlines, part.IsRead source among) :
    (Outline.node location kind outlines).IsRead source among := by
  refine .intro ?_ hParts
  intro hWord
  rw [Outline.kind, hKind] at hWord
  cases hWord

theorem single_read
    {location : Location}
    {kind : Kind}
    {part : Outline}
    (hKind : kind.isWord = false)
    (hPart : part.IsRead source among) :
    (Outline.node location kind [part]).IsRead source among :=
  node_read hKind (List.forall_mem_singleton.2 hPart)

theorem pair_read
    {location : Location}
    {kind : Kind}
    {first second : Outline}
    (hKind : kind.isWord = false)
    (hFirst : first.IsRead source among)
    (hSecond : second.IsRead source among) :
    (Outline.node location kind [first, second]).IsRead source among :=
  node_read hKind
    (List.forall_mem_cons.2 ⟨hFirst, List.forall_mem_singleton.2 hSecond⟩)

theorem ascription_read
    (label : Label) :
    (ascription source label).IsRead source among :=
  node_read rfl (List.forall_mem_nil _)

/- A word is read from its own concrete node. -/
theorem leaf_read
    {kind : Kind}
    (hLabel : among label)
    (hWord : word? source label = some kind) :
    (Outline.leaf label.location kind).IsRead source among :=
  .intro (fun _ => ⟨label, hLabel, rfl, hWord⟩) (List.forall_mem_nil _)

theorem field_read
    {field : String}
    (hParts : ∀ part ∈ parts, IsRead source among part) :
    ∀ part ∈ field? parts field, IsRead source among part :=
  fun part hPart => hParts part (mem_of_field? hPart)

theorem substantial_read
    (hParts : ∀ part ∈ parts, IsRead source among part) :
    ∀ lower ∈ (substantial parts).map outline,
      lower.IsRead source among := by
  rw [List.forall_mem_map]
  exact fun part hPart =>
    hParts part ((substantial_sublist parts).subset hPart)

theorem other_read
    (label : Label)
    (hParts : ∀ part ∈ parts, IsRead source among part) :
    (other label parts).IsRead source among :=
  node_read rfl (substantial_read hParts)

/- What an optional part that is read stands for. -/
theorem toList_read
    {draft : Option Draft}
    (hDraft : ∀ part ∈ draft, IsRead source among part) :
    ∀ lower ∈ (draft.map outline).toList, lower.IsRead source among := by
  cases draft with
  | none => exact List.forall_mem_nil _
  | some part => exact List.forall_mem_singleton.2 (hDraft part rfl)

/- A name with a type and a value. -/
theorem binding_read
    {location : Location}
    {kind : NodeId → Option NodeId → Option NodeId → Kind}
    {name : Draft}
    (type value : Option Draft)
    (hKind : ∀ a b c, (kind a b c).isWord = false)
    (hName : IsRead source among name)
    (hType : ∀ part ∈ type, IsRead source among part)
    (hValue : ∀ part ∈ value, IsRead source among part) :
    (Outline.binding location kind name.outline (type.map outline)
        (value.map outline)).IsRead source among :=
  node_read (hKind _ _ _)
    (List.forall_mem_cons.2 ⟨hName,
      List.forall_mem_append.2 ⟨toList_read hType, toList_read hValue⟩⟩)

theorem declarator_read
    (hParts : ∀ part ∈ parts, IsRead source among part) :
    (declarator label parts).IsRead source among := by
  unfold declarator
  split
  · exact other_read label hParts
  · rename_i name hName
    exact binding_read _ _ (fun _ _ _ => rfl) (field_read hParts name hName)
      (field_read hParts) (field_read hParts)

theorem array_read
    (hParts : ∀ part ∈ parts, IsRead source among part) :
    (array label parts).IsRead source among := by
  refine node_read rfl ?_
  intro lower hLower
  rw [List.filterMap_map, List.mem_filterMap] at hLower
  rcases hLower with ⟨slot, hSlot, hElement⟩
  rcases Option.map_eq_some_iff.1 hElement with ⟨part, rfl, rfl⟩
  exact hParts part ((slots_sublist true parts).subset
    (List.mem_filterMap.2 ⟨_, hSlot, rfl⟩))

end Draft

end ShapeTypes

------------------------------------------------------------
-- Members and Parameters
------------------------------------------------------------

namespace ShapeTypes

open Concrete (Label)

namespace Draft

variable {source : List Char} {among : Label → Prop}
variable {label : Label} {draft : Draft} {parts : List Draft}

/- A property whose key may be computed. -/
theorem property_read
    {key : Draft}
    {value : Outline}
    {method : Bool}
    (hKey : key.Everywhere (IsRead source among))
    (hValue : value.IsRead source among) :
    (property label key value method).IsRead source among := by
  have hName : IsRead source among ((computedKey? key).getD key) := by
    cases hComputed : computedKey? key with
    | none => exact hKey.here
    | some inner =>
        unfold computedKey? at hComputed
        split at hComputed
        · exact (hKey.parts inner ((substantial_sublist _).subset
            (List.mem_of_mem_head? hComputed))).here
        · cases hComputed
  exact pair_read rfl hName hValue

theorem member_read
    (hDraft : draft.Everywhere (IsRead source among)) :
    (member draft).IsRead source among := by
  have hParts : ∀ part ∈ draft.parts, IsRead source among part :=
    fun part hPart => (hDraft.parts part hPart).here
  unfold member
  split
  · split
    · rename_i key value hKey hValue
      exact property_read (hDraft.parts key (mem_of_field? hKey))
        (field_read hParts value hValue)
    · exact other_read _ hParts
  · exact single_read rfl hDraft.here
  · split
    · rename_i name hName
      exact property_read (hDraft.parts name (mem_of_field? hName))
        (other_read _ hParts)
    · exact other_read _ hParts
  · exact hDraft.here

theorem parameter_read
    (hDraft : draft.Everywhere (IsRead source among)) :
    (parameter draft).IsRead source among := by
  have hParts : ∀ part ∈ draft.parts, IsRead source among part :=
    fun part hPart => (hDraft.parts part hPart).here
  unfold parameter
  dsimp only
  split
  · split
    · exact other_read _ hParts
    · rename_i pattern hPattern
      exact binding_read _ _ (fun _ _ _ => rfl)
        (field_read hParts pattern hPattern) (field_read hParts)
        (field_read hParts)
  · split
    · exact other_read _ hParts
    · rename_i pattern hPattern
      exact binding_read none _ (fun _ _ _ => rfl)
        (field_read hParts pattern hPattern) nofun (field_read hParts)
  · exact single_read rfl hDraft.here

theorem parameters_read
    (hParts :
      ∀ part ∈ parts, part.Everywhere (IsRead source among)) :
    ∀ lower ∈ parameters parts, lower.IsRead source among := by
  unfold parameters
  split
  · rename_i pattern hPattern
    have hDraft := (hParts pattern (mem_of_field? hPattern)).here
    exact List.forall_mem_singleton.2 (single_read rfl hDraft)
  · rename_i listed _ hListed
    rw [List.forall_mem_map]
    intro part hPart
    exact parameter_read ((hParts listed (mem_of_field? hListed)).parts part
      ((substantial_sublist _).subset hPart))
  · exact List.forall_mem_nil _

/- An arrow function, with or without a body. -/
theorem arrow_read
    (hParts :
      ∀ part ∈ parts, part.Everywhere (IsRead source among)) :
    (arrow label parts).IsRead source among := by
  have hOwn : ∀ part ∈ parts, IsRead source among part :=
    fun part hPart => (hParts part hPart).here
  have hFront :
      ∀ lower ∈ parameters parts ++
          ((field? parts "return_type").map outline).toList,
        lower.IsRead source among :=
    List.forall_mem_append.2
      ⟨parameters_read hParts, toList_read (field_read hOwn)⟩
  unfold arrow
  dsimp only
  split
  · exact node_read rfl
      (List.forall_mem_append.2 ⟨hFront, substantial_read hOwn⟩)
  · rename_i body hBody
    refine node_read rfl (List.forall_mem_append.2 ⟨hFront, ?_⟩)
    exact List.forall_mem_singleton.2 (field_read hOwn body hBody)

theorem arguments_read
    (hParts :
      ∀ part ∈ parts, part.Everywhere (IsRead source among)) :
    ∀ lower ∈ arguments parts, lower.IsRead source among := by
  unfold arguments
  split
  · rename_i listed hField
    have hListed := hParts listed (mem_of_field? hField)
    split
    · exact substantial_read fun part hPart =>
        (hListed.parts part hPart).here
    · exact List.forall_mem_singleton.2 hListed.here
  · exact List.forall_mem_nil _

theorem template_read
    (hParts :
      ∀ part ∈ parts, part.Everywhere (IsRead source among)) :
    (template label parts).IsRead source among := by
  refine node_read rfl ?_
  rw [List.forall_mem_map]
  intro part hPart
  rcases List.mem_flatMap.1 hPart with ⟨outer, hOuter, hInner⟩
  have hMem :=
    (substantial_sublist parts).subset (List.mem_of_mem_filter hOuter)
  exact ((hParts outer hMem).parts part
    ((substantial_sublist _).subset hInner)).here

end Draft

end ShapeTypes

------------------------------------------------------------
-- The Table of Constructs
------------------------------------------------------------

namespace ShapeTypes

open Concrete (Label Tree)

namespace Draft

variable {source : List Char} {among : Label → Prop}
variable {label : Label} {parts : List Draft}

/- What is composed of parts that are read is read. -/
theorem compose_read
    (hLabel : among label)
    (hParts :
      ∀ part ∈ parts, part.Everywhere (IsRead source among)) :
    (compose source label parts).IsRead source among := by
  have hOwn : ∀ part ∈ parts, IsRead source among part :=
    fun part hPart => (hParts part hPart).here
  have hOther := other_read label hOwn
  have hNamed : ∀ part ∈ substantial parts, IsRead source among part :=
    fun part hPart => hOwn part ((substantial_sublist parts).subset hPart)
  have hWord {kind : Kind} := @leaf_read source among label kind hLabel
  unfold compose
  dsimp only
  split
  · -- A declaration keeps some of its named parts.
    refine node_read rfl ?_
    rw [List.forall_mem_map]
    exact fun part hPart => hNamed part (List.mem_of_mem_filter hPart)
  · exact declarator_read hOwn
  · split
    · rename_i first _ hFirst
      exact single_read rfl (hNamed first (by simp [hFirst]))
    · exact hOther
  · exact node_read rfl (substantial_read hOwn)
  · exact node_read rfl
      (toList_read fun part hPart => hNamed part (List.mem_of_mem_head? hPart))
  · rename_i hForm
    exact hWord (by simp only [word?, hForm])
  · rename_i hForm
    exact hWord (by simp only [word?, hForm])
  · rename_i hForm
    exact hWord (by simp only [word?, hForm])
  · rename_i hForm
    exact hWord (by simp only [word?, hForm])
  · rename_i hForm
    exact hWord (by simp only [word?, hForm])
  · exact template_read hParts
  · rename_i hForm
    exact hWord (by simp only [word?, hForm])
  · exact array_read hOwn
  · refine node_read rfl ?_
    rw [List.forall_mem_map]
    exact fun part hPart =>
      member_read (hParts part ((substantial_sublist parts).subset hPart))
  · split
    · rename_i first _ hFirst
      exact single_read rfl (hNamed first (by simp [hFirst]))
    · exact hOther
  · exact arrow_read hParts
  · unfold conditional
    split
    · rename_i hTest hConsequent hAlternate
      exact node_read rfl (List.forall_mem_cons.2
        ⟨field_read hOwn _ hTest, List.forall_mem_cons.2
          ⟨field_read hOwn _ hConsequent,
            List.forall_mem_singleton.2 (field_read hOwn _ hAlternate)⟩⟩)
    · exact hOther
  · unfold binary
    split
    · rename_i _ hLeft hRight
      exact pair_read rfl (field_read hOwn _ hLeft) (field_read hOwn _ hRight)
    · exact hOther
  · unfold unary
    split
    · rename_i _ hArgument
      exact single_read rfl (field_read hOwn _ hArgument)
    · exact hOther
  · unfold call
    split
    · exact hOther
    · rename_i hCallee
      exact node_read rfl (List.forall_mem_cons.2
        ⟨field_read hOwn _ hCallee, arguments_read hParts⟩)
  · unfold access
    split
    · rename_i hObject hName
      exact pair_read rfl (field_read hOwn _ hObject) (field_read hOwn _ hName)
    · exact hOther
  · unfold access
    split
    · rename_i hObject hName
      exact pair_read rfl (field_read hOwn _ hObject) (field_read hOwn _ hName)
    · exact hOther
  · split
    · rename_i inner hInner
      exact hNamed inner (by simp [hInner])
    · exact hOther
  · split
    · rename_i expression type hBoth
      exact pair_read rfl (hNamed expression (by simp [hBoth]))
        (ascription_read type.label)
    · exact hOther
  · split
    · exact ascription_read _
    · exact ascription_read label
  · exact hOther

/- The words of a tree are read from the labels of the tree. -/
theorem ofTree_read
    (source : List Char)
    {tree : Tree}
    (hTree : tree.Everywhere fun t => among t.label) :
    (ofTree source tree).Everywhere (IsRead source among) := by
  induction tree using Tree.induct with
  | hNode label children ih =>
      rcases Tree.everywhere_node_iff.1 hTree with ⟨hLabel, hChildren⟩
      have hParts :
          ∀ part ∈ (ofTree source (.node label children)).parts,
            part.Everywhere (IsRead source among) := by
        intro part hPart
        rw [parts_ofTree] at hPart
        rcases List.mem_map.1 hPart with ⟨child, hChild, rfl⟩
        exact ih child hChild (hChildren child hChild)
      refine .intro ?_ hParts
      rw [IsRead, outline_ofTree]
      exact compose_read hLabel hParts

end Draft

namespace Store

/- The words of a program are read from the nodes of its tree. -/
theorem programOutline_isRead
    (source : List Char)
    (tree : Tree) :
    (programOutline source tree).IsRead source tree.HasLabel := by
  have hDraft :
      (Draft.ofTree source tree).Everywhere
        (Draft.IsRead source tree.HasLabel) :=
    Draft.ofTree_read source fun t ht => ⟨t, ht, rfl⟩
  refine Draft.node_read rfl (Draft.substantial_read ?_)
  rw [Draft.ofTrees_eq_map, ← Draft.parts_ofTree]
  exact fun part hPart => (hDraft.parts part hPart).here

/-
  Every word that is stored for a program is read from a node
  of its tree, at the same span.
-/
theorem exists_label_of_word
    {source : List Char}
    {tree : Tree}
    {id : NodeId}
    {node : Node}
    (hFind : (ofProgram source tree).find? id = some node)
    (hWord : node.kind.isWord = true) :
    ∃ label, tree.HasLabel label ∧ node.location = label.location ∧
      Draft.word? source label = some node.kind := by
  rcases (ofProgram_represents source tree).exists_site hFind with
    ⟨site, hBelow, -, hNode⟩
  have hRead :=
    (hBelow.forall_outline (programOutline_isRead source tree)).here
  rw [hNode] at hWord ⊢
  have hKind : site.kind = site.outline.kind :=
    Kind.map_eq_self_of_isWord hWord
  simp only [Site.node, hKind] at hWord ⊢
  exact hRead hWord

end Store

end ShapeTypes
