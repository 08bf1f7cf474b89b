import ShapeTypes.Proofs.Concrete.Places
import ShapeTypes.Proofs.Draft.Outlines
import ShapeTypes.Proofs.Store.PostOrder

/-
  Comments do not matter for what is built.

  A draft is composed from its parts through a few ways to
  read them: the named parts, the part with a role, the slots
  of an array, and the first part.  Each of them passes over
  comments, so the outline stays the same when the comments
  are taken out of the tree.

  Key definitions include:
    * `ShapeTypes.Concrete.Tree.uncommented`
    * `ShapeTypes.Concrete.Tree.CommentsHaveNoRole`
    * `ShapeTypes.Concrete.Tree.KeywordsComeFirst`
    * `ShapeTypes.Draft.uncommented`

  Key theorems include:
    * `ShapeTypes.Concrete.Tree.refusal?_uncommented`
    * `ShapeTypes.Draft.compose_uncommented`
    * `ShapeTypes.Draft.ofTree_uncommented`
    * `ShapeTypes.Builder.build_uncommented`
-/

------------------------------------------------------------
-- Trees Without Comments
------------------------------------------------------------

namespace ShapeTypes

namespace Concrete

/- A node that is a comment. -/
def Label.isComment
    (label : Label) :
    Bool :=
  label.kind == "comment"

namespace Tree

mutual

/- A tree without the comments in it and all that they hold. -/
def uncommented : Tree → Tree
  | node label children => node label (uncommentedIn children)

/- Some trees without the comments among them and in them. -/
def uncommentedIn : List Tree → List Tree
  | [] => []
  | tree :: trees =>
      if tree.label.isComment then uncommentedIn trees
      else uncommented tree :: uncommentedIn trees

end

/- A comment has no role in its parent. -/
def CommentsHaveNoRole : Tree → Prop :=
  Everywhere fun tree =>
    tree.label.kind = "comment" → tree.label.field = none

/- A declaration does not begin with a comment. -/
def KeywordsComeFirst : Tree → Prop :=
  Everywhere fun tree =>
    tree.label.kind = "lexical_declaration" ∨
        tree.label.kind = "variable_declaration" →
      ∀ first ∈ tree.children.head?, first.label.kind ≠ "comment"

instance : DecidablePred CommentsHaveNoRole := fun tree => by
  unfold CommentsHaveNoRole
  infer_instance

instance : DecidablePred KeywordsComeFirst := fun tree => by
  unfold KeywordsComeFirst
  infer_instance

variable {tree : Tree} {trees : List Tree}

theorem uncommentedIn_eq
    (trees : List Tree) :
    uncommentedIn trees =
      (trees.filter fun tree => !tree.label.isComment).map uncommented := by
  induction trees with
  | nil => rfl
  | cons tree trees ih =>
      rw [uncommentedIn, ih]
      cases hComment : tree.label.isComment with
      | true => simp [hComment]
      | false => simp [hComment]

@[simp]
theorem label_uncommented
    (tree : Tree) :
    tree.uncommented.label = tree.label := by
  cases tree
  rfl

/- Taking out comments adds no errors. -/
theorem faults_uncommented_sublist
    (tree : Tree) :
    tree.uncommented.faults.Sublist tree.faults := by
  induction tree using induct with
  | hNode label children ih =>
      rw [uncommented, faults, faults]
      split
      · exact .refl _
      · split
        · induction children with
          | nil => exact .refl _
          | cons child children ihRest =>
              have hRest :=
                ihRest fun c hChild => ih c (List.mem_cons_of_mem _ hChild)
              rw [uncommentedIn, faultsIn]
              split
              · exact hRest.trans (List.sublist_append_right _ _)
              · rw [faultsIn]
                exact (ih child (by simp)).append hRest
        · exact .refl _

/- Taking out comments makes nothing deeper. -/
theorem tooDeep?_uncommented
    {levels : Nat}
    (hNone : tree.tooDeep? levels = none) :
    tree.uncommented.tooDeep? levels = none := by
  induction tree using induct generalizing levels with
  | hNode label children ih =>
      cases levels with
      | zero => simp [tooDeep?] at hNone
      | succ levels =>
          rw [tooDeep?] at hNone
          rw [uncommented, tooDeep?]
          induction children with
          | nil => rfl
          | cons child children ihRest =>
              rw [tooDeepIn?] at hNone
              split at hNone
              · cases hNone
              · rename_i hRest
                have hUncommented :=
                  ihRest
                    (fun c hChild => ih c (List.mem_cons_of_mem _ hChild))
                    hRest
                rw [uncommentedIn]
                split
                · exact hUncommented
                · rw [tooDeepIn?, hUncommented, label_uncommented]
                  dsimp only
                  split
                  · rename_i hNamed
                    rw [if_pos hNamed] at hNone
                    exact ih child (by simp) hNone
                  · rfl

/- A tree that is accepted is accepted without its comments. -/
theorem refusal?_uncommented
    {source : List Char}
    (hAccepted : tree.refusal? source = none) :
    tree.uncommented.refusal? source = none := by
  rcases refusal?_eq_none.1 hAccepted with ⟨hProgram, hFaults, hDepth⟩
  refine refusal?_eq_none.2 ⟨?_, ?_, tooDeep?_uncommented hDepth⟩
  · rw [label_uncommented, hProgram]
  · rw [reportedFaults_eq_faults] at hFaults ⊢
    rw [label_uncommented]
    split
    · rename_i hMarked
      rw [if_pos hMarked] at hFaults
      have hSublist := tree.faults_uncommented_sublist
      rw [hFaults] at hSublist
      exact List.sublist_nil.1 hSublist
    · rfl

end Tree

end Concrete

end ShapeTypes

------------------------------------------------------------
-- Drafts Without Comments
------------------------------------------------------------

namespace ShapeTypes

namespace Draft

mutual

/- A draft without the comments below it.  The outline is kept. -/
def uncommented : Draft → Draft
  | mk label parts outline => mk label (uncommentedIn parts) outline

/- Some drafts without the comments among them and below them. -/
def uncommentedIn : List Draft → List Draft
  | [] => []
  | part :: parts =>
      if part.label.isComment then uncommentedIn parts
      else uncommented part :: uncommentedIn parts

end

/- The comments among some drafts have no role. -/
def CommentsHaveNoRole
    (parts : List Draft) : Prop :=
  ∀ part ∈ parts, part.label.kind = "comment" → part.label.field = none

/- The comments at every level of a draft have no role. -/
def CommentsBelowHaveNoRole : Draft → Prop :=
  Everywhere fun draft => CommentsHaveNoRole draft.parts

variable {source : List Char} {label : Concrete.Label}
variable {parts : List Draft} {draft : Draft}

@[simp]
theorem label_uncommented
    (draft : Draft) :
    draft.uncommented.label = draft.label := by
  cases draft
  rfl

@[simp]
theorem outline_uncommented
    (draft : Draft) :
    draft.uncommented.outline = draft.outline := by
  cases draft
  rfl

@[simp]
theorem parts_uncommented
    (draft : Draft) :
    draft.uncommented.parts = uncommentedIn draft.parts := by
  cases draft
  rfl

@[simp]
theorem outline_comp_uncommented :
    outline ∘ uncommented = outline :=
  funext outline_uncommented

theorem uncommentedIn_eq
    (parts : List Draft) :
    uncommentedIn parts =
      (parts.filter fun part => !part.label.isComment).map uncommented := by
  induction parts with
  | nil => rfl
  | cons part parts ih =>
      rw [uncommentedIn, ih]
      cases hComment : part.label.isComment with
      | true => simp [hComment]
      | false => simp [hComment]

/- The named parts are the same ones. -/
@[simp]
theorem substantial_uncommentedIn
    (parts : List Draft) :
    substantial (uncommentedIn parts) =
      (substantial parts).map uncommented := by
  rw [uncommentedIn_eq, substantial, substantial, List.filter_map,
    List.filter_filter]
  congr 1
  apply List.filter_congr
  intro part _
  simp [Concrete.Label.isSubstantial, Concrete.Label.isComment, bne]

/- The part with a role is the same one. -/
theorem field?_uncommentedIn
    (hNoRole : CommentsHaveNoRole parts)
    (field : String) :
    field? (uncommentedIn parts) field =
      (field? parts field).map uncommented := by
  induction parts with
  | nil => rfl
  | cons part parts ih =>
      rcases List.forall_mem_cons.1 hNoRole with ⟨hPart, hParts⟩
      rw [uncommentedIn, field?, field?, List.find?_cons]
      split
      · rename_i hComment
        have hNone : part.label.field = none :=
          hPart (by simpa [Concrete.Label.isComment] using hComment)
        simpa [hNone, field?] using ih hParts
      · rw [List.find?_cons, label_uncommented]
        cases part.label.field == some field with
        | true => rfl
        | false => exact ih hParts

/- The slots of an array hold the same elements. -/
theorem slots_uncommentedIn
    (isOpen : Bool)
    (parts : List Draft) :
    slots isOpen (uncommentedIn parts) =
      (slots isOpen parts).map (Option.map uncommented) := by
  induction parts generalizing isOpen with
  | nil => rfl
  | cons part parts ih =>
      rw [uncommentedIn]
      split
      · rename_i hComment
        have hKind : part.label.kind ∈ ["[", "]", "comment"] := by
          simp_all [Concrete.Label.isComment]
        rw [slots, if_pos hKind, ih]
      · rw [slots, slots, label_uncommented]
        split
        · exact ih isOpen
        · split
          · cases isOpen with
            | true => simp [ih]
            | false => simp [ih]
          · simp [ih]

/- The first part stays if it is no comment. -/
theorem head?_uncommentedIn
    (hFirst : ∀ first ∈ parts.head?, first.label.kind ≠ "comment") :
    (uncommentedIn parts).head? = parts.head?.map uncommented := by
  cases parts with
  | nil => rfl
  | cons part parts =>
      have hComment : part.label.isComment = false := by
        simpa [Concrete.Label.isComment] using hFirst part rfl
      simp [uncommentedIn, hComment]

end Draft

end ShapeTypes

------------------------------------------------------------
-- Composing Without Comments
------------------------------------------------------------

namespace ShapeTypes

open Concrete (Label)

namespace Draft

variable {source : List Char} {label : Label}
variable {parts : List Draft} {draft : Draft}

@[simp]
theorem other_uncommented
    (label : Label)
    (parts : List Draft) :
    other label (uncommentedIn parts) = other label parts := by
  simp [other]

theorem declaration_uncommented
    (hNoRole : CommentsHaveNoRole parts)
    (hFirst : ∀ first ∈ parts.head?, first.label.kind ≠ "comment") :
    declaration source label (uncommentedIn parts) =
      declaration source label parts := by
  have hKeyword :
      keyword source (uncommentedIn parts) = keyword source parts := by
    rw [keyword, keyword, field?_uncommentedIn hNoRole,
      head?_uncommentedIn hFirst, ← Option.map_or]
    cases (field? parts "kind").or parts.head? with
    | none => rfl
    | some draft => simp
  rw [declaration, declaration, hKeyword]
  simp [List.filter_map, Function.comp_def]

theorem declarator_uncommented
    (hNoRole : CommentsHaveNoRole parts) :
    declarator label (uncommentedIn parts) = declarator label parts := by
  simp only [declarator, field?_uncommentedIn hNoRole]
  cases field? parts "name" with
  | none => simp
  | some name => simp

theorem array_uncommented :
    array label (uncommentedIn parts) = array label parts := by
  simp [array, slots_uncommentedIn, Function.comp_def]

/- The expression in a computed key is the same one. -/
@[simp]
theorem computedKey?_uncommented
    (key : Draft) :
    computedKey? key.uncommented =
      (computedKey? key).map uncommented := by
  unfold computedKey?
  rw [label_uncommented]
  split
  · simp
  · rfl

@[simp]
theorem property_uncommented
    (label : Label)
    (key : Draft)
    (value : Outline)
    (method : Bool) :
    property label key.uncommented value method =
      property label key value method := by
  unfold property
  rw [computedKey?_uncommented]
  cases computedKey? key with
  | none => simp
  | some inner => simp

theorem member_uncommented
    (hNoRole : CommentsHaveNoRole draft.parts) :
    member draft.uncommented = member draft := by
  unfold member
  simp only [label_uncommented, parts_uncommented, outline_uncommented,
    field?_uncommentedIn hNoRole, other_uncommented]
  split
  · cases field? draft.parts "key" with
    | none => rfl
    | some key =>
        cases field? draft.parts "value" with
        | none => rfl
        | some value => simp
  · rfl
  · cases field? draft.parts "name" with
    | none => rfl
    | some name => simp
  · rfl

theorem object_uncommented
    (hBelow : ∀ part ∈ parts, part.CommentsBelowHaveNoRole) :
    object label (uncommentedIn parts) = object label parts := by
  have hMembers :
      (substantial parts).map (member ∘ uncommented) =
        (substantial parts).map member :=
    List.map_congr_left fun part hPart =>
      member_uncommented
        (hBelow part ((substantial_sublist parts).subset hPart)).here
  simp [object, hMembers]

theorem parameter_uncommented
    (hNoRole : CommentsHaveNoRole draft.parts) :
    parameter draft.uncommented = parameter draft := by
  unfold parameter
  simp only [label_uncommented, parts_uncommented,
    field?_uncommentedIn hNoRole, other_uncommented]
  split
  · cases field? draft.parts "pattern" with
    | none => rfl
    | some pattern => simp
  · cases field? draft.parts "left" with
    | none => rfl
    | some pattern => simp
  · simp [bareParameter]

theorem parameters_uncommented
    (hNoRole : CommentsHaveNoRole parts)
    (hBelow : ∀ part ∈ parts, part.CommentsBelowHaveNoRole) :
    parameters (uncommentedIn parts) = parameters parts := by
  simp only [parameters, field?_uncommentedIn hNoRole]
  cases field? parts "parameter" with
  | some part => simp [bareParameter]
  | none =>
      cases hField : field? parts "parameters" with
      | none => rfl
      | some list =>
          have hList := (hBelow list (mem_of_field? hField)).parts
          have hParameters :
              (substantial list.parts).map (parameter ∘ uncommented) =
                (substantial list.parts).map parameter :=
            List.map_congr_left fun part hPart =>
              parameter_uncommented
                (hList part
                  ((substantial_sublist list.parts).subset hPart)).here
          simp [hParameters]

theorem arrow_uncommented
    (hNoRole : CommentsHaveNoRole parts)
    (hBelow : ∀ part ∈ parts, part.CommentsBelowHaveNoRole) :
    arrow label (uncommentedIn parts) = arrow label parts := by
  simp only [arrow, parameters_uncommented hNoRole hBelow,
    field?_uncommentedIn hNoRole]
  cases field? parts "body" with
  | none => simp
  | some body => simp

theorem template_uncommented :
    template label (uncommentedIn parts) = template label parts := by
  simp [template, List.filter_map, Function.comp_def, List.flatMap_map,
    List.map_flatMap]

theorem conditional_uncommented
    (hNoRole : CommentsHaveNoRole parts) :
    conditional label (uncommentedIn parts) = conditional label parts := by
  simp only [conditional, field?_uncommentedIn hNoRole, other_uncommented]
  cases field? parts "condition" with
  | none => rfl
  | some test =>
      cases field? parts "consequence" with
      | none => rfl
      | some consequent =>
          cases field? parts "alternative" with
          | none => rfl
          | some alternate => simp

theorem binary_uncommented
    (hNoRole : CommentsHaveNoRole parts) :
    binary label (uncommentedIn parts) = binary label parts := by
  simp only [binary, field?_uncommentedIn hNoRole, other_uncommented,
    Option.bind_map, Function.comp_def, label_uncommented]
  cases (field? parts "operator").bind
      (BinaryOperator.ofText? ·.label.kind) with
  | none => rfl
  | some operator =>
      cases field? parts "left" with
      | none => rfl
      | some left =>
          cases field? parts "right" with
          | none => rfl
          | some right => simp

theorem unary_uncommented
    (hNoRole : CommentsHaveNoRole parts) :
    unary label (uncommentedIn parts) = unary label parts := by
  simp only [unary, field?_uncommentedIn hNoRole, other_uncommented,
    Option.bind_map, Function.comp_def, label_uncommented]
  cases (field? parts "operator").bind
      (UnaryOperator.ofText? ·.label.kind) with
  | none => rfl
  | some operator =>
      cases field? parts "argument" with
      | none => rfl
      | some argument => simp

theorem call_uncommented
    (hNoRole : CommentsHaveNoRole parts) :
    call label (uncommentedIn parts) = call label parts := by
  have hArguments :
      arguments (uncommentedIn parts) = arguments parts := by
    simp only [arguments, field?_uncommentedIn hNoRole]
    cases field? parts "arguments" with
    | none => rfl
    | some list => simp
  simp only [call, field?_uncommentedIn hNoRole, other_uncommented,
    hArguments]
  cases field? parts "function" with
  | none => rfl
  | some callee => simp

theorem access_uncommented
    (computed : Bool)
    (hNoRole : CommentsHaveNoRole parts) :
    access computed label (uncommentedIn parts) =
      access computed label parts := by
  simp only [access, field?_uncommentedIn hNoRole, other_uncommented]
  cases field? parts "object" with
  | none => rfl
  | some object =>
      cases field? parts (if computed then "index" else "property") with
      | none => rfl
      | some name => simp

end Draft

end ShapeTypes

------------------------------------------------------------
-- Building Without Comments
------------------------------------------------------------

namespace ShapeTypes

open Concrete (Label Tree)

namespace Draft

variable {label : Label} {parts : List Draft}

/- Only declarations of variables are composed as such. -/
theorem kind_of_declaration
    {kind : String}
    (hForm : Form.ofKind kind = .declaration) :
    kind = "lexical_declaration" ∨ kind = "variable_declaration" := by
  unfold Form.ofKind at hForm
  split at hForm <;> simp_all

/- What is composed does not depend on the comments. -/
theorem compose_uncommented
    (source : List Char)
    (hNoRole : CommentsHaveNoRole parts)
    (hBelow : ∀ part ∈ parts, part.CommentsBelowHaveNoRole)
    (hFirst :
      label.kind = "lexical_declaration" ∨
          label.kind = "variable_declaration" →
        ∀ first ∈ parts.head?, first.label.kind ≠ "comment") :
    compose source label (uncommentedIn parts) =
      compose source label parts := by
  unfold compose
  dsimp only
  split
  · rename_i hForm
    exact declaration_uncommented hNoRole
      (hFirst (kind_of_declaration hForm))
  · exact declarator_uncommented hNoRole
  · -- An expression statement.
    rw [substantial_uncommentedIn]
    cases substantial parts with
    | nil => exact other_uncommented label parts
    | cons expression rest => simp
  · -- A block.
    simp
  · -- A return statement.
    rw [substantial_uncommentedIn]
    cases substantial parts with
    | nil => rfl
    | cons argument rest => simp
  · rfl
  · rfl
  · rfl
  · rfl
  · rfl
  · exact template_uncommented
  · rfl
  · exact array_uncommented
  · exact object_uncommented hBelow
  · -- A spread element.
    rw [substantial_uncommentedIn]
    cases substantial parts with
    | nil => exact other_uncommented label parts
    | cons argument rest => simp
  · exact arrow_uncommented hNoRole hBelow
  · exact conditional_uncommented hNoRole
  · exact binary_uncommented hNoRole
  · exact unary_uncommented hNoRole
  · exact call_uncommented hNoRole
  · exact access_uncommented false hNoRole
  · exact access_uncommented true hNoRole
  · -- Parentheses stand around one part.
    rw [substantial_uncommentedIn]
    rcases substantial parts with _ | ⟨inner, _ | ⟨second, rest⟩⟩
    · exact other_uncommented label parts
    · simp
    · exact other_uncommented label parts
  · -- An operand and the type it is taken as.
    rw [substantial_uncommentedIn]
    rcases substantial parts with
      _ | ⟨expression, _ | ⟨type, _ | ⟨third, rest⟩⟩⟩
    · exact other_uncommented label parts
    · exact other_uncommented label parts
    · simp
    · exact other_uncommented label parts
  · -- A type behind its colon.
    rw [substantial_uncommentedIn]
    cases substantial parts with
    | nil => rfl
    | cons type rest => simp
  · exact other_uncommented label parts

theorem commentsBelowHaveNoRole_ofTree
    {tree : Tree}
    (source : List Char)
    (hNoRole : tree.CommentsHaveNoRole) :
    (ofTree source tree).CommentsBelowHaveNoRole := by
  induction tree using Tree.induct with
  | hNode label children ih =>
      have hChildren := (Tree.everywhere_node_iff.1 hNoRole).2
      constructor
      · intro part hPart
        rw [parts_ofTree] at hPart
        rcases List.mem_map.1 hPart with ⟨child, hChild, rfl⟩
        rw [label_ofTree]
        cases child with
        | node childLabel below =>
            exact (Tree.everywhere_node_iff.1 (hChildren _ hChild)).1
      · intro part hPart
        rw [parts_ofTree] at hPart
        rcases List.mem_map.1 hPart with ⟨child, hChild, rfl⟩
        exact ih child hChild (hChildren child hChild)

/- The draft of a tree without comments is the draft without them. -/
theorem ofTree_uncommented
    {tree : Tree}
    (source : List Char)
    (hNoRole : tree.CommentsHaveNoRole)
    (hFirst : tree.KeywordsComeFirst) :
    ofTree source tree.uncommented = (ofTree source tree).uncommented := by
  induction tree using Tree.induct with
  | hNode label children ih =>
      have hDraft := commentsBelowHaveNoRole_ofTree source hNoRole
      rcases Tree.everywhere_node_iff.1 hNoRole with ⟨-, hNoRoles⟩
      rcases Tree.everywhere_node_iff.1 hFirst with ⟨hKeyword, hFirsts⟩
      have hParts :
          ofTrees source (Tree.uncommentedIn children) =
            uncommentedIn (ofTrees source children) := by
        rw [ofTrees_eq_map, ofTrees_eq_map, Tree.uncommentedIn_eq,
          uncommentedIn_eq, List.filter_map, List.map_map, List.map_map]
        simp only [Function.comp_def, label_ofTree]
        apply List.map_congr_left
        intro child hChild
        have hMem := List.mem_of_mem_filter hChild
        exact ih child hMem (hNoRoles child hMem) (hFirsts child hMem)
      have hHead :
          label.kind = "lexical_declaration" ∨
              label.kind = "variable_declaration" →
            ∀ first ∈ (ofTrees source children).head?,
              first.label.kind ≠ "comment" := by
        intro hKind first hMem
        rw [ofTrees_eq_map, List.head?_map] at hMem
        rcases Option.mem_map.1 hMem with ⟨child, hChild, rfl⟩
        rw [label_ofTree]
        exact hKeyword hKind child hChild
      have hOutline :
          compose source label (uncommentedIn (ofTrees source children)) =
            compose source label (ofTrees source children) :=
        compose_uncommented source hDraft.here hDraft.parts hHead
      rw [Tree.uncommented, ofTree, ofTree, uncommented, hParts, hOutline]

end Draft

namespace Store

/- A program has the same outline without its comments. -/
theorem programOutline_uncommented
    {tree : Tree}
    (source : List Char)
    (hNoRole : tree.CommentsHaveNoRole)
    (hFirst : tree.KeywordsComeFirst) :
    programOutline source tree.uncommented = programOutline source tree := by
  have hParts :=
    congrArg Draft.parts (Draft.ofTree_uncommented source hNoRole hFirst)
  rw [Draft.parts_uncommented, Draft.parts_ofTree, Draft.parts_ofTree,
    ← Draft.ofTrees_eq_map, ← Draft.ofTrees_eq_map] at hParts
  rw [programOutline, programOutline, hParts,
    Draft.substantial_uncommentedIn, Tree.label_uncommented, List.map_map,
    Draft.outline_comp_uncommented]

end Store

namespace Builder

variable {builder : Builder} {source : String} {tree : Tree}

/-
  A tree that is accepted is accepted without its comments,
  and gives the same store.
-/
theorem build_uncommented
    {next : Builder}
    {store : Store}
    (hReachable : builder.Reachable)
    (hInput : builder.input = some (source, tree))
    (hNoRole : tree.CommentsHaveNoRole)
    (hFirst : tree.KeywordsComeFirst)
    (hBuilt : builder.build.value = (.ok store, next)) :
    (builder.addSource source tree.uncommented).build.value =
      (.ok store, builder.addSource source tree.uncommented) := by
  rw [build_eq_ok_iff hReachable hInput] at hBuilt
  rcases hBuilt with ⟨hAccepted, hRoom, rfl, -⟩
  rw [build_eq_ok_iff (hReachable.addSource source tree.uncommented) rfl,
    Store.ofProgram, Store.ofProgram,
    Store.programOutline_uncommented source.toList hNoRole hFirst]
  exact ⟨Tree.refusal?_uncommented hAccepted, hRoom, rfl, rfl⟩

end Builder

namespace Concrete

namespace Sample

/- A comment. -/
def comment : Nat → Nat → Tree :=
  fun start stop => named "comment" none start stop []

/- Comments before, inside and behind a declaration. -/
def remarksSource : String :=
  "/*a*/ let x = [/*b*/, (2 /*c*/)]; // d"

/- The tree of that source. -/
def remarks : Tree :=
  named "program" none 0 38
    [comment 0 5,
      named "lexical_declaration" none 6 33
        [token "let" 6 9,
          named "variable_declarator" none 10 32
            [named "identifier" (some "name") 10 11 [], token "=" 12 13,
              named "array" (some "value") 14 32
                [token "[" 14 15, comment 15 20, token "," 20 21,
                  named "parenthesized_expression" none 22 31
                    [token "(" 22 23, named "number" none 23 24 [],
                      comment 25 30, token ")" 30 31],
                  token "]" 31 32]],
          token ";" 32 33],
      comment 34 38]

end Sample

end Concrete

namespace Builder

/- Four comments are taken out, and six nodes are stored as before. -/
theorem build_uncommented_remarks :
    Concrete.Sample.remarks.subtrees.length =
        Concrete.Sample.remarks.uncommented.subtrees.length + 4 ∧
      (Store.ofProgram Concrete.Sample.remarksSource.toList
        Concrete.Sample.remarks).size = 6 ∧
      (({ } : Builder).addSource Concrete.Sample.remarksSource
          Concrete.Sample.remarks.uncommented).build.value.1 =
        .ok (Store.ofProgram Concrete.Sample.remarksSource.toList
          Concrete.Sample.remarks) := by
  have hReachable :=
    Reachable.new.addSource Concrete.Sample.remarksSource
      Concrete.Sample.remarks
  have hInput :
      (({ } : Builder).addSource Concrete.Sample.remarksSource
          Concrete.Sample.remarks).input =
        some (Concrete.Sample.remarksSource, Concrete.Sample.remarks) :=
    rfl
  have hAccepted :
      Concrete.Sample.remarks.refusal?
        Concrete.Sample.remarksSource.toList = none := by
    decide +kernel
  have hBuilt :=
    (build_eq_ok_iff hReachable hInput).2
      ⟨hAccepted, by decide +kernel, rfl, rfl⟩
  refine ⟨by decide +kernel, by decide +kernel, ?_⟩
  exact congrArg Prod.fst
    (build_uncommented hReachable hInput (by decide +kernel)
      (by decide +kernel) hBuilt)

end Builder

end ShapeTypes
