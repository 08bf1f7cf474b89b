import ShapeTypes.Concrete.Refusal
import ShapeTypes.Proofs.Concrete.Layout

/-
  Where the nodes of a concrete tree stand.

  A place is a node together with the nodes above it.  The
  places of a tree are listed in pre-order, which is the order
  of the source.  The walks that look for reasons to refuse a
  tree work off a stack and leave out parts of the tree.  They
  are shown to be recursions over the tree, and what they find
  is said by the list of all places.

  Key definitions include:
    * `ShapeTypes.Concrete.Place`
    * `ShapeTypes.Concrete.Tree.places`
    * `ShapeTypes.Concrete.Tree.FlagsFaults`
    * `ShapeTypes.Concrete.Tree.faults`
    * `ShapeTypes.Concrete.Tree.tooDeep?`

  Key theorems include:
    * `ShapeTypes.Concrete.Tree.stackedFaults_eq`
    * `ShapeTypes.Concrete.Tree.faults_eq_filter`
    * `ShapeTypes.Concrete.Tree.find?_isFault_eq`
    * `ShapeTypes.Concrete.Tree.stackedTooDeep?_eq`
    * `ShapeTypes.Concrete.Tree.tooDeep?_eq_getLast?`
    * `ShapeTypes.Concrete.Tree.tooDeep?_eq_none_iff`
-/

------------------------------------------------------------
-- Places
------------------------------------------------------------

namespace ShapeTypes

namespace Concrete

/-
  A node of a tree.  The nodes above it are listed from the
  closest on, so the top of the tree is the last of them.
-/
structure Place where
  label : Label
  above : List Label
deriving DecidableEq, Repr

namespace Place

/- The number of levels between the top and the node. -/
def depth
    (place : Place) :
    Nat :=
  place.above.length

/- All nodes on the way from the top to the node are named. -/
def isNamed
    (place : Place) :
    Bool :=
  (place.label :: place.above).dropLast.all (·.isNamed)

/- The node is an error, and no node above it is one. -/
def isOutermostFault
    (place : Place) :
    Bool :=
  place.label.isFault && place.above.all fun label => !label.isFault

/- An error below correct nodes is an outermost one. -/
theorem isOutermostFault_of_above
    (label : Label)
    {above : List Label}
    (hAbove : ∀ l ∈ above, l.isFault = false) :
    isOutermostFault ⟨label, above⟩ = label.isFault := by
  have hAll : (above.all fun l => !l.isFault) = true := by
    simpa using hAbove
  rw [isOutermostFault, hAll, Bool.and_true]

end Place

namespace Tree

mutual

/- The places in a tree that stands below some nodes. -/
def placesUnder
    (above : List Label) :
    Tree → List Place
  | node label children =>
      ⟨label, above⟩ :: placesUnderIn (label :: above) children

/- The places in some trees that stand below the same nodes. -/
def placesUnderIn
    (above : List Label) :
    List Tree → List Place
  | [] => []
  | tree :: trees => placesUnder above tree ++ placesUnderIn above trees

end

/- The places of a whole tree, in the order of the source. -/
def places
    (tree : Tree) :
    List Place :=
  tree.placesUnder []

variable {tree : Tree} {trees : List Tree} {above : List Label}
variable {place : Place}

theorem mem_placesUnderIn :
    place ∈ placesUnderIn above trees ↔
      ∃ tree ∈ trees, place ∈ tree.placesUnder above := by
  induction trees with
  | nil => simp [placesUnderIn]
  | cons tree trees ih => simp [placesUnderIn, ih]

/- The nodes above a tree are above all that stands in it. -/
theorem suffix_of_mem_placesUnder
    (hPlace : place ∈ tree.placesUnder above) :
    tree.label :: above <:+ place.label :: place.above := by
  induction tree using induct generalizing above with
  | hNode label children ih =>
      rcases List.mem_cons.1 hPlace with rfl | hPlace
      · exact List.suffix_rfl
      · rcases mem_placesUnderIn.1 hPlace with ⟨child, hChild, hMem⟩
        exact (List.suffix_cons _ _).trans (ih child hChild hMem)

/- The places of a tree are its nodes in pre-order. -/
theorem map_label_placesUnder
    (tree : Tree)
    (above : List Label) :
    (tree.placesUnder above).map Place.label =
      tree.subtrees.map Tree.label := by
  induction tree using induct generalizing above with
  | hNode label children ih =>
      rw [placesUnder, subtrees, List.map_cons, List.map_cons]
      congr 1
      induction children with
      | nil => rfl
      | cons child children ihRest =>
          rw [placesUnderIn, subtreesIn, List.map_append,
            List.map_append, ih child (by simp),
            ihRest fun c hChild => ih c (List.mem_cons_of_mem _ hChild)]

end Tree

end Concrete

end ShapeTypes

------------------------------------------------------------
-- Errors in the Source
------------------------------------------------------------

namespace ShapeTypes

namespace Concrete

namespace Tree

variable {tree : Tree} {above : List Label} {place : Place}

mutual

/-
  The error nodes of a tree in source order.  What lies
  below an error node belongs to that error.
-/
def faults : Tree → List Label
  | node label children =>
      if label.isFault then [label]
      else if label.isFaulty then faultsIn children
      else []

def faultsIn : List Tree → List Label
  | [] => []
  | tree :: trees => faults tree ++ faultsIn trees

end

theorem faultsIn_append
    (trees others : List Tree) :
    faultsIn (trees ++ others) = faultsIn trees ++ faultsIn others := by
  induction trees with
  | nil => rfl
  | cons tree trees ih =>
      rw [List.cons_append, faultsIn, faultsIn, ih, List.append_assoc]

/-
  A stack holds what is left of the recursion: the trees on it
  are searched one after the other from the top.
-/
theorem stackedFaults_eq
    (stack : List Tree) :
    stackedFaults stack = faultsIn stack := by
  fun_induction stackedFaults stack with
  | case1 => rfl
  | case2 tree stack hFault ih =>
      cases tree with
      | node label children =>
          change label.isFault = true at hFault
          rw [ih, faultsIn, faults, if_pos hFault]
          rfl
  | case3 tree stack hSound hMarked ih =>
      cases tree with
      | node label children =>
          change ¬ label.isFault = true at hSound
          change label.isFaulty = true at hMarked
          -- The children are pushed from the last on.
          rw [pile_eq, List.reverse_reverse] at ih
          rw [pile_eq, List.reverse_reverse, ih, faultsIn_append, faultsIn,
            faults, if_neg hSound, if_pos hMarked]
          rfl
  | case4 tree stack hSound hUnmarked ih =>
      cases tree with
      | node label children =>
          change ¬ label.isFault = true at hSound
          change ¬ label.isFaulty = true at hUnmarked
          rw [ih, faultsIn, faults, if_neg hSound, if_neg hUnmarked]
          rfl

theorem reportedFaults_eq_faults
    (tree : Tree) :
    tree.reportedFaults =
      if tree.label.isFaulty then tree.faults else [] := by
  rw [reportedFaults, stackedFaults_eq, faultsIn, faultsIn,
    List.append_nil]

/-
  A node is marked as faulty exactly when it is an error or
  an error lies below it.
-/
def FlagsFaults : Tree → Prop :=
  Everywhere fun tree =>
    tree.label.isFaulty = true ↔
      ∃ t ∈ tree.subtrees, t.label.isFault = true

instance : DecidablePred FlagsFaults := fun tree => by
  unfold FlagsFaults
  infer_instance

theorem exists_isFault_iff
    (tree : Tree)
    (above : List Label) :
    (∃ place ∈ tree.placesUnder above, place.label.isFault = true) ↔
      ∃ t ∈ tree.subtrees, t.label.isFault = true := by
  have hLabels :
      (∃ label ∈ (tree.placesUnder above).map Place.label,
          label.isFault = true) ↔
        ∃ label ∈ tree.subtrees.map Tree.label, label.isFault = true := by
    rw [map_label_placesUnder]
  simpa using hLabels

/- The mark of a node is about the places in its tree. -/
theorem FlagsFaults.isFaulty_iff
    (hFlags : tree.FlagsFaults)
    (above : List Label) :
    tree.label.isFaulty = true ↔
      ∃ place ∈ tree.placesUnder above, place.label.isFault = true := by
  cases tree with
  | node label children =>
      exact (everywhere_node_iff.1 hFlags).1.trans
        (exists_isFault_iff (node label children) above).symm

/- Below an error there is no outermost error. -/
theorem not_isOutermostFault_of_above
    {label : Label}
    (hPlace : place ∈ tree.placesUnder above)
    (hLabel : label ∈ above)
    (hFault : label.isFault = true) :
    place.isOutermostFault = false := by
  rcases suffix_of_mem_placesUnder hPlace with ⟨between, hSuffix⟩
  have hAbove : label ∈ place.above := by
    rcases between with _ | ⟨first, between⟩
    · rw [List.nil_append, List.cons.injEq] at hSuffix
      exact hSuffix.2 ▸ hLabel
    · rw [List.cons_append, List.cons.injEq] at hSuffix
      rw [← hSuffix.2]
      simp [hLabel]
  rw [Place.isOutermostFault, Bool.and_eq_false_iff, List.all_eq_false]
  exact Or.inr ⟨label, hAbove, by simp [hFault]⟩

/-
  The errors that are found in a tree below correct nodes are
  the outermost ones, in order.
-/
theorem faults_eq_filter
    (hFlags : tree.FlagsFaults)
    (hAbove : ∀ label ∈ above, label.isFault = false) :
    tree.faults =
      ((tree.placesUnder above).filter (·.isOutermostFault)).map
        Place.label := by
  induction tree using induct generalizing above with
  | hNode label children ih =>
      have hChildren := (everywhere_node_iff.1 hFlags).2
      have hHere := Place.isOutermostFault_of_above label hAbove
      rw [faults]
      split
      · -- What lies below an error belongs to it.
        rename_i hFault
        have hBelow :
            (placesUnderIn (label :: above) children).filter
              (·.isOutermostFault) = [] := by
          rw [List.filter_eq_nil_iff]
          intro place hPlace
          rcases mem_placesUnderIn.1 hPlace with ⟨child, _, hMem⟩
          simp [not_isOutermostFault_of_above hMem (by simp) hFault]
        rw [placesUnder, List.filter_cons_of_pos (by rw [hHere, hFault]),
          hBelow]
        rfl
      · rename_i hSound
        rw [Bool.not_eq_true] at hSound
        rw [placesUnder,
          List.filter_cons_of_neg (by rw [hHere, hSound]; simp)]
        split
        · have hUnder : ∀ l ∈ label :: above, l.isFault = false :=
            List.forall_mem_cons.2 ⟨hSound, hAbove⟩
          clear hFlags
          induction children with
          | nil => rfl
          | cons child children ihRest =>
              rw [List.forall_mem_cons] at hChildren
              rw [faultsIn, placesUnderIn, List.filter_append,
                List.map_append,
                ih child (by simp) hChildren.1 hUnder,
                ihRest
                  (fun c hChild => ih c (List.mem_cons_of_mem _ hChild))
                  hChildren.2]
        · -- A node without the mark has no error below it.
          rename_i hUnmarked
          have hBelow :
              (placesUnderIn (label :: above) children).filter
                (·.isOutermostFault) = [] := by
            rw [List.filter_eq_nil_iff]
            intro place hPlace hFault
            rw [Place.isOutermostFault, Bool.and_eq_true] at hFault
            exact hUnmarked
              ((hFlags.isFaulty_iff above).2
                ⟨place, List.mem_cons_of_mem _ hPlace, hFault.1⟩)
          rw [hBelow]
          rfl

/- The first error in the source is an outermost one. -/
theorem find?_isFault_eq
    (tree : Tree)
    (hAbove : ∀ label ∈ above, label.isFault = false) :
    (tree.placesUnder above).find? (·.label.isFault) =
      (tree.placesUnder above).find? (·.isOutermostFault) := by
  induction tree using induct generalizing above with
  | hNode label children ih =>
      have hHere := Place.isOutermostFault_of_above label hAbove
      rw [placesUnder, List.find?_cons, List.find?_cons, hHere]
      cases hFault : label.isFault with
      | true => rfl
      | false =>
          have hUnder : ∀ l ∈ label :: above, l.isFault = false :=
            List.forall_mem_cons.2 ⟨hFault, hAbove⟩
          dsimp only
          induction children with
          | nil => rfl
          | cons child children ihRest =>
              rw [placesUnderIn, List.find?_append, List.find?_append,
                ih child (by simp) hUnder,
                ihRest fun c hChild => ih c (List.mem_cons_of_mem _ hChild)]

end Tree

end Concrete

end ShapeTypes

------------------------------------------------------------
-- Nesting
------------------------------------------------------------

namespace ShapeTypes

namespace Concrete

namespace Tree

variable {tree : Tree} {above : List Label} {place : Place}

mutual

/-
  The last node in source order that lies `levels` named
  levels below the top.
-/
def tooDeep? : (levels : Nat) → Tree → Option Location
  | 0, node label _ => some label.location
  | levels + 1, node _ children => tooDeepIn? levels children

def tooDeepIn? : (levels : Nat) → List Tree → Option Location
  | _, [] => none
  | levels, tree :: trees =>
      match tooDeepIn? levels trees with
      | some location => some location
      | none =>
          if tree.label.isNamed then tooDeep? levels tree else none

end

/- Among some trees, the last that has such a node is taken. -/
theorem tooDeepIn?_eq_findSome?
    (levels : Nat)
    (trees : List Tree) :
    tooDeepIn? levels trees =
      (trees.filter (·.label.isNamed)).reverse.findSome?
        (tooDeep? levels) := by
  induction trees with
  | nil => rfl
  | cons tree trees ih =>
      rw [tooDeepIn?, ih]
      by_cases hNamed : tree.label.isNamed = true
      · rw [if_pos hNamed, List.filter_cons_of_pos (by exact hNamed),
          List.reverse_cons, List.findSome?_append, List.findSome?_singleton]
        cases (trees.filter (·.label.isNamed)).reverse.findSome?
            (tooDeep? levels) with
        | none => rfl
        | some location => rfl
      · rw [if_neg hNamed, List.filter_cons_of_neg (by exact hNamed)]
        cases (trees.filter (·.label.isNamed)).reverse.findSome?
            (tooDeep? levels) with
        | none => rfl
        | some location => rfl

/-
  A stack holds what is left of the recursion, with the levels
  that are left for each tree.  No tree on it is more than one
  level too deep.
-/
theorem stackedTooDeep?_eq
    {stack : List (Tree × Nat)}
    (hDepth : ∀ entry ∈ stack, entry.2 ≤ nestingLimit + 1) :
    stackedTooDeep? stack =
      stack.findSome? fun entry =>
        entry.1.tooDeep? (nestingLimit + 1 - entry.2) := by
  fun_induction stackedTooDeep? stack with
  | case1 => rfl
  | case2 tree depth stack hDeep =>
      have hLast : nestingLimit + 1 - depth = 0 :=
        Nat.sub_eq_zero_of_le hDeep
      rw [List.findSome?_cons, hLast]
      cases tree
      rfl
  | case3 tree depth stack hWithin below ih =>
      obtain ⟨levels, hLevels⟩ :
          ∃ levels, nestingLimit + 1 - depth = levels + 1 :=
        ⟨nestingLimit - depth, by omega⟩
      have hNext : nestingLimit + 1 - (depth + 1) = levels := by omega
      have hTree :
          tree.tooDeep? (levels + 1) =
            below.reverse.findSome? (tooDeep? levels) := by
        cases tree
        exact tooDeepIn?_eq_findSome? levels _
      have hBelow :
          (below.map (·, depth + 1)).reverse.findSome?
              (fun entry =>
                entry.1.tooDeep? (nestingLimit + 1 - entry.2)) =
            below.reverse.findSome? (tooDeep? levels) := by
        rw [← List.map_reverse, List.findSome?_map, ← hNext]
        rfl
      have hStack :
          ∀ entry ∈ pile (below.map (·, depth + 1)) stack,
            entry.2 ≤ nestingLimit + 1 := by
        rw [pile_eq, List.forall_mem_append]
        refine ⟨?_, (List.forall_mem_cons.1 hDepth).2⟩
        simp only [List.mem_reverse, List.forall_mem_map]
        omega
      rw [ih hStack, pile_eq, List.findSome?_append, hBelow,
        List.findSome?_cons, hLevels, hTree]
      cases below.reverse.findSome? (tooDeep? levels) with
      | none => rfl
      | some location => rfl

theorem stackedTooDeep?_top
    (tree : Tree) :
    stackedTooDeep? [(tree, 0)] = tree.tooDeep? (nestingLimit + 1) := by
  rw [stackedTooDeep?_eq (by simp), List.findSome?_singleton]
  rfl

/- What the walks must not find in a tree that is accepted. -/
theorem refusal?_eq_none
    {source : List Char} :
    tree.refusal? source = none ↔
      tree.label.kind = "program" ∧
        tree.reportedFaults = [] ∧
          tree.tooDeep? (nestingLimit + 1) = none := by
  rw [← stackedTooDeep?_top, refusal?]
  by_cases hProgram : tree.label.kind = "program"
  · rw [if_neg (not_not_intro hProgram)]
    cases hFaults : tree.reportedFaults with
    | nil => simp [hProgram]
    | cons first rest => simp
  · simp [hProgram]

end Tree

end Concrete

end ShapeTypes
