import ShapeTypes.Proofs.Inference.History
import ShapeTypes.Proofs.Inference.Table

/-
  Callees as chains of property accesses.

  A callee has a path when the accesses by name that start at
  it lead to an identifier.  The path lists the names from
  that identifier back to the callee, so its last name is the
  one that the callee itself accesses.

  Key definitions include:
    * `ShapeTypes.Store.AccessChain`
    * `ShapeTypes.dotted`

  Key theorems include:
    * `ShapeTypes.Store.AccessChain.cons`
    * `ShapeTypes.Store.calleePath_iff_accessChain`
    * `ShapeTypes.simpleName_dotted`
    * `ShapeTypes.Store.calleePath?_eq_dotted_iff`
    * `ShapeTypes.Store.calleePath?_accessChain`
-/

------------------------------------------------------------
-- Chains
------------------------------------------------------------

namespace ShapeTypes

/- The names from the last one of a chain back to the first. -/
def backwards
    (steps : Nat)
    (name : Nat → String) :
    List String :=
  (List.range (steps + 1)).reverse.map name

/- The names of a chain with dots between them. -/
def dotted
    (steps : Nat)
    (name : Nat → String) :
    String :=
  ".".intercalate (backwards steps name)

/- The first name of a chain is the last to be listed. -/
theorem backwards_succ
    (steps : Nat)
    (name : Nat → String) :
    backwards (steps + 1) name =
      backwards steps (fun i => name (i + 1)) ++ [name 0] := by
  rw [backwards, List.range_succ_eq_map, List.reverse_cons,
    List.map_append, ← List.map_reverse, List.map_map]
  rfl

/- One name is listed for each node of a chain. -/
theorem length_backwards
    (steps : Nat)
    (name : Nat → String) :
    (backwards steps name).length = steps + 1 := by
  simp [backwards]

namespace Store

/-
  A chain of accesses from a callee on.  Each node but the
  last accesses a property of the next node, by a name that
  stands as an identifier, and the last node is an identifier
  itself.
-/
structure AccessChain
    (store : Store)
    (callee : NodeId)
    (steps : Nat)
    (node : Nat → NodeId)
    (name : Nat → String) : Prop where
  start : node 0 = callee
  access :
    ∀ i < steps, ∃ property,
      store.kind? (node i) = some (.member (node (i + 1)) property false) ∧
        store.kind? property = some (.identifier (name i))
  root : store.kind? (node steps) = some (.identifier (name steps))

variable {store : Store} {callee : NodeId}
variable {steps : Nat} {node : Nat → NodeId} {name : Nat → String}

namespace AccessChain

/- An identifier is a chain without accesses. -/
theorem single
    {first : String}
    (hKind : store.kind? callee = some (.identifier first)) :
    store.AccessChain callee 0 (fun _ => callee) (fun _ => first) :=
  ⟨rfl, fun _ hLess => absurd hLess (Nat.not_lt_zero _), hKind⟩

/- An access to a property of a callee goes before its chain. -/
theorem cons
    {id property : NodeId}
    {first : String}
    (hChain : store.AccessChain callee steps node name)
    (hKind : store.kind? id = some (.member callee property false))
    (hName : store.kind? property = some (.identifier first)) :
    store.AccessChain id (steps + 1)
      (fun i => if i = 0 then id else node (i - 1))
      (fun i => if i = 0 then first else name (i - 1)) := by
  refine ⟨rfl, ?_, by simpa using hChain.root⟩
  intro i hLess
  cases i with
  | zero => exact ⟨property, by simpa [hChain.start] using hKind, hName⟩
  | succ i =>
      simpa using hChain.access i (Nat.lt_of_succ_lt_succ hLess)

/- Behind the first access, the chain goes on from its object. -/
theorem tail
    (hChain : store.AccessChain callee (steps + 1) node name) :
    store.AccessChain (node 1) steps (fun i => node (i + 1))
      (fun i => name (i + 1)) :=
  ⟨rfl, fun i hLess => hChain.access (i + 1) (Nat.succ_lt_succ hLess),
    hChain.root⟩

/- The names of a chain are those of the callee. -/
theorem calleePath
    (hChain : store.AccessChain callee steps node name) :
    store.CalleePath callee (backwards steps name) := by
  induction steps generalizing callee node name with
  | zero =>
      have hRoot := hChain.root
      rw [hChain.start] at hRoot
      exact .identifier hRoot
  | succ steps ih =>
      rcases hChain.access 0 (Nat.succ_pos steps) with
        ⟨property, hKind, hName⟩
      rw [hChain.start] at hKind
      rw [backwards_succ]
      exact .property hKind hName (ih hChain.tail)

end AccessChain

/- A callee has a path when a chain of accesses starts at it. -/
theorem calleePath_iff_accessChain
    {names : List String} :
    store.CalleePath callee names ↔
      ∃ steps node name,
        store.AccessChain callee steps node name ∧
          names = backwards steps name := by
  constructor
  · intro hPath
    induction hPath with
    | @identifier id first hKind => exact ⟨0, _, _, .single hKind, rfl⟩
    | @property id object property first names hKind hName _ ih =>
        rcases ih with ⟨steps, node, name, hChain, rfl⟩
        refine ⟨steps + 1, _, _, hChain.cons hKind hName, ?_⟩
        rw [backwards_succ]
        simp
  · rintro ⟨steps, node, name, hChain, rfl⟩
    exact hChain.calleePath

end Store

end ShapeTypes

------------------------------------------------------------
-- Paths of Chains
------------------------------------------------------------

namespace ShapeTypes

/-
  What follows the last dot is the first name of the chain,
  even if there are dots in the names behind it.
-/
theorem simpleName_dotted
    {steps : Nat}
    {name : Nat → String}
    (hDotless : '.' ∉ (name 0).toList) :
    simpleName (dotted steps name) = name 0 := by
  refine simpleName_eq_iff.2 ⟨hDotless, ?_⟩
  cases steps with
  | zero => exact Or.inl String.intercalate_singleton
  | succ steps =>
      right
      refine ⟨dotted steps fun i => name (i + 1), ?_⟩
      have hSome : backwards steps (fun i => name (i + 1)) ≠ [] := by
        rw [← List.length_pos_iff, length_backwards]
        exact Nat.succ_pos steps
      rw [dotted, backwards_succ,
        String.intercalate_append_of_ne_nil hSome (List.cons_ne_nil _ _),
        String.intercalate_singleton]
      rfl

namespace Store

/-
  The path of a callee is that of a chain.  It has one name
  more than the chain has accesses, so the limit is on these.
-/
theorem calleePath?_eq_dotted_iff
    {store : Store}
    {callee : NodeId}
    {maxDepth : Nat}
    {path : String} :
    store.calleePath? callee maxDepth = some path ↔
      ∃ steps node name,
        steps ≤ maxDepth ∧
          store.AccessChain callee steps node name ∧
          path = dotted steps name := by
  rw [calleePath?_eq_some_iff]
  constructor
  · rintro ⟨names, hPath, hLength, rfl⟩
    rcases calleePath_iff_accessChain.1 hPath with
      ⟨steps, node, name, hChain, rfl⟩
    rw [length_backwards] at hLength
    exact ⟨steps, node, name, Nat.le_of_succ_le_succ hLength, hChain, rfl⟩
  · rintro ⟨steps, node, name, hSteps, hChain, rfl⟩
    refine ⟨_, hChain.calleePath, ?_, rfl⟩
    rw [length_backwards]
    exact Nat.succ_le_succ hSteps

/-
  The path of a callee is found exactly when a chain of no
  more accesses than the limit leads from it to an identifier.
  It consists of the names of the chain, and its simple name
  is the one that the callee accesses.
-/
theorem calleePath?_accessChain
    (store : Store)
    (callee : NodeId)
    (maxDepth : Nat) :
    (∀ path,
      store.calleePath? callee maxDepth = some path ↔
        ∃ steps node name,
          steps ≤ maxDepth ∧
            store.AccessChain callee steps node name ∧
            path = dotted steps name) ∧
      ∀ steps node name,
        steps ≤ maxDepth →
          store.AccessChain callee steps node name →
          '.' ∉ (name 0).toList →
            (store.calleePath? callee maxDepth).map simpleName =
              some (name 0) := by
  refine ⟨fun _ => calleePath?_eq_dotted_iff, ?_⟩
  intro steps node name hSteps hChain hDotless
  rw [calleePath?_eq_dotted_iff.2 ⟨steps, node, name, hSteps, hChain, rfl⟩,
    Option.map_some, simpleName_dotted hDotless]

/- A name with two accesses, and an access that is its own object. -/
def accesses : Store :=
  ([Kind.identifier "a", .identifier "b", .member 1 2 false,
    .identifier "c", .member 3 4 false,
    .member 6 4 false].zipIdx 1).foldl
      (fun store entry =>
        store.put { id := entry.2, location := { }, kind := entry.1 })
      Store.empty

/-
  Two accesses are found within a limit of two, but not of
  one.  Those that run in a circle are found within no limit.
-/
theorem calleePath?_accessChain_accesses :
    accesses.AccessChain 5 2 (fun i => [5, 3, 1].getD i 0)
        (fun i => ["c", "b", "a"].getD i "") ∧
      accesses.calleePath? 5 2 = some "a.b.c" ∧
      (accesses.calleePath? 5 2).map simpleName = some "c" ∧
      accesses.calleePath? 5 1 = none ∧
      accesses.calleePath? 6 100 = none := by
  have hChain :
      accesses.AccessChain 5 2 (fun i => [5, 3, 1].getD i 0)
        (fun i => ["c", "b", "a"].getD i "") := by
    refine ⟨rfl, ?_, by decide +kernel⟩
    intro i hLess
    rcases i with _ | _ | i
    · exact ⟨4, by decide +kernel, by decide +kernel⟩
    · exact ⟨2, by decide +kernel, by decide +kernel⟩
    · omega
  rcases calleePath?_accessChain accesses 5 2 with ⟨hFound, hSimple⟩
  refine ⟨hChain, ?_, ?_, ?_, ?_⟩
  · exact (hFound _).2 ⟨2, _, _, Nat.le_refl 2, hChain, by decide⟩
  · exact hSimple 2 _ _ (Nat.le_refl 2) hChain (by decide)
  · decide +kernel
  · decide +kernel

end Store

end ShapeTypes
