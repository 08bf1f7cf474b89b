import ShapeTypes.Proofs.Inference.Table
import ShapeTypes.Proofs.Store.PostOrder

/-
  The limit on depth, where no node is shared.

  A node that one node alone lists is met at one depth only,
  the number of steps that lead to it.  So neither the active
  nodes nor the finished types have a say in its type, and
  inference is a recursion that counts its steps and stops
  beyond the limit.

  Key definitions include:
    * `ShapeTypes.Store.Consults`
    * `ShapeTypes.Store.OwnedBelow`
    * `ShapeTypes.Store.StepsBelow`
    * `ShapeTypes.Engine.typeBelow`

  Key theorems include:
    * `ShapeTypes.Store.OwnedBelow.consults_unique`
    * `ShapeTypes.Store.OwnedBelow.steps_unique`
    * `ShapeTypes.Engine.gives_typeBelow`
    * `ShapeTypes.Engine.infer_eq_typeBelow`
-/

------------------------------------------------------------
-- Steps of Inference
------------------------------------------------------------

namespace ShapeTypes

namespace Store

variable {store : Store} {top id child : NodeId}

/-
  A step of inference.  From an object it leads to the value
  of a property, and passes over the property.
-/
def Consults
    (store : Store)
    (id child : NodeId) : Prop :=
  ∃ kind, store.kind? id = some kind ∧ child ∈ store.consulted kind

/- The nodes that so many steps of inference lead to. -/
inductive StepsBelow
    (store : Store)
    (top : NodeId) :
    Nat → NodeId → Prop where
  | here : StepsBelow store top 0 top
  | step {steps : Nat} {id child : NodeId}
      (hSteps : StepsBelow store top steps id)
      (hStep : store.Consults id child) :
      StepsBelow store top (steps + 1) child

/-
  No node below lists the top, and no two nodes below list one
  part.  A node may still list a part more than once, as a
  property does whose value is its key.
-/
structure OwnedBelow
    (store : Store)
    (top : NodeId) : Prop where
  unlisted : ∀ {i}, store.Reaches top i → top ∉ store.childrenOf i
  single :
    ∀ {i j part}, store.Reaches top i → store.Reaches top j →
      part ∈ store.childrenOf i → part ∈ store.childrenOf j → i = j

/-
  A step leads to a part, or to a part of a property, from
  which no step leads on.
-/
theorem Consults.cases
    (hStep : store.Consults id child) :
    child ∈ store.childrenOf id ∨
      ∃ property ∈ store.childrenOf id,
        child ∈ store.childrenOf property ∧
          ∀ other, ¬ store.Consults property other := by
  rcases hStep with ⟨kind, hKind, hChild⟩
  rcases Option.map_eq_some_iff.1 hKind with ⟨node, hFind, rfl⟩
  have hParts : store.childrenOf id = node.kind.children := by
    rw [childrenOf, hFind]
  rw [hParts]
  refine (consulted_property_cases hChild).imp_right ?_
  rintro ⟨property, hProperty, below, hBelow, hPart, hNone⟩
  refine ⟨property, hProperty, by rwa [childrenOf, hBelow], ?_⟩
  rintro other ⟨kind, hKind, hOther⟩
  rw [kind?_of_find? hBelow, Option.some.injEq] at hKind
  rw [← hKind, hNone] at hOther
  exact absurd hOther List.not_mem_nil

/- One more step leads to what a stored node consults. -/
theorem StepsBelow.step_consulted
    {steps : Nat}
    {node : Node}
    (hSteps : store.StepsBelow top steps id)
    (hFind : store.find? id = some node)
    (hChild : child ∈ store.consulted node.kind) :
    store.StepsBelow top (steps + 1) child :=
  hSteps.step ⟨node.kind, kind?_of_find? hFind, hChild⟩

/- Steps lead to nodes below only. -/
theorem StepsBelow.reaches
    {steps : Nat}
    (hSteps : store.StepsBelow top steps id) :
    store.Reaches top id := by
  induction hSteps with
  | here => exact .refl
  | step _ hStep ih =>
      rcases hStep.cases with hPart | ⟨property, hProperty, hPart, -⟩
      · exact ih.tail hPart
      · exact (ih.tail hProperty).tail hPart

namespace OwnedBelow

variable {i j : NodeId} {m n : Nat}

/- No step leads back to the top. -/
theorem not_consults_top
    (hOwned : store.OwnedBelow top)
    (hReaches : store.Reaches top i) :
    ¬ store.Consults i top := by
  intro hStep
  rcases hStep.cases with hPart | ⟨property, hProperty, hPart, -⟩
  · exact hOwned.unlisted hReaches hPart
  · exact hOwned.unlisted (hReaches.tail hProperty) hPart

/- Steps from two nodes lead to two nodes. -/
theorem consults_unique
    (hOwned : store.OwnedBelow top)
    (hFirst : store.Reaches top i)
    (hSecond : store.Reaches top j)
    (hStep : store.Consults i child)
    (hOther : store.Consults j child) :
    i = j := by
  rcases hStep.cases with hPart | ⟨property, hProperty, hPart, hNone⟩
  · rcases hOther.cases with hSame | ⟨owner, hOwner, hSame, hNone⟩
    · exact hOwned.single hFirst hSecond hPart hSame
    · -- The only node that lists the part is a property.
      obtain rfl := hOwned.single hFirst (hSecond.tail hOwner) hPart hSame
      exact absurd hStep (hNone child)
  · rcases hOther.cases with hSame | ⟨owner, hOwner, hSame, -⟩
    · obtain rfl := hOwned.single (hFirst.tail hProperty) hSecond hPart hSame
      exact absurd hOther (hNone child)
    · obtain rfl := hOwned.single (hFirst.tail hProperty)
        (hSecond.tail hOwner) hPart hSame
      exact hOwned.single hFirst hSecond hProperty hOwner

/- All ways to a node have the same number of steps. -/
theorem steps_unique
    (hOwned : store.OwnedBelow top)
    (hFirst : store.StepsBelow top m id)
    (hSecond : store.StepsBelow top n id) :
    m = n := by
  induction hFirst generalizing n with
  | here =>
      cases hSecond with
      | here => rfl
      | step hSteps hStep =>
          exact absurd hStep (hOwned.not_consults_top hSteps.reaches)
  | step hSteps hStep ih =>
      cases hSecond with
      | here => exact absurd hStep (hOwned.not_consults_top hSteps.reaches)
      | step hOthers hOther =>
          obtain rfl := hOwned.consults_unique hSteps.reaches
            hOthers.reaches hStep hOther
          rw [ih hOthers]

/- It is enough that the stored nodes list no part twice over. -/
theorem of_stored
    (hUnlisted : ∀ i ∈ store.ids, top ∉ store.childrenOf i)
    (hSingle :
      ∀ i ∈ store.ids, ∀ j ∈ store.ids, ∀ part ∈ store.childrenOf i,
        part ∈ store.childrenOf j → i = j) :
    store.OwnedBelow top := by
  have hStored :
      ∀ {i part}, part ∈ store.childrenOf i → i ∈ store.ids :=
    fun hPart => mem_ids_iff.2 (mem_nodes_of_mem_childrenOf hPart)
  constructor
  · intro i _ hTop
    exact hUnlisted i (hStored hTop) hTop
  · intro i j part _ _ hPart hSame
    exact hSingle i (hStored hPart) j (hStored hSame) part hPart hSame

end OwnedBelow

theorem CalleePath.unique
    {first second : List String}
    (hFirst : store.CalleePath id first)
    (hSecond : store.CalleePath id second) :
    first = second := by
  -- A search of enough steps finds both.
  have hFound := hFirst.calleeNames?_eq (Nat.le_max_left _ second.length) []
  have hSame := hSecond.calleeNames?_eq (Nat.le_max_right first.length _) []
  rw [hFound] at hSame
  simpa using hSame

/- The dotted path of a callee is found unless it is too long. -/
theorem CalleePath.calleePath?_eq
    {names : List String}
    (hPath : store.CalleePath id names)
    (maxDepth : Nat) :
    store.calleePath? id maxDepth =
      if names.length ≤ maxDepth + 1 then
        some (".".intercalate names)
      else
        none := by
  split
  · rename_i hLength
    exact calleePath?_eq_some_iff.2 ⟨names, hPath, hLength, rfl⟩
  · rename_i hLong
    rw [Option.eq_none_iff_forall_ne_some]
    intro path hFound
    rcases calleePath?_eq_some_iff.1 hFound with
      ⟨others, hOthers, hLength, -⟩
    rw [hOthers.unique hPath] at hLength
    exact hLong hLength

end Store

end ShapeTypes

------------------------------------------------------------
-- The Recursion
------------------------------------------------------------

namespace ShapeTypes

namespace Engine

variable {engine : Engine} {store : Store}
variable {depth : Nat} {top id : NodeId}

/-
  The type of a node so many steps down: `unknown` beyond the
  limit, and otherwise what the table makes of the types one
  step further down.
-/
def typeBelow
    (engine : Engine)
    (store : Store)
    (depth : Nat)
    (id : NodeId) :
    Descriptor :=
  if _ : engine.options.maxDepth < depth then
    .unknown
  else
    match store.find? id with
    | none => .unknown
    | some node =>
        engine.combine store node.kind
          ((store.consulted node.kind).map
            (engine.typeBelow store (depth + 1)))
termination_by engine.options.maxDepth + 1 - depth

/- Beyond the limit and for missing nodes nothing is known. -/
theorem typeBelow_of_halt
    (hHalt : engine.options.maxDepth < depth ∨ id ∉ store.nodes) :
    engine.typeBelow store depth id = .unknown := by
  rw [typeBelow]
  split
  · rfl
  · rename_i hDepth
    cases hFind : store.find? id with
    | none => rfl
    | some node =>
        exact absurd (Store.mem_nodes_iff.2 ⟨node, hFind⟩)
          (hHalt.resolve_left hDepth)

/- Within the limit the table is applied. -/
theorem typeBelow_of_node
    {node : Node}
    (hDepth : depth ≤ engine.options.maxDepth)
    (hFind : store.find? id = some node) :
    engine.typeBelow store depth id =
      engine.combine store node.kind
        ((store.consulted node.kind).map
          (engine.typeBelow store (depth + 1))) := by
  rw [typeBelow, dif_neg (Nat.not_lt.2 hDepth), hFind]

/-
  Visits give the types of the recursion, whenever the nodes
  they are made of are as many steps down as the visits are
  deep.  The active nodes are fewer steps down, so that none
  of them is met again.
-/
theorem gives_typeBelow
    (hOwned : store.OwnedBelow top) :
    engine.Gives store
      (fun depth active i =>
        store.StepsBelow top depth i ∧
          ∀ j ∈ active, ∃ n < depth, store.StepsBelow top n j)
      (fun i type =>
        ∀ n, store.StepsBelow top n i → type = engine.typeBelow store n i) := by
  constructor
  · rintro depth active i ⟨hSteps, hActive⟩ hHalts n hn
    obtain rfl := hOwned.steps_unique hSteps hn
    rcases hHalts with hDeep | hMissing | hCircle
    · exact (typeBelow_of_halt (Or.inl hDeep)).symm
    · exact (typeBelow_of_halt (Or.inr hMissing)).symm
    · rcases hActive i hCircle with ⟨fewer, hLess, hFewer⟩
      have hSame := hOwned.steps_unique hSteps hFewer
      omega
  · rintro depth active i node ⟨hSteps, hActive⟩ hFind child hChild
    refine ⟨hSteps.step_consulted hFind hChild, ?_⟩
    intro j hj
    rcases NodeSet.mem_insert.1 hj with rfl | hj
    · exact ⟨depth, Nat.lt_succ_self depth, hSteps⟩
    · rcases hActive j hj with ⟨n, hLess, hn⟩
      exact ⟨n, Nat.lt_succ_of_lt hLess, hn⟩
  · rintro depth active i node types ⟨hSteps, -⟩ hDepth hFind hTypes n hn
    obtain rfl := hOwned.steps_unique hSteps hn
    have hBelow :
        ∀ child ∈ store.consulted node.kind,
          store.StepsBelow top (depth + 1) child :=
      fun child hChild => hSteps.step_consulted hFind hChild
    have hEach := (List.forall₂_and_left _ _).2 ⟨hBelow, hTypes⟩
    have hTypes :
        List.Forall₂ Eq
          ((store.consulted node.kind).map
            (engine.typeBelow store (depth + 1))) types := by
      rw [List.forall₂_map_left_iff]
      refine hEach.imp ?_
      rintro child type ⟨hChild, hType⟩
      exact (hType (depth + 1) hChild).symm
    rw [List.forall₂_eq_eq_eq] at hTypes
    rw [typeBelow_of_node hDepth hFind, hTypes]

/-
  The type of a call is known by the path of its callee, if
  the path has no more dots than the limit allows.
-/
theorem typeBelow_call
    {callee : NodeId}
    {arguments : List NodeId}
    (hDepth : depth ≤ engine.options.maxDepth)
    (hKind : store.kind? id = some (.call callee arguments)) :
    engine.typeBelow store depth id =
      ((store.calleePath? callee engine.options.maxDepth).bind
        engine.registry.resolve?).getD .unknown := by
  rcases Option.map_eq_some_iff.1 hKind with ⟨node, hFind, hCall⟩
  rw [typeBelow_of_node hDepth hFind, hCall, combine, value_inferCall]

/-
  Where no node below the top is shared, inference is the
  recursion that gives up beyond the limit on depth and keeps
  no record of its visits.  In it a call gets the type of the
  path of its callee, provided that the path has no more
  names than the limit has steps, the first one apart.
-/
theorem infer_eq_typeBelow
    (engine : Engine)
    {store : Store}
    {top : NodeId}
    (hOwned : store.OwnedBelow top) :
    engine.infer store top = engine.typeBelow store 0 top ∧
      ∀ depth i callee arguments,
        depth ≤ engine.options.maxDepth →
        store.kind? i = some (.call callee arguments) →
          (∀ names, store.CalleePath callee names →
            engine.typeBelow store depth i =
              if names.length ≤ engine.options.maxDepth + 1 then
                (engine.registry.resolve?
                  (".".intercalate names)).getD .unknown
              else
                .unknown) ∧
          ((∀ names, ¬ store.CalleePath callee names) →
            engine.typeBelow store depth i = .unknown) := by
  constructor
  · refine (gives_typeBelow hOwned).infer ⟨.here, ?_⟩ 0 .here
    intro j hActive
    simp at hActive
  · intro depth i callee arguments hDepth hKind
    rw [typeBelow_call hDepth hKind]
    constructor
    · intro names hPath
      rw [hPath.calleePath?_eq]
      split <;> rfl
    · intro hNone
      cases hFound : store.calleePath? callee engine.options.maxDepth with
      | none => rfl
      | some path =>
          rcases Store.calleePath?_eq_some_iff.1 hFound with
            ⟨names, hPath, -, -⟩
          exact absurd hPath (hNone names)

/-
  An object with four properties: a name in short, an array of
  a number, and two calls, one with a longer path.
-/
def unshared : Store :=
  ([Kind.identifier "a", .property 1 1 false true false,
    .literal (.number "1") "1", .arrayExpression [some 3],
    .identifier "b", .property 5 4 false false false,
    .identifier "document", .identifier "getElementById",
    .member 7 8 false, .call 9 [],
    .identifier "c", .property 11 10 false false false,
    .identifier "window", .identifier "document",
    .member 13 14 false, .identifier "getElementById",
    .member 15 16 false, .call 17 [],
    .identifier "d", .property 19 18 false false false,
    .objectExpression [2, 6, 12, 20]].zipIdx 1).foldl
      (fun store entry =>
        store.put { id := entry.2, location := { }, kind := entry.1 })
      Store.empty

/- An engine that goes down one step only. -/
def shortsighted : Engine :=
  { options := { maxDepth := 1 } }

/-
  The element of the array is two steps down, and the path of
  the last callee has two dots.
-/
theorem infer_eq_typeBelow_unshared :
    unshared.OwnedBelow 21 ∧
      shortsighted.infer unshared 21 =
        shortsighted.typeBelow unshared 0 21 ∧
      shortsighted.infer unshared 21 =
        .record
          [("a", .unknown), ("b", .array .unknown),
            ("c", .ofText "HTMLElement | null"), ("d", .unknown)] := by
  have hOwned : unshared.OwnedBelow 21 :=
    .of_stored (by decide +kernel) (by decide +kernel)
  exact ⟨hOwned, (infer_eq_typeBelow shortsighted hOwned).1,
    by decide +kernel⟩

end Engine

end ShapeTypes
