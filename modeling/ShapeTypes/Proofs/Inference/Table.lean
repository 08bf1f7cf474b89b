import ShapeTypes.Proofs.Inference.Walk

/-
  Types by the table of kinds alone.

  The rules below give the type of a node from the types of
  its parts, with no limit on depth, no set of active nodes
  and no finished types.  Where no node leads back to itself
  and nothing lies too deep, inference follows the rules.

  Key definitions include:
    * `ShapeTypes.Store.CalleePath`
    * `ShapeTypes.Engine.HasType`
    * `ShapeTypes.Engine.Ranked`
    * `ShapeTypes.Engine.RankedIn`

  Key theorems include:
    * `ShapeTypes.Store.calleePath?_eq_some_iff`
    * `ShapeTypes.Engine.RankedIn.gives`
    * `ShapeTypes.Engine.RankedIn.infer_eq_iff`
-/

------------------------------------------------------------
-- Dotted Paths
------------------------------------------------------------

namespace ShapeTypes

namespace Store

/- The kind of a stored node. -/
def kind?
    (store : Store)
    (id : NodeId) :
    Option Kind :=
  (store.find? id).map (·.kind)

theorem kind?_of_find?
    {store : Store}
    {id : NodeId}
    {node : Node}
    (hFind : store.find? id = some node) :
    store.kind? id = some node.kind := by
  rw [kind?, hFind, Option.map_some]

/-
  The names of a callee: an identifier, or a property of a
  callee by its name.
-/
inductive CalleePath
    (store : Store) :
    NodeId → List String → Prop where
  | identifier {id : NodeId} {name : String}
      (hKind : store.kind? id = some (.identifier name)) :
      CalleePath store id [name]
  | property {id object property : NodeId} {name : String}
      {names : List String}
      (hKind : store.kind? id = some (.member object property false))
      (hName : store.kind? property = some (.identifier name))
      (hObject : CalleePath store object names) :
      CalleePath store id (names ++ [name])

variable {store : Store} {id : NodeId} {names : List String}

theorem identifier?_eq_some_iff
    {name : String} :
    store.identifier? id = some name ↔
      store.kind? id = some (.identifier name) := by
  unfold identifier? kind?
  cases store.find? id with
  | none => simp
  | some node =>
      obtain ⟨_, _, kind, _⟩ := node
      cases kind <;> simp

/- A path that is not too long is found. -/
theorem CalleePath.calleeNames?_eq
    {steps : Nat}
    (hPath : store.CalleePath id names)
    (hLength : names.length ≤ steps)
    (found : List String) :
    store.calleeNames? steps found id = some (names ++ found) := by
  induction hPath generalizing steps found with
  | @identifier id name hKind =>
      obtain ⟨steps, rfl⟩ :=
        Nat.exists_eq_succ_of_ne_zero (Nat.ne_zero_of_lt hLength)
      rcases Option.map_eq_some_iff.1 hKind with
        ⟨⟨_, _, kind, _⟩, hFind, rfl⟩
      simp [calleeNames?, hFind]
  | @property id object property name names hKind hName _ ih =>
      rw [List.length_append, List.length_singleton] at hLength
      obtain ⟨steps, rfl⟩ :=
        Nat.exists_eq_succ_of_ne_zero (Nat.ne_zero_of_lt hLength)
      rcases Option.map_eq_some_iff.1 hKind with
        ⟨⟨_, _, kind, _⟩, hFind, rfl⟩
      simp [calleeNames?, hFind, identifier?_eq_some_iff.2 hName,
        ih (Nat.le_of_succ_le_succ hLength)]

/- What is found is a path that is not too long. -/
theorem exists_calleePath
    {steps : Nat}
    {found path : List String}
    (hNames : store.calleeNames? steps found id = some path) :
    ∃ names, store.CalleePath id names ∧ names.length ≤ steps ∧
      path = names ++ found := by
  induction steps generalizing found id with
  | zero => simp [calleeNames?] at hNames
  | succ steps ih =>
      rw [calleeNames?] at hNames
      split at hNames
      · rename_i name _ hFind
        cases hNames
        exact ⟨[name], .identifier (kind?_of_find? hFind), by simp, rfl⟩
      · rename_i object property _ hFind
        split at hNames
        · rename_i name hName
          rcases ih hNames with ⟨names, hPath, hLength, rfl⟩
          exact ⟨names ++ [name], .property (kind?_of_find? hFind)
            (identifier?_eq_some_iff.1 hName) hPath, by simpa using hLength,
            by simp⟩
        · simp at hNames
      · simp at hNames

/- The dotted path of a callee has at most so many dots. -/
theorem calleePath?_eq_some_iff
    {maxDepth : Nat}
    {path : String} :
    store.calleePath? id maxDepth = some path ↔
      ∃ names, store.CalleePath id names ∧
        names.length ≤ maxDepth + 1 ∧ path = ".".intercalate names := by
  unfold calleePath?
  rw [Option.map_eq_some_iff]
  constructor
  · rintro ⟨found, hFound, rfl⟩
    rcases exists_calleePath hFound with ⟨names, hPath, hLength, rfl⟩
    exact ⟨names, hPath, hLength, by simp⟩
  · rintro ⟨names, hPath, hLength, rfl⟩
    exact ⟨names, by simpa using hPath.calleeNames?_eq hLength [], rfl⟩

end Store

end ShapeTypes

------------------------------------------------------------
-- The Rules
------------------------------------------------------------

namespace ShapeTypes

/- The kinds that no rule but the last is about. -/
def Kind.isPlain : Kind → Bool
  | program _ => true
  | variableDeclarator _ _ none => true
  | expressionStatement _ => true
  | blockStatement _ => true
  | returnStatement _ => true
  | identifier _ => true
  | property _ _ _ _ _ => true
  | spreadElement _ => true
  | parameter _ _ _ => true
  | member _ _ _ => true
  | templateLiteral _ => true
  | unary _ _ => true
  | asExpression _ _ => true
  | ascription _ => true
  | other _ _ => true
  | _ => false

namespace Engine

/-
  The type of a node, from the types of its parts.  A path is
  the name of a call however long it is.
-/
inductive HasType
    (engine : Engine)
    (store : Store) :
    NodeId → Descriptor → Prop where
  | missing {i : NodeId}
      (hFind : store.find? i = none) :
      HasType engine store i .unknown
  | declaration {i : NodeId} {keyword : DeclarationKeyword}
      {declarations : List NodeId} {types : List Descriptor}
      (hKind :
        store.kind? i = some (.variableDeclaration keyword declarations))
      (hTypes : List.Forall₂ (HasType engine store) declarations types) :
      HasType engine store i (.join types)
  | declarator {i name init : NodeId} {ascription : Option NodeId}
      {type : Descriptor}
      (hKind :
        store.kind? i =
          some (.variableDeclarator name ascription (some init)))
      (hType : HasType engine store init type) :
      HasType engine store i type
  | literal {i : NodeId} {value : LiteralValue} {raw : String}
      (hKind : store.kind? i = some (.literal value raw)) :
      HasType engine store i (literalType value)
  | array {i : NodeId} {elements : List (Option NodeId)}
      {types : List Descriptor}
      (hKind : store.kind? i = some (.arrayExpression elements))
      (hTypes :
        List.Forall₂ (HasType engine store) (elements.filterMap id) types) :
      HasType engine store i (arrayType types)
  | object {i : NodeId} {properties : List NodeId}
      {fields : List (String × NodeId)} {types : List Descriptor}
      (hKind : store.kind? i = some (.objectExpression properties))
      (hFields : properties.filterMap store.namedField? = fields)
      (hTypes :
        List.Forall₂ (HasType engine store) (fields.map (·.2)) types) :
      HasType engine store i (.record ((fields.map (·.1)).zip types))
  | expressionArrow {i body : NodeId} {params : List NodeId}
      {ascription : Option NodeId} {result : Descriptor}
      (hKind :
        store.kind? i =
          some (.arrowFunction params (.expression body) ascription))
      (hResult : HasType engine store body result) :
      HasType engine store i
        (functionType engine.options (store.parameterNames 1 params) result)
  | blockArrow {i body : NodeId} {params : List NodeId}
      {ascription : Option NodeId}
      (hKind :
        store.kind? i =
          some (.arrowFunction params (.block body) ascription)) :
      HasType engine store i
        (functionType engine.options (store.parameterNames 1 params)
          .unknown)
  | conditional {i test consequent alternate : NodeId}
      {left right : Descriptor}
      (hKind :
        store.kind? i = some (.conditional test consequent alternate))
      (hLeft : HasType engine store consequent left)
      (hRight : HasType engine store alternate right) :
      HasType engine store i (branchType engine.options left right)
  | binary {i first second : NodeId} {operator : BinaryOperator}
      {left right : Descriptor}
      (hKind : store.kind? i = some (.binary operator first second))
      (hLeft : HasType engine store first left)
      (hRight : HasType engine store second right) :
      HasType engine store i (operandType engine.options left right)
  | call {i callee : NodeId} {arguments : List NodeId}
      {names : List String} {type : Descriptor}
      (hKind : store.kind? i = some (.call callee arguments))
      (hPath : store.CalleePath callee names)
      (hKnown :
        engine.registry.resolve? (".".intercalate names) = some type) :
      HasType engine store i type
  | unknownCall {i callee : NodeId} {arguments : List NodeId}
      (hKind : store.kind? i = some (.call callee arguments))
      (hUnknown :
        ∀ names, store.CalleePath callee names →
          engine.registry.resolve? (".".intercalate names) = none) :
      HasType engine store i .unknown
  | plain {i : NodeId} {kind : Kind}
      (hKind : store.kind? i = some kind)
      (hPlain : kind.isPlain = true) :
      HasType engine store i .unknown

end Engine

end ShapeTypes

------------------------------------------------------------
-- Rules and Combination
------------------------------------------------------------

namespace ShapeTypes

namespace Engine

variable {engine : Engine} {store : Store} {i : NodeId}

/- A call has the type that is known for the path of its callee. -/
theorem value_inferCall
    (engine : Engine)
    (store : Store)
    (callee : NodeId) :
    (engine.inferCall store callee).value =
      ((store.calleePath? callee engine.options.maxDepth).bind
        engine.registry.resolve?).getD .unknown := by
  unfold inferCall
  cases store.calleePath? callee engine.options.maxDepth with
  | none => rfl
  | some path =>
      cases hKnown : engine.registry.resolve? path <;> simp [hKnown]

/- No path is too long to be found. -/
def FindsPaths
    (engine : Engine)
    (store : Store) : Prop :=
  ∀ callee names, store.CalleePath callee names →
    names.length ≤ engine.options.maxDepth + 1

/- If a kind is a call, no path of its callee is too long. -/
def FindsPathsOf
    (engine : Engine)
    (store : Store)
    (kind : Kind) : Prop :=
  ∀ callee arguments, kind = .call callee arguments →
    ∀ names, store.CalleePath callee names →
      names.length ≤ engine.options.maxDepth + 1

/- The rules for calls agree with the search for the path. -/
theorem call_hasType
    {callee : NodeId}
    {arguments : List NodeId}
    (hPaths : engine.FindsPathsOf store (.call callee arguments))
    (hKind : store.kind? i = some (.call callee arguments)) :
    engine.HasType store i (engine.inferCall store callee).value := by
  rw [value_inferCall]
  cases hKnown :
      (store.calleePath? callee engine.options.maxDepth).bind
        engine.registry.resolve? with
  | none =>
      refine .unknownCall hKind fun names hPath => ?_
      have hFound := Store.calleePath?_eq_some_iff.2
        ⟨names, hPath, hPaths callee arguments rfl names hPath, rfl⟩
      rwa [hFound, Option.bind_some] at hKnown
  | some type =>
      rcases Option.bind_eq_some_iff.1 hKnown with ⟨path, hFound, hResolved⟩
      rcases Store.calleePath?_eq_some_iff.1 hFound with
        ⟨names, hPath, -, rfl⟩
      exact .call hKind hPath hResolved

/- Types that the rules give combine to a type that they give. -/
theorem HasType.of_combine
    {node : Node}
    {types : List Descriptor}
    (hPaths : engine.FindsPathsOf store node.kind)
    (hFind : store.find? i = some node)
    (hTypes :
      List.Forall₂ (engine.HasType store) (store.consulted node.kind)
        types) :
    engine.HasType store i (engine.combine store node.kind types) := by
  have hKind := Store.kind?_of_find? hFind
  cases hNode : node.kind with
  | variableDeclaration keyword declarations =>
      rw [hNode] at hKind hTypes
      exact .declaration hKind hTypes
  | variableDeclarator name ascription init =>
      rw [hNode] at hKind hTypes
      cases init with
      | none => exact .plain hKind rfl
      | some init =>
          rcases hTypes with _ | ⟨hType, ⟨⟩⟩
          exact .declarator hKind hType
  | literal value raw =>
      rw [hNode] at hKind
      exact .literal hKind
  | arrayExpression elements =>
      rw [hNode] at hKind hTypes
      exact .array hKind hTypes
  | objectExpression properties =>
      rw [hNode] at hKind hTypes
      exact .object hKind rfl hTypes
  | arrowFunction params body ascription =>
      rw [hNode] at hKind hTypes
      cases body with
      | expression body =>
          rcases hTypes with _ | ⟨hType, ⟨⟩⟩
          exact .expressionArrow hKind hType
      | block body => exact .blockArrow hKind
  | conditional test consequent alternate =>
      rw [hNode] at hKind hTypes
      rcases hTypes with _ | ⟨hLeft, _ | ⟨hRight, ⟨⟩⟩⟩
      exact .conditional hKind hLeft hRight
  | binary operator left right =>
      rw [hNode] at hKind hTypes
      rcases hTypes with _ | ⟨hLeft, _ | ⟨hRight, ⟨⟩⟩⟩
      exact .binary hKind hLeft hRight
  | call callee arguments =>
      rw [hNode] at hKind hPaths
      exact call_hasType hPaths hKind
  | _ =>
      rw [hNode] at hKind
      exact .plain hKind rfl

/- What the rules give for a node is combined by its kind. -/
theorem HasType.exists_combine
    {type : Descriptor}
    (hPaths :
      ∀ kind, store.kind? i = some kind → engine.FindsPathsOf store kind)
    (hType : engine.HasType store i type) :
    (store.find? i = none ∧ type = .unknown) ∨
      ∃ kind types,
        store.kind? i = some kind ∧
          List.Forall₂ (engine.HasType store) (store.consulted kind) types ∧
          type = engine.combine store kind types := by
  cases hType with
  | missing hFind => exact Or.inl ⟨hFind, rfl⟩
  | declaration hKind hTypes => exact Or.inr ⟨_, _, hKind, hTypes, rfl⟩
  | declarator hKind hType =>
      exact Or.inr ⟨_, [type], hKind, .cons hType .nil, rfl⟩
  | literal hKind => exact Or.inr ⟨_, [], hKind, .nil, rfl⟩
  | array hKind hTypes => exact Or.inr ⟨_, _, hKind, hTypes, rfl⟩
  | object hKind hFields hTypes =>
      subst hFields
      exact Or.inr ⟨_, _, hKind, hTypes, rfl⟩
  | @expressionArrow _ body params ascription result hKind hResult =>
      exact Or.inr ⟨_, [result], hKind, .cons hResult .nil, rfl⟩
  | blockArrow hKind => exact Or.inr ⟨_, [], hKind, .nil, rfl⟩
  | @conditional _ _ _ _ left right hKind hLeft hRight =>
      exact Or.inr
        ⟨_, [left, right], hKind, .cons hLeft (.cons hRight .nil), rfl⟩
  | @binary _ _ _ _ left right hKind hLeft hRight =>
      exact Or.inr
        ⟨_, [left, right], hKind, .cons hLeft (.cons hRight .nil), rfl⟩
  | @call _ callee arguments names _ hKind hPath hKnown =>
      refine Or.inr ⟨_, [], hKind, .nil, ?_⟩
      have hLength := hPaths _ hKind callee arguments rfl names hPath
      have hFound := Store.calleePath?_eq_some_iff.2
        ⟨names, hPath, hLength, rfl⟩
      simp [combine, value_inferCall, hFound, hKnown]
  | @unknownCall _ callee _ hKind hUnknown =>
      refine Or.inr ⟨_, [], hKind, .nil, ?_⟩
      rw [combine, value_inferCall]
      cases hFound : store.calleePath? callee engine.options.maxDepth with
      | none => rfl
      | some path =>
          rcases Store.calleePath?_eq_some_iff.1 hFound with
            ⟨names, hPath, -, rfl⟩
          rw [Option.bind_some, hUnknown names hPath]
          rfl
  | @plain _ kind hKind hPlain =>
      refine Or.inr ⟨kind, [], hKind, ?_⟩
      cases kind with
      | variableDeclarator name ascription init =>
          cases init with
          | none => exact ⟨.nil, rfl⟩
          | some init => cases hPlain
      | variableDeclaration | literal | arrayExpression
      | objectExpression | arrowFunction | conditional | binary
      | call => cases hPlain
      | _ => exact ⟨.nil, rfl⟩

end Engine

end ShapeTypes

------------------------------------------------------------
-- Ranked Stores
------------------------------------------------------------

namespace ShapeTypes

namespace Engine

/-
  Every node has a rank above those of the nodes it consults,
  no rank is beyond the limit on depth, and no path is too
  long.
-/
structure Ranked
    (engine : Engine)
    (store : Store)
    (rank : NodeId → Nat) : Prop where
  consulted :
    ∀ {i kind}, store.kind? i = some kind →
      ∀ child ∈ store.consulted kind, rank child < rank i
  limit : ∀ i, rank i ≤ engine.options.maxDepth
  paths : engine.FindsPaths store

/-
  Some nodes consult each other only.  Each has a rank above
  those that it consults, and if it is a call, no path of its
  callee is too long.
-/
structure RankedIn
    (engine : Engine)
    (store : Store)
    (inside : NodeId → Prop)
    (rank : NodeId → Nat) : Prop where
  closed :
    ∀ {i kind}, inside i → store.kind? i = some kind →
      ∀ child ∈ store.consulted kind, inside child
  consulted :
    ∀ {i kind}, inside i → store.kind? i = some kind →
      ∀ child ∈ store.consulted kind, rank child < rank i
  paths :
    ∀ {i kind}, inside i → store.kind? i = some kind →
      engine.FindsPathsOf store kind

namespace RankedIn

variable {engine : Engine} {store : Store}
variable {inside : NodeId → Prop} {rank : NodeId → Nat}
variable {i : NodeId}

/- Types are unique if each of them is. -/
theorem forall₂_unique
    {ids : List NodeId}
    {first second : List Descriptor}
    (hUnique :
      ∀ j ∈ ids, ∀ s t, engine.HasType store j s →
        engine.HasType store j t → s = t)
    (hFirst : List.Forall₂ (engine.HasType store) ids first)
    (hSecond : List.Forall₂ (engine.HasType store) ids second) :
    first = second := by
  induction hFirst generalizing second with
  | nil =>
      cases hSecond
      rfl
  | cons hHead _ ih =>
      cases hSecond with
      | cons hOther hTail =>
          rw [List.forall_mem_cons] at hUnique
          rw [hUnique.1 _ _ hHead hOther, ih hUnique.2 hTail]

theorem hasType_unique
    {first second : Descriptor}
    (hRanked : engine.RankedIn store inside rank)
    (hInside : inside i)
    (hFirst : engine.HasType store i first)
    (hSecond : engine.HasType store i second) :
    first = second := by
  induction hRank : rank i using Nat.strongRecOn
    generalizing i first second with
  | ind n ih =>
      subst hRank
      have hPaths :
          ∀ kind, store.kind? i = some kind →
            engine.FindsPathsOf store kind :=
        fun _ => hRanked.paths hInside
      rcases hFirst.exists_combine hPaths with
        ⟨hFind, rfl⟩ | ⟨kind, types, hKind, hTypes, rfl⟩
      · rcases hSecond.exists_combine hPaths with
          ⟨-, rfl⟩ | ⟨_, _, hKind, -, -⟩
        · rfl
        · simp [Store.kind?, hFind] at hKind
      · rcases hSecond.exists_combine hPaths with
          ⟨hFind, -⟩ | ⟨other, others, hOther, hOthers, rfl⟩
        · simp [Store.kind?, hFind] at hKind
        · obtain rfl : kind = other :=
            Option.some.inj (hKind.symm.trans hOther)
          have hSame : types = others := by
            refine forall₂_unique ?_ hTypes hOthers
            intro j hj s t hs ht
            exact ih (rank j) (hRanked.consulted hInside hKind j hj)
              (hRanked.closed hInside hKind j hj) hs ht rfl
          rw [hSame]

/-
  Visits of these nodes give types by the rules, as long as
  the ranks fit below the limit on depth.  Active nodes have
  higher ranks, so that none of them is met again.
-/
theorem gives
    (hRanked : engine.RankedIn store inside rank) :
    engine.Gives store
      (fun depth active i =>
        inside i ∧ depth + rank i ≤ engine.options.maxDepth ∧
          ∀ j ∈ active, rank i < rank j)
      (engine.HasType store) := by
  constructor
  · rintro depth active i ⟨-, hDepth, hActive⟩ hHalts
    rcases hHalts with hDeep | hMissing | hCircle
    · omega
    · refine .missing ?_
      rw [Store.mem_nodes_iff] at hMissing
      rwa [Option.eq_none_iff_forall_ne_some, ← not_exists]
    · exact absurd (hActive i hCircle) (Nat.lt_irrefl _)
  · rintro depth active i node ⟨hInside, hDepth, hActive⟩ hFind child hChild
    have hKind := Store.kind?_of_find? hFind
    have hRank := hRanked.consulted hInside hKind child hChild
    refine ⟨hRanked.closed hInside hKind child hChild, by omega, ?_⟩
    intro j hj
    rcases NodeSet.mem_insert.1 hj with rfl | hj
    · exact hRank
    · exact Nat.lt_trans hRank (hActive j hj)
  · rintro depth active i node types ⟨hInside, -, -⟩ - hFind hTypes
    have hKind := Store.kind?_of_find? hFind
    exact .of_combine (hRanked.paths hInside hKind) hFind hTypes

/- Inference gives the type that the rules give. -/
theorem infer_eq_iff
    {type : Descriptor}
    (hRanked : engine.RankedIn store inside rank)
    (hInside : inside i)
    (hLimit : rank i ≤ engine.options.maxDepth) :
    engine.infer store i = type ↔ engine.HasType store i type := by
  have hInfer : engine.HasType store i (engine.infer store i) := by
    apply hRanked.gives.infer
    refine ⟨hInside, by omega, ?_⟩
    intro j hActive
    simp at hActive
  constructor
  · rintro rfl
    exact hInfer
  · exact hRanked.hasType_unique hInside hInfer

end RankedIn

/- Inference gives the type that the rules give, for all nodes. -/
theorem Ranked.infer_eq_iff
    {engine : Engine}
    {store : Store}
    {rank : NodeId → Nat}
    {i : NodeId}
    {type : Descriptor}
    (hRanked : engine.Ranked store rank) :
    engine.infer store i = type ↔ engine.HasType store i type := by
  have hAll : engine.RankedIn store (fun _ => True) rank :=
    ⟨fun _ _ _ _ => trivial, fun _ => hRanked.consulted,
      fun _ _ callee _ _ => hRanked.paths callee⟩
  exact hAll.infer_eq_iff trivial (hRanked.limit i)

end Engine

end ShapeTypes
