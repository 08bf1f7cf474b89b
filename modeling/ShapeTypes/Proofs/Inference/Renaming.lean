import ShapeTypes.Proofs.Inference.Walk

/-
  Inference does not depend on ids.

  Two stores that hold the same kinds up to a renaming of the
  ids give the same types.  Nothing is said about the nodes
  outside of what the renaming is about, or about spans and
  parents.

  Key definitions include:
    * `ShapeTypes.Store.Renames`
    * `ShapeTypes.Walk.Renames`

  Key theorems include:
    * `ShapeTypes.Engine.combine_rename`
    * `ShapeTypes.Engine.visit_rename`
    * `ShapeTypes.Engine.infer_rename`
-/

------------------------------------------------------------
-- Renamed Stores
------------------------------------------------------------

namespace ShapeTypes

namespace Store

/-
  The ids inside some set are renamed in another store, where
  they have the same kinds.  The set has the parts of its
  nodes.
-/
structure Renames
    (store other : Store)
    (f : NodeId → NodeId)
    (inside : NodeId → Prop) : Prop where
  injective : ∀ {i j}, inside i → inside j → f i = f j → i = j
  kind :
    ∀ {i}, inside i →
      (other.find? (f i)).map (·.kind) =
        (store.find? i).map (·.kind.map f)
  closed :
    ∀ {i child}, inside i → child ∈ store.childrenOf i → inside child

namespace Renames

variable {store other : Store} {f : NodeId → NodeId}
variable {inside : NodeId → Prop}
variable {i : NodeId}

/- An id is missing in both stores, or has its kind in both. -/
theorem find?_cases
    (hRenames : store.Renames other f inside)
    (hInside : inside i) :
    (store.find? i = none ∧ other.find? (f i) = none) ∨
      ∃ node id location parent,
        store.find? i = some node ∧
          other.find? (f i) =
            some ⟨id, location, node.kind.map f, parent⟩ := by
  have hKind := hRenames.kind hInside
  cases hFind : store.find? i with
  | none =>
      rw [hFind, Option.map_none, Option.map_eq_none_iff] at hKind
      exact Or.inl ⟨rfl, hKind⟩
  | some node =>
      rw [hFind, Option.map_some, Option.map_eq_some_iff] at hKind
      rcases hKind with ⟨⟨id, location, kind, parent⟩, hOther, rfl⟩
      exact Or.inr ⟨node, id, location, parent, rfl, hOther⟩

/- The parts of a node inside the set are inside. -/
theorem inside_children
    {node : Node}
    (hRenames : store.Renames other f inside)
    (hInside : inside i)
    (hFind : store.find? i = some node) :
    ∀ child ∈ node.kind.children, inside child := by
  intro child hChild
  refine hRenames.closed hInside ?_
  simpa [childrenOf, hFind] using hChild

theorem identifier?
    (hRenames : store.Renames other f inside)
    (hInside : inside i) :
    other.identifier? (f i) = store.identifier? i := by
  unfold Store.identifier?
  rcases hRenames.find?_cases hInside with
    ⟨hStore, hOther⟩ | ⟨⟨_, _, kind, _⟩, _, _, _, hStore, hOther⟩
  · rw [hStore, hOther]
  · rw [hStore, hOther]
    cases kind <;> rfl

theorem keyName?
    (hRenames : store.Renames other f inside)
    (hInside : inside i)
    (computed : Bool) :
    other.keyName? (f i) computed = store.keyName? i computed := by
  unfold Store.keyName?
  rcases hRenames.find?_cases hInside with
    ⟨hStore, hOther⟩ | ⟨⟨_, _, kind, _⟩, _, _, _, hStore, hOther⟩
  · rw [hStore, hOther]
  · rw [hStore, hOther]
    cases kind with
    | literal value raw => cases value <;> rfl
    | _ => rfl

/- A property keeps its name, and its value is renamed. -/
theorem namedField?
    (hRenames : store.Renames other f inside)
    (hInside : inside i) :
    other.namedField? (f i) =
      (store.namedField? i).map (Prod.map id f) := by
  unfold Store.namedField?
  rcases hRenames.find?_cases hInside with
    ⟨hStore, hOther⟩ | ⟨⟨_, _, kind, _⟩, _, _, _, hStore, hOther⟩
  · rw [hStore, hOther]
    rfl
  · have hParts := hRenames.inside_children hInside hStore
    rw [hStore, hOther]
    cases kind with
    | property key value computed shorthand method =>
        have hKey := hRenames.keyName? (hParts key (by simp [Kind.children]))
        simp only [Kind.map, hKey, Option.map_map]
        rfl
    | _ => rfl

theorem parameterName?
    (hRenames : store.Renames other f inside)
    (hInside : inside i) :
    other.parameterName? (f i) = store.parameterName? i := by
  have hIdentifier := hRenames.identifier? hInside
  unfold Store.parameterName?
  rcases hRenames.find?_cases hInside with
    ⟨hStore, hOther⟩ | ⟨⟨_, _, kind, _⟩, _, _, _, hStore, hOther⟩
  · rw [hStore, hOther]
    exact hIdentifier
  · have hParts := hRenames.inside_children hInside hStore
    rw [hStore, hOther]
    cases kind with
    | parameter pattern type default =>
        exact hRenames.identifier? (hParts pattern (by simp [Kind.children]))
    | _ => exact hIdentifier

theorem parameterNames
    {params : List NodeId}
    (hRenames : store.Renames other f inside)
    (hInside : ∀ param ∈ params, inside param)
    (position : Nat) :
    other.parameterNames position (params.map f) =
      store.parameterNames position params := by
  induction params generalizing position with
  | nil => rfl
  | cons param params ih =>
      rw [List.forall_mem_cons] at hInside
      rw [List.map_cons, Store.parameterNames, Store.parameterNames,
        hRenames.parameterName? hInside.1, ih hInside.2]

theorem calleeNames?
    (hRenames : store.Renames other f inside)
    (hInside : inside i)
    (steps : Nat)
    (found : List String) :
    other.calleeNames? steps found (f i) =
      store.calleeNames? steps found i := by
  induction steps generalizing found i with
  | zero => rfl
  | succ steps ih =>
      unfold Store.calleeNames?
      rcases hRenames.find?_cases hInside with
        ⟨hStore, hOther⟩ | ⟨⟨_, _, kind, _⟩, _, _, _, hStore, hOther⟩
      · rw [hStore, hOther]
      · have hParts := hRenames.inside_children hInside hStore
        rw [hStore, hOther]
        cases kind with
        | member object name computed =>
            have hObject := hParts object (by simp [Kind.children])
            have hName :=
              hRenames.identifier? (hParts name (by simp [Kind.children]))
            cases computed with
            | true => rfl
            | false =>
                simp only [Kind.map, hName, ih hObject]
        | _ => rfl

end Renames

end Store

end ShapeTypes

------------------------------------------------------------
-- Renamed Parts
------------------------------------------------------------

namespace ShapeTypes

variable {store other : Store} {f : NodeId → NodeId}
variable {inside : NodeId → Prop} {kind : Kind}

namespace Store

namespace Renames

/- The fields of an object keep their names. -/
theorem namedFields
    {properties : List NodeId}
    (hRenames : store.Renames other f inside)
    (hInside : ∀ property ∈ properties, inside property) :
    (properties.map f).filterMap other.namedField? =
      (properties.filterMap store.namedField?).map (Prod.map id f) := by
  rw [List.filterMap_map, List.map_filterMap]
  exact List.filterMap_congr fun property hProperty =>
    hRenames.namedField? (hInside property hProperty)

/- The consulted nodes are renamed. -/
theorem consulted
    (hRenames : store.Renames other f inside)
    (hInside : ∀ child ∈ kind.children, inside child) :
    other.consulted (kind.map f) = (store.consulted kind).map f := by
  cases kind with
  | variableDeclarator name type init => cases init <;> rfl
  | arrayExpression elements =>
      simp only [Kind.map, Store.consulted, List.filterMap_map,
        List.map_filterMap]
      rfl
  | objectExpression properties =>
      have hFields :
          (properties.map f).filterMap other.namedField? = _ :=
        hRenames.namedFields hInside
      simp only [Kind.map, Store.consulted, hFields, List.map_map]
      rfl
  | arrowFunction params body returnType => cases body <;> rfl
  | _ => rfl

theorem inside_consulted
    (hRenames : store.Renames other f inside)
    (hInside : ∀ child ∈ kind.children, inside child) :
    ∀ id ∈ store.consulted kind, inside id := by
  intro id hId
  rcases consulted_cases hId with hPart | ⟨property, hProperty, hPart⟩
  · exact hInside id hPart
  · exact hRenames.closed (hInside property hProperty) hPart

end Renames

end Store

namespace Engine

theorem inferCall_rename
    {callee : NodeId}
    (engine : Engine)
    (hRenames : store.Renames other f inside)
    (hInside : inside callee) :
    engine.inferCall other (f callee) = engine.inferCall store callee := by
  unfold inferCall Store.calleePath?
  rw [hRenames.calleeNames? hInside]

/- The types of the consulted nodes combine to the same type. -/
theorem combine_rename
    (engine : Engine)
    (hRenames : store.Renames other f inside)
    (hInside : ∀ child ∈ kind.children, inside child)
    (types : List Descriptor) :
    engine.combine other (kind.map f) types =
      engine.combine store kind types := by
  cases kind with
  | variableDeclarator name type init =>
      cases init with
      | none => rfl
      | some init => rcases types with _ | ⟨_, _ | _⟩ <;> rfl
  | objectExpression properties =>
      have hFields :
          (properties.map f).filterMap other.namedField? = _ :=
        hRenames.namedFields hInside
      simp only [Kind.map, combine, hFields, List.map_map]
      rfl
  | arrowFunction params body returnType =>
      have hParams : ∀ param ∈ params, inside param := by
        intro param hParam
        exact hInside param (by simp [Kind.children, hParam])
      have hNames := hRenames.parameterNames hParams 1
      cases body with
      | expression body =>
          rcases types with _ | ⟨_, _ | _⟩
          · rfl
          · simp only [Kind.map, ArrowBody.map, combine, hNames]
          · rfl
      | block body => simp only [Kind.map, ArrowBody.map, combine, hNames]
  | conditional test consequent alternate =>
      rcases types with _ | ⟨_, _ | ⟨_, _ | _⟩⟩ <;> rfl
  | binary operator left right =>
      rcases types with _ | ⟨_, _ | ⟨_, _ | _⟩⟩ <;> rfl
  | call callee arguments =>
      have hCall := engine.inferCall_rename hRenames
        (hInside callee (by simp [Kind.children]))
      simp only [Kind.map, combine, hCall]
  | _ => rfl

end Engine

end ShapeTypes

------------------------------------------------------------
-- Renamed Walks
------------------------------------------------------------

namespace ShapeTypes

variable {store other : Store} {f : NodeId → NodeId}
variable {inside : NodeId → Prop}

namespace Walk

/- Two walks are in the same state, up to a renaming. -/
structure Renames
    (walk other : Walk)
    (f : NodeId → NodeId)
    (inside : NodeId → Prop) : Prop where
  active : ∀ {i}, inside i → (f i ∈ other.active ↔ i ∈ walk.active)
  finished : ∀ {i}, inside i → other.finished[f i]? = walk.finished[i]?

namespace Renames

variable {walk walk' : Walk} {id : NodeId}

theorem enter
    (hStore : store.Renames other f inside)
    (hWalk : walk.Renames walk' f inside)
    (hInside : inside id) :
    (walk.enter id).Renames (walk'.enter (f id)) f inside := by
  refine ⟨?_, hWalk.finished⟩
  intro i hi
  rw [Walk.enter, Walk.enter, NodeSet.mem_insert, NodeSet.mem_insert,
    hWalk.active hi]
  exact or_congr_left ⟨hStore.injective hi hInside, congrArg f⟩

theorem leave
    (hStore : store.Renames other f inside)
    (hWalk : walk.Renames walk' f inside)
    (hInside : inside id)
    (type : Descriptor) :
    (walk.leave id type).Renames (walk'.leave (f id) type) f inside := by
  have hSame : ∀ {i}, inside i → (f id = f i ↔ id = i) := fun hi =>
    ⟨hStore.injective hInside hi, congrArg f⟩
  constructor
  · intro i hi
    simp [Walk.leave, Std.ExtTreeSet.mem_erase, hSame hi, hWalk.active hi]
  · intro i hi
    simp [Walk.leave, Std.ExtTreeMap.getElem?_insert, hSame hi,
      hWalk.finished hi]

end Renames

end Walk

namespace Engine

/- What two runs of every visit keep, two runs of all visits keep. -/
theorem visitAll_related
    (engine : Engine)
    (fuel fuel' depth : Nat)
    (related : Walk → Walk → Prop)
    {ids : List NodeId}
    {walk walk' : Walk}
    (hStep :
      ∀ id ∈ ids, ∀ walk walk', related walk walk' →
        (engine.visit other fuel' depth (f id) walk').1 =
            (engine.visit store fuel depth id walk).1 ∧
          related (engine.visit store fuel depth id walk).2
            (engine.visit other fuel' depth (f id) walk').2)
    (hWalk : related walk walk') :
    (engine.visitAll other fuel' depth (ids.map f) walk').1 =
        (engine.visitAll store fuel depth ids walk).1 ∧
      related (engine.visitAll store fuel depth ids walk).2
        (engine.visitAll other fuel' depth (ids.map f) walk').2 := by
  induction ids generalizing walk walk' with
  | nil => exact ⟨rfl, hWalk⟩
  | cons id ids ih =>
      rw [List.map_cons, visitAll_cons, visitAll_cons]
      rcases hStep id (by simp) walk walk' hWalk with ⟨hType, hNext⟩
      rcases ih (fun i hi => hStep i (List.mem_cons_of_mem id hi)) hNext with
        ⟨hTypes, hLast⟩
      exact ⟨by rw [hType, hTypes], hLast⟩

/- A node has the same answer in both stores. -/
theorem answer?_rename
    (engine : Engine)
    {walk walk' : Walk}
    {id : NodeId}
    (hStore : store.Renames other f inside)
    (hWalk : walk.Renames walk' f inside)
    (hInside : inside id)
    (depth : Nat) :
    engine.answer? other depth (f id) walk' =
      engine.answer? store depth id walk := by
  have hStored : f id ∈ other.nodes ↔ id ∈ store.nodes := by
    rw [Store.mem_nodes_iff, Store.mem_nodes_iff]
    rcases hStore.find?_cases hInside with
      ⟨hFind, hFind'⟩ | ⟨node, _, _, _, hFind, hFind'⟩
    · simp [hFind, hFind']
    · simp [hFind, hFind']
  simp only [answer?, hWalk.finished hInside, hWalk.active hInside, hStored]

/-
  A visit gives the same type in both stores, as long as both
  have fuel for all nodes that are not active.
-/
theorem visit_rename
    (engine : Engine)
    {fuel fuel' : Nat}
    {walk walk' : Walk}
    {id : NodeId}
    (hStore : store.Renames other f inside)
    (hWalk : walk.Renames walk' f inside)
    (hInside : inside id)
    (hFuel : store.unseen walk.active < fuel)
    (hFuel' : other.unseen walk'.active < fuel')
    (depth : Nat) :
    (engine.visit other fuel' depth (f id) walk').1 =
        (engine.visit store fuel depth id walk).1 ∧
      (engine.visit store fuel depth id walk).2.Renames
        (engine.visit other fuel' depth (f id) walk').2 f inside := by
  induction fuel generalizing fuel' walk walk' id depth with
  | zero => exact absurd hFuel (Nat.not_lt_zero _)
  | succ fuel ih =>
      obtain ⟨fuel', rfl⟩ := Nat.exists_eq_succ_of_ne_zero
        (Nat.ne_zero_of_lt hFuel')
      have hSame := engine.answer?_rename hStore hWalk hInside depth
      cases hAnswer : engine.answer? store depth id walk with
      | some type =>
          rw [engine.visit_of_answer store hAnswer,
            engine.visit_of_answer other (hSame.trans hAnswer)]
          exact ⟨rfl, hWalk⟩
      | none =>
          rcases (engine.answer?_eq_none_iff store).1 hAnswer with
            ⟨-, -, hStored, hNew⟩
          rcases (engine.answer?_eq_none_iff other).1
              (hSame.trans hAnswer) with
            ⟨-, -, hStored', hNew'⟩
          rcases hStore.find?_cases hInside with
            ⟨hFind, -⟩ | ⟨node, _, _, _, hFind, hFind'⟩
          · simp [Store.mem_nodes_iff, hFind] at hStored
          have hParts := hStore.inside_children hInside hFind
          have hLess :
              store.unseen (walk.enter id).active <
                store.unseen walk.active :=
            Store.unseen_insert_lt hStored hNew
          have hLess' :
              other.unseen (walk'.enter (f id)).active <
                other.unseen walk'.active :=
            Store.unseen_insert_lt hStored' hNew'
          have hBelow := engine.visitAll_related fuel fuel' (depth + 1)
            (fun w w' => w.Renames w' f inside ∧
              w.active = (walk.enter id).active ∧
                w'.active = (walk'.enter (f id)).active)
            (fun i hi w w' hw =>
              have hVisit := ih hw.1 (hStore.inside_consulted hParts i hi)
                (by rw [hw.2.1]; omega) (by rw [hw.2.2]; omega) (depth + 1)
              ⟨hVisit.1, hVisit.2, (engine.active_visit ..).trans hw.2.1,
                (engine.active_visit ..).trans hw.2.2⟩)
            ⟨hWalk.enter hStore hInside, rfl, rfl⟩
          rw [engine.visit_of_node store hAnswer hFind,
            engine.visit_of_node other (hSame.trans hAnswer) hFind']
          simp only [hStore.consulted hParts,
            engine.combine_rename hStore hParts, hBelow.1]
          exact ⟨trivial, hBelow.2.1.leave hStore hInside _⟩

/- A node has the same type in both stores. -/
theorem infer_rename
    (engine : Engine)
    {id : NodeId}
    (hStore : store.Renames other f inside)
    (hInside : inside id) :
    engine.infer other (f id) = engine.infer store id := by
  rw [infer_eq_visit, infer_eq_visit]
  refine (engine.visit_rename hStore ⟨?_, ?_⟩ hInside ?_ ?_ 0).1
  · intro i _
    simp
  · intro i _
    simp
  · exact Nat.lt_succ_of_le (Nat.le_of_eq store.unseen_empty)
  · exact Nat.lt_succ_of_le (Nat.le_of_eq other.unseen_empty)

end Engine

end ShapeTypes
