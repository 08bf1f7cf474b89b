import Mathlib.Data.List.Forall2
import ShapeTypes.Inference.Engine

/-
  Inference as a walk.

  The type of a node is made of the types of the nodes that
  its kind consults, which are visited in order.  The walk is
  passed on from each visit to the next.

  Key definitions include:
    * `ShapeTypes.Store.consulted`
    * `ShapeTypes.Engine.combine`
    * `ShapeTypes.Engine.visit`
    * `ShapeTypes.Engine.visitAll`
    * `ShapeTypes.Engine.answer?`
    * `ShapeTypes.Engine.Gives`

  Key theorems include:
    * `ShapeTypes.Engine.run_of_answer`
    * `ShapeTypes.Engine.run_of_node`
    * `ShapeTypes.Engine.visit_of_node`
    * `ShapeTypes.Engine.active_visit`
    * `ShapeTypes.Engine.Gives.infer`
-/

------------------------------------------------------------
-- Consulted Nodes
------------------------------------------------------------

namespace ShapeTypes

/- The nodes whose types the type of a kind is made of. -/
def Store.consulted
    (store : Store) :
    Kind → List NodeId
  | .variableDeclaration _ declarations => declarations
  | .variableDeclarator _ _ (some init) => [init]
  | .arrayExpression elements => elements.filterMap id
  | .objectExpression properties =>
      (properties.filterMap store.namedField?).map (·.2)
  | .arrowFunction _ (.expression body) _ => [body]
  | .conditional _ consequent alternate => [consequent, alternate]
  | .binary _ left right => [left, right]
  | _ => []

/-
  A node consults its parts, or the parts of properties among
  them, which consult nothing.
-/
theorem Store.consulted_property_cases
    {store : Store}
    {kind : Kind}
    {child : NodeId}
    (hChild : child ∈ store.consulted kind) :
    child ∈ kind.children ∨
      ∃ property ∈ kind.children, ∃ node,
        store.find? property = some node ∧
          child ∈ node.kind.children ∧ store.consulted node.kind = [] := by
  cases kind with
  | variableDeclaration keyword declarations => exact Or.inl hChild
  | variableDeclarator name type init =>
      cases init with
      | none => simp [consulted] at hChild
      | some init =>
          left
          simp_all [consulted, Kind.children]
  | arrayExpression elements => exact Or.inl hChild
  | objectExpression properties =>
      right
      rcases List.mem_map.1 hChild with ⟨field, hField, rfl⟩
      rcases List.mem_filterMap.1 hField with ⟨property, hProperty, hNamed⟩
      refine ⟨property, hProperty, ?_⟩
      unfold namedField? at hNamed
      split at hNamed
      · rename_i hFind
        rcases Option.map_eq_some_iff.1 hNamed with ⟨name, -, rfl⟩
        exact ⟨_, hFind, by simp [Kind.children], rfl⟩
      · simp at hNamed
  | arrowFunction params body returnType =>
      left
      cases body with
      | expression body =>
          simp_all [consulted, Kind.children, ArrowBody.id]
      | block body => simp [consulted] at hChild
  | conditional test consequent alternate =>
      exact Or.inl (List.mem_cons_of_mem test hChild)
  | binary operator left right => exact Or.inl hChild
  | _ => simp [consulted] at hChild

theorem Store.consulted_cases
    {store : Store}
    {kind : Kind}
    {child : NodeId}
    (hChild : child ∈ store.consulted kind) :
    child ∈ kind.children ∨
      ∃ property ∈ kind.children, child ∈ store.childrenOf property := by
  refine (consulted_property_cases hChild).imp_right ?_
  rintro ⟨property, hProperty, node, hFind, hMem, -⟩
  refine ⟨property, hProperty, ?_⟩
  rwa [childrenOf, hFind]

namespace Engine

/- The type of a kind, from the types of the nodes it consults. -/
def combine
    (engine : Engine)
    (store : Store) :
    Kind → List Descriptor → Descriptor
  | .variableDeclaration _ _, types => .join types
  | .variableDeclarator _ _ (some _), [type] => type
  | .literal value _, _ => literalType value
  | .arrayExpression _, types => arrayType types
  | .objectExpression properties, types =>
      .record
        (((properties.filterMap store.namedField?).map (·.1)).zip types)
  | .arrowFunction params (.expression _) _, [result] =>
      functionType engine.options (store.parameterNames 1 params) result
  | .arrowFunction params (.block _) _, _ =>
      functionType engine.options (store.parameterNames 1 params) .unknown
  | .conditional _ _ _, [consequent, alternate] =>
      branchType engine.options consequent alternate
  | .binary _ _ _, [left, right] => operandType engine.options left right
  | .call callee _, _ => (engine.inferCall store callee).value
  | _, _ => .unknown

variable {walk : Walk} {visit : NodeId → InferM Descriptor}

theorem value_mapM_fields
    (fields : List (String × NodeId)) :
    ((fields.mapM fun field : String × NodeId => do
        let type ← visit field.2
        pure (field.1, type)).run walk).value =
      (((fields.map (·.1)).zip
          (((fields.map (·.2)).mapM visit).run walk).value.1),
        (((fields.map (·.2)).mapM visit).run walk).value.2) := by
  induction fields generalizing walk with
  | nil => rfl
  | cons field fields ih =>
      simp only [List.map_cons, List.mapM_cons, StateT.run_bind,
        StateT.run_pure, Reported.value_bind, Reported.value_pure, ih,
        List.zip_cons_cons]

/- The type of a kind is combined from the nodes it consults. -/
theorem value_inferKind
    (engine : Engine)
    (store : Store)
    (kind : Kind) :
    ((engine.inferKind store visit kind).run walk).value =
      (engine.combine store kind
          (((store.consulted kind).mapM visit).run walk).value.1,
        (((store.consulted kind).mapM visit).run walk).value.2) := by
  cases kind with
  | variableDeclarator name type init =>
      cases init <;> simp [inferKind, Store.consulted, combine]
  | objectExpression properties =>
      simp only [inferKind, Store.consulted, combine, StateT.run_bind,
        StateT.run_pure, Reported.value_bind, Reported.value_pure,
        value_mapM_fields]
  | arrowFunction params body returnType =>
      cases body <;> simp [inferKind, Store.consulted, combine]
  | _ => simp [inferKind, Store.consulted, combine]

end Engine

end ShapeTypes

------------------------------------------------------------
-- Visits
------------------------------------------------------------

namespace ShapeTypes

namespace Engine

variable (engine : Engine) (store : Store)

/- The type of a node, and the walk after it. -/
def visit
    (fuel depth : Nat)
    (id : NodeId)
    (walk : Walk) :
    Descriptor × Walk :=
  ((engine.inferNode store fuel depth id).run walk).value

/- The types of some nodes in order, and the walk after them. -/
def visitAll
    (fuel depth : Nat)
    (ids : List NodeId)
    (walk : Walk) :
    List Descriptor × Walk :=
  ((ids.mapM (engine.inferNode store fuel depth)).run walk).value

/- The type of a node is what a first visit gives. -/
theorem infer_eq_visit
    (id : NodeId) :
    engine.infer store id =
      (engine.visit store (store.size + 1) 0 id { }).1 :=
  rfl

variable {fuel depth : Nat}

@[simp]
theorem visitAll_nil
    (walk : Walk) :
    engine.visitAll store fuel depth [] walk = ([], walk) :=
  rfl

/- The walk goes on where the first visit left it. -/
theorem visitAll_cons
    (id : NodeId)
    (ids : List NodeId)
    (walk : Walk) :
    engine.visitAll store fuel depth (id :: ids) walk =
      ((engine.visit store fuel depth id walk).1 ::
          (engine.visitAll store fuel depth ids
            (engine.visit store fuel depth id walk).2).1,
        (engine.visitAll store fuel depth ids
          (engine.visit store fuel depth id walk).2).2) := by
  simp [visitAll, visit]

theorem length_visitAll
    (ids : List NodeId)
    (walk : Walk) :
    (engine.visitAll store fuel depth ids walk).1.length =
      ids.length := by
  induction ids generalizing walk with
  | nil => rfl
  | cons id ids ih =>
      rw [visitAll_cons, List.length_cons, List.length_cons, ih]

/-
  The type that is given for a node without working it out:
  its type if it is finished, and `unknown` if it is too deep,
  missing or active.
-/
def answer?
    (depth : Nat)
    (id : NodeId)
    (walk : Walk) :
    Option Descriptor :=
  match walk.finished[id]? with
  | some type => some type
  | none =>
      if engine.options.maxDepth < depth ∨
          id ∉ store.nodes ∨ id ∈ walk.active then
        some .unknown
      else
        none

/- Only a new node that is there and not too deep is worked out. -/
theorem answer?_eq_none_iff
    {id : NodeId}
    {walk : Walk} :
    engine.answer? store depth id walk = none ↔
      walk.finished[id]? = none ∧ depth ≤ engine.options.maxDepth ∧
        id ∈ store.nodes ∧ id ∉ walk.active := by
  unfold answer?
  cases walk.finished[id]? with
  | some type => simp
  | none => simp

/- A node with an answer is not worked out. -/
theorem run_of_answer
    {id : NodeId}
    {walk : Walk}
    {type : Descriptor}
    (hAnswer : engine.answer? store depth id walk = some type) :
    let reported := (engine.inferNode store (fuel + 1) depth id).run walk
    reported.value = (type, walk) ∧
      ∃ events : List Event, reported.log = events.map .noted := by
  unfold answer? at hAnswer
  rw [inferNode]
  cases hFinished : walk.finished[id]? with
  | some known =>
      rw [hFinished] at hAnswer
      cases hAnswer
      exact ⟨by simp [hFinished], [], by simp [hFinished]⟩
  | none =>
      simp only [hFinished] at hAnswer
      split at hAnswer
      · cases hAnswer
        by_cases hDeep : engine.options.maxDepth < depth
        · exact ⟨by simp [hFinished, hDeep],
            [.depthReached id], by simp [hFinished, hDeep, Logged.note]⟩
        · rename_i hHalts
          cases hFind : store.find? id with
          | none =>
              exact ⟨by simp [hFinished, hDeep], [],
                by simp [hFinished, hDeep]⟩
          | some node =>
              have hStored := Store.mem_nodes_iff.2 ⟨node, hFind⟩
              have hActive : id ∈ walk.active := by
                simpa [hDeep, hStored] using hHalts
              exact ⟨by simp [hFinished, hDeep, hActive],
                [.selfReference id],
                by simp [hFinished, hDeep, hActive, Logged.note]⟩
      · simp at hAnswer

theorem visit_of_answer
    {id : NodeId}
    {walk : Walk}
    {type : Descriptor}
    (hAnswer : engine.answer? store depth id walk = some type) :
    engine.visit store (fuel + 1) depth id walk = (type, walk) :=
  (engine.run_of_answer store hAnswer).1

/- A node without an answer is entered, worked out and left. -/
theorem run_of_node
    {id : NodeId}
    {node : Node}
    {walk : Walk}
    (hAnswer : engine.answer? store depth id walk = none)
    (hFind : store.find? id = some node) :
    (engine.inferNode store (fuel + 1) depth id).run walk =
      (do
        InferM.entering ⟨depth, id⟩
        let type ←
          engine.inferKind store
            (engine.inferNode store fuel (depth + 1)) node.kind
        modify (·.leave id type)
        pure type : InferM Descriptor).run (walk.enter id) := by
  rcases (engine.answer?_eq_none_iff store).1 hAnswer with
    ⟨hFinished, hDepth, -, hActive⟩
  rw [inferNode]
  simp [hFinished, Nat.not_lt.2 hDepth, hFind, hActive]

/- It is worked out from what it consults. -/
theorem visit_of_node
    {id : NodeId}
    {node : Node}
    {walk : Walk}
    (hAnswer : engine.answer? store depth id walk = none)
    (hFind : store.find? id = some node) :
    engine.visit store (fuel + 1) depth id walk =
      let below :=
        engine.visitAll store fuel (depth + 1)
          (store.consulted node.kind) (walk.enter id)
      let type := engine.combine store node.kind below.1
      (type, below.2.leave id type) := by
  rw [visit, engine.run_of_node store hAnswer hFind]
  simp [value_inferKind, visitAll]

/- What every visit keeps and gives, all visits keep and give. -/
theorem visitAll_run
    (kept : Walk → Prop)
    (good : NodeId → Descriptor → Prop)
    {ids : List NodeId}
    {walk : Walk}
    (hStep :
      ∀ id ∈ ids, ∀ walk, kept walk →
        good id (engine.visit store fuel depth id walk).1 ∧
          kept (engine.visit store fuel depth id walk).2)
    (hWalk : kept walk) :
    List.Forall₂ good ids (engine.visitAll store fuel depth ids walk).1 ∧
      kept (engine.visitAll store fuel depth ids walk).2 := by
  induction ids generalizing walk with
  | nil => exact ⟨.nil, hWalk⟩
  | cons id ids ih =>
      rw [visitAll_cons]
      rcases hStep id (by simp) walk hWalk with ⟨hGood, hKept⟩
      rcases ih (fun i hi => hStep i (List.mem_cons_of_mem id hi)) hKept with
        ⟨hGoods, hLast⟩
      exact ⟨.cons hGood hGoods, hLast⟩

end Engine

end ShapeTypes

------------------------------------------------------------
-- Active Nodes
------------------------------------------------------------

namespace ShapeTypes

namespace Walk

/- A node that was not active before is so no longer when it is left. -/
theorem active_leave_enter
    {walk later : Walk}
    {id : NodeId}
    (hNew : id ∉ walk.active)
    (hLater : later.active = (walk.enter id).active)
    (type : Descriptor) :
    (later.leave id type).active = walk.active := by
  apply Std.ExtTreeSet.ext_mem
  intro i
  rw [leave, hLater, enter, Std.ExtTreeSet.mem_erase, NodeSet.mem_insert]
  by_cases hEq : i = id
  · simp [hEq, hNew]
  · simp [hEq, Ne.symm hEq]

end Walk

namespace Engine

variable (engine : Engine) (store : Store)

/- A visit leaves the active nodes as they were. -/
theorem active_visit
    (fuel depth : Nat)
    (id : NodeId)
    (walk : Walk) :
    (engine.visit store fuel depth id walk).2.active = walk.active := by
  induction fuel generalizing depth id walk with
  | zero => rfl
  | succ fuel ih =>
      cases hAnswer : engine.answer? store depth id walk with
      | some type => rw [engine.visit_of_answer store hAnswer]
      | none =>
          rcases (engine.answer?_eq_none_iff store).1 hAnswer with
            ⟨-, -, hStored, hNew⟩
          rcases Store.mem_nodes_iff.1 hStored with ⟨node, hFind⟩
          rw [engine.visit_of_node store hAnswer hFind]
          refine Walk.active_leave_enter hNew ?_ _
          refine (engine.visitAll_run store
            (·.active = (walk.enter id).active) (fun _ _ => True) ?_ rfl).2
          intro i _ w hw
          exact ⟨trivial, (ih (depth + 1) i w).trans hw⟩

end Engine

end ShapeTypes

------------------------------------------------------------
-- What Visits Give
------------------------------------------------------------

namespace ShapeTypes

/- All finished types are good for their nodes. -/
def Walk.SoundFor
    (walk : Walk)
    (good : NodeId → Descriptor → Prop) : Prop :=
  ∀ id type, walk.finished[id]? = some type → good id type

/- Another good type is finished. -/
theorem Walk.SoundFor.leave
    {walk : Walk}
    {good : NodeId → Descriptor → Prop}
    {id : NodeId}
    {type : Descriptor}
    (hSound : walk.SoundFor good)
    (hType : good id type) :
    (walk.leave id type).SoundFor good := by
  intro i other hFinished
  rw [Walk.leave, Std.ExtTreeMap.getElem?_insert] at hFinished
  split at hFinished
  · rename_i hSame
    rw [Std.LawfulEqCmp.compare_eq_iff_eq] at hSame
    rw [← hSame, ← Option.some.inj hFinished]
    exact hType
  · exact hSound i other hFinished

namespace Engine

/-
  Visits give good types.  The visits that are made are told
  apart by their depth, the active nodes and the node.  Where
  a visit halts, `unknown` is good.  The others make visits
  of the nodes that are consulted, and good types of these
  combine to a good type.
-/
structure Gives
    (engine : Engine)
    (store : Store)
    (made : Nat → NodeSet → NodeId → Prop)
    (good : NodeId → Descriptor → Prop) : Prop where
  halt :
    ∀ {depth active id}, made depth active id →
      (engine.options.maxDepth < depth ∨
        id ∉ store.nodes ∨ id ∈ active) →
        good id .unknown
  below :
    ∀ {depth active id node}, made depth active id →
      store.find? id = some node →
        ∀ child ∈ store.consulted node.kind,
          made (depth + 1) (active.insert id) child
  combine :
    ∀ {depth active id node types}, made depth active id →
      depth ≤ engine.options.maxDepth →
        store.find? id = some node →
          List.Forall₂ good (store.consulted node.kind) types →
            good id (engine.combine store node.kind types)

namespace Gives

variable {engine : Engine} {store : Store}
variable {made : Nat → NodeSet → NodeId → Prop}
variable {good : NodeId → Descriptor → Prop}
variable {depth : Nat} {id : NodeId} {walk : Walk}

/- An answer that is given at once is good. -/
theorem answer
    {type : Descriptor}
    (hGives : engine.Gives store made good)
    (hMade : made depth walk.active id)
    (hSound : walk.SoundFor good)
    (hAnswer : engine.answer? store depth id walk = some type) :
    good id type := by
  unfold answer? at hAnswer
  split at hAnswer
  · rename_i known hFinished
    rw [← Option.some.inj hAnswer]
    exact hSound id known hFinished
  · split at hAnswer
    · rename_i hHalts
      rw [← Option.some.inj hAnswer]
      exact hGives.halt hMade hHalts
    · cases hAnswer

/- A visit gives a good type, and finishes good types only. -/
theorem visit
    {fuel : Nat}
    (hGives : engine.Gives store made good)
    (hMade : made depth walk.active id)
    (hSound : walk.SoundFor good)
    (hFuel : store.unseen walk.active < fuel) :
    good id (engine.visit store fuel depth id walk).1 ∧
      (engine.visit store fuel depth id walk).2.SoundFor good := by
  induction fuel generalizing depth id walk with
  | zero => exact absurd hFuel (Nat.not_lt_zero _)
  | succ fuel ih =>
      cases hAnswer : engine.answer? store depth id walk with
      | some type =>
          rw [engine.visit_of_answer store hAnswer]
          exact ⟨hGives.answer hMade hSound hAnswer, hSound⟩
      | none =>
          rcases (engine.answer?_eq_none_iff store).1 hAnswer with
            ⟨-, hDepth, hStored, hNew⟩
          rcases Store.mem_nodes_iff.1 hStored with ⟨node, hFind⟩
          have hLess :
              store.unseen (walk.enter id).active <
                store.unseen walk.active :=
            Store.unseen_insert_lt hStored hNew
          -- Every visit below starts with the same active nodes.
          have hStep :
              ∀ child ∈ store.consulted node.kind, ∀ w,
                Walk.SoundFor w good ∧
                    w.active = (walk.enter id).active →
                  good child
                      (engine.visit store fuel (depth + 1) child w).1 ∧
                    (engine.visit store fuel (depth + 1)
                        child w).2.SoundFor good ∧
                      (engine.visit store fuel (depth + 1)
                          child w).2.active =
                        (walk.enter id).active := by
            rintro child hChild w ⟨hw, hSame⟩
            have hBelow : made (depth + 1) w.active child := by
              rw [hSame]
              exact hGives.below hMade hFind child hChild
            have hEnough : store.unseen w.active < fuel := by
              rw [hSame]
              omega
            rcases ih hBelow hw hEnough with ⟨hType, hLater⟩
            exact ⟨hType, hLater,
              (engine.active_visit store fuel (depth + 1) child w).trans
                hSame⟩
          have hEntered : (walk.enter id).SoundFor good := hSound
          rcases engine.visitAll_run store _ _ hStep ⟨hEntered, rfl⟩ with
            ⟨hTypes, hLater, -⟩
          rw [engine.visit_of_node store hAnswer hFind]
          have hType := hGives.combine hMade hDepth hFind hTypes
          exact ⟨hType, hLater.leave hType⟩

/- The inferred type is good if its visit is one that is made. -/
theorem infer
    (hGives : engine.Gives store made good)
    (hMade : made 0 ∅ id) :
    good id (engine.infer store id) := by
  rw [infer_eq_visit]
  refine (hGives.visit hMade ?_ ?_).1
  · intro i type hFinished
    simp at hFinished
  · exact Nat.lt_succ_of_le (Nat.le_of_eq store.unseen_empty)

end Gives

end Engine

end ShapeTypes
