import ShapeTypes.Proofs.Inference.Limit

/-
  How often nodes are worked out.

  Inference reports every node that it enters, and the
  entries of a walk are read off its report.  A run says what
  visits do, one after the other, with no bound on their
  number: a node that has an answer is passed over, and any
  other is entered, together with the nodes that it consults.
  Every run comes to an end, because the stored nodes that
  are not active get fewer with each entry.  It leaves the
  active nodes as they were, and finishes the nodes that it
  enters, each of them once.

  Key definitions include:
    * `ShapeTypes.InferM.entries`
    * `ShapeTypes.Engine.Runs`
    * `ShapeTypes.Walk.Extends`
    * `ShapeTypes.Engine.Accounts`

  Key theorems include:
    * `ShapeTypes.Engine.entries_inferKind`
    * `ShapeTypes.Walk.Extends.entered`
    * `ShapeTypes.Engine.Runs.extended`
    * `ShapeTypes.Engine.exists_runs`
    * `ShapeTypes.Engine.Runs.followed`
    * `ShapeTypes.Engine.inferNode_enters_once`
-/

------------------------------------------------------------
-- Reported Entries
------------------------------------------------------------

namespace ShapeTypes

namespace InferM

variable {α β : Type}

/- The nodes that are entered on the way, in order. -/
def entries
    (x : InferM α)
    (walk : Walk) :
    List Walk.Entry :=
  (x.run walk).log.filterMap Walk.Step.entry?

@[simp]
theorem entries_pure
    (a : α)
    (walk : Walk) :
    (pure a : InferM α).entries walk = [] :=
  rfl

/- What comes second starts from the walk that is left to it. -/
@[simp]
theorem entries_bind
    (x : InferM α)
    (f : α → InferM β)
    (walk : Walk) :
    (x >>= f).entries walk =
      x.entries walk ++
        (f (x.run walk).value.1).entries (x.run walk).value.2 := by
  simp [entries]

@[simp]
theorem entries_map
    (f : α → β)
    (x : InferM α)
    (walk : Walk) :
    (f <$> x).entries walk = x.entries walk := by
  simp [entries]

@[simp]
theorem entries_monadLift
    (x : Logged α)
    (walk : Walk) :
    (monadLift x : InferM α).entries walk = [] := by
  simp [entries, Walk.Step.entry?]

@[simp]
theorem entries_entering
    (entry : Walk.Entry)
    (walk : Walk) :
    (entering entry).entries walk = [entry] :=
  rfl

@[simp]
theorem entries_modify
    (f : Walk → Walk)
    (walk : Walk) :
    (modify f : InferM PUnit).entries walk = [] :=
  rfl

end InferM

namespace Engine

variable {walk : Walk} {visit : NodeId → InferM Descriptor}

theorem entries_mapM_fields
    (fields : List (String × NodeId)) :
    (fields.mapM fun field : String × NodeId => do
        let type ← visit field.2
        pure (field.1, type)).entries walk =
      ((fields.map (·.2)).mapM visit).entries walk := by
  induction fields generalizing walk with
  | nil => rfl
  | cons field fields ih =>
      simp only [List.map_cons, List.mapM_cons, InferM.entries_bind,
        InferM.entries_pure, StateT.run_bind, StateT.run_pure,
        Reported.value_bind, Reported.value_pure, List.append_nil, ih]

/- A kind enters the nodes that it consults. -/
theorem entries_inferKind
    (engine : Engine)
    (store : Store)
    (kind : Kind) :
    (engine.inferKind store visit kind).entries walk =
      ((store.consulted kind).mapM visit).entries walk := by
  cases kind with
  | variableDeclarator name type init =>
      cases init <;> simp [inferKind, Store.consulted]
  | objectExpression properties =>
      simp only [inferKind, Store.consulted, InferM.entries_bind,
        InferM.entries_pure, entries_mapM_fields, List.append_nil]
  | arrowFunction params body returnType =>
      cases body <;> simp [inferKind, Store.consulted]
  | _ => simp [inferKind, Store.consulted]

variable (engine : Engine) (store : Store) {fuel depth : Nat} {id : NodeId}

theorem entries_mapM_cons
    (ids : List NodeId) :
    ((id :: ids).mapM (engine.inferNode store fuel depth)).entries walk =
      (engine.inferNode store fuel depth id).entries walk ++
        (ids.mapM (engine.inferNode store fuel depth)).entries
          (engine.visit store fuel depth id walk).2 := by
  simp [List.mapM_cons, visit]

/- A node with an answer is not entered. -/
theorem entries_of_answer
    {type : Descriptor}
    (hAnswer : engine.answer? store depth id walk = some type) :
    (engine.inferNode store (fuel + 1) depth id).entries walk = [] := by
  rcases (engine.run_of_answer store hAnswer).2 with ⟨events, hLog⟩
  rw [InferM.entries, hLog]
  simp [Walk.Step.entry?]

/- A node without an answer is entered before what it consults. -/
theorem entries_of_node
    {node : Node}
    (hAnswer : engine.answer? store depth id walk = none)
    (hFind : store.find? id = some node) :
    (engine.inferNode store (fuel + 1) depth id).entries walk =
      ⟨depth, id⟩ ::
        ((store.consulted node.kind).mapM
          (engine.inferNode store fuel (depth + 1))).entries
            (walk.enter id) := by
  rw [InferM.entries, engine.run_of_node store hAnswer hFind,
    ← InferM.entries]
  simp [entries_inferKind]

end Engine

end ShapeTypes

------------------------------------------------------------
-- Runs
------------------------------------------------------------

namespace ShapeTypes

namespace Engine

/-
  Visits of some nodes in order: the types that they give, the
  walk after them, and the nodes that are entered on the way.
-/
inductive Runs
    (engine : Engine)
    (store : Store) :
    Nat → List NodeId → Walk →
      List Descriptor → Walk → List Walk.Entry → Prop where
  | done {depth : Nat} {walk : Walk} :
      Runs engine store depth [] walk [] walk []
  | answered {depth : Nat} {id : NodeId} {ids : List NodeId}
      {walk later : Walk} {type : Descriptor} {types : List Descriptor}
      {entries : List Walk.Entry}
      (hAnswer : engine.answer? store depth id walk = some type)
      (hRest : Runs engine store depth ids walk types later entries) :
      Runs engine store depth (id :: ids) walk (type :: types) later entries
  | entered {depth : Nat} {id : NodeId} {ids : List NodeId} {node : Node}
      {walk below later : Walk} {parts types : List Descriptor}
      {inner outer : List Walk.Entry}
      (hAnswer : engine.answer? store depth id walk = none)
      (hFind : store.find? id = some node)
      (hBelow :
        Runs engine store (depth + 1) (store.consulted node.kind)
          (walk.enter id) parts below inner)
      (hRest :
        Runs engine store depth ids
          (below.leave id (engine.combine store node.kind parts))
          types later outer) :
      Runs engine store depth (id :: ids) walk
        (engine.combine store node.kind parts :: types) later
        (⟨depth, id⟩ :: (inner ++ outer))

end Engine

end ShapeTypes

------------------------------------------------------------
-- Bookkeeping
------------------------------------------------------------

namespace ShapeTypes

namespace Walk

/-
  One walk goes on to another: the active nodes are the same,
  and some new stored nodes are finished, all different.
-/
structure Extends
    (store : Store)
    (walk : Walk)
    (ids : List NodeId)
    (later : Walk) : Prop where
  active : later.active = walk.active
  kept : ∀ i, i ∉ ids → later.finished[i]? = walk.finished[i]?
  added : ∀ i ∈ ids, i ∈ later.finished
  fresh :
    ∀ i ∈ ids, i ∈ store.nodes ∧ i ∉ walk.active ∧ i ∉ walk.finished
  nodup : ids.Nodup

variable {store : Store} {walk middle below later : Walk}
variable {id : NodeId} {ids others : List NodeId}

namespace Extends

theorem refl
    (store : Store)
    (walk : Walk) :
    walk.Extends store [] walk :=
  ⟨rfl, fun _ _ => rfl, List.forall_mem_nil _, List.forall_mem_nil _,
    .nil⟩

/- The finished nodes are the old ones and the new ones. -/
theorem mem_finished_iff
    (hExtends : walk.Extends store ids later)
    (i : NodeId) :
    i ∈ later.finished ↔ i ∈ walk.finished ∨ i ∈ ids := by
  by_cases hNew : i ∈ ids
  · exact iff_of_true (hExtends.added i hNew) (Or.inr hNew)
  · rw [Std.ExtTreeMap.mem_iff_isSome_getElem?, hExtends.kept i hNew,
      ← Std.ExtTreeMap.mem_iff_isSome_getElem?, or_iff_left hNew]

/- No type that is finished changes. -/
theorem getElem?_finished
    {i : NodeId}
    {type : Descriptor}
    (hExtends : walk.Extends store ids later)
    (hFinished : walk.finished[i]? = some type) :
    later.finished[i]? = some type := by
  have hOld : i ∉ ids := by
    intro hNew
    apply (hExtends.fresh i hNew).2.2
    rw [Std.ExtTreeMap.mem_iff_isSome_getElem?, hFinished]
    rfl
  rw [hExtends.kept i hOld, hFinished]

/- A walk that goes on twice finishes what is finished each time. -/
theorem trans
    (hFirst : walk.Extends store ids middle)
    (hSecond : middle.Extends store others later) :
    walk.Extends store (ids ++ others) later := by
  -- What the first part has finished is no longer new to the second.
  have hApart : ∀ i ∈ ids, i ∉ others := fun i hFrom hTo =>
    (hSecond.fresh i hTo).2.2 (hFirst.added i hFrom)
  refine ⟨hSecond.active.trans hFirst.active, ?_, ?_, ?_, ?_⟩
  · intro i hOld
    rw [List.mem_append, not_or] at hOld
    rw [hSecond.kept i hOld.2, hFirst.kept i hOld.1]
  · intro i hNew
    rw [hSecond.mem_finished_iff]
    rcases List.mem_append.1 hNew with hFrom | hTo
    · exact Or.inl (hFirst.added i hFrom)
    · exact Or.inr hTo
  · intro i hNew
    rcases List.mem_append.1 hNew with hFrom | hTo
    · exact hFirst.fresh i hFrom
    · rcases hSecond.fresh i hTo with ⟨hStored, hActive, hFinished⟩
      rw [hFirst.active] at hActive
      rw [hFirst.mem_finished_iff, not_or] at hFinished
      exact ⟨hStored, hActive, hFinished.1⟩
  · rw [List.nodup_append]
    refine ⟨hFirst.nodup, hSecond.nodup, ?_⟩
    rintro i hFrom j hTo rfl
    exact hApart i hFrom hTo

/-
  A node is entered, what it consults is finished, and the
  node is left: it is finished, and active no longer.
-/
theorem entered
    (hBelow : (walk.enter id).Extends store ids below)
    (hStored : id ∈ store.nodes)
    (hActive : id ∉ walk.active)
    (hFinished : id ∉ walk.finished)
    (type : Descriptor) :
    walk.Extends store (id :: ids) (below.leave id type) := by
  -- The node is active while the others are finished.
  have hSelf : id ∉ ids := fun hMem =>
    (hBelow.fresh id hMem).2.1 (NodeSet.mem_insert.2 (Or.inl rfl))
  refine ⟨active_leave_enter hActive hBelow.active type, ?_, ?_, ?_,
    List.nodup_cons.2 ⟨hSelf, hBelow.nodup⟩⟩
  · intro i hOld
    rw [List.mem_cons, not_or] at hOld
    rw [leave, Std.ExtTreeMap.getElem?_insert, if_neg, hBelow.kept i hOld.2]
    · rfl
    · rw [Std.LawfulEqCmp.compare_eq_iff_eq]
      exact Ne.symm hOld.1
  · intro i hNew
    rw [leave, Std.ExtTreeMap.mem_insert, Std.LawfulEqCmp.compare_eq_iff_eq]
    rcases List.mem_cons.1 hNew with rfl | hMem
    · exact Or.inl rfl
    · exact Or.inr (hBelow.added i hMem)
  · rw [List.forall_mem_cons]
    refine ⟨⟨hStored, hActive, hFinished⟩, ?_⟩
    intro i hMem
    rcases hBelow.fresh i hMem with ⟨hThere, hInactive, hNew⟩
    rw [enter, NodeSet.mem_insert, not_or] at hInactive
    exact ⟨hThere, hInactive.2, hNew⟩

end Extends

end Walk

end ShapeTypes

------------------------------------------------------------
-- What Runs Do
------------------------------------------------------------

namespace ShapeTypes

namespace Engine

variable {engine : Engine} {store : Store}
variable {depth : Nat} {ids : List NodeId} {walk later : Walk}
variable {types : List Descriptor} {entries : List Walk.Entry}

/- A node without an answer is neither finished nor active. -/
theorem fresh_of_answer
    {id : NodeId}
    (hAnswer : engine.answer? store depth id walk = none) :
    id ∈ store.nodes ∧ id ∉ walk.active ∧ id ∉ walk.finished := by
  rcases (engine.answer?_eq_none_iff store).1 hAnswer with
    ⟨hFinished, -, hStored, hActive⟩
  refine ⟨hStored, hActive, ?_⟩
  rw [Std.ExtTreeMap.mem_iff_isSome_getElem?, hFinished]
  exact Bool.false_ne_true

/- Each entry leaves fewer stored nodes that are not active. -/
theorem unseen_enter_lt
    {id : NodeId}
    (hAnswer : engine.answer? store depth id walk = none) :
    store.unseen (walk.enter id).active < store.unseen walk.active :=
  Store.unseen_insert_lt (fresh_of_answer hAnswer).1
    (fresh_of_answer hAnswer).2.1

namespace Runs

/- A run finishes the nodes that it enters, each of them once. -/
theorem extended
    (hRuns : engine.Runs store depth ids walk types later entries) :
    walk.Extends store (entries.map Walk.Entry.id) later := by
  induction hRuns with
  | done => exact .refl store _
  | answered _ _ ih => exact ih
  | entered hAnswer _ _ _ ihBelow ihRest =>
      rcases fresh_of_answer hAnswer with ⟨hStored, hActive, hFinished⟩
      rw [List.map_cons, List.map_append, ← List.cons_append]
      exact (ihBelow.entered hStored hActive hFinished _).trans ihRest

/- The walk of a node that is left has the active nodes of before. -/
theorem active_leave
    {id : NodeId}
    {below : Walk}
    {inner : List Walk.Entry}
    {parts : List Descriptor}
    (hAnswer : engine.answer? store depth id walk = none)
    (hBelow :
      engine.Runs store (depth + 1) ids (walk.enter id) parts below inner)
    (type : Descriptor) :
    (below.leave id type).active = walk.active :=
  Walk.active_leave_enter (fresh_of_answer hAnswer).2.1
    hBelow.extended.active type

/- Only nodes below those that are visited are entered. -/
theorem reaches
    (hRuns : engine.Runs store depth ids walk types later entries) :
    ∀ entry ∈ entries, ∃ top ∈ ids, store.Reaches top entry.id := by
  induction hRuns with
  | done => exact List.forall_mem_nil _
  | @answered _ id _ _ _ _ _ _ _ _ ih =>
      intro entry hEntry
      rcases ih entry hEntry with ⟨top, hTop, hReaches⟩
      exact ⟨top, List.mem_cons_of_mem id hTop, hReaches⟩
  | @entered _ id _ _ _ _ _ _ _ _ _ _ hFind _ _ ihBelow ihRest =>
      rw [List.forall_mem_cons, List.forall_mem_append]
      refine ⟨⟨id, List.mem_cons_self, .refl⟩, ?_, ?_⟩
      · intro entry hEntry
        rcases ihBelow entry hEntry with ⟨child, hChild, hReaches⟩
        have hStep := Store.StepsBelow.here.step_consulted hFind hChild
        exact ⟨id, List.mem_cons_self, hStep.reaches.trans hReaches⟩
      · intro entry hEntry
        rcases ihRest entry hEntry with ⟨top, hTop, hReaches⟩
        exact ⟨top, List.mem_cons_of_mem id hTop, hReaches⟩

/-
  No entry is beyond the limit on depth, and none is further
  down than there are stored nodes to go through.
-/
theorem depth_lt
    (hRuns : engine.Runs store depth ids walk types later entries) :
    ∀ entry ∈ entries,
      entry.depth ≤ engine.options.maxDepth ∧
        entry.depth < depth + store.unseen walk.active := by
  induction hRuns with
  | done => exact List.forall_mem_nil _
  | answered _ _ ih => exact ih
  | entered hAnswer _ hBelow _ ihBelow ihRest =>
      have hLess := unseen_enter_lt hAnswer
      have hDepth := ((engine.answer?_eq_none_iff store).1 hAnswer).2.1
      rw [hBelow.active_leave hAnswer] at ihRest
      rw [List.forall_mem_cons, List.forall_mem_append]
      refine ⟨⟨hDepth, ?_⟩, ?_, ihRest⟩
      · dsimp only
        omega
      · intro entry hEntry
        rcases ihBelow entry hEntry with ⟨hLimit, hBound⟩
        exact ⟨hLimit, by omega⟩

/- There is one run at most. -/
theorem unique
    {others : List Descriptor}
    {other : Walk}
    {records : List Walk.Entry}
    (hRuns : engine.Runs store depth ids walk types later entries)
    (hOther : engine.Runs store depth ids walk others other records) :
    others = types ∧ other = later ∧ records = entries := by
  induction hRuns generalizing others other records with
  | done =>
      cases hOther
      exact ⟨rfl, rfl, rfl⟩
  | answered hAnswer _ ih =>
      cases hOther with
      | answered hSame hRest =>
          rw [hAnswer, Option.some.injEq] at hSame
          rcases ih hRest with ⟨rfl, rfl, rfl⟩
          exact ⟨by rw [hSame], rfl, rfl⟩
      | entered hNone => cases hAnswer.symm.trans hNone
  | entered hAnswer hFind _ _ ihBelow ihRest =>
      cases hOther with
      | answered hSome => cases hAnswer.symm.trans hSome
      | entered _ hSame hBelow hRest =>
          rw [hFind, Option.some.injEq] at hSame
          subst hSame
          rcases ihBelow hBelow with ⟨rfl, rfl, rfl⟩
          rcases ihRest hRest with ⟨rfl, rfl, rfl⟩
          exact ⟨rfl, rfl, rfl⟩

/-
  Inference follows the run, whatever its fuel is, if that
  exceeds the number of stored nodes that are not active.
-/
theorem followed
    {fuel : Nat}
    (hRuns : engine.Runs store depth ids walk types later entries)
    (hFuel : store.unseen walk.active < fuel) :
    engine.visitAll store fuel depth ids walk = (types, later) ∧
      (ids.mapM (engine.inferNode store fuel depth)).entries walk =
        entries := by
  induction hRuns generalizing fuel with
  | done => exact ⟨rfl, rfl⟩
  | answered hAnswer _ ih =>
      obtain ⟨fuel, rfl⟩ :=
        Nat.exists_eq_succ_of_ne_zero (Nat.ne_zero_of_lt hFuel)
      rcases ih hFuel with ⟨hRest, hOuter⟩
      rw [visitAll_cons, entries_mapM_cons,
        engine.visit_of_answer store hAnswer,
        engine.entries_of_answer store hAnswer, hRest, hOuter]
      exact ⟨rfl, rfl⟩
  | entered hAnswer hFind hBelow _ ihBelow ihRest =>
      obtain ⟨fuel, rfl⟩ :=
        Nat.exists_eq_succ_of_ne_zero (Nat.ne_zero_of_lt hFuel)
      have hLess := unseen_enter_lt hAnswer
      have hEnough := Nat.lt_of_lt_of_le hLess (Nat.le_of_lt_succ hFuel)
      rw [hBelow.active_leave hAnswer] at ihRest
      rcases ihBelow hEnough with ⟨hParts, hInner⟩
      rcases ihRest hFuel with ⟨hRest, hOuter⟩
      rw [visitAll_cons, entries_mapM_cons,
        engine.visit_of_node store hAnswer hFind,
        engine.entries_of_node store hAnswer hFind]
      dsimp only
      rw [hParts, hInner, hRest, hOuter]
      exact ⟨rfl, rfl⟩

end Runs

/-
  Every run comes to an end.  The outer induction is on the
  number of stored nodes that are not active, which an entry
  makes smaller, and the inner one is on the visited nodes.
-/
theorem exists_runs
    (engine : Engine)
    (store : Store)
    (depth : Nat)
    (ids : List NodeId)
    (walk : Walk) :
    ∃ types later entries,
      engine.Runs store depth ids walk types later entries := by
  induction hUnseen : store.unseen walk.active using Nat.strongRecOn
    generalizing depth ids walk with
  | ind unseen ihUnseen =>
      induction ids generalizing walk with
      | nil => exact ⟨_, _, _, .done⟩
      | cons id ids ihRest =>
          cases hAnswer : engine.answer? store depth id walk with
          | some type =>
              rcases ihRest walk hUnseen with ⟨_, _, _, hRest⟩
              exact ⟨_, _, _, .answered hAnswer hRest⟩
          | none =>
              rcases Store.mem_nodes_iff.1 (fresh_of_answer hAnswer).1 with
                ⟨node, hFind⟩
              have hLess := unseen_enter_lt hAnswer
              rw [hUnseen] at hLess
              rcases ihUnseen _ hLess (depth + 1)
                  (store.consulted node.kind) (walk.enter id) rfl with
                ⟨parts, below, _, hBelow⟩
              have hSame := hBelow.active_leave hAnswer
                (engine.combine store node.kind parts)
              rcases ihRest _ ((congrArg store.unseen hSame).trans hUnseen)
                with ⟨_, _, _, hRest⟩
              exact ⟨_, _, _, .entered hAnswer hFind hBelow hRest⟩

end Engine

end ShapeTypes

------------------------------------------------------------
-- The Nodes of One Inference
------------------------------------------------------------

namespace ShapeTypes

namespace Engine

/-
  What one visit does.  It has a single run, which leaves the
  active nodes and the finished types as they were.  The
  nodes that get finished are those that are entered.  Each
  is stored, below the visited node, neither active nor
  finished before, and entered once.  The depth of an entry
  is bounded by the stored nodes, however large the limit is.
-/
structure Accounts
    (engine : Engine)
    (store : Store)
    (depth : Nat)
    (id : NodeId)
    (walk : Walk)
    (type : Descriptor)
    (later : Walk)
    (entries : List Walk.Entry) : Prop where
  runs : engine.Runs store depth [id] walk [type] later entries
  only :
    ∀ (types : List Descriptor) (other : Walk) (records : List Walk.Entry),
      engine.Runs store depth [id] walk types other records →
        types = [type] ∧ other = later ∧ records = entries
  active : later.active = walk.active
  kept :
    ∀ (i : NodeId) (known : Descriptor),
      walk.finished[i]? = some known → later.finished[i]? = some known
  finished :
    ∀ i : NodeId,
      i ∈ later.finished ↔ i ∈ walk.finished ∨ i ∈ entries.map Walk.Entry.id
  reached :
    ∀ entry ∈ entries,
      entry.id ∈ store.nodes ∧ store.Reaches id entry.id
  new :
    ∀ entry ∈ entries,
      entry.id ∉ walk.active ∧ entry.id ∉ walk.finished
  once : (entries.map Walk.Entry.id).Nodup
  bounded :
    ∀ entry ∈ entries,
      entry.depth ≤ engine.options.maxDepth ∧
        entry.depth < depth + store.unseen walk.active

variable {engine : Engine} {store : Store}
variable {depth : Nat} {id : NodeId} {walk later : Walk}
variable {type : Descriptor} {entries : List Walk.Entry}

theorem Runs.length_types
    {ids : List NodeId}
    {types : List Descriptor}
    (hRuns : engine.Runs store depth ids walk types later entries) :
    types.length = ids.length := by
  induction hRuns with
  | done => rfl
  | answered _ _ ih => rw [List.length_cons, List.length_cons, ih]
  | entered _ _ _ _ _ ih => rw [List.length_cons, List.length_cons, ih]

theorem Runs.accounts
    (hRuns : engine.Runs store depth [id] walk [type] later entries) :
    engine.Accounts store depth id walk type later entries := by
  have hExtends := hRuns.extended
  have hFresh :
      ∀ entry ∈ entries,
        entry.id ∈ store.nodes ∧
          entry.id ∉ walk.active ∧ entry.id ∉ walk.finished :=
    fun entry hEntry => hExtends.fresh _ (List.mem_map_of_mem hEntry)
  constructor
  · exact hRuns
  · intro types other records hOther
    exact hRuns.unique hOther
  · exact hExtends.active
  · intro i known
    exact hExtends.getElem?_finished
  · exact hExtends.mem_finished_iff
  · intro entry hEntry
    rcases hRuns.reaches entry hEntry with ⟨top, hTop, hReaches⟩
    rw [List.mem_singleton.1 hTop] at hReaches
    exact ⟨(hFresh entry hEntry).1, hReaches⟩
  · intro entry hEntry
    exact (hFresh entry hEntry).2
  · exact hExtends.nodup
  · exact hRuns.depth_lt

/- Active and finished nodes stay apart. -/
theorem Accounts.apart
    (hAccounts : engine.Accounts store depth id walk type later entries)
    (hApart : ∀ i ∈ walk.active, i ∉ walk.finished) :
    ∀ i ∈ later.active, i ∉ later.finished := by
  intro i hActive hFinished
  rw [hAccounts.active] at hActive
  rcases (hAccounts.finished i).1 hFinished with hOld | hNew
  · exact hApart i hActive hOld
  · rcases List.mem_map.1 hNew with ⟨entry, hEntry, rfl⟩
    exact (hAccounts.new entry hEntry).1 hActive

/- A visit follows its run, whatever its fuel is, if that is enough. -/
theorem Runs.visit_followed
    {fuel : Nat}
    (hRuns : engine.Runs store depth [id] walk [type] later entries)
    (hFuel : store.unseen walk.active < fuel) :
    engine.visit store fuel depth id walk = (type, later) ∧
      (engine.inferNode store fuel depth id).entries walk = entries := by
  rcases hRuns.followed hFuel with ⟨hAll, hEntries⟩
  rw [visitAll_cons, visitAll_nil] at hAll
  simp only [Prod.mk.injEq, List.cons.injEq, and_true] at hAll
  rw [entries_mapM_cons, List.mapM_nil, InferM.entries_pure,
    List.append_nil] at hEntries
  exact ⟨Prod.ext hAll.1 hAll.2, hEntries⟩

/-
  Every visit comes to an end and accounts for what it does,
  in any store, at any depth and in any walk, with a limit on
  depth as large as may be.  The nodes that it accounts for
  are those that it reports to enter.  Active and finished
  nodes stay apart if they were.  So no inference enters a
  node twice.
-/
theorem inferNode_enters_once
    (engine : Engine)
    (store : Store) :
    (∀ depth id walk, ∃ type later entries,
      engine.Accounts store depth id walk type later entries ∧
        (∀ fuel, store.unseen walk.active < fuel →
          let reported := (engine.inferNode store fuel depth id).run walk
          reported.value = (type, later) ∧
            reported.log.filterMap Walk.Step.entry? = entries) ∧
        ((∀ i ∈ walk.active, i ∉ walk.finished) →
          ∀ i ∈ later.active, i ∉ later.finished)) ∧
      ∀ id : NodeId, ∃ later,
        engine.Accounts store 0 id { } (engine.infer store id) later
          ((engine.inferReported store id).log.filterMap
            Walk.Step.entry?) := by
  have hRuns :
      ∀ depth id walk, ∃ type later entries,
        engine.Runs store depth [id] walk [type] later entries := by
    intro depth id walk
    rcases engine.exists_runs store depth [id] walk with
      ⟨types, later, entries, hRuns⟩
    rcases List.length_eq_one_iff.1 hRuns.length_types with ⟨type, rfl⟩
    exact ⟨type, later, entries, hRuns⟩
  constructor
  · intro depth id walk
    rcases hRuns depth id walk with ⟨type, later, entries, hRun⟩
    exact ⟨type, later, entries, hRun.accounts,
      fun fuel hFuel => hRun.visit_followed hFuel, hRun.accounts.apart⟩
  · intro id
    rcases hRuns 0 id { } with ⟨type, later, entries, hRun⟩
    have hFuel : store.unseen ({ } : Walk).active < store.size + 1 :=
      Nat.lt_succ_of_le (Nat.le_of_eq store.unseen_empty)
    rcases hRun.visit_followed hFuel with ⟨hVisit, hEntries⟩
    have hType : engine.infer store id = type := by
      rw [infer_eq_visit, hVisit]
    have hReported :
        (engine.inferReported store id).log.filterMap Walk.Step.entry? =
          entries := by
      rw [← hEntries, inferReported, StateT.run', Reported.log_map]
      rfl
    rw [hType, hReported]
    exact ⟨later, hRun.accounts⟩

/-
  Two arrays that hold each other, one of them twice, with a
  number that both hold.
-/
def knotted : Store :=
  ([Kind.arrayExpression [some 2, some 3, some 2],
    .arrayExpression [some 1, some 3, some 0],
    .literal (.number "1") "1"].zipIdx 1).foldl
      (fun store entry =>
        store.put { id := entry.2, location := { }, kind := entry.1 })
      Store.empty

/- An engine with the largest limit on depth of 64 bits. -/
def tireless : Engine :=
  { options := { maxDepth := 18446744073709551615 } }

/-
  All three nodes are entered, each of them once, although
  the arrays lead to each other.
-/
theorem inferNode_enters_once_knotted :
    ∃ later,
      tireless.Accounts knotted 0 1 { }
          (.genericArray
            [.genericArray [.unknown, .primitive .number],
              .primitive .number])
          later [⟨0, 1⟩, ⟨1, 2⟩, ⟨2, 3⟩] ∧
        ∀ i ∈ later.active, i ∉ later.finished := by
  rcases (inferNode_enters_once tireless knotted).1 0 1 { } with
    ⟨type, later, entries, hAccounts, hReported, hApart⟩
  rcases hReported 4 (by decide +kernel) with ⟨hValue, hEntries⟩
  have hType : type = .genericArray
      [.genericArray [.unknown, .primitive .number], .primitive .number] :=
    (congrArg Prod.fst hValue).symm.trans (by decide +kernel)
  have hEntered : entries = [⟨0, 1⟩, ⟨1, 2⟩, ⟨2, 3⟩] :=
    hEntries.symm.trans (by decide +kernel)
  rw [hType, hEntered] at hAccounts
  exact ⟨later, hAccounts, hApart fun i hActive => by simp at hActive⟩

end Engine

end ShapeTypes
