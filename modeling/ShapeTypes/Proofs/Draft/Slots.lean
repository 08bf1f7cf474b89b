import Mathlib.Data.List.Forall2
import Mathlib.Data.Option.Basic
import ShapeTypes.Proofs.Draft.Comments

/-
  The slots of arrays.

  Commas stand between the slots of an array, and a slot may
  be empty.  There is no node for an empty slot, so it is
  read off the commas alone.  The entries of the stored array
  are the slots in their order, but for an empty slot at the
  end.

  Key definitions include:
    * `ShapeTypes.Concrete.Tree.Separated`
    * `ShapeTypes.Concrete.Tree.HasSlots`
    * `ShapeTypes.Draft.countedSlots`
    * `ShapeTypes.Draft.writeSlots`
    * `ShapeTypes.Store.Holds`

  Key theorems include:
    * `ShapeTypes.Draft.slots_of_separated`
    * `ShapeTypes.Draft.outline_of_hasSlots`
    * `ShapeTypes.Draft.writeSlots_eq`
    * `ShapeTypes.Draft.writeSlots_holds`
    * `ShapeTypes.Draft.write_array`
-/

------------------------------------------------------------
-- Slots Between Commas
------------------------------------------------------------

namespace ShapeTypes

namespace Concrete

namespace Tree

/- Some slots with a comma between each two of them. -/
inductive Separated :
    List (Option Tree) → List Tree → Prop where
  | last (slot : Option Tree) :
      Separated [slot] slot.toList
  | more {slots : List (Option Tree)} {tokens : List Tree} {comma : Tree}
      (slot : Option Tree)
      (hComma : comma.label.kind = ",")
      (hRest : Separated slots tokens) :
      Separated (slot :: slots) (slot.toList ++ comma :: tokens)

/-
  The children of a node are slots between brackets, and
  comments anywhere among them.  An element is neither a
  token of the array nor a comment.
-/
structure HasSlots
    (tree : Tree)
    (slots : List (Option Tree)) : Prop where
  spelled :
    ∃ opening tokens closing,
      tree.children.filter (fun child => !child.label.isComment) =
          opening :: (tokens ++ [closing]) ∧
        opening.label.kind = "[" ∧
        closing.label.kind = "]" ∧
        Separated slots tokens
  elements :
    ∀ element, some element ∈ slots →
      element.label.kind ∉ [",", "[", "]", "comment"]

end Tree

end Concrete

namespace Draft

open Concrete (Tree)

/- The slots that count: an empty one at the end does not. -/
def countedSlots
    (slots : List (Option Tree)) :
    List (Option Tree) :=
  match slots.getLast? with
  | some none => slots.dropLast
  | _ => slots

variable {isOpen : Bool} {part : Draft} {parts : List Draft}

/- Brackets and comments are passed over. -/
theorem slots_cons_of_skipped
    (hKind : part.label.kind ∈ ["[", "]", "comment"]) :
    slots isOpen (part :: parts) = slots isOpen parts := by
  rw [slots, if_pos hKind]

/- A comma closes a slot, which is a hole if it is still open. -/
theorem slots_cons_of_comma
    (hKind : part.label.kind = ",") :
    slots isOpen (part :: parts) =
      (if isOpen then [none] else []) ++ slots true parts := by
  rw [slots, if_neg (by rw [hKind]; decide), if_pos hKind]
  cases isOpen with
  | true => rfl
  | false => rfl

/- An element fills its slot. -/
theorem slots_cons_of_element
    (hKind : part.label.kind ∉ [",", "[", "]", "comment"]) :
    slots isOpen (part :: parts) = some part :: slots false parts := by
  rw [List.mem_cons, not_or] at hKind
  rw [slots, if_neg hKind.2, if_neg hKind.1]

/- Only the last slot can be left out. -/
theorem countedSlots_cons
    (slot : Option Tree)
    {slots : List (Option Tree)}
    (hSlots : slots ≠ []) :
    countedSlots (slot :: slots) = slot :: countedSlots slots := by
  obtain ⟨second, rest, rfl⟩ := List.exists_cons_of_ne_nil hSlots
  unfold countedSlots
  rw [List.getLast?_cons_cons]
  split
  · rfl
  · rfl

/- Slots with commas between them are read back. -/
theorem slots_of_separated
    {draw : Tree → Draft}
    {slots : List (Option Tree)}
    {tokens : List Tree}
    {closing : Draft}
    (hLabel : ∀ tree, (draw tree).label = tree.label)
    (hSeparated : Tree.Separated slots tokens)
    (hElements :
      ∀ element, some element ∈ slots →
        element.label.kind ∉ [",", "[", "]", "comment"])
    (hClosing : closing.label.kind = "]") :
    Draft.slots true (tokens.map draw ++ [closing]) =
      (countedSlots slots).map (Option.map draw) := by
  have hEnd (isOpen : Bool) : Draft.slots isOpen [closing] = [] :=
    slots_cons_of_skipped (by rw [hClosing]; decide)
  induction hSeparated with
  | last slot =>
      cases slot with
      | none => exact hEnd true
      | some element =>
          have hElement := hElements element (by simp)
          rw [← hLabel] at hElement
          simp [countedSlots, slots_cons_of_element hElement, hEnd]
  | @more slots tokens comma slot hComma hRest ih =>
      have hNonempty : slots ≠ [] := by
        cases hRest with
        | last => simp
        | more => simp
      rw [← hLabel] at hComma
      rw [countedSlots_cons slot hNonempty, List.map_cons,
        ← ih fun element hMem => hElements element (by simp [hMem])]
      cases slot with
      | none => simp [slots_cons_of_comma hComma]
      | some element =>
          have hElement := hElements element (by simp)
          rw [← hLabel] at hElement
          simp [slots_cons_of_element hElement, slots_cons_of_comma hComma]

/- The outline of an array has the slots that count. -/
theorem outline_of_hasSlots
    (source : List Char)
    {tree : Tree}
    {slots : List (Option Tree)}
    (hKind : tree.label.kind = "array")
    (hSlots : tree.HasSlots slots) :
    (ofTree source tree).outline =
      .array tree.label.location
        ((countedSlots slots).map
          (Option.map fun element => (ofTree source element).outline)) := by
  rcases hSlots.spelled with
    ⟨opening, tokens, closing, hChildren, hOpening, hClosing, hSeparated⟩
  let draw : Tree → Draft := fun tree => (ofTree source tree).uncommented
  have hLabel (tree : Tree) : (draw tree).label = tree.label := by
    rw [label_uncommented, label_ofTree]
  have hParts :
      uncommentedIn (ofTree source tree).parts =
        draw opening :: (tokens.map draw ++ [draw closing]) := by
    rw [uncommentedIn_eq, parts_ofTree, List.filter_map, List.map_map]
    simp only [Function.comp_def, label_ofTree]
    rw [hChildren]
    simp [draw]
  have hRead :
      Draft.slots true (uncommentedIn (ofTree source tree).parts) =
        (countedSlots slots).map (Option.map draw) := by
    rw [hParts, slots_cons_of_skipped (by rw [hLabel, hOpening]; decide)]
    exact slots_of_separated hLabel hSeparated hSlots.elements
      (by rw [hLabel, hClosing])
  have hForm : Form.ofKind tree.label.kind = .array := by
    rw [hKind]
    rfl
  rw [outline_ofTree, compose]
  simp only [hForm]
  rw [← array_uncommented, array, hRead, List.map_map]
  congr 2
  funext slot
  cases slot with
  | none => rfl
  | some element => simp [draw]

end Draft

end ShapeTypes

------------------------------------------------------------
-- Entries of Stored Arrays
------------------------------------------------------------

namespace ShapeTypes

open Concrete (Tree)

/- A store holds under an id what is built from a tree. -/
def Store.Holds
    (store : Store)
    (source : List Char)
    (tree : Tree)
    (id : NodeId) : Prop :=
  ∃ top : Site,
    top.outline = (Draft.ofTree source tree).outline ∧
      top.id = id ∧
      ∀ site, top.Below site → store.find? site.id = some (site.node none)

/- One store has all that another has, and no less ids. -/
structure Store.Extends
    (after before : Store) : Prop where
  grows : before.lastId ≤ after.lastId
  keeps : ∀ i : Nat, i ≤ before.lastId → after.find? i = before.find? i

namespace Store

variable {before after later : Store} {source : List Char} {tree : Tree}

/- What is appended changes nothing that was there. -/
theorem Appended.toExtends
    {sites : List Site}
    (hAppended : before.Appended sites after) :
    after.Extends before :=
  ⟨hAppended.grows, fun i hLe => hAppended.frame i (Or.inl hLe)⟩

theorem Extends.trans
    (hLater : later.Extends after)
    (hAfter : after.Extends before) :
    later.Extends before := by
  refine ⟨Nat.le_trans hAfter.grows hLater.grows, ?_⟩
  intro i hLe
  rw [hLater.keeps i (Nat.le_trans hLe hAfter.grows), hAfter.keeps i hLe]

/- A node that is pushed is found under its id. -/
theorem find?_push
    (store : Store)
    (location : Location)
    (kind : Kind) :
    (store.push location kind).2.find? (store.push location kind).1 =
      some ⟨(store.push location kind).1, location, kind, none⟩ := by
  simp only [push]
  rw [find?_put, if_pos rfl]

theorem push_extends
    (store : Store)
    (location : Location)
    (kind : Kind) :
    (store.push location kind).2.Extends store := by
  constructor
  · rw [lastId_push]
    exact Nat.le_succ _
  · intro i hLe
    simp only [push]
    rw [find?_put, if_neg]
    exact fun hEq => Nat.not_succ_le_self _ (hEq ▸ hLe)

/- A new node is found under its id in every later store. -/
theorem alloc_found
    {location : Location}
    {kind : Kind}
    {id : NodeId}
    (hAlloc : before.alloc location kind = (.ok id, after)) :
    after.Extends before ∧
      ∀ later : Store, later.Extends after →
        later.find? id = some ⟨id, location, kind, none⟩ := by
  rcases before.alloc_cases location kind with
    ⟨hPushed, -⟩ | ⟨cause, left, hFailed, -⟩
  · cases hPushed.symm.trans hAlloc
    refine ⟨before.push_extends location kind, ?_⟩
    intro later hLater
    have hStored := Nat.le_of_eq (before.lastId_push location kind).symm
    exact (hLater.keeps _ hStored).trans (before.find?_push location kind)
  · cases hFailed.symm.trans hAlloc

/- What is held is held later, too. -/
theorem Holds.mono
    {id : NodeId}
    (hHolds : after.Holds source tree id)
    (hStored : id ≤ after.lastId)
    (hLater : later.Extends after) :
    later.Holds source tree id := by
  rcases hHolds with ⟨top, hOutline, rfl, hFound⟩
  refine ⟨top, hOutline, rfl, ?_⟩
  intro site hBelow
  rw [hLater.keeps site.id (Nat.le_trans hBelow.bounds.2 hStored)]
  exact hFound site hBelow

end Store

namespace Draft

/- Store what stands in some slots, in order, and give the entries. -/
def writeSlots
    (source : List Char) :
    List (Option Tree) → Store →
      Except StoreError (List (Option NodeId)) × Store
  | [], store => (.ok [], store)
  | none :: slots, store =>
      let (entries, store) := writeSlots source slots store
      (entries.map (none :: ·), store)
  | some element :: slots, store =>
      match (ofTree source element).outline.write store with
      | (.error cause, store) => (.error cause, store)
      | (.ok id, store) =>
          let (entries, store) := writeSlots source slots store
          (entries.map (some id :: ·), store)

/-
  The entries are the ids at the places of an array.  `done`
  are the ids that the places before these have.
-/
theorem writeSlots_eq
    (source : List Char)
    (slots : List (Option Tree))
    (store : Store)
    (done : List NodeId)
    {elements : List (Option Outline)}
    (hElements :
      elements =
        slots.map
          (Option.map fun element => (ofTree source element).outline)) :
    writeSlots source slots store =
      ((Outline.writeAll (elements.filterMap id) store).1.map fun ids =>
          (Outline.placesFrom done.length elements).map
            (Option.map fun place => (done ++ ids).toArray.getD place 0),
        (Outline.writeAll (elements.filterMap id) store).2) := by
  subst hElements
  induction slots generalizing store done with
  | nil => rfl
  | cons slot slots ih =>
      cases slot with
      | none =>
          rw [writeSlots, ih store done]
          simp only [List.map_cons, Option.map_none,
            List.filterMap_cons_none, id_eq]
          cases (Outline.writeAll _ store).1 with
          | error cause => rfl
          | ok ids => rfl
      | some element =>
          rw [List.map_cons, Option.map_some,
            List.filterMap_cons_some (by rfl), Outline.writeAll, writeSlots]
          rcases (ofTree source element).outline.write store with
            ⟨cause | id, store⟩
          · rfl
          · have hRest := ih store (done ++ [id])
            rw [List.length_append, List.length_singleton] at hRest
            simp only [hRest]
            cases (Outline.writeAll _ store).1 with
            | error cause => rfl
            | ok ids => simp [Except.map, Outline.placesFrom]

variable {source : List Char} {slots : List (Option Tree)}
variable {store after : Store} {entries : List (Option NodeId)}

/- A hole gets no entry. -/
theorem writeSlots_none
    (hWritten :
      writeSlots source (none :: slots) store = (.ok entries, after)) :
    ∃ rest,
      writeSlots source slots store = (.ok rest, after) ∧
        entries = none :: rest := by
  rw [writeSlots] at hWritten
  rcases hRest : writeSlots source slots store with ⟨cause | rest, next⟩
  · rw [hRest] at hWritten
    cases hWritten
  · rw [hRest] at hWritten
    cases hWritten
    exact ⟨rest, rfl, rfl⟩

/- An element gets the id under which it is stored. -/
theorem writeSlots_some
    {element : Tree}
    (hWritten :
      writeSlots source (some element :: slots) store =
        (.ok entries, after)) :
    ∃ rest,
      writeSlots source slots
            ((ofTree source element).outline.lay store).2 =
          (.ok rest, after) ∧
        entries =
          some ((ofTree source element).outline.lay store).1 :: rest := by
  rw [writeSlots] at hWritten
  rcases (ofTree source element).outline.write_cases store with
    ⟨hElement, -⟩ | ⟨cause, left, hElement, -⟩
  · rcases hRest : writeSlots source slots
        ((ofTree source element).outline.lay store).2 with
      ⟨cause | rest, next⟩
    · simp only [hElement, hRest] at hWritten
      cases hWritten
    · simp only [hElement, hRest] at hWritten
      cases hWritten
      exact ⟨rest, rfl, rfl⟩
  · rw [hElement] at hWritten
    cases hWritten

/-
  What stands in the slots is held under the ids of the
  entries, if it could all be stored.
-/
theorem writeSlots_holds
    (hWritten : writeSlots source slots store = (.ok entries, after)) :
    after.Extends store ∧
      ∀ later : Store, later.Extends after →
        List.Forall₂ (Option.Rel (later.Holds source)) slots entries := by
  induction slots generalizing store entries with
  | nil =>
      cases hWritten
      refine ⟨⟨Nat.le_refl _, fun _ _ => rfl⟩, ?_⟩
      intro later _
      exact .nil
  | cons slot slots ih =>
      cases slot with
      | none =>
          rcases writeSlots_none hWritten with ⟨rest, hRest, rfl⟩
          obtain ⟨hExtends, hHolds⟩ := ih hRest
          refine ⟨hExtends, ?_⟩
          intro later hLater
          exact .cons .none (hHolds later hLater)
      | some element =>
          rcases writeSlots_some hWritten with ⟨rest, hRest, rfl⟩
          obtain ⟨hId, hLast, hLaid⟩ :=
            (ofTree source element).outline.lay_appended store
          obtain ⟨hExtends, hHolds⟩ := ih hRest
          refine ⟨hExtends.trans hLaid.toExtends, ?_⟩
          intro later hLater
          refine .cons (.some ?_) (hHolds later hLater)
          have hHere :
              ((ofTree source element).outline.lay store).2.Holds source
                element ((ofTree source element).outline.lay store).1 :=
            ⟨⟨store.lastId, _⟩, rfl, hId.symm,
              hLaid.found _ (List.mem_singleton.2 rfl)⟩
          exact hHere.mono (by rw [hId, hLast]) (hLater.trans hExtends)

/- An array is stored behind what stands in its slots. -/
theorem write_of_hasSlots
    (source : List Char)
    {tree : Tree}
    (hKind : tree.label.kind = "array")
    (hSlots : tree.HasSlots slots)
    (before : Store) :
    (ofTree source tree).outline.write before =
      match writeSlots source (countedSlots slots) before with
      | (.error cause, store) => (.error cause, store)
      | (.ok entries, store) =>
          store.alloc tree.label.location (.arrayExpression entries) := by
  rw [writeSlots_eq source (countedSlots slots) before [] rfl,
    outline_of_hasSlots source hKind hSlots, Outline.array, Outline.write]
  rcases Outline.writeAll _ before with ⟨cause | ids, store⟩
  · rfl
  · rfl

/-
  Building an array stores what stands in its slots in order
  and then the array.  Its entries are the slots in order: a
  hole has none, and an element has the id that building it
  gave.  An empty slot at the end has no entry.  In every
  later store, the array has these entries, and the elements
  are held under their ids.  It is built whenever there are
  enough ids.
-/
theorem write_array
    (source : List Char)
    {tree : Tree}
    {slots : List (Option Tree)}
    (hKind : tree.label.kind = "array")
    (hSlots : tree.HasSlots slots)
    (before : Store) :
    let outline := (ofTree source tree).outline
    let parts := writeSlots source (countedSlots slots) before
    let built := outline.write before
    (built =
        match parts with
        | (.error cause, store) => (.error cause, store)
        | (.ok entries, store) =>
            store.alloc tree.label.location (.arrayExpression entries)) ∧
      (∀ id, built.1 = .ok id →
        ∃ entries, parts.1 = .ok entries ∧
          ∀ later : Store, later.Extends built.2 →
            later.find? id =
                some ⟨id, tree.label.location,
                  .arrayExpression entries, none⟩ ∧
              List.Forall₂ (Option.Rel (later.Holds source))
                (countedSlots slots) entries) ∧
      (before.Counted → before.lastId + outline.size ≤ Store.maxId →
        ∃ id, built.1 = .ok id) := by
  intro outline parts built
  have hBuilt := write_of_hasSlots source hKind hSlots before
  refine ⟨hBuilt, ?_, ?_⟩
  · intro id hId
    have hWhole : built = (.ok id, built.2) := Prod.ext hId rfl
    rcases hParts : writeSlots source (countedSlots slots) before with
      ⟨cause | entries, store⟩
    · rw [hParts] at hBuilt
      cases hWhole.symm.trans hBuilt
    · rw [hParts] at hBuilt
      obtain ⟨hExtends, hFound⟩ :=
        Store.alloc_found (hBuilt.symm.trans hWhole)
      refine ⟨entries, congrArg Prod.fst hParts, ?_⟩
      intro later hLater
      exact ⟨hFound later hLater,
        (writeSlots_holds hParts).2 later (hLater.trans hExtends)⟩
  · intro hCounted hRoom
    rcases outline.write_cases before with
      ⟨hWritten, -⟩ | ⟨cause, left, -, hFull⟩
    · exact ⟨_, congrArg Prod.fst hWritten⟩
    · exact absurd hRoom (Nat.not_le.2 (hFull hCounted).2)

end Draft

namespace Concrete

namespace Sample

/- An array with holes at both ends and in the middle. -/
def holesSource : String :=
  "[, /**/ 1, , [2], ,]"

/- The element that is an array itself. -/
def inner : Tree :=
  named "array" none 13 16
    [token "[" 13 14, named "number" none 14 15 [], token "]" 15 16]

/- The tree of the array. -/
def holes : Tree :=
  named "array" none 0 20
    [token "[" 0 1, token "," 1 2, comment 3 7,
      named "number" none 8 9 [], token "," 9 10, token "," 11 12, inner,
      token "," 16 17, token "," 18 19, token "]" 19 20]

/- What stands before, between and behind its commas. -/
def holesSlots : List (Option Tree) :=
  [none, some (named "number" none 8 9 []), none, some inner, none, none]

end Sample

end Concrete

namespace Draft

/-
  The array has six slots and five entries.  The elements are
  stored before it, and the one of the inner array before the
  inner array.
-/
theorem write_array_holes :
    Concrete.Sample.holes.HasSlots Concrete.Sample.holesSlots ∧
      ((ofTree Concrete.Sample.holesSource.toList
          Concrete.Sample.holes).outline.write Store.empty).1 = .ok 4 ∧
      ((ofTree Concrete.Sample.holesSource.toList
          Concrete.Sample.holes).outline.write Store.empty).2.find? 4 =
        some ⟨4, ⟨0, 20, 1, 0, 1, 20⟩,
          .arrayExpression [none, some 1, none, some 3, none], none⟩ := by
  have hSlots :
      Concrete.Sample.holes.HasSlots Concrete.Sample.holesSlots := by
    constructor
    · exact ⟨_, _, _, rfl, rfl, rfl,
        .more none rfl (.more (some _) rfl (.more none rfl
          (.more (some _) rfl (.more none rfl (.last none)))))⟩
    · intro element hMem
      have hElement :
          element = Concrete.Sample.named "number" none 8 9 [] ∨
            element = Concrete.Sample.inner := by
        simpa [Concrete.Sample.holesSlots] using hMem
      rcases hElement with rfl | rfl
      · decide
      · decide
  have hId :
      ((ofTree Concrete.Sample.holesSource.toList
        Concrete.Sample.holes).outline.write Store.empty).1 = .ok 4 := by
    decide +kernel
  have hEntries :
      (writeSlots Concrete.Sample.holesSource.toList
          (countedSlots Concrete.Sample.holesSlots) Store.empty).1 =
        .ok [none, some 1, none, some 3, none] := by
    decide +kernel
  obtain ⟨-, hBuilt, -⟩ :=
    write_array Concrete.Sample.holesSource.toList rfl hSlots Store.empty
  obtain ⟨entries, hOk, hLater⟩ := hBuilt 4 hId
  rw [hEntries] at hOk
  cases hOk
  exact ⟨hSlots, hId, (hLater _ ⟨Nat.le_refl _, fun _ _ => rfl⟩).1⟩

end Draft

end ShapeTypes
