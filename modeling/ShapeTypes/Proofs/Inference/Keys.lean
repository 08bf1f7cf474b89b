import ShapeTypes.Proofs.Concrete.Layout
import ShapeTypes.Proofs.Draft.Words
import ShapeTypes.Proofs.Inference.Closure
import ShapeTypes.Proofs.Inference.Table

/-
  The keys of inferred records.

  A record is keyed by the names of the properties of an
  object.  A name is written into the text of a type as it is,
  so it should be one that may stand there: an identifier, a
  string in its quotes, or a number.  Of the literals, only
  strings are checked.  A bigint or a regular expression as a
  key is written as it stands, which is no name at all.

  Key definitions include:
    * `ShapeTypes.Descriptor.keys`
    * `ShapeTypes.Store.NamesField`
    * `ShapeTypes.Store.ReadAs`
    * `ShapeTypes.Store.LegalKey`
    * `ShapeTypes.Store.StrayKey`

  Key theorems include:
    * `ShapeTypes.Engine.infer_everywhere_keys`
    * `ShapeTypes.Engine.keys_infer_object`
    * `ShapeTypes.Store.legalKey_iff`
    * `ShapeTypes.Engine.infer_keys`
-/

------------------------------------------------------------
-- Keys of Records
------------------------------------------------------------

namespace ShapeTypes

namespace Descriptor

/- The keys of a record, in order. -/
def keys : Descriptor → List String
  | record fields => fields.map Prod.fst
  | _ => []

/- A text names no record. -/
theorem keys_ofText
    (text : String) :
    (ofText text).keys = [] := by
  rcases ofText_cases text with hType | ⟨_, hType⟩ | ⟨_, hType⟩ <;>
    simp [hType, keys]

end Descriptor

namespace Engine

open Descriptor (Everywhere)

/- Only records have keys. -/
theorem makesUnkeyed_keys
    (engine : Engine)
    (property : String → Prop) :
    engine.MakesUnkeyed fun type => ∀ name ∈ type.keys, property name where
  unknown := List.forall_mem_nil _
  literal := fun value => by
    cases value <;> exact List.forall_mem_nil _
  parameter := by
    rw [Descriptor.keys_ofText]
    exact List.forall_mem_nil _
  call := fun pattern _ => by
    rw [Descriptor.keys_ofText]
    exact List.forall_mem_nil _
  array := fun _ => List.forall_mem_nil _
  genericArray := fun _ _ _ => List.forall_mem_nil _
  function := fun _ _ => List.forall_mem_nil _
  union := fun _ _ _ => List.forall_mem_nil _

/- At any depth, the keys of records are names of properties. -/
theorem infer_everywhere_keys
    (engine : Engine)
    {store : Store}
    {property : String → Prop}
    (hNamed :
      ∀ id name value,
        store.namedField? id = some (name, value) → property name)
    (id : NodeId) :
    (engine.infer store id).Everywhere fun type =>
      ∀ name ∈ type.keys, property name := by
  refine ((engine.makesUnkeyed_keys property).passes store ?_).infer id
  intro fields hFields name hName
  rcases List.mem_map.1 hName with ⟨field, hField, rfl⟩
  rcases hFields field hField with ⟨id, value, hFound⟩
  exact hNamed id field.1 value hFound

/-
  The record of an object is keyed by the names of all its
  properties that have one, in order.
-/
theorem keys_infer_object
    (engine : Engine)
    {store : Store}
    {id : NodeId}
    {properties : List NodeId}
    (hKind : store.kind? id = some (.objectExpression properties)) :
    (engine.infer store id).keys =
      (properties.filterMap store.namedField?).map Prod.fst := by
  rcases Option.map_eq_some_iff.1 hKind with ⟨node, hFind, hNode⟩
  have hAnswer : engine.answer? store 0 id { } = none :=
    (engine.answer?_eq_none_iff store).2
      ⟨by simp, Nat.zero_le _, Store.mem_nodes_iff.2 ⟨node, hFind⟩,
        by simp⟩
  rw [infer_eq_visit, engine.visit_of_node store hAnswer hFind, hNode]
  -- There is one type for each name, so no name is cut off.
  refine List.map_fst_zip (Nat.le_of_eq ?_)
  rw [length_visitAll, Store.consulted, List.length_map, List.length_map]

end Engine

end ShapeTypes

------------------------------------------------------------
-- Legal Keys
------------------------------------------------------------

namespace ShapeTypes

open Concrete (Tree)

namespace Store

/- A stored property has a key, which gives it a name. -/
structure NamesField
    (store : Store)
    (key : NodeId)
    (computed : Bool)
    (name : String) : Prop where
  property :
    ∃ id value shorthand method,
      store.kind? id =
        some (.property key value computed shorthand method)
  named : store.keyName? key computed = some name

/- A field has the name that its key gives. -/
theorem exists_namesField
    {store : Store}
    {id value : NodeId}
    {name : String}
    (hNamed : store.namedField? id = some (name, value)) :
    ∃ key computed, store.NamesField key computed name := by
  unfold namedField? at hNamed
  split at hNamed
  · rename_i key _ computed shorthand method _ hFind
    rcases Option.map_eq_some_iff.1 hNamed with ⟨_, hKey, hSame⟩
    cases hSame
    exact ⟨key, computed, ⟨_, _, _, _, kind?_of_find? hFind⟩, hKey⟩
  · cases hNamed

/- Only words give names. -/
theorem exists_word_of_keyName?
    {store : Store}
    {key : NodeId}
    {computed : Bool}
    {name : String}
    (hName : store.keyName? key computed = some name) :
    ∃ node, store.find? key = some node ∧ node.kind.isWord = true := by
  unfold keyName? at hName
  split at hName
  · rename_i hFind
    exact ⟨_, hFind, rfl⟩
  · rename_i hFind
    exact ⟨_, hFind, rfl⟩
  · rename_i hFind
    exact ⟨_, hFind, rfl⟩
  · cases hName

/-
  A stored node of some kind is read from a concrete node of
  some form, which has a text.
-/
def ReadAs
    (store : Store)
    (source : List Char)
    (tree : Tree)
    (id : NodeId)
    (kind : Kind)
    (form : Form)
    (text : String) : Prop :=
  ∃ node label,
    store.find? id = some node ∧ node.kind = kind ∧
      tree.HasLabel label ∧ node.location = label.location ∧
        Form.ofKind label.kind = form ∧ label.text source = text

/-
  A name of a field that may stand in a type: that of a plain
  key, an identifier, a string as it is written, or a number
  that is no bigint.
-/
inductive LegalKey
    (store : Store)
    (source : List Char)
    (tree : Tree)
    (key : NodeId)
    (computed : Bool)
    (name : String) : Prop where
  | plain
      (hPlain : computed = false)
      (hKey : store.ReadAs source tree key (.identifier name) .name name)
  | word
      (hWord : Text.isIdentifier name = true)
  | quoted {value : String}
      (hKey :
        store.ReadAs source tree key (.literal (.string value) name)
          .string name)
  | number
      (hKey :
        store.ReadAs source tree key (.literal (.number name) name)
          .number name)
      (hLast : name.toList.getLast? ≠ some 'n')

/- A name that is a bigint or a regular expression instead. -/
inductive StrayKey
    (store : Store)
    (source : List Char)
    (tree : Tree)
    (key : NodeId)
    (name : String) : Prop where
  | bigint
      (hKey :
        store.ReadAs source tree key (.literal (.bigint name) name)
          .number name)
      (hLast : name.toList.getLast? = some 'n')
      (hWord : Text.isIdentifier name = false)
  | regexp
      (hKey :
        store.ReadAs source tree key (.literal (.regexp name) name)
          .regexp name)
      (hWord : Text.isIdentifier name = false)

variable {store : Store} {source : List Char} {tree : Tree}
variable {key : NodeId} {computed : Bool} {name : String}

/- A stored node has one kind. -/
theorem ReadAs.kind_unique
    {kind other : Kind}
    {form form' : Form}
    {text text' : String}
    (hRead : store.ReadAs source tree key kind form text)
    (hOther : store.ReadAs source tree key other form' text') :
    kind = other := by
  rcases hRead with ⟨node, _, hFind, hKind, -⟩
  rcases hOther with ⟨node', _, hFind', hKind', -⟩
  rw [hFind, Option.some.injEq] at hFind'
  rw [← hKind, ← hKind', hFind']

/- A text that no concrete node of the form has is not read. -/
theorem not_readAs
    {kind : Kind}
    {form : Form}
    {text : String}
    (hNone :
      (tree.subtrees.all fun t =>
        t.label.text source != text ||
          Form.ofKind t.label.kind != form) = true) :
    ¬ store.ReadAs source tree key kind form text := by
  rintro ⟨node, label, -, -, ⟨t, hSubtree, rfl⟩, -, hForm, hText⟩
  have hOther := List.all_eq_true.1 hNone t hSubtree
  simp [hForm, hText] at hOther

/- The key of a stray name is a bigint or a regular expression. -/
theorem StrayKey.kind_cases
    {kind : Kind}
    {form : Form}
    {text : String}
    (hStray : store.StrayKey source tree key name)
    (hRead : store.ReadAs source tree key kind form text) :
    kind = .literal (.bigint name) name ∨
      kind = .literal (.regexp name) name := by
  cases hStray with
  | bigint hKey => exact Or.inl (hRead.kind_unique hKey)
  | regexp hKey => exact Or.inr (hRead.kind_unique hKey)

/- No legal name is stray. -/
theorem LegalKey.not_strayKey
    (hLegal : store.LegalKey source tree key computed name) :
    ¬ store.StrayKey source tree key name := by
  intro hStray
  cases hLegal with
  | plain _ hKey =>
      rcases hStray.kind_cases hKey with hKind | hKind <;> cases hKind
  | word hWord =>
      have hNot : Text.isIdentifier name = false := by
        cases hStray <;> assumption
      rw [hNot] at hWord
      cases hWord
  | quoted hKey =>
      rcases hStray.kind_cases hKey with hKind | hKind <;> cases hKind
  | number hKey =>
      rcases hStray.kind_cases hKey with hKind | hKind <;> cases hKind

/- Every name in the store of a program is legal or stray. -/
theorem legalKey_or_strayKey
    (hName : (ofProgram source tree).keyName? key computed = some name) :
    (ofProgram source tree).LegalKey source tree key computed name ∨
      (ofProgram source tree).StrayKey source tree key name := by
  rcases exists_word_of_keyName? hName with
    ⟨⟨_, location, kind, _⟩, hFind, hWord⟩
  rcases exists_label_of_word hFind hWord with
    ⟨label, hLabel, hLocation, hKind⟩
  have hRead
      {form : Form}
      (hForm : Form.ofKind label.kind = form) :
      (ofProgram source tree).ReadAs source tree key kind form
        (label.text source) :=
    ⟨_, label, hFind, rfl, hLabel, hLocation, hForm, rfl⟩
  -- The cases are the words that a concrete node may stand for.
  unfold Draft.word? at hKind
  dsimp only at hKind
  split at hKind
  · rename_i hForm
    cases hKind
    simp only [keyName?, hFind] at hName
    split at hName
    · rename_i hValue
      cases hName
      exact Or.inl (.word hValue)
    · cases hName
      exact Or.inl (.quoted (hRead hForm))
  · rename_i hForm
    by_cases hLast : (label.text source).toList.getLast? = some 'n'
    · rw [Draft.numeric, if_pos hLast] at hKind
      cases hKind
      simp only [keyName?, hFind] at hName
      cases hName
      cases hValue : Text.isIdentifier (label.text source) with
      | true => exact Or.inl (.word hValue)
      | false => exact Or.inr (.bigint (hRead hForm) hLast hValue)
    · rw [Draft.numeric, if_neg hLast] at hKind
      cases hKind
      simp only [keyName?, hFind] at hName
      cases hName
      exact Or.inl (.number (hRead hForm) hLast)
  · cases hKind
    simp only [keyName?, hFind] at hName
    cases hName
    left
    cases label.text source == "true" <;> exact .word (by decide)
  · cases hKind
    simp only [keyName?, hFind] at hName
    cases hName
    exact Or.inl (.word (by decide))
  · rename_i hForm
    cases hKind
    simp only [keyName?, hFind] at hName
    cases hName
    cases hValue : Text.isIdentifier (label.text source) with
    | true => exact Or.inl (.word hValue)
    | false => exact Or.inr (.regexp (hRead hForm) hValue)
  · rename_i hForm
    cases hKind
    simp only [keyName?, hFind] at hName
    cases computed with
    | true => cases hName
    | false =>
        cases hName
        exact Or.inl (.plain rfl (hRead hForm))
  · cases hKind

/- A name in the store of a program is legal unless it is stray. -/
theorem legalKey_iff
    (hName : (ofProgram source tree).keyName? key computed = some name) :
    (ofProgram source tree).LegalKey source tree key computed name ↔
      ¬ (ofProgram source tree).StrayKey source tree key name :=
  ⟨LegalKey.not_strayKey, (legalKey_or_strayKey hName).resolve_right⟩

end Store

end ShapeTypes

------------------------------------------------------------
-- Keys of Inferred Types
------------------------------------------------------------

namespace ShapeTypes

open Concrete (Tree)

/-
  In the types that are inferred for a program, every key of a
  record, at any depth, is the name of a stored property, and
  it is legal unless it is a bigint or a regular expression.
  The names of properties are all written: those of an object
  are the keys of its type.
-/
theorem Engine.infer_keys
    {source : String}
    {tree : Tree}
    {store : Store}
    (hBuilt : (Store.build source (some tree)).value = .ok store)
    (engine : Engine) :
    (∀ id,
      (engine.infer store id).Everywhere fun type =>
        ∀ name ∈ type.keys, ∃ key computed,
          store.NamesField key computed name ∧
            (store.LegalKey source.toList tree key computed name ↔
              ¬ store.StrayKey source.toList tree key name)) ∧
      ∀ id properties,
        store.kind? id = some (.objectExpression properties) →
          (engine.infer store id).keys =
            (properties.filterMap store.namedField?).map Prod.fst := by
  rcases Store.build_eq_ok_iff.1 hBuilt with ⟨-, -, rfl⟩
  refine ⟨engine.infer_everywhere_keys ?_, ?_⟩
  · intro id name value hNamed
    rcases Store.exists_namesField hNamed with ⟨key, computed, hName⟩
    exact ⟨key, computed, hName, Store.legalKey_iff hName.named⟩
  · exact fun _ _ => engine.keys_infer_object

namespace Concrete.Sample

/-
  An object with a string as a key inside another, and with a
  bigint and a regular expression as computed keys.
-/
def literalKeys : String :=
  "let v = \x7b a: \x7b 'b c': 1 \x7d, [10n]: 3, [/r/]: 4 \x7d;"

/- The tree of the object. -/
def literalKeysTree : Tree :=
  named "program" none 0 48
    [named "lexical_declaration" none 0 48
      [node false "let" (some "kind") 0 3 [],
        named "variable_declarator" none 4 47
          [named "identifier" (some "name") 4 5 [],
            token "=" 6 7,
            named "object" (some "value") 8 47
              [token "\x7b" 8 9,
                named "pair" none 10 25
                  [named "property_identifier" (some "key") 10 11 [],
                    token ":" 11 12,
                    named "object" (some "value") 13 25
                      [token "\x7b" 13 14,
                        named "pair" none 15 23
                          [named "string" (some "key") 15 20
                            [token "'" 15 16,
                              named "string_fragment" none 16 19 [],
                              token "'" 19 20],
                            token ":" 20 21,
                            named "number" (some "value") 22 23 []],
                        token "\x7d" 24 25]],
                token "," 25 26,
                named "pair" none 27 35
                  [named "computed_property_name" (some "key") 27 32
                    [token "[" 27 28,
                      named "number" none 28 31 [],
                      token "]" 31 32],
                    token ":" 32 33,
                    named "number" (some "value") 34 35 []],
                token "," 35 36,
                named "pair" none 37 45
                  [named "computed_property_name" (some "key") 37 42
                    [token "[" 37 38,
                      named "regex" none 38 41
                        [token "/" 38 39,
                          named "regex_pattern" (some "pattern") 39 40 [],
                          token "/" 40 41],
                      token "]" 41 42],
                    token ":" 42 43,
                    named "number" (some "value") 44 45 []],
                token "\x7d" 46 47]],
        token ";" 47 48]]

end Concrete.Sample

namespace Engine

open Concrete.Sample (literalKeys literalKeysTree)

/- The string inside the inner object is a legal key. -/
theorem infer_keys_nested :
    ∃ store,
      (Store.build literalKeys (some literalKeysTree)).value = .ok store ∧
        ({ } : Engine).infer store 14 =
            .record
              [("a", .record [("'b c'", .primitive .number)]),
                ("10n", .primitive .number),
                ("/r/", .primitive .number)] ∧
          ∃ key computed,
            store.NamesField key computed "'b c'" ∧
              store.LegalKey literalKeys.toList literalKeysTree key
                computed "'b c'" := by
  have hBuilt :=
    Store.build_eq_ok_iff.2
      ⟨show literalKeysTree.refusal? literalKeys.toList = none by
        decide +kernel, by decide +kernel, rfl⟩
  have hType :
      ({ } : Engine).infer
          (Store.ofProgram literalKeys.toList literalKeysTree) 14 =
        .record
          [("a", .record [("'b c'", .primitive .number)]),
            ("10n", .primitive .number),
            ("/r/", .primitive .number)] := by
    decide +kernel
  refine ⟨_, hBuilt, hType, ?_⟩
  have hKeys := (infer_keys hBuilt { }).1 14
  rw [hType] at hKeys
  have hInner :=
    hKeys.parts (.record [("'b c'", .primitive .number)])
      (by simp [Descriptor.parts])
  rcases hInner.here "'b c'" (by simp [Descriptor.keys]) with
    ⟨key, computed, hName, hLegal⟩
  refine ⟨key, computed, hName, hLegal.2 ?_⟩
  intro hStray
  cases hStray with
  | bigint hKey => exact Store.not_readAs (by decide +kernel) hKey
  | regexp hKey => exact Store.not_readAs (by decide +kernel) hKey

/- The bigint and the regular expression are no legal keys. -/
theorem infer_keys_stray :
    ∃ store,
      (Store.build literalKeys (some literalKeysTree)).value = .ok store ∧
        (({ } : Engine).infer store 14).keys = ["a", "10n", "/r/"] ∧
          ∀ key computed,
            ¬ store.LegalKey literalKeys.toList literalKeysTree key
                computed "10n" ∧
              ¬ store.LegalKey literalKeys.toList literalKeysTree key
                computed "/r/" := by
  refine ⟨_, Store.build_eq_ok_iff.2 ⟨by decide +kernel, by decide +kernel, rfl⟩,
    by decide +kernel, fun key computed => ⟨?_, ?_⟩⟩
  · intro hLegal
    cases hLegal with
    | plain _ hKey => exact Store.not_readAs (by decide +kernel) hKey
    | word hWord => exact absurd hWord (by decide)
    | quoted hKey => exact Store.not_readAs (by decide +kernel) hKey
    | number _ hLast => exact hLast (by decide)
  · intro hLegal
    cases hLegal with
    | plain _ hKey => exact Store.not_readAs (by decide +kernel) hKey
    | word hWord => exact absurd hWord (by decide)
    | quoted hKey => exact Store.not_readAs (by decide +kernel) hKey
    | number hKey _ => exact Store.not_readAs (by decide +kernel) hKey

end Engine

end ShapeTypes
