import ShapeTypes.Text.Blank

/-
  Type descriptors: the structured form of a type.

  Key definitions include:
    * `ShapeTypes.Primitive`
    * `ShapeTypes.Descriptor`
    * `ShapeTypes.Descriptor.ofWord`
    * `ShapeTypes.Descriptor.ofText`
    * `ShapeTypes.Descriptor.join`

  Key theorems include:
    * `ShapeTypes.Descriptor.beq_iff_eq`
-/

namespace ShapeTypes

------------------------------------------------------------
-- Primitive Types
------------------------------------------------------------

/- The types that have a keyword of their own. -/
inductive Primitive where
  | string
  | number
  | boolean
  | null
  | bigint
deriving DecidableEq, Repr

namespace Primitive

/- Every primitive type. -/
def all : List Primitive :=
  [string, number, boolean, null, bigint]

/- The keyword of a primitive type. -/
def text : Primitive → String
  | string => "string"
  | number => "number"
  | boolean => "boolean"
  | null => "null"
  | bigint => "bigint"

/- The primitive type that a keyword names. -/
def ofText?
    (text : String) :
    Option Primitive :=
  all.find? fun primitive => primitive.text == text

end Primitive

------------------------------------------------------------
-- Descriptors
------------------------------------------------------------

/-
  A type.  A generic array lists its element types in the
  order in which they were first seen.  A named type holds
  its text as written.
-/
inductive Descriptor where
  | primitive (type : Primitive)
  | array (element : Descriptor)
  | genericArray (members : List Descriptor)
  | record (fields : List (String × Descriptor))
  | function (parameters : List (String × Descriptor)) (result : Descriptor)
  | union (members : List Descriptor)
  | named (text : String)
  | unknown
deriving Repr, Inhabited

namespace Descriptor

/- The type that a word names. -/
def ofWord
    (word : String) :
    Descriptor :=
  if word = "unknown" then
    unknown
  else
    match Primitive.ofText? word with
    | some type => primitive type
    | none => named word

/- The type that a text names. -/
def ofText
    (text : String) :
    Descriptor :=
  ofWord (Text.trim text)

/- The members that a type contributes to a union. -/
def alternatives : Descriptor → List Descriptor
  | union members => members
  | type => [type]

/-
  The union of some types, in order and with repetitions.
  The members of a union among them are taken in its place.
  No type at all gives `unknown`, and one type stays as it
  is.
-/
def join
    (types : List Descriptor) :
    Descriptor :=
  match types.flatMap alternatives with
  | [] => unknown
  | [type] => type
  | members => union members

/- The type says nothing. -/
def IsUnknown
    (type : Descriptor) : Prop :=
  match type with
  | unknown => True
  | _ => False

instance
    (type : Descriptor) :
    Decidable type.IsUnknown := by
  unfold IsUnknown
  split <;> infer_instance

------------------------------------------------------------
-- Equality
------------------------------------------------------------

mutual

/- Equality of types, by their structure. -/
def beq : Descriptor → Descriptor → Bool
  | primitive p, primitive q => p == q
  | array s, array t => beq s t
  | genericArray ss, genericArray ts => beqList ss ts
  | record fs, record gs => beqFields fs gs
  | function ps r, function qs s => beqFields ps qs && beq r s
  | union ss, union ts => beqList ss ts
  | named a, named b => a == b
  | unknown, unknown => true
  | _, _ => false

/- Equality of lists of types. -/
def beqList : List Descriptor → List Descriptor → Bool
  | [], [] => true
  | s :: ss, t :: ts => beq s t && beqList ss ts
  | _, _ => false

/- Equality of lists of named types. -/
def beqFields :
    List (String × Descriptor) → List (String × Descriptor) → Bool
  | [], [] => true
  | (a, s) :: fs, (b, t) :: gs => a == b && beq s t && beqFields fs gs
  | _, _ => false

end

mutual

private theorem beq_self : (s : Descriptor) → beq s s = true
  | primitive p => by simp [beq]
  | array s => by rw [beq, beq_self s]
  | genericArray ss => by rw [beq, beqList_self ss]
  | record fs => by rw [beq, beqFields_self fs]
  | function ps r => by rw [beq, beqFields_self ps, beq_self r]; rfl
  | union ss => by rw [beq, beqList_self ss]
  | named a => by simp [beq]
  | unknown => by rw [beq]

private theorem beqList_self : (ss : List Descriptor) → beqList ss ss = true
  | [] => by rw [beqList]
  | s :: ss => by rw [beqList, beq_self s, beqList_self ss]; rfl

private theorem beqFields_self :
    (fs : List (String × Descriptor)) → beqFields fs fs = true
  | [] => by rw [beqFields]
  | (a, s) :: fs => by
      rw [beqFields, beq_self s, beqFields_self fs]
      simp

end

mutual

private theorem eq_of_beq :
    (s t : Descriptor) → beq s t = true → s = t
  | primitive p, t, h => by
      cases t <;> simp_all [beq]
  | array s, t, h => by
      cases t <;> simp only [beq, Bool.false_eq_true] at h
      next t => rw [eq_of_beq s t h]
  | genericArray ss, t, h => by
      cases t <;> simp only [beq, Bool.false_eq_true] at h
      next ts => rw [eq_of_beqList ss ts h]
  | record fs, t, h => by
      cases t <;> simp only [beq, Bool.false_eq_true] at h
      next gs => rw [eq_of_beqFields fs gs h]
  | function ps r, t, h => by
      cases t <;> simp only [beq, Bool.false_eq_true, Bool.and_eq_true] at h
      next qs q => rw [eq_of_beqFields ps qs h.1, eq_of_beq r q h.2]
  | union ss, t, h => by
      cases t <;> simp only [beq, Bool.false_eq_true] at h
      next ts => rw [eq_of_beqList ss ts h]
  | named a, t, h => by
      cases t <;> simp_all [beq]
  | unknown, t, h => by
      cases t <;> simp_all [beq]

private theorem eq_of_beqList :
    (ss ts : List Descriptor) → beqList ss ts = true → ss = ts
  | [], [], _ => rfl
  | [], _ :: _, h => by simp [beqList] at h
  | _ :: _, [], h => by simp [beqList] at h
  | s :: ss, t :: ts, h => by
      simp only [beqList, Bool.and_eq_true] at h
      rw [eq_of_beq s t h.1, eq_of_beqList ss ts h.2]

private theorem eq_of_beqFields :
    (fs gs : List (String × Descriptor)) → beqFields fs gs = true → fs = gs
  | [], [], _ => rfl
  | [], _ :: _, h => by simp [beqFields] at h
  | _ :: _, [], h => by simp [beqFields] at h
  | (a, s) :: fs, (b, t) :: gs, h => by
      simp only [beqFields, Bool.and_eq_true, beq_iff_eq] at h
      rw [h.1.1, eq_of_beq s t h.1.2, eq_of_beqFields fs gs h.2]

end

theorem beq_iff_eq
    {s t : Descriptor} :
    beq s t = true ↔ s = t :=
  ⟨eq_of_beq s t, fun h => h ▸ beq_self s⟩

instance : DecidableEq Descriptor :=
  fun _ _ => decidable_of_iff _ beq_iff_eq

end Descriptor

end ShapeTypes
