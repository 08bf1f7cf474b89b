/-
  Byte offsets into a text.

  A text is a list of characters.  Offsets, lengths and
  columns count the bytes of its UTF-8 form, so only some
  offsets fall between two characters.

  Key definitions include:
    * `ShapeTypes.Text.byteLength`
    * `ShapeTypes.Text.splitAt?`
    * `ShapeTypes.Text.slice?`
    * `ShapeTypes.Text.replaceRange`
    * `ShapeTypes.Text.lines`

  Key theorems include:
    * `ShapeTypes.Text.splitAt?_eq_some_iff`
-/

namespace ShapeTypes

namespace Text

------------------------------------------------------------
-- Lengths and Cuts
------------------------------------------------------------

/- The number of bytes of a text. -/
def byteLength : List Char → Nat
  | [] => 0
  | c :: cs => c.utf8Size + byteLength cs

@[simp]
theorem byteLength_append
    (cs ds : List Char) :
    byteLength (cs ++ ds) = byteLength cs + byteLength ds := by
  induction cs with
  | nil => simp [byteLength]
  | cons c cs ih => simp [byteLength, ih, Nat.add_assoc]

/-
  The two parts of a text around a byte offset.  There are
  none when the offset is past the end or inside a
  character.
-/
def splitAt? : Nat → List Char → Option (List Char × List Char)
  | 0, cs => some ([], cs)
  | _ + 1, [] => none
  | n + 1, c :: cs =>
      if c.utf8Size ≤ n + 1 then
        (splitAt? (n + 1 - c.utf8Size) cs).map
          fun parts => (c :: parts.1, parts.2)
      else
        none

/- The two parts make up the text, and the offset is the length of the first. -/
theorem splitAt?_eq_some_iff
    {n : Nat}
    {cs before after : List Char} :
    splitAt? n cs = some (before, after) ↔
      cs = before ++ after ∧ byteLength before = n := by
  induction cs generalizing n before with
  | nil =>
      cases n with
      | zero =>
          cases before <;> simp [splitAt?, byteLength, eq_comm]
      | succ n =>
          cases before with
          | nil => simp [splitAt?, byteLength]
          | cons b before => simp [splitAt?]
  | cons c cs ih =>
      have hPos : 0 < c.utf8Size := Char.utf8Size_pos c
      cases n with
      | zero =>
          cases before with
          | nil => simp [splitAt?, byteLength, eq_comm]
          | cons b before =>
              have hb : 0 < b.utf8Size := Char.utf8Size_pos b
              simp only [splitAt?, byteLength, Option.some.injEq,
                Prod.mk.injEq, List.nil_eq, reduceCtorEq, false_and,
                false_iff, not_and]
              intro _
              omega
      | succ n =>
          rw [splitAt?]
          cases before with
          | nil =>
              split <;> simp [byteLength]
          | cons b before =>
              split
              · rename_i hLe
                simp only [Option.map_eq_some_iff, Prod.mk.injEq,
                  List.cons.injEq, Prod.exists, byteLength, List.cons_append]
                constructor
                · rintro ⟨before', after', hSplit, ⟨rfl, rfl⟩, rfl⟩
                  have hParts := ih.1 hSplit
                  exact ⟨⟨rfl, hParts.1⟩, by omega⟩
                · rintro ⟨⟨rfl, hEq⟩, hLen⟩
                  refine ⟨before, after, ih.2 ⟨hEq, by omega⟩, ⟨rfl, rfl⟩, rfl⟩
              · rename_i hLe
                simp only [reduceCtorEq, List.cons_append, List.cons.injEq,
                  byteLength, false_iff, not_and]
                rintro ⟨rfl, _⟩
                omega

/- The text between two byte offsets. -/
def slice?
    (start stop : Nat)
    (cs : List Char) :
    Option (List Char) :=
  if start ≤ stop then
    match splitAt? start cs with
    | some (_, rest) => (splitAt? (stop - start) rest).map (·.1)
    | none => none
  else
    none

/-
  Put `inserted` in place of the text between two byte
  offsets.  A range that does not cut the text cleanly
  changes nothing.
-/
def replaceRange
    (start stop : Nat)
    (inserted : List Char)
    (cs : List Char) :
    List Char :=
  match splitAt? start cs, splitAt? stop cs with
  | some (before, _), some (_, after) => before ++ inserted ++ after
  | _, _ => cs

------------------------------------------------------------
-- Lines
------------------------------------------------------------

/-
  The lines of a text, without their line feeds.  A text
  that ends in a line feed has an empty last line, and the
  empty text has one empty line.
-/
def lines : List Char → List (List Char)
  | [] => [[]]
  | c :: cs =>
      match c == '\n', lines cs with
      | true, rest => [] :: rest
      | false, line :: rest => (c :: line) :: rest
      | false, [] => [[c]]

theorem lines_ne_nil
    (cs : List Char) :
    lines cs ≠ [] := by
  cases cs with
  | nil => simp [lines]
  | cons c cs =>
      rw [lines]
      split <;> simp

end Text

end ShapeTypes
