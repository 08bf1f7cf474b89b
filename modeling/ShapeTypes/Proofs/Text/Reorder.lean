import Mathlib.Data.List.Perm.Basic
import ShapeTypes.Proofs.Text.Splice

/-
  Edits in another order.

  Whether edits can be applied does not depend on their order
  in the list, and neither does where their texts go.  Only
  of several insertions at one place the order is seen.

  Key definitions include:
    * `ShapeTypes.ResolvedEdit.insertedAt`
    * `ShapeTypes.ResolvedEdit.Alike`
    * `ShapeTypes.TextEdit.insertedAt`

  Key theorems include:
    * `ShapeTypes.ResolvedEdit.StablySorted.alike`
    * `ShapeTypes.ResolvedEdit.append_splice?_eq_iff`
    * `ShapeTypes.TextEdit.applyAll_reordered`
-/

------------------------------------------------------------
-- Insertions
------------------------------------------------------------

namespace ShapeTypes

namespace ResolvedEdit

variable {e : ResolvedEdit} {edits : List ResolvedEdit} {offset : Nat}

/- What edits insert at an offset, in the order of the list. -/
def insertedAt
    (offset : Nat)
    (edits : List ResolvedEdit) :
    List Char :=
  (edits.filter fun e => e.start = offset ∧ e.stop = offset).flatMap
    fun e => e.edit.newText.toList

/- An insertion at the offset comes before those behind it. -/
theorem insertedAt_cons_of_eq
    (hStart : e.start = offset)
    (hStop : e.stop = offset) :
    insertedAt offset (e :: edits) =
      e.edit.newText.toList ++ insertedAt offset edits := by
  rw [insertedAt, List.filter_cons_of_pos (by simp [hStart, hStop]),
    List.flatMap_cons, insertedAt]

/- Any other edit inserts nothing there. -/
theorem insertedAt_cons_of_ne
    (hNe : ¬ (e.start = offset ∧ e.stop = offset)) :
    insertedAt offset (e :: edits) = insertedAt offset edits := by
  rw [insertedAt, List.filter_cons_of_neg (by simpa using hNe), insertedAt]

/- Edits that start behind an offset insert nothing there. -/
theorem insertedAt_eq_nil
    (hBehind : ∀ e ∈ edits, offset < e.start) :
    insertedAt offset edits = [] := by
  rw [insertedAt, List.filter_eq_nil_iff.2, List.flatMap_nil]
  intro e he
  have hLt := hBehind e he
  simp only [decide_eq_true_eq]
  omega

/- In another order, as much is inserted. -/
theorem length_insertedAt_of_perm
    {others : List ResolvedEdit}
    (hPerm : edits.Perm others)
    (offset : Nat) :
    (insertedAt offset edits).length =
      (insertedAt offset others).length :=
  ((hPerm.filter _).flatMap_right _).length_eq

end ResolvedEdit

end ShapeTypes

------------------------------------------------------------
-- The Same Edits Sorted
------------------------------------------------------------

namespace ShapeTypes

namespace ResolvedEdit

/-
  Two edits have the same range, and also the same text
  unless they are insertions.
-/
structure Alike
    (a b : ResolvedEdit) : Prop where
  start : a.start = b.start
  stop : a.stop = b.stop
  text : a.start < a.stop → a.edit.newText = b.edit.newText

variable {edits others first second : List ResolvedEdit}

namespace StablySorted

/- Sorted from any order, edits have their ranges in one order. -/
theorem ranges_eq
    (hFirst : StablySorted edits first)
    (hSecond : StablySorted others second)
    (hPerm : edits.Perm others) :
    (first.map fun e => (e.start, e.stop)) =
      second.map fun e => (e.start, e.stop) := by
  have hOrdered :
      ∀ {edits ordered : List ResolvedEdit}, StablySorted edits ordered →
        (ordered.map fun e => (e.start, e.stop)).Pairwise fun a b =>
          a.1 < b.1 ∨ a.1 = b.1 ∧ a.2 ≤ b.2 :=
    fun hSorted => List.pairwise_map.2 hSorted.sorted
  have hRanges :=
    ((hFirst.perm.trans hPerm).trans hSecond.perm.symm).map
      fun e : ResolvedEdit => (e.start, e.stop)
  refine List.Perm.eq_of_pairwise ?_ (hOrdered hFirst) (hOrdered hSecond)
    hRanges
  intro a b _ _ hab hba
  apply Prod.ext
  · omega
  · omega

/-
  Sorted from two orders, the same edits are alike one by one:
  no two of them replace text in the same range.
-/
theorem alike
    (hFirst : StablySorted edits first)
    (hSecond : StablySorted others second)
    (hPerm : edits.Perm others)
    (hApart : edits.Pairwise Apart) :
    List.Forall₂ Alike first second := by
  have hRanges := hFirst.ranges_eq hSecond hPerm
  rw [← List.forall₂_eq_eq_eq, List.forall₂_map_left_iff,
    List.forall₂_map_right_iff, List.forall₂_iff_zip] at hRanges
  rw [List.forall₂_iff_zip]
  refine ⟨hRanges.1, fun {a b} hBoth => ?_⟩
  have hSame := hRanges.2 hBoth
  rw [Prod.mk.injEq] at hSame
  refine ⟨hSame.1, hSame.2, fun hProper => ?_⟩
  have ha := hFirst.perm.mem_iff.1 (List.of_mem_zip hBoth).1
  have hb := hSecond.perm.mem_iff.1 (List.of_mem_zip hBoth).2
  by_cases hEq : a = b
  · rw [hEq]
  · have hEither : Apart a b :=
      hApart.forall ha (hPerm.mem_iff.2 hb) hEq
    unfold Apart at hEither
    omega

end StablySorted

end ResolvedEdit

end ShapeTypes

------------------------------------------------------------
-- Splices of Edits That Are Alike
------------------------------------------------------------

namespace ShapeTypes

namespace ResolvedEdit

variable {source before other text otherText : List Char}
variable {first second : List ResolvedEdit} {done : Nat}

/- A splice goes on with the text up to the first edit. -/
theorem splice?_cons_eq_some_iff
    {e : ResolvedEdit} :
    splice? source done (e :: first) = some text ↔
      ∃ kept rest,
        Text.slice? done e.start source = some kept ∧
          splice? source e.stop first = some rest ∧
          text = kept ++ (e.edit.newText.toList ++ rest) := by
  simp only [splice?, Option.bind_eq_bind, Option.bind_eq_some_iff,
    Option.pure_def, Option.some.injEq, List.append_assoc]
  constructor
  · rintro ⟨kept, hKept, rest, hRest, rfl⟩
    exact ⟨kept, rest, hKept, hRest, rfl⟩
  · rintro ⟨kept, rest, hKept, hRest, rfl⟩
    exact ⟨kept, hKept, rest, hRest, rfl⟩

/- Nothing lies between an offset and itself. -/
theorem eq_nil_of_slice?
    {kept : List Char}
    (hKept : Text.slice? done done source = some kept) :
    kept = [] := by
  rw [Text.slice?, if_pos (Nat.le_refl _)] at hKept
  split at hKept
  · simpa [Text.splitAt?, eq_comm] using hKept
  · cases hKept

/- Edits that are alike stand behind the same offset. -/
theorem Alike.forall_le_start
    {offset : Nat}
    (hAlike : List.Forall₂ Alike first second)
    (hBehind : ∀ e ∈ first, offset ≤ e.start) :
    ∀ e ∈ second, offset ≤ e.start := by
  induction hAlike with
  | nil => exact List.forall_mem_nil _
  | cons hHead _ ih =>
      rw [List.forall_mem_cons] at hBehind ⊢
      exact ⟨hHead.start ▸ hBehind.1, ih hBehind.2⟩

/-
  What is inserted at an offset by the edits from `done` on,
  where `before` was already inserted at `done`.
-/
def insertedFrom
    (done : Nat)
    (before : List Char)
    (edits : List ResolvedEdit)
    (offset : Nat) :
    List Char :=
  (if offset = done then before else []) ++ insertedAt offset edits

/- The text that an edit adds to those inserted where it stops. -/
def insertion
    (e : ResolvedEdit) :
    List Char :=
  if e.start = e.stop then e.edit.newText.toList else []

/- An insertion at the same place comes behind what is there. -/
theorem insertedFrom_cons_of_eq
    {e : ResolvedEdit}
    (hStart : e.start = done)
    (hStop : e.stop = done) :
    insertedFrom done before (e :: first) =
      insertedFrom done (before ++ e.edit.newText.toList) first := by
  funext offset
  unfold insertedFrom
  by_cases hHere : offset = done
  · rw [if_pos hHere, if_pos hHere, insertedAt_cons_of_eq (by omega)
      (by omega), List.append_assoc]
  · rw [if_neg hHere, if_neg hHere, insertedAt_cons_of_ne (by omega)]

/- Beyond an edit, what is inserted comes from it and those behind it. -/
theorem insertedFrom_cons_of_lt
    {e : ResolvedEdit}
    (hBeyond : done < e.stop)
    (hNext : ∀ later ∈ first, e.stop ≤ later.start)
    (before : List Char)
    (offset : Nat) :
    insertedFrom done before (e :: first) offset =
      if offset = done then before
      else if offset < e.stop then []
      else insertedFrom e.stop e.insertion first offset := by
  have hNil :
      offset < e.stop → insertedAt offset (e :: first) = [] := by
    intro hLt
    rw [insertedAt_cons_of_ne (by omega)]
    apply insertedAt_eq_nil
    intro later hLater
    exact Nat.lt_of_lt_of_le hLt (hNext later hLater)
  unfold insertedFrom insertion
  split
  · rw [hNil (by omega), List.append_nil]
  · split
    · rename_i hLt
      rw [hNil hLt, List.append_nil]
    · by_cases hHere : offset = e.stop ∧ e.start = e.stop
      · rw [insertedAt_cons_of_eq (by omega) (by omega), if_pos hHere.1,
          if_pos hHere.2, List.nil_append]
      · rw [insertedAt_cons_of_ne (by omega)]
        split
        · rw [if_neg (by omega)]
        · rfl

/-
  Two lists of edits are compared at the offset `done`, and
  then at those where the first edit stops or behind it.
-/
theorem forall_insertedFrom_iff
    {a b : ResolvedEdit}
    (related : List Char → List Char → Prop)
    (hNil : related [] [])
    (hStop : a.stop = b.stop)
    (hBeyond : done < a.stop)
    (hNext : ∀ later ∈ first, a.stop ≤ later.start)
    (hOtherNext : ∀ later ∈ second, a.stop ≤ later.start) :
    (∀ offset, done ≤ offset →
        related (insertedFrom done before (a :: first) offset)
          (insertedFrom done other (b :: second) offset)) ↔
      related before other ∧
        ∀ offset, a.stop ≤ offset →
          related (insertedFrom a.stop a.insertion first offset)
            (insertedFrom a.stop b.insertion second offset) := by
  have hFirst := insertedFrom_cons_of_lt hBeyond hNext before
  have hSecond :=
    insertedFrom_cons_of_lt (e := b) (hStop ▸ hBeyond)
      (hStop ▸ hOtherNext) other
  rw [← hStop] at hSecond
  constructor
  · intro hAll
    constructor
    · have hHere := hAll done (Nat.le_refl _)
      rwa [hFirst, hSecond, if_pos rfl, if_pos rfl] at hHere
    · intro offset hOffset
      have hThere := hAll offset (by omega)
      rwa [hFirst, hSecond, if_neg (by omega), if_neg (by omega),
        if_neg (by omega), if_neg (by omega)] at hThere
  · rintro ⟨hHere, hThere⟩ offset -
    rw [hFirst, hSecond]
    split
    · exact hHere
    · split
      · exact hNil
      · exact hThere offset (by omega)

/- What comes behind a stretch that is kept is compared without it. -/
theorem append_kept_eq_iff
    {a b : ResolvedEdit}
    {kept rest otherRest : List Char}
    (hAlike : Alike a b)
    (hOrder : a.start ≤ a.stop)
    (hLength : before.length = other.length) :
    before ++ (kept ++ (a.edit.newText.toList ++ rest)) =
        other ++ (kept ++ (b.edit.newText.toList ++ otherRest)) ↔
      before = other ∧
        a.insertion ++ rest = b.insertion ++ otherRest := by
  have hRest :
      a.edit.newText.toList ++ rest = b.edit.newText.toList ++ otherRest ↔
        a.insertion ++ rest = b.insertion ++ otherRest := by
    unfold insertion
    rw [← hAlike.start, ← hAlike.stop]
    split
    · exact Iff.rfl
    · rename_i hNe
      rw [hAlike.text (by omega), List.append_cancel_left_eq,
        List.nil_append, List.nil_append]
  rw [← hRest]
  constructor
  · intro hText
    rcases List.append_inj hText hLength with ⟨hBefore, hBehind⟩
    exact ⟨hBefore, List.append_cancel_left hBehind⟩
  · rintro ⟨hBefore, hBehind⟩
    rw [hBefore, hBehind]

/-
  Texts that are spliced from edits that are alike, behind
  `before` and `other`, are equal when the insertions are
  equal at every offset.
-/
theorem append_splice?_eq_iff
    (before other : List Char)
    (hAlike : List.Forall₂ Alike first second)
    (hBehind : ∀ e ∈ first, done ≤ e.start ∧ e.start ≤ e.stop)
    (hApart : first.Pairwise fun a b => a.stop ≤ b.start)
    (hText : splice? source done first = some text)
    (hOther : splice? source done second = some otherText)
    (hLengths :
      ∀ offset, done ≤ offset →
        (insertedFrom done before first offset).length =
          (insertedFrom done other second offset).length) :
    before ++ text = other ++ otherText ↔
      ∀ offset, done ≤ offset →
        insertedFrom done before first offset =
          insertedFrom done other second offset := by
  induction hAlike generalizing done before other text otherText with
  | nil =>
      rw [splice?] at hText hOther
      rw [hText, Option.some.injEq] at hOther
      rw [hOther, List.append_left_inj]
      constructor
      · intro hBefore offset _
        rw [hBefore]
      · intro hAll
        simpa [insertedFrom, insertedAt] using hAll done (Nat.le_refl _)
  | @cons a b first second hHead hTail ih =>
      rw [List.forall_mem_cons] at hBehind
      rcases List.pairwise_cons.1 hApart with ⟨hNext, hApart⟩
      rcases splice?_cons_eq_some_iff.1 hText with
        ⟨kept, rest, hKept, hRest, rfl⟩
      rcases splice?_cons_eq_some_iff.1 hOther with
        ⟨otherKept, otherRest, hOtherKept, hOtherRest, rfl⟩
      rw [← hHead.start, hKept, Option.some.injEq] at hOtherKept
      rw [← hHead.stop] at hOtherRest
      subst hOtherKept
      have hRestBehind :
          ∀ e ∈ first, a.stop ≤ e.start ∧ e.start ≤ e.stop :=
        fun e he => ⟨hNext e he, (hBehind.2 e he).2⟩
      have hOtherNext : ∀ e ∈ second, a.stop ≤ e.start :=
        Alike.forall_le_start hTail hNext
      rcases Nat.lt_or_ge done a.stop with hBeyond | hAt
      · -- The texts before are compared, and then all that comes behind.
        rw [forall_insertedFrom_iff (fun s t => s.length = t.length) rfl
          hHead.stop hBeyond hNext hOtherNext] at hLengths
        rw [forall_insertedFrom_iff Eq rfl hHead.stop hBeyond hNext
          hOtherNext, append_kept_eq_iff hHead hBehind.1.2 hLengths.1,
          ih _ _ hRestBehind hApart hRest hOtherRest hLengths.2]
      · -- The edit inserts at `done`, behind what is already there.
        have hStop : a.stop = done := by omega
        have hStart : a.start = done := by omega
        rw [hStop] at hRestBehind hRest hOtherRest
        rw [hStart] at hKept
        rw [insertedFrom_cons_of_eq hStart hStop,
          insertedFrom_cons_of_eq (hHead.start ▸ hStart)
            (hHead.stop ▸ hStop)] at hLengths ⊢
        rw [eq_nil_of_slice? hKept, List.nil_append, List.nil_append,
          ← List.append_assoc, ← List.append_assoc]
        exact ih _ _ hRestBehind hApart hRest hOtherRest hLengths

/- The edits of a whole text are compared from its start on. -/
theorem splice?_eq_iff
    (hAlike : List.Forall₂ Alike first second)
    (hPerm : first.Perm second)
    (hOrder : ∀ e ∈ first, e.start ≤ e.stop)
    (hApart : first.Pairwise fun a b => a.stop ≤ b.start)
    (hText : splice? source 0 first = some text)
    (hOther : splice? source 0 second = some otherText) :
    text = otherText ↔
      ∀ offset, insertedAt offset first = insertedAt offset second := by
  have hFrom :
      ∀ edits, insertedFrom 0 [] edits = fun offset =>
        insertedAt offset edits := by
    intro edits
    funext offset
    rw [insertedFrom, ite_self, List.nil_append]
  have hSplice :=
    append_splice?_eq_iff [] [] hAlike
      (fun e he => ⟨Nat.zero_le _, hOrder e he⟩) hApart hText hOther
  simp only [hFrom, Nat.zero_le, forall_const, List.nil_append] at hSplice
  exact hSplice (length_insertedAt_of_perm hPerm)

end ResolvedEdit

end ShapeTypes

------------------------------------------------------------
-- Application in Another Order
------------------------------------------------------------

namespace ShapeTypes

namespace TextEdit

open ResolvedEdit (StablySorted Apart)

variable {source : String} {edits others : List TextEdit}
variable {resolved : List ResolvedEdit} {text other : String}

instance
    (source : String)
    (edit : TextEdit)
    (start stop : Nat) :
    Decidable (edit.Spans source start stop) := by
  unfold Spans
  infer_instance

/- What edits insert at an offset, in the order of the list. -/
def insertedAt
    (source : String)
    (offset : Nat)
    (edits : List TextEdit) :
    List Char :=
  (edits.filter fun edit => edit.Spans source offset offset).flatMap
    fun edit => edit.newText.toList

/- Two edits do not insert different texts at one place. -/
def Compatible
    (source : String)
    (a b : TextEdit) : Prop :=
  ∀ offset, a.Spans source offset offset → b.Spans source offset offset →
    a.newText = b.newText

theorem insertedAt_of_resolved
    (hResolves : List.Forall₂ (ResolvesTo source) edits resolved)
    (offset : Nat) :
    ResolvedEdit.insertedAt offset resolved =
      insertedAt source offset edits := by
  have hSpans := spans_of_resolved hResolves
  rw [ResolvedEdit.insertedAt, insertedAt,
    ← map_edit_of_resolved hResolves, List.filter_map, List.flatMap_map]
  congr 1
  apply List.filter_congr
  intro e he
  rw [Function.comp_apply, decide_eq_decide]
  constructor
  · rintro ⟨hStart, hStop⟩
    have hOwn := hSpans e he
    rwa [hStart, hStop] at hOwn
  · exact (hSpans e he).unique

/- Edits that do not differ in one place insert the same in any order. -/
theorem insertedAt_of_perm
    (hPerm : edits.Perm others)
    (hCompatible : edits.Pairwise (Compatible source))
    (offset : Nat) :
    insertedAt source offset edits = insertedAt source offset others := by
  have hInsertions :=
    hPerm.filter fun edit => edit.Spans source offset offset
  have hSame :
      ((edits.filter fun edit => edit.Spans source offset offset).map
        TextEdit.newText).Pairwise Eq := by
    rw [List.pairwise_map]
    refine (hCompatible.sublist List.filter_sublist).imp_of_mem ?_
    intro a b ha hb hBoth
    rw [List.mem_filter, decide_eq_true_eq] at ha hb
    exact hBoth offset ha.2 hb.2
  have hTexts :=
    List.Perm.eq_of_pairwise (fun _ _ _ _ hEq _ => hEq) hSame
      ((hInsertions.map TextEdit.newText).pairwise hSame Eq.symm)
      (hInsertions.map TextEdit.newText)
  have hJoined := congrArg (List.flatMap String.toList) hTexts
  rwa [List.flatMap_map, List.flatMap_map] at hJoined

theorem exists_resolved_of_perm
    (hPerm : edits.Perm others)
    (hResolves : List.Forall₂ (ResolvesTo source) edits resolved) :
    ∃ otherResolved,
      List.Forall₂ (ResolvesTo source) others otherResolved ∧
        resolved.Perm otherResolved := by
  rcases List.perm_comp_forall₂ hPerm.symm hResolves with
    ⟨otherResolved, hOther, hSame⟩
  exact ⟨otherResolved, hOther, hSame.symm⟩

/- Edits that are applied are applied in any order. -/
theorem exists_applyAll_of_perm
    (hPerm : edits.Perm others)
    (hText : applyAll source edits = .ok text) :
    ∃ other, applyAll source others = .ok other := by
  rcases exists_resolved_of_applyAll hText with ⟨resolved, hResolves⟩
  rcases exists_resolved_of_perm hPerm hResolves with
    ⟨otherResolved, hOther, hSame⟩
  have hApart := ((applyAll_of_resolved hResolves).1 hText).1
  refine ⟨String.ofList ((otherResolved.mergeSort
    ResolvedEdit.before).foldr ResolvedEdit.replaceIn source.toList), ?_⟩
  rw [applyAll_of_resolved hOther, String.toList_ofList]
  exact ⟨hSame.pairwise hApart fun h => h.symm, rfl⟩

/-
  The results of the same edits in two orders are equal when
  the same is inserted at every offset.
-/
theorem applyAll_eq_iff_of_perm
    (hPerm : edits.Perm others)
    (hText : applyAll source edits = .ok text)
    (hOther : applyAll source others = .ok other) :
    text = other ↔
      ∀ offset,
        insertedAt source offset edits =
          insertedAt source offset others := by
  rcases exists_resolved_of_applyAll hText with ⟨resolved, hResolves⟩
  rcases exists_resolved_of_perm hPerm hResolves with
    ⟨otherResolved, hOtherResolves, hSame⟩
  have hApart := ((applyAll_of_resolved hResolves).1 hText).1
  have hSorted := ResolvedEdit.mergeSort_stablySorted resolved
  have hOtherSorted := ResolvedEdit.mergeSort_stablySorted otherResolved
  have hOrder : ∀ e ∈ resolved, e.start ≤ e.stop :=
    fun e he => (spans_of_resolved hResolves e he).2.2
  have hInserted :
      ∀ {edits resolved}, List.Forall₂ (ResolvesTo source) edits resolved →
        ∀ offset,
          ResolvedEdit.insertedAt offset
              (resolved.mergeSort ResolvedEdit.before) =
            insertedAt source offset edits := by
    intro edits resolved hResolves offset
    rw [← insertedAt_of_resolved hResolves, ResolvedEdit.insertedAt,
      ResolvedEdit.filter_mergeSort, ResolvedEdit.insertedAt]
  have hSplice :=
    ResolvedEdit.splice?_eq_iff
      (hSorted.alike hOtherSorted hSame hApart)
      ((hSorted.perm.trans hSame).trans hOtherSorted.perm.symm)
      (fun e he => hOrder e (hSorted.perm.mem_iff.1 he))
      ((hSorted.apart_iff hOrder).2 hApart)
      (splice?_of_applyAll hResolves hText)
      (splice?_of_applyAll hOtherResolves hOther)
  simpa only [hInserted hResolves, hInserted hOtherResolves,
    String.toList_inj] using hSplice

/-
  In whichever order edits stand, they fail in all orders or
  are applied in all of them.  The results of two orders are
  equal just when at every offset the insertions make up the
  same text.  This is so in all orders if no two edits insert
  different texts at one place.
-/
theorem applyAll_reordered
    (hPerm : edits.Perm others) :
    ((∃ text, applyAll source edits = .ok text) ↔
        ∃ other, applyAll source others = .ok other) ∧
      (∀ text other,
        applyAll source edits = .ok text →
          applyAll source others = .ok other →
            (text = other ↔
              ∀ offset,
                insertedAt source offset edits =
                  insertedAt source offset others)) ∧
      (edits.Pairwise (Compatible source) →
        (applyAll source edits).toOption =
          (applyAll source others).toOption) := by
  have hBoth :
      (∃ text, applyAll source edits = .ok text) ↔
        ∃ other, applyAll source others = .ok other := by
    constructor
    · rintro ⟨text, hText⟩
      exact exists_applyAll_of_perm hPerm hText
    · rintro ⟨other, hOther⟩
      exact exists_applyAll_of_perm hPerm.symm hOther
  refine ⟨hBoth, fun text other => applyAll_eq_iff_of_perm hPerm, ?_⟩
  intro hCompatible
  cases hText : applyAll source edits with
  | ok text =>
      rcases hBoth.1 ⟨text, hText⟩ with ⟨other, hOther⟩
      have hInserted := insertedAt_of_perm hPerm hCompatible
      rw [hOther, (applyAll_eq_iff_of_perm hPerm hText hOther).2 hInserted]
  | error e =>
      cases hOther : applyAll source others with
      | ok other =>
          rcases hBoth.2 ⟨other, hOther⟩ with ⟨text, hOk⟩
          rw [hText] at hOk
          cases hOk
      | error e => rfl

/- Edits whose ranges are already in order are applied as they stand. -/
theorem applyAll_of_sorted
    (hResolved : resolveAll source edits = .ok resolved)
    (hSorted : resolved.Pairwise fun a b => a.before b = true)
    (hApart : ResolvedEdit.firstOverlap? resolved = none) :
    applyAll source edits =
      .ok (String.ofList
        (resolved.foldr ResolvedEdit.replaceIn source.toList)) := by
  rw [applyAll, hResolved]
  dsimp only
  rw [List.mergeSort_of_pairwise hSorted, hApart]

/- An edit that inserts a text behind the first character. -/
def insertion
    (text : String) :
    TextEdit :=
  ⟨.caret ⟨0, 1⟩, text⟩

/- An edit that replaces the second character. -/
def replacement
    (text : String) :
    TextEdit :=
  ⟨⟨⟨0, 1⟩, ⟨0, 2⟩⟩, text⟩

/- An insertion and a replacement behind it, in both orders. -/
theorem applyAll_reordered_replacement :
    [insertion "x", replacement "y"].Perm
        [replacement "y", insertion "x"] ∧
      applyAll "abc" [insertion "x", replacement "y"] = .ok "axyc" ∧
      (applyAll "abc" [replacement "y", insertion "x"]).toOption =
        some "axyc" := by
  have hPerm :
      [insertion "x", replacement "y"].Perm
        [replacement "y", insertion "x"] :=
    List.Perm.swap _ _ _
  have hText :
      applyAll "abc" [insertion "x", replacement "y"] = .ok "axyc" := by
    have hResolved :
        resolveAll "abc" [insertion "x", replacement "y"] =
          .ok [⟨1, 1, insertion "x"⟩, ⟨1, 2, replacement "y"⟩] := by
      decide
    rw [applyAll_of_sorted hResolved (by decide) (by decide)]
    decide
  have hCompatible :
      [insertion "x", replacement "y"].Pairwise (Compatible "abc") := by
    rw [List.pairwise_pair]
    rintro offset - ⟨hStart, hStop, -⟩
    rw [← hStop] at hStart
    exact absurd hStart (by decide)
  refine ⟨hPerm, hText, ?_⟩
  rw [← (applyAll_reordered hPerm).2.2 hCompatible, hText]
  rfl

/-
  Two insertions at one place are made in the order of the
  list, so the order of edits does matter.
-/
theorem applyAll_swapped_insertions :
    ¬ ∀ source edits others, List.Perm edits others →
      (applyAll source edits).toOption =
        (applyAll source others).toOption := by
  have hText :
      applyAll "abc" [insertion "x", insertion "y"] = .ok "axybc" := by
    have hResolved :
        resolveAll "abc" [insertion "x", insertion "y"] =
          .ok [⟨1, 1, insertion "x"⟩, ⟨1, 1, insertion "y"⟩] := by
      decide
    rw [applyAll_of_sorted hResolved (by decide) (by decide)]
    decide
  have hOther :
      applyAll "abc" [insertion "y", insertion "x"] = .ok "ayxbc" := by
    have hResolved :
        resolveAll "abc" [insertion "y", insertion "x"] =
          .ok [⟨1, 1, insertion "y"⟩, ⟨1, 1, insertion "x"⟩] := by
      decide
    rw [applyAll_of_sorted hResolved (by decide) (by decide)]
    decide
  intro hAll
  have hSame :=
    hAll "abc" _ _ (List.Perm.swap (insertion "x") (insertion "y") [])
  rw [hText, hOther] at hSame
  revert hSame
  decide

end TextEdit

end ShapeTypes
