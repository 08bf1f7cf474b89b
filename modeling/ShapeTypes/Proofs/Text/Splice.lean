import ShapeTypes.Proofs.Text.Patch
import ShapeTypes.Proofs.Text.Position

/-
  What edits do to a text.

  Edits are applied exactly when they have offsets, none is
  reversed, and of any two of them one ends before the other
  starts.  The result is the original text from front to
  back, with the edits put in between in stable order.

  Key definitions include:
    * `ShapeTypes.TextEdit.Spans`
    * `ShapeTypes.ResolvedEdit.StablySorted`
    * `ShapeTypes.ResolvedEdit.splice?`

  Key theorems include:
    * `ShapeTypes.ResolvedEdit.StablySorted.apart_iff`
    * `ShapeTypes.ResolvedEdit.splice?_eq_foldr`
    * `ShapeTypes.TextEdit.applyAll_splice`
-/

------------------------------------------------------------
-- Offsets of Edits
------------------------------------------------------------

namespace ShapeTypes

namespace TextEdit

/- The range of an edit has these offsets, the first before the second. -/
def Spans
    (source : String)
    (edit : TextEdit)
    (start stop : Nat) : Prop :=
  edit.range.start.offset? source = some start ∧
    edit.range.stop.offset? source = some stop ∧ start ≤ stop

/- Of two edits, one ends at or before the start of the other. -/
def Separate
    (source : String)
    (a b : TextEdit) : Prop :=
  ∀ aStart aStop bStart bStop,
    a.Spans source aStart aStop → b.Spans source bStart bStop →
      aStop ≤ bStart ∨ bStop ≤ aStart

/- An edit together with the offsets of its range. -/
def ResolvesTo
    (source : String)
    (edit : TextEdit)
    (e : ResolvedEdit) : Prop :=
  e.edit = edit ∧ edit.Spans source e.start e.stop

variable {source : String} {edit : TextEdit} {edits : List TextEdit}
variable {resolved : List ResolvedEdit}

theorem Spans.unique
    {start stop start' stop' : Nat}
    (hSpans : edit.Spans source start stop)
    (hOther : edit.Spans source start' stop') :
    start = start' ∧ stop = stop' := by
  constructor
  · exact Option.some.inj (hSpans.1.symm.trans hOther.1)
  · exact Option.some.inj (hSpans.2.1.symm.trans hOther.2.1)

/- An edit is resolved to its offsets, if they are in order. -/
theorem resolve_eq_ok_iff
    {e : ResolvedEdit} :
    resolve source edit = .ok e ↔ edit.ResolvesTo source e := by
  rcases e with ⟨start, stop, replacing⟩
  unfold resolve ResolvesTo Spans
  cases hStart : edit.range.start.offset? source with
  | none => simp
  | some p =>
      cases hStop : edit.range.stop.offset? source with
      | none => simp
      | some q =>
          by_cases hReversed : q < p
          · simp only [hReversed, if_true, reduceCtorEq, false_iff]
            rintro ⟨-, hp, hq, hOrder⟩
            cases hp
            cases hq
            omega
          · simp only [hReversed, if_false, Except.ok.injEq,
              ResolvedEdit.mk.injEq, Option.some.injEq]
            constructor
            · rintro ⟨rfl, rfl, rfl⟩
              exact ⟨rfl, rfl, rfl, by omega⟩
            · rintro ⟨rfl, rfl, rfl, -⟩
              exact ⟨rfl, rfl, rfl⟩

/- Edits are resolved one by one. -/
theorem resolveAll_eq_ok_iff :
    resolveAll source edits = .ok resolved ↔
      List.Forall₂ (ResolvesTo source) edits resolved := by
  induction edits generalizing resolved with
  | nil =>
      rw [resolveAll, List.forall₂_nil_left_iff, Except.ok.injEq, eq_comm]
  | cons edit edits ih =>
      rw [resolveAll, List.forall₂_cons_left_iff]
      cases hFirst : resolve source edit with
      | error e =>
          simp only [reduceCtorEq, false_iff]
          rintro ⟨first, rest, hResolves, -⟩
          rw [resolve_eq_ok_iff.2 hResolves] at hFirst
          cases hFirst
      | ok first =>
          cases hRest : resolveAll source edits with
          | error e =>
              simp only [reduceCtorEq, false_iff]
              rintro ⟨_, rest, -, hResolves, -⟩
              rw [ih.2 hResolves] at hRest
              cases hRest
          | ok rest =>
              simp only [Except.ok.injEq]
              constructor
              · rintro rfl
                exact ⟨first, rest, resolve_eq_ok_iff.1 hFirst,
                  ih.1 hRest, rfl⟩
              · rintro ⟨other, others, hOther, hOthers, rfl⟩
                rw [resolve_eq_ok_iff.2 hOther, Except.ok.injEq] at hFirst
                rw [ih.2 hOthers, Except.ok.injEq] at hRest
                rw [hFirst, hRest]

theorem exists_resolved_iff :
    (∃ resolved, List.Forall₂ (ResolvesTo source) edits resolved) ↔
      ∀ edit ∈ edits, ∃ start stop, edit.Spans source start stop := by
  induction edits with
  | nil => simp
  | cons edit edits ih =>
      rw [List.forall_mem_cons, ← ih]
      constructor
      · rintro ⟨resolved, hResolves⟩
        rcases List.forall₂_cons_left_iff.1 hResolves with
          ⟨first, rest, hFirst, hRest, -⟩
        exact ⟨⟨first.start, first.stop, hFirst.2⟩, rest, hRest⟩
      · rintro ⟨⟨start, stop, hSpans⟩, rest, hRest⟩
        exact ⟨⟨start, stop, edit⟩ :: rest, .cons ⟨rfl, hSpans⟩ hRest⟩

/- What is resolved has the offsets of its own edit. -/
theorem spans_of_resolved
    (hResolves : List.Forall₂ (ResolvesTo source) edits resolved) :
    ∀ e ∈ resolved, e.edit.Spans source e.start e.stop := by
  induction hResolves with
  | nil => simp
  | cons hFirst _ ih =>
      rw [List.forall_mem_cons]
      refine ⟨?_, ih⟩
      rw [hFirst.1]
      exact hFirst.2

/- The resolved edits are the edits with their offsets. -/
theorem map_edit_of_resolved
    (hResolves : List.Forall₂ (ResolvesTo source) edits resolved) :
    resolved.map (·.edit) = edits := by
  induction hResolves with
  | nil => rfl
  | cons hFirst _ ih => rw [List.map_cons, hFirst.1, ih]

/- Two edits are separate when their offsets are apart. -/
theorem separate_iff
    {a b : ResolvedEdit}
    (ha : a.edit.Spans source a.start a.stop)
    (hb : b.edit.Spans source b.start b.stop) :
    a.edit.Separate source b.edit ↔ a.Apart b := by
  constructor
  · intro hSeparate
    exact hSeparate _ _ _ _ ha hb
  · intro hApart p q r s hp hr
    rcases ha.unique hp with ⟨rfl, rfl⟩
    rcases hb.unique hr with ⟨rfl, rfl⟩
    exact hApart

/- Any two edits are separate when the resolved ones are apart. -/
theorem pairwise_separate_iff
    (hResolves : List.Forall₂ (ResolvesTo source) edits resolved) :
    edits.Pairwise (Separate source) ↔
      resolved.Pairwise ResolvedEdit.Apart := by
  have hSpans := spans_of_resolved hResolves
  rw [← map_edit_of_resolved hResolves, List.pairwise_map]
  apply List.Pairwise.iff_of_mem
  intro a b ha hb
  exact separate_iff (hSpans a ha) (hSpans b hb)

end TextEdit

end ShapeTypes

------------------------------------------------------------
-- Stable Order
------------------------------------------------------------

namespace ShapeTypes

namespace ResolvedEdit

variable {edits ordered : List ResolvedEdit}

/-
  The same edits in the order of their starts, and of their
  ends where they start together.  Edits of one range stand
  in the order that they had.
-/
structure StablySorted
    (edits ordered : List ResolvedEdit) : Prop where
  perm : ordered.Perm edits
  sorted :
    ordered.Pairwise fun a b =>
      a.start < b.start ∨ a.start = b.start ∧ a.stop ≤ b.stop
  stable :
    ∀ start stop,
      (ordered.filter fun e => e.start = start ∧ e.stop = stop) =
        edits.filter fun e => e.start = start ∧ e.stop = stop

theorem before_iff
    {a b : ResolvedEdit} :
    a.before b = true ↔
      a.start < b.start ∨ a.start = b.start ∧ a.stop ≤ b.stop := by
  simp [before]

/- Sorting leaves edits of one range as they are. -/
theorem filter_mergeSort
    (edits : List ResolvedEdit)
    (start stop : Nat) :
    ((edits.mergeSort before).filter fun e =>
        e.start = start ∧ e.stop = stop) =
      edits.filter fun e => e.start = start ∧ e.stop = stop := by
  have hSame :
      (edits.filter fun e => e.start = start ∧ e.stop = stop).Pairwise
        fun a b => a.before b = true := by
    refine List.pairwise_iff_forall_sublist.2 ?_
    intro a b hSublist
    have ha := List.mem_filter.1 (hSublist.subset (by simp : a ∈ [a, b]))
    have hb := List.mem_filter.1 (hSublist.subset (by simp : b ∈ [a, b]))
    simp only [decide_eq_true_eq] at ha hb
    rw [before_iff]
    omega
  have hSublist :=
    (List.sublist_mergeSort before_trans before_total hSame
      List.filter_sublist).filter fun e => e.start = start ∧ e.stop = stop
  simp only [List.filter_filter, Bool.and_self] at hSublist
  exact (hSublist.eq_of_length
    ((List.mergeSort_perm edits before).filter _).length_eq.symm).symm

/- Sorting by starts and ends is stable. -/
theorem mergeSort_stablySorted
    (edits : List ResolvedEdit) :
    StablySorted edits (edits.mergeSort before) where
  perm := List.mergeSort_perm edits before
  sorted :=
    (List.pairwise_mergeSort before_trans before_total edits).imp
      before_iff.1
  stable := filter_mergeSort edits

/-
  Neighbours that do not overlap are apart from all that
  comes behind them.
-/
theorem firstOverlap?_eq_none_iff
    (hOrder : ∀ e ∈ edits, e.start ≤ e.stop) :
    firstOverlap? edits = none ↔
      edits.Pairwise fun a b => a.stop ≤ b.start := by
  constructor
  · intro hNone
    -- `a` ends before `b` starts, and `b` ends before all others start.
    induction edits with
    | nil => exact List.Pairwise.nil
    | cons a edits ih =>
        cases edits with
        | nil => exact List.pairwise_singleton _ _
        | cons b edits =>
            rw [firstOverlap?] at hNone
            split at hNone
            · cases hNone
            · rename_i hApart
              have hLater :=
                ih (fun e he => hOrder e (List.mem_cons_of_mem a he)) hNone
              have hb := hOrder b (by simp)
              refine List.pairwise_cons.2 ⟨?_, hLater⟩
              rw [List.forall_mem_cons]
              refine ⟨by omega, ?_⟩
              intro e he
              have hNext := (List.pairwise_cons.1 hLater).1 e he
              omega
  · exact firstOverlap?_eq_none

namespace StablySorted

/-
  Sorted edits end before the next one starts when any two of
  the edits are apart, in whichever order they came.
-/
theorem apart_iff
    (hSorted : StablySorted edits ordered)
    (hOrder : ∀ e ∈ edits, e.start ≤ e.stop) :
    (ordered.Pairwise fun a b => a.stop ≤ b.start) ↔
      edits.Pairwise Apart := by
  constructor
  · intro hApart
    exact hSorted.perm.pairwise (hApart.imp Or.inl) fun h => h.symm
  · intro hApart
    have hEither : ordered.Pairwise Apart :=
      hSorted.perm.symm.pairwise hApart fun h => h.symm
    refine (hSorted.sorted.and hEither).imp_of_mem ?_
    intro a b ha hb hBoth
    have hOrderA := hOrder a (hSorted.perm.mem_iff.1 ha)
    have hOrderB := hOrder b (hSorted.perm.mem_iff.1 hb)
    rcases hBoth with ⟨hBefore, hLeft | hRight⟩
    · exact hLeft
    · -- Only edits of one empty range can be apart the other way round.
      omega

end StablySorted

/- A list in which what satisfies a test comes first. -/
theorem eq_filter_append_filter
    {first : ResolvedEdit → Bool}
    (hFirst : edits.Pairwise fun a b => first b = true → first a = true) :
    edits = edits.filter first ++ edits.filter fun e => !first e := by
  induction edits with
  | nil => rfl
  | cons a edits ih =>
      rcases List.pairwise_cons.1 hFirst with ⟨hHead, hTail⟩
      cases ha : first a with
      | true =>
          rw [List.filter_cons_of_pos ha,
            List.filter_cons_of_neg (by simp [ha]), List.cons_append,
            ← ih hTail]
      | false =>
          have hNone : ∀ b ∈ edits, first b = false := by
            intro b hb
            rw [← Bool.not_eq_true]
            intro hPassed
            rw [hHead b hb hPassed] at ha
            cases ha
          rw [List.filter_eq_nil_iff.2, List.nil_append, eq_comm,
            List.filter_eq_self]
          · simpa [ha] using hNone
          · simpa [ha] using hNone

namespace StablySorted

/-
  Edits of the same start that replace some text would
  overlap, so there is at most one.
-/
theorem filter_replacing
    (hSorted : StablySorted edits ordered)
    (hOrder : ∀ e ∈ edits, e.start ≤ e.stop)
    (hApart : edits.Pairwise Apart)
    (offset : Nat) :
    (ordered.filter fun e => e.start = offset ∧ offset < e.stop) =
      edits.filter fun e => e.start = offset ∧ offset < e.stop := by
  have hPerm :=
    hSorted.perm.filter fun e => e.start = offset ∧ offset < e.stop
  have hOne :
      (ordered.filter fun e => e.start = offset ∧ offset < e.stop).Pairwise
        fun _ _ => False := by
    have hBehind := (hSorted.apart_iff hOrder).2 hApart
    refine (hBehind.sublist List.filter_sublist).imp_of_mem ?_
    intro a b ha hb hLe
    simp only [List.mem_filter, decide_eq_true_eq] at ha hb
    omega
  exact List.Perm.eq_of_pairwise (fun _ _ _ _ h => h.elim) hOne
    (hPerm.pairwise hOne False.elim) hPerm

/-
  Where several edits start together, the insertions come
  first, in the order that they had, and what replaces some
  text comes behind them.
-/
theorem filter_start
    (hSorted : StablySorted edits ordered)
    (hOrder : ∀ e ∈ edits, e.start ≤ e.stop)
    (hApart : edits.Pairwise Apart)
    (offset : Nat) :
    (ordered.filter fun e => e.start = offset) =
      (edits.filter fun e => e.start = offset ∧ e.stop = offset) ++
        edits.filter fun e => e.start = offset ∧ offset < e.stop := by
  have hProper : ∀ e ∈ ordered, e.start ≤ e.stop :=
    fun e he => hOrder e (hSorted.perm.mem_iff.1 he)
  have hFirst :
      (ordered.filter fun e => e.start = offset).Pairwise fun a b =>
        decide (b.stop = offset) = true →
          decide (a.stop = offset) = true := by
    refine (hSorted.sorted.sublist List.filter_sublist).imp_of_mem ?_
    intro a b ha hb hBefore hInsertion
    simp only [List.mem_filter, decide_eq_true_eq] at ha hb hInsertion ⊢
    have hOrderA := hProper a ha.1
    omega
  rw [eq_filter_append_filter hFirst, List.filter_filter,
    List.filter_filter, ← hSorted.stable,
    ← hSorted.filter_replacing hOrder hApart]
  congr 1
  · apply List.filter_congr
    intro e _
    simp [Bool.and_comm]
  · apply List.filter_congr
    intro e he
    have hOrderE := hProper e he
    rw [Bool.eq_iff_iff]
    simp only [Bool.and_eq_true, Bool.not_eq_true', decide_eq_true_eq,
      decide_eq_false_iff_not]
    omega

end StablySorted

end ResolvedEdit

end ShapeTypes

------------------------------------------------------------
-- Splices
------------------------------------------------------------

namespace ShapeTypes

namespace ResolvedEdit

open Text (byteLength)

variable {source : String} {ordered : List ResolvedEdit}

/-
  Go through a text from front to back.  Up to `done` it is
  dealt with.  The stretch before every edit is kept, then
  comes the text of the edit, and the text goes on where the
  edit stops.  All offsets are those of the original text.
-/
def splice?
    (source : List Char) :
    (done : Nat) → List ResolvedEdit → Option (List Char)
  | done, [] => Text.slice? done (byteLength source) source
  | done, e :: later => do
      let kept ← Text.slice? done e.start source
      let rest ← splice? source e.stop later
      pure (kept ++ e.edit.newText.toList ++ rest)

/- Edits that stand one behind the other cut the text into patches. -/
theorem exists_patches
    {done rest : List Char}
    (hSource : source.toList = done ++ rest)
    (hSpans : ∀ e ∈ ordered, e.edit.Spans source e.start e.stop)
    (hBehind : ∀ e ∈ ordered, byteLength done ≤ e.start)
    (hApart : ordered.Pairwise fun a b => a.stop ≤ b.start) :
    ∃ patches last,
      rest = Patch.original patches ++ last ∧
        Patch.resolvedFrom (byteLength done) patches = ordered := by
  induction ordered generalizing done rest with
  | nil => exact ⟨[], rest, by simp [Patch.original, Patch.resolvedFrom]⟩
  | cons e ordered ih =>
      rcases List.pairwise_cons.1 hApart with ⟨hNext, hLater⟩
      rcases hSpans e (by simp) with ⟨hStart, hStop, hOrder⟩
      rcases Position.offset?_eq_some_iff.1 hStart with
        ⟨before, more, hBefore, hLength, -⟩
      rcases Position.offset?_eq_some_iff.1 hStop with
        ⟨through, last, hThrough, hEnd, -⟩
      have hFirst := hBehind e (by simp)
      rcases Text.exists_eq_append_of_byteLength_le
          (hSource.symm.trans hBefore) (by omega) with
        ⟨kept, rfl, rfl⟩
      rcases Text.exists_eq_append_of_byteLength_le
          (hBefore.symm.trans hThrough) (by omega) with
        ⟨old, rfl, rfl⟩
      have hBeyond :
          ∀ later ∈ ordered,
            byteLength (done ++ kept ++ old) ≤ later.start := by
        intro later hMem
        rw [hEnd]
        exact hNext later hMem
      rcases ih hThrough (fun l hl => hSpans l (by simp [hl])) hBeyond
          hLater with
        ⟨patches, last, rfl, hResolved⟩
      refine ⟨⟨kept, old, e.edit⟩ :: patches, last, ?_, ?_⟩
      · simp [Patch.original]
      · simp only [Text.byteLength_append] at hLength hEnd hResolved
        rw [Patch.resolvedFrom]
        dsimp only
        rw [hResolved, hEnd, hLength]

/- What is spliced into patches: all of their edits. -/
theorem splice?_resolvedFrom
    (patches : List Patch)
    (done last : List Char) :
    splice? (done ++ (Patch.original patches ++ last)) (byteLength done)
        (Patch.resolvedFrom (byteLength done) patches) =
      some (Patch.filled (patches.map (·.edit)) patches ++ last) := by
  have hFilled :
      ∀ patches : List Patch,
        Patch.filled (patches.map (·.edit)) patches =
          patches.flatMap fun patch =>
            patch.kept ++ patch.edit.newText.toList := by
    intro patches
    unfold Patch.filled
    apply List.flatMap_congr
    intro patch hPatch
    rw [if_pos (List.mem_map_of_mem hPatch)]
  rw [hFilled]
  induction patches generalizing done with
  | nil =>
      have hSlice := Text.slice?_append done last []
      simp only [List.append_nil, ← Text.byteLength_append] at hSlice
      simpa [splice?, Patch.resolvedFrom, Patch.original] using hSlice
  | cons patch patches ih =>
      have hKept :=
        Text.slice?_append done patch.kept
          (patch.old ++ (Patch.original patches ++ last))
      have hLater := ih (done ++ patch.kept ++ patch.old)
      rw [List.append_assoc, List.append_assoc] at hLater
      simp only [Text.byteLength_append] at hLater
      have hOriginal :
          Patch.original (patch :: patches) ++ last =
            patch.kept ++
              (patch.old ++ (Patch.original patches ++ last)) := by
        simp [Patch.original]
      rw [hOriginal, Patch.resolvedFrom, splice?]
      dsimp only
      rw [hKept, hLater]
      simp

/-
  Replacing the ranges of edits in place, the last of them
  first, gives what a splice from front to back gives.
-/
theorem splice?_eq_foldr
    (hSpans : ∀ e ∈ ordered, e.edit.Spans source e.start e.stop)
    (hApart : ordered.Pairwise fun a b => a.stop ≤ b.start) :
    splice? source.toList 0 ordered =
      some (ordered.foldr replaceIn source.toList) := by
  rcases exists_patches (List.nil_append source.toList).symm hSpans
      (fun _ _ => Nat.zero_le _) hApart with
    ⟨patches, last, hSource, hResolved⟩
  have hAll :
      ordered.filter (·.edit ∈ patches.map (·.edit)) = ordered := by
    rw [List.filter_eq_self, ← hResolved]
    intro e he
    rw [← Patch.map_edit_resolvedFrom (byteLength []) patches]
    simpa using ⟨e, he, rfl⟩
  have hFill :=
    Patch.foldr_replaceIn (patches.map (·.edit)) patches [] last
  have hSplice := splice?_resolvedFrom patches [] last
  rw [hResolved, List.nil_append] at hSplice
  rw [hResolved, hAll, List.nil_append, List.nil_append] at hFill
  rw [hSource, hFill]
  exact hSplice

end ResolvedEdit

end ShapeTypes

------------------------------------------------------------
-- Application of Edits
------------------------------------------------------------

namespace ShapeTypes

namespace TextEdit

open ResolvedEdit (StablySorted Apart)

variable {source : String} {edits : List TextEdit}
variable {resolved : List ResolvedEdit} {text : String}

/- The result of edits that are resolved, or their first overlap. -/
theorem applyAll_of_resolved
    (hResolves : List.Forall₂ (ResolvesTo source) edits resolved) :
    applyAll source edits = .ok text ↔
      resolved.Pairwise Apart ∧
        ((resolved.mergeSort ResolvedEdit.before).foldr
          ResolvedEdit.replaceIn source.toList) = text.toList := by
  have hSorted := ResolvedEdit.mergeSort_stablySorted resolved
  have hOrder : ∀ e ∈ resolved, e.start ≤ e.stop :=
    fun e he => (spans_of_resolved hResolves e he).2.2
  have hNoOverlap :=
    ResolvedEdit.firstOverlap?_eq_none_iff
      (fun e he => hOrder e (hSorted.perm.mem_iff.1 he))
  rw [hSorted.apart_iff hOrder] at hNoOverlap
  rw [applyAll, resolveAll_eq_ok_iff.2 hResolves]
  dsimp only
  cases hOverlap :
      ResolvedEdit.firstOverlap?
        (resolved.mergeSort ResolvedEdit.before) with
  | some pair =>
      rw [hOverlap] at hNoOverlap
      simp only [reduceCtorEq, false_iff] at hNoOverlap ⊢
      exact fun h => hNoOverlap h.1
  | none =>
      rw [hOverlap] at hNoOverlap
      rw [Except.ok.injEq, ← String.toList_inj, String.toList_ofList]
      exact (and_iff_right (hNoOverlap.1 rfl)).symm

theorem exists_resolved_of_applyAll
    {source text : String}
    {edits : List TextEdit}
    (hText : applyAll source edits = .ok text) :
    ∃ resolved, List.Forall₂ (ResolvesTo source) edits resolved := by
  rw [applyAll] at hText
  split at hText
  · cases hText
  · rename_i resolved hAll
    exact ⟨resolved, resolveAll_eq_ok_iff.1 hAll⟩

/- The result of resolved edits is spliced from them in their order. -/
theorem splice?_of_applyAll
    {source text : String}
    {edits : List TextEdit}
    {resolved : List ResolvedEdit}
    (hResolves : List.Forall₂ (ResolvesTo source) edits resolved)
    (hText : applyAll source edits = .ok text) :
    ResolvedEdit.splice? source.toList 0
        (resolved.mergeSort ResolvedEdit.before) =
      some text.toList := by
  rcases (applyAll_of_resolved hResolves).1 hText with ⟨hApart, hFold⟩
  have hSorted := ResolvedEdit.mergeSort_stablySorted resolved
  have hSpans := spans_of_resolved hResolves
  rw [← hFold]
  apply ResolvedEdit.splice?_eq_foldr
  · intro e he
    exact hSpans e (hSorted.perm.mem_iff.1 he)
  · rw [hSorted.apart_iff fun e he => (hSpans e he).2.2]
    exact hApart

/-
  Edits are applied when each has offsets in order and any
  two of them are separate.  The result is then the original
  text with the edits spliced in from front to back, in the
  stable order of their ranges.  Insertions at one place are
  made in the order of the list, before what is replaced
  there.
-/
theorem applyAll_splice
    (source : String)
    (edits : List TextEdit) :
    ((∃ text, applyAll source edits = .ok text) ↔
        (∀ edit ∈ edits, ∃ start stop, edit.Spans source start stop) ∧
          edits.Pairwise (Separate source)) ∧
      ∀ text, applyAll source edits = .ok text →
        ∃ resolved ordered,
          List.Forall₂ (ResolvesTo source) edits resolved ∧
            StablySorted resolved ordered ∧
            ResolvedEdit.splice? source.toList 0 ordered =
              some text.toList ∧
            ∀ offset,
              (ordered.filter fun e => e.start = offset) =
                (resolved.filter fun e =>
                    e.start = offset ∧ e.stop = offset) ++
                  resolved.filter fun e =>
                    e.start = offset ∧ offset < e.stop := by
  refine ⟨⟨?_, ?_⟩, ?_⟩
  · rintro ⟨text, hText⟩
    rcases exists_resolved_of_applyAll hText with ⟨resolved, hResolves⟩
    refine ⟨exists_resolved_iff.1 ⟨resolved, hResolves⟩, ?_⟩
    rw [pairwise_separate_iff hResolves]
    exact ((applyAll_of_resolved hResolves).1 hText).1
  · rintro ⟨hSpans, hSeparate⟩
    rcases exists_resolved_iff.2 hSpans with ⟨resolved, hResolves⟩
    refine ⟨String.ofList ((resolved.mergeSort ResolvedEdit.before).foldr
      ResolvedEdit.replaceIn source.toList), ?_⟩
    rw [applyAll_of_resolved hResolves, String.toList_ofList]
    exact ⟨(pairwise_separate_iff hResolves).1 hSeparate, rfl⟩
  · intro text hText
    rcases exists_resolved_of_applyAll hText with ⟨resolved, hResolves⟩
    have hApart := ((applyAll_of_resolved hResolves).1 hText).1
    have hSorted := ResolvedEdit.mergeSort_stablySorted resolved
    have hOrder : ∀ e ∈ resolved, e.start ≤ e.stop :=
      fun e he => (spans_of_resolved hResolves e he).2.2
    exact ⟨resolved, resolved.mergeSort ResolvedEdit.before, hResolves,
      hSorted, splice?_of_applyAll hResolves hText,
      hSorted.filter_start hOrder hApart⟩

/- A replacement, and two insertions at the place where it starts. -/
def crowded : List TextEdit :=
  [⟨⟨⟨0, 1⟩, ⟨0, 2⟩⟩, "X"⟩, ⟨.caret ⟨0, 1⟩, "p"⟩, ⟨.caret ⟨0, 1⟩, "q"⟩]

/- The insertions are made in order, and before the replacement. -/
theorem applyAll_splice_crowded :
    applyAll "abc" crowded = .ok "apqXc" ∧
      crowded.Pairwise (Separate "abc") ∧
        ∃ resolved ordered,
          List.Forall₂ (ResolvesTo "abc") crowded resolved ∧
            StablySorted resolved ordered ∧
            ResolvedEdit.splice? "abc".toList 0 ordered =
              some "apqXc".toList := by
  have hText : applyAll "abc" crowded = .ok "apqXc" := by
    have hResolved :
        resolveAll "abc" crowded =
          .ok [⟨1, 2, ⟨⟨⟨0, 1⟩, ⟨0, 2⟩⟩, "X"⟩⟩,
            ⟨1, 1, ⟨.caret ⟨0, 1⟩, "p"⟩⟩, ⟨1, 1, ⟨.caret ⟨0, 1⟩, "q"⟩⟩] := by
      decide
    have hOrdered :
        List.mergeSort
            [⟨1, 2, ⟨⟨⟨0, 1⟩, ⟨0, 2⟩⟩, "X"⟩⟩,
              ⟨1, 1, ⟨.caret ⟨0, 1⟩, "p"⟩⟩, ⟨1, 1, ⟨.caret ⟨0, 1⟩, "q"⟩⟩]
            ResolvedEdit.before =
          [⟨1, 1, ⟨.caret ⟨0, 1⟩, "p"⟩⟩, ⟨1, 1, ⟨.caret ⟨0, 1⟩, "q"⟩⟩,
            ⟨1, 2, ⟨⟨⟨0, 1⟩, ⟨0, 2⟩⟩, "X"⟩⟩] := by
      simp [List.mergeSort, ResolvedEdit.before]
    rw [applyAll, hResolved]
    dsimp only
    rw [hOrdered]
    decide
  rcases applyAll_splice "abc" crowded with ⟨hApplied, hSpliced⟩
  rcases hSpliced "apqXc" hText with
    ⟨resolved, ordered, hResolves, hSorted, hSplice, -⟩
  exact ⟨hText, (hApplied.1 ⟨"apqXc", hText⟩).2, resolved, ordered,
    hResolves, hSorted, hSplice⟩

end TextEdit

end ShapeTypes
