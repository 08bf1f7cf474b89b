import ShapeTypes.Proofs.Store.Links
import ShapeTypes.Proofs.Store.Tightest
import ShapeTypes.Target

/-
  The annotations that the search finds.

  The name of a method stands twice in an outline, and the
  search finds the first copy only.  An annotation inside the
  second copy describes the same outline there as its copy
  does, so it makes no difference which of the two is found.

  Key definitions include:
    * `ShapeTypes.Outline.described?`
    * `ShapeTypes.Outline.Annotates`
    * `ShapeTypes.Site.described?`

  Key theorems include:
    * `ShapeTypes.Outline.Annotates.of_echo`
    * `ShapeTypes.Store.Represents.exists_ascription`
    * `ShapeTypes.Store.Represents.target_link`
-/

------------------------------------------------------------
-- What Annotations Describe
------------------------------------------------------------

namespace ShapeTypes

/-
  What an annotation at a place describes: the declarator it
  stands in, the operand of `as`, or the expression that an
  arrow function returns.
-/
def Outline.described?
    (owner : Outline)
    (place : Nat) :
    Option Outline :=
  match owner.kind with
  | .variableDeclarator _ (some type) _ =>
      if type = place then some owner else none
  | .asExpression expression type =>
      if type = place then owner.parts[expression]? else none
  | .arrowFunction _ (.expression body) (some type) =>
      if type = place then owner.parts[body]? else none
  | _ => none

namespace Site

/- The site that an annotation at a place describes. -/
def described?
    (owner : Site)
    (place : Nat) :
    Option Site :=
  match owner.outline.kind with
  | .variableDeclarator _ (some type) _ =>
      if type = place then some owner else none
  | .asExpression expression type =>
      if type = place then owner.parts[expression]? else none
  | .arrowFunction _ (.expression body) (some type) =>
      if type = place then owner.parts[body]? else none
  | _ => none

theorem map_outline_getElem?
    (site : Site)
    (place : Nat) :
    site.parts[place]?.map outline = site.outline.parts[place]? := by
  rw [← map_outline_parts, List.getElem?_map]

theorem map_outline_described?
    (owner : Site)
    (place : Nat) :
    (owner.described? place).map outline =
      owner.outline.described? place := by
  unfold described? Outline.described?
  split <;> try rfl
  · split <;> rfl
  · split
    · exact owner.map_outline_getElem? _
    · rfl
  · split
    · exact owner.map_outline_getElem? _
    · rfl

/- What is described is the owner or one of its parts. -/
theorem below_of_described?
    {owner described : Site}
    {place : Nat}
    (hDescribed : owner.described? place = some described) :
    owner.Below described := by
  unfold described? at hDescribed
  split at hDescribed
  · split at hDescribed
    · cases hDescribed
      exact .refl
    · simp at hDescribed
  · split at hDescribed
    · exact Below.refl.part (List.mem_of_getElem? hDescribed)
    · simp at hDescribed
  · split at hDescribed
    · exact Below.refl.part (List.mem_of_getElem? hDescribed)
    · simp at hDescribed
  · simp at hDescribed

/- Different parts have different ids. -/
theorem idAt_eq_id_iff
    {site part : Site}
    {place other : Nat}
    (hLists : site.outline.ListsParts)
    (hOther : other ∈ site.outline.kind.children)
    (hPart : site.parts[place]? = some part) :
    site.idAt other = part.id ↔ other = place := by
  constructor
  · intro hId
    rcases site.exists_part hLists.refersToParts hOther with ⟨same, hSame⟩
    rw [idAt_eq hSame] at hId
    have hIncreasing : (site.parts.map id).Pairwise (· < ·) := by
      rw [List.pairwise_map]
      refine (pairwise_listFrom _ _).imp ?_
      intro a b hBefore
      have hBase := b.base_lt_id
      omega
    have hIds : (site.parts.map id)[other]? = (site.parts.map id)[place]? := by
      rw [List.getElem?_map, List.getElem?_map, hSame, hPart]
      simp [hId]
    refine (List.getElem?_inj ?_ (hIncreasing.imp Nat.ne_of_lt)).1 hIds
    rw [List.length_map]
    exact (List.getElem?_eq_some_iff.1 hSame).1
  · rintro rfl
    exact idAt_eq hPart

/- The id of a part that a node refers to. -/
theorem some_idAt
    {site : Site}
    {place : Nat}
    (hLists : site.outline.ListsParts)
    (hPlace : place ∈ site.outline.kind.children) :
    some (site.idAt place) = site.parts[place]?.map id := by
  rcases site.exists_part hLists.refersToParts hPlace with ⟨part, hPart⟩
  rw [idAt_eq hPart, hPart]
  rfl

end Site

namespace Store

/- The node that an annotation describes is at the described site. -/
theorem annotated?_node
    {owner part : Site}
    {place : Nat}
    (parent : Option NodeId)
    (hLists : owner.outline.ListsParts)
    (hPart : owner.parts[place]? = some part) :
    annotated? part.id (owner.node parent) =
      (owner.described? place).map Site.id := by
  have hIff :
      ∀ other ∈ owner.outline.kind.children,
        owner.idAt other = part.id ↔ other = place :=
    fun _ hOther => Site.idAt_eq_id_iff hLists hOther hPart
  have hSome :
      ∀ other ∈ owner.outline.kind.children,
        some (owner.idAt other) = owner.parts[other]?.map Site.id :=
    fun _ hOther => Site.some_idAt hLists hOther
  unfold annotated? Site.described? Site.node Site.kind
  cases hKind : owner.outline.kind with
  | variableDeclarator name type init =>
      cases type with
      | none => rfl
      | some type =>
          have hType := hIff type (by simp [hKind, Kind.children])
          simp only [Kind.map, Option.map_some, hType]
          split <;> rfl
  | asExpression expression type =>
      have hType := hIff type (by simp [hKind, Kind.children])
      have hOperand := hSome expression (by simp [hKind, Kind.children])
      simp only [Kind.map, hType, hOperand]
      split <;> rfl
  | arrowFunction params body returnType =>
      cases returnType with
      | none => cases body <;> rfl
      | some type =>
          cases body with
          | block body => rfl
          | expression body =>
              have hType := hIff type (by simp [hKind, Kind.children])
              have hBody :=
                hSome body (by simp [hKind, Kind.children, ArrowBody.id])
              simp only [Kind.map, ArrowBody.map, Option.map_some, hType,
                hBody]
              split <;> rfl
  | _ => rfl

end Store

end ShapeTypes

------------------------------------------------------------
-- Copies of Annotations
------------------------------------------------------------

namespace ShapeTypes

namespace Outline

variable {range : SourceRange} {ascription : Outline}
variable {described : Option Outline}

/-
  Somewhere below an outline stands an annotation that
  describes something, or nothing.
-/
inductive Annotates
    (ascription : Outline)
    (described : Option Outline) :
    Outline → Prop where
  | part {owner : Outline} {place : Nat}
      (hPart : owner.parts[place]? = some ascription)
      (hDescribed : owner.described? place = described) :
      Annotates ascription described owner
  | lower {owner part : Outline}
      (hPart : part ∈ owner.parts)
      (hLower : Annotates ascription described part) :
      Annotates ascription described owner

/- What is annotated contains what the annotation contains. -/
theorem Annotates.within
    {outline : Outline}
    (hAnnotates : Annotates ascription described outline)
    (hSpanned : outline.Spanned)
    (hWithin : range.Within ascription.location) :
    range.Within outline.location := by
  induction hAnnotates with
  | part hPart _ =>
      have hMem := List.mem_of_getElem? hPart
      exact hWithin.of_inside
        (hSpanned.forall_inside.parts _ hMem).here
  | lower hPart _ ih =>
      exact (ih (hSpanned.parts _ hPart)).of_inside
        (hSpanned.forall_inside.parts _ hPart).here

/- A part contains what the annotation contains. -/
theorem Annotates.exists_part
    {outline : Outline}
    (hAnnotates : Annotates ascription described outline)
    (hSpanned : outline.Spanned)
    (hWithin : range.Within ascription.location) :
    ∃ part ∈ outline.parts, range.Within part.location := by
  cases hAnnotates with
  | part hPart _ =>
      exact ⟨ascription, List.mem_of_getElem? hPart, hWithin⟩
  | lower hPart hLower =>
      exact ⟨_, hPart, hLower.within (hSpanned.parts _ hPart) hWithin⟩

/-
  An annotation in an echo of a name stands in the name, too,
  and describes the same.
-/
theorem Annotates.of_echo
    {key outline : Outline}
    {text : String}
    (hEcho : Echo key outline)
    (hProper : range.start < range.stop)
    (hKind : ascription.kind = .ascription text)
    (hWithin : range.Within ascription.location)
    (hKey : range.Within key.location)
    (hSpanned : outline.Spanned)
    (hOutline :
      (outline = ascription ∧ described = none) ∨
        Annotates ascription described outline) :
    (key = ascription ∧ described = none) ∨
      Annotates ascription described key := by
  induction hEcho with
  | same => exact hOutline
  | @apart outline hApart =>
      have hOther : range.Within outline.location := by
        rcases hOutline with ⟨rfl, -⟩ | hAnnotates
        · exact hWithin
        · exact hAnnotates.within hSpanned hWithin
      exact absurd hApart (SourceRange.Within.not_apart hProper hKey hOther)
  | around _ _ ih =>
      rcases hOutline with ⟨rfl, -⟩ | hAnnotates
      · simp [Outline.kind] at hKind
      · cases hAnnotates with
        | part hPart hDescribed =>
            have hMem := List.mem_of_getElem? hPart
            refine ih _ hMem (hSpanned.parts _ hMem) (Or.inl ⟨rfl, ?_⟩)
            simpa [Outline.described?, Outline.kind] using hDescribed.symm
        | lower hPart hLower =>
            exact ih _ hPart (hSpanned.parts _ hPart) (Or.inr hLower)

/- Parts that lie on each other have no annotation. -/
theorem Spanned.apart_or_undescribed
    {outline : Outline}
    (hSpanned : outline.Spanned) :
    outline.parts.Pairwise Apart ∨
      ∀ place, outline.described? place = none := by
  cases hSpanned with
  | apart _ hApart _ => exact Or.inl hApart
  | method => exact Or.inr fun _ => rfl

/-
  The first part that contains the range of an annotation is
  the annotation or has it below.
-/
theorem Annotates.first
    {outline first : Outline}
    {before after : List Outline}
    {text : String}
    (hAnnotates : Annotates ascription described outline)
    (hProper : range.start < range.stop)
    (hKind : ascription.kind = .ascription text)
    (hWithin : range.Within ascription.location)
    (hSpanned : outline.Spanned)
    (hParts : outline.parts = before ++ first :: after)
    (hBefore : ∀ other ∈ before, ¬ range.Within other.location)
    (hFirst : range.Within first.location) :
    (first = ascription ∧
        outline.described? before.length = described) ∨
      Annotates ascription described first := by
  obtain ⟨place, part, hPart, hFound⟩ :
      ∃ place part, outline.parts[place]? = some part ∧
        ((part = ascription ∧ outline.described? place = described) ∨
          Annotates ascription described part) := by
    cases hAnnotates with
    | part hPart hDescribed =>
        exact ⟨_, _, hPart, Or.inl ⟨rfl, hDescribed⟩⟩
    | lower hPart hLower =>
        rcases List.getElem?_of_mem hPart with ⟨place, hPlace⟩
        exact ⟨place, _, hPlace, Or.inr hLower⟩
  have hMem := List.mem_of_getElem? hPart
  have hPartSpanned := hSpanned.parts _ hMem
  have hCovers : range.Within part.location := by
    rcases hFound with ⟨rfl, -⟩ | hLower
    · exact hWithin
    · exact hLower.within hPartSpanned hWithin
  rw [hParts] at hPart
  rcases Nat.lt_trichotomy place before.length with hLt | rfl | hGt
  · rw [List.getElem?_append_left hLt] at hPart
    exact absurd hCovers (hBefore part (List.mem_of_getElem? hPart))
  · rw [List.getElem?_append_right (Nat.le_refl _), Nat.sub_self,
      List.getElem?_cons_zero, Option.some.injEq] at hPart
    rw [hPart]
    exact hFound
  · have hLater : part ∈ after := by
      rw [List.getElem?_append_right (Nat.le_of_lt hGt)] at hPart
      rw [show place - before.length = (place - before.length - 1) + 1 by
        omega, List.getElem?_cons_succ] at hPart
      exact List.mem_of_getElem? hPart
    -- A later part that contains the range too echoes the first one.
    rcases hSpanned.apart_or_undescribed with hApart | hNone
    · rw [hParts] at hApart
      have hSeparate :=
        (List.pairwise_cons.1 (List.pairwise_append.1 hApart).2.1).1
      exact absurd (hSeparate part hLater)
        (SourceRange.Within.not_apart hProper hFirst hCovers)
    · have hEcho := hSpanned.pairwise_echo
      rw [hParts] at hEcho
      have hEchoes :=
        (List.pairwise_cons.1 (List.pairwise_append.1 hEcho).2.1).1
      rw [hNone]
      rw [hNone] at hFound
      refine (Annotates.of_echo (hEchoes part hLater) hProper hKind hWithin
        hFirst hPartSpanned ?_).imp_left fun h => ⟨h.1, h.2.symm⟩
      exact hFound.imp_left fun h => ⟨h.1, h.2.symm⟩

end Outline

end ShapeTypes

------------------------------------------------------------
-- The Search for an Annotation
------------------------------------------------------------

namespace ShapeTypes

namespace Site

/- What stands below a site stands below every site above. -/
theorem Below.annotates
    {top site : Site}
    {ascription : Outline}
    {described : Option Outline}
    (hBelow : top.Below site)
    (hSite : Outline.Annotates ascription described site.outline) :
    Outline.Annotates ascription described top.outline := by
  induction hBelow with
  | refl => exact hSite
  | part _ hPart ih =>
      exact ih (.lower (outline_mem_of_mem_parts hPart) hSite)

end Site

namespace Store

namespace Represents

variable {store : Store} {top site owner part : Site}
variable {range : SourceRange} {place : Nat} {text : String}

/-
  The search for the range of an annotation ends at the
  annotation or a copy of it that describes the same.
-/
theorem exists_ascription
    {ascription : Outline}
    {described : Option Outline}
    (hRep : store.Represents top)
    (hProper : range.start < range.stop)
    (hKind : ascription.kind = .ascription text)
    (hWithin : range.Within ascription.location)
    (hBelow : top.Below site)
    (hLists : site.outline.Forall Outline.ListsParts)
    (hSpanned : site.outline.Spanned)
    (hAnnotates : Outline.Annotates ascription described site.outline) :
    ∃ owner place found,
      top.Below owner ∧
        owner.parts[place]? = some found ∧
        store.Leads range site.id found.id ∧
        found.outline = ascription ∧
        owner.outline.described? place = described := by
  induction site using Site.induct with
  | hSite site ih =>
      rcases none_or_first site range with
        hNone | ⟨before, first, after, hParts, hBefore, hFirst⟩
      · exfalso
        rcases hAnnotates.exists_part hSpanned hWithin with
          ⟨part, hPart, hCovers⟩
        rw [← Site.map_outline_parts] at hPart
        rcases List.mem_map.1 hPart with ⟨lower, hLower, rfl⟩
        exact hNone lower hLower hCovers
      · have hMem : first ∈ site.parts := by simp [hParts]
        have hFirstBelow := hBelow.part hMem
        have hFirstLists :=
          hLists.parts _ (Site.outline_mem_of_mem_parts hMem)
        have hFirstSpanned :=
          hSpanned.parts _ (Site.outline_mem_of_mem_parts hMem)
        have hOutlines :
            site.outline.parts =
              before.map Site.outline ++
                first.outline :: after.map Site.outline := by
          rw [← Site.map_outline_parts, hParts, List.map_append,
            List.map_cons]
        rcases hAnnotates.first hProper hKind hWithin hSpanned hOutlines
            (List.forall_mem_map.2 hBefore) hFirst with
          ⟨hFound, hDescribed⟩ | hLower
        · refine ⟨site, before.length, first, hBelow, by simp [hParts], ?_,
            hFound, by rwa [List.length_map] at hDescribed⟩
          refine hRep.leads_part hBelow hLists.here hParts hBefore hFirst ?_
          refine hRep.leads_self hFirstBelow hFirstLists.here ?_
          have hLeaf := hFirstLists.here.parts_of_children
            (by rw [hFound, hKind]; rfl)
          rw [Site.parts, hLeaf]
          exact List.forall_mem_nil _
        · rcases ih first hMem hFirstBelow hFirstLists hFirstSpanned
              hLower with
            ⟨owner, place, found, hOwner, hPart, hLeads, hFound⟩
          exact ⟨owner, place, found, hOwner, hPart,
            hRep.leads_part hBelow hLists.here hParts hBefore hFirst hLeads,
            hFound⟩

/- The target at an annotation of the linked store. -/
theorem target_link
    (hRep : store.Represents top)
    (hLists : top.outline.Forall Outline.ListsParts)
    (hOwner : top.Below owner)
    (hPart : owner.parts[place]? = some part)
    (hKind : part.outline.kind = .ascription text)
    (hText : Text.trim text = Placeholder.word) :
    (store.link.value.target part.id).value =
      .ascription ((owner.described? place).map Site.id) := by
  have hMem := List.mem_of_getElem? hPart
  have hFind := hRep.find?_link hLists hOwner hMem
  rcases hRep.link.find hOwner with ⟨parent, hOwnerFind⟩
  have hAnnotated :=
    annotated?_node parent (hOwner.forall_outline hLists).here hPart
  have hNodeKind :
      (part.node (some owner.id)).kind = .ascription text := by
    simp [Site.node, Site.kind, hKind, Kind.map]
  have hParent :
      (part.node (some owner.id)).parent.bind store.link.value.find? =
        some (owner.node parent) :=
    hOwnerFind
  simp only [target, hFind, hNodeKind, hText, if_true, placeholderTarget,
    hParent, hAnnotated]
  cases owner.described? place <;> rfl

end Represents

end Store

end ShapeTypes
