import Mathlib.Data.List.Pairwise
import ShapeTypes.Outline

/-
  Sites: the places that outlines take among the ids.

  An outline that is stored after `base` ids takes the next
  ids up to that of its top node.  Its parts take separate
  stretches of them, one behind the other, so every id
  belongs to one node of the outline.

  Key definitions include:
    * `ShapeTypes.Outline.size`
    * `ShapeTypes.Outline.Forall`
    * `ShapeTypes.Outline.RefersToParts`
    * `ShapeTypes.Outline.ListsParts`
    * `ShapeTypes.Outline.ListsOnce`
    * `ShapeTypes.Site`
    * `ShapeTypes.Site.parts`
    * `ShapeTypes.Site.Below`

  Key theorems include:
    * `ShapeTypes.Site.Below.eq_of_id_eq`
    * `ShapeTypes.Site.exists_below`
    * `ShapeTypes.Site.Below.owner_unique`
-/

------------------------------------------------------------
-- Sizes
------------------------------------------------------------

namespace ShapeTypes

namespace Outline

mutual

/- The number of nodes of an outline. -/
def size : Outline → Nat
  | node _ _ parts => sizeAll parts + 1

/- The number of nodes of some outlines. -/
def sizeAll : List Outline → Nat
  | [] => 0
  | part :: parts => size part + sizeAll parts

end

/- The top node comes behind the nodes of the parts. -/
theorem size_eq
    (outline : Outline) :
    outline.size = sizeAll outline.parts + 1 := by
  cases outline with
  | node location kind parts => rfl

theorem size_le_sizeAll
    {part : Outline}
    {parts : List Outline}
    (hPart : part ∈ parts) :
    part.size ≤ sizeAll parts := by
  induction parts with
  | nil => simp at hPart
  | cons first parts ih =>
      rw [sizeAll]
      rcases List.mem_cons.1 hPart with rfl | hPart
      · exact Nat.le_add_right _ _
      · exact Nat.le_trans (ih hPart) (Nat.le_add_left _ _)

theorem size_lt_of_mem
    {outline part : Outline}
    (hMem : part ∈ outline.parts) :
    part.size < outline.size := by
  rw [size_eq outline]
  exact Nat.lt_succ_of_le (size_le_sizeAll hMem)

end Outline

end ShapeTypes

------------------------------------------------------------
-- Properties of All Parts
------------------------------------------------------------

namespace ShapeTypes

namespace Outline

/- A property of an outline and of all outlines below it. -/
inductive Forall
    (property : Outline → Prop) :
    Outline → Prop where
  | intro {outline : Outline}
      (hHere : property outline)
      (hParts : ∀ part ∈ outline.parts, Forall property part) :
      Forall property outline

namespace Forall

variable {property : Outline → Prop} {outline : Outline}

theorem here
    (hAll : outline.Forall property) :
    property outline := by
  cases hAll
  assumption

theorem parts
    (hAll : outline.Forall property) :
    ∀ part ∈ outline.parts, part.Forall property := by
  cases hAll
  assumption

theorem imp
    {weaker : Outline → Prop}
    (hAll : outline.Forall property)
    (hImp : ∀ part, property part → weaker part) :
    outline.Forall weaker := by
  induction hAll with
  | intro hHere _ ih => exact .intro (hImp _ hHere) ih

end Forall

end Outline

end ShapeTypes

------------------------------------------------------------
-- Parts in Order
------------------------------------------------------------

namespace ShapeTypes

namespace Outline

/- A node refers to its parts only. -/
def RefersToParts
    (outline : Outline) : Prop :=
  ∀ place ∈ outline.kind.children, place < outline.parts.length

/- A node refers to all its parts, in their order. -/
structure ListsParts
    (outline : Outline) : Prop where
  ordered : outline.kind.children.Pairwise (· ≤ ·)
  all :
    ∀ place : Nat,
      place ∈ outline.kind.children ↔ place < outline.parts.length

/- A node that lists its parts refers to nothing else. -/
theorem ListsParts.refersToParts
    {outline : Outline}
    (hLists : outline.ListsParts) :
    outline.RefersToParts :=
  fun place => (hLists.all place).1

/- A node that refers to each part once lists its parts. -/
theorem ListsParts.of_range
    {outline : Outline}
    (hRange :
      outline.kind.children = List.range outline.parts.length) :
    outline.ListsParts := by
  constructor
  · rw [hRange]
    exact List.pairwise_le_range
  · intro place
    rw [hRange, List.mem_range]

/-
  A property that is written as its name alone.  The name is
  its one part, and both its key and its value.
-/
def IsShorthand
    (outline : Outline) : Prop :=
  outline.kind = .property 0 0 false true false ∧
    ∃ location name, outline.parts = [.leaf location (.identifier name)]

/- A node refers to each part once, or is a shorthand property. -/
def ListsOnce
    (outline : Outline) : Prop :=
  outline.kind.children = List.range outline.parts.length ∨
    outline.IsShorthand

/- A node that lists its parts once lists its parts. -/
theorem ListsOnce.listsParts
    {outline : Outline}
    (hOnce : outline.ListsOnce) :
    outline.ListsParts := by
  rcases hOnce with hRange | ⟨hKind, location, name, hParts⟩
  · exact .of_range hRange
  · constructor
    · simp [hKind, Kind.children]
    · intro place
      simp [hKind, hParts, Kind.children]

/- A node that refers to no parts has none. -/
theorem ListsParts.parts_of_children
    {outline : Outline}
    (hLists : outline.ListsParts)
    (hNone : outline.kind.children = []) :
    outline.parts = [] := by
  by_contra hSome
  have hFirst := (hLists.all 0).2 (List.length_pos_iff.2 hSome)
  rw [hNone] at hFirst
  simp at hFirst

end Outline

end ShapeTypes

------------------------------------------------------------
-- Sites
------------------------------------------------------------

namespace ShapeTypes

/- An outline that is stored when `base` ids are given out. -/
structure Site where
  base : Nat
  outline : Outline

namespace Site

/- The id of the top node. -/
def id
    (site : Site) :
    Nat :=
  site.base + site.outline.size

/- The sites of some outlines that are stored in order. -/
def listFrom : (base : Nat) → List Outline → List Site
  | _, [] => []
  | base, part :: parts => ⟨base, part⟩ :: listFrom (base + part.size) parts

/- The sites of the parts. -/
def parts
    (site : Site) :
    List Site :=
  listFrom site.base site.outline.parts

/- The id of the part at a place. -/
def idAt
    (site : Site)
    (place : Nat) :
    Nat :=
  (site.parts.map id)[place]?.getD 0

/- The span of the top node. -/
def location
    (site : Site) :
    Location :=
  site.outline.location

/- The kind of the top node, by the ids of its parts. -/
def kind
    (site : Site) :
    Kind :=
  site.outline.kind.map site.idAt

@[simp]
theorem map_outline_listFrom
    (base : Nat)
    (parts : List Outline) :
    (listFrom base parts).map outline = parts := by
  induction parts generalizing base with
  | nil => rfl
  | cons part parts ih => simp [listFrom, ih]

theorem map_outline_parts
    (site : Site) :
    site.parts.map outline = site.outline.parts :=
  map_outline_listFrom site.base site.outline.parts

theorem outline_mem_of_mem_parts
    {site part : Site}
    (hPart : part ∈ site.parts) :
    part.outline ∈ site.outline.parts := by
  rw [← map_outline_parts]
  exact List.mem_map_of_mem hPart

theorem parts_getElem?_outline
    {site part : Site}
    {place : Nat}
    (hPart : site.parts[place]? = some part) :
    site.outline.parts[place]? = some part.outline := by
  rw [← map_outline_parts, List.getElem?_map, hPart]
  rfl

theorem idAt_eq
    {site part : Site}
    {place : Nat}
    (hPart : site.parts[place]? = some part) :
    site.idAt place = part.id := by
  simp [idAt, hPart]

theorem length_parts
    (site : Site) :
    site.parts.length = site.outline.parts.length := by
  rw [← map_outline_parts, List.length_map]

/- The part that a node refers to. -/
theorem exists_part
    {site : Site}
    {place : Nat}
    (hRefers : site.outline.RefersToParts)
    (hPlace : place ∈ site.outline.kind.children) :
    ∃ part, site.parts[place]? = some part := by
  have hLt := hRefers place hPlace
  rw [← length_parts] at hLt
  exact ⟨_, List.getElem?_eq_getElem hLt⟩

end Site

end ShapeTypes

------------------------------------------------------------
-- Stretches of Ids
------------------------------------------------------------

namespace ShapeTypes

namespace Site

/- The top node comes behind the stretch of the parts. -/
theorem id_eq
    (site : Site) :
    site.id = site.base + Outline.sizeAll site.outline.parts + 1 := by
  rw [id, Outline.size_eq]
  omega

theorem base_lt_id
    (site : Site) :
    site.base < site.id := by
  rw [id_eq]
  omega

/- Sites that are stored in order share the stretch they take. -/
theorem bounds_of_mem_listFrom
    {base : Nat}
    {parts : List Outline}
    {site : Site}
    (hMem : site ∈ listFrom base parts) :
    base ≤ site.base ∧ site.id ≤ base + Outline.sizeAll parts := by
  induction parts generalizing base with
  | nil => simp [listFrom] at hMem
  | cons part parts ih =>
      rw [Outline.sizeAll]
      rcases List.mem_cons.1 hMem with rfl | hMem
      · simp only [id]
        omega
      · have hBounds := ih hMem
        omega

/- Sites that are stored in order lie one behind the other. -/
theorem pairwise_listFrom
    (base : Nat)
    (parts : List Outline) :
    (listFrom base parts).Pairwise fun a b => a.id ≤ b.base := by
  induction parts generalizing base with
  | nil => exact List.Pairwise.nil
  | cons part parts ih =>
      refine List.pairwise_cons.2 ⟨?_, ih _⟩
      intro site hMem
      exact (bounds_of_mem_listFrom hMem).1

/- Sites that are stored in order leave no id out. -/
theorem exists_mem_listFrom
    {base : Nat}
    {parts : List Outline}
    {i : Nat}
    (hAbove : base < i)
    (hBelow : i ≤ base + Outline.sizeAll parts) :
    ∃ site ∈ listFrom base parts, site.base < i ∧ i ≤ site.id := by
  induction parts generalizing base with
  | nil =>
      rw [Outline.sizeAll] at hBelow
      omega
  | cons part parts ih =>
      by_cases hFirst : i ≤ base + part.size
      · exact ⟨⟨base, part⟩, by simp [listFrom], hAbove, hFirst⟩
      · rw [Outline.sizeAll] at hBelow
        rcases ih (by omega : base + part.size < i) (by omega) with
          ⟨site, hMem, hSite⟩
        exact ⟨site, List.mem_cons_of_mem _ hMem, hSite⟩

/- The part of a site takes ids below that of the site. -/
theorem bounds_of_mem_parts
    {site part : Site}
    (hPart : part ∈ site.parts) :
    site.base ≤ part.base ∧ part.id < site.id := by
  have hBounds := bounds_of_mem_listFrom hPart
  rw [id_eq site]
  omega

/- Two sites of which one lies behind the other. -/
def Apart
    (a b : Site) : Prop :=
  a.id ≤ b.base ∨ b.id ≤ a.base

instance : Std.Symm Apart where
  symm _ _ hApart := hApart.symm

/- The parts of a site that take a common id are the same. -/
theorem eq_of_mem_parts
    {site a b : Site}
    {i : Nat}
    (ha : a ∈ site.parts)
    (hb : b ∈ site.parts)
    (hia : a.base < i ∧ i ≤ a.id)
    (hib : b.base < i ∧ i ≤ b.id) :
    a = b := by
  have hSeparate : site.parts.Pairwise Apart :=
    (pairwise_listFrom _ _).imp Or.inl
  by_contra hNe
  rcases hSeparate.forall ha hb hNe with hBefore | hBehind
  · omega
  · omega

end Site

end ShapeTypes

------------------------------------------------------------
-- Sites Below a Site
------------------------------------------------------------

namespace ShapeTypes

namespace Site

/- What passes from the parts to every site holds of all sites. -/
theorem induct
    {motive : Site → Prop}
    (hSite :
      ∀ site, (∀ part ∈ site.parts, motive part) → motive site)
    (site : Site) :
    motive site :=
  hSite site fun part hPart =>
    have _hSmaller :=
      Outline.size_lt_of_mem (outline_mem_of_mem_parts hPart)
    induct hSite part
termination_by site.outline.size

/- A site, its parts, their parts, and so on. -/
inductive Below
    (top : Site) :
    Site → Prop where
  | refl : Below top top
  | part {site part : Site}
      (hBelow : Below top site)
      (hPart : part ∈ site.parts) :
      Below top part

namespace Below

theorem trans
    {a b c : Site}
    (hab : a.Below b)
    (hbc : b.Below c) :
    a.Below c := by
  induction hbc with
  | refl => exact hab
  | part _ hPart ih => exact ih.part hPart

/- What is below a site is the site, or below a part of it. -/
theorem eq_or_exists_part
    {top site : Site}
    (hBelow : top.Below site) :
    site = top ∨ ∃ part ∈ top.parts, part.Below site := by
  induction hBelow with
  | refl => exact Or.inl rfl
  | part hAbove hPart ih =>
      rcases ih with rfl | ⟨first, hFirst, hFirstBelow⟩
      · exact Or.inr ⟨_, hPart, refl⟩
      · exact Or.inr ⟨first, hFirst, hFirstBelow.part hPart⟩

/- What is below a site takes some of its ids. -/
theorem bounds
    {top site : Site}
    (hBelow : top.Below site) :
    top.base ≤ site.base ∧ site.id ≤ top.id := by
  induction hBelow with
  | refl => exact ⟨Nat.le_refl _, Nat.le_refl _⟩
  | part _ hPart ih =>
      have hBounds := bounds_of_mem_parts hPart
      omega

/- What holds of all parts of an outline holds at the sites below. -/
theorem forall_outline
    {property : Outline → Prop}
    {top site : Site}
    (hBelow : top.Below site)
    (hAll : top.outline.Forall property) :
    site.outline.Forall property := by
  induction hBelow with
  | refl => exact hAll
  | part _ hPart ih => exact ih.parts _ (outline_mem_of_mem_parts hPart)

/- No two sites below a site have the same id. -/
theorem eq_of_id_eq
    {top a b : Site}
    (ha : top.Below a)
    (hb : top.Below b)
    (hId : a.id = b.id) :
    a = b := by
  induction top using induct with
  | hSite top ih =>
      rcases ha.eq_or_exists_part with rfl | ⟨p, hp, hpa⟩
      · rcases hb.eq_or_exists_part with rfl | ⟨q, hq, hqb⟩
        · rfl
        · have hBounds := hqb.bounds
          have hPart := bounds_of_mem_parts hq
          omega
      · rcases hb.eq_or_exists_part with rfl | ⟨q, hq, hqb⟩
        · have hBounds := hpa.bounds
          have hPart := bounds_of_mem_parts hp
          omega
        · have hA := hpa.bounds
          have hB := hqb.bounds
          have hABase := a.base_lt_id
          have hBBase := b.base_lt_id
          have hSame : p = q :=
            eq_of_mem_parts hp hq (i := a.id)
              ⟨by omega, by omega⟩ ⟨by omega, by omega⟩
          subst hSame
          exact ih p hp hpa hqb

/- A part that shares an id with a part above it is that part. -/
theorem eq_part_of_below
    {top part site : Site}
    (hPart : part ∈ top.parts)
    (hBelow : part.Below site)
    (hSite : site ∈ top.parts) :
    site = part := by
  have hBounds := hBelow.bounds
  have hBase := site.base_lt_id
  exact eq_of_mem_parts hSite hPart (i := site.id)
    ⟨by omega, by omega⟩ ⟨by omega, by omega⟩

/- No part has two owners. -/
theorem owner_unique
    {top a b part : Site}
    (ha : top.Below a)
    (hb : top.Below b)
    (hPartA : part ∈ a.parts)
    (hPartB : part ∈ b.parts) :
    a = b := by
  have hLtA := (bounds_of_mem_parts hPartA).2
  have hLtB := (bounds_of_mem_parts hPartB).2
  induction top using induct with
  | hSite top ih =>
      rcases ha.eq_or_exists_part with rfl | ⟨p, hp, hpa⟩
      · rcases hb.eq_or_exists_part with rfl | ⟨q, hq, hqb⟩
        · rfl
        · have hSame := eq_part_of_below hq (hqb.part hPartB) hPartA
          have hBounds := hqb.bounds
          rw [hSame] at hLtB
          omega
      · rcases hb.eq_or_exists_part with rfl | ⟨q, hq, hqb⟩
        · have hSame := eq_part_of_below hp (hpa.part hPartA) hPartB
          have hBounds := hpa.bounds
          rw [hSame] at hLtA
          omega
        · have hA := (hpa.part hPartA).bounds
          have hB := (hqb.part hPartB).bounds
          have hBase := part.base_lt_id
          have hSame : p = q :=
            eq_of_mem_parts hp hq (i := part.id)
              ⟨by omega, by omega⟩ ⟨by omega, by omega⟩
          subst hSame
          exact ih p hp hpa hqb

end Below

/- Every id of a site belongs to a site below it. -/
theorem exists_below
    {top : Site}
    {i : Nat}
    (hAbove : top.base < i)
    (hTop : i ≤ top.id) :
    ∃ site, top.Below site ∧ site.id = i := by
  induction top using induct with
  | hSite top ih =>
      by_cases hLast : i = top.id
      · exact ⟨top, .refl, hLast.symm⟩
      · have hParts :
            i ≤ top.base + Outline.sizeAll top.outline.parts := by
          rw [id_eq] at hTop hLast
          omega
        rcases exists_mem_listFrom hAbove hParts with
          ⟨part, hPart, hFrom, hTo⟩
        rcases ih part hPart hFrom hTo with ⟨site, hBelow, hId⟩
        exact ⟨site, (Below.refl.part hPart).trans hBelow, hId⟩

end Site

end ShapeTypes
