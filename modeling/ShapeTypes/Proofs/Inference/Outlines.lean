import ShapeTypes.Proofs.Inference.Renaming
import ShapeTypes.Proofs.Outline.Stored

/-
  The types of outlines.

  Wherever an outline is stored, its node has the type that
  it has in a store of its own.

  Key definitions include:
    * `ShapeTypes.Site.shift`
    * `ShapeTypes.Engine.inferOutline`

  Key theorems include:
    * `ShapeTypes.Site.Below.shift`
    * `ShapeTypes.Engine.infer_eq_inferOutline`
-/

------------------------------------------------------------
-- Shifted Sites
------------------------------------------------------------

namespace ShapeTypes

namespace Site

/- The same outline at later ids. -/
def shift
    (site : Site)
    (k : Nat) :
    Site :=
  ⟨site.base + k, site.outline⟩

@[simp]
theorem id_shift
    (site : Site)
    (k : Nat) :
    (site.shift k).id = site.id + k := by
  simp only [shift, id]
  omega

/- Sites that are stored in order are shifted together. -/
theorem listFrom_add
    (base k : Nat)
    (parts : List Outline) :
    listFrom (base + k) parts = (listFrom base parts).map (·.shift k) := by
  induction parts generalizing base with
  | nil => rfl
  | cons part parts ih =>
      rw [listFrom, listFrom, List.map_cons, ← ih, Nat.add_right_comm]
      rfl

theorem parts_shift
    (site : Site)
    (k : Nat) :
    (site.shift k).parts = site.parts.map (·.shift k) :=
  listFrom_add site.base k site.outline.parts

theorem Below.shift
    {a b : Site}
    (hBelow : a.Below b)
    (k : Nat) :
    (a.shift k).Below (b.shift k) := by
  induction hBelow with
  | refl => exact .refl
  | part _ hPart ih =>
      refine ih.part ?_
      rw [parts_shift]
      exact List.mem_map_of_mem hPart

theorem idAt_shift
    {site : Site}
    {place : Nat}
    (hRefers : site.outline.RefersToParts)
    (hPlace : place ∈ site.outline.kind.children)
    (k : Nat) :
    (site.shift k).idAt place = site.idAt place + k := by
  rcases site.exists_part hRefers hPlace with ⟨part, hPart⟩
  have hShifted : (site.shift k).parts[place]? = some (part.shift k) := by
    rw [parts_shift, List.getElem?_map, hPart]
    rfl
  rw [idAt_eq hPart, idAt_eq hShifted, id_shift]

theorem kind_shift
    {site : Site}
    (hRefers : site.outline.RefersToParts)
    (k : Nat) :
    (site.shift k).kind = site.kind.map (· + k) := by
  rw [kind, kind, Kind.map_map]
  exact Kind.map_congr fun place hPlace => idAt_shift hRefers hPlace k

end Site

end ShapeTypes

------------------------------------------------------------
-- Types of Outlines
------------------------------------------------------------

namespace ShapeTypes

namespace Outline

/- The store of an outline alone. -/
def store
    (outline : Outline) :
    Store :=
  (outline.lay Store.empty).2

theorem find?_store
    {outline : Outline}
    {site : Site}
    (hBelow : Site.Below ⟨0, outline⟩ site) :
    outline.store.find? site.id = some (site.node none) :=
  (outline.lay_appended Store.empty).2.2.found _ (by simp [Store.empty])
    site hBelow

end Outline

namespace Engine

/- The type of an outline that is stored alone. -/
def inferOutline
    (engine : Engine)
    (outline : Outline) :
    Descriptor :=
  engine.infer outline.store outline.size

/- A store that has an outline renames the store of the outline alone. -/
theorem renames_of_represents
    {store : Store}
    {top site : Site}
    (hRep : store.Represents top)
    (hBelow : top.Below site)
    (hRefers : site.outline.Forall Outline.RefersToParts) :
    site.outline.store.Renames store (· + site.base) fun i =>
      ∃ lower, Site.Below ⟨0, site.outline⟩ lower ∧ lower.id = i := by
  have hShift : (Site.mk 0 site.outline).shift site.base = site := by
    simp [Site.shift]
  have hHere :
      ∀ {lower}, Site.Below ⟨0, site.outline⟩ lower →
        lower.outline.RefersToParts :=
    fun hLower => (hLower.forall_outline hRefers).here
  constructor
  · intro i j _ _ hSame
    exact Nat.add_right_cancel hSame
  · rintro i ⟨lower, hLower, rfl⟩
    have hMoved := hLower.shift site.base
    rw [hShift] at hMoved
    rcases hRep.find (hBelow.trans hMoved) with ⟨parent, hFind⟩
    rw [Site.id_shift] at hFind
    simp only [hFind, Outline.find?_store hLower, Option.map_some,
      Site.node, Site.kind_shift (hHere hLower)]
  · rintro i child ⟨lower, hLower, rfl⟩ hChild
    rw [Store.childrenOf, Outline.find?_store hLower] at hChild
    simp only [Site.node, Site.kind, Kind.children_map] at hChild
    rcases List.mem_map.1 hChild with ⟨place, hPlace, rfl⟩
    rcases lower.exists_part (hHere hLower) hPlace with ⟨part, hPart⟩
    exact ⟨part, hLower.part (List.mem_of_getElem? hPart),
      (Site.idAt_eq hPart).symm⟩

/- The type of a node depends on its outline only. -/
theorem infer_eq_inferOutline
    (engine : Engine)
    {store : Store}
    {top site : Site}
    (hRep : store.Represents top)
    (hBelow : top.Below site)
    (hRefers : site.outline.Forall Outline.RefersToParts) :
    engine.infer store site.id = engine.inferOutline site.outline := by
  have hTop : (Site.mk 0 site.outline).id = site.outline.size :=
    Nat.zero_add _
  have hId : site.outline.size + site.base = site.id :=
    Nat.add_comm _ _
  rw [← hId]
  exact engine.infer_rename (renames_of_represents hRep hBelow hRefers)
    ⟨_, .refl, hTop⟩

end Engine

end ShapeTypes
