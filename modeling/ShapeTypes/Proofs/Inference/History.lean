import Mathlib.Data.List.TakeWhile
import ShapeTypes.Config.Basic

/-
  Registries by what was registered.

  The history of a registry is the list of all patterns that
  were ever registered, the first of them first.  The registry
  holds the pattern of the last registration of every callee,
  and the order is that of these last registrations.

  Key definitions include:
    * `ShapeTypes.LastSegment`
    * `ShapeTypes.Registry.latest`
    * `ShapeTypes.Registry.LatestAt`
    * `ShapeTypes.Registration`
    * `ShapeTypes.Registry.Origin`

  Key theorems include:
    * `ShapeTypes.simpleName_eq_iff`
    * `ShapeTypes.Registry.register_latest`
    * `ShapeTypes.Registry.find?_latest_eq_some_iff`
    * `ShapeTypes.Registry.run_origin_law`
-/

------------------------------------------------------------
-- Last Segments
------------------------------------------------------------

namespace ShapeTypes

/- All of a path without dots, or what follows its last dot. -/
def LastSegment
    (path name : String) : Prop :=
  '.' ∉ name.toList ∧
    (path = name ∨ ∃ front, path = front ++ "." ++ name)

/- The characters before the first dot. -/
theorem takeWhile_ne_dot_eq_iff
    {cs name : List Char} :
    cs.takeWhile (· ≠ '.') = name ↔
      '.' ∉ name ∧ (cs = name ∨ ∃ more, cs = name ++ '.' :: more) := by
  constructor
  · rintro rfl
    constructor
    · intro hDot
      simpa using List.mem_takeWhile_imp hDot
    · have hSplit :
          cs.takeWhile (· ≠ '.') ++ cs.dropWhile (· ≠ '.') = cs :=
        List.takeWhile_append_dropWhile
      have hNext := List.head?_dropWhile_not (· ≠ '.') cs
      cases hRest : cs.dropWhile (· ≠ '.') with
      | nil =>
          rw [hRest, List.append_nil] at hSplit
          exact Or.inl hSplit.symm
      | cons d more =>
          rw [hRest] at hSplit hNext
          have hDot : d = '.' := by simpa using hNext
          rw [hDot] at hSplit
          exact Or.inr ⟨more, hSplit.symm⟩
  · rintro ⟨hName, hText⟩
    have hAll : ∀ c ∈ name, decide (c ≠ '.') = true := by
      intro c hc
      simpa using fun hDot : c = '.' => hName (hDot ▸ hc)
    rcases hText with rfl | ⟨more, rfl⟩
    · exact List.takeWhile_eq_self_iff.2 hAll
    · rw [List.takeWhile_append_of_pos hAll]
      simp

/- The simple name of a path is its last segment. -/
theorem simpleName_eq_iff
    {path name : String} :
    simpleName path = name ↔ LastSegment path name := by
  have hFront :
      (∃ more,
          path.toList.reverse = name.toList.reverse ++ '.' :: more) ↔
        ∃ front, path = front ++ "." ++ name := by
    constructor
    · rintro ⟨more, hMore⟩
      refine ⟨String.ofList more.reverse, ?_⟩
      rw [← String.toList_inj, ← List.reverse_inj, hMore]
      simp
    · rintro ⟨front, rfl⟩
      exact ⟨front.toList.reverse, by simp⟩
  rw [simpleName, ← String.toList_inj, String.toList_ofList,
    ← List.reverse_inj, List.reverse_reverse, takeWhile_ne_dot_eq_iff, hFront,
    List.reverse_inj, String.toList_inj, List.mem_reverse, LastSegment]

namespace CallPattern

/- The pattern answers for a path that ends in the same segment. -/
def AnswersFor
    (pattern : CallPattern)
    (path : String) : Prop :=
  pattern.matchSimpleName = true ∧
    ∃ name, LastSegment pattern.callee name ∧ LastSegment path name

/- A pattern matches the simple name of the paths that it answers for. -/
theorem matchesName_iff
    {pattern : CallPattern}
    {path : String} :
    pattern.MatchesName (ShapeTypes.simpleName path) ↔
      pattern.AnswersFor path := by
  unfold MatchesName AnswersFor CallPattern.simpleName
  constructor
  · rintro ⟨hOptsIn, hSame⟩
    exact ⟨hOptsIn, ShapeTypes.simpleName path,
      simpleName_eq_iff.1 hSame, simpleName_eq_iff.1 rfl⟩
  · rintro ⟨hOptsIn, name, hCallee, hPath⟩
    refine ⟨hOptsIn, ?_⟩
    rw [simpleName_eq_iff.2 hCallee, simpleName_eq_iff.2 hPath]

end CallPattern

end ShapeTypes

------------------------------------------------------------
-- Last Registrations
------------------------------------------------------------

namespace ShapeTypes

namespace Registry

/- Remove every pattern whose callee is registered again later. -/
def latest : List CallPattern → List CallPattern
  | [] => []
  | pattern :: later =>
      if pattern.callee ∈ later.map (·.callee) then
        latest later
      else
        pattern :: latest later

/-
  A pattern stands at a place of a history, and its callee is
  not registered again behind that place.
-/
def LatestAt
    (history : List CallPattern)
    (place : Nat)
    (pattern : CallPattern) : Prop :=
  history[place]? = some pattern ∧
    ∀ later other,
      place < later → history[later]? = some other →
        other.callee ≠ pattern.callee

variable {history : List CallPattern} {pattern first : CallPattern}

/- Registering a pattern adds it to the end of the history. -/
theorem register_latest
    (history : List CallPattern)
    (pattern : CallPattern) :
    register ⟨latest history⟩ pattern = ⟨latest (history ++ [pattern])⟩ := by
  rw [register, Registry.mk.injEq]
  induction history with
  | nil => rfl
  | cons first history ih =>
      rw [List.cons_append, latest, latest]
      by_cases hAgain : first.callee ∈ history.map (·.callee)
      · rw [if_pos hAgain, if_pos (by simp_all), ih]
      · rw [if_neg hAgain]
        -- The first pattern is kept so far, and goes if it is registered anew.
        by_cases hSame : first.callee = pattern.callee
        · rw [List.filter_cons_of_neg (by simpa using hSame),
            if_pos (by simp [hSame]), ih]
        · rw [List.filter_cons_of_pos (by simpa using hSame),
            if_neg (by simp_all), List.cons_append, ih]

/- Registering patterns in order adds them to the end of the history. -/
theorem extend_latest
    (history patterns : List CallPattern) :
    extend ⟨latest history⟩ patterns = ⟨latest (history ++ patterns)⟩ := by
  induction patterns generalizing history with
  | nil => simp [extend]
  | cons pattern patterns ih =>
      have hNext := ih (history ++ [pattern])
      rw [extend] at hNext ⊢
      rw [List.foldl_cons, register_latest, hNext]
      simp

/- The last registrations are among the registrations. -/
theorem latest_sublist
    (history : List CallPattern) :
    (latest history).Sublist history := by
  induction history with
  | nil => exact List.Sublist.refl _
  | cons first history ih =>
      rw [latest]
      split
      · exact ih.cons first
      · exact ih.cons_cons first

/- Every callee has one last registration. -/
theorem nodup_latest
    (history : List CallPattern) :
    ((latest history).map (·.callee)).Nodup := by
  induction history with
  | nil => exact List.nodup_nil
  | cons first history ih =>
      rw [latest]
      split
      · exact ih
      · rename_i hNew
        rw [List.map_cons, List.nodup_cons]
        refine ⟨fun hMem => hNew ?_, ih⟩
        exact ((latest_sublist history).map _).subset hMem

/- The first registration is the last one of a callee that is new. -/
theorem latestAt_zero_iff :
    LatestAt (first :: history) 0 pattern ↔
      first = pattern ∧ first.callee ∉ history.map (·.callee) := by
  unfold LatestAt
  constructor
  · rintro ⟨hFirst, hLater⟩
    have hSame : first = pattern := by simpa using hFirst
    refine ⟨hSame, fun hMem => ?_⟩
    rcases List.mem_map.1 hMem with ⟨other, hOther, hCallee⟩
    rcases List.mem_iff_getElem?.1 hOther with ⟨place, hPlace⟩
    apply hLater (place + 1) other (Nat.succ_pos place)
    · simpa using hPlace
    · rw [hCallee, hSame]
  · rintro ⟨rfl, hNew⟩
    refine ⟨by simp, ?_⟩
    intro later other hLater hOther hCallee
    obtain ⟨place, rfl⟩ : ∃ place, later = place + 1 :=
      ⟨later - 1, by omega⟩
    apply hNew
    rw [List.getElem?_cons_succ] at hOther
    exact List.mem_map.2 ⟨other, List.mem_of_getElem? hOther, hCallee⟩

/- A first registration does not change what comes behind it. -/
theorem latestAt_succ_iff
    {place : Nat} :
    LatestAt (first :: history) (place + 1) pattern ↔
      LatestAt history place pattern := by
  unfold LatestAt
  rw [List.getElem?_cons_succ]
  refine and_congr_right fun _ => ⟨?_, ?_⟩
  · intro hLater later other hPlace hOther
    apply hLater (later + 1) other (by omega)
    rwa [List.getElem?_cons_succ]
  · intro hLater later other hPlace hOther
    obtain ⟨l, rfl⟩ : ∃ l, later = l + 1 := ⟨later - 1, by omega⟩
    rw [List.getElem?_cons_succ] at hOther
    exact hLater l other (by omega) hOther

/- The callees with a last registration are those registered. -/
theorem mem_callees_latest_iff
    {callee : String} :
    callee ∈ (latest history).map (·.callee) ↔
      callee ∈ history.map (·.callee) := by
  induction history with
  | nil => rfl
  | cons first history ih =>
      rw [latest, List.map_cons, List.mem_cons]
      split
      · rename_i hAgain
        rw [ih]
        constructor
        · exact Or.inr
        · rintro (rfl | hMem)
          · exact hAgain
          · exact hMem
      · rw [List.map_cons, List.mem_cons, ih]

end Registry

end ShapeTypes

------------------------------------------------------------
-- Searches
------------------------------------------------------------

namespace ShapeTypes

namespace Registry

variable {history : List CallPattern} {pattern first : CallPattern}

/-
  Of the wanted patterns that are still registered, the one
  whose last registration is earliest.
-/
def Earliest
    (history : List CallPattern)
    (wanted : CallPattern → Prop)
    (pattern : CallPattern) : Prop :=
  ∃ place,
    LatestAt history place pattern ∧ wanted pattern ∧
      ∀ p other, LatestAt history p other → wanted other → place ≤ p

/- Two last registrations of one callee stand at the same place. -/
theorem LatestAt.place_le
    {p q : Nat}
    {a b : CallPattern}
    (ha : LatestAt history p a)
    (hb : LatestAt history q b)
    (hCallee : a.callee = b.callee) :
    p ≤ q := by
  by_contra hBehind
  exact hb.2 p a (by omega) ha.1 hCallee

/- A callee has one last registration, which is the earliest. -/
theorem earliest_callee_iff
    {callee : String} :
    Earliest history (·.callee = callee) pattern ↔
      ∃ place, LatestAt history place pattern ∧ pattern.callee = callee := by
  constructor
  · rintro ⟨place, hLatest, hCallee, -⟩
    exact ⟨place, hLatest, hCallee⟩
  · rintro ⟨place, hLatest, hCallee⟩
    refine ⟨place, hLatest, hCallee, ?_⟩
    intro p other hOther hSame
    exact hLatest.place_le hOther (hCallee.trans hSame.symm)

variable {wanted : CallPattern → Prop}

/- A wanted pattern with a new callee in front is the earliest. -/
theorem earliest_cons_of_wanted
    (hNew : first.callee ∉ history.map (·.callee))
    (hWanted : wanted first) :
    Earliest (first :: history) wanted pattern ↔ first = pattern := by
  have hFirst : LatestAt (first :: history) 0 first :=
    latestAt_zero_iff.2 ⟨rfl, hNew⟩
  constructor
  · rintro ⟨place, hLatest, -, hBefore⟩
    have hZero : place = 0 :=
      Nat.le_zero.1 (hBefore 0 first hFirst hWanted)
    rw [hZero] at hLatest
    exact (latestAt_zero_iff.1 hLatest).1
  · rintro rfl
    exact ⟨0, hFirst, hWanted, fun p _ _ _ => Nat.zero_le p⟩

/- Any other pattern in front does not matter. -/
theorem earliest_cons_of_passed
    (hPassed :
      first.callee ∈ history.map (·.callee) ∨ ¬ wanted first) :
    Earliest (first :: history) wanted pattern ↔
      Earliest history wanted pattern := by
  have hNotFirst :
      ∀ p other,
        LatestAt (first :: history) p other → wanted other →
          ∃ place, p = place + 1 ∧ LatestAt history place other := by
    intro p other hLatest hWanted
    cases p with
    | zero =>
        rcases latestAt_zero_iff.1 hLatest with ⟨rfl, hNew⟩
        rcases hPassed with hAgain | hUnwanted
        · exact absurd hAgain hNew
        · exact absurd hWanted hUnwanted
    | succ place => exact ⟨place, rfl, latestAt_succ_iff.1 hLatest⟩
  constructor
  · rintro ⟨p, hLatest, hWanted, hBefore⟩
    rcases hNotFirst p pattern hLatest hWanted with ⟨place, rfl, hPlace⟩
    refine ⟨place, hPlace, hWanted, ?_⟩
    intro q other hOther hWants
    have hLe := hBefore (q + 1) other (latestAt_succ_iff.2 hOther) hWants
    omega
  · rintro ⟨place, hLatest, hWanted, hBefore⟩
    refine ⟨place + 1, latestAt_succ_iff.2 hLatest, hWanted, ?_⟩
    intro p other hOther hWants
    rcases hNotFirst p other hOther hWants with ⟨q, rfl, hPlace⟩
    exact Nat.succ_le_succ (hBefore q other hPlace hWants)

/- A search gives the wanted pattern with the earliest place. -/
theorem find?_latest_eq_some_iff
    [DecidablePred wanted] :
    (latest history).find? (wanted ·) = some pattern ↔
      Earliest history wanted pattern := by
  induction history with
  | nil => simp [latest, Earliest, LatestAt]
  | cons first history ih =>
      rw [latest]
      by_cases hAgain : first.callee ∈ history.map (·.callee)
      · rw [if_pos hAgain, ih, earliest_cons_of_passed (Or.inl hAgain)]
      · rw [if_neg hAgain]
        by_cases hWanted : wanted first
        · rw [List.find?_cons_of_pos (by simpa using hWanted),
            Option.some.injEq, earliest_cons_of_wanted hAgain hWanted]
        · rw [List.find?_cons_of_neg (by simpa using hWanted), ih,
            earliest_cons_of_passed (Or.inr hWanted)]

/- What is looked up, by the history of the registry. -/
theorem lookup?_latest_eq_some_iff
    {callee : String} :
    lookup? ⟨latest history⟩ callee = some pattern ↔
      (∃ place,
          LatestAt history place pattern ∧ pattern.callee = callee) ∨
        (∀ other ∈ history, other.callee ≠ callee) ∧
          Earliest history (·.AnswersFor callee) pattern := by
  have hNone :
      (latest history).find? (fun p => p.callee = callee) = none ↔
        ∀ other ∈ history, other.callee ≠ callee := by
    have hCallees :
        callee ∉ (latest history).map (·.callee) ↔
          callee ∉ history.map (·.callee) :=
      not_congr mem_callees_latest_iff
    simpa using hCallees
  have hNames :
      (CallPattern.MatchesName · (simpleName callee)) =
        (CallPattern.AnswersFor · callee) := by
    funext p
    exact propext CallPattern.matchesName_iff
  rw [lookup?, Option.or_eq_some_iff, find?_latest_eq_some_iff,
    find?_latest_eq_some_iff, hNone, earliest_callee_iff, hNames]

end Registry

end ShapeTypes

------------------------------------------------------------
-- Runs of Registrations
------------------------------------------------------------

namespace ShapeTypes

/- A change of a registry. -/
inductive Registration where
  | register (pattern : CallPattern)
  | extend (patterns : List CallPattern)

namespace Registration

/- The patterns that a change registers, in order. -/
def patterns : Registration → List CallPattern
  | register pattern => [pattern]
  | extend patterns => patterns

/- Change a registry. -/
def applyTo
    (registry : Registry) :
    Registration → Registry
  | register pattern => registry.register pattern
  | extend patterns => registry.extend patterns

end Registration

namespace Registry

/- Make some changes in order. -/
def run
    (registry : Registry)
    (changes : List Registration) :
    Registry :=
  changes.foldl Registration.applyTo registry

/- Where a registry comes from. -/
inductive Origin where
  | empty
  | builtin
  | configured (config : Config)

namespace Origin

/- The registry at the start. -/
def registry : Origin → Registry
  | empty => .empty
  | builtin => .builtin
  | configured config => config.engine.registry

/- The patterns that were registered for it. -/
def patterns : Origin → List CallPattern
  | empty => []
  | builtin => Registry.builtin.patterns
  | configured config => Registry.builtin.patterns ++ config.callPatterns

/- The registry at the start holds the last registrations. -/
theorem registry_eq
    (origin : Origin) :
    origin.registry = ⟨latest origin.patterns⟩ := by
  cases origin with
  | empty => rfl
  | builtin => rfl
  | configured config =>
      exact extend_latest Registry.builtin.patterns config.callPatterns

end Origin

/- One change adds its patterns to the history. -/
theorem applyTo_latest
    (history : List CallPattern)
    (change : Registration) :
    change.applyTo ⟨latest history⟩ =
      ⟨latest (history ++ change.patterns)⟩ := by
  cases change with
  | register pattern => exact register_latest history pattern
  | extend patterns => exact extend_latest history patterns

/- A run of changes adds all their patterns to the history. -/
theorem run_latest
    (history : List CallPattern)
    (changes : List Registration) :
    run ⟨latest history⟩ changes =
      ⟨latest (history ++ changes.flatMap (·.patterns))⟩ := by
  induction changes generalizing history with
  | nil => simp [run]
  | cons change changes ih =>
      have hNext := ih (history ++ change.patterns)
      rw [run] at hNext ⊢
      rw [List.foldl_cons, applyTo_latest, hNext]
      simp

/-
  After any changes, the callees of a registry differ, and it
  holds what was registered without the patterns whose callee
  was registered again.  A callee is answered by its own last
  registration.  Without one, the pattern with the earliest
  last registration answers, of those that ask for every path
  with their last segment, and nothing if there is none.
-/
theorem run_origin_law
    (origin : Origin)
    (changes : List Registration) :
    let history := origin.patterns ++ changes.flatMap (·.patterns)
    let registry := origin.registry.run changes
    (registry.patterns.map (·.callee)).Nodup ∧
      registry.patterns = latest history ∧
      ∀ callee pattern,
        registry.lookup? callee = some pattern ↔
          (∃ place,
              LatestAt history place pattern ∧
                pattern.callee = callee) ∨
            (∀ other ∈ history, other.callee ≠ callee) ∧
              Earliest history (·.AnswersFor callee) pattern := by
  intro history registry
  have hRun : registry = ⟨latest history⟩ := by
    rw [← run_latest, ← origin.registry_eq]
  rw [hRun]
  exact ⟨nodup_latest history, rfl, fun _ _ => lookup?_latest_eq_some_iff⟩

end Registry

end ShapeTypes
