import Mathlib.Data.List.Forall2
import Mathlib.Data.List.Nodup
import SourceOverlay.LineMap

/-!
# The closest run

A position belongs to the run with the greatest column that is not behind it, and of several runs
with that column to the one given last. This says nothing about the order in which the runs of
different columns were given. The look-up sorts them and takes the last run before the first one
that starts behind the position, which is the same run because the sort keeps, for each column, the
runs of that column in their order.
-/

set_option autoImplicit false

namespace SourceOverlay.LineMap

variable {runs others : List Run} {column : Nat} {r : Run}

def startingAt (runs : List Run) (column : Nat) : List Run :=
  runs.filter fun r => r.column = column

structure Closest (runs : List Run) (column : Nat) (r : Run) : Prop where
  reached : r.column ≤ column
  greatest : ∀ q ∈ runs, q.column ≤ column → q.column ≤ r.column
  last : (startingAt runs r.column).getLast? = some r

theorem mem_startingAt : r ∈ startingAt runs column ↔ r ∈ runs ∧ r.column = column := by
  simp [startingAt]

theorem Closest.mem (h : Closest runs column r) : r ∈ runs :=
  (mem_startingAt.mp (List.mem_of_getLast? h.last)).1

theorem Closest.unique {q : Run} (hr : Closest runs column r) (hq : Closest runs column q) :
    r = q := by
  have hle := hr.greatest q hq.mem hq.reached
  have hge := hq.greatest r hr.mem hr.reached
  have hcolumn : r.column = q.column := by omega
  have hlast := hr.last
  rw [hcolumn, hq.last] at hlast
  exact (Option.some.inj hlast).symm

/-! ### Lines that differ in the order of columns only -/

/-- For each column, the same runs start there, in the same order. -/
def Alike (runs others : List Run) : Prop :=
  ∀ column, startingAt runs column = startingAt others column

theorem Alike.symm (h : Alike runs others) : Alike others runs := fun column => (h column).symm

theorem Alike.mem (h : Alike runs others) (hr : r ∈ runs) : r ∈ others := by
  have hmem : r ∈ startingAt others r.column := by
    rw [← h r.column]
    exact mem_startingAt.mpr ⟨hr, rfl⟩
  exact (mem_startingAt.mp hmem).1

theorem Alike.closest (h : Alike runs others) (hr : Closest runs column r) :
    Closest others column r := by
  constructor
  · exact hr.reached
  · intro q hq
    exact hr.greatest q (h.symm.mem hq)
  · rw [← h r.column]
    exact hr.last

theorem alike_of_perm (h : runs.Perm others) (hdistinct : (runs.map (·.column)).Nodup) :
    Alike runs others := by
  intro column
  have hperm : (startingAt runs column).Perm (startingAt others column) := h.filter _
  -- At most one run starts at the column, so there is nothing to reorder.
  have hone : ∀ q ∈ startingAt runs column, ∀ r ∈ startingAt others column, q = r := by
    intro q hq r hr
    obtain ⟨hq, hqcolumn⟩ := mem_startingAt.mp hq
    obtain ⟨hr, hrcolumn⟩ := mem_startingAt.mp (hperm.symm.subset hr)
    exact List.inj_on_of_nodup_map hdistinct hq hr (hqcolumn.trans hrcolumn.symm)
  have hany (l : List Run) : l.Pairwise fun _ _ => True :=
    List.pairwise_of_forall fun _ _ => trivial
  exact List.Perm.eq_of_pairwise (fun q r hq hr _ _ => hone q hq r hr) (hany _) (hany _) hperm

/-! ### Sorted lines -/

def Ordered (runs : List Run) : Prop := runs.Pairwise fun q r => q.column ≤ r.column

theorem columns_trans (q r s : Run) (hqr : decide (q.column ≤ r.column) = true)
    (hrs : decide (r.column ≤ s.column) = true) : decide (q.column ≤ s.column) = true := by
  simp only [decide_eq_true_eq] at *
  omega

theorem columns_total (q r : Run) :
    (decide (q.column ≤ r.column) || decide (r.column ≤ q.column)) = true := by
  simp only [Bool.or_eq_true, decide_eq_true_eq]
  omega

theorem ordered_sortLine (runs : List Run) : Ordered (sortLine runs) := by
  have hsorted := List.pairwise_mergeSort columns_trans columns_total runs
  exact hsorted.imp decide_eq_true_eq.mp

theorem perm_sortLine (runs : List Run) : (sortLine runs).Perm runs :=
  List.mergeSort_perm runs _

theorem alike_sortLine (runs : List Run) : Alike (sortLine runs) runs := by
  intro column
  have hlevel : (startingAt runs column).Pairwise fun q r => decide (q.column ≤ r.column) := by
    apply List.pairwise_of_forall_mem_list
    intro q hq r hr
    simp [(mem_startingAt.mp hq).2, (mem_startingAt.mp hr).2]
  have hsublist : (startingAt runs column).Sublist (sortLine runs) :=
    List.sublist_mergeSort columns_trans columns_total hlevel List.filter_sublist
  have hfilter : (startingAt runs column).Sublist (startingAt (sortLine runs) column) := by
    simpa [startingAt] using hsublist.filter fun r => decide (r.column = column)
  have hlength : (startingAt (sortLine runs) column).length = (startingAt runs column).length :=
    ((perm_sortLine runs).filter _).length_eq
  exact (hfilter.eq_of_length hlength.symm).symm

/-- In a line that is in order, the runs that start at or before a column stand in front. -/
theorem Ordered.takeWhile_eq_filter (h : Ordered runs) (column : Nat) :
    (runs.takeWhile fun r => r.column ≤ column) = runs.filter fun r => r.column ≤ column := by
  induction runs with
  | nil => rfl
  | cons r runs ih =>
    obtain ⟨hfirst, hrest⟩ := List.pairwise_cons.mp h
    by_cases hr : r.column ≤ column
    · simp [hr, ih hrest]
    · have hnone : ∀ q ∈ runs, column < q.column := by
        intro q hq
        have hle := hfirst q hq
        omega
      simpa [hr] using hnone

theorem Ordered.closest (h : Ordered runs)
    (hr : (runs.takeWhile fun r => r.column ≤ column).getLast? = some r) :
    Closest runs column r := by
  rw [h.takeWhile_eq_filter] at hr
  obtain ⟨front, hfront⟩ := List.getLast?_eq_some_iff.mp hr
  have hreached : ∀ q, q ∈ runs ∧ q.column ≤ column ↔ q ∈ front ∨ q = r := by
    intro q
    have hmem : q ∈ runs.filter (fun r => r.column ≤ column) ↔ q ∈ front ++ [r] := by
      rw [hfront]
    simpa using hmem
  have hle : r.column ≤ column := ((hreached r).mpr (.inr rfl)).2
  constructor
  · exact hle
  · intro q hq hcolumn
    have hordered : Ordered (front ++ [r]) := by
      rw [← hfront]
      exact h.filter _
    rcases (hreached q).mp ⟨hq, hcolumn⟩ with hq | rfl
    · exact (List.pairwise_append.mp hordered).2.2 q hq r (by simp)
    · exact Nat.le_refl _
  · have hstarting : startingAt runs r.column = startingAt (front ++ [r]) r.column := by
      rw [← hfront, startingAt, startingAt, List.filter_filter]
      apply List.filter_congr
      intro q _
      by_cases hq : q.column = r.column
      · simp [hq, hle]
      · simp [hq]
    rw [hstarting, startingAt, List.filter_append]
    simp

theorem Ordered.exists_last (h : Ordered runs) (hr : r ∈ runs) (hcolumn : r.column ≤ column) :
    ∃ q, (runs.takeWhile fun r => r.column ≤ column).getLast? = some q := by
  apply Option.isSome_iff_exists.mp
  rw [h.takeWhile_eq_filter, List.getLast?_isSome]
  exact List.ne_nil_of_mem (List.mem_filter.mpr ⟨hr, decide_eq_true hcolumn⟩)

theorem getLast?_takeWhile_sortLine :
    ((sortLine runs).takeWhile fun r => r.column ≤ column).getLast? = some r ↔
      Closest runs column r := by
  have hordered := ordered_sortLine runs
  have halike := alike_sortLine runs
  constructor
  · intro hr
    exact halike.closest (hordered.closest hr)
  · intro hr
    obtain ⟨q, hq⟩ := hordered.exists_last (halike.symm.mem hr.mem) hr.reached
    rw [hq, (halike.closest (hordered.closest hq)).unique hr]

theorem exists_closest (hr : r ∈ runs) (hcolumn : r.column ≤ column) :
    ∃ q, Closest runs column q := by
  obtain ⟨q, hq⟩ :=
    (ordered_sortLine runs).exists_last ((alike_sortLine runs).symm.mem hr) hcolumn
  exact ⟨q, getLast?_takeWhile_sortLine.mp hq⟩

/-- An index that parts a line at a column, as a search by halving finds it: the runs before it
start at or before the column, those from it on start behind. -/
structure PartsAt (runs : List Run) (column index : Nat) : Prop where
  le : index ≤ runs.length
  parts : ∀ i r, runs[i]? = some r → (i < index ↔ r.column ≤ column)

theorem PartsAt.takeWhile {index : Nat} (h : PartsAt runs column index) :
    (runs.takeWhile fun r => r.column ≤ column) = runs.take index := by
  induction runs generalizing index with
  | nil => simp
  | cons r runs ih =>
    have hfirst := h.parts 0 r rfl
    cases index with
    | zero =>
      have hr : ¬ r.column ≤ column := by omega
      simp [hr]
    | succ index =>
      have hr : r.column ≤ column := by omega
      have hrest : PartsAt runs column index := by
        constructor
        · simpa using h.le
        · intro i q hq
          have hparts := h.parts (i + 1) q (by simpa using hq)
          omega
      simp [hr, ih hrest]

theorem PartsAt.eq_length {index : Nat} (h : PartsAt runs column index) :
    index = (runs.takeWhile fun r => r.column ≤ column).length := by
  rw [h.takeWhile, List.length_take, Nat.min_eq_left h.le]

theorem Ordered.partsAt (h : Ordered runs) (column : Nat) :
    PartsAt runs column (runs.takeWhile fun r => r.column ≤ column).length := by
  induction runs with
  | nil => exact ⟨Nat.le_refl 0, by simp⟩
  | cons r runs ih =>
    obtain ⟨hfirst, hrest⟩ := List.pairwise_cons.mp h
    have hparts := ih hrest
    by_cases hr : r.column ≤ column
    · constructor
      · simpa [hr] using hparts.le
      · intro i q hq
        cases i with
        | zero =>
          obtain rfl : r = q := by simpa using hq
          simp [hr]
        | succ i => simpa [hr] using hparts.parts i q (by simpa using hq)
    · constructor
      · simp [hr]
      · intro i q hq
        have hbehind : column < q.column := by
          rcases List.mem_cons.mp (List.mem_of_getElem? hq) with rfl | hq
          · omega
          · have hle := hfirst q hq
            omega
        simp [hr, hbehind]

/-! ### Looking a position up -/

def placeIn (r : Run) (column : Nat) : Nat × Nat :=
  (r.sourceLine, (r.sourceColumn + (column - r.column)) % coordinateLimit)

section Lines

variable {lines others : List (List Run)} {line : Nat} {place : Nat × Nat}

theorem source?_eq_some_iff : (ofLines lines).source? line column = some place ↔
    ∃ runs r, lines[line]? = some runs ∧ Closest runs column r ∧ place = placeIn r column := by
  simp only [source?, ofLines, List.getElem?_map, Option.bind_eq_bind, Option.bind_eq_some_iff,
    Option.map_eq_some_iff, Option.some.injEq]
  constructor
  · rintro ⟨_, ⟨runs, hruns, rfl⟩, r, hr, rfl⟩
    exact ⟨runs, r, hruns, getLast?_takeWhile_sortLine.mp hr, rfl⟩
  · rintro ⟨runs, r, hruns, hr, rfl⟩
    exact ⟨_, ⟨runs, hruns, rfl⟩, r, getLast?_takeWhile_sortLine.mpr hr, rfl⟩

theorem source?_isSome_iff : ((ofLines lines).source? line column).isSome = true ↔
    ∃ runs, lines[line]? = some runs ∧ ∃ r ∈ runs, r.column ≤ column := by
  simp only [Option.isSome_iff_exists, source?_eq_some_iff]
  constructor
  · rintro ⟨_, runs, r, hruns, hr, -⟩
    exact ⟨runs, hruns, r, hr.mem, hr.reached⟩
  · rintro ⟨runs, hruns, r, hr, hcolumn⟩
    obtain ⟨q, hq⟩ := exists_closest hr hcolumn
    exact ⟨_, runs, q, hruns, hq, rfl⟩

theorem source?_of_partsAt {index : Nat} (hruns : lines[line]? = some runs)
    (h : PartsAt (sortLine runs) column index) :
    (ofLines lines).source? line column =
      (if index = 0 then none else (sortLine runs)[index - 1]?).map (placeIn · column) := by
  have hline : (ofLines lines).lines[line]? = some (sortLine runs) := by
    simp [ofLines, hruns]
  have hlast : ((sortLine runs).take index).getLast? =
      if index = 0 then none else (sortLine runs)[index - 1]? := by
    rw [List.getLast?_take]
    by_cases hindex : index = 0
    · simp [hindex]
    · have hlt : index - 1 < (sortLine runs).length := by
        have hle := h.le
        omega
      simp [hindex, hlt]
  simp only [source?, hline, Option.bind_eq_bind, Option.bind_some, h.takeWhile, hlast]
  exact Option.map_eq_bind.symm

/-- There is one index at which a search for the end of the runs that count can stop, and the run
before it is the one that is used. -/
theorem source?_searched (hruns : lines[line]? = some runs) (column : Nat) :
    ∃ index, (∀ k, PartsAt (sortLine runs) column k ↔ k = index) ∧
      (ofLines lines).source? line column =
        (if index = 0 then none else (sortLine runs)[index - 1]?).map (placeIn · column) := by
  have hparts := (ordered_sortLine runs).partsAt column
  refine ⟨_, fun k => ⟨fun hk => hk.eq_length, ?_⟩, source?_of_partsAt hruns hparts⟩
  rintro rfl
  exact hparts

theorem alike_of_getElem? (h : List.Forall₂ Alike lines others)
    (hruns : lines[line]? = some runs) : ∃ runs', others[line]? = some runs' ∧ Alike runs runs' := by
  induction h generalizing line with
  | nil => simp at hruns
  | @cons a b lines others hab _ ih =>
    cases line with
    | zero =>
      obtain rfl : a = runs := by simpa using hruns
      exact ⟨b, rfl, hab⟩
    | succ line => exact ih (by simpa using hruns)

theorem source?_of_alike (h : List.Forall₂ Alike lines others)
    (hplace : (ofLines lines).source? line column = some place) :
    (ofLines others).source? line column = some place := by
  obtain ⟨runs, r, hruns, hr, hplace⟩ := source?_eq_some_iff.mp hplace
  obtain ⟨runs', hruns', halike⟩ := alike_of_getElem? h hruns
  exact source?_eq_some_iff.mpr ⟨runs', r, hruns', halike.closest hr, hplace⟩

theorem source?_congr (h : List.Forall₂ Alike lines others) (line column : Nat) :
    (ofLines lines).source? line column = (ofLines others).source? line column := by
  have hback : List.Forall₂ Alike others lines :=
    h.flip.imp fun _ _ halike => Alike.symm halike
  apply Option.ext
  intro place
  exact ⟨source?_of_alike h, source?_of_alike hback⟩

end Lines

/-- A position is found exactly if its line has a run that starts at or before it, and it is found
in the closest one, at its distance from there as long as that is a number of 32 bits. A search by
halving in the sorted line finds the same run. The order of runs with different columns does not
matter. -/
theorem source?_closest (lines : List (List Run)) (line column : Nat) :
    (((ofLines lines).source? line column).isSome = true ↔
      ∃ runs, lines[line]? = some runs ∧ ∃ r ∈ runs, r.column ≤ column) ∧
    (∀ place, (ofLines lines).source? line column = some place ↔
      ∃ runs r, lines[line]? = some runs ∧ Closest runs column r ∧
        place = (r.sourceLine, (r.sourceColumn + (column - r.column)) % coordinateLimit)) ∧
    (∀ runs r, lines[line]? = some runs → Closest runs column r →
      r.sourceColumn + (column - r.column) < coordinateLimit →
      (ofLines lines).source? line column =
        some (r.sourceLine, r.sourceColumn + (column - r.column))) ∧
    (∀ runs, lines[line]? = some runs →
      ∃ index, (∀ k, PartsAt (sortLine runs) column k ↔ k = index) ∧
        (ofLines lines).source? line column =
          (if index = 0 then none else (sortLine runs)[index - 1]?).map fun r =>
            (r.sourceLine, (r.sourceColumn + (column - r.column)) % coordinateLimit)) ∧
    (∀ others, List.Forall₂ Alike lines others →
      (ofLines lines).source? line column = (ofLines others).source? line column) ∧
    ∀ others, List.Forall₂ (fun a b => a.Perm b ∧ (a.map (·.column)).Nodup) lines others →
      (ofLines lines).source? line column = (ofLines others).source? line column := by
  refine ⟨source?_isSome_iff, fun _ => source?_eq_some_iff, ?_,
    fun _ hruns => source?_searched hruns column, fun _ h => source?_congr h line column, ?_⟩
  · intro runs r hruns hr hfits
    rw [source?_eq_some_iff.mpr ⟨runs, r, hruns, hr, rfl⟩, placeIn, Nat.mod_eq_of_lt hfits]
  · intro others h
    apply source?_congr
    exact h.imp fun _ _ hab => alike_of_perm hab.1 hab.2

/-- Two runs start at one column and the third is moved out from between them. -/
theorem source?_closest_repeated :
    let lines : List (List Run) := [[], [⟨4, 0, 2⟩, ⟨0, 0, 0⟩, ⟨4, 7, 1⟩]]
    let moved : List (List Run) := [[], [⟨0, 0, 0⟩, ⟨4, 0, 2⟩, ⟨4, 7, 1⟩]]
    (ofLines lines).source? 1 6 = some (7, 3) ∧ (ofLines moved).source? 1 6 = some (7, 3) ∧
      ((ofLines lines).source? 0 6).isSome = false := by
  intro lines moved
  have halike : List.Forall₂ Alike lines moved := by
    refine .cons (fun _ => rfl) (.cons ?_ .nil)
    intro column
    by_cases h : column = 4
    · subst h
      rfl
    · simp [startingAt, List.filter_cons, Ne.symm h]
  obtain ⟨-, -, hplace, -, hmoved, -⟩ := source?_closest lines 1 6
  have hfound : (ofLines lines).source? 1 6 = some (7, 3) :=
    hplace _ ⟨4, 7, 1⟩ rfl ⟨by decide, by decide, by decide⟩ (by decide)
  refine ⟨hfound, (hmoved moved halike).symm.trans hfound, ?_⟩
  rw [Bool.eq_false_iff]
  intro hsome
  obtain ⟨runs, hruns, r, hr, -⟩ := (source?_closest lines 0 6).1.mp hsome
  obtain rfl : runs = [] := by simpa [lines] using hruns.symm
  cases hr

end SourceOverlay.LineMap
