import Mathlib.Data.List.Forall2
import SourceOverlay.Command
import SourceOverlay.Proofs.Runs

/-!
# Line maps as JSON

A line map is written as an array of lines, a line as an array of runs, and a run as an array that
opens with its three numbers. Reading accepts exactly what is written so, and one value that is not
a number of 32 bits anywhere spoils the whole map. What is read is sorted, so a map that is written
and read again comes back as it was. The output of a compiler is read with its map or not at all.
-/

set_option autoImplicit false

namespace SourceOverlay

theorem mapM_eq_some_iff {α β : Type} {f : α → Option β} {xs : List α} {ys : List β} :
    xs.mapM f = some ys ↔ List.Forall₂ (fun x y => f x = some y) xs ys := by
  induction xs generalizing ys with
  | nil => cases ys <;> simp
  | cons x xs ih =>
    simp only [List.mapM_cons, Option.bind_eq_bind, Option.bind_eq_some_iff, Option.pure_def,
      Option.some.injEq, ih]
    constructor
    · rintro ⟨y, hy, rest, hrest, rfl⟩
      exact .cons hy hrest
    · intro h
      cases h with
      | cons hy hrest => exact ⟨_, hy, _, hrest, rfl⟩

theorem exists_of_forall₂ {α β : Type} {rel : α → β → Prop} {xs : List α} {ys : List β}
    (h : List.Forall₂ rel xs ys) {y : β} (hy : y ∈ ys) : ∃ x, rel x y := by
  induction h with
  | nil => cases hy
  | @cons x _ _ _ hx _ ih =>
    rcases List.mem_cons.mp hy with rfl | hy
    · exact ⟨x, hx⟩
    · exact ih hy

structure Run.Fits (r : Run) : Prop where
  column : r.column < UInt32.size
  sourceLine : r.sourceLine < UInt32.size
  sourceColumn : r.sourceColumn < UInt32.size

namespace LineMap

/-! ### How maps are written -/

inductive WritesRun : Json → Run → Prop
  | intro (r : Run) (h : r.Fits) (rest : List Json) :
    WritesRun (.array (number r.column :: number r.sourceLine :: number r.sourceColumn :: rest)) r

inductive WritesLine : Json → List Run → Prop
  | intro {values : List Json} {runs : List Run} (h : List.Forall₂ WritesRun values runs) :
    WritesLine (.array values) runs

inductive Writes : Json → List (List Run) → Prop
  | intro {values : List Json} {lines : List (List Run)} (h : List.Forall₂ WritesLine values lines) :
    Writes (.array values) lines

variable {value : Json} {r : Run} {runs : List Run} {lines : List (List Run)} {map : LineMap}

theorem natural?_eq_some_iff {n : Nat} : value.natural? = some n ↔ value = number n := by
  constructor
  · intro h
    unfold Json.natural? at h
    split at h
    · rw [Option.ite_none_right_eq_some] at h
      obtain ⟨hpos, hn⟩ := h
      rw [number, ← Option.some.inj hn, Int.toNat_of_nonneg hpos]
    · cases h
  · rintro rfl
    simp [Json.natural?, number]

theorem coordinate?_eq_some_iff {n : Nat} :
    coordinate? value = some n ↔ value = number n ∧ n < UInt32.size := by
  rw [coordinate?, Option.filter_eq_some_iff, natural?_eq_some_iff, decide_eq_true_eq]
  rfl

theorem run?_eq_some_iff : run? value = some r ↔ WritesRun value r := by
  constructor
  · intro h
    unfold run? at h
    split at h
    · next column line sourceColumn rest =>
      simp only [Option.bind_eq_bind, Option.bind_eq_some_iff, Option.some.injEq,
        coordinate?_eq_some_iff] at h
      obtain ⟨a, ⟨rfl, ha⟩, b, ⟨rfl, hb⟩, c, ⟨rfl, hc⟩, rfl⟩ := h
      exact .intro ⟨a, b, c⟩ ⟨ha, hb, hc⟩ rest
    · cases h
  · rintro ⟨r, h, rest⟩
    simp [run?, coordinate?_eq_some_iff.mpr ⟨rfl, h.column⟩,
      coordinate?_eq_some_iff.mpr ⟨rfl, h.sourceLine⟩,
      coordinate?_eq_some_iff.mpr ⟨rfl, h.sourceColumn⟩]

theorem array?_eq_some_iff {values : List Json} :
    value.array? = some values ↔ value = .array values := by
  cases value <;> simp [Json.array?]

theorem line?_eq_some_iff : line? value = some runs ↔ WritesLine value runs := by
  simp only [line?, Option.bind_eq_bind, Option.bind_eq_some_iff, array?_eq_some_iff,
    mapM_eq_some_iff, run?_eq_some_iff]
  constructor
  · rintro ⟨values, rfl, h⟩
    exact .intro h
  · rintro ⟨h⟩
    exact ⟨_, rfl, h⟩

theorem ofJson?_eq_some_iff :
    ofJson? value = some map ↔ ∃ lines, Writes value lines ∧ map = ofLines lines := by
  simp only [ofJson?, Option.bind_eq_bind, Option.bind_eq_some_iff, array?_eq_some_iff,
    mapM_eq_some_iff, line?_eq_some_iff, Option.some.injEq]
  constructor
  · rintro ⟨values, rfl, lines, h, rfl⟩
    exact ⟨lines, .intro h, rfl⟩
  · rintro ⟨lines, ⟨h⟩, rfl⟩
    exact ⟨_, rfl, lines, h, rfl⟩

/-! ### Writing and reading again -/

def Fit (lines : List (List Run)) : Prop := ∀ runs ∈ lines, ∀ r ∈ runs, r.Fits

theorem Writes.fit (h : Writes value lines) : Fit lines := by
  obtain ⟨hlines⟩ := h
  intro runs hruns r hr
  obtain ⟨_, ⟨hline⟩⟩ := exists_of_forall₂ hlines hruns
  obtain ⟨_, ⟨_, hfits, _⟩⟩ := exists_of_forall₂ hline hr
  exact hfits

theorem writes_toJson (h : Fit map.lines) : Writes map.toJson map.lines := by
  apply Writes.intro
  rw [List.forall₂_map_left_iff, List.forall₂_same]
  intro runs hruns
  apply WritesLine.intro
  rw [List.forall₂_map_left_iff, List.forall₂_same]
  intro r hr
  exact .intro r (h runs hruns r hr) []

theorem sortLine_of_ordered (h : Ordered runs) : sortLine runs = runs := by
  apply List.mergeSort_of_pairwise
  exact h.imp decide_eq_true

theorem ofLines_lines_ofLines (lines : List (List Run)) :
    ofLines (ofLines lines).lines = ofLines lines := by
  simp only [ofLines, List.map_map]
  congr 1
  apply List.map_congr_left
  intro runs _
  exact sortLine_of_ordered (ordered_sortLine runs)

theorem Fit.ofLines (h : Fit lines) : Fit (ofLines lines).lines := by
  intro sorted hsorted r hr
  obtain ⟨runs, hruns, rfl⟩ := List.mem_map.mp hsorted
  exact h runs hruns r ((perm_sortLine runs).mem_iff.mp hr)

/-- A map comes back from its JSON form exactly if it is one that lines of numbers of 32 bits
make up. -/
theorem ofJson?_toJson_iff :
    ofJson? map.toJson = some map ↔ ∃ lines, Fit lines ∧ map = ofLines lines := by
  rw [ofJson?_eq_some_iff]
  constructor
  · rintro ⟨lines, h, hmap⟩
    exact ⟨lines, h.fit, hmap⟩
  · rintro ⟨lines, h, rfl⟩
    exact ⟨_, writes_toJson h.ofLines, (ofLines_lines_ofLines lines).symm⟩

end LineMap

/-! ### The output of a compiler -/

namespace Command

/-- How the member for the map is written. Without one, or with null, there is no map. -/
inductive WritesMap : Option Json → Option LineMap → Prop
  | absent : WritesMap none none
  | null : WritesMap (some .null) none
  | given {value : Json} {lines : List (List Run)} (h : LineMap.Writes value lines) :
    WritesMap (some value) (some (.ofLines lines))

structure WritesOutput (value : Json) (output : Output) : Prop where
  object : ∃ members, value = .object members
  code : value.member? "code" = some (.string output.code)
  map : WritesMap (value.member? "map") output.map

variable {value : Json} {output : Output}

theorem text?_eq_some_iff {text : String} : value.text? = some text ↔ value = .string text := by
  cases value <;> simp [Json.text?]

theorem object_of_member? {key : String} {member : Json} (h : value.member? key = some member) :
    ∃ members, value = .object members := by
  cases value with
  | object members => exact ⟨members, rfl⟩
  | _ => simp [Json.member?] at h

theorem writesOutput_of_ok (h : outputOfJson value = .ok output) : WritesOutput value output := by
  unfold outputOfJson at h
  split at h
  · cases h
  · next code hcode =>
    obtain ⟨member, hmember, htext⟩ := Option.bind_eq_some_iff.mp hcode
    rw [text?_eq_some_iff] at htext
    subst htext
    have hobject := object_of_member? hmember
    split at h
    · next hmap =>
      cases h
      refine ⟨hobject, hmember, ?_⟩
      rw [hmap]
      exact .absent
    · next hmap =>
      cases h
      refine ⟨hobject, hmember, ?_⟩
      rw [hmap]
      exact .null
    · next hmap =>
      split at h
      · next hread =>
        cases h
        refine ⟨hobject, hmember, ?_⟩
        rw [hmap]
        obtain ⟨lines, hwrites, rfl⟩ := LineMap.ofJson?_eq_some_iff.mp hread
        exact .given hwrites
      · cases h

theorem WritesOutput.outputOfJson (h : WritesOutput value output) :
    outputOfJson value = .ok output := by
  obtain ⟨-, hcode, hmap⟩ := h
  obtain ⟨code, map⟩ := output
  have htext : (value.member? "code").bind Json.text? = some code := by
    rw [hcode]
    rfl
  simp only [Command.outputOfJson, htext]
  generalize value.member? "map" = member at hmap
  cases hmap with
  | absent => rfl
  | null => rfl
  | @given value lines h =>
    have hread := LineMap.ofJson?_eq_some_iff.mpr ⟨lines, h, rfl⟩
    -- A map that is written is an array, so it is not null.
    obtain ⟨_⟩ := h
    simp only [hread]

theorem garbled_of_error {error : CompileError} (h : outputOfJson value = .error error) :
    ∃ reason, error = .garbled reason := by
  unfold outputOfJson at h
  split at h
  · cases h
    exact ⟨_, rfl⟩
  · split at h
    · cases h
    · cases h
    · split at h
      · cases h
      · cases h
        exact ⟨_, rfl⟩

/-- A line map is read exactly if it is written as one, and what is written of a map is read back.
The output of a compiler is read exactly if it is an object that has its code and, unless it is left
out or null, a map that can be read; any other output is garbled. -/
theorem decoding_exact :
    (∀ value map, LineMap.ofJson? value = some map ↔
      ∃ lines, LineMap.Writes value lines ∧ map = .ofLines lines) ∧
    (∀ map : LineMap, LineMap.ofJson? map.toJson = some map ↔
      ∃ lines, LineMap.Fit lines ∧ map = .ofLines lines) ∧
    (∀ out value, Json.read out = .ok value → readOutput .json out = outputOfJson value) ∧
    ∀ value, (∀ output, outputOfJson value = .ok output ↔ WritesOutput value output) ∧
      ((∀ output, ¬ WritesOutput value output) →
        ∃ reason, outputOfJson value = .error (.garbled reason)) := by
  refine ⟨fun _ _ => LineMap.ofJson?_eq_some_iff, fun _ => LineMap.ofJson?_toJson_iff, ?_, ?_⟩
  · intro out value h
    rw [readOutput, h]
  · intro value
    refine ⟨fun output => ⟨writesOutput_of_ok, WritesOutput.outputOfJson⟩, fun hnone => ?_⟩
    cases h : outputOfJson value with
    | ok output => exact absurd (writesOutput_of_ok h) (hnone output)
    | error error =>
      obtain ⟨reason, rfl⟩ := garbled_of_error h
      exact ⟨reason, rfl⟩

/-- What follows the three numbers of a run is ignored, and a number of 33 bits spoils a map. -/
theorem decoding_exact_spoiled :
    let output (numbers : List Json) : Json :=
      .object [("code", .string "x"), ("map", .array [.array [.array numbers], .array []])]
    let written := output [LineMap.number 5, LineMap.number 0, LineMap.number 8, .null]
    let spoiled := output [LineMap.number 5, LineMap.number 0, LineMap.number UInt32.size]
    outputOfJson written = .ok ⟨"x", some (.ofLines [[⟨5, 0, 8⟩], []])⟩ ∧
      (∀ output, ¬ WritesOutput spoiled output) ∧
      ∃ reason, outputOfJson spoiled = .error (.garbled reason) := by
  intro output written spoiled
  have hspoiled : ∀ output, ¬ WritesOutput spoiled output := by
    intro output h
    have hok := h.outputOfJson
    change (.error _ : Result) = .ok output at hok
    cases hok
  obtain ⟨-, -, -, hexact⟩ := decoding_exact
  refine ⟨((hexact written).1 _).mpr ⟨⟨_, rfl⟩, rfl, .given ?_⟩, hspoiled,
    (hexact spoiled).2 hspoiled⟩
  have hfits : Run.Fits ⟨5, 0, 8⟩ := by constructor <;> decide
  exact .intro (.cons (.intro (.cons (.intro _ hfits _) .nil)) (.cons (.intro .nil) .nil))

end Command

end SourceOverlay
