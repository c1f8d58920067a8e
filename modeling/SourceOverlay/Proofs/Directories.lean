import SourceOverlay.Proofs.Memos

/-!
# Imports seen from a directory

An import is looked up from the directory of the importing file, and nothing else of that file
matters: not for a relative name, not for the way up through the package directories, and not for
the compiled form of a source. So the memo, which is kept by directory and name, holds for every
file what a look-up would find for it. While the files stay what they are, an answer that comes
from the memo is the one that would be given without it.
-/

set_option autoImplicit false

namespace SourceOverlay

namespace Name

theorem locate?_congr {importer importer' : String} (h : folder importer = folder importer')
    (name : String) : locate? importer name = locate? importer' name := by
  simp only [locate?, h]

def fileIn (dir : String) : String := if dir = "" then "file" else dir ++ "/file"

theorem folder_fileIn (dir : String) : folder (fileIn dir) = dir := by
  by_cases hdir : dir = ""
  · subst hdir
    decide
  · have hcs : dir.toList.reverse ≠ [] := by simpa using hdir
    have hcut : (dir ++ "/file").toList.reverse.dropWhile (fun c => !isSeparator c) =
        '/' :: dir.toList.reverse := by
      simp [isSeparator]
    rw [fileIn, if_neg hdir, folder, Chars.folder, hcut]
    cases hrev : dir.toList.reverse with
    | nil => exact absurd hrev hcs
    | cons c cs =>
      show String.ofList (c :: cs).reverse = dir
      rw [← hrev, List.reverse_reverse, String.ofList_toList]

end Name

namespace Import

section Directory

variable {r : Registry} {options : Options} {host : Host} {memo : Memo}
  {importer importer' name : String}

theorem lookUp?_congr (h : Name.folder importer = Name.folder importer') :
    lookUp? host importer name = lookUp? host importer' name := by
  simp only [lookUp?, candidates, packageCandidates, Name.locate?_congr h, h]

theorem synthesize?_congr (h : Name.folder importer = Name.folder importer') :
    synthesize? r host importer name = synthesize? r host importer' name := by
  simp only [synthesize?, Name.locate?_congr h]

def leadsTo (r : Registry) (host : Host) (importer name : String) : Option Module :=
  (lookUp? host importer name).or (synthesize? r host importer name)

theorem leadsTo_congr (h : Name.folder importer = Name.folder importer') :
    leadsTo r host importer name = leadsTo r host importer' name := by
  rw [leadsTo, lookUp?_congr h, synthesize?_congr h, leadsTo]

/-- What is kept for a directory and a name is what a look-up from there finds. -/
def Memo.Faithful (host : Host) (memo : Memo) : Prop :=
  ∀ importer name m, memo.find? (Name.folder importer) name = some m →
    lookUp? host importer name = some m

theorem Memo.faithful_of_empty (h : ∀ dir name, memo.find? dir name = none) :
    memo.Faithful host := by
  intro importer name m hm
  simp [h] at hm

theorem Memo.Faithful.native (h : memo.Faithful host) (importer name : String) :
    (native options host memo importer name).1 = lookUp? host importer name := by
  rw [native_fst]
  cases hm : memo.find? (Name.folder importer) name with
  | none => rfl
  | some m => rw [h importer name m hm, Option.some_or]

theorem Memo.Faithful.answers (h : memo.Faithful host) (names : List String) :
    (resolveAll r Import.native options host importer names memo).1 =
      names.map (leadsTo r host importer) := by
  rw [(resolveAll_native r options host importer names memo).1]
  apply List.map_congr_left
  intro name _
  rw [h.native, leadsTo]

/-- Resolving names from one file leaves the memo faithful for all the others. -/
theorem Memo.Faithful.resolveAll (h : memo.Faithful host) (importer : String)
    (names : List String) :
    (resolveAll r Import.native options host importer names memo).2.Faithful host := by
  intro importer' name m hm
  rw [(resolveAll_native r options host importer names memo).2, Option.or_eq_some_iff] at hm
  rcases hm with hm | ⟨-, hm⟩
  · exact h importer' name m hm
  · split at hm
    · next hkey => rw [lookUp?_congr hkey.1, hm]
    · cases hm

end Directory

end Import

namespace Session

open Import

variable {s : Session}

def imports (r : Registry) (f : Files) (calls : List (String × List String)) : List Turn :=
  calls.map fun c => ⟨r, f, .resolve c.1 c.2⟩

theorem step_resolve (hresolver : s.project.resolver = native) (r : Registry) (f : Files)
    (importer : String) (names : List String) :
    step ⟨r, f, .resolve importer names⟩ s =
      (.modules (resolveAll r native s.project.settings.options (hostOf s.overlay.store f) importer
          names s.project.memo).1,
        { s with project := { s.project with
          memo := (resolveAll r native s.project.settings.options (hostOf s.overlay.store f)
            importer names s.project.memo).2 } }) := by
  rw [← hresolver]
  rfl

theorem answers_imports_of_faithful (hresolver : s.project.resolver = native) {r : Registry}
    {f : Files} (hmemo : s.project.memo.Faithful (hostOf s.overlay.store f))
    (calls : List (String × List String)) :
    answers (imports r f calls) s =
      calls.map fun c => .modules (c.2.map (leadsTo r (hostOf s.overlay.store f) c.1)) := by
  induction calls generalizing s with
  | nil => rfl
  | cons c calls ih =>
    have hstep := step_resolve hresolver r f c.1 c.2
    have hrest := ih (s := (step ⟨r, f, .resolve c.1 c.2⟩ s).2) (by rw [hstep]; exact hresolver)
      (by rw [hstep]; exact hmemo.resolveAll c.1 c.2)
    rw [hstep] at hrest
    rw [imports, List.map_cons, answers, hstep, hmemo.answers, List.map_cons]
    exact congrArg _ hrest

/-- With the files, documents and transpilers as they are, every request of a sequence that starts
with an empty memo is answered as if it were the first. What a name leads to depends on the name and
the directory it is imported from, so neither the order of the requests nor the way in which names
are spread over them matters. -/
theorem answers_imports (r : Registry) (f : Files) (hresolver : s.project.resolver = native)
    (hmemo : ∀ dir name, s.project.memo.find? dir name = none) :
    (∀ calls, answers (imports r f calls) s =
      calls.map fun c => (step ⟨r, f, .resolve c.1 c.2⟩ s).1) ∧
    ∃ answer : String → String → Option Module, ∀ importer names,
      (step ⟨r, f, .resolve importer names⟩ s).1 =
        .modules (names.map (answer (Name.folder importer))) := by
  have hfaithful : s.project.memo.Faithful (hostOf s.overlay.store f) :=
    Memo.faithful_of_empty hmemo
  have hfirst : ∀ importer names, (step ⟨r, f, .resolve importer names⟩ s).1 =
      .modules (names.map (leadsTo r (hostOf s.overlay.store f) importer)) := by
    intro importer names
    rw [step_resolve hresolver, hfaithful.answers]
  constructor
  · intro calls
    rw [answers_imports_of_faithful hresolver hfaithful]
    apply List.map_congr_left
    intro c _
    rw [hfirst]
  · refine ⟨fun dir => leadsTo r (hostOf s.overlay.store f) (Name.fileIn dir), ?_⟩
    intro importer names
    rw [hfirst]
    apply congrArg
    apply List.map_congr_left
    intro name _
    apply leadsTo_congr
    rw [Name.folder_fileIn]

/-- The second request comes from another file of the same directory and finds `./b` in the memo. -/
theorem answers_imports_copying :
    let f := Files.ofRead fun p => if p = "/p/b.ts" ∨ p = "/p/a.v" then some "one" else none
    let calls := [("/p/main.ts", ["./b", "./a"]), ("/p/other.ts", ["./a", "./b"])]
    let b : Module := ⟨"/p/b.ts", ".ts", false⟩
    let a : Module := ⟨"/p/a.v.ts", ".ts", false⟩
    (run (imports .copying f calls) (opened sample)).project.memo.find? "/p" "./b" = some b ∧
      (step ⟨.copying, f, .resolve "/p/other.ts" ["./a", "./b"]⟩ (opened sample)).1 =
        .modules [some a, some b] ∧
      answers (imports .copying f calls) (opened sample) =
        calls.map fun c => (step ⟨.copying, f, .resolve c.1 c.2⟩ (opened sample)).1 := by
  intro f calls b a
  refine ⟨by decide +kernel, by decide +kernel, ?_⟩
  apply (answers_imports .copying f rfl _).1
  intro dir name
  simp [opened, sample, Memo.find?]

end Session

end SourceOverlay
