import SourceOverlay.Proofs.Bookkeeping

/-!
# Memos

The native resolver keeps what it found and nothing else. It sees the documents that are no compiled
ones and the backing store. A document stays what it is, or leaves the disk for an editor, so a file
that was there once is there at every later moment, if the backing store loses nothing. Compiled
documents are neither found nor kept, and a name that leads to one is looked up in the registry each
time anew.
-/

set_option autoImplicit false

namespace SourceOverlay

namespace Import

def There (s : Store) (f : Files) (path : String) : Prop :=
  (∃ d, s.find? path = some d ∧ (d.kind = .editor ∨ d.kind = .disk)) ∨ f.has path = true

section There

variable {s s' : Store} {f f' : Files} {path : String}

theorem hostOf_has : (hostOf s f).has path = true ↔ There s f path := by
  have hsource : (s.source? path).isSome = true ↔
      ∃ d, s.find? path = some d ∧ (d.kind = .editor ∨ d.kind = .disk) := by
    cases hd : s.find? path with
    | none => simp [Store.source?, hd]
    | some d => cases hkind : d.kind <;> simp [Store.source?, hd, Document.source?, hkind]
  rw [hostOf, Bool.or_eq_true, hsource, There]

theorem There.later (h : There s f path) (hext : s.Extends s')
    (hfiles : ∀ p, f.has p = true → f'.has p = true) : There s' f' path := by
  rcases h with ⟨d, hd, hkind⟩ | hf
  · obtain ⟨d', hd', hprecedes⟩ := hext path d hd
    refine .inl ⟨d', hd', ?_⟩
    rcases hprecedes.kind with hsame | ⟨-, heditor⟩
    · rwa [hsame]
    · exact .inl heditor
  · exact .inr (hfiles path hf)

theorem There.not_compiled {d : Document} {source : String} (h : There s f path)
    (hd : s.find? path = some d) (hkind : d.kind = .compiled source) : f.has path = true := by
  rcases h with ⟨e, he, heditor | hdisk⟩ | hf
  · obtain rfl := Option.some.inj (hd.symm.trans he)
    simp [hkind] at heditor
  · obtain rfl := Option.some.inj (hd.symm.trans he)
    simp [hkind] at hdisk
  · exact hf

end There

/-! ### The native resolver -/

theorem Memo.find?_insert (m : Memo) (dir name : String) (target : Module) (dir' name' : String) :
    (m.insert dir name target).find? dir' name' =
      if dir = dir' ∧ name = name' then some target else m.find? dir' name' := by
  simp [insert, find?, Std.TreeMap.getElem?_insert]

section Native

variable {r : Registry} {options : Options} {host : Host} {importer : String}

theorem native_of_kept {memo : Memo} {name : String} {m : Module}
    (h : memo.find? (Name.folder importer) name = some m) :
    native options host memo importer name = (some m, memo) := by
  simp [native, h]

theorem native_of_new {memo : Memo} {name : String}
    (h : memo.find? (Name.folder importer) name = none) :
    native options host memo importer name =
      (lookUp? host importer name,
        ((lookUp? host importer name).map (memo.insert (Name.folder importer) name)).getD
          memo) := by
  simp only [native, h]
  cases lookUp? host importer name <;> rfl

theorem native_fst (options : Options) (host : Host) (memo : Memo) (importer name : String) :
    (native options host memo importer name).1 =
      (memo.find? (Name.folder importer) name).or (lookUp? host importer name) := by
  cases h : memo.find? (Name.folder importer) name with
  | some m => simp [native_of_kept h]
  | none => simp [native_of_new h]

/-- The memo after a look-up has what it had, and beyond that what was found. -/
theorem find?_native (options : Options) (host : Host) (memo : Memo) (importer name : String)
    (dir' name' : String) :
    (native options host memo importer name).2.find? dir' name' =
      (memo.find? dir' name').or
        (if dir' = Name.folder importer ∧ name' = name then lookUp? host importer name'
        else none) := by
  cases h : memo.find? (Name.folder importer) name with
  | some m =>
    rw [native_of_kept h]
    split
    · next hkey => simp [hkey.1, hkey.2, h]
    · simp
  | none =>
    rw [native_of_new h]
    by_cases hkey : dir' = Name.folder importer ∧ name' = name
    · rw [if_pos hkey, hkey.1, hkey.2, h]
      cases lookUp? host importer name <;> simp [h, Memo.find?_insert]
    · have hother : ¬ (Name.folder importer = dir' ∧ name = name') := by
        rintro ⟨rfl, rfl⟩
        exact hkey ⟨rfl, rfl⟩
      rw [if_neg hkey, Option.or_none]
      cases lookUp? host importer name with
      | none => rfl
      | some m => exact (Memo.find?_insert ..).trans (if_neg hother)

theorem has_of_lookUp? {name : String} {m : Module} (h : lookUp? host importer name = some m) :
    host.has m.file = true := by
  simpa using List.find?_some h

theorem resolve_native (memo : Memo) (name : String) :
    resolve r native options host importer memo name =
      ((native options host memo importer name).1.or (synthesize? r host importer name),
        (native options host memo importer name).2) := by
  unfold resolve
  split <;> next h => simp [h]

theorem resolveAll_native (r : Registry) (options : Options) (host : Host) (importer : String)
    (names : List String) (memo : Memo) :
    (resolveAll r native options host importer names memo).1 =
      (names.map fun name => ((native options host memo importer name).1.or
        (synthesize? r host importer name))) ∧
    ∀ dir' name', (resolveAll r native options host importer names memo).2.find? dir' name' =
      (memo.find? dir' name').or
        (if dir' = Name.folder importer ∧ name' ∈ names then lookUp? host importer name'
        else none) := by
  induction names generalizing memo with
  | nil => simp [resolveAll]
  | cons name names ih =>
    obtain ⟨hanswers, hmemo⟩ := ih (native options host memo importer name).2
    simp only [resolveAll, resolve_native, List.map_cons, hanswers, hmemo]
    constructor
    · refine congrArg _ (List.map_congr_left fun name' _ => ?_)
      -- What was kept for one name is what another look-up of it would find.
      rw [native_fst, native_fst, find?_native]
      by_cases hname : name' = name <;> simp [hname, Option.or_assoc]
    · intro dir' name'
      rw [find?_native, Option.or_assoc]
      by_cases hdir : dir' = Name.folder importer
      · by_cases hname : name' = name
        · subst hname
          cases lookUp? host importer name' <;> simp [hdir]
        · simp [hdir, hname]
      · simp [hdir]

end Native

end Import

namespace Session

open Import

variable {turn : Turn} {s : Session}

/-! ### Memos over a session -/

/-- No turn replaces the resolver, and only a request to resolve names writes in the memo. -/
theorem step_memo (turn : Turn) (s : Session) :
    (step turn s).2.project.resolver = s.project.resolver ∧
    ((step turn s).2.project.memo = s.project.memo ∨
      ∃ importer names, (step turn s).2.project.memo =
        (resolveAll turn.registry s.project.resolver s.project.settings.options
          (hostOf s.overlay.store turn.files) importer names s.project.memo).2) := by
  obtain ⟨r, f, request⟩ := turn
  cases request with
  | resolve importer names => exact ⟨rfl, .inr ⟨importer, names, rfl⟩⟩
  | register | serve =>
    simp only [step, Project.register, Project.serve]
    exact ⟨trivial, .inl trivial⟩
  | settle number =>
    simp only [step]
    split <;> exact ⟨rfl, .inl rfl⟩
  | _ => exact ⟨rfl, .inl rfl⟩

def Remembers (f : Files) (s : Session) : Prop :=
  ∀ dir name m, s.project.memo.find? dir name = some m → There s.overlay.store f m.file

theorem Remembers.step {f : Files} (h : s.Remembers f) (hs : s.Steady)
    (hresolver : s.project.resolver = native)
    (hfiles : ∀ p, turn.files.has p = true → f.has p = true) :
    (step turn s).2.Remembers f := by
  have hext := step_extends hs turn
  intro dir name m hm
  obtain ⟨-, hmemo | ⟨importer, names, hmemo⟩⟩ := step_memo turn s
  · rw [hmemo] at hm
    exact (h dir name m hm).later hext fun _ hp => hp
  · rw [hmemo, hresolver, (resolveAll_native _ _ _ importer names _).2, Option.or_eq_some_iff] at hm
    rcases hm with hm | ⟨-, hm⟩
    · exact (h dir name m hm).later hext fun _ hp => hp
    · split at hm
      · exact (hostOf_has.mp (has_of_lookUp? hm)).later hext hfiles
      · simp at hm

theorem run_remembers {project : Project} (hresolver : project.resolver = native)
    (hmemo : ∀ dir name, project.memo.find? dir name = none) {turns : List Turn} {f : Files}
    (hfiles : ∀ turn ∈ turns, ∀ p, turn.files.has p = true → f.has p = true) :
    (run turns (opened project)).project.resolver = native ∧
      (run turns (opened project)).Remembers f := by
  have hkeep : ∀ turn ∈ turns, ∀ s : Session,
      s.Steady ∧ s.project.resolver = native ∧ s.Remembers f →
      (step turn s).2.Steady ∧ (step turn s).2.project.resolver = native ∧
        (step turn s).2.Remembers f := by
    rintro turn hturn s ⟨hs, hnative, h⟩
    exact ⟨hs.step turn, (step_memo turn s).1.trans hnative,
      h.step hs hnative (hfiles turn hturn)⟩
  have hopened : (opened project).Remembers f := by
    intro dir name m hm
    rw [opened, hmemo] at hm
    simp at hm
  exact (run_keep hkeep ⟨steady_opened project, hresolver, hopened⟩).2

def native? (f : Files) (s : Session) (importer name : String) : Option Module :=
  (native s.project.settings.options (hostOf s.overlay.store f) s.project.memo importer name).1

theorem Remembers.native? {f : Files} {importer name : String} {m : Module} (h : s.Remembers f)
    (hm : s.native? f importer name = some m) : There s.overlay.store f m.file := by
  rw [Session.native?, native_fst, Option.or_eq_some_iff] at hm
  rcases hm with hm | ⟨-, hm⟩
  · exact h _ name m hm
  · exact hostOf_has.mp (has_of_lookUp? hm)

structure ResolvesApart (r : Registry) (f : Files) (s : Session) (importer : String)
    (names : List String) : Prop where
  remembered : s.Remembers f
  found : ∀ name m, s.native? f importer name = some m → There s.overlay.store f m.file
  /-- A compiled document that is no file is neither remembered nor found. -/
  unseen : ∀ path d source, s.overlay.store.find? path = some d → d.kind = .compiled source →
    f.has path = false →
    (∀ dir name m, s.project.memo.find? dir name = some m → m.file ≠ path) ∧
      ∀ name m, s.native? f importer name = some m → m.file ≠ path
  /-- What does not resolve natively is looked up in the registry as it is now. -/
  answer : (step ⟨r, f, .resolve importer names⟩ s).1 =
    .modules (names.map fun name => (s.native? f importer name).or
      (synthesize? r (hostOf s.overlay.store f) importer name))
  /-- Only what resolved natively is new in the memo. -/
  learnt : ∀ dir name m,
    (step ⟨r, f, .resolve importer names⟩ s).2.project.memo.find? dir name = some m →
    s.project.memo.find? dir name = some m ∨
      dir = Name.folder importer ∧ name ∈ names ∧ s.native? f importer name = some m
  unlearnt : ∀ name, s.native? f importer name = none →
    (step ⟨r, f, .resolve importer names⟩ s).2.project.memo.find? (Name.folder importer) name = none

/-- With a backing store that lost none of its files, native resolution stays apart from compiled
documents at every moment, whatever became of the registry. -/
theorem run_resolvesApart (project : Project) (hresolver : project.resolver = native)
    (hmemo : ∀ dir name, project.memo.find? dir name = none) (turns : List Turn) (f : Files)
    (hfiles : ∀ turn ∈ turns, ∀ p, turn.files.has p = true → f.has p = true) (r : Registry)
    (importer : String) (names : List String) :
    ResolvesApart r f (run turns (opened project)) importer names := by
  obtain ⟨hnative, hremembers⟩ := run_remembers hresolver hmemo hfiles
  generalize run turns (opened project) = s at hnative hremembers
  obtain ⟨hanswers, hmemo'⟩ := resolveAll_native r s.project.settings.options
    (hostOf s.overlay.store f) importer names s.project.memo
  have hstep : (step ⟨r, f, .resolve importer names⟩ s).2.project.memo =
      (resolveAll r native s.project.settings.options (hostOf s.overlay.store f) importer names
        s.project.memo).2 := by
    rw [← hnative]
    rfl
  constructor
  case remembered => exact hremembers
  case found => exact fun name m hm => hremembers.native? hm
  case unseen =>
    intro path d source hd hkind hfile
    have hunseen : ∀ p, There s.overlay.store f p → p ≠ path := by
      rintro p hp rfl
      simp [hp.not_compiled hd hkind] at hfile
    exact ⟨fun dir name m hm => hunseen _ (hremembers dir name m hm),
      fun name m hm => hunseen _ (hremembers.native? hm)⟩
  case answer =>
    refine Eq.trans ?_ (congrArg Answer.modules hanswers)
    rw [← hnative]
    rfl
  case learnt =>
    intro dir name m hm
    rw [hstep, hmemo', Option.or_eq_some_iff] at hm
    rcases hm with hm | ⟨hnew, hm⟩
    · exact .inl hm
    · split at hm
      · next hkey =>
        refine .inr ⟨hkey.1, hkey.2, ?_⟩
        rw [hkey.1] at hnew
        rw [Session.native?, native_fst, hnew, hm]
        rfl
      · simp at hm
  case unlearnt =>
    intro name hnone
    rw [Session.native?, native_fst, Option.or_eq_none_iff] at hnone
    rw [hstep, hmemo', hnone.1]
    simp [hnone.2]

/-- The import `./a.v` would lead to the compiled document natively if the resolver saw it. -/
theorem run_resolvesApart_copying :
    let f := Files.ofRead fun p => if p = "/p/b.ts" then some "two" else none
    let s := run ([.register "/p/a.v" "one" 1, .serve "/p/a.v.ts",
      .resolve "/p/main.ts" ["./a.v", "./b"]].map (Turn.mk .copying f)) (opened sample)
    (step ⟨.copying, f, .resolve "/p/main.ts" ["./a.v", "./b"]⟩ s).1 =
        .modules [some ⟨"/p/a.v.ts", ".ts", false⟩, some ⟨"/p/b.ts", ".ts", false⟩] ∧
      ResolvesApart .copying f s "/p/main.ts" ["./a.v", "./b"] := by
  intro f s
  refine ⟨by decide +kernel, run_resolvesApart sample rfl ?_ _ f ?_ _ _ _⟩
  · intro dir name
    simp [sample, Memo.find?]
  · intro turn hturn
    obtain ⟨request, -, rfl⟩ := List.mem_map.mp hturn
    exact fun _ hp => hp

end Session

end SourceOverlay
