import SourceOverlay.Proofs.Names
import SourceOverlay.Store

/-!
# Laws of the document store

Every operation on the store comes down to putting documents in their places. A document is never
taken out; its path stays, its writes only grow in number, and its kind changes at most once, from
disk to editor. A store is tidy if each document is filed under its own path and each compiled
document has its source beside it. Every operation keeps a store tidy, and those that touch a single
path leave all others as they were.
-/

set_option autoImplicit false

namespace SourceOverlay

/-! ### Later states of a document -/

namespace Document

/-- The second document may be a later state of the first. -/
structure Precedes (d d' : Document) : Prop where
  path : d'.path = d.path
  kind : d'.kind = d.kind ∨ d.kind = .disk ∧ d'.kind = .editor
  writes : d.writes ≤ d'.writes

theorem Precedes.refl (d : Document) : d.Precedes d := ⟨rfl, .inl rfl, le_rfl⟩

theorem Precedes.trans {a b c : Document} (hab : a.Precedes b) (hbc : b.Precedes c) :
    a.Precedes c := by
  refine ⟨hbc.path.trans hab.path, ?_, hab.writes.trans hbc.writes⟩
  rcases hab.kind with h | ⟨ha, hb⟩
  · rw [← h]
    exact hbc.kind
  · rcases hbc.kind with h | ⟨h, -⟩
    · exact .inr ⟨ha, h.trans hb⟩
    · simp [hb] at h

theorem precedes_write (d : Document) (text : String) (version : Version) :
    d.Precedes (d.write text version) := ⟨rfl, .inl rfl, Nat.le_succ _⟩

theorem precedes_setVersion (d : Document) (version : Version) :
    d.Precedes (d.setVersion version) := ⟨rfl, .inl rfl, le_rfl⟩

theorem precedes_promote (d : Document) : d.Precedes d.promote := by
  unfold promote
  split
  · next h => exact ⟨rfl, .inr ⟨by simpa [isDisk] using h, rfl⟩, le_rfl⟩
  · exact .refl d

theorem source?_eq_some {d : Document} {source : String} :
    d.source? = some source ↔ d.kind = .compiled source := by
  unfold source?
  split <;> simp_all

theorem isDisk_of_isEditor (d : Document) (h : d.isEditor = true) : d.isDisk = false := by
  have hkind : d.kind = .editor := by simpa [isEditor] using h
  simp [isDisk, hkind]

theorem Precedes.source? {d d' : Document} (h : d.Precedes d') : d'.source? = d.source? := by
  rcases h.kind with h | ⟨h, h'⟩
  · simp [Document.source?, h]
  · simp [Document.source?, h, h']

def received (d? : Option Document) (path text : String) (version : Version) : Document :=
  match d? with
  | none => .ofEditor path text version
  | some d => if d.isEditor && version < d.version then d else d.promote.write text version

theorem precedes_received (d : Document) (path text : String) (version : Version) :
    d.Precedes (received (some d) path text version) := by
  simp only [received]
  split
  · exact .refl d
  · exact (precedes_promote d).trans (precedes_write _ text version)

end Document

/-! ### Stores -/

namespace Store

theorem find?_put (s : Store) (d : Document) (p : String) :
    (s.put d).find? p = if d.path = p then some d else s.find? p := by
  simp [put, find?, Std.TreeMap.getElem?_insert]

@[simp] theorem find?_learn (s : Store) (path p : String) :
    (s.learn path).find? p = s.find? p := by
  unfold learn
  split <;> rfl

theorem ensure_of_some {s : Store} {path : String} {d : Document} (fresh : Document)
    (h : s.find? path = some d) : s.ensure path fresh = (d, s) := by
  simp [ensure, h]

theorem ensure_of_none {s : Store} {path : String} (fresh : Document)
    (h : s.find? path = none) : s.ensure path fresh = (fresh, s.put fresh) := by
  simp [ensure, h]

structure Tidy (s : Store) : Prop where
  filed : ∀ p d, s.find? p = some d → d.path = p
  sourced : ∀ p d source, s.find? p = some d → d.source? = some source →
    (s.find? source).isSome = true

/-- Every document of the first store is in the second, as it was or in a later state. -/
def Extends (s s' : Store) : Prop :=
  ∀ p d, s.find? p = some d → ∃ d', s'.find? p = some d' ∧ d.Precedes d'

theorem Extends.refl (s : Store) : s.Extends s := fun _ d h => ⟨d, h, .refl d⟩

theorem Extends.trans {s s' s'' : Store} (h : s.Extends s') (h' : s'.Extends s'') :
    s.Extends s'' := by
  intro p d hd
  obtain ⟨d', hd', hp⟩ := h p d hd
  obtain ⟨d'', hd'', hp'⟩ := h' p d' hd'
  exact ⟨d'', hd'', hp.trans hp'⟩

theorem Extends.isSome {s s' : Store} (h : s.Extends s') {p : String}
    (hp : (s.find? p).isSome = true) : (s'.find? p).isSome = true := by
  obtain ⟨d, hd⟩ := Option.isSome_iff_exists.mp hp
  obtain ⟨d', hd', -⟩ := h p d hd
  simp [hd']

theorem tidy_empty : ({} : Store).Tidy := by
  constructor <;> intros <;> simp_all [find?]

theorem put_extends {s : Store} {d : Document} (h : ∀ e, s.find? d.path = some e → e.Precedes d) :
    s.Extends (s.put d) := by
  intro p e he
  rw [find?_put]
  split
  · next hp =>
    subst hp
    exact ⟨d, rfl, h e he⟩
  · exact ⟨e, he, .refl e⟩

theorem Tidy.put {s : Store} {d : Document} (hs : s.Tidy)
    (h : ∀ e, s.find? d.path = some e → e.Precedes d)
    (hd : ∀ source, d.source? = some source → (s.find? source).isSome = true) :
    (s.put d).Tidy := by
  have hext := put_extends h
  constructor
  · intro p e he
    rw [find?_put] at he
    split at he
    · next hp => rw [← Option.some.inj he, hp]
    · exact hs.filed p e he
  · intro p e source he hsource
    apply hext.isSome
    rw [find?_put] at he
    split at he
    · rw [← Option.some.inj he] at hsource
      exact hd source hsource
    · exact hs.sourced p e source he hsource

theorem Tidy.replace {s : Store} {p : String} {d d' : Document} (hs : s.Tidy)
    (hd : s.find? p = some d) (h : d.Precedes d') :
    (s.put d').Tidy ∧ s.Extends (s.put d') ∧
      ∀ q, (s.put d').find? q = if p = q then some d' else s.find? q := by
  have hpath : d'.path = p := h.path.trans (hs.filed p d hd)
  have hold : ∀ e, s.find? d'.path = some e → e.Precedes d' := by
    intro e he
    rw [hpath, hd] at he
    exact Option.some.inj he ▸ h
  refine ⟨hs.put hold ?_, put_extends hold, fun q => by rw [find?_put, hpath]⟩
  intro source hsource
  rw [h.source?] at hsource
  exact hs.sourced p d source hd hsource

theorem Tidy.add {s : Store} {d : Document} (hs : s.Tidy) (hd : s.find? d.path = none)
    (h : ∀ source, d.source? = some source → (s.find? source).isSome = true) :
    (s.put d).Tidy ∧ s.Extends (s.put d) := by
  have hold : ∀ e, s.find? d.path = some e → e.Precedes d := by
    intro e he
    simp [hd] at he
  exact ⟨hs.put hold h, put_extends hold⟩

theorem Tidy.materialize {s : Store} {source : String} (hs : s.Tidy)
    (h : s.find? source = none) (text : String) :
    (s.materialize source text).2.Tidy ∧ s.Extends (s.materialize source text).2 ∧
      ∀ q, (s.materialize source text).2.find? q =
        if source = q then some (.ofDisk source text) else s.find? q := by
  rw [Store.materialize, ensure_of_none _ h]
  have hadd := hs.add (d := .ofDisk source text) h (by simp [Document.source?, Document.ofDisk])
  exact ⟨hadd.1, hadd.2, fun q => find?_put s (.ofDisk source text) q⟩

theorem Tidy.reserve {s : Store} {source : String} (hs : s.Tidy)
    (h : (s.find? source).isSome = true) (compiled : String) :
    (s.reserve compiled source).2.Tidy ∧ s.Extends (s.reserve compiled source).2 ∧
      ∀ q, (s.reserve compiled source).2.find? q =
        if compiled = q then some (s.reserve compiled source).1 else s.find? q := by
  cases hd : s.find? compiled with
  | some d =>
    rw [Store.reserve, ensure_of_some _ hd]
    refine ⟨hs, .refl s, fun q => ?_⟩
    split
    · next hq => rw [← hq, hd]
    · rfl
  | none =>
    rw [Store.reserve, ensure_of_none _ hd]
    have hadd := hs.add (d := .ofSource compiled source) hd (by
      intro other hother
      simp only [Document.source?, Document.ofSource, Option.some.injEq] at hother
      rwa [← hother])
    exact ⟨hadd.1, hadd.2, fun q => find?_put s (.ofSource compiled source) q⟩

theorem reserve_fst (s : Store) (compiled source : String) :
    (s.reserve compiled source).1 = (s.find? compiled).getD (.ofSource compiled source) := by
  cases h : s.find? compiled <;> simp [reserve, ensure, h]

theorem reserve_of_some {s : Store} {compiled : String} {d : Document} (source : String)
    (h : s.find? compiled = some d) : s.reserve compiled source = (d, s) :=
  ensure_of_some _ h

/-! ### Registration -/

theorem Tidy.receive {s : Store} (hs : s.Tidy) (path text : String) (version : Version) :
    (s.receive path text version).2.Tidy ∧ s.Extends (s.receive path text version).2 ∧
      ∀ q, (s.receive path text version).2.find? q =
        if path = q then some (Document.received (s.find? path) path text version)
        else s.find? q := by
  cases hd : s.find? path with
  | none =>
    have hadd := hs.add (d := .ofEditor path text version) hd
      (by simp [Document.source?, Document.ofEditor])
    simp only [Store.receive, hd, Document.received]
    exact ⟨hadd.1, hadd.2, fun q => find?_put s (.ofEditor path text version) q⟩
  | some d =>
    simp only [Store.receive, hd, Document.received]
    split
    · refine ⟨hs, .refl s, fun q => ?_⟩
      split
      · next hq => rw [← hq, hd]
      · rfl
    · exact hs.replace hd
        ((Document.precedes_promote d).trans (Document.precedes_write _ text version))

theorem receive_fst (s : Store) (path text : String) (version : Version) :
    (s.receive path text version).1 = (s.find? path).any (·.isDisk) := by
  cases hd : s.find? path with
  | none => simp [receive, hd]
  | some d =>
    simp only [receive, hd, Option.any_some]
    split
    · next h => rw [d.isDisk_of_isEditor (Bool.and_eq_true_iff.mp h).1]
    · rfl

/-- What a registration makes of the compiled document beside its path. -/
def paired (d : Document) (takenOver : Bool) : Document :=
  if takenOver then d.setVersion uncompiled else d

theorem paired_text (d : Document) (takenOver : Bool) : (paired d takenOver).text = d.text := by
  cases takenOver <;> rfl

theorem paired_source? (d : Document) (takenOver : Bool) :
    (paired d takenOver).source? = d.source? := by
  cases takenOver <;> rfl

theorem Tidy.pair {s : Store} {source : String} (hs : s.Tidy)
    (h : (s.find? source).isSome = true) (compiled : String) (takenOver : Bool) :
    (s.pair compiled source takenOver).Tidy ∧ s.Extends (s.pair compiled source takenOver) ∧
      ∀ q, (s.pair compiled source takenOver).find? q =
        if compiled = q then
          some (paired ((s.find? compiled).getD (.ofSource compiled source)) takenOver)
        else s.find? q := by
  obtain ⟨htidy, hext, hfind⟩ := hs.reserve h compiled
  rw [← reserve_fst]
  simp only [Store.pair, paired]
  split
  · have hd := hfind compiled
    rw [if_pos rfl] at hd
    obtain ⟨htidy', hext', hfind'⟩ :=
      htidy.replace hd (Document.precedes_setVersion _ uncompiled)
    refine ⟨htidy', hext.trans hext', fun q => ?_⟩
    rw [hfind']
    split
    · rfl
    · next hq => rw [hfind, if_neg hq]
  · exact ⟨htidy, hext, hfind⟩

def counted (s : Store) : Store := { s with projectVersion := s.projectVersion + 1 }

theorem Tidy.counted {s : Store} (hs : s.Tidy) : s.counted.Tidy := ⟨hs.1, hs.2⟩

theorem register_native {s : Store} {r : Registry} {path : String}
    (h : r.find? (Name.extension path) = none) (text : String) (version : Version) :
    s.register r path text version =
      (.native path, (s.counted.receive path text version).2.learn path) := by
  simp [register, h, Store.counted]

theorem register_alternate {s : Store} {r : Registry} {path : String} {t : Transpiler}
    (h : r.find? (Name.extension path) = some t) (text : String) (version : Version) :
    s.register r path text version =
      (.alternate path (t.compiledName path),
        ((s.counted.receive path text version).2.pair (t.compiledName path) path
          ((s.find? path).any (·.isDisk))).learn (t.compiledName path)) := by
  have hfst := receive_fst s.counted path text version
  simp only [register, h]
  rw [← show s.counted.find? path = s.find? path from rfl, ← hfst]
  rfl

theorem Tidy.learn {s : Store} (hs : s.Tidy) (path : String) : (s.learn path).Tidy :=
  ⟨by simpa using hs.1, by simpa using hs.2⟩

theorem Extends.learn {s s' : Store} (h : s.Extends s') (path : String) :
    s.Extends (s'.learn path) := by
  simpa [Extends] using h

theorem Tidy.register {s : Store} (hs : s.Tidy) (r : Registry) (path text : String)
    (version : Version) :
    (s.register r path text version).2.Tidy ∧ s.Extends (s.register r path text version).2 := by
  obtain ⟨htidy, hext, hfind⟩ := hs.counted.receive path text version
  cases h : r.find? (Name.extension path) with
  | none =>
    rw [register_native h]
    exact ⟨htidy.learn path, hext.learn path⟩
  | some t =>
    rw [register_alternate h]
    have hpath : ((s.counted.receive path text version).2.find? path).isSome = true := by
      simp [hfind]
    obtain ⟨htidy', hext', -⟩ :=
      htidy.pair hpath (t.compiledName path) ((s.find? path).any (·.isDisk))
    exact ⟨htidy'.learn _, (hext.trans hext').learn _⟩

theorem find?_register_native {s : Store} (hs : s.Tidy) {r : Registry} {path : String}
    (h : r.find? (Name.extension path) = none) (text : String) (version : Version) (q : String) :
    (s.register r path text version).2.find? q =
      if path = q then some (.received (s.find? path) path text version) else s.find? q := by
  rw [register_native h, find?_learn]
  exact (hs.counted.receive path text version).2.2 q

theorem find?_register_alternate {s : Store} (hs : s.Tidy) {r : Registry} {path : String}
    {t : Transpiler} (h : r.find? (Name.extension path) = some t)
    (hne : t.compiledName path ≠ path) (text : String) (version : Version) (q : String) :
    (s.register r path text version).2.find? q =
      if t.compiledName path = q then
        some (paired ((s.find? (t.compiledName path)).getD (.ofSource (t.compiledName path) path))
          ((s.find? path).any (·.isDisk)))
      else if path = q then some (.received (s.find? path) path text version)
      else s.find? q := by
  obtain ⟨htidy, -, hfind⟩ := hs.counted.receive path text version
  have hpath : ((s.counted.receive path text version).2.find? path).isSome = true := by
    simp [hfind]
  have hpair := (htidy.pair hpath (t.compiledName path) ((s.find? path).any (·.isDisk))).2.2 q
  rw [register_alternate h, find?_learn, hpair, hfind, hfind, if_neg (Ne.symm hne)]
  rfl

/-- A registration leaves alone what it does not invalidate. -/
theorem find?_register_of_not_invalidated {s : Store} (hs : s.Tidy) {r : Registry}
    {path text : String} {version : Version} {q : String}
    (hq : q ∉ (s.register r path text version).1.invalidated) :
    (s.register r path text version).2.find? q = s.find? q := by
  cases h : r.find? (Name.extension path) with
  | none =>
    simp only [register_native h, Registration.invalidated, List.mem_singleton] at hq
    rw [find?_register_native hs h, if_neg (Ne.symm hq)]
  | some t =>
    simp only [register_alternate h, Registration.invalidated, List.mem_cons, List.not_mem_nil,
      or_false, not_or] at hq
    obtain ⟨htidy, -, hfind⟩ := hs.counted.receive path text version
    have hpath : ((s.counted.receive path text version).2.find? path).isSome = true := by
      simp [hfind]
    have hpair :=
      (htidy.pair hpath (t.compiledName path) ((s.find? path).any (·.isDisk))).2.2 q
    rw [register_alternate h, find?_learn, hpair, if_neg (Ne.symm hq.1), hfind,
      if_neg (Ne.symm hq.2)]
    rfl

/-! ### Pairs -/

theorem mem_pairs {s : Store} (hs : s.Tidy) {compiled source : String} :
    (compiled, source) ∈ s.pairs ↔
      ∃ d, s.find? compiled = some d ∧ d.source? = some source := by
  simp only [pairs, TreeMap.values_eq_map_snd, List.mem_filterMap, List.mem_map,
    Option.map_eq_some_iff, Prod.mk.injEq, Prod.exists, exists_eq_right,
    Std.TreeMap.mem_toList_iff_getElem?_eq_some]
  constructor
  · rintro ⟨d, ⟨p, hd⟩, source', hsource, hpath, rfl⟩
    obtain rfl := (hs.filed p d hd).symm.trans hpath
    exact ⟨d, hd, hsource⟩
  · rintro ⟨d, hd, hsource⟩
    exact ⟨d, ⟨compiled, hd⟩, source, hsource, hs.filed compiled d hd, rfl⟩

end Store

end SourceOverlay
