import SourceOverlay.Proofs.Imports

/-!
# Layered names

A layered name is written from the left: a stem whose last component is more than dots, and behind
it two extensions. It is read from the right, by taking off one extension after the other. Reading
accepts exactly what can be written, and since it gives one answer, a name is written in one way
only.
-/

set_option autoImplicit false

namespace SourceOverlay.Name

/-- The last component is more than dots: from some character on that is no dot there is no
separator. -/
def HasStem (cs : List Char) : Prop :=
  ∃ front c rest, cs = front ++ c :: rest ∧ isDot c = false ∧
    ∀ x ∈ c :: rest, isSeparator x = false

theorem hasStem_iff (cs : List Char) :
    HasStem cs ↔ ∃ c ∈ Chars.component cs, isDot c = false := by
  constructor
  · rintro ⟨front, c, rest, rfl, hdot, hseps⟩
    refine ⟨c, ?_, hdot⟩
    rw [Chars.component, Chars.lastRun_append_free _ _ _ hseps]
    simp
  · rintro ⟨c, hc, hdot⟩
    obtain ⟨before, rest, hcut⟩ := List.append_of_mem hc
    refine ⟨(cs.reverse.dropWhile fun c => !isSeparator c).reverse ++ before, c, rest, ?_, hdot, ?_⟩
    · rw [List.append_assoc, ← hcut, Chars.component_cut]
    · intro x hx
      apply lastRun_free isSeparator cs
      rw [← Chars.component, hcut]
      exact List.mem_append_right before hx

/-! ### What is taken off -/

namespace Chars

theorem exists_stem {cs : List Char} (h : extension cs ≠ []) :
    ∃ stem, HasStem stem ∧ cs = stem ++ extension cs := by
  by_cases hdots : ((component cs).dropWhile isDot).any isDot = true
  · have hext : extension cs = '.' :: lastRun isDot ((component cs).dropWhile isDot) :=
      if_pos hdots
    obtain ⟨us, a, ha, hcut⟩ := exists_lastRun isDot _ hdots
    obtain rfl : a = '.' := by simpa [isDot] using ha
    rw [← hext] at hcut
    -- The dots in front of the component are gone, so what is left does not open with one.
    have hhead := List.head?_dropWhile_not isDot (component cs)
    rw [hcut] at hhead
    cases us with
    | nil => simp [hext, isDot] at hhead
    | cons c us =>
      have hcs : cs = (cs.reverse.dropWhile fun c => !isSeparator c).reverse ++
          ((component cs).takeWhile isDot ++ (c :: us ++ extension cs)) := by
        rw [← hcut, List.takeWhile_append_dropWhile, component_cut]
      refine ⟨_, ⟨(cs.reverse.dropWhile fun c => !isSeparator c).reverse ++
        (component cs).takeWhile isDot, c, us, rfl, by simpa using hhead, ?_⟩, by simpa using hcs⟩
      intro x hx
      apply lastRun_free isSeparator cs
      apply (List.dropWhile_suffix isDot).subset
      rw [← component, hcut]
      exact List.mem_append_left _ hx
  · exact absurd (if_neg hdots) h

theorem isSingle_extension {cs : List Char} (h : isProper (extension cs) = true) :
    isSingle (extension cs) = true := by
  by_cases hdots : ((component cs).dropWhile isDot).any isDot = true
  · have hext : extension cs = '.' :: lastRun isDot ((component cs).dropWhile isDot) :=
      if_pos hdots
    have hseps : ∀ c ∈ lastRun isDot ((component cs).dropWhile isDot), isSeparator c = false := by
      intro c hc
      apply lastRun_free isSeparator cs
      apply (List.dropWhile_suffix isDot).subset
      exact List.mem_reverse.mp ((List.takeWhile_subset _) (List.mem_reverse.mp hc))
    have hdot := lastRun_free isDot ((component cs).dropWhile isDot)
    rw [hext] at h ⊢
    cases hrun : lastRun isDot ((component cs).dropWhile isDot) with
    | nil => simp [hrun, isProper] at h
    | cons c run =>
      rw [hrun] at hseps hdot
      simp only [isSingle, List.isEmpty_cons, Bool.not_false, Bool.true_and, List.all_eq_true]
      intro x hx
      simp [hdot x hx, hseps x hx]
  · rw [show extension cs = [] from if_neg hdots] at h
    simp [isProper] at h

end Chars

/-! ### Reading and writing -/

theorem withoutExtension_of_improper {name : String} (h : ¬ 1 < (extension name).length) :
    withoutExtension name = name := by
  have himproper : Chars.isProper (Chars.extension name.toList) = false := by
    simpa [extension, Chars.isProper] using h
  simp [withoutExtension, Chars.withoutExtension, himproper]

theorem withoutExtension_append_of_stem {stem ext : String} (hstem : HasStem stem.toList)
    (hext : isSingle ext = true) : withoutExtension (stem ++ ext) = stem := by
  have happend := extension_append_of_stem ((hasStem_iff _).mp hstem) hext
  have hchars : Chars.extension (stem ++ ext).toList = ext.toList := by
    simpa [extension] using congrArg String.toList happend
  rw [withoutExtension, Chars.withoutExtension, hchars, if_pos (isProper_of_isSingle hext),
    String.toList_append, Chars.dropEnd_append, String.ofList_toList]

namespace Layered

structure Writes (n : Layered) (name : String) : Prop where
  text : n.stem ++ n.inner ++ n.outer = name
  stem : HasStem n.stem.toList
  inner : isSingle n.inner = true
  outer : isSingle n.outer = true

variable {n : Layered} {name : String}

theorem writes_of_split? (h : split? name = some n) : n.Writes name := by
  simp only [split?] at h
  split at h
  · next hproper =>
    obtain rfl := Option.some.inj h
    simp only [Bool.and_eq_true] at hproper
    obtain ⟨houter, hinner⟩ := hproper
    have hsource := Chars.dropEnd_append_extension name.toList
    generalize Chars.dropEnd name.toList (Chars.extension name.toList) = source at *
    have hne : Chars.extension source ≠ [] := by
      intro hnil
      simp [hnil, Chars.isProper] at hinner
    obtain ⟨stem, hstem, hcut⟩ := Chars.exists_stem hne
    have hdrop : Chars.dropEnd source (Chars.extension source) = stem := by
      conv => lhs; arg 1; rw [hcut]
      exact Chars.dropEnd_append stem _
    constructor
    · apply String.toList_inj.mp
      simp [hdrop, ← hcut, hsource]
    · simpa [hdrop] using hstem
    · simpa [isSingle] using Chars.isSingle_extension hinner
    · simpa [isSingle] using Chars.isSingle_extension houter
  · simp at h

theorem Writes.extension_source (h : n.Writes name) : extension n.source = n.inner :=
  extension_append_of_stem ((hasStem_iff _).mp h.stem) h.inner

theorem Writes.split? (h : n.Writes name) : split? name = some n := by
  have hbare : isBare (extension n.source) = false := by
    rw [h.extension_source]
    exact not_isBare_of_isSingle h.inner
  rw [← h.text, ← source, split?_append_single _ _ hbare h.outer, h.extension_source, source,
    withoutExtension_append_of_stem h.stem h.inner]

/-- A name is read as layered exactly if it is written as such, which it is in one way at most. The
source is what is left without the last extension, and taking an extension off loses nothing. -/
theorem split?_eq_some_iff_writes (name : String) :
    (∀ n, split? name = some n ↔ n.Writes name) ∧
      (∀ n n' : Layered, n.Writes name → n'.Writes name → n = n') ∧
      (∀ n, split? name = some n → n.source = n.stem ++ n.inner ∧
        n.source = withoutExtension name ∧ extension name = n.outer ∧
        extension n.source = n.inner) ∧
      (1 < (extension name).length → withoutExtension name ++ extension name = name) ∧
      (¬ 1 < (extension name).length → withoutExtension name = name) := by
  have hiff : ∀ n, split? name = some n ↔ n.Writes name :=
    fun n => ⟨writes_of_split?, Writes.split?⟩
  refine ⟨hiff, ?_, ?_, ?_, withoutExtension_of_improper⟩
  · intro n n' h h'
    exact Option.some.inj (h.split?.symm.trans h'.split?)
  · intro n h
    obtain ⟨-, houter, -, -⟩ := split?_cases h
    exact ⟨rfl, source_of_split? h, houter.symm, ((hiff n).mp h).extension_source⟩
  · intro h
    apply withoutExtension_append_extension
    simpa [extension, Chars.isProper] using h

/-- Both separators, a directory with a dot and dots in front of the stem. -/
theorem split?_eq_some_iff_writes_dotted :
    let n : Layered := ⟨"/v1.2\\..é", ".v", ".ts"⟩
    n.Writes "/v1.2\\..é.v.ts" ∧ split? "/v1.2\\..é.v.ts" = some n ∧
      withoutExtension "/v1.2\\..é.v.ts" = "/v1.2\\..é.v" := by
  intro n
  have hwrites : n.Writes "/v1.2\\..é.v.ts" := by
    refine ⟨by decide, (hasStem_iff _).mpr ⟨'é', ?_, rfl⟩, ?_, ?_⟩
    all_goals decide +kernel
  obtain ⟨hiff, -, hsource, -⟩ := split?_eq_some_iff_writes "/v1.2\\..é.v.ts"
  have hsplit := (hiff n).mpr hwrites
  exact ⟨hwrites, hsplit, (hsource n hsplit).2.1.symm⟩

end Layered

end SourceOverlay.Name
