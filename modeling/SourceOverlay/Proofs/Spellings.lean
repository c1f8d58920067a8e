import SourceOverlay.Proofs.Directories

/-!
# Spellings of paths

A file is known by the text of its path, so its spellings have to be brought to one form. That form
is a root, or else a number of steps up, and behind it names. `collapse` leaves the paths of that
form as they are and leads every other path to one of them. It reads a path from the left and keeps
a stack of segments, which has the form at every moment; so the part that was read may be replaced
by its normal form, and two spellings of a directory give the same files.
-/

set_option autoImplicit false

namespace SourceOverlay.Name

/-! ### Splitting and joining -/

theorem separator_free_of_mem_split {p : Char → Bool} {cs segment : List Char}
    (h : segment ∈ cs.splitOnP p) : ∀ c ∈ segment, p c = false := by
  induction cs generalizing segment with
  | nil =>
    rw [List.splitOnP_nil, List.mem_singleton] at h
    simp [h]
  | cons c cs ih =>
    rw [List.splitOnP_cons_eq_if_modifyHead] at h
    split at h
    · rcases List.mem_cons.mp h with rfl | h
      · simp
      · exact ih h
    · next hc =>
      cases hsplit : cs.splitOnP p with
      | nil => exact absurd hsplit (List.splitOnP_ne_nil p cs)
      | cons first rest =>
        rw [hsplit] at h ih
        rcases List.mem_cons.mp h with rfl | h
        · intro x hx
          rcases List.mem_cons.mp hx with rfl | hx
          · simpa using hc
          · exact ih List.mem_cons_self x hx
        · exact ih (List.mem_cons_of_mem first h)

theorem split_intercalate {p : Char → Bool} {separator : Char} (hp : p separator = true)
    {segments : List (List Char)} (hne : segments ≠ [])
    (hfree : ∀ s ∈ segments, ∀ c ∈ s, p c = false) :
    ([separator].intercalate segments).splitOnP p = segments := by
  induction segments with
  | nil => exact absurd rfl hne
  | cons s segments ih =>
    have hs := hfree s List.mem_cons_self
    cases segments with
    | nil => rw [List.intercalate_singleton, List.splitOnP_eq_singleton hs]
    | cons t segments =>
      have hrest := ih (by simp) fun u hu => hfree u (List.mem_cons_of_mem s hu)
      rw [List.intercalate_cons_cons, List.append_assoc, List.singleton_append,
        List.splitOnP_append_cons_of_forall_mem hs separator hp, hrest]

theorem mem_intercalate {separator c : Char} {segments : List (List Char)}
    (h : c ∈ [separator].intercalate segments) : c = separator ∨ ∃ s ∈ segments, c ∈ s := by
  induction segments with
  | nil => simp at h
  | cons s segments ih =>
    cases segments with
    | nil =>
      rw [List.intercalate_singleton] at h
      exact .inr ⟨s, List.mem_cons_self, h⟩
    | cons t segments =>
      rw [List.intercalate_cons_cons, List.mem_append, List.mem_append, List.mem_singleton] at h
      rcases h with (h | h) | h
      · exact .inr ⟨s, List.mem_cons_self, h⟩
      · exact .inl h
      · rcases ih h with h | ⟨u, hu, hc⟩
        · exact .inl h
        · exact .inr ⟨u, List.mem_cons_of_mem s hu, hc⟩

/-! ### Normal forms -/

def Chars.up : List Char := ['.', '.']

/-- Whether a segment names something: it is not empty, it is none of the two dot segments, and it
holds no separator. -/
def Chars.isName (segment : List Char) : Bool :=
  !segment.isEmpty && segment != ['.'] && segment != up && segment.all fun c => !isSeparator c

/-- The form of a path that is left as it is. Steps up are in front, and under a root there are
none. -/
structure Spelling where
  rooted : Bool
  ups : Nat := 0
  names : List (List Char) := []
  ups_of_rooted : rooted = true → ups = 0 := by simp
  isName : ∀ segment ∈ names, Chars.isName segment = true

namespace Spelling

def segments (p : Spelling) : List (List Char) := List.replicate p.ups Chars.up ++ p.names

def chars (p : Spelling) : List Char :=
  let joined := ['/'].intercalate p.segments
  if p.rooted then '/' :: joined else joined

def text (p : Spelling) : String := String.ofList p.chars

end Spelling

namespace Chars

theorem isName_iff {segment : List Char} :
    isName segment = true ↔
      segment ≠ [] ∧ segment ≠ ['.'] ∧ segment ≠ up ∧ ∀ c ∈ segment, isSeparator c = false := by
  simp [isName, and_assoc]

/-! ### One segment -/

theorem keep_of_void (rooted : Bool) (kept : List (List Char)) {segment : List Char}
    (h : segment = [] ∨ segment = ['.']) : keep rooted kept segment = kept := if_pos h

theorem keep_of_isName (rooted : Bool) (kept : List (List Char)) {segment : List Char}
    (h : isName segment = true) : keep rooted kept segment = segment :: kept := by
  obtain ⟨hnil, hdot, hup, -⟩ := isName_iff.mp h
  simp [keep, hnil, hdot, show segment ≠ ['.', '.'] from hup]

theorem keep_up_of_isName (rooted : Bool) (kept : List (List Char)) {last : List Char}
    (h : isName last = true) : keep rooted (last :: kept) up = kept := by
  have hup : last ≠ ['.', '.'] := (isName_iff.mp h).2.2.1
  simp [keep, up, hup]

theorem keep_up_of_ups (n : Nat) :
    keep false (List.replicate n up) up = List.replicate (n + 1) up := by
  cases n <;> simp [keep, up, List.replicate_succ]

end Chars

namespace Spelling

open Chars

theorem separator_free (p : Spelling) : ∀ s ∈ p.segments, ∀ c ∈ s, isSeparator c = false := by
  intro s hs
  rcases List.mem_append.mp hs with hs | hs
  · rw [List.eq_of_mem_replicate hs]
    simp [up, isSeparator]
  · exact (isName_iff.mp (p.isName s hs)).2.2.2

theorem ne_nil_of_mem (p : Spelling) : ∀ s ∈ p.segments, s ≠ [] := by
  intro s hs
  rcases List.mem_append.mp hs with hs | hs
  · rw [List.eq_of_mem_replicate hs]
    decide
  · exact (isName_iff.mp (p.isName s hs)).1

/-- Reading one more segment of a path keeps the form. -/
theorem exists_keep (p : Spelling) {s : List Char} (hs : ∀ c ∈ s, isSeparator c = false) :
    ∃ q : Spelling, q.rooted = p.rooted ∧
      keep p.rooted p.segments.reverse s = q.segments.reverse := by
  by_cases hvoid : s = [] ∨ s = ['.']
  · exact ⟨p, rfl, keep_of_void _ _ hvoid⟩
  rw [not_or] at hvoid
  by_cases hup : s = up
  · subst hup
    rcases List.eq_nil_or_concat p.names with hnames | ⟨before, last, hnames⟩
    · -- There is no name to take back, so the step up stays, unless there is a root.
      have hsegments : p.segments.reverse = List.replicate p.ups up := by
        simp [segments, hnames]
      cases hrooted : p.rooted with
      | true =>
        refine ⟨p, hrooted, ?_⟩
        rw [hsegments, p.ups_of_rooted hrooted]
        rfl
      | false =>
        refine ⟨⟨false, p.ups + 1, [], by simp, by simp⟩, rfl, ?_⟩
        rw [hsegments, keep_up_of_ups]
        simp [segments]
    · have hlast := p.isName last (by simp [hnames])
      refine ⟨⟨p.rooted, p.ups, before, p.ups_of_rooted, ?_⟩, rfl, ?_⟩
      · intro t ht
        exact p.isName t (by simp [hnames, ht])
      · simp only [segments, hnames, List.concat_eq_append, List.reverse_append,
          List.reverse_singleton, List.cons_append]
        exact keep_up_of_isName _ _ hlast
  · have hname : Chars.isName s = true := isName_iff.mpr ⟨hvoid.1, hvoid.2, hup, hs⟩
    refine ⟨⟨p.rooted, p.ups, p.names ++ [s], p.ups_of_rooted, ?_⟩, rfl, ?_⟩
    · intro t ht
      rcases List.mem_append.mp ht with ht | ht
      · exact p.isName t ht
      · rw [List.mem_singleton.mp ht]
        exact hname
    · rw [keep_of_isName _ _ hname]
      simp [segments]

theorem exists_foldl_keep (p : Spelling) (ss : List (List Char))
    (hss : ∀ s ∈ ss, ∀ c ∈ s, isSeparator c = false) :
    ∃ q : Spelling, q.rooted = p.rooted ∧
      ss.foldl (keep p.rooted) p.segments.reverse = q.segments.reverse := by
  induction ss generalizing p with
  | nil => exact ⟨p, rfl, rfl⟩
  | cons s ss ih =>
    obtain ⟨q, hrooted, hkeep⟩ := p.exists_keep (hss s List.mem_cons_self)
    obtain ⟨r, hr, hfoldl⟩ := ih q fun t ht => hss t (List.mem_cons_of_mem s ht)
    rw [hrooted] at hr hfoldl
    exact ⟨r, hr, by rw [List.foldl_cons, hkeep, hfoldl]⟩

theorem foldl_keep_segments (p : Spelling) :
    p.segments.foldl (keep p.rooted) [] = p.segments.reverse := by
  have hups : (List.replicate p.ups up).foldl (keep p.rooted) [] = List.replicate p.ups up := by
    cases hrooted : p.rooted with
    | true => simp [p.ups_of_rooted hrooted]
    | false =>
      induction p.ups with
      | zero => rfl
      | succ n ih => rw [List.replicate_succ', List.foldl_append, ih, List.foldl_cons,
          List.foldl_nil, keep_up_of_ups, List.replicate_succ']
  have hnames : ∀ (names kept : List (List Char)), (∀ s ∈ names, Chars.isName s = true) →
      names.foldl (keep p.rooted) kept = names.reverse ++ kept := by
    intro names
    induction names with
    | nil => simp
    | cons s names ih =>
      intro kept h
      rw [List.foldl_cons, keep_of_isName _ _ (h s List.mem_cons_self),
        ih _ fun t ht => h t (List.mem_cons_of_mem s ht)]
      simp
  rw [segments, List.foldl_append, hups, hnames _ _ p.isName]
  simp

/-! ### Reading a normal form -/

theorem isRooted_chars (p : Spelling) : Chars.isRooted p.chars = p.rooted := by
  cases hrooted : p.rooted with
  | true => simp [Chars.isRooted, chars, hrooted]
  | false =>
    rw [Chars.isRooted, chars, hrooted, if_neg (by simp)]
    cases hsegments : p.segments with
    | nil => rfl
    | cons s rest =>
      have hmem : s ∈ p.segments := by simp [hsegments]
      obtain ⟨c, cs, rfl⟩ := List.exists_cons_of_ne_nil (p.ne_nil_of_mem s hmem)
      have hc := p.separator_free _ hmem c List.mem_cons_self
      rw [List.intercalate_cons_cons_left]
      simp only [isSeparator, Bool.or_eq_false_iff] at hc
      simpa using hc.1

theorem segments_chars (p : Spelling) : Chars.segments p.rooted p.chars = p.segments := by
  have hjoined : ((['/'].intercalate p.segments).splitOnP isSeparator).foldl (keep p.rooted) [] =
      p.segments.reverse := by
    by_cases hnil : p.segments = []
    · simp [hnil, keep]
    · rw [split_intercalate rfl hnil p.separator_free, foldl_keep_segments]
  rw [Chars.segments, chars]
  split
  · rw [List.splitOnP_cons_eq_if_modifyHead, if_pos (by rfl), List.foldl_cons,
      keep_of_void _ _ (.inl rfl), hjoined, List.reverse_reverse]
  · rw [hjoined, List.reverse_reverse]

theorem collapse_chars (p : Spelling) : Chars.collapse p.chars = p.chars := by
  simp only [Chars.collapse, isRooted_chars, segments_chars]
  rfl

end Spelling

namespace Chars

theorem exists_spelling (cs : List Char) :
    ∃ p : Spelling, p.rooted = isRooted cs ∧ segments (isRooted cs) cs = p.segments ∧
      collapse cs = p.chars := by
  obtain ⟨p, hrooted, hfoldl⟩ :=
    Spelling.exists_foldl_keep ⟨isRooted cs, 0, [], fun _ => rfl, by simp⟩
      (cs.splitOnP isSeparator) fun s hs => separator_free_of_mem_split hs
  have hsegments : segments (isRooted cs) cs = p.segments := by
    rw [segments, ← List.reverse_reverse p.segments, ← hfoldl]
    rfl
  refine ⟨p, hrooted, hsegments, ?_⟩
  simp only [collapse, hsegments, Spelling.chars, hrooted]

/-! ### Paths put together -/

theorem isRooted_append {a : List Char} (ha : a ≠ []) (b : List Char) :
    isRooted (a ++ b) = isRooted a := by
  cases a with
  | nil => exact absurd rfl ha
  | cons => rfl

theorem segments_append (rooted : Bool) (a b : List Char) :
    segments rooted (a ++ '/' :: b) =
      ((b.splitOnP isSeparator).foldl (keep rooted) (segments rooted a).reverse).reverse := by
  rw [segments, List.splitOnP_append_cons a b (by rfl), List.foldl_append, segments,
    List.reverse_reverse]

theorem collapse_append {a : List Char} (h : isRooted a = true ∨ collapse a ≠ []) (b : List Char) :
    collapse (a ++ '/' :: b) = collapse (collapse a ++ '/' :: b) := by
  obtain ⟨p, hrooted, hsegments, hcollapse⟩ := exists_spelling a
  have ha : a ≠ [] := by
    rintro rfl
    simp [isRooted, collapse, segments, keep] at h
  have hp : p.chars ≠ [] := by
    rcases h with h | h
    · simp [Spelling.chars, hrooted, h]
    · rwa [← hcollapse]
  rw [hcollapse, collapse, collapse, isRooted_append ha, isRooted_append hp, p.isRooted_chars,
    segments_append, segments_append, p.segments_chars, hrooted, hsegments]

/-! ### Where a module name leads -/

theorem isRooted_folder {cs : List Char} (h : isRooted cs = true) :
    isRooted (folder cs) = true := by
  cases cs with
  | nil => simp [isRooted] at h
  | cons c cs =>
    obtain rfl : c = '/' := by simpa [isRooted] using h
    rw [folder, List.reverse_cons, List.dropWhile_append]
    cases cs.reverse.dropWhile fun c => !isSeparator c with
    | nil => rfl
    | cons x before => cases before <;> simp [isRooted]

theorem takeWhile_eq_iff {cs part : List Char} (hpart : '/' ∉ part) :
    cs.takeWhile (· != '/') = part ↔ cs = part ∨ part ++ ['/'] <+: cs := by
  constructor
  · rintro rfl
    have hcut := List.takeWhile_append_dropWhile (p := (· != '/')) (l := cs)
    cases hrest : cs.dropWhile (· != '/') with
    | nil => exact .inl (by simpa [hrest] using hcut.symm)
    | cons c rest =>
      have hc := List.head?_dropWhile_not (· != '/') cs
      obtain rfl : c = '/' := by simpa [hrest] using hc
      exact .inr ⟨rest, by simpa [hrest] using hcut⟩
  · have hkeep : ∀ c ∈ part, (c != '/') = true := by
      intro c hc
      rw [bne_iff_ne]
      rintro rfl
      exact hpart hc
    rintro (rfl | ⟨rest, rfl⟩)
    · exact List.takeWhile_eq_self_iff.mpr hkeep
    · rw [List.append_assoc, List.takeWhile_append_of_pos hkeep]
      simp

theorem isRelative_iff {cs : List Char} :
    isRelative cs = true ↔
      cs.takeWhile (· != '/') = ['.'] ∨ cs.takeWhile (· != '/') = up := by
  rw [takeWhile_eq_iff (by decide), takeWhile_eq_iff (by decide)]
  simp only [isRelative, up, Bool.or_eq_true, beq_iff_eq, List.isPrefixOf_iff_prefix,
    List.cons_append, List.nil_append]
  tauto

end Chars

/-! ### Paths as texts -/

theorem Spelling.isRooted_text (p : Spelling) : isRooted p.text = p.rooted := by
  rw [isRooted, text, String.toList_ofList, p.isRooted_chars]

theorem Spelling.collapse_text (p : Spelling) : collapse p.text = p.text := by
  rw [collapse, text, String.toList_ofList, p.collapse_chars]

theorem Spelling.backslash_notMem_text (p : Spelling) : '\\' ∉ p.text.toList := by
  intro h
  have hjoined : '\\' ∈ ['/'].intercalate p.segments := by
    rw [text, String.toList_ofList, chars] at h
    split at h
    · exact List.mem_of_ne_of_mem (by decide) h
    · exact h
  rcases mem_intercalate hjoined with hslash | ⟨s, hs, hc⟩
  · exact absurd hslash (by decide)
  · exact absurd (p.separator_free s hs _ hc) (by decide)

theorem exists_spelling (name : String) :
    ∃ p : Spelling, p.rooted = isRooted name ∧ collapse name = p.text := by
  obtain ⟨p, hrooted, -, hcollapse⟩ := Chars.exists_spelling name.toList
  exact ⟨p, hrooted, by rw [collapse, hcollapse, Spelling.text]⟩

theorem isRooted_collapse (name : String) : isRooted (collapse name) = isRooted name := by
  obtain ⟨p, hrooted, hp⟩ := exists_spelling name
  rw [hp, p.isRooted_text, hrooted]

theorem collapse_eq_self_iff {name : String} :
    collapse name = name ↔ ∃ p : Spelling, name = p.text := by
  constructor
  · intro h
    obtain ⟨p, -, hp⟩ := exists_spelling name
    exact ⟨p, h.symm.trans hp⟩
  · rintro ⟨p, rfl⟩
    exact p.collapse_text

theorem collapse_append {a : String} (h : isRooted a = true ∨ collapse a ≠ "") (b : String) :
    collapse (a ++ "/" ++ b) = collapse (collapse a ++ "/" ++ b) := by
  have hchars : Chars.isRooted a.toList = true ∨ Chars.collapse a.toList ≠ [] := by
    refine h.imp id fun hne hnil => hne ?_
    rw [collapse, hnil, String.ofList_nil]
  simpa [collapse] using congrArg String.ofList (Chars.collapse_append hchars b.toList)

/-- A module name that does not say where the module is: it has no root, and what stands before its
first slash is none of the dot segments. -/
def IsBareModule (name : String) : Prop :=
  isRooted name = false ∧ name.toList.takeWhile (· != '/') ≠ ['.'] ∧
    name.toList.takeWhile (· != '/') ≠ ['.', '.']

theorem locate?_eq_none_iff {importer name : String} :
    locate? importer name = none ↔ IsBareModule name := by
  have hrelative : isRelative name = false ↔ name.toList.takeWhile (· != '/') ≠ ['.'] ∧
      name.toList.takeWhile (· != '/') ≠ ['.', '.'] := by
    rw [← Bool.not_eq_true, isRelative, Chars.isRelative_iff, not_or, Chars.up]
  rw [IsBareModule, ← hrelative, locate?]
  cases isRooted name <;> cases isRelative name <;> simp

theorem isRooted_folder {importer : String} (h : isRooted importer = true) :
    isRooted (folder importer) = true := by
  rw [isRooted, folder, String.toList_ofList]
  exact Chars.isRooted_folder h

theorem isRooted_append {a : String} (h : isRooted a = true) (b : String) :
    isRooted (a ++ b) = true := by
  have ha : a.toList ≠ [] := by
    intro hnil
    simp [isRooted, hnil, Chars.isRooted] at h
  rwa [isRooted, String.toList_append, Chars.isRooted_append ha]

theorem locate?_of_isRooted (importer : String) {name : String} (h : isRooted name = true) :
    locate? importer name = some (collapse name) := if_pos h

theorem locate?_of_isRelative {importer name : String} (himporter : isRooted importer = true)
    (hname : isRooted name = false) (hrelative : isRelative name = true) :
    locate? importer name = some (collapse (collapse (folder importer) ++ "/" ++ name)) := by
  have hfolder := isRooted_folder himporter
  have hne : (folder importer == "") = false := by
    rw [beq_eq_false_iff_ne]
    intro hnil
    rw [hnil] at hfolder
    exact absurd hfolder (by decide)
  rw [← collapse_append (.inl hfolder)]
  simp [locate?, hname, hrelative, hne]

theorem exists_locate? {importer name : String} (himporter : isRooted importer = true)
    (hname : isRooted name = true ∨ isRelative name = true) :
    ∃ p : Spelling, p.rooted = true ∧ locate? importer name = some p.text := by
  cases hrooted : isRooted name with
  | true =>
    obtain ⟨p, hp, htext⟩ := exists_spelling name
    exact ⟨p, hp.trans hrooted, by rw [locate?_of_isRooted importer hrooted, htext]⟩
  | false =>
    have hrelative : isRelative name = true := by simpa [hrooted] using hname
    have hdir : isRooted (collapse (folder importer)) = true := by
      rw [isRooted_collapse, isRooted_folder himporter]
    obtain ⟨p, hp, htext⟩ := exists_spelling (collapse (folder importer) ++ "/" ++ name)
    refine ⟨p, hp.trans (isRooted_append (isRooted_append hdir "/") name), ?_⟩
    rw [locate?_of_isRelative himporter hrooted hrelative, htext]

theorem locate?_congr_collapse {importer importer' : String} (h : isRooted importer = true)
    (h' : isRooted importer' = true)
    (hfolder : collapse (folder importer) = collapse (folder importer')) (name : String) :
    locate? importer name = locate? importer' name := by
  cases hrooted : isRooted name with
  | true => rw [locate?_of_isRooted importer hrooted, locate?_of_isRooted importer' hrooted]
  | false =>
    cases hrelative : isRelative name with
    | true =>
      rw [locate?_of_isRelative h hrooted hrelative, locate?_of_isRelative h' hrooted hrelative,
        hfolder]
    | false => simp [locate?, hrooted, hrelative]

/-- Every path collapses to one in normal form, with a root exactly if it has one, and the paths in
normal form are those that stay as they are. A path in front of another one may be collapsed first,
unless it has no root and leads nowhere. So a module name that is not bare leads from a file under
the root to a path in normal form under the root, which depends on the file only through its
directory, however that is spelled. -/
theorem collapse_canonical :
    (∀ name, ∃ p : Spelling, p.rooted = isRooted name ∧ collapse name = p.text) ∧
    (∀ name, isRooted (collapse name) = isRooted name) ∧
    (∀ name, '\\' ∉ (collapse name).toList) ∧
    (∀ name, collapse name = name ↔ ∃ p : Spelling, name = p.text) ∧
    (∀ name, collapse (collapse name) = collapse name) ∧
    (∀ a b, isRooted a = true ∨ collapse a ≠ "" →
      collapse (a ++ "/" ++ b) = collapse (collapse a ++ "/" ++ b)) ∧
    (∀ importer name, isRooted importer = true → isRooted name = true ∨ isRelative name = true →
      ∃ p : Spelling, p.rooted = true ∧ locate? importer name = some p.text) ∧
    (∀ importer importer' name, folder importer = folder importer' →
      locate? importer name = locate? importer' name) ∧
    (∀ importer importer' name, isRooted importer = true → isRooted importer' = true →
      collapse (folder importer) = collapse (folder importer') →
      locate? importer name = locate? importer' name) ∧
    (∀ importer name, locate? importer name = none ↔ IsBareModule name) := by
  refine ⟨exists_spelling, isRooted_collapse, ?_, fun _ => collapse_eq_self_iff, ?_,
    fun a b h => collapse_append h b, fun _ _ => exists_locate?,
    fun _ _ name h => locate?_congr h name,
    fun _ _ name h h' hfolder => locate?_congr_collapse h h' hfolder name,
    fun _ _ => locate?_eq_none_iff⟩
  · intro name
    obtain ⟨p, -, hp⟩ := exists_spelling name
    rw [hp]
    exact p.backslash_notMem_text
  · intro name
    obtain ⟨p, -, hp⟩ := exists_spelling name
    rw [hp, p.collapse_text]

/-- Both separators, a step up that takes a name back and one that the root absorbs. -/
theorem collapse_canonical_mixed :
    collapse "/..\\a/./b//c/../d" = "/a/b/d" ∧
      collapse ("/..\\a/./b//c/../d" ++ "/" ++ "../e") = collapse ("/a/b/d" ++ "/" ++ "../e") ∧
      (∃ p : Spelling, p.rooted = true ∧ locate? "/p//v1.2\\main.ts" "../lib/b.v" = some p.text) ∧
      locate? "/p//v1.2\\main.ts" "../lib/b.v" = locate? "/p/q/../v1.2/main.ts" "../lib/b.v" ∧
      locate? "/p//v1.2\\main.ts" ".hidden/b" = none := by
  have hcollapse : collapse "/..\\a/./b//c/../d" = "/a/b/d" := by decide +kernel
  obtain ⟨-, -, -, -, -, happend, hlocate, -, hspelled, hnone⟩ := collapse_canonical
  refine ⟨hcollapse, ?_, ?_, ?_, ?_⟩
  · rw [happend _ _ (.inl (by decide +kernel)), hcollapse]
  · exact hlocate _ _ (by decide +kernel) (.inr (by decide +kernel))
  · exact hspelled _ _ _ (by decide +kernel) (by decide +kernel) (by decide +kernel)
  · rw [hnone]
    exact ⟨by decide +kernel, by decide +kernel, by decide +kernel⟩

end SourceOverlay.Name
