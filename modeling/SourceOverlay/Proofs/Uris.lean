import SourceOverlay.Project
import SourceOverlay.Proofs.Bytes
import SourceOverlay.Proofs.Spellings
import SourceOverlay.Text.Raw

/-!
# Paths written as URIs

A path under the root is written segment by segment, and every byte that reading would take for
something else is escaped: blanks, control characters, the marks of query and fragment, separators
inside a segment, the percent sign itself and all bytes beyond ASCII. Reading drops nothing of what
is written so and ends the path nowhere. It takes an escaped segment for a dot segment only if the
segment is one, since a dot is never escaped. What is left are the escapes, which give back the
bytes, and the bytes, which give back the text.
-/

set_option autoImplicit false

namespace SourceOverlay

namespace Uri

open Text (charByte)

/-! ### One byte -/

theorem forall_byte {P : UInt8 → Prop} (h : ∀ n : Fin 256, P (UInt8.ofFin n)) (b : UInt8) :
    P b := by
  simpa using h b.toFin

def isSafe (c : Char) : Bool :=
  !isControlOrBlank c && c.toNat < 128 && !isSlash c && !endsPath c

theorem isSafe_iff {c : Char} :
    isSafe c = true ↔
      isControlOrBlank c = false ∧ c.toNat < 128 ∧ isSlash c = false ∧ endsPath c = false := by
  simp [isSafe, and_assoc]

theorem all_isSafe_escapeByte (b : UInt8) : (escapeByte b).all isSafe = true := by
  revert b
  exact forall_byte (by decide +kernel)

theorem escapeByte_ne_nil (b : UInt8) : escapeByte b ≠ [] := by
  rw [escapeByte]
  split <;> simp

theorem escapeValue?_escapeByte (b : UInt8) (h : isPlain b = false) :
    (escapeByte b).map charByte = [percent, charByte (Text.upperHex (b.toNat / 16)),
      charByte (Text.upperHex (b.toNat % 16))] ∧
    escapeValue? percent (charByte (Text.upperHex (b.toNat / 16)))
      (charByte (Text.upperHex (b.toNat % 16))) = some b := by
  revert b
  exact forall_byte (by decide +kernel)

theorem charByte_escapeByte (b : UInt8) (h : isPlain b = true) :
    (escapeByte b).map charByte = [b] ∧ b ≠ percent := by
  revert b
  exact forall_byte (by decide +kernel)

theorem ne_of_isPlain (b : UInt8) (h : isPlain b = true) (hdot : b ≠ 0x2E) :
    Char.ofNat b.toNat ≠ '.' ∧ Char.ofNat b.toNat ≠ '%' := by
  revert b
  exact forall_byte (by decide +kernel)

/-- No escape stands for a dot, since a dot stands for itself. -/
theorem lower_upperHex_ne (b : UInt8) (h : isPlain b = false)
    (hhigh : Text.upperHex (b.toNat / 16) = '2') : lower (Text.upperHex (b.toNat % 16)) ≠ 'e' := by
  revert b
  exact forall_byte (by decide +kernel)

/-- What is written for a byte that is no dot is not taken for one. -/
theorem plainDots_escapeByte {b : UInt8} (h : b ≠ 0x2E) (rest : List Char) :
    plainDots (escapeByte b ++ rest) = escapeByte b ++ rest ∧
      (escapeByte b ++ rest).head? ≠ some '.' := by
  cases hplain : isPlain b with
  | true =>
    obtain ⟨hdot, hpercent⟩ := ne_of_isPlain b hplain h
    have hwritten : escapeByte b = [Char.ofNat b.toNat] := if_pos hplain
    rw [hwritten, List.singleton_append]
    refine ⟨?_, by simpa using hdot⟩
    unfold plainDots
    split
    · next heq => exact absurd (List.cons.inj heq).1 hpercent
    · next heq => exact absurd (List.cons.inj heq).1 hdot
    · rfl
  | false =>
    have hwritten : escapeByte b =
        ['%', Text.upperHex (b.toNat / 16), Text.upperHex (b.toNat % 16)] := by
      simp [escapeByte, hplain]
    rw [hwritten]
    refine ⟨?_, by simp⟩
    unfold plainDots
    split
    · next heq =>
      simp only [List.cons_append, List.nil_append, List.cons.injEq] at heq
      obtain ⟨-, hhigh, rfl, -⟩ := heq
      rw [if_neg (by simpa using lower_upperHex_ne b hplain hhigh)]
    · next heq => simp at heq
    · rfl

/-! ### One segment -/

def escaped (segment : List Char) : List Char :=
  (segment.flatMap String.utf8EncodeChar).flatMap escapeByte

theorem toList_escape (segment : List Char) :
    (escape (String.ofList segment)).toList = escaped segment := by
  rw [escape, String.toList_ofList, Text.encode_eq, String.toList_ofList, escaped]

theorem isSafe_escaped (segment : List Char) : ∀ c ∈ escaped segment, isSafe c = true := by
  intro c hc
  obtain ⟨b, -, hc⟩ := List.mem_flatMap.mp hc
  exact List.all_eq_true.mp (all_isSafe_escapeByte b) c hc

theorem escaped_ne_nil {segment : List Char} (h : segment ≠ []) : escaped segment ≠ [] := by
  cases segment with
  | nil => exact absurd rfl h
  | cons c segment =>
    obtain ⟨b, bs, hb⟩ := List.exists_cons_of_ne_nil (String.utf8EncodeChar_ne_nil (c := c))
    simp [escaped, hb, escapeByte_ne_nil]

theorem eq_dots_of_plainDots_escaped {n : Nat} {segment : List Char}
    (h : plainDots (escaped segment) = List.replicate n '.') : segment = List.replicate n '.' := by
  induction segment generalizing n with
  | nil =>
    cases n with
    | zero => rfl
    | succ n => simp [escaped, plainDots] at h
  | cons c segment ih =>
    by_cases hc : c = '.'
    · subst hc
      have hcons : escaped ('.' :: segment) = '.' :: escaped segment := rfl
      cases n with
      | zero =>
        rw [hcons, plainDots] at h
        simp at h
      | succ n =>
        rw [hcons, plainDots, List.replicate_succ, List.cons.injEq] at h
        rw [ih h.2, List.replicate_succ]
    · -- The first byte of any other character is no dot, and there the dots end.
      obtain ⟨b, bs, hb⟩ := List.exists_cons_of_ne_nil (String.utf8EncodeChar_ne_nil (c := c))
      have hdot : b ≠ 0x2E := by
        rintro rfl
        have hmem : (0x2E : UInt8) ∈ String.utf8EncodeChar c := by simp [hb]
        exact hc (Char.toNat_inj.mp (Text.toNat_of_mem_utf8EncodeChar (by decide) hmem))
      have hcons : escaped (c :: segment) =
          escapeByte b ++ (bs.flatMap escapeByte ++ escaped segment) := by
        simp [escaped, hb]
      obtain ⟨hsame, hhead⟩ := plainDots_escapeByte hdot (bs.flatMap escapeByte ++ escaped segment)
      rw [hcons, hsame] at h
      rw [h] at hhead
      cases n with
      | zero => simp [escapeByte_ne_nil] at h
      | succ n => simp [List.replicate_succ] at hhead

/-! ### Reading segments -/

structure Ordinary (segment : List Char) : Prop where
  unbroken : withoutBreaks segment = segment
  single : isSingleDot segment = false
  double : isDoubleDot segment = false

theorem ordinary_escaped {segment : List Char} (hdot : segment ≠ ['.'])
    (hup : segment ≠ Name.Chars.up) : Ordinary (escaped segment) where
  unbroken := by
    rw [withoutBreaks, List.filter_eq_self]
    intro c hc
    have hsolid := (isSafe_iff.mp (isSafe_escaped segment c hc)).1
    rw [Bool.not_eq_true', isLineBreakOrTab]
    simp only [Bool.or_eq_false_iff, beq_eq_false_iff_ne]
    refine ⟨⟨?_, ?_⟩, ?_⟩
    all_goals
      rintro rfl
      exact absurd hsolid (by decide)
  single := by
    rw [isSingleDot, beq_eq_false_iff_ne]
    exact fun h => hdot (eq_dots_of_plainDots_escaped (n := 1) h)
  double := by
    rw [isDoubleDot, beq_eq_false_iff_ne]
    exact fun h => hup (eq_dots_of_plainDots_escaped (n := 2) h)

namespace Walk

theorem step_of_ordinary {w : Walk} {segment : List Char} (hw : w.kept ≠ [])
    (h : Ordinary segment) (isLast : Bool) :
    w.step isLast segment = { w with kept := segment :: w.kept } := by
  obtain ⟨kept, hosted⟩ := w
  cases kept with
  | nil => exact absurd rfl hw
  | cons k ks => simp [step, seat, h.unbroken, h.single, h.double]

theorem steps_of_ordinary {w : Walk} (hw : w.kept ≠ []) {segments : List (List Char)}
    (h : ∀ s ∈ segments, Ordinary s) :
    w.steps segments = { w with kept := segments.reverse ++ w.kept } := by
  induction segments generalizing w with
  | nil => simp [steps]
  | cons s segments ih =>
    have hs := h s List.mem_cons_self
    cases segments with
    | nil => simp [steps, step_of_ordinary hw hs]
    | cons t segments =>
      rw [steps, step_of_ordinary hw hs, ih (by simp) fun u hu => h u (List.mem_cons_of_mem s hu)]
      · simp
      · simp

end Walk

/-! ### Reading a path -/

def joined (names : List (List Char)) : List Char := ['/'].intercalate (names.map escaped)

theorem cases_of_mem_joined {names : List (List Char)} {c : Char} (h : c ∈ joined names) :
    c = '/' ∨ isSafe c = true := by
  rcases Name.mem_intercalate h with h | ⟨s, hs, hc⟩
  · exact .inl h
  · obtain ⟨name, -, rfl⟩ := List.mem_map.mp hs
    exact .inr (isSafe_escaped name c hc)

theorem endsPath_of_mem_joined {names : List (List Char)} {c : Char} (h : c ∈ joined names) :
    endsPath c = false := by
  rcases cases_of_mem_joined h with rfl | h
  · decide
  · exact (isSafe_iff.mp h).2.2.2

section Path

variable {names : List (List Char)} (h : ∀ s ∈ names, Name.Chars.isName s = true)

include h

theorem split_joined :
    (∀ s ∈ (joined names).splitOnP isSlash, Ordinary s) ∧
      ['/'].intercalate ((joined names).splitOnP isSlash) = joined names := by
  by_cases hnil : names = []
  · subst hnil
    refine ⟨?_, rfl⟩
    intro s hs
    obtain rfl : s = escaped [] := List.mem_singleton.mp hs
    exact ordinary_escaped (by simp) (by simp [Name.Chars.up])
  · have hfree : ∀ s ∈ names.map escaped, ∀ c ∈ s, isSlash c = false := by
      intro s hs c hc
      obtain ⟨name, -, rfl⟩ := List.mem_map.mp hs
      exact (isSafe_iff.mp (isSafe_escaped name c hc)).2.2.1
    have hsplit : (joined names).splitOnP isSlash = names.map escaped :=
      Name.split_intercalate (by rfl) (by simpa using hnil) hfree
    refine ⟨?_, by rw [hsplit, joined]⟩
    intro s hs
    rw [hsplit] at hs
    obtain ⟨name, hname, rfl⟩ := List.mem_map.mp hs
    obtain ⟨-, hdot, hup, -⟩ := Name.Chars.isName_iff.mp (h name hname)
    exact ordinary_escaped hdot hup

theorem head?_joined : (joined names).head? ≠ some '/' := by
  cases names with
  | nil => simp [joined]
  | cons name names =>
    have hne := (Name.Chars.isName_iff.mp (h name List.mem_cons_self)).1
    obtain ⟨c, cs, hcs⟩ := List.exists_cons_of_ne_nil (escaped_ne_nil hne)
    have hsafe : isSafe c = true := isSafe_escaped name c (by simp [hcs])
    rw [joined, List.map_cons, hcs, List.intercalate_cons_cons_left, List.head?_cons]
    rintro hc
    obtain rfl := Option.some.inj hc
    exact absurd hsafe (by decide)

theorem readPath?_joined : readPath? false ('/' :: joined names) = some ('/' :: joined names) := by
  obtain ⟨hordinary, hjoin⟩ := split_joined h
  have hne := List.splitOnP_ne_nil isSlash (joined names)
  have htake : ('/' :: joined names).takeWhile (fun c => !endsPath c) = '/' :: joined names := by
    rw [List.takeWhile_eq_self_iff]
    intro c hc
    rcases List.mem_cons.mp hc with rfl | hc
    · rfl
    · rw [endsPath_of_mem_joined hc]
      rfl
  have hsplit : ('/' :: joined names).splitOnP isSlash = [] :: (joined names).splitOnP isSlash := by
    rw [List.splitOnP_cons_eq_if_modifyHead, if_pos (by rfl)]
  generalize (joined names).splitOnP isSlash = segments at hordinary hjoin hne hsplit
  -- The slash of the root is read as an empty segment, so no segment behind it is at the front.
  have hwalk : Walk.steps {} ([] :: segments) = ⟨segments.reverse ++ [[]], false⟩ := by
    rw [Walk.steps]
    · exact Walk.steps_of_ordinary (w := ⟨[[]], false⟩) (by simp) hordinary
    · exact hne
  have hpath : (⟨segments.reverse ++ [[]], false⟩ : Walk).path = '/' :: joined names := by
    have hrest : (joined names).dropWhile (· == '/') = joined names := by
      have hhead := head?_joined h
      cases hjoined : joined names with
      | nil => rfl
      | cons c cs =>
        rw [hjoined] at hhead
        exact List.dropWhile_cons_of_neg (by simpa using hhead)
    rw [Walk.path, List.reverse_append, List.reverse_reverse, List.reverse_singleton,
      List.singleton_append, List.intercalate_cons_of_ne_nil hne, hjoin]
    simp [hrest]
  simp only [readPath?, htake, hsplit, hwalk, hpath]
  rfl

/-- A URI that is written so is read as the path that was written. -/
theorem readBody?_joined :
    readBody? ('/' :: '/' :: '/' :: joined names) = some ('/' :: joined names) := by
  rw [← readPath?_joined h]
  rfl

end Path

theorem trimmed_of_solid {cs : List Char} (h : ∀ c ∈ cs, isControlOrBlank c = false) :
    trimmed (String.ofList cs) = cs := by
  have hdrop : ∀ ds : List Char, (∀ c ∈ ds, isControlOrBlank c = false) →
      ds.dropWhile isControlOrBlank = ds := by
    intro ds hds
    cases ds with
    | nil => rfl
    | cons d ds => exact List.dropWhile_cons_of_neg (by simp [hds d List.mem_cons_self])
  have hreverse : ∀ c ∈ cs.reverse, isControlOrBlank c = false :=
    fun c hc => h c (List.mem_reverse.mp hc)
  simp only [trimmed, String.toList_ofList, hdrop cs h, hdrop cs.reverse hreverse,
    List.reverse_reverse]

theorem solid_joined (names : List (List Char)) :
    ∀ c ∈ "file:///".toList ++ joined names, isControlOrBlank c = false := by
  intro c hc
  rcases List.mem_append.mp hc with hc | hc
  · have hscheme : "file:///".toList.all (fun c => !isControlOrBlank c) = true := by decide
    simpa using List.all_eq_true.mp hscheme c hc
  · rcases cases_of_mem_joined hc with rfl | hc
    · decide
    · exact (isSafe_iff.mp hc).1

theorem afterScheme?_file (rest : List Char) :
    afterScheme? ("file:///".toList ++ rest) = some ('/' :: '/' :: '/' :: rest) := by
  rfl

/-! ### Reading the escapes -/

theorem flatMap_utf8EncodeChar_of_ascii {cs : List Char} (h : ∀ c ∈ cs, c.toNat < 128) :
    cs.flatMap String.utf8EncodeChar = cs.map charByte := by
  induction cs with
  | nil => rfl
  | cons c cs ih =>
    have hc : c.val.toNat ≤ 127 := Nat.le_of_lt_succ (h c List.mem_cons_self)
    have hbyte : String.utf8EncodeChar c = [charByte c] := if_pos hc
    rw [List.flatMap_cons, hbyte, ih fun d hd => h d (List.mem_cons_of_mem c hd)]
    rfl

theorem unescape_cons_of_ne {b : UInt8} (h : b ≠ percent) (rest : Text.Bytes) :
    unescape (b :: rest) = b :: unescape rest := by
  match rest with
  | [] => rfl
  | [_] => rfl
  | c :: d :: rest =>
    have hvalue : escapeValue? b c d = none := by simp [escapeValue?, h]
    rw [unescape, hvalue]

theorem unescape_escapeByte (b : UInt8) (rest : Text.Bytes) :
    unescape ((escapeByte b).map charByte ++ rest) = b :: unescape rest := by
  cases hplain : isPlain b with
  | true =>
    obtain ⟨hwritten, hne⟩ := charByte_escapeByte b hplain
    rw [hwritten, List.singleton_append, unescape_cons_of_ne hne]
  | false =>
    obtain ⟨hwritten, hvalue⟩ := escapeValue?_escapeByte b hplain
    rw [hwritten, List.cons_append, List.cons_append, List.cons_append, List.nil_append, unescape,
      hvalue]

theorem unescape_escaped (segment : List Char) (rest : Text.Bytes) :
    unescape ((escaped segment).map charByte ++ rest) =
      segment.flatMap String.utf8EncodeChar ++ unescape rest := by
  rw [escaped]
  induction segment.flatMap String.utf8EncodeChar with
  | nil => rfl
  | cons b bs ih =>
    rw [List.flatMap_cons, List.map_append, List.append_assoc, unescape_escapeByte, ih,
      List.cons_append]

theorem unescape_joined (names : List (List Char)) :
    unescape ((joined names).map charByte) =
      (['/'].intercalate names).flatMap String.utf8EncodeChar := by
  induction names with
  | nil => rfl
  | cons name names ih =>
    cases names with
    | nil =>
      have hlast := unescape_escaped name []
      simpa [joined, unescape] using hlast
    | cons next names =>
      have hslash : String.utf8EncodeChar '/' = [0x2F] := by decide
      have hcut : (joined (name :: next :: names)).map charByte =
          (escaped name).map charByte ++ 0x2F :: (joined (next :: names)).map charByte := by
        simp [joined, List.intercalate_cons_cons, charByte]
      rw [hcut, unescape_escaped, unescape_cons_of_ne (by decide), ih, List.intercalate_cons_cons]
      simp [hslash]

theorem meantBytes_joined (names : List (List Char)) :
    meantBytes ('/' :: joined names) =
      Text.encode (String.ofList ('/' :: ['/'].intercalate names)) := by
  have hascii : ∀ c ∈ '/' :: joined names, c.toNat < 128 := by
    intro c hc
    rcases List.mem_cons.mp hc with rfl | hc
    · decide
    · rcases cases_of_mem_joined hc with rfl | hc
      · decide
      · exact (isSafe_iff.mp hc).2.1
  rw [meantBytes, Text.encode_eq, String.toList_ofList, flatMap_utf8EncodeChar_of_ascii hascii,
    List.map_cons, unescape_cons_of_ne (by decide), unescape_joined, Text.encode_eq,
    String.toList_ofList]
  rfl

/-! ### Reading what was written -/

theorem mem_of_mem_encode {text : String} {b : UInt8} (hascii : b.toNat < 128)
    (hb : b ∈ Text.encode text) : Char.ofNat b.toNat ∈ text.toList := by
  rw [Text.encode_eq] at hb
  obtain ⟨c, hc, hb⟩ := List.mem_flatMap.mp hb
  have hvalue : c.toNat = b.toNat := Text.toNat_of_mem_utf8EncodeChar hascii hb
  rwa [← hvalue, Char.ofNat_toNat]

theorem ascii_of_mark (b : UInt8) (h : Char.ofNat b.toNat = ':' ∨ Char.ofNat b.toNat = '|') :
    b.toNat < 128 := by
  revert b
  exact forall_byte (by decide +kernel)

/-- Without the mark of a drive there is no drive that a path could end in. -/
theorem closeDrive_encode {text : String} (h : ∀ c ∈ text.toList, c ≠ ':' ∧ c ≠ '|') :
    closeDrive (Text.encode text) = Text.encode text := by
  rw [closeDrive]
  split
  · next mark letter _ _ hreverse =>
    refine if_neg fun hdrive => ?_
    have hmem : mark ∈ Text.encode text := by
      rw [← List.mem_reverse, hreverse]
      exact List.mem_cons_self
    simp only [isDrive, Bool.and_eq_true, Bool.or_eq_true, beq_iff_eq] at hdrive
    obtain ⟨hcolon, hbar⟩ := h _ (mem_of_mem_encode (ascii_of_mark mark hdrive.2) hmem)
    exact hdrive.2.elim hcolon hbar
  · rfl

end Uri

theorem Name.slashed_of_notMem {name : String} (h : '\\' ∉ name.toList) : slashed name = name := by
  have hsame : ∀ c ∈ name.toList, (if c == '\\' then '/' else c) = c := by
    intro c hc
    refine if_neg fun hbackslash => h ?_
    rwa [← beq_iff_eq.mp hbackslash]
  rw [slashed, List.map_congr_left hsame, List.map_id', String.ofList_toList]

theorem Name.Spelling.text_of_rooted {p : Name.Spelling} (h : p.rooted = true) :
    p.text = String.ofList ('/' :: ['/'].intercalate p.names) := by
  simp [text, chars, segments, h, p.ups_of_rooted h]

theorem Disk.components_text {p : Name.Spelling} (h : p.rooted = true) :
    components p.text = p.names.map String.ofList := by
  have hnames : ∀ s ∈ p.names, (String.ofList s != "" && String.ofList s != ".") = true := by
    intro s hs
    obtain ⟨hnil, hdot, -⟩ := Name.Chars.isName_iff.mp (p.isName s hs)
    rw [Bool.and_eq_true, bne_iff_ne, bne_iff_ne]
    exact ⟨fun h => hnil (by simpa using congrArg String.toList h),
      fun h => hdot (by simpa using congrArg String.toList h)⟩
  rw [components, parts, p.text_of_rooted h, String.toList_ofList,
    List.splitOnP_cons_eq_if_modifyHead, if_pos (by rfl), List.map_cons,
    List.filter_cons_of_neg (by decide)]
  by_cases hnil : p.names = []
  · rw [hnil]
    decide
  · have hfree : ∀ s ∈ p.names, ∀ c ∈ s, (c == '/') = false := by
      intro s hs c hc
      have hc := (Name.Chars.isName_iff.mp (p.isName s hs)).2.2.2 c hc
      simp only [Name.isSeparator, Bool.or_eq_false_iff] at hc
      exact hc.1
    rw [Name.split_intercalate (by rfl) hnil hfree, List.filter_eq_self]
    simpa using hnames

namespace Uri

theorem ofPath?_text {p : Name.Spelling} (h : p.rooted = true) :
    ofPath? p.text = some (String.ofList ("file:///".toList ++ joined p.names)) := by
  have hrooted : Disk.isRooted p.text = true := p.isRooted_text.trans h
  have hescape : ((p.names.map String.ofList).map escape).map String.toList =
      p.names.map escaped := by
    simp [toList_escape]
  rw [ofPath?, if_pos hrooted, Disk.components_text h]
  refine congrArg some (String.toList_inj.mp ?_)
  simp only [String.toList_append, String.toList_intercalate, hescape, String.toList_ofList, joined]
  rfl

/-- A path under the root that names alone lead to, without the marks of a drive. -/
def IsPlainPath (path : String) : Prop :=
  (∃ p : Name.Spelling, p.rooted = true ∧ path = p.text) ∧ ∀ c ∈ path.toList, c ≠ ':' ∧ c ≠ '|'

theorem path?_of_joined {p : Name.Spelling} (h : p.rooted = true)
    (hmarks : ∀ c ∈ p.text.toList, c ≠ ':' ∧ c ≠ '|') :
    path? (String.ofList ("file:///".toList ++ joined p.names)) = some p.text := by
  have htext := p.text_of_rooted h
  simp only [path?, trimmed_of_solid (solid_joined p.names), afterScheme?_file,
    readBody?_joined p.isName, meantBytes_joined, ← htext, closeDrive_encode hmarks,
    Text.decodeLossy_encode, Name.slashed_of_notMem p.backslash_notMem_text, Option.bind_eq_bind,
    Option.bind_some]

/-- A path is read back from the URI that is written for it, so the editor's document is registered
under that path, and no other path has the same URI. -/
theorem ofPath?_faithful {path : String} (h : IsPlainPath path) :
    ∃ uri, ofPath? path = some uri ∧ path? uri = some path ∧
      (∀ registry project text version,
        Project.openDocument registry project uri text version =
          .ok (project.register registry path text version)) ∧
      ∀ other, IsPlainPath other → ofPath? other = some uri → other = path := by
  obtain ⟨⟨p, hrooted, rfl⟩, hmarks⟩ := h
  have hread := path?_of_joined hrooted hmarks
  refine ⟨_, ofPath?_text hrooted, hread, ?_, ?_⟩
  · intro registry project text version
    rw [Project.openDocument, hread]
  · -- Two paths with one URI are both what is read from it.
    rintro _ ⟨⟨q, hq, rfl⟩, hmarks'⟩ huri
    rw [ofPath?_text hq] at huri
    have hother := path?_of_joined hq hmarks'
    rw [Option.some.inj huri, hread] at hother
    exact (Option.some.inj hother).symm

/-- A path with a blank, text that looks like an escaped dot segment, the marks of query and
fragment, a line break, a letter beyond ASCII and a tab at the end. -/
def oddPath : Name.Spelling where
  rooted := true
  names := ["my dir", "%2e%2E", "..a#b?\n", "é\t"].map String.toList
  isName := by decide

theorem ofPath?_faithful_odd :
    ofPath? "/my dir/%2e%2E/..a#b?\n/é\t" =
        some "file:///my%20dir/%252e%252E/..a%23b%3F%0A/%C3%A9%09" ∧
      path? "file:///my%20dir/%252e%252E/..a%23b%3F%0A/%C3%A9%09" =
        some "/my dir/%2e%2E/..a#b?\n/é\t" ∧
      ∀ other, IsPlainPath other →
        ofPath? other = some "file:///my%20dir/%252e%252E/..a%23b%3F%0A/%C3%A9%09" →
        other = "/my dir/%2e%2E/..a#b?\n/é\t" := by
  have htext : "/my dir/%2e%2E/..a#b?\n/é\t" = oddPath.text := by decide +kernel
  have hmarks : oddPath.text.toList.all (fun c => c != ':' && c != '|') = true := by decide
  have hplain : IsPlainPath oddPath.text := ⟨⟨oddPath, rfl, rfl⟩, by simpa using hmarks⟩
  have hwritten : ofPath? oddPath.text =
      some "file:///my%20dir/%252e%252E/..a%23b%3F%0A/%C3%A9%09" := by
    rw [ofPath?_text rfl]
    decide +kernel
  obtain ⟨uri, huri, hread, -, hdistinct⟩ := ofPath?_faithful hplain
  obtain rfl := Option.some.inj (hwritten.symm.trans huri)
  rw [htext]
  exact ⟨hwritten, hread, hdistinct⟩

end Uri

end SourceOverlay
