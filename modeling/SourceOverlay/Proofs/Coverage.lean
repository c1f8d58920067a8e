import SourceOverlay.Provenance
import SourceOverlay.Text.Utf8

/-!
# What the identity map covers

The identity map has a run for every line that the text counts, and a newline at the end of a text
ends its last line without opening another. The place behind that newline is a place of the text all
the same, on a line of its own, and it is the one place that the map does not cover. Everywhere else
the map leads a position to itself, as if there were no map.
-/

set_option autoImplicit false

namespace SourceOverlay

namespace Text

/-! ### Newlines among the bytes of a text -/

def newline : UInt8 := 10

def lineAt (text : String) (offset : Nat) : Nat := ((encode text).take offset).count newline

theorem toList_loop (bs : ByteArray) (i : Nat) (r : Bytes) :
    ByteArray.toList.loop bs i r = r.reverse ++ bs.data.toList.drop i := by
  fun_induction ByteArray.toList.loop bs i r with
  | case1 i r h ih =>
    have hi : i < bs.data.toList.length := h
    rw [ih, List.drop_eq_getElem_cons hi]
    simp [ByteArray.get!, h]
  | case2 i r h =>
    have hi : bs.data.toList.length ≤ i := Nat.le_of_not_lt h
    rw [List.drop_eq_nil_of_le hi, List.append_nil]

theorem encode_eq (text : String) : encode text = text.toList.flatMap String.utf8EncodeChar := by
  rw [encode, String.toUTF8_eq_toByteArray, ByteArray.toList, toList_loop,
    ← String.utf8Encode_toList, List.utf8Encode, List.toList_data_toByteArray]
  rfl

theorem length_encode (text : String) : (encode text).length = text.utf8ByteSize := by
  rw [encode, String.toUTF8_eq_toByteArray, ByteArray.toList, toList_loop]
  simp

/-- A byte below 128 is a character on its own: all bytes of a character that takes more than one
have their highest bit set. -/
theorem toNat_of_mem_utf8EncodeChar {c : Char} {b : UInt8} (hb : b.toNat < 128)
    (h : b ∈ String.utf8EncodeChar c) : c.val.toNat = b.toNat := by
  have hbyte : ∀ n, b = UInt8.ofNat n → n < 256 → n = b.toNat := by
    intro n hn hlt
    have hmod : b.toNat = n % 256 := congrArg UInt8.toNat hn
    omega
  simp only [String.utf8EncodeChar] at h
  split at h
  · exact hbyte c.val.toNat (List.mem_singleton.mp h) (by omega)
  · exfalso
    split at h
    · simp only [List.mem_cons, List.not_mem_nil, or_false] at h
      rcases h with h | h
      all_goals have hn := hbyte _ h; omega
    · split at h
      · simp only [List.mem_cons, List.not_mem_nil, or_false] at h
        rcases h with h | h | h
        all_goals have hn := hbyte _ h; omega
      · simp only [List.mem_cons, List.not_mem_nil, or_false] at h
        rcases h with h | h | h | h
        all_goals have hn := hbyte _ h; omega

theorem newline_mem_utf8EncodeChar {c : Char} (h : newline ∈ String.utf8EncodeChar c) :
    c = '\n' :=
  Char.toNat_inj.mp (toNat_of_mem_utf8EncodeChar (by decide) h)

theorem utf8EncodeChar_newline : String.utf8EncodeChar '\n' = [newline] := by decide

theorem count_utf8EncodeChar (c : Char) :
    (String.utf8EncodeChar c).count newline = if c = '\n' then 1 else 0 := by
  by_cases hc : c = '\n'
  · subst hc
    decide
  · rw [if_neg hc]
    exact List.count_eq_zero.mpr fun h => hc (newline_mem_utf8EncodeChar h)

theorem count_encode (text : String) : (encode text).count newline = text.toList.count '\n' := by
  rw [encode_eq]
  induction text.toList with
  | nil => rfl
  | cons c cs ih =>
    rw [List.flatMap_cons, List.count_append, ih, count_utf8EncodeChar, List.count_cons]
    simp [Nat.add_comm]

theorem getLast?_encode (text : String) :
    (encode text).getLast? = some newline ↔ text.toList.getLast? = some '\n' := by
  rw [encode_eq]
  rcases List.eq_nil_or_concat text.toList with hnil | ⟨front, c, hcut⟩
  · simp [hnil]
  · have hsome : (String.utf8EncodeChar c).getLast?.isSome = true :=
      List.getLast?_isSome.mpr String.utf8EncodeChar_ne_nil
    rw [hcut, List.concat_eq_append, List.flatMap_append, List.flatMap_singleton,
      List.getLast?_append, Option.or_of_isSome hsome, List.getLast?_concat]
    constructor
    · intro h
      rw [newline_mem_utf8EncodeChar (List.mem_of_getLast? h)]
    · intro h
      rw [Option.some.inj h, utf8EncodeChar_newline]
      rfl

/-! ### Lines that are counted -/

/-- The number of lines that the identity map has: a newline at the end opens none. -/
theorem max_lineCount (text : String) :
    max (lineCount text) 1 =
      text.toList.count '\n' + if text.toList.getLast? = some '\n' then 0 else 1 := by
  cases hlast : text.toList.getLast? with
  | none =>
    have hnil : text.toList = [] := List.getLast?_eq_none_iff.mp hlast
    simp [lineCount, hnil]
  | some c =>
    by_cases hc : c = '\n'
    · subst hc
      have hpos : 0 < text.toList.count '\n' :=
        List.count_pos_iff.mpr (List.mem_of_getLast? hlast)
      have hlines : lineCount text = text.toList.count '\n' := by simp [lineCount, hlast]
      rw [hlines, if_pos rfl]
      omega
    · have hlines : lineCount text = text.toList.count '\n' + 1 := by simp [lineCount, hlast, hc]
      rw [hlines, if_neg fun h => hc (Option.some.inj h)]
      omega

/-- The offset is the end of a text that ends in a newline. -/
def BehindNewline (text : String) (offset : Nat) : Prop :=
  text.utf8ByteSize ≤ offset ∧ text.toList.getLast? = some '\n'

theorem lineAt_lt_iff (text : String) (offset : Nat) :
    lineAt text offset < max (lineCount text) 1 ↔ ¬ BehindNewline text offset := by
  have hsplit : lineAt text offset + ((encode text).drop offset).count newline =
      text.toList.count '\n' := by
    rw [lineAt, ← List.count_append, List.take_append_drop, count_encode]
  rw [max_lineCount]
  by_cases hlast : text.toList.getLast? = some '\n'
  · rw [if_pos hlast]
    by_cases hend : text.utf8ByteSize ≤ offset
    · have hnone : (encode text).drop offset = [] := by
        rw [List.drop_eq_nil_iff, length_encode]
        exact hend
      rw [hnone, List.count_nil] at hsplit
      exact iff_of_false (by omega) fun h => h ⟨hend, hlast⟩
    · have hrest : 0 < ((encode text).drop offset).count newline := by
        rw [List.count_pos_iff]
        apply List.mem_of_getLast?
        rw [List.getLast?_drop, length_encode, if_neg hend]
        exact (getLast?_encode text).mpr hlast
      exact iff_of_true (by omega) fun h => hend h.1
  · rw [if_neg hlast]
    exact iff_of_true (by omega) fun h => hlast h.2

end Text

namespace LineMap

open Text

theorem identity_source? (text : String) (line column : Nat) :
    (identity text).source? line column =
      if line < max (lineCount text) 1 % coordinateLimit then
        some (line, column % coordinateLimit)
      else none := by
  by_cases hline : line < max (lineCount text) 1 % coordinateLimit
  all_goals simp [identity, source?, hline]

/-- Every place of a text is covered but the end behind a last newline: exactly there the map finds
nothing where positions would stand for themselves without a map. Columns may be counted in any
unit; a column must be one of 32 bits, and the lines few enough to be numbered. -/
theorem identity_covers_iff {text : String} (hlines : max (lineCount text) 1 < coordinateLimit)
    (offset column : Nat) (hcolumn : column < coordinateLimit) :
    ((identity text).source? (lineAt text offset) column = some (lineAt text offset, column) ↔
      ¬ BehindNewline text offset) ∧
    ((identity text).source? (lineAt text offset) column = none ↔ BehindNewline text offset) ∧
    ∀ p : Provenance,
      (Provenance.source? { p with map := some (identity text) } (lineAt text offset) column =
        Provenance.source? { p with map := none } (lineAt text offset) column ↔
          ¬ BehindNewline text offset) := by
  have hcovers : (identity text).source? (lineAt text offset) column =
      some (lineAt text offset, column) ↔ ¬ BehindNewline text offset := by
    rw [identity_source?, Option.ite_none_right_eq_some, Nat.mod_eq_of_lt hlines,
      Nat.mod_eq_of_lt hcolumn, lineAt_lt_iff]
    simp
  have hmisses : (identity text).source? (lineAt text offset) column = none ↔
      BehindNewline text offset := by
    rw [identity_source?, ite_eq_right_iff, Nat.mod_eq_of_lt hlines, lineAt_lt_iff]
    simp
  exact ⟨hcovers, hmisses, fun _ => hcovers⟩

/-- An offset inside the character on the second line, and the end of the text behind it. -/
theorem identity_covers_iff_accented :
    max (lineCount "a\r\né") 1 < coordinateLimit ∧ 2 < coordinateLimit ∧
      (identity "a\r\né").source? (lineAt "a\r\né" 4) 1 = some (1, 1) ∧
      (identity "a\r\né").source? (lineAt "a\r\né" 5) 2 = some (1, 2) := by
  have hlines : max (lineCount "a\r\né") 1 < coordinateLimit := by decide +kernel
  have hline : lineAt "a\r\né" 4 = 1 ∧ lineAt "a\r\né" 5 = 1 := by decide +kernel
  have hopen : ∀ offset, ¬ BehindNewline "a\r\né" offset := by
    rintro offset ⟨-, hlast⟩
    revert hlast
    decide +kernel
  have hinside := (identity_covers_iff hlines 4 1 (by decide)).1.mpr (hopen 4)
  have hend := (identity_covers_iff hlines 5 2 (by decide)).1.mpr (hopen 5)
  rw [hline.1] at hinside ⊢
  rw [hline.2] at hend ⊢
  exact ⟨hlines, by decide, hinside, hend⟩

/-- The end of a file lies on the line behind its only newline, where the map finds nothing. -/
theorem identity_misses_end :
    lineAt "a\n" "a\n".utf8ByteSize = 1 ∧ (identity "a\n").source? 1 0 = none ∧
      Provenance.source? ⟨"/p/a.v", "/p/a.v.ts", none, 1⟩ 1 0 = some (1, 0) := by
  decide +kernel

end LineMap

end SourceOverlay
