import SourceOverlay.Snapshot

/-!
# Slices

A slice runs from one cut to another, and the cut for an offset is the last character boundary that
does not lie above it. The end of a slice is cut first, and its start is held before that cut. This
gives the start the cut it would have on its own, so a slice that ends where another one starts
shares a cut with it, wherever the offset lies, and the two make up the slice of the whole range.
-/

set_option autoImplicit false

namespace SourceOverlay.Snapshot

section Cuts

variable {text : String} {offset : Nat} {p q r : text.Pos}

theorem eq_of_byteIdx (h : p.offset.byteIdx = q.offset.byteIdx) : p = q :=
  String.Pos.ext (String.Pos.Raw.ext h)

theorem IsCut.unique (hp : IsCut text offset p) (hq : IsCut text offset q) : p = q := by
  apply eq_of_byteIdx
  have hle := hp.last q hq.le
  have hge := hq.last p hp.le
  omega

theorem boundary?_eq_some_iff : boundary? text offset = some p ↔ IsCut text offset p := by
  obtain ⟨q, hq, hcut⟩ := exists_isCut text offset
  constructor
  · intro h
    obtain rfl := Option.some.inj (hq.symm.trans h)
    exact hcut
  · intro h
    rw [hq, hcut.unique h]

theorem isCut_endPos (h : text.utf8ByteSize ≤ offset) : IsCut text offset text.endPos := by
  constructor
  · exact h
  · intro q _
    exact q.isValid.le_rawEndPos

theorem extract_append_extract (hpq : p ≤ q) (hqr : q ≤ r) :
    String.extract p q ++ String.extract q r = String.extract p r := by
  apply String.toByteArray_inj.mp
  rw [String.toByteArray_append, String.toByteArray_extract, String.toByteArray_extract,
    String.toByteArray_extract, ByteArray.extract_append_extract, Nat.min_eq_left hpq,
    Nat.max_eq_right hqr]

theorem extract_self (p : text.Pos) : String.extract p p = "" := by
  apply String.toByteArray_inj.mp
  rw [String.toByteArray_extract, ByteArray.extract_same]
  rfl

theorem extract_startPos_endPos (text : String) :
    String.extract text.startPos text.endPos = text := by
  apply String.toByteArray_inj.mp
  rw [String.toByteArray_extract]
  exact ByteArray.extract_zero_size

end Cuts

/-! ### Where a slice is cut -/

variable {s : Snapshot} {start stop : Nat} {p q : s.text.Pos}

theorem slice?_eq_some_slice (s : Snapshot) (start stop : Nat) :
    s.slice? start stop = some (s.slice start stop) :=
  (Option.some_get _).symm

theorem slice?_of_isCut (hp : IsCut s.text (min stop s.size) p)
    (hq : IsCut s.text (min start p.offset.byteIdx) q) :
    s.slice? start stop = some (String.extract q p) := by
  have hqp : q ≤ p := Nat.le_trans hq.le (Nat.min_le_right _ _)
  simp [slice?, boundary?_eq_some_iff.mpr hp, boundary?_eq_some_iff.mpr hq, hqp]

theorem slice_of_isCut (hp : IsCut s.text (min stop s.size) p)
    (hq : IsCut s.text (min start p.offset.byteIdx) q) :
    s.slice start stop = String.extract q p :=
  Option.some.inj ((slice?_eq_some_slice s start stop).symm.trans (slice?_of_isCut hp hq))

/-- Holding the start before the cut of the end does not move its own cut. -/
theorem IsCut.held (hp : IsCut s.text (min stop s.size) p)
    (hq : IsCut s.text (min start s.size) q) (h : start ≤ stop) :
    IsCut s.text (min start p.offset.byteIdx) q := by
  have hple := hp.le
  have hqle := hq.le
  have hqp : q.offset.byteIdx ≤ p.offset.byteIdx := by
    apply hp.last
    omega
  constructor
  · omega
  · intro r hr
    apply hq.last
    omega

theorem slice_of_le (h : start ≤ stop) (hp : IsCut s.text (min stop s.size) p)
    (hq : IsCut s.text (min start s.size) q) : s.slice start stop = String.extract q p :=
  slice_of_isCut hp (hp.held hq h)

theorem slice_of_ge (h : stop ≤ start) : s.slice start stop = "" := by
  obtain ⟨p, -, hp⟩ := exists_isCut s.text (min stop s.size)
  have hmin : min start p.offset.byteIdx = p.offset.byteIdx := by
    have hle := hp.le
    omega
  have hq : IsCut s.text (min start p.offset.byteIdx) p := by
    rw [hmin]
    exact isCut_self p
  rw [slice_of_isCut hp hq, extract_self]

theorem slice_whole (h : s.size ≤ stop) : s.slice 0 stop = s.text := by
  have hp : IsCut s.text (min stop s.size) s.text.endPos := by
    apply isCut_endPos
    exact Nat.le_min.mpr ⟨h, Nat.le_refl _⟩
  have hq : IsCut s.text (min 0 s.size) s.text.startPos := by
    rw [Nat.zero_min]
    exact isCut_self s.text.startPos
  rw [slice_of_le (Nat.zero_le stop) hp hq, extract_startPos_endPos]

theorem slice_append_slice {a b c : Nat} (hab : a ≤ b) (hbc : b ≤ c) :
    s.slice a b ++ s.slice b c = s.slice a c := by
  obtain ⟨p, -, hp⟩ := exists_isCut s.text (min a s.size)
  obtain ⟨q, -, hq⟩ := exists_isCut s.text (min b s.size)
  obtain ⟨r, -, hr⟩ := exists_isCut s.text (min c s.size)
  have hpq : p ≤ q := by
    apply hq.last
    have := hp.le
    omega
  have hqr : q ≤ r := by
    apply hr.last
    have := hq.le
    omega
  rw [slice_of_le hab hq hp, slice_of_le hbc hr hq, slice_of_le (Nat.le_trans hab hbc) hr hp,
    extract_append_extract hpq hqr]

/-- Every slice can be taken, and it runs between the last boundaries at or below its clamped
offsets. The search for them never fails. Slices that meet make up the slice of the whole range,
and one that runs backwards is empty. -/
theorem slices_tile (s : Snapshot) :
    (∀ offset, ∃ p, boundary? s.text offset = some p ∧ IsCut s.text offset p) ∧
    (∀ start stop, ∃ q p : s.text.Pos, IsCut s.text (min stop s.size) p ∧
      IsCut s.text (min start p.offset.byteIdx) q ∧ q ≤ p ∧
      s.slice? start stop = some (String.extract q p) ∧
      s.slice start stop = String.extract q p) ∧
    (∀ a b c, a ≤ b → b ≤ c → s.slice a b ++ s.slice b c = s.slice a c) ∧
    (∀ stop, s.size ≤ stop → s.slice 0 stop = s.text) ∧
    ∀ start stop, stop ≤ start → s.slice start stop = "" := by
  refine ⟨exists_isCut s.text, ?_, fun a b c => slice_append_slice, fun _ => slice_whole,
    fun _ _ => slice_of_ge⟩
  intro start stop
  obtain ⟨p, -, hp⟩ := exists_isCut s.text (min stop s.size)
  obtain ⟨q, -, hq⟩ := exists_isCut s.text (min start p.offset.byteIdx)
  have hqp : q ≤ p := Nat.le_trans hq.le (Nat.min_le_right _ _)
  exact ⟨q, p, hp, hq, hqp, slice?_of_isCut hp hq, slice_of_isCut hp hq⟩

/-- One offset lies inside a character and another beyond the end. -/
theorem slices_tile_accented :
    let s : Snapshot := ⟨⟨.loose 0, "aé b"⟩, 1⟩
    s.slice 0 2 = "a" ∧ s.slice 2 9 = "é b" ∧ s.slice 0 2 ++ s.slice 2 9 = s.slice 0 9 ∧
      s.slice 0 9 = "aé b" ∧ s.slice 3 2 = "" := by
  intro s
  obtain ⟨-, -, htile, hwhole, hempty⟩ := slices_tile s
  refine ⟨by decide +kernel, by decide +kernel, htile 0 2 9 (by decide) (by decide),
    hwhole 9 (by decide), hempty 3 2 (by decide)⟩

end SourceOverlay.Snapshot
