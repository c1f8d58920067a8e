import SourceOverlay.Proofs.Coverage

/-!
# Texts read back from their bytes

A character is written as one to four bytes. The first says how many there are and has the upper
bits, and each of the others has six more. Reading narrows the range of the second byte, so that no
character can be written in a longer form than it needs and none of the surrogates can be written at
all; the bytes of a character keep within that range. So a text is read back from its own bytes, and
nothing in it is replaced.
-/

set_option autoImplicit false

namespace SourceOverlay.Text

theorem toNat_ofNat_of_lt {n : Nat} (h : n < 256) : (UInt8.ofNat n).toNat = n := by
  rw [UInt8.toNat_ofNat']
  omega

namespace LossyState

variable (read : List Char)

/-! ### One byte -/

theorem step_none (b : UInt8) : step ⟨read, none⟩ b = start read b := rfl

theorem start_of_one {n : Nat} (h : n < 0x80) :
    start read (UInt8.ofNat n) = ⟨Char.ofNat n :: read, none⟩ := by
  simp [start, toNat_ofNat_of_lt (show n < 256 by omega), h]

theorem start_of_two {n : Nat} (hlow : 0xC2 ≤ n) (hhigh : n ≤ 0xDF) :
    start read (UInt8.ofNat n) = ⟨read, some ⟨n % 32, 1, 0x80, 0xBF⟩⟩ := by
  simp [start, toNat_ofNat_of_lt (show n < 256 by omega), show ¬ n < 0x80 by omega, hlow, hhigh]

theorem start_of_three {n : Nat} (hlow : 0xE0 ≤ n) (hhigh : n ≤ 0xEF) :
    start read (UInt8.ofNat n) =
      ⟨read, some ⟨n % 16, 2, if n = 0xE0 then 0xA0 else 0x80,
        if n = 0xED then 0x9F else 0xBF⟩⟩ := by
  simp [start, toNat_ofNat_of_lt (show n < 256 by omega), show ¬ n < 0x80 by omega,
    show ¬ n ≤ 0xDF by omega, hlow, hhigh]

theorem start_of_four {n : Nat} (hlow : 0xF0 ≤ n) (hhigh : n ≤ 0xF4) :
    start read (UInt8.ofNat n) =
      ⟨read, some ⟨n % 8, 3, if n = 0xF0 then 0x90 else 0x80,
        if n = 0xF4 then 0x8F else 0xBF⟩⟩ := by
  simp [start, toNat_ofNat_of_lt (show n < 256 by omega), show ¬ n < 0x80 by omega,
    show ¬ n ≤ 0xDF by omega, show ¬ n ≤ 0xEF by omega, hlow, hhigh]

theorem step_next (bits missing : Nat) {low high : UInt8} {x : Nat}
    (hlow : low.toNat ≤ x % 64 + 128) (hhigh : x % 64 + 128 ≤ high.toNat) :
    step ⟨read, some ⟨bits, missing, low, high⟩⟩ (UInt8.ofNat (x % 64 + 128)) =
      if missing ≤ 1 then ⟨Char.ofNat (bits * 64 + x % 64) :: read, none⟩
      else ⟨read, some ⟨bits * 64 + x % 64, missing - 1, 0x80, 0xBF⟩⟩ := by
  have hvalue := toNat_ofNat_of_lt (show x % 64 + 128 < 256 by omega)
  have hbits : (x % 64 + 128) % 64 = x % 64 := by omega
  have hrange : (low ≤ UInt8.ofNat (x % 64 + 128) && UInt8.ofNat (x % 64 + 128) ≤ high) = true := by
    simp only [UInt8.le_iff_toNat_le, hvalue, hlow, hhigh, decide_true, Bool.and_self]
  simp only [step, hrange, if_true, hvalue, hbits]

theorem step_open (bits missing x : Nat) :
    step ⟨read, some ⟨bits, missing, 0x80, 0xBF⟩⟩ (UInt8.ofNat (x % 64 + 128)) =
      if missing ≤ 1 then ⟨Char.ofNat (bits * 64 + x % 64) :: read, none⟩
      else ⟨read, some ⟨bits * 64 + x % 64, missing - 1, 0x80, 0xBF⟩⟩ :=
  step_next read bits missing (by simp) (by simp; omega)

/-! ### One character -/

theorem foldl_step_two {v : Nat} (hlow : 0x80 ≤ v) (hhigh : v ≤ 0x7FF) :
    [UInt8.ofNat (v / 64 % 32 + 192), UInt8.ofNat (v % 64 + 128)].foldl step ⟨read, none⟩ =
      ⟨Char.ofNat v :: read, none⟩ := by
  have hvalue : (v / 64 % 32 + 192) % 32 * 64 + v % 64 = v := by omega
  rw [List.foldl_cons, step_none, List.foldl_cons, List.foldl_nil,
    start_of_two read (by omega) (by omega), step_open, if_pos (by omega), hvalue]

theorem foldl_step_three {v : Nat} (hlow : 0x800 ≤ v) (hhigh : v ≤ 0xFFFF)
    (hvalid : v < 0xD800 ∨ 0xDFFF < v) :
    [UInt8.ofNat (v / 4096 % 16 + 224), UInt8.ofNat (v / 64 % 64 + 128),
      UInt8.ofNat (v % 64 + 128)].foldl step ⟨read, none⟩ = ⟨Char.ofNat v :: read, none⟩ := by
  have hvalue : ((v / 4096 % 16 + 224) % 16 * 64 + v / 64 % 64) * 64 + v % 64 = v := by omega
  -- A short form starts at 0xE0 and is below the range, a surrogate at 0xED and above it.
  have hleast : (if v / 4096 % 16 + 224 = 0xE0 then 0xA0 else 0x80 : UInt8).toNat ≤
      v / 64 % 64 + 128 := by
    split
    · simp only [UInt8.toNat_ofNat]
      omega
    · simp only [UInt8.toNat_ofNat]
      omega
  have hgreatest : v / 64 % 64 + 128 ≤
      (if v / 4096 % 16 + 224 = 0xED then 0x9F else 0xBF : UInt8).toNat := by
    split
    · simp only [UInt8.toNat_ofNat]
      omega
    · simp only [UInt8.toNat_ofNat]
      omega
  rw [List.foldl_cons, step_none, List.foldl_cons, List.foldl_cons, List.foldl_nil,
    start_of_three read (by omega) (by omega), step_next read _ _ hleast hgreatest,
    if_neg (by simp), step_open, if_pos (by simp), hvalue]

theorem foldl_step_four {v : Nat} (hlow : 0x10000 ≤ v) (hhigh : v < 0x110000) :
    [UInt8.ofNat (v / 262144 % 8 + 240), UInt8.ofNat (v / 4096 % 64 + 128),
      UInt8.ofNat (v / 64 % 64 + 128), UInt8.ofNat (v % 64 + 128)].foldl step ⟨read, none⟩ =
        ⟨Char.ofNat v :: read, none⟩ := by
  have hvalue : (((v / 262144 % 8 + 240) % 8 * 64 + v / 4096 % 64) * 64 + v / 64 % 64) * 64 +
      v % 64 = v := by
    omega
  have hleast : (if v / 262144 % 8 + 240 = 0xF0 then 0x90 else 0x80 : UInt8).toNat ≤
      v / 4096 % 64 + 128 := by
    split
    · simp only [UInt8.toNat_ofNat]
      omega
    · simp only [UInt8.toNat_ofNat]
      omega
  have hgreatest : v / 4096 % 64 + 128 ≤
      (if v / 262144 % 8 + 240 = 0xF4 then 0x8F else 0xBF : UInt8).toNat := by
    split
    · simp only [UInt8.toNat_ofNat]
      omega
    · simp only [UInt8.toNat_ofNat]
      omega
  rw [List.foldl_cons, step_none, List.foldl_cons, List.foldl_cons, List.foldl_cons,
    List.foldl_nil, start_of_four read (by omega) (by omega), step_next read _ _ hleast hgreatest,
    if_neg (by simp), step_open, if_neg (by simp), step_open, if_pos (by simp), hvalue]

theorem foldl_step_utf8EncodeChar (c : Char) :
    (String.utf8EncodeChar c).foldl step ⟨read, none⟩ = ⟨c :: read, none⟩ := by
  have hvalid : c.val.toNat < 0xD800 ∨ 0xDFFF < c.val.toNat ∧ c.val.toNat < 0x110000 := c.valid
  have hchar : Char.ofNat c.val.toNat = c := Char.ofNat_toNat c
  simp only [String.utf8EncodeChar]
  split
  · rw [List.foldl_cons, step_none, List.foldl_nil, start_of_one read (by omega), hchar]
  · split
    · rw [foldl_step_two read (by omega) (by omega), hchar]
    · split
      · rw [foldl_step_three read (by omega) (by omega) (by omega), hchar]
      · rw [foldl_step_four read (by omega) (by omega), hchar]

theorem foldl_step_encode (cs : List Char) :
    (cs.flatMap String.utf8EncodeChar).foldl step ⟨read, none⟩ = ⟨cs.reverse ++ read, none⟩ := by
  induction cs generalizing read with
  | nil => rfl
  | cons c cs ih =>
    rw [List.flatMap_cons, List.foldl_append, foldl_step_utf8EncodeChar, ih]
    simp

end LossyState

theorem decodeLossy_encode (text : String) : decodeLossy (encode text) = text := by
  rw [decodeLossy, encode_eq, LossyState.foldl_step_encode]
  simp [LossyState.finish]

end SourceOverlay.Text
