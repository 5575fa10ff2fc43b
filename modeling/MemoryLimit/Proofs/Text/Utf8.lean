import Mathlib
import MemoryLimit.Text.Utf8

/-!
# Undamaged text

What is well-formed UTF-8 is read as the text that it is: the bytes of each character are read as
that character, whatever follows them. No byte is lost, so only no bytes are read as no text.

## Main statements

* `readLossyFrom_append_encode` — the bytes of a character are read as the character.
* `readLossy_toUTF8` — the bytes of a text are read as the text.
* `readLossy_eq_empty_iff` — only no bytes are read as no text.
-/
namespace MemoryLimit.Text

/-! ## Bytes in a list -/

theorem toList_loop_eq (bytes : ByteArray) (i : ℕ) (read : List UInt8) :
    ByteArray.toList.loop bytes i read = read.reverse ++ bytes.data.toList.drop i := by
  induction hleft : bytes.size - i generalizing i read with
  | zero =>
    have hsize : bytes.data.toList.length = bytes.size := rfl
    rw [ByteArray.toList.loop, if_neg (by omega), List.drop_eq_nil_of_le (by omega),
      List.append_nil]
  | succ left ih =>
    have hi : i < bytes.size := by omega
    rw [ByteArray.toList.loop, if_pos hi, ih (i + 1) _ (by omega), List.reverse_cons,
      List.append_assoc, List.singleton_append]
    have hget : bytes.get! i = bytes.data.toList.get ⟨i, hi⟩ := by
      simp [ByteArray.get!, hi]
    rw [hget, List.get_eq_getElem, List.cons_getElem_drop_succ]

theorem toList_eq (bytes : ByteArray) : bytes.toList = bytes.data.toList := by
  rw [ByteArray.toList, toList_loop_eq]
  rfl

/-- The bytes of a text are those of its characters. -/
theorem toList_toUTF8 (text : String) :
    text.toUTF8.toList = text.toList.flatMap String.utf8EncodeChar := by
  rw [toList_eq]
  conv_lhs => rw [← String.ofList_toList (s := text)]
  rw [String.toUTF8_eq_toByteArray, String.toByteArray_ofList, List.utf8Encode,
    List.toList_data_toByteArray]

/-! ## Bytes of a character -/

theorem beginCharacter_ascii {n : ℕ} (hn : n < 0x80) :
    beginCharacter n = ([Char.ofNat n], none) := by
  rw [beginCharacter, if_pos hn]

/-- The first of two bytes. -/
theorem beginCharacter_two {k : ℕ} (hlow : 2 ≤ k) (hhigh : k < 32) :
    beginCharacter (k + 192) = ([], some ⟨1, k, 0x80, 0xbf⟩) := by
  interval_cases k <;> rfl

/-- The first of three bytes. The second one is kept from spelling what fewer bytes spell, and half of
a pair. -/
theorem beginCharacter_three {k : ℕ} (hk : k < 16) :
    beginCharacter (k + 224) =
      ([], some ⟨2, k, if k = 0 then 0xa0 else 0x80, if k = 13 then 0x9f else 0xbf⟩) := by
  interval_cases k <;> rfl

/-- The first of four bytes. The second one is kept from spelling what fewer bytes spell, and what is
no character. -/
theorem beginCharacter_four {k : ℕ} (hk : k < 5) :
    beginCharacter (k + 240) =
      ([], some ⟨3, k, if k = 0 then 0x90 else 0x80, if k = 4 then 0x8f else 0xbf⟩) := by
  interval_cases k <;> rfl

/-- A byte that is expected adds its bits. -/
theorem readByte_pending {p : Pending} {n : ℕ} (hlow : p.low ≤ n + 128) (hhigh : n + 128 ≤ p.high) :
    readByte (some p) (n + 128) =
      if p.left ≤ 1 then ([Char.ofNat (64 * p.bits + n)], none)
      else ([], some ⟨p.left - 1, 64 * p.bits + n, 0x80, 0xbf⟩) := by
  rw [readByte, if_pos (by simp [hlow, hhigh]), Nat.add_sub_cancel]

theorem readLossyFrom_cons (pending : Option Pending) (b : UInt8) (rest : List UInt8) :
    readLossyFrom pending (b :: rest) =
      (readByte pending b.toNat).1 ++ readLossyFrom (readByte pending b.toNat).2 rest := by
  cases pending <;> rfl

/-- **The bytes of a character are read as the character**, whatever follows them. -/
theorem readLossyFrom_append_encode (c : Char) (rest : List UInt8) :
    readLossyFrom none (String.utf8EncodeChar c ++ rest) = c :: readLossyFrom none rest := by
  have hvalid : c.val.toNat < 0xd800 ∨ 0xdfff < c.val.toNat ∧ c.val.toNat < 0x110000 := c.valid
  have hchar : Char.ofNat c.val.toNat = c := Char.ofNat_toNat c
  have hbyte : ∀ n : ℕ, n < 256 → (UInt8.ofNat n).toNat = n := fun n hn =>
    UInt8.toNat_ofNat_of_lt' hn
  have hbegin : ∀ n, readByte none n = beginCharacter n := fun _ => rfl
  rw [String.utf8EncodeChar.eq_1]
  generalize c.val.toNat = v at hvalid hchar ⊢
  by_cases hone : v ≤ 127
  · rw [if_pos hone, List.cons_append, readLossyFrom_cons, hbyte v (by omega), hbegin,
      beginCharacter_ascii (by omega), hchar]
    rfl
  rw [if_neg hone]
  by_cases htwo : v ≤ 2047
  · have hbits : 64 * (v / 64 % 32) + v % 64 = v := by omega
    rw [if_pos htwo, List.cons_append, List.cons_append, readLossyFrom_cons, readLossyFrom_cons,
      hbyte _ (by omega), hbyte _ (by omega), hbegin, beginCharacter_two (by omega) (by omega)]
    dsimp only
    rw [readByte_pending (by dsimp only; omega) (by dsimp only; omega)]
    simp [hbits, hchar]
  rw [if_neg htwo]
  by_cases hthree : v ≤ 65535
  · have hbits : 64 * (64 * (v / 4096 % 16) + v / 64 % 64) + v % 64 = v := by omega
    rw [if_pos hthree]
    simp only [List.cons_append]
    rw [readLossyFrom_cons, readLossyFrom_cons, readLossyFrom_cons, hbyte _ (by omega),
      hbyte _ (by omega), hbyte _ (by omega), hbegin, beginCharacter_three (by omega)]
    dsimp only
    rw [readByte_pending (by dsimp only; split <;> omega) (by dsimp only; split <;> omega)]
    simp only [show ¬ 2 ≤ 1 by omega, if_false, Nat.reduceSub]
    rw [readByte_pending (by dsimp only; omega) (by dsimp only; omega)]
    simp [hbits, hchar]
  · have hbits : 64 * (64 * (64 * (v / 262144 % 8) + v / 4096 % 64) + v / 64 % 64) + v % 64 = v := by
      omega
    rw [if_neg hthree]
    simp only [List.cons_append]
    rw [readLossyFrom_cons, readLossyFrom_cons, readLossyFrom_cons, readLossyFrom_cons,
      hbyte _ (by omega), hbyte _ (by omega), hbyte _ (by omega), hbyte _ (by omega), hbegin,
      beginCharacter_four (by omega)]
    dsimp only
    rw [readByte_pending (by dsimp only; split <;> omega) (by dsimp only; split <;> omega)]
    simp only [show ¬ 3 ≤ 1 by omega, if_false, Nat.reduceSub]
    rw [readByte_pending (by dsimp only; omega) (by dsimp only; omega)]
    simp only [show ¬ 2 ≤ 1 by omega, if_false, Nat.reduceSub]
    rw [readByte_pending (by dsimp only; omega) (by dsimp only; omega)]
    simp [hbits, hchar]

/-! ## Texts -/

/-- **The bytes of a text are read as the text.** -/
theorem readLossy_toUTF8 (text : String) : readLossy text.toUTF8 = text := by
  have hall : ∀ s : List Char, readLossyFrom none (s.flatMap String.utf8EncodeChar) = s := by
    intro s
    induction s with
    | nil => rfl
    | cons c rest ih => rw [List.flatMap_cons, readLossyFrom_append_encode, ih]
  rw [readLossy, toList_toUTF8, hall, String.ofList_toList]

/-- A byte is read as something, or something is still to come. -/
theorem readByte_cases (pending : Option Pending) (b : ℕ) :
    (readByte pending b).1 ≠ [] ∨ ∃ p, (readByte pending b).2 = some p := by
  have hbegin : ∀ b, (beginCharacter b).1 ≠ [] ∨ ∃ p, (beginCharacter b).2 = some p := by
    intro b
    unfold beginCharacter
    split_ifs <;> simp
  cases pending with
  | none => exact hbegin b
  | some p =>
    rw [readByte]
    by_cases hexpected : (decide (p.low ≤ b) && decide (b ≤ p.high)) = true
    · rw [if_pos hexpected]
      dsimp only
      split_ifs <;> simp
    · rw [if_neg hexpected]
      simp

/-- What is still to come is read as something. -/
theorem readLossyFrom_some_ne_nil (p : Pending) (bytes : List UInt8) :
    readLossyFrom (some p) bytes ≠ [] := by
  induction bytes generalizing p with
  | nil => simp [readLossyFrom]
  | cons b rest ih =>
    rw [readLossyFrom_cons]
    rcases readByte_cases (some p) b.toNat with hread | ⟨next, hnext⟩
    · simp [hread]
    · simp [hnext, ih next]

/-- **Only no bytes are read as no text.** -/
theorem readLossy_eq_empty_iff (bytes : ByteArray) : readLossy bytes = "" ↔ bytes = .empty := by
  rw [readLossy, String.ofList_eq_empty_iff, toList_eq]
  constructor
  · intro hempty
    cases hbytes : bytes.data.toList with
    | nil =>
      apply ByteArray.ext
      exact Array.toList_eq_nil_iff.1 hbytes
    | cons b rest =>
      rw [hbytes, readLossyFrom_cons] at hempty
      rcases readByte_cases none b.toNat with hread | ⟨next, hnext⟩
      · exact absurd (List.append_eq_nil_iff.1 hempty).1 hread
      · rw [hnext] at hempty
        exact absurd (List.append_eq_nil_iff.1 hempty).2 (readLossyFrom_some_ne_nil next rest)
  · rintro rfl
    rfl

end MemoryLimit.Text
