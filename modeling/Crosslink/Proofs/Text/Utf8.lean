import Crosslink.Text.Utf8
import Mathlib.Data.Char
import Mathlib.Data.List.TakeWhile

namespace Crosslink
namespace Utf8

/-!
Text that is written in UTF-8 is read back.  The first byte of a character tells how many bytes
there are, each following byte stands where it can, and their numbers add up to the number of
the character.
-/

/-! ## Bytes by their numbers -/

theorem toNat_byte {n : Nat} (small : n < 0x100) : (UInt8.ofNat n).toNat = n :=
  UInt8.toNat_ofNat_of_lt small

theorem byte_lt_iff {n : Nat} (small : n < 0x100) (bound : UInt8) :
    UInt8.ofNat n < bound ↔ n < bound.toNat := by
  rw [UInt8.lt_iff_toNat_lt, toNat_byte small]

theorem byte_eq_iff {n : Nat} (small : n < 0x100) (other : UInt8) :
    UInt8.ofNat n = other ↔ n = other.toNat := by
  rw [← UInt8.toNat_inj, toNat_byte small]

def tailByte (number : Nat) : UInt8 :=
  UInt8.ofNat (0x80 + number % 0x40)

theorem toNat_tailByte (number : Nat) : (tailByte number).toNat = 0x80 + number % 0x40 :=
  toNat_byte (by omega)

@[simp] theorem isTail_tailByte (number : Nat) : isTail (tailByte number) = true := by
  rw [isTail, Bool.and_eq_true, decide_eq_true_iff, decide_eq_true_iff]
  constructor
  · rw [UInt8.le_iff_toNat_le, toNat_tailByte]
    exact Nat.le_add_right _ _
  · rw [UInt8.lt_iff_toNat_lt, toNat_tailByte]
    exact Nat.add_lt_add_left (Nat.mod_lt _ (by decide)) 0x80

/-! ## One character -/

theorem step_one {c : Char} (small : c.toNat < 0x80) (rest : Bytes) :
    step (UInt8.ofNat c.toNat :: rest) = .ok (c, 1) := by
  have one : lengthOf (UInt8.ofNat c.toNat) = 1 :=
    if_pos ((byte_lt_iff (by omega) _).mpr small)
  rw [step, one]
  dsimp only
  rw [if_neg (by decide), if_pos rfl, toNat_byte (by omega), Char.ofNat_toNat]

/-- A character of several bytes is read if its first byte tells their number, the second one
stands where it can and all of them add up to its number. -/
theorem step_several {c : Char} (first : UInt8) {second : Nat} (more : List Nat) (rest : Bytes)
    (length : lengthOf first = more.length + 2)
    (stands : isSecond first (tailByte second) = true)
    (sum : codeOf (more.length + 2) first (tailByte second :: more.map tailByte) = c.toNat) :
    step (first :: tailByte second :: more.map tailByte ++ rest) =
      .ok (c, more.length + 2) := by
  have tails : ∀ byte ∈ more.map tailByte, isTail byte = true := by
    intro byte member
    rcases List.mem_map.mp member with ⟨number, _, rfl⟩
    exact isTail_tailByte number
  have taken : (tailByte second :: more.map tailByte ++ rest).take (more.length + 2 - 1) =
      tailByte second :: more.map tailByte := by
    refine List.take_left' ?_
    rw [List.length_cons, List.length_map]
    rfl
  have sound : soundTail first (tailByte second :: more.map tailByte) = more.length + 1 := by
    rw [soundTail, if_pos stands, List.takeWhile_eq_self_iff.mpr tails, List.length_map]
  rw [List.cons_append, List.cons_append, step, ← List.cons_append, length]
  dsimp only
  rw [if_neg (by omega), if_neg (by omega), taken, sound, if_pos (by omega), sum,
    Char.ofNat_toNat]

/-- The six bits of each byte are put behind the number of those before it. -/
theorem codeOf_map_tailByte (length : Nat) (first : UInt8) (numbers : List Nat) :
    codeOf length first (numbers.map tailByte) =
      numbers.foldl (fun code number => code * 0x40 + number % 0x40)
        (if length = 2 then first.toNat % 0x20 else first.toNat % (0x100 >>> (length + 1))) := by
  have bits (code number : Nat) : code * 0x40 + (tailByte number).toNat % 0x40 =
      code * 0x40 + number % 0x40 := by
    rw [toNat_tailByte]
    omega
  rw [codeOf, List.foldl_map]
  simp only [bits]

/-- Six bits that do not spell a character twice, half of a pair or too great a number can stand
second. -/
theorem isSecond_tailByte {n number : Nat} (small : n < 0x100)
    (long : n = 0xE0 → 0x20 ≤ number % 0x40) (half : n = 0xED → number % 0x40 < 0x20)
    (longer : n = 0xF0 → 0x10 ≤ number % 0x40) (great : n = 0xF4 → number % 0x40 < 0x10) :
    isSecond (UInt8.ofNat n) (tailByte number) = true := by
  rw [isSecond, isTail_tailByte, Bool.true_and]
  simp only [byte_eq_iff small]
  split
  · next same =>
      rw [decide_eq_true_iff, UInt8.le_iff_toNat_le, toNat_tailByte]
      exact Nat.add_le_add_left (long same) 0x80
  · split
    · next same =>
        rw [decide_eq_true_iff, UInt8.lt_iff_toNat_lt, toNat_tailByte]
        exact Nat.add_lt_add_left (half same) 0x80
    · split
      · next same =>
          rw [decide_eq_true_iff, UInt8.le_iff_toNat_le, toNat_tailByte]
          exact Nat.add_le_add_left (longer same) 0x80
      · split
        · next same =>
            rw [decide_eq_true_iff, UInt8.lt_iff_toNat_lt, toNat_tailByte]
            exact Nat.add_lt_add_left (great same) 0x80
        · rfl

/-- The number of bytes that a first byte announces. -/
theorem lengthOf_byte {n : Nat} (small : n < 0x100) :
    lengthOf (UInt8.ofNat n) =
      if n < 0x80 then 1 else if n < 0xC2 then 0 else if n < 0xE0 then 2
      else if n < 0xF0 then 3 else if n < 0xF5 then 4 else 0 := by
  rw [lengthOf]
  simp only [byte_lt_iff small]
  rfl

/-- A character that is written is read back. -/
theorem step_encodeChar (c : Char) (rest : Bytes) :
    step (encodeChar c ++ rest) = .ok (c, (encodeChar c).length) := by
  have valid : c.toNat < 0xD800 ∨ 0xDFFF < c.toNat ∧ c.toNat < 0x110000 := c.valid
  unfold encodeChar
  dsimp only
  split
  · next small => exact step_one small rest
  · split
    · refine step_several (UInt8.ofNat (0xC0 + c.toNat / 0x40)) [] rest ?_ ?_ ?_
      · rw [lengthOf_byte (by omega), if_neg (by omega), if_neg (by omega), if_pos (by omega)]
        rfl
      · exact isSecond_tailByte (by omega) (by omega) (by omega) (by omega) (by omega)
      · refine (codeOf_map_tailByte 2 _ [c.toNat / 1]).trans ?_
        rw [if_pos rfl, toNat_byte (by omega)]
        simp only [List.foldl_cons, List.foldl_nil]
        omega
    · split
      · refine step_several (UInt8.ofNat (0xE0 + c.toNat / 0x1000)) [c.toNat / 1] rest
          ?_ ?_ ?_
        · rw [lengthOf_byte (by omega), if_neg (by omega), if_neg (by omega), if_neg (by omega),
            if_pos (by omega)]
          rfl
        · exact isSecond_tailByte (by omega) (by omega) (by omega) (by omega) (by omega)
        · refine (codeOf_map_tailByte 3 _ [c.toNat / 0x40, c.toNat / 1]).trans ?_
          rw [if_neg (by decide), toNat_byte (by omega), show 0x100 >>> (3 + 1) = 0x10 from rfl]
          simp only [List.foldl_cons, List.foldl_nil]
          omega
      · refine step_several (UInt8.ofNat (0xF0 + c.toNat / 0x40000))
          [c.toNat / 0x40, c.toNat / 1] rest ?_ ?_ ?_
        · rw [lengthOf_byte (by omega), if_neg (by omega), if_neg (by omega), if_neg (by omega),
            if_neg (by omega), if_pos (by omega)]
          rfl
        · exact isSecond_tailByte (by omega) (by omega) (by omega) (by omega) (by omega)
        · refine (codeOf_map_tailByte 4 _ [c.toNat / 0x1000, c.toNat / 0x40, c.toNat / 1]).trans ?_
          rw [if_neg (by decide), toNat_byte (by omega), show 0x100 >>> (4 + 1) = 0x08 from rfl]
          simp only [List.foldl_cons, List.foldl_nil]
          omega

/-! ## Texts -/

@[simp] theorem length_append (first second : Text) :
    length (first ++ second) = length first + length second := by
  rw [length, encode, List.flatMap_append, List.length_append]
  rfl

theorem decodeWith_skip {read : Bytes → Except Flaw (Char × Nat)} (position : Nat)
    (skipped rest : Bytes) :
    Bytes.decodeWith read position skipped.length (skipped ++ rest) =
      Bytes.decodeWith read (position + skipped.length) 0 rest := by
  induction skipped generalizing position with
  | nil => rfl
  | cons byte more inductionHypothesis =>
      rw [List.length_cons, List.cons_append, Bytes.decodeWith, inductionHypothesis,
        Nat.add_assoc, Nat.add_comm 1]

/-- Text that is written is read back. -/
theorem decode_encode (text : Text) : decode (encode text) = .ok text := by
  suffices general : ∀ position, Bytes.decodeWith step position 0 (encode text) = .ok text from
    general 0
  induction text with
  | nil => exact fun _ => rfl
  | cons c rest inductionHypothesis =>
      intro position
      have read := step_encodeChar c (encode rest)
      rw [show encode (c :: rest) = encodeChar c ++ encode rest from List.flatMap_cons]
      cases written : encodeChar c with
      | nil =>
          have impossible := step_encodeChar c []
          rw [written] at impossible
          cases impossible
      | cons first more =>
          rw [written, List.cons_append] at read
          rw [List.cons_append, Bytes.decodeWith, read]
          dsimp only
          rw [List.length_cons, Nat.add_sub_cancel, decodeWith_skip, inductionHypothesis]

end Utf8
end Crosslink
