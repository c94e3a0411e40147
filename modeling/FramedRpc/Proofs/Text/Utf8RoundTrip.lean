import FramedRpc.Text.Utf8

/-!
# Reading back UTF-8

Every text is read back from its bytes. A character takes one to four bytes; the first of them tells
how many there are, and the bounds on the second one exclude what no character is written as.
-/

namespace FramedRpc.Utf8

/-! ## Bytes of small numbers -/

theorem toNat_toUInt8 {n : Nat} (h : n < 0x100) : n.toUInt8.toNat = n := by
  simp only [Nat.toUInt8, UInt8.toNat_ofNat']
  omega

theorem eq_of_toUInt8_eq {n : Nat} {b : UInt8} (h : n.toUInt8 = b) (hn : n < 0x100) :
    n = b.toNat := by
  rw [← h, toNat_toUInt8 hn]

/-- Whether a byte lies in a range. -/
theorem between_iff {low high b : UInt8} :
    (low ≤ b && b ≤ high) = true ↔ low.toNat ≤ b.toNat ∧ b.toNat ≤ high.toNat := by
  simp only [Bool.and_eq_true, decide_eq_true_eq, UInt8.le_iff_toNat_le]

theorem isTail_iff {b : UInt8} : isTail b = true ↔ 0x80 ≤ b.toNat ∧ b.toNat ≤ 0xBF := between_iff

theorem toNat_tail (n : Nat) : (0x80 + n % 0x40).toUInt8.toNat = 0x80 + n % 0x40 :=
  toNat_toUInt8 (by omega)

theorem isTail_tail (n : Nat) : isTail (0x80 + n % 0x40).toUInt8 = true := by
  have hbyte := toNat_tail n
  exact isTail_iff.mpr ⟨by omega, by omega⟩

theorem tailBits_tail (n : Nat) : tailBits (0x80 + n % 0x40).toUInt8 = n % 0x40 := by
  unfold tailBits
  rw [toNat_tail]
  exact Nat.add_sub_cancel_left ..

theorem isSecondOfThree_tail {n : Nat} (hlow : 0x800 ≤ n) (hhigh : n < 0x10000)
    (hscalar : n < 0xD800 ∨ 0xDFFF < n) :
    isSecondOfThree (0xE0 + n / 0x1000).toUInt8 (0x80 + n / 0x40 % 0x40).toUInt8 = true := by
  unfold isSecondOfThree
  split
  case isTrue hfirst =>
    have hvalue : 0xE0 + n / 0x1000 = 0xE0 := eq_of_toUInt8_eq hfirst (by omega)
    rw [between_iff, toNat_tail]
    show 0xA0 ≤ _ ∧ _ ≤ 0xBF
    omega
  case isFalse hfirst =>
    split
    case isTrue hfirst =>
      have hvalue : 0xE0 + n / 0x1000 = 0xED := eq_of_toUInt8_eq hfirst (by omega)
      rw [between_iff, toNat_tail]
      show 0x80 ≤ _ ∧ _ ≤ 0x9F
      omega
    case isFalse => exact isTail_tail (n / 0x40)

theorem isSecondOfFour_tail {n : Nat} (hlow : 0x10000 ≤ n) (hhigh : n < 0x110000) :
    isSecondOfFour (0xF0 + n / 0x40000).toUInt8 (0x80 + n / 0x1000 % 0x40).toUInt8 = true := by
  unfold isSecondOfFour
  split
  case isTrue hfirst =>
    have hvalue : 0xF0 + n / 0x40000 = 0xF0 := eq_of_toUInt8_eq hfirst (by omega)
    rw [between_iff, toNat_tail]
    show 0x90 ≤ _ ∧ _ ≤ 0xBF
    omega
  case isFalse hfirst =>
    split
    case isTrue hfirst =>
      have hvalue : 0xF0 + n / 0x40000 = 0xF4 := eq_of_toUInt8_eq hfirst (by omega)
      rw [between_iff, toNat_tail]
      show 0x80 ≤ _ ∧ _ ≤ 0x8F
      omega
    case isFalse => exact isTail_tail (n / 0x1000)

/-! ## Characters -/

section

variable {a b c d : UInt8} (offset : Nat) (done : List Char) (rest : List UInt8)

theorem decodeFrom_one (ha : a.toNat < 0x80) :
    decodeFrom offset done (a :: rest) =
      decodeFrom (offset + 1) (Char.ofNat a.toNat :: done) rest := by
  rw [decodeFrom.eq_def]
  exact if_pos (UInt8.lt_iff_toNat_lt.mpr ha)

theorem decodeFrom_two (ha : 0xC2 ≤ a.toNat ∧ a.toNat ≤ 0xDF) (hb : isTail b = true) :
    decodeFrom offset done (a :: b :: rest) =
      decodeFrom (offset + 2) (Char.ofNat ((a.toNat - 0xC0) * 0x40 + tailBits b) :: done) rest := by
  have hone : ¬ a < 0x80 := by
    rw [UInt8.lt_iff_toNat_lt]
    show ¬ a.toNat < 0x80
    omega
  have htwo : (0xC2 ≤ a && a ≤ 0xDF) = true := between_iff.mpr ha
  rw [decodeFrom.eq_def]
  simp only [if_neg hone, if_pos htwo, if_pos hb]

theorem decodeFrom_three (ha : 0xE0 ≤ a.toNat ∧ a.toNat ≤ 0xEF) (hb : isSecondOfThree a b = true)
    (hc : isTail c = true) :
    decodeFrom offset done (a :: b :: c :: rest) =
      decodeFrom (offset + 3)
        (Char.ofNat ((a.toNat - 0xE0) * 0x1000 + tailBits b * 0x40 + tailBits c) :: done) rest := by
  have hone : ¬ a < 0x80 := by
    rw [UInt8.lt_iff_toNat_lt]
    show ¬ a.toNat < 0x80
    omega
  have htwo : ¬ (0xC2 ≤ a && a ≤ 0xDF) = true := by
    rw [between_iff]
    show ¬ (0xC2 ≤ _ ∧ _ ≤ 0xDF)
    omega
  have hthree : (0xE0 ≤ a && a ≤ 0xEF) = true := between_iff.mpr ha
  rw [decodeFrom.eq_def]
  simp only [if_neg hone, if_neg htwo, if_pos hthree, if_pos hb, if_pos hc]

theorem decodeFrom_four (ha : 0xF0 ≤ a.toNat ∧ a.toNat ≤ 0xF4) (hb : isSecondOfFour a b = true)
    (hc : isTail c = true) (hd : isTail d = true) :
    decodeFrom offset done (a :: b :: c :: d :: rest) =
      decodeFrom (offset + 4)
        (Char.ofNat ((a.toNat - 0xF0) * 0x40000 + tailBits b * 0x1000 + tailBits c * 0x40 +
          tailBits d) :: done) rest := by
  have hone : ¬ a < 0x80 := by
    rw [UInt8.lt_iff_toNat_lt]
    show ¬ a.toNat < 0x80
    omega
  have htwo : ¬ (0xC2 ≤ a && a ≤ 0xDF) = true := by
    rw [between_iff]
    show ¬ (0xC2 ≤ _ ∧ _ ≤ 0xDF)
    omega
  have hthree : ¬ (0xE0 ≤ a && a ≤ 0xEF) = true := by
    rw [between_iff]
    show ¬ (0xE0 ≤ _ ∧ _ ≤ 0xEF)
    omega
  have hfour : (0xF0 ≤ a && a ≤ 0xF4) = true := between_iff.mpr ha
  rw [decodeFrom.eq_def]
  simp only [if_neg hone, if_neg htwo, if_neg hthree, if_pos hfour, if_pos hb, if_pos hc, if_pos hd]

end

/-- A character is read back from its bytes, whatever follows them. -/
@[simp]
theorem decodeFrom_encodeScalar (c : Char) (offset : Nat) (done : List Char) (rest : List UInt8) :
    decodeFrom offset done (encodeScalar c.toNat ++ rest) =
      decodeFrom (offset + (encodeScalar c.toNat).length) (c :: done) rest := by
  have hscalar : c.toNat < 0xD800 ∨ 0xDFFF < c.toNat ∧ c.toNat < 0x110000 := c.valid
  have hback : Char.ofNat c.toNat = c := Char.ofNat_toNat c
  generalize c.toNat = n at hscalar hback
  unfold encodeScalar
  by_cases hone : n < 0x80
  · have hfirst : n.toUInt8.toNat = n := toNat_toUInt8 (by omega)
    rw [if_pos hone, List.singleton_append, decodeFrom_one _ _ _ (by omega), hfirst, hback]
    rfl
  rw [if_neg hone]
  by_cases htwo : n < 0x800
  · have hfirst : (0xC0 + n / 0x40).toUInt8.toNat = 0xC0 + n / 0x40 := toNat_toUInt8 (by omega)
    have hvalue : (0xC0 + n / 0x40 - 0xC0) * 0x40 + n % 0x40 = n := by omega
    rw [if_pos htwo, List.cons_append, List.singleton_append,
      decodeFrom_two _ _ _ (by omega) (isTail_tail n), tailBits_tail, hfirst, hvalue, hback]
    rfl
  rw [if_neg htwo]
  by_cases hthree : n < 0x10000
  · have hfirst : (0xE0 + n / 0x1000).toUInt8.toNat = 0xE0 + n / 0x1000 :=
      toNat_toUInt8 (by omega)
    have hvalue : (0xE0 + n / 0x1000 - 0xE0) * 0x1000 + n / 0x40 % 0x40 * 0x40 + n % 0x40 = n := by
      omega
    have hsecond := isSecondOfThree_tail (n := n) (by omega) hthree (by omega)
    rw [if_pos hthree, List.cons_append, List.cons_append, List.singleton_append,
      decodeFrom_three _ _ _ (by omega) hsecond (isTail_tail n), tailBits_tail, tailBits_tail,
      hfirst, hvalue, hback]
    rfl
  have hfirst : (0xF0 + n / 0x40000).toUInt8.toNat = 0xF0 + n / 0x40000 :=
    toNat_toUInt8 (by omega)
  have hvalue : (0xF0 + n / 0x40000 - 0xF0) * 0x40000 + n / 0x1000 % 0x40 * 0x1000 +
      n / 0x40 % 0x40 * 0x40 + n % 0x40 = n := by
    omega
  have hsecond := isSecondOfFour_tail (n := n) (by omega) (by omega)
  rw [if_neg hthree, List.cons_append, List.cons_append, List.cons_append, List.singleton_append,
    decodeFrom_four _ _ _ (by omega) hsecond (isTail_tail (n / 0x40)) (isTail_tail n),
    tailBits_tail, tailBits_tail, tailBits_tail, hfirst, hvalue, hback]
  rfl

@[simp]
theorem decodeFrom_flatMap (chars : List Char) (offset : Nat) (done : List Char) :
    decodeFrom offset done (chars.flatMap fun c ↦ encodeScalar c.toNat) =
      .ok (done.reverse ++ chars) := by
  induction chars generalizing offset done with
  | nil => simp [decodeFrom]
  | cons c chars ih =>
    simp [ih]

/-- The text is read back from its bytes. -/
@[simp]
theorem decode_encode (s : String) : decode (encode s) = .ok s := by
  have hchars : decodeFrom 0 [] (encode s) = .ok s.toList := decodeFrom_flatMap s.toList 0 []
  unfold decode
  rw [hchars]
  show Except.ok (String.ofList s.toList) = Except.ok s
  rw [String.ofList_toList]

end FramedRpc.Utf8
