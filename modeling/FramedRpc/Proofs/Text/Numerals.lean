import FramedRpc.Text.Numeral

/-!
# Reading decimal numerals

A natural number is read from its digits, which may begin with zeros and stand behind a plus sign,
and only if it does not exceed the limit. What is written in decimal is read back.
-/

namespace FramedRpc.Numeral

/-- Decimal digits of a number, of which the first ones may be zeros. -/
structure Digits (digits : List Char) (n : Nat) : Prop where
  ne_nil : digits ≠ []
  isDigit : ∀ c ∈ digits, c.isDigit = true
  value : Nat.ofDigitChars 10 digits 0 = n

/-- The texts of a number: digits of it, with or without a plus sign. -/
def Spells (text : List Char) (n : Nat) : Prop :=
  ∃ digits, Digits digits n ∧ (text = digits ∨ text = '+' :: digits)

variable {limit value n : Nat} {overflow : Flaw} {text : List Char}

/-- Further digits make no number smaller. -/
theorem le_ofDigitChars (digits : List Char) (value : Nat) :
    value ≤ Nat.ofDigitChars 10 digits value := by
  rw [Nat.ofDigitChars_eq_ofDigitChars_zero]
  calc
    value ≤ 10 ^ digits.length * value := Nat.le_mul_of_pos_left value (Nat.pow_pos (by decide))
    _ ≤ _ := Nat.le_add_right _ _

/-- Digits are read on while the number stays within the limit. -/
theorem readDigits_eq_ok_iff (hvalue : value ≤ limit) :
    readDigits limit overflow value text = .ok n ↔
      (∀ c ∈ text, c.isDigit = true) ∧ Nat.ofDigitChars 10 text value = n ∧ n ≤ limit := by
  induction text generalizing value with
  | nil =>
    rw [readDigits, Nat.ofDigitChars_nil]
    constructor
    · intro h
      obtain rfl := Except.ok.inj h
      exact ⟨nofun, rfl, hvalue⟩
    · rintro ⟨-, rfl, -⟩
      rfl
  | cons c rest ih =>
    rw [readDigits, List.forall_mem_cons, Nat.ofDigitChars_cons, Nat.mul_comm 10 value]
    by_cases hdigit : c.isDigit = true
    case neg => simp [digit?, hdigit]
    case pos =>
      have hread : digit? c = some (c.toNat - '0'.toNat) := if_pos hdigit
      simp only [hread, hdigit, true_and]
      split
      case isTrue hnext => exact ih hnext
      case isFalse hnext =>
        refine iff_of_false nofun ?_
        rintro ⟨-, rfl, hlimit⟩
        exact hnext (Nat.le_trans (le_ofDigitChars rest _) hlimit)

/-- What is read is spelled by the text and does not exceed the limit. -/
theorem readNat_eq_ok_iff : readNat limit text = .ok n ↔ Spells text n ∧ n ≤ limit := by
  have hdigits {digits : List Char} (hne : digits ≠ []) :
      readDigits limit .tooLarge 0 digits = .ok n ↔ Digits digits n ∧ n ≤ limit := by
    rw [readDigits_eq_ok_iff (Nat.zero_le limit)]
    exact ⟨fun ⟨hall, hn, hlimit⟩ ↦ ⟨⟨hne, hall, hn⟩, hlimit⟩,
      fun ⟨⟨_, hall, hn⟩, hlimit⟩ ↦ ⟨hall, hn, hlimit⟩⟩
  unfold readNat Spells
  split
  case h_1 =>
    refine iff_of_false nofun ?_
    rintro ⟨⟨digits, hn, h | h⟩, -⟩
    · exact hn.ne_nil h.symm
    · cases h
  case h_2 =>
    refine iff_of_false nofun ?_
    rintro ⟨⟨digits, hn, h | h⟩, -⟩
    · exact absurd (hn.isDigit '+' (h ▸ List.mem_cons_self)) (by decide)
    · exact hn.ne_nil (List.cons.inj h).2.symm
  case h_3 rest hrest =>
    rw [hdigits fun hnil ↦ hrest (by rw [hnil])]
    constructor
    · exact fun ⟨hn, hlimit⟩ ↦ ⟨⟨rest, hn, .inr rfl⟩, hlimit⟩
    · rintro ⟨⟨digits, hn, h | h⟩, hlimit⟩
      · exact absurd (hn.isDigit '+' (h ▸ List.mem_cons_self)) (by decide)
      · exact ⟨(List.cons.inj h).2 ▸ hn, hlimit⟩
  case h_4 hnil hsign hplus =>
    rw [hdigits hnil]
    constructor
    · exact fun ⟨hn, hlimit⟩ ↦ ⟨⟨text, hn, .inl rfl⟩, hlimit⟩
    · rintro ⟨⟨digits, hn, rfl | h⟩, hlimit⟩
      · exact ⟨hn, hlimit⟩
      · exact absurd h (hplus digits)

/-- A number in decimal is one of its texts. -/
theorem spells_decimal (n : Nat) : Spells (decimal n) n :=
  ⟨decimal n, ⟨Nat.toDigits_ne_nil, fun _ ↦ Nat.isDigit_of_mem_toDigits (by decide) (by decide),
    Nat.ofDigitChars_ten_toDigits⟩, .inl rfl⟩

end FramedRpc.Numeral
