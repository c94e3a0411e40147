import FramedRpc.Proofs.Text.Utf8RoundTrip
import FramedRpc.Proofs.Wire.Json.Passing
import FramedRpc.Proofs.Wire.Values
import FramedRpc.Wire.Json.Decoder
import FramedRpc.Wire.Json.Encoder

/-!
# Passing numbers and strings

The digits of a number end where a value ends, so what comes behind a number counts; a string ends
with its quote. Characters that cannot stand in a string are passed as the escapes they are written
as.
-/

namespace FramedRpc.Wire.Json

open Scanner

/-! ## Numbers -/

theorem digit_toUInt8 : ∀ d < 10, (Nat.digitChar d).toNat.toUInt8 = (0x30 + d).toUInt8 := by
  decide

theorem encodeNat_of_lt {n : Nat} (h : n < 10) : encodeNat n = [(0x30 + n).toUInt8] := by
  unfold encodeNat Numeral.decimal
  rw [Nat.toDigits_of_lt_base h, List.map_singleton, digit_toUInt8 n h]

theorem encodeNat_of_le {n : Nat} (h : 10 ≤ n) :
    encodeNat n = encodeNat (n / 10) ++ [(0x30 + n % 10).toUInt8] := by
  unfold encodeNat Numeral.decimal
  rw [Nat.toDigits_of_base_le (by decide) h, List.map_append, List.map_singleton,
    digit_toUInt8 (n % 10) (Nat.mod_lt n (by decide))]

theorem digitValue_toUInt8 {d : Nat} (h : d < 10) : digitValue (0x30 + d).toUInt8 = d := by
  unfold digitValue
  rw [Utf8.toNat_toUInt8 (by omega)]
  exact Nat.add_sub_cancel_left ..

theorem isDigit_toUInt8 {d : Nat} (h : d < 10) : isDigit (0x30 + d).toUInt8 = true := by
  have hbyte : (0x30 + d).toUInt8.toNat = 0x30 + d := Utf8.toNat_toUInt8 (by omega)
  unfold isDigit
  rw [Utf8.between_iff, hbyte]
  show 0x30 ≤ _ ∧ _ ≤ 0x39
  omega

theorem absorb_append {limit value total : Nat} {digits : List Nat}
    (h : absorb limit value digits = (total, [])) {d : Nat} (hd : total * 10 + d ≤ limit) :
    absorb limit value (digits ++ [d]) = (total * 10 + d, []) := by
  induction digits generalizing value with
  | nil =>
    obtain ⟨rfl, -⟩ := Prod.mk.inj h
    rw [List.nil_append, absorb, if_neg (by omega)]
    rfl
  | cons first digits ih =>
    rw [absorb] at h
    rw [List.cons_append, absorb]
    split at h
    · cases h
    · rename_i hfirst
      rw [if_neg hfirst]
      exact ih h

/-- The digits of a number other than zero: the first one is not zero, and all of them together give
the number. -/
theorem encodeNat_eq_cons {n : Nat} (hpos : 0 < n) : ∃ b digits, encodeNat n = b :: digits ∧
    isDigit b = true ∧ b ≠ 0x30 ∧ (∀ d ∈ digits, isDigit d = true) ∧
    ∀ limit, n ≤ limit → absorb limit (digitValue b) (digits.map digitValue) = (n, []) := by
  induction n using Nat.strongRecOn with
  | ind n ih =>
    by_cases hshort : n < 10
    · refine ⟨(0x30 + n).toUInt8, [], encodeNat_of_lt hshort, isDigit_toUInt8 hshort, ?_,
        fun _ hd ↦ absurd hd List.not_mem_nil, ?_⟩
      · intro hzero
        have hvalue := digitValue_toUInt8 hshort
        rw [hzero] at hvalue
        exact absurd hvalue (by show ¬ 0 = n; omega)
      · intro limit _
        rw [digitValue_toUInt8 hshort]
        rfl
    · obtain ⟨b, digits, hdigits, hb, hne, hall, habsorb⟩ := ih (n / 10) (by omega) (by omega)
      have hlast : n % 10 < 10 := Nat.mod_lt n (by decide)
      refine ⟨b, digits ++ [(0x30 + n % 10).toUInt8], ?_, hb, hne, ?_, ?_⟩
      · rw [encodeNat_of_le (by omega), hdigits, List.cons_append]
      · intro d hd
        rcases List.mem_append.mp hd with hd | hd
        · exact hall d hd
        · rw [List.mem_singleton.mp hd]
          exact isDigit_toUInt8 hlast
      · intro limit hlimit
        have hvalue : n / 10 * 10 + n % 10 = n := by omega
        have hmore := absorb_append (habsorb limit (by omega)) (d := n % 10) (by omega)
        rw [hvalue] at hmore
        rw [List.map_append, List.map_singleton, digitValue_toUInt8 hlast]
        exact hmore

theorem not_isDigit_of_ends {rest : List UInt8} (h : Ends rest) :
    ∀ b ∈ rest.head?, isDigit b = false := by
  intro b hb
  rcases h b hb with rfl | rfl | rfl <;> rfl

theorem spanDigits_append {digits rest : List UInt8} (hdigits : ∀ d ∈ digits, isDigit d = true)
    (hrest : ∀ b ∈ rest.head?, isDigit b = false) :
    spanDigits (digits ++ rest) = (digits.map digitValue, rest) := by
  induction digits with
  | nil =>
    cases rest with
    | nil => rfl
    | cons b rest =>
      rw [List.nil_append, spanDigits, hrest b rfl]
      rfl
  | cons d digits ih =>
    rw [List.cons_append, spanDigits, hdigits d List.mem_cons_self,
      ih fun e he ↦ hdigits e (List.mem_cons_of_mem d he)]
    rfl

theorem passes_digits {bytes : List UInt8} (hbytes : ∀ d ∈ bytes, isDigit d = true) :
    Passes Ends digits bytes (bytes.map digitValue) := by
  intro c rest hc hrest
  have hspan := spanDigits_append hbytes (not_isDigit_of_ends hrest)
  rw [← hc] at hspan
  unfold digits
  rw [hspan]
  exact ⟨_, rfl, rfl⟩

theorem Passes.peekEnd {β : Type} {next : Option UInt8 → Scanner β} {v : β}
    (hnone : Passes Ends (next none) [] v)
    (hsome : ∀ b, b = 0x2C ∨ b = 0x5D ∨ b = 0x7D → Passes Ends (next (some b)) [] v) :
    Passes Ends (peek? >>= next) [] v := by
  intro c rest hc hrest
  have hpeek : peek? c = .ok (rest.head?, c) := by
    show Except.ok (c.rest.head?, c) = _
    rw [hc]
    rfl
  rw [bind_eq hpeek]
  cases rest with
  | nil => exact hnone c [] hc hrest
  | cons b rest => exact hsome b (hrest b rfl) c (b :: rest) hc hrest

/-- Neither a fraction nor an exponent follows where a value ends. -/
theorem passes_afterInteger (positive : Bool) (n : Nat) :
    Passes Ends (afterInteger positive n 0) [] (.ofInteger positive n) := by
  refine Passes.peekEnd (Passes.pure _) ?_
  rintro b (rfl | rfl | rfl) <;> exact Passes.pure _

theorem passes_number (positive : Bool) {n : Nat} (h : n ≤ integerLimit) :
    Passes Ends (number positive) (encodeNat n) (.ofInteger positive n) := by
  rcases Nat.eq_zero_or_pos n with rfl | hpos
  · rw [encodeNat_of_lt (by decide)]
    refine passes_next?.andThen (Passes.peekEnd (passes_afterInteger positive 0) ?_)
    rintro b (rfl | rfl | rfl) <;> exact passes_afterInteger positive 0
  · obtain ⟨b, digits, hdigits, hb, hne, hall, habsorb⟩ := encodeNat_eq_cons hpos
    rw [hdigits]
    refine passes_next?.andThen ?_
    simp only [if_neg hne, if_pos hb]
    refine (passes_digits hall).bind_nil ?_
    rw [habsorb integerLimit h]
    exact passes_afterInteger positive n

theorem exists_encodeNat (n : Nat) : ∃ b more, encodeNat n = b :: more ∧ isDigit b = true := by
  rcases Nat.eq_zero_or_pos n with rfl | hpos
  · exact ⟨0x30, [], encodeNat_of_lt (by decide), rfl⟩
  · obtain ⟨b, digits, hdigits, hb, -⟩ := encodeNat_eq_cons hpos
    exact ⟨b, digits, hdigits, hb⟩

theorem ne_of_isDigit {b : UInt8} (hb : isDigit b = true) (other : UInt8)
    (hother : isDigit other = false) : b ≠ other := by
  rintro rfl
  rw [hb] at hother
  cases hother

theorem isBlank_of_isDigit {b : UInt8} (hb : isDigit b = true) : Cursor.isBlank b = false := by
  have hspace := ne_of_isDigit hb 0x20 rfl
  have htab := ne_of_isDigit hb 0x09 rfl
  have hline := ne_of_isDigit hb 0x0A rfl
  have hreturn := ne_of_isDigit hb 0x0D rfl
  simp [Cursor.isBlank, hspace, htab, hline, hreturn]

theorem passes_expectNumber_natural (expected : String) {n : Nat} (h : n ≤ integerLimit) :
    Passes Ends (expectNumber expected) (encodeNat n) (.natural n) := by
  have hnumber : Passes Ends (number true) (encodeNat n) (.natural n) := passes_number true h
  obtain ⟨b, more, hbytes, hb⟩ := exists_encodeNat n
  rw [hbytes] at hnumber ⊢
  refine (looks_peekValue (isBlank_of_isDigit hb)).bind ?_
  simp only [if_neg (ne_of_isDigit hb 0x2D rfl), if_pos hb]
  exact hnumber

theorem passes_expectNumber_negative (expected : String) {n : Nat} (hpos : 0 < n)
    (h : n ≤ 0x8000000000000000) :
    Passes Ends (expectNumber expected) (0x2D :: encodeNat n) (.negative (-(n : Int))) := by
  have hnumber : Passes Ends (number false) (encodeNat n) (.negative (-(n : Int))) := by
    have hread := passes_number false (n := n) (Nat.le_trans h (by decide))
    have hkept : Number.ofInteger false n = .negative (-(n : Int)) := by
      unfold Number.ofInteger
      rw [if_neg Bool.false_ne_true, if_pos ⟨hpos, h⟩]
    rwa [hkept] at hread
  exact (looks_peekValue rfl).bind (passes_advance.andThen hnumber)

theorem passes_unsigned (width : Width) (n : width.Value) :
    Passes Ends (unsigned width) (encodeNat (width.toNat n)) n := by
  have hlargest : width.toNat n ≤ width.largest := Nat.le_sub_one_of_lt (width.toNat_lt n)
  have hlimit : width.largest ≤ integerLimit := by
    cases width <;> decide
  refine (passes_expectNumber_natural width.typeName (Nat.le_trans hlargest hlimit)).bind_nil ?_
  simp only [if_pos hlargest, width.fromNat_toNat]
  exact Passes.pure n

theorem passes_signed (width : SignedWidth) (i : width.Value) :
    Passes Ends (signed width) (encodeInt (width.toInt i)) i := by
  have hlow := (width.toInt_range i).1
  have hhigh := (width.toInt_range i).2
  have hhalf : (Nat.pow 2 (width.unsigned.bits - 1) : Int) = width.largest + 1 := by
    cases width <;> rfl
  rw [hhalf] at hlow hhigh
  have hlimit : width.largest < 0x8000000000000000 := by
    cases width <;> decide
  unfold encodeInt
  by_cases hsign : width.toInt i < 0
  · have hnumber := passes_expectNumber_negative width.typeName (n := (width.toInt i).natAbs)
      (by omega) (by omega)
    have hvalue : (-((width.toInt i).natAbs : Int)) = width.toInt i := by omega
    rw [hvalue] at hnumber
    rw [if_pos hsign]
    refine hnumber.bind_nil ?_
    simp only [if_pos hlow, width.fromInt_toInt]
    exact Passes.pure i
  · have hlargest : (width.toInt i).natAbs ≤ width.largest := by omega
    have hnumber := passes_expectNumber_natural width.typeName (n := (width.toInt i).natAbs)
      (Nat.le_trans hlargest (Nat.le_trans (Nat.le_of_lt hlimit) (by decide)))
    have hvalue : (((width.toInt i).natAbs : Nat) : Int) = width.toInt i := by omega
    rw [if_neg hsign]
    refine hnumber.bind_nil ?_
    simp only [if_pos hlargest, hvalue, width.fromInt_toInt]
    exact Passes.pure i

/-! ## Strings -/

/-- The bytes of a string that stand for themselves. -/
def isPlain (b : UInt8) : Prop := b ≠ 0x22 ∧ b ≠ 0x5C ∧ ¬ b < 0x20

theorem passes_plain {bytes : List UInt8} (hplain : ∀ b ∈ bytes, isPlain b)
    {rounds done text v : List UInt8} (hrounds : (bytes ++ text).length ≤ rounds.length)
    (h : ∀ rounds : List UInt8, text.length ≤ rounds.length →
      Passes Anything (stringBytes rounds (bytes.reverse ++ done)) text v) :
    Passes Anything (stringBytes rounds done) (bytes ++ text) v := by
  induction bytes generalizing rounds done with
  | nil => exact h rounds hrounds
  | cons b bytes ih =>
    obtain ⟨hquote, hbackslash, hcontrol⟩ := hplain b List.mem_cons_self
    cases rounds with
    | nil => cases hrounds
    | cons round rounds =>
      refine passes_next?.andThen ?_
      simp only [if_neg hquote, if_neg hbackslash, if_neg hcontrol]
      have hrest : ∀ c ∈ bytes, isPlain c := fun c hc ↦ hplain c (List.mem_cons_of_mem b hc)
      refine ih hrest (Nat.le_of_succ_le_succ hrounds) fun rounds hlength ↦ ?_
      have hnext := h rounds hlength
      rwa [List.reverse_cons, List.append_assoc] at hnext

theorem passes_escape {text plain more : List UInt8} {rounds done v : List UInt8}
    (hescape : Passes Anything escape text plain)
    (hrounds : (0x5C :: text ++ more).length ≤ rounds.length)
    (h : ∀ rounds : List UInt8, more.length ≤ rounds.length →
      Passes Anything (stringBytes rounds (plain.reverse ++ done)) more v) :
    Passes Anything (stringBytes rounds done) (0x5C :: text ++ more) v := by
  cases rounds with
  | nil => cases hrounds
  | cons round rounds =>
    refine passes_next?.andThen (hescape.andThen (h rounds ?_))
    simp only [List.length_append, List.length_cons] at hrounds
    omega

theorem passes_shortEscape {letter plain : UInt8} (h : shortEscape? letter = some plain) :
    Passes Anything escape [letter] [plain] := by
  have hbyte : Passes Anything nextInString [letter] letter := passes_next?.bind_nil (Passes.pure _)
  refine hbyte.bind_nil ?_
  simp only [h]
  exact Passes.pure _

/-- The bytes of a character below the printable ones, which is written by its number. -/
theorem codeUnit?_control : ∀ n < 0x20, codeUnit? 0x30 0x30 (Nat.digitChar (n / 16)).toNat.toUInt8
    (Nat.digitChar (n % 16)).toNat.toUInt8 = some n := by
  decide

theorem passes_numberEscape {n : Nat} (h : n < 0x20) :
    Passes Anything escape [0x75, 0x30, 0x30, (Nat.digitChar (n / 16)).toNat.toUInt8,
      (Nat.digitChar (n % 16)).toNat.toUInt8] (Utf8.encodeScalar n) := by
  have hbyte : Passes Anything nextInString [0x75] 0x75 := passes_next?.bind_nil (Passes.pure _)
  have hhex : Passes Anything hexEscape [0x30, 0x30, (Nat.digitChar (n / 16)).toNat.toUInt8,
      (Nat.digitChar (n % 16)).toNat.toUInt8] n := by
    intro c rest hc _
    refine ⟨c.advance.advance.advance.advance, ?_,
      rest_advance (rest_advance (rest_advance (rest_advance hc)))⟩
    unfold hexEscape
    rw [hc]
    simp only [List.cons_append, codeUnit?_control n h]
  have hpoint : Passes Anything codePoint [0x30, 0x30, (Nat.digitChar (n / 16)).toNat.toUInt8,
      (Nat.digitChar (n % 16)).toNat.toUInt8] n := by
    refine hhex.bind_nil ?_
    rw [if_neg (by omega), if_pos (by omega)]
    exact Passes.pure _
  exact hbyte.andThen (hpoint.bind_nil (Passes.pure _))

theorem le_of_mem_encodeScalar {n : Nat} (hlow : 0x80 ≤ n) (hhigh : n < 0x110000) {b : UInt8}
    (hb : b ∈ Utf8.encodeScalar n) : 0x80 ≤ b.toNat := by
  unfold Utf8.encodeScalar at hb
  rw [if_neg (by omega)] at hb
  split at hb
  · simp only [List.mem_cons, List.not_mem_nil, or_false] at hb
    rcases hb with rfl | rfl <;> rw [Utf8.toNat_toUInt8 (by omega)] <;> omega
  split at hb
  · simp only [List.mem_cons, List.not_mem_nil, or_false] at hb
    rcases hb with rfl | rfl | rfl <;> rw [Utf8.toNat_toUInt8 (by omega)] <;> omega
  · simp only [List.mem_cons, List.not_mem_nil, or_false] at hb
    rcases hb with rfl | rfl | rfl | rfl <;> rw [Utf8.toNat_toUInt8 (by omega)] <;> omega

theorem isPlain_of_le {b : UInt8} (h : 0x80 ≤ b.toNat) : isPlain b := by
  refine ⟨?_, ?_, ?_⟩
  · rintro rfl
    cases Nat.not_le_of_lt (show (0x22 : UInt8).toNat < 0x80 by decide) h
  · rintro rfl
    cases Nat.not_le_of_lt (show (0x5C : UInt8).toNat < 0x80 by decide) h
  · rw [UInt8.lt_iff_toNat_lt]
    show ¬ b.toNat < 0x20
    omega

def utf8 (chars : List Char) : List UInt8 := chars.flatMap fun c ↦ Utf8.encodeScalar c.toNat

theorem isPlain_of_mem {c : Char} (hquote : c ≠ '"') (hbackslash : c ≠ '\\')
    (hcontrol : ¬ c.toNat < 0x20) {b : UInt8} (hb : b ∈ Utf8.encodeScalar c.toNat) : isPlain b := by
  by_cases hplain : c.toNat < 0x80
  · rw [Utf8.encodeScalar, if_pos hplain, List.mem_singleton] at hb
    have hbyte : b.toNat = c.toNat := by
      rw [hb, Utf8.toNat_toUInt8 (by omega)]
    refine ⟨?_, ?_, ?_⟩
    · rintro rfl
      exact hquote (Char.toNat_inj.mp hbyte.symm)
    · rintro rfl
      exact hbackslash (Char.toNat_inj.mp hbyte.symm)
    · rw [UInt8.lt_iff_toNat_lt, hbyte]
      exact hcontrol
  · have hhigh : c.toNat < 0x110000 := by
      rcases c.valid with h | h
      · exact Nat.lt_trans h (by decide)
      · exact h.2
    exact isPlain_of_le (le_of_mem_encodeScalar (by omega) hhigh hb)

theorem utf8_control : ∀ n < 0x20,
    utf8 ['\\', 'u', '0', '0', Nat.digitChar (n / 16), Nat.digitChar (n % 16)] =
      [0x5C, 0x75, 0x30, 0x30, (Nat.digitChar (n / 16)).toNat.toUInt8,
        (Nat.digitChar (n % 16)).toNat.toUInt8] := by
  decide

theorem passes_escapeChar (c : Char) {more rounds done v : List UInt8}
    (hrounds : (utf8 (escapeChar c) ++ more).length ≤ rounds.length)
    (h : ∀ rounds : List UInt8, more.length ≤ rounds.length →
      Passes Anything (stringBytes rounds ((Utf8.encodeScalar c.toNat).reverse ++ done)) more v) :
    Passes Anything (stringBytes rounds done) (utf8 (escapeChar c) ++ more) v := by
  unfold escapeChar at hrounds ⊢
  cases hletter : escapeLetter? c with
  | some letter =>
    simp only [hletter] at hrounds ⊢
    unfold escapeLetter? at hletter
    split at hletter
    case h_8 => cases hletter
    all_goals
      cases hletter
      exact passes_escape (passes_shortEscape rfl) hrounds h
  | none =>
    simp only [hletter] at hrounds ⊢
    by_cases hcontrol : c.toNat < 0x20
    · rw [if_pos hcontrol, utf8_control c.toNat hcontrol] at hrounds ⊢
      exact passes_escape (passes_numberEscape hcontrol) hrounds h
    · have hquote : c ≠ '"' := by
        rintro rfl
        cases hletter
      have hbackslash : c ≠ '\\' := by
        rintro rfl
        cases hletter
      have hbytes : utf8 [c] = Utf8.encodeScalar c.toNat := List.append_nil _
      rw [if_neg hcontrol, hbytes] at hrounds ⊢
      exact passes_plain (fun b hb ↦ isPlain_of_mem hquote hbackslash hcontrol hb) hrounds h

theorem passes_stringBytes (chars : List Char) {rounds done : List UInt8}
    (hrounds : (utf8 (chars.flatMap escapeChar) ++ [0x22]).length ≤ rounds.length) :
    Passes Anything (stringBytes rounds done) (utf8 (chars.flatMap escapeChar) ++ [0x22])
      (done.reverse ++ utf8 chars) := by
  induction chars generalizing rounds done with
  | nil =>
    cases rounds with
    | nil => cases hrounds
    | cons round rounds =>
      have hend : Passes Anything (stringBytes (round :: rounds) done) [0x22] done.reverse :=
        passes_next?.bind_nil (Passes.pure _)
      rwa [← List.append_nil done.reverse] at hend
  | cons c chars ih =>
    have hcons : utf8 ((c :: chars).flatMap escapeChar) =
        utf8 (escapeChar c) ++ utf8 (chars.flatMap escapeChar) := by
      rw [List.flatMap_cons, utf8, List.flatMap_append]
      rfl
    rw [hcons, List.append_assoc] at hrounds ⊢
    refine passes_escapeChar c hrounds fun rounds hlength ↦ ?_
    have hrest := @ih rounds ((Utf8.encodeScalar c.toNat).reverse ++ done) hlength
    rwa [List.reverse_append, List.reverse_reverse, List.append_assoc] at hrest

/-- A string is passed from behind its opening quote on. -/
theorem passes_stringAfterQuote (s : String) :
    Passes Anything stringAfterQuote (utf8 (s.toList.flatMap escapeChar) ++ [0x22]) s := by
  refine passes_get fun c rest hc _ ↦ (passes_stringBytes s.toList ?_).bind_nil ?_
  · rw [hc]
    exact (List.prefix_append _ rest).length_le
  have hdecode : Utf8.decode ([].reverse ++ utf8 s.toList) = .ok s := Utf8.decode_encode s
  rw [hdecode]
  exact Passes.pure s

theorem encodeString_eq (s : String) :
    encodeString s = 0x22 :: (utf8 (s.toList.flatMap escapeChar) ++ [0x22]) := rfl

theorem passes_string (s : String) : Passes Anything string (encodeString s) s :=
  (looks_peekValue rfl).bind (passes_advance.andThen (passes_stringAfterQuote s))

end FramedRpc.Wire.Json
