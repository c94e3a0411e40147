import FramedRpc.Wire.Json.Structure

/-!
# Passing over a text

A scanner passes a text as a value if it moves to the end of that text and gives the value, whatever
comes behind the text as long as it may. Scanners that pass texts in this sense can be put one
behind the other.
-/

namespace FramedRpc.Wire.Json

open Scanner

/-! ## Passing over a text -/

section Passes

variable {ε α β : Type} {follow : List UInt8 → Prop}

/-- A scanner moves past a text and gives a value, wherever the text is followed by bytes that may
come behind it. -/
def Passes (follow : List UInt8 → Prop) (scanner : StateT Cursor (Except ε) α) (text : List UInt8)
    (a : α) : Prop :=
  ∀ (c : Cursor) (rest : List UInt8), c.rest = text ++ rest → follow rest →
    ∃ c', scanner c = .ok (a, c') ∧ c'.rest = rest

/-- A scanner that stands before a byte gives a value and does not pass that byte. -/
def Looks (scanner : StateT Cursor (Except ε) α) (b : UInt8) (a : α) : Prop :=
  ∀ (c : Cursor) (rest : List UInt8), c.rest = b :: rest →
    ∃ c', scanner c = .ok (a, c') ∧ c'.rest = b :: rest

/-- Anything may come behind a text. -/
def Anything (_ : List UInt8) : Prop := True

/-- A given byte comes next. -/
def Next (b : UInt8) (rest : List UInt8) : Prop := ∃ more, rest = b :: more

/-- What comes next, if anything does, separates values or ends the lists and objects around. -/
def Ends (rest : List UInt8) : Prop := ∀ b ∈ rest.head?, b = 0x2C ∨ b = 0x5D ∨ b = 0x7D

theorem bind_eq {scanner : StateT Cursor (Except ε) α} {next : α → StateT Cursor (Except ε) β}
    {c c' : Cursor} {a : α} (h : scanner c = .ok (a, c')) : (scanner >>= next) c = next a c' := by
  show (scanner c).bind (fun s ↦ next s.1 s.2) = _
  rw [h]
  rfl

theorem Passes.mono {strong : List UInt8 → Prop} {scanner : StateT Cursor (Except ε) α}
    {text : List UInt8} {a : α} (h : Passes follow scanner text a)
    (himp : ∀ rest, strong rest → follow rest) : Passes strong scanner text a :=
  fun c rest hc hrest ↦ h c rest hc (himp rest hrest)

/-- A scanner that does not care for what comes behind a text passes it anywhere. -/
theorem Passes.anywhere {scanner : StateT Cursor (Except ε) α} {text : List UInt8} {a : α}
    (h : Passes Anything scanner text a) : Passes follow scanner text a :=
  h.mono fun _ _ ↦ trivial

theorem Passes.pure (a : α) : Passes follow (pure a : StateT Cursor (Except ε) α) [] a :=
  fun c _ hc _ ↦ ⟨c, rfl, hc⟩

theorem Passes.bind {middle : List UInt8 → Prop} {scanner : StateT Cursor (Except ε) α}
    {next : α → StateT Cursor (Except ε) β} {front back : List UInt8} {a : α} {b : β}
    (hfront : Passes middle scanner front a) (hback : Passes follow (next a) back b)
    (hmiddle : ∀ rest, follow rest → middle (back ++ rest)) :
    Passes follow (scanner >>= next) (front ++ back) b := by
  intro c rest hc hrest
  rw [List.append_assoc] at hc
  obtain ⟨c₁, hscan, hc₁⟩ := hfront c (back ++ rest) hc (hmiddle rest hrest)
  obtain ⟨c₂, hnext, hc₂⟩ := hback c₁ rest hc₁ hrest
  exact ⟨c₂, (bind_eq hscan).trans hnext, hc₂⟩

/-- The case of `Passes.bind` in which the first scanner does not care for what comes behind it. -/
theorem Passes.andThen {scanner : StateT Cursor (Except ε) α}
    {next : α → StateT Cursor (Except ε) β} {front back : List UInt8} {a : α} {b : β}
    (hfront : Passes Anything scanner front a) (hback : Passes follow (next a) back b) :
    Passes follow (scanner >>= next) (front ++ back) b :=
  hfront.bind hback fun _ _ ↦ trivial

/-- The case of `Passes.bind` in which the second scanner passes nothing. -/
theorem Passes.bind_nil {scanner : StateT Cursor (Except ε) α}
    {next : α → StateT Cursor (Except ε) β} {text : List UInt8} {a : α} {b : β}
    (hfront : Passes follow scanner text a) (hback : Passes follow (next a) [] b) :
    Passes follow (scanner >>= next) text b := by
  have h := hfront.bind hback fun _ hrest ↦ hrest
  rwa [List.append_nil] at h

theorem Passes.map {scanner : StateT Cursor (Except ε) α} {text : List UInt8} {a : α} (f : α → β)
    (h : Passes follow scanner text a) : Passes follow (f <$> scanner) text (f a) := by
  intro c rest hc hrest
  obtain ⟨c', hscan, hc'⟩ := h c rest hc hrest
  refine ⟨c', ?_, hc'⟩
  show (scanner c).map (fun s ↦ (f s.1, s.2)) = _
  rw [hscan]
  rfl

theorem Looks.bind {scanner : StateT Cursor (Except ε) α} {next : α → StateT Cursor (Except ε) β}
    {text : List UInt8} {a : α} {b : UInt8} {v : β} (hlook : Looks scanner b a)
    (hnext : Passes follow (next a) (b :: text) v) :
    Passes follow (scanner >>= next) (b :: text) v := by
  intro c rest hc hrest
  obtain ⟨c₁, hscan, hc₁⟩ := hlook c (text ++ rest) hc
  obtain ⟨c₂, hv, hc₂⟩ := hnext c₁ rest hc₁ hrest
  exact ⟨c₂, (bind_eq hscan).trans hv, hc₂⟩

/-- The byte that is looked at may also be the one behind the text. -/
theorem Looks.bind_next {scanner : StateT Cursor (Except ε) α}
    {next : α → StateT Cursor (Except ε) β} {a : α} {b : UInt8} {v : β} (hlook : Looks scanner b a)
    (hnext : Passes (Next b) (next a) [] v) : Passes (Next b) (scanner >>= next) [] v := by
  rintro c _ hc ⟨more, rfl⟩
  obtain ⟨c₁, hscan, hc₁⟩ := hlook c more hc
  obtain ⟨c₂, hv, hc₂⟩ := hnext c₁ (b :: more) hc₁ ⟨more, rfl⟩
  exact ⟨c₂, (bind_eq hscan).trans hv, hc₂⟩

/-- How many bytes there are is known where a text is to be passed. -/
theorem passes_get {next : Cursor → StateT Cursor (Except ε) β} {text : List UInt8} {v : β}
    (h : ∀ (c : Cursor) (rest : List UInt8), c.rest = text ++ rest → follow rest →
      Passes follow (next c) text v) : Passes follow (get >>= next) text v :=
  fun c rest hc hrest ↦ h c rest hc hrest c rest hc hrest

end Passes

/-! ## Bytes -/

section Bytes

variable {b : UInt8}

theorem rest_advance {c : Cursor} {rest : List UInt8} (hc : c.rest = b :: rest) :
    c.advance.rest = rest := by
  obtain ⟨line, column, bytes⟩ := c
  subst hc
  unfold Cursor.advance
  by_cases hline : b = 0x0A
  · simp only [if_pos hline]
  · simp only [if_neg hline]

theorem rest_skipBlanks {c : Cursor} {rest : List UInt8} (hc : c.rest = b :: rest)
    (hb : Cursor.isBlank b = false) : c.skipBlanks.rest = b :: rest := by
  have hline : b ≠ 0x0A := by
    rintro rfl
    cases hb
  rw [Cursor.skipBlanks, hc, Cursor.skipBlanksFrom, if_neg hline, hb]
  rfl

theorem peek?_eq {c : Cursor} {rest : List UInt8} (hc : c.rest = b :: rest) : c.peek? = some b := by
  rw [Cursor.peek?, hc]
  rfl

theorem looks_peekToken? (hb : Cursor.isBlank b = false) : Looks peekToken? b (some b) := by
  intro c rest hc
  refine ⟨c.skipBlanks, ?_, rest_skipBlanks hc hb⟩
  show Except.ok (c.skipBlanks.peek?, c.skipBlanks) = _
  rw [peek?_eq (rest_skipBlanks hc hb)]

theorem looks_peekValue (hb : Cursor.isBlank b = false) : Looks peekValue b b := by
  intro c rest hc
  obtain ⟨c', htoken, hc'⟩ := looks_peekToken? hb c rest hc
  exact ⟨c', bind_eq htoken, hc'⟩

theorem passes_advance : Passes Anything advance [b] () :=
  fun c _ hc _ ↦ ⟨c.advance, rfl, rest_advance hc⟩

theorem passes_next? : Passes Anything next? [b] (some b) := by
  intro c rest hc _
  refine ⟨c.advance, ?_, rest_advance hc⟩
  show Except.ok (c.peek?, c.advance) = _
  rw [peek?_eq hc]

theorem passes_word (letters : List UInt8) : Passes Anything (word letters) letters () := by
  induction letters with
  | nil => exact Passes.pure ()
  | cons expected more ih =>
    refine passes_next?.andThen ?_
    simp only [if_true]
    exact ih

end Bytes

end FramedRpc.Wire.Json
