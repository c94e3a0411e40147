import FramedRpc.Proofs.Wire.Json.Lexemes

/-!
# Passing the parts of a list or object

Parts are separated by commas and end with a bracket. How many rounds there are for them is bounded
by the bytes ahead, of which every part takes at least one.
-/

namespace FramedRpc.Wire

/-- Whether `null` is the text of a value of a shape. -/
def Shape.isNullable : Shape → Bool
  | .unit => true
  | .optional _ => true
  | _ => false

end FramedRpc.Wire

namespace FramedRpc.Wire.Json

open Scanner

/-! ## What parts begin with -/

/-- Whether a value can begin with a byte. -/
def startsValue (b : UInt8) : Bool := !Cursor.isBlank b && b != 0x5D

theorem startsValue_of_isDigit {b : UInt8} (hb : isDigit b = true) : startsValue b = true := by
  have hclose := ne_of_isDigit hb 0x5D rfl
  simp [startsValue, isBlank_of_isDigit hb, hclose]

/-- Where the text of a value begins. Only absent values and the unit begin like `null`. -/
theorem exists_encode : ∀ (shape : Shape) (v : shape.Value), ∃ b more, encode shape v = b :: more ∧
    startsValue b = true ∧ (b = 0x6E → shape.isNullable = true)
  | .unit, _ => ⟨0x6E, [0x75, 0x6C, 0x6C], rfl, rfl, fun _ ↦ rfl⟩
  | .bool, true => ⟨0x74, [0x72, 0x75, 0x65], rfl, rfl, fun h ↦ absurd h (by decide)⟩
  | .bool, false => ⟨0x66, [0x61, 0x6C, 0x73, 0x65], rfl, rfl, fun h ↦ absurd h (by decide)⟩
  | .unsigned width, n => by
    obtain ⟨b, more, hbytes, hb⟩ := exists_encodeNat (width.toNat n)
    exact ⟨b, more, hbytes, startsValue_of_isDigit hb, fun h ↦ absurd h (ne_of_isDigit hb _ rfl)⟩
  | .signed width, i => by
    obtain ⟨b, more, hbytes, hb⟩ := exists_encodeNat (width.toInt i).natAbs
    by_cases hsign : width.toInt i < 0
    · exact ⟨0x2D, encodeNat (width.toInt i).natAbs, if_pos hsign, rfl,
        fun h ↦ absurd h (by decide)⟩
    · exact ⟨b, more, (if_neg hsign).trans hbytes, startsValue_of_isDigit hb,
        fun h ↦ absurd h (ne_of_isDigit hb _ rfl)⟩
  | .text, s => ⟨0x22, _, encodeString_eq s, rfl, fun h ↦ absurd h (by decide)⟩
  | .list item, items => ⟨0x5B, _, rfl, rfl, fun h ↦ absurd h (by decide)⟩
  | .optional _, none => ⟨0x6E, [0x75, 0x6C, 0x6C], rfl, rfl, fun _ ↦ rfl⟩
  | .optional item, some v => by
    obtain ⟨b, more, hbytes, hb, -⟩ := exists_encode item v
    exact ⟨b, more, hbytes, hb, fun _ ↦ rfl⟩
  | .pair first second, (a, b) => ⟨0x5B, _, rfl, rfl, fun h ↦ absurd h (by decide)⟩
  | .record _ _ fields, values => ⟨0x7B, _, rfl, rfl, fun h ↦ absurd h (by decide)⟩

/-- Parts behind a first one, each with the comma before it. -/
def moreParts (parts : List (List UInt8)) : List UInt8 := parts.flatMap fun part ↦ 0x2C :: part

@[simp]
theorem commaSeparated_cons (part : List UInt8) (parts : List (List UInt8)) :
    commaSeparated (part :: parts) = part ++ moreParts parts := by
  induction parts generalizing part with
  | nil => exact (List.append_nil part).symm
  | cons other parts ih =>
    rw [commaSeparated, ih other]
    · rfl
    · intro h
      cases h

theorem length_le_moreParts (parts : List (List UInt8)) :
    parts.length ≤ (moreParts parts).length := by
  induction parts with
  | nil => exact Nat.le_refl 0
  | cons part parts ih =>
    calc (part :: parts).length = parts.length + 1 := List.length_cons
      _ ≤ (moreParts parts).length + (0x2C :: part).length := Nat.add_le_add ih (Nat.succ_pos _)
      _ = (moreParts (part :: parts)).length := by
        rw [Nat.add_comm, ← List.length_append]
        rfl

/-- There are no more parts than bytes where none of them is empty. -/
theorem length_le_commaSeparated {parts : List (List UInt8)} (h : ∀ part ∈ parts, part ≠ []) :
    parts.length ≤ (commaSeparated parts).length := by
  cases parts with
  | nil => exact Nat.le_refl 0
  | cons part parts =>
    have hpart : 0 < part.length := List.length_pos_iff.mpr (h part List.mem_cons_self)
    calc (part :: parts).length = 1 + parts.length := Nat.add_comm _ _
      _ ≤ part.length + (moreParts parts).length :=
        Nat.add_le_add hpart (length_le_moreParts parts)
      _ = (commaSeparated (part :: parts)).length := by
        simp

/-- The bytes ahead of a list and its closing bracket suffice as rounds for its parts. -/
theorem length_lt_rest {close : UInt8} {parts : List (List UInt8)} {rounds rest : List UInt8}
    (h : ∀ part ∈ parts, part ≠ []) (hrounds : rounds = commaSeparated parts ++ rest)
    (hrest : Next close rest) : parts.length < rounds.length := by
  obtain ⟨more, rfl⟩ := hrest
  calc parts.length ≤ (commaSeparated parts).length := length_le_commaSeparated h
    _ < (commaSeparated parts).length + (close :: more).length :=
      Nat.lt_add_of_pos_right (Nat.succ_pos _)
    _ = rounds.length := by
      rw [hrounds, List.length_append]

theorem ends_moreParts {close : UInt8} (hclose : close = 0x5D ∨ close = 0x7D)
    (parts : List (List UInt8)) {rest : List UInt8} (hrest : Next close rest) :
    Ends (moreParts parts ++ rest) := by
  obtain ⟨more, rfl⟩ := hrest
  cases parts with
  | nil =>
    rintro b ⟨⟩
    exact .inr hclose
  | cons part parts =>
    rintro b ⟨⟩
    exact .inl rfl

section Parts

variable {α : Type} {follow : List UInt8 → Prop}

theorem Passes.part {scanner : Scanner α} {text : List UInt8} {a : α}
    (h : Passes follow scanner text a) : Passes follow (part scanner) text a := by
  intro c rest hc hrest
  obtain ⟨c', hscan, hc'⟩ := h c rest hc hrest
  refine ⟨c', ?_, hc'⟩
  unfold Json.part
  rw [hscan]

theorem Looks.part {scanner : Scanner α} {b : UInt8} {a : α} (h : Looks scanner b a) :
    Looks (part scanner) b a := by
  intro c rest hc
  obtain ⟨c', hscan, hc'⟩ := h c rest hc
  refine ⟨c', ?_, hc'⟩
  unfold Json.part
  rw [hscan]

theorem Passes.closing {close : Cursor → Cursor × Option Flaw} {bracket : UInt8}
    (hclose : ∀ c rest, c.rest = bracket :: rest → ∃ c', close c = (c', none) ∧ c'.rest = rest)
    {parts : PartScanner α} {text : List UInt8} {a : α} (h : Passes (Next bracket) parts text a) :
    Passes Anything (closing close parts) (text ++ [bracket]) a := by
  intro c rest hc _
  rw [List.append_assoc] at hc
  obtain ⟨c₁, hparts, hc₁⟩ := h c (bracket :: rest) hc ⟨rest, rfl⟩
  obtain ⟨c₂, hend, hc₂⟩ := hclose c₁ rest hc₁
  refine ⟨c₂, ?_, hc₂⟩
  unfold Json.closing
  rw [hparts]
  simp only [hend]

theorem listEnd_eq (c : Cursor) (rest : List UInt8) (hc : c.rest = 0x5D :: rest) :
    ∃ c', listEnd c = (c', none) ∧ c'.rest = rest := by
  have hskip := rest_skipBlanks hc rfl
  refine ⟨c.skipBlanks.advance, ?_, rest_advance hskip⟩
  simp only [listEnd, peek?_eq hskip]

theorem objectEnd_eq (c : Cursor) (rest : List UInt8) (hc : c.rest = 0x7D :: rest) :
    ∃ c', objectEnd c = (c', none) ∧ c'.rest = rest := by
  have hskip := rest_skipBlanks hc rfl
  refine ⟨c.skipBlanks.advance, ?_, rest_advance hskip⟩
  simp only [objectEnd, peek?_eq hskip]

end Parts

section Marks

variable {b : UInt8}

theorem isBlank_of_startsValue (hb : startsValue b = true) : Cursor.isBlank b = false := by
  simp only [startsValue, Bool.and_eq_true, Bool.not_eq_true'] at hb
  exact hb.1

theorem ne_of_startsValue (hb : startsValue b = true) : b ≠ 0x5D := by
  simp only [startsValue, Bool.and_eq_true, bne_iff_ne] at hb
  exact hb.2

theorem looks_hasNextItem_first (hb : startsValue b = true) : Looks (hasNextItem true) b true := by
  intro c rest hc
  obtain ⟨c', htoken, hc'⟩ := looks_peekToken? (isBlank_of_startsValue hb) c rest hc
  refine ⟨c', (bind_eq htoken).trans ?_, hc'⟩
  have hne := ne_of_startsValue hb
  simp only [if_true]
  rfl

theorem passes_hasNextItem (hb : startsValue b = true) :
    Passes (Next b) (hasNextItem false) [0x2C] true := by
  refine (looks_peekToken? rfl).bind (passes_advance.andThen ?_)
  refine (looks_peekToken? (isBlank_of_startsValue hb)).bind_next ?_
  split
  case h_1 h => cases h
  case h_2 h => exact absurd (Option.some.inj h) (ne_of_startsValue hb)
  case h_3 => exact Passes.pure true

theorem looks_hasNextItem_end (first : Bool) : Looks (hasNextItem first) 0x5D false := by
  intro c rest hc
  obtain ⟨c', htoken, hc'⟩ := looks_peekToken? (b := 0x5D) rfl c rest hc
  exact ⟨c', bind_eq htoken, hc'⟩

theorem looks_hasNextKey_first : Looks (hasNextKey true) 0x22 true := by
  intro c rest hc
  obtain ⟨c', htoken, hc'⟩ := looks_peekToken? (b := 0x22) rfl c rest hc
  exact ⟨c', bind_eq htoken, hc'⟩

theorem passes_hasNextKey : Passes (Next 0x22) (hasNextKey false) [0x2C] true :=
  (looks_peekToken? rfl).bind
    (passes_advance.andThen ((looks_peekToken? rfl).bind_next (Passes.pure true)))

theorem looks_hasNextKey_end (first : Bool) : Looks (hasNextKey first) 0x7D false := by
  intro c rest hc
  obtain ⟨c', htoken, hc'⟩ := looks_peekToken? (b := 0x7D) rfl c rest hc
  exact ⟨c', bind_eq htoken, hc'⟩

theorem passes_colon : Passes Anything colon [0x3A] () :=
  (looks_peekToken? rfl).bind passes_advance

end Marks

section Items

variable {α : Type} {item : Scanner α} {text : α → List UInt8}

/-- The items of a list behind those that were read already. -/
theorem passes_moreItems {values : List α} (hitem : ∀ v ∈ values, Passes Ends item (text v) v)
    (hstart : ∀ v ∈ values, ∃ b more, text v = b :: more ∧ startsValue b = true)
    {rounds : List UInt8} (done : List α) (hdone : done.isEmpty = false)
    (hrounds : values.length < rounds.length) :
    Passes (Next 0x5D) (items item rounds done) (moreParts (values.map text))
      (done.reverse ++ values) := by
  induction values generalizing rounds done with
  | nil =>
    cases rounds with
    | nil => cases hrounds
    | cons round rounds =>
      rw [List.append_nil]
      exact (looks_hasNextItem_end _).bind_next (Passes.pure done.reverse)
  | cons v values ih =>
    cases rounds with
    | nil => cases hrounds
    | cons round rounds =>
      obtain ⟨b, more, hbytes, hb⟩ := hstart v List.mem_cons_self
      have hrest := ih (fun w hw ↦ hitem w (List.mem_cons_of_mem v hw))
        (fun w hw ↦ hstart w (List.mem_cons_of_mem v hw)) (v :: done) rfl
        (Nat.lt_of_succ_lt_succ hrounds)
      rw [List.reverse_cons, List.append_assoc] at hrest
      have hends : ∀ rest, Next 0x5D rest → Ends (moreParts (values.map text) ++ rest) :=
        fun _ ↦ ends_moreParts (.inl rfl) _
      unfold items
      rw [hdone]
      refine (passes_hasNextItem hb).bind ((hitem v List.mem_cons_self).bind hrest hends) ?_
      intro rest _
      rw [hbytes]
      exact ⟨_, rfl⟩

/-- The items of a list up to its closing bracket. -/
theorem passes_items {values : List α} (hitem : ∀ v ∈ values, Passes Ends item (text v) v)
    (hstart : ∀ v ∈ values, ∃ b more, text v = b :: more ∧ startsValue b = true)
    {rounds : List UInt8} (hrounds : values.length < rounds.length) :
    Passes (Next 0x5D) (items item rounds []) (commaSeparated (values.map text)) values := by
  cases rounds with
  | nil => cases hrounds
  | cons round rounds =>
    cases values with
    | nil => exact (looks_hasNextItem_end _).bind_next (Passes.pure [])
    | cons v values =>
      obtain ⟨b, more, hbytes, hb⟩ := hstart v List.mem_cons_self
      have hrest := passes_moreItems (fun w hw ↦ hitem w (List.mem_cons_of_mem v hw))
        (fun w hw ↦ hstart w (List.mem_cons_of_mem v hw)) [v] rfl
        (Nat.lt_of_succ_lt_succ hrounds)
      have hends : ∀ rest, Next 0x5D rest → Ends (moreParts (values.map text) ++ rest) :=
        fun _ ↦ ends_moreParts (.inl rfl) _
      have hvalue : Passes (Next 0x5D) (item >>= fun v ↦ items item rounds [v])
          (text v ++ moreParts (values.map text)) (v :: values) :=
        (hitem v List.mem_cons_self).bind hrest hends
      rw [List.map_cons, commaSeparated_cons]
      rw [hbytes] at hvalue ⊢
      exact (looks_hasNextItem_first hb).bind hvalue

end Items

section Members

variable {α : Type} {member : String → α → PartScanner α}

def memberText (m : String × List UInt8) : List UInt8 := encodeString m.1 ++ 0x3A :: m.2

/-- One round of reading members, which begins behind what tells that there is one more. -/
def memberThen (member : String → α → PartScanner α) (rounds : List UInt8) (a : α) :
    PartScanner α := do
  let key ← part (do advance; stringAfterQuote)
  members member rounds false (← member key a)

/-- Members, each of which is read from behind its key on and takes what was read so far further. -/
inductive Chain (member : String → α → PartScanner α) : α → List (String × List UInt8) → α → Prop
  | nil (a : α) : Chain member a [] a
  | cons {a b c : α} {key : String} {value : List UInt8} {rest : List (String × List UInt8)}
    (hmember : Passes Ends (member key a) (0x3A :: value) b) (hrest : Chain member b rest c) :
    Chain member a ((key, value) :: rest) c

theorem passes_key (key : String) :
    Passes Anything (part (do advance; stringAfterQuote)) (encodeString key) key :=
  (passes_advance.andThen (passes_stringAfterQuote key)).part

theorem passes_memberThen {a b c : α} {key : String} {value : List UInt8}
    {rest : List (String × List UInt8)} {rounds : List UInt8}
    (hmember : Passes Ends (member key a) (0x3A :: value) b)
    (hrest : Passes (Next 0x7D) (members member rounds false b)
      (moreParts (rest.map memberText)) c) :
    Passes (Next 0x7D) (memberThen member rounds a)
      (memberText (key, value) ++ moreParts (rest.map memberText)) c := by
  have hends : ∀ more, Next 0x7D more → Ends (moreParts (rest.map memberText) ++ more) :=
    fun _ ↦ ends_moreParts (.inr rfl) _
  unfold memberText
  rw [List.append_assoc]
  exact (passes_key key).andThen (hmember.bind hrest hends)

theorem passes_moreMembers {a b : α} {list : List (String × List UInt8)} (h : Chain member a list b)
    {rounds : List UInt8} (hrounds : list.length < rounds.length) :
    Passes (Next 0x7D) (members member rounds false a) (moreParts (list.map memberText)) b := by
  induction h generalizing rounds with
  | nil a =>
    cases rounds with
    | nil => cases hrounds
    | cons round rounds => exact (looks_hasNextKey_end _).part.bind_next (Passes.pure a)
  | cons hmember _ ih =>
    cases rounds with
    | nil => cases hrounds
    | cons round rounds =>
      have hthen := passes_memberThen hmember (ih (Nat.lt_of_succ_lt_succ hrounds))
      exact passes_hasNextKey.part.bind hthen fun _ _ ↦ ⟨_, rfl⟩

/-- The members of an object up to its closing bracket. -/
theorem passes_members {a b : α} {list : List (String × List UInt8)} (h : Chain member a list b)
    {rounds : List UInt8} (hrounds : list.length < rounds.length) :
    Passes (Next 0x7D) (members member rounds true a) (commaSeparated (list.map memberText)) b := by
  cases rounds with
  | nil => cases hrounds
  | cons round rounds =>
    cases h with
    | nil => exact (looks_hasNextKey_end _).part.bind_next (Passes.pure a)
    | cons hmember hrest =>
      have hmore := passes_moreMembers hrest (Nat.lt_of_succ_lt_succ hrounds)
      rw [List.map_cons, commaSeparated_cons]
      exact looks_hasNextKey_first.part.bind (passes_memberThen hmember hmore)

end Members

section Positions

variable {α : Type} {scanner : Scanner α} {text : List UInt8} {a : α} {b : UInt8}

theorem passes_firstPart (expected : String) (hb : startsValue b = true)
    (h : Passes Ends scanner (b :: text) a) :
    Passes Ends (partAt 0 expected scanner) (b :: text) a :=
  (looks_hasNextItem_first hb).part.bind h.part

theorem passes_laterPart {position : Nat} (hposition : position ≠ 0) (expected : String)
    (hb : startsValue b = true) (h : Passes Ends scanner (b :: text) a) :
    Passes Ends (partAt position expected scanner) (0x2C :: b :: text) a := by
  unfold partAt
  rw [decide_eq_false hposition]
  exact (passes_hasNextItem hb).part.bind h.part fun _ _ ↦ ⟨_, rfl⟩

end Positions

end FramedRpc.Wire.Json
