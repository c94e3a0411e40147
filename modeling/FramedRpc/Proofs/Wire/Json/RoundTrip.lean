import FramedRpc.Proofs.Wire.Json.Parts

/-!
# Reading back JSON

The text of a value is read as that value if no two values of its shape have one text. Fields are
found by their names, which therefore have to be distinct, and an absent value is told from others
by `null`.
-/

namespace FramedRpc.Wire

def Fields.names : Fields → List String
  | .nil => []
  | .cons name _ rest => name :: rest.names

mutual

/-- Whether no two values of a shape have one text: where a value may be absent it is not `null`
itself, and the names of the fields of a record are distinct. -/
def Shape.isLossless : Shape → Bool
  | .list item => item.isLossless
  | .optional item => !item.isNullable && item.isLossless
  | .pair first second => first.isLossless && second.isLossless
  | .record _ _ fields => fields.areLossless
  | _ => true

def Fields.areLossless : Fields → Bool
  | .nil => true
  | .cons name shape rest => !rest.names.contains name && shape.isLossless && rest.areLossless

end

/-- The slots of a record that was read as a whole. -/
def Fields.filled : (fields : Fields) → fields.Values → fields.Slots
  | .nil, _ => ()
  | .cons _ _ rest, (v, values) => (some v, rest.filled values)

end FramedRpc.Wire

namespace FramedRpc.Wire.Json
open Scanner

def memberList : (fields : Fields) → fields.Values → List (String × List UInt8)
  | .nil, _ => []
  | .cons name shape rest, (v, values) => (name, encode shape v) :: memberList rest values

theorem encodeMembers_eq (fields : Fields) (values : fields.Values) :
    encodeMembers fields values = (memberList fields values).map memberText := by
  induction fields, values using memberList.induct with
  | case1 => rfl
  | case2 name shape rest v values ih =>
    rw [encodeMembers, ih]
    rfl

@[simp]
theorem complete_filled (fields : Fields) (values : fields.Values) :
    complete fields (fields.filled values) = pure values := by
  induction fields, values using memberList.induct with
  | case1 => rfl
  | case2 name shape rest v values ih =>
    rw [Fields.filled, complete, ih]
    rfl

theorem names_of_mem {fields : Fields} {values : fields.Values} {m : String × List UInt8}
    (h : m ∈ memberList fields values) : m.1 ∈ fields.names := by
  induction fields, values using memberList.induct with
  | case1 => cases h
  | case2 name shape rest v values ih =>
    rcases List.mem_cons.mp h with rfl | h
    · exact List.mem_cons_self
    · exact List.mem_cons_of_mem _ (ih h)

/-- Members of other names are left to the other fields. -/
theorem Chain.lift {fields : Fields} {name : String} {shape : Shape} (slot : Option shape.Value)
    {a b : fields.Slots} {list : List (String × List UInt8)}
    (h : Chain (readMember fields) a list b) (hname : ∀ m ∈ list, m.1 ≠ name) :
    Chain (readMember (.cons name shape fields)) (slot, a) list (slot, b) := by
  induction h with
  | nil a => exact .nil (slot, a)
  | @cons a b c key value rest hmember _ ih =>
    refine .cons ?_ (ih fun m hm ↦ hname m (List.mem_cons_of_mem _ hm))
    have hne : key ≠ name := hname (key, value) List.mem_cons_self
    rw [readMember, if_neg hne]
    exact hmember.map (Prod.mk slot)

/-! ## Values made of others -/

section

variable {item first second : Shape}

theorem exists_startsValue (shape : Shape) (v : shape.Value) :
    ∃ b more, encode shape v = b :: more ∧ startsValue b = true := by
  obtain ⟨b, more, hbytes, hb, -⟩ := exists_encode shape v
  exact ⟨b, more, hbytes, hb⟩

theorem passes_list {values : List item.Value}
    (hitem : ∀ v ∈ values, Passes Ends (read item) (encode item v) v) :
    Passes Ends (read (.list item)) (encode (.list item) values) values := by
  have hstart : ∀ v ∈ values, ∃ b more, encode item v = b :: more ∧ startsValue b = true :=
    fun v _ ↦ exists_startsValue item v
  have hnonempty : ∀ part ∈ values.map (encode item), part ≠ [] := by
    intro part hpart
    obtain ⟨v, hv, rfl⟩ := List.mem_map.mp hpart
    obtain ⟨b, more, hbytes, -⟩ := hstart v hv
    rw [hbytes]
    exact List.cons_ne_nil b more
  have hparts : Passes (Next 0x5D) (part (do items (read item) (← get).rest []))
      (commaSeparated (values.map (encode item))) values := by
    refine Passes.part (passes_get fun c rest hc hrest ↦ passes_items hitem hstart ?_)
    have hrounds := length_lt_rest hnonempty hc hrest
    rwa [List.length_map] at hrounds
  exact (looks_peekValue rfl).bind (passes_advance.andThen
    (hparts.closing listEnd_eq).anywhere)

theorem passes_some {v : item.Value} (hnullable : item.isNullable = false)
    (h : Passes Ends (read item) (encode item v) v) :
    Passes Ends (read (.optional item)) (encode (.optional item) (some v)) (some v) := by
  obtain ⟨b, more, hbytes, hb, hnull⟩ := exists_encode item v
  have hread := h.map some
  have hne : b ≠ 0x6E := fun hb ↦ Bool.false_ne_true (hnullable.symm.trans (hnull hb))
  show Passes Ends (read (.optional item)) (encode item v) (some v)
  rw [hbytes] at hread ⊢
  refine (looks_peekToken? (isBlank_of_startsValue hb)).bind ?_
  split
  case h_1 h => exact absurd (Option.some.inj h) hne
  case h_2 => exact hread

/-- The two parts of a pair, with the comma between them. -/
theorem passes_pairParts {a : first.Value} {b : second.Value}
    (ha : Passes Ends (read first) (encode first a) a)
    (hb : Passes Ends (read second) (encode second b) b) :
    Passes (Next 0x5D) (do
      let a ← partAt 0 "a tuple of size 2" (read first)
      let b ← partAt 1 "a tuple of size 2" (read second)
      return (a, b)) (encode first a ++ 0x2C :: encode second b) (a, b) := by
  obtain ⟨x, more, hx, hxstart⟩ := exists_startsValue first a
  obtain ⟨y, others, hy, hystart⟩ := exists_startsValue second b
  rw [hx] at ha ⊢
  rw [hy] at hb ⊢
  have hseparated : ∀ rest, Next 0x5D rest → Ends ((0x2C :: y :: others) ++ rest) :=
    fun _ _ ↦ by
      rintro b ⟨⟩
      exact .inl rfl
  have hclosed : ∀ rest, Next 0x5D rest → Ends rest := fun _ ↦ ends_moreParts (.inl rfl) []
  have hlater := passes_laterPart Nat.one_ne_zero "a tuple of size 2" hystart hb
  exact (passes_firstPart "a tuple of size 2" hxstart ha).bind
    ((hlater.mono hclosed).bind_nil (Passes.pure (a, b))) hseparated

theorem passes_pair {a : first.Value} {b : second.Value}
    (ha : Passes Ends (read first) (encode first a) a)
    (hb : Passes Ends (read second) (encode second b) b) :
    Passes Ends (read (.pair first second)) (encode (.pair first second) (a, b)) (a, b) :=
  (looks_peekValue rfl).bind (passes_advance.andThen
    ((passes_pairParts ha hb).closing listEnd_eq).anywhere)

theorem passes_record {scope name : String} {fields : Fields} {values : fields.Values}
    (hchain : Chain (readMember fields) fields.noSlots (memberList fields values)
      (fields.filled values)) :
    Passes Ends (read (.record scope name fields)) (encode (.record scope name fields) values)
      values := by
  have hnonempty : ∀ part ∈ encodeMembers fields values, part ≠ [] := by
    rw [encodeMembers_eq]
    intro part hpart
    obtain ⟨m, -, rfl⟩ := List.mem_map.mp hpart
    exact List.cons_ne_nil _ _
  have hmembers : Passes (Next 0x7D) (do
      let slots ← members (readMember fields) (← get).rest true fields.noSlots
      complete fields slots) (commaSeparated (encodeMembers fields values)) values := by
    refine passes_get fun c rest hc hrest ↦ ?_
    have hrounds := length_lt_rest hnonempty hc hrest
    rw [encodeMembers_eq] at hrounds ⊢
    rw [List.length_map] at hrounds
    refine (passes_members hchain hrounds).bind_nil ?_
    rw [complete_filled]
    exact Passes.pure values
  exact (looks_peekValue rfl).bind (passes_advance.andThen
    (hmembers.closing objectEnd_eq).anywhere)

end

/-! ## All values -/

mutual

/-- The text of a value is passed as that value, where what follows ends a value. -/
theorem passes_read : ∀ (shape : Shape) (v : shape.Value), shape.isLossless = true →
    Passes Ends (read shape) (encode shape v) v
  | .unit, _, _ =>
    (looks_peekValue rfl).bind (passes_advance.andThen (passes_word _).anywhere)
  | .bool, true, _ =>
    (looks_peekValue rfl).bind (passes_advance.andThen
      ((passes_word _).anywhere.bind_nil (Passes.pure true)))
  | .bool, false, _ =>
    (looks_peekValue rfl).bind (passes_advance.andThen
      ((passes_word _).anywhere.bind_nil (Passes.pure false)))
  | .unsigned width, n, _ => passes_unsigned width n
  | .signed width, i, _ => passes_signed width i
  | .text, s, _ => (passes_string s).anywhere
  | .list item, _, h => passes_list fun v _ ↦ passes_read item v h
  | .optional item, none, _ =>
    (looks_peekToken? rfl).bind (passes_advance.andThen
      ((passes_word _).anywhere.bind_nil (Passes.pure none)))
  | .optional item, some v, h => by
    obtain ⟨hnullable, hitem⟩ := Bool.and_eq_true_iff.mp h
    exact passes_some ((Bool.not_eq_true' _).mp hnullable) (passes_read item v hitem)
  | .pair first second, (a, b), h => by
    obtain ⟨hfirst, hsecond⟩ := Bool.and_eq_true_iff.mp h
    exact passes_pair (passes_read first a hfirst) (passes_read second b hsecond)
  | .record _ _ fields, values, h => passes_record (chain_readMember fields values h)

theorem chain_readMember : ∀ (fields : Fields) (values : fields.Values), fields.areLossless = true →
    Chain (readMember fields) fields.noSlots (memberList fields values) (fields.filled values)
  | .nil, _, _ => .nil ()
  | .cons name shape rest, (v, values), h => by
    simp only [Fields.areLossless, Bool.and_eq_true, Bool.not_eq_true', List.contains_eq_mem,
      decide_eq_false_iff_not] at h
    obtain ⟨⟨hname, hshape⟩, hrest⟩ := h
    have hvalue := (passes_read shape v hshape).part
    refine .cons ?_ ((chain_readMember rest values hrest).lift (some v) ?_)
    · show Passes Ends (readMember (.cons name shape rest) name (none, rest.noSlots)) _ _
      rw [readMember, if_pos rfl]
      exact (passes_colon.part).andThen (hvalue.bind_nil (Passes.pure _))
    · intro m hm heq
      exact hname (heq ▸ names_of_mem hm)

end

/-- Nothing follows the text of a value. -/
theorem endOfText_run' {c : Cursor} (hc : c.rest = []) : endOfText.run' c = .ok () := by
  have hskip : c.skipBlanks.peek? = none := by
    rw [Cursor.skipBlanks, hc, Cursor.peek?]
    rfl
  have htoken : peekToken? c = .ok (none, c.skipBlanks) := by
    show Except.ok (c.skipBlanks.peek?, c.skipBlanks) = _
    rw [hskip]
  show Prod.fst <$> endOfText c = _
  rw [endOfText, bind_eq htoken]
  rfl

/-- The text of a value is read as that value. -/
theorem decode_encode (shape : Shape) (v : shape.Value) (h : shape.isLossless = true) :
    decode shape (encode shape v) = .ok v := by
  obtain ⟨c, hread, hc⟩ := passes_read shape v h (.start (encode shape v)) []
    (List.append_nil _).symm (fun b hb ↦ by cases hb)
  unfold decode
  rw [hread]
  show (endOfText.run' c).bind _ = _
  rw [endOfText_run' hc]
  rfl

end FramedRpc.Wire.Json
