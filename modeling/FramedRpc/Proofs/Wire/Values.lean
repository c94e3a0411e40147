import FramedRpc.Text.Utf8
import FramedRpc.Wire.Shape
import Mathlib.Algebra.Order.BigOperators.Group.List
import Mathlib.Algebra.Order.Group.Nat

/-!
# Values on a machine

A value fits if the lengths of all texts and lists in it are lengths on a machine. Where the items
of lists take bytes, a value fits if its bytes do: `Shape.leastLength` is a number of bytes below
which no binary encoding writes a value.
-/

namespace FramedRpc.Wire

/-- No length on a machine reaches this number. -/
def lengthEnd : Nat := 0x8000000000000000

mutual

/-- Whether all lengths in a value are lengths on a machine. -/
def Shape.Fits : (shape : Shape) → shape.Value → Prop
  | .unit, _ => True
  | .bool, _ => True
  | .unsigned _, _ => True
  | .signed _, _ => True
  | .text, s => (Utf8.encode s).length < lengthEnd
  | .list item, items => items.length < lengthEnd ∧ ∀ v ∈ items, item.Fits v
  | .optional item, v => ∀ w ∈ v, item.Fits w
  | .pair first second, (a, b) => first.Fits a ∧ second.Fits b
  | .record _ _ fields, values => fields.Fits values

def Fields.Fits : (fields : Fields) → fields.Values → Prop
  | .nil, _ => True
  | .cons _ shape rest, (v, values) => shape.Fits v ∧ rest.Fits values

end

mutual

def Shape.decidableFits : (shape : Shape) → (v : shape.Value) → Decidable (shape.Fits v)
  | .unit, _ => inferInstanceAs (Decidable True)
  | .bool, _ => inferInstanceAs (Decidable True)
  | .unsigned _, _ => inferInstanceAs (Decidable True)
  | .signed _, _ => inferInstanceAs (Decidable True)
  | .text, s => inferInstanceAs (Decidable ((Utf8.encode s).length < lengthEnd))
  | .list item, items =>
    have : DecidablePred item.Fits := item.decidableFits
    inferInstanceAs (Decidable (items.length < lengthEnd ∧ ∀ v ∈ items, item.Fits v))
  | .optional _, none => .isTrue fun _ h ↦ nomatch h
  | .optional item, some v =>
    have : Decidable (item.Fits v) := item.decidableFits v
    decidable_of_iff (item.Fits v) ⟨fun h _ hw ↦ Option.some.inj hw ▸ h, fun h ↦ h v rfl⟩
  | .pair first second, (a, b) =>
    have : Decidable (first.Fits a) := first.decidableFits a
    have : Decidable (second.Fits b) := second.decidableFits b
    inferInstanceAs (Decidable (first.Fits a ∧ second.Fits b))
  | .record _ _ fields, values => fields.decidableFits values

def Fields.decidableFits : (fields : Fields) → (values : fields.Values) →
    Decidable (fields.Fits values)
  | .nil, _ => inferInstanceAs (Decidable True)
  | .cons _ shape rest, (v, values) =>
    have : Decidable (shape.Fits v) := shape.decidableFits v
    have : Decidable (rest.Fits values) := rest.decidableFits values
    inferInstanceAs (Decidable (shape.Fits v ∧ rest.Fits values))

end

instance (shape : Shape) (v : shape.Value) : Decidable (shape.Fits v) := shape.decidableFits v

/-- Whether all lengths in a value of a type are lengths on a machine. -/
def HasShape.Fits {α : Type} [HasShape α] (a : α) : Prop :=
  (HasShape.shape α).Fits (HasShape.toValue a)

instance {α : Type} [HasShape α] (a : α) : Decidable (HasShape.Fits a) :=
  inferInstanceAs (Decidable ((HasShape.shape α).Fits (HasShape.toValue a)))

/-! ## How many bytes a value takes -/

mutual

/-- Whether every value of a shape takes bytes. -/
def Shape.takesBytes : Shape → Bool
  | .unit => false
  | .pair first second => first.takesBytes || second.takesBytes
  | .record _ _ fields => fields.takeBytes
  | _ => true

def Fields.takeBytes : Fields → Bool
  | .nil => false
  | .cons _ shape rest => shape.takesBytes || rest.takeBytes

end

mutual

/-- Whether the items of all lists in the values of a shape take bytes. -/
def Shape.isCounted : Shape → Bool
  | .list item => item.takesBytes && item.isCounted
  | .optional item => item.isCounted
  | .pair first second => first.isCounted && second.isCounted
  | .record _ _ fields => fields.areCounted
  | _ => true

def Fields.areCounted : Fields → Bool
  | .nil => true
  | .cons _ shape rest => shape.isCounted && rest.areCounted

end

mutual

/-- A number of bytes that a value takes at least. -/
def Shape.leastLength : (shape : Shape) → shape.Value → Nat
  | .unit, _ => 0
  | .bool, _ => 1
  | .unsigned _, _ => 1
  | .signed _, _ => 1
  | .text, s => 1 + (Utf8.encode s).length
  | .list item, items => 1 + (items.map fun v ↦ item.leastLength v).sum
  | .optional _, none => 1
  | .optional item, some v => 1 + item.leastLength v
  | .pair first second, (a, b) => first.leastLength a + second.leastLength b
  | .record _ _ fields, values => fields.leastLength values

def Fields.leastLength : (fields : Fields) → fields.Values → Nat
  | .nil, _ => 0
  | .cons _ shape rest, (v, values) => shape.leastLength v + rest.leastLength values

end

mutual

theorem Shape.leastLength_pos : ∀ (shape : Shape) (v : shape.Value), shape.takesBytes = true →
    0 < shape.leastLength v
  | .bool, _, _ => Nat.one_pos
  | .unsigned _, _, _ => Nat.one_pos
  | .signed _, _, _ => Nat.one_pos
  | .text, _, _ => Nat.add_pos_left Nat.one_pos _
  | .list _, _, _ => Nat.add_pos_left Nat.one_pos _
  | .optional _, none, _ => Nat.one_pos
  | .optional _, some _, _ => Nat.add_pos_left Nat.one_pos _
  | .pair first second, (a, b), h => by
    rcases Bool.or_eq_true_iff.mp h with hfirst | hsecond
    · exact Nat.add_pos_left (first.leastLength_pos a hfirst) _
    · exact Nat.add_pos_right _ (second.leastLength_pos b hsecond)
  | .record _ _ fields, values, h => fields.leastLength_pos values h

theorem Fields.leastLength_pos : ∀ (fields : Fields) (values : fields.Values),
    fields.takeBytes = true → 0 < fields.leastLength values
  | .cons _ shape rest, (v, values), h => by
    rcases Bool.or_eq_true_iff.mp h with hshape | hrest
    · exact Nat.add_pos_left (shape.leastLength_pos v hshape) _
    · exact Nat.add_pos_right _ (rest.leastLength_pos values hrest)

end

mutual

/-- A value of so few bytes that their number is a length on a machine fits. -/
theorem Shape.fits_of_leastLength_lt : ∀ (shape : Shape) (v : shape.Value),
    shape.isCounted = true → shape.leastLength v < lengthEnd → shape.Fits v
  | .unit, _, _, _ => trivial
  | .bool, _, _, _ => trivial
  | .unsigned _, _, _, _ => trivial
  | .signed _, _, _, _ => trivial
  | .text, _, _, h => Nat.lt_of_le_of_lt (Nat.le_add_left _ 1) h
  | .list item, items, hcounted, h => by
    obtain ⟨hbytes, hitem⟩ := Bool.and_eq_true_iff.mp hcounted
    have hsum : (items.map fun v ↦ item.leastLength v).sum < lengthEnd :=
      Nat.lt_of_le_of_lt (Nat.le_add_left _ 1) h
    have hlength : items.length ≤ (items.map fun v ↦ item.leastLength v).sum := by
      rw [← List.length_map]
      apply List.length_le_sum_of_one_le
      intro n hn
      obtain ⟨v, -, rfl⟩ := List.mem_map.mp hn
      exact item.leastLength_pos v hbytes
    refine ⟨Nat.lt_of_le_of_lt hlength hsum, fun v hv ↦ ?_⟩
    have hv : item.leastLength v ≤ (items.map fun v ↦ item.leastLength v).sum :=
      List.le_sum_of_mem (List.mem_map_of_mem hv)
    exact item.fits_of_leastLength_lt v hitem (Nat.lt_of_le_of_lt hv hsum)
  | .optional _, none, _, _ => fun _ hw ↦ nomatch hw
  | .optional item, some v, hcounted, h => by
    rintro w ⟨⟩
    exact item.fits_of_leastLength_lt v hcounted (Nat.lt_of_le_of_lt (Nat.le_add_left _ 1) h)
  | .pair first second, (a, b), hcounted, h => by
    obtain ⟨hfirst, hsecond⟩ := Bool.and_eq_true_iff.mp hcounted
    exact ⟨first.fits_of_leastLength_lt a hfirst (Nat.lt_of_le_of_lt (Nat.le_add_right _ _) h),
      second.fits_of_leastLength_lt b hsecond (Nat.lt_of_le_of_lt (Nat.le_add_left _ _) h)⟩
  | .record _ _ fields, values, hcounted, h => fields.fits_of_leastLength_lt values hcounted h

/-- Values of fields that take so few bytes fit. -/
theorem Fields.fits_of_leastLength_lt : ∀ (fields : Fields) (values : fields.Values),
    fields.areCounted = true → fields.leastLength values < lengthEnd → fields.Fits values
  | .nil, _, _, _ => trivial
  | .cons _ shape rest, (v, values), hcounted, h => by
    obtain ⟨hshape, hrest⟩ := Bool.and_eq_true_iff.mp hcounted
    exact ⟨shape.fits_of_leastLength_lt v hshape (Nat.lt_of_le_of_lt (Nat.le_add_right _ _) h),
      rest.fits_of_leastLength_lt values hrest (Nat.lt_of_le_of_lt (Nat.le_add_left _ _) h)⟩

end

/-! ## Integers -/

theorem Width.toNat_lt (width : Width) (n : width.Value) :
    width.toNat n < Nat.pow 2 width.bits := by
  cases width with
  | w8 => exact UInt8.toNat_lt n
  | w16 => exact UInt16.toNat_lt n
  | w32 => exact UInt32.toNat_lt n
  | w64 => exact UInt64.toNat_lt n

theorem Width.bytes_pos (width : Width) : 0 < width.bytes := by
  cases width <;> decide

theorem Width.bits_pos (width : Width) : 0 < width.bits := by
  cases width <;> decide

theorem Width.two_mul_half (width : Width) :
    2 * Nat.pow 2 (width.bits - 1) = Nat.pow 2 width.bits := by
  cases width <;> rfl

theorem Width.pow_bytes (width : Width) : Nat.pow 0x100 width.bytes = Nat.pow 2 width.bits := by
  cases width <;> rfl

theorem Width.toNat_lt_bytes (width : Width) (n : width.Value) :
    width.toNat n < Nat.pow 0x100 width.bytes := by
  rw [width.pow_bytes]
  exact width.toNat_lt n

@[simp]
theorem Width.fromNat_toNat (width : Width) (n : width.Value) :
    width.fromNat (width.toNat n) = n := by
  cases width with
  | w8 => exact UInt8.ofNat_toNat
  | w16 => exact UInt16.ofNat_toNat
  | w32 => exact UInt32.ofNat_toNat
  | w64 => exact UInt64.ofNat_toNat

@[simp]
theorem SignedWidth.fromInt_toInt (width : SignedWidth) (i : width.Value) :
    width.fromInt (width.toInt i) = i := by
  cases width with
  | w32 => exact Int32.ofInt_toInt i
  | w64 => exact Int64.ofInt_toInt i

/-- The range of a signed integer, whose half is a power of two. -/
theorem SignedWidth.toInt_range (width : SignedWidth) (i : width.Value) :
    -(Nat.pow 2 (width.unsigned.bits - 1) : Int) ≤ width.toInt i ∧
      width.toInt i < (Nat.pow 2 (width.unsigned.bits - 1) : Int) := by
  cases width with
  | w32 => exact ⟨Int32.le_toInt i, Int32.toInt_lt i⟩
  | w64 => exact ⟨Int64.le_toInt i, Int64.toInt_lt i⟩

end FramedRpc.Wire
