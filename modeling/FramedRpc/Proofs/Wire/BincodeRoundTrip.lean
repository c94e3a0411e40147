import FramedRpc.Proofs.Text.Utf8RoundTrip
import FramedRpc.Proofs.Wire.Reading
import FramedRpc.Proofs.Wire.Values
import FramedRpc.Wire.Bincode

/-!
# Reading back bincode

The bytes of a value of any shape are taken as that value.
-/

namespace FramedRpc.Wire.Bincode

open Reader

@[simp]
theorem length_littleEndian (size n : Nat) : (littleEndian size n).length = size := by
  induction size generalizing n with
  | zero => rfl
  | succ size ih => simp [littleEndian, ih]

theorem ofLittleEndian_littleEndian {size n : Nat} (h : n < Nat.pow 0x100 size) :
    ofLittleEndian (littleEndian size n) = n := by
  induction size generalizing n with
  | zero =>
    have hzero : n = 0 := by
      simpa using h
    rw [hzero]
    rfl
  | succ size ih =>
    have hrest : n / 0x100 < Nat.pow 0x100 size := by
      rw [Nat.div_lt_iff_lt_mul (by decide)]
      exact h
    show n.toUInt8.toNat + 0x100 * ofLittleEndian (littleEndian size (n / 0x100)) = n
    rw [ih hrest]
    simp only [Nat.toUInt8, UInt8.toNat_ofNat']
    omega

theorem takes_number {size n : Nat} (h : n < Nat.pow 0x100 size) :
    Takes (number size) (littleEndian size n) n := by
  have hbytes := takes_bytes Flaw.endOfInput (littleEndian size n)
  rw [length_littleEndian] at hbytes
  have hread := hbytes.map ofLittleEndian
  rw [ofLittleEndian_littleEndian h] at hread
  exact hread

theorem takes_length {n : Nat} (h : n < lengthEnd) : Takes (number 8) (length n) n :=
  takes_number (Nat.lt_trans h (by decide))

theorem takes_string {s : String} (h : (Utf8.encode s).length < lengthEnd) :
    Takes string (length (Utf8.encode s).length ++ Utf8.encode s) s := by
  refine (takes_length h).bind ((takes_bytes Flaw.endOfText (Utf8.encode s)).bind_nil ?_)
  simp only [Utf8.decode_encode]
  exact Takes.pure s

/-- The remainder of a signed integer tells which one it is. -/
theorem signedOf_emod {bits : Nat} (hbits : 0 < bits) {i : Int}
    (hlow : -(Nat.pow 2 (bits - 1) : Int) ≤ i) (hhigh : i < (Nat.pow 2 (bits - 1) : Int)) :
    signedOf bits (i % (Nat.pow 2 bits : Int)).toNat = i := by
  have hdouble : (Nat.pow 2 bits : Int) = 2 * (Nat.pow 2 (bits - 1) : Int) := by
    obtain ⟨k, rfl⟩ := Nat.exists_eq_succ_of_ne_zero (Nat.pos_iff_ne_zero.mp hbits)
    show ((2 ^ (k + 1) : Nat) : Int) = 2 * ((2 ^ k : Nat) : Int)
    rw [Nat.pow_succ]
    omega
  unfold signedOf
  generalize Nat.pow 2 bits = whole at hdouble
  generalize Nat.pow 2 (bits - 1) = half at hdouble hlow hhigh
  by_cases hsign : 0 ≤ i
  · have hmod : i % (whole : Int) = i := Int.emod_eq_of_lt hsign (by omega)
    rw [hmod, if_pos (by omega)]
    omega
  · have hmod : i % (whole : Int) = i + whole := by
      rw [← Int.add_emod_right, Int.emod_eq_of_lt (by omega) (by omega)]
    rw [hmod, if_neg (by omega)]
    omega

mutual

/-- What is written for a value is read back as that value, and nothing more is taken. -/
theorem takes_encode : ∀ (shape : Shape) (v : shape.Value), shape.Fits v →
    Takes (decode shape) (encode shape v) v
  | .unit, _, _ => Takes.pure ()
  | .bool, b, _ => by
    cases b with
    | false => exact (takes_byte _ 0).bind_nil (Takes.pure false)
    | true => exact (takes_byte _ 1).bind_nil (Takes.pure true)
  | .unsigned width, n, _ => by
    have hread := (takes_number (width.toNat_lt_bytes n)).map width.fromNat
    rw [width.fromNat_toNat] at hread
    exact hread
  | .signed width, i, _ => by
    have hbytes : (width.toInt i % Nat.pow 2 width.unsigned.bits).toNat <
        Nat.pow 0x100 width.unsigned.bytes := by
      rw [width.unsigned.pow_bytes]
      have hpos : (0 : Int) < Nat.pow 2 width.unsigned.bits :=
        Int.natCast_pos.mpr (Nat.pow_pos (by decide))
      exact (Int.toNat_lt (Int.emod_nonneg _ (Int.ne_of_gt hpos))).mpr (Int.emod_lt_of_pos _ hpos)
    have hvalue := signedOf_emod width.unsigned.bits_pos (width.toInt_range i).1
      (width.toInt_range i).2
    have hread := (takes_number hbytes).map fun n ↦
      width.fromInt (signedOf width.unsigned.bits n)
    rw [hvalue, width.fromInt_toInt] at hread
    exact hread
  | .text, s, h => takes_string h
  | .list item, items, ⟨hlength, hitems⟩ => by
    have hitem : ∀ v ∈ items, Takes (decode item) (encode item v) v :=
      fun v hv ↦ takes_encode item v (hitems v hv)
    exact (takes_length hlength).bind (takes_items hitem)
  | .optional _, none, _ => (takes_byte _ 0).bind_nil (Takes.pure none)
  | .optional item, some v, h => by
    have hitem := (takes_encode item v (h v rfl)).map some
    exact (takes_byte Flaw.endOfInput 1).bind hitem
  | .pair first second, (a, b), ⟨ha, hb⟩ => by
    have hsecond := (takes_encode second b hb).map (Prod.mk a)
    exact (takes_encode first a ha).bind hsecond
  | .record _ _ fields, values, h => takes_encodeFields fields values h

/-- What is written for the fields of a record is read back as their values. -/
theorem takes_encodeFields : ∀ (fields : Fields) (values : fields.Values), fields.Fits values →
    Takes (decodeFields fields) (encodeFields fields values) values
  | .nil, _, _ => Takes.pure ()
  | .cons _ shape rest, (v, values), ⟨hv, hvalues⟩ => by
    have hrest := (takes_encodeFields rest values hvalues).map (Prod.mk v)
    exact (takes_encode shape v hv).bind hrest

end

/-! ## How many bytes are written -/

mutual

/-- A value is written in no less bytes than it takes at least. -/
theorem leastLength_le : ∀ (shape : Shape) (v : shape.Value),
    shape.leastLength v ≤ (encode shape v).length
  | .unit, _ => Nat.le_refl 0
  | .bool, _ => Nat.le_refl 1
  | .unsigned width, n => by
    show 1 ≤ (littleEndian width.bytes (width.toNat n)).length
    rw [length_littleEndian]
    exact width.bytes_pos
  | .signed width, i => by
    show 1 ≤ (littleEndian width.unsigned.bytes _).length
    rw [length_littleEndian]
    exact width.unsigned.bytes_pos
  | .text, s => by
    show 1 + (Utf8.encode s).length ≤ (length _ ++ Utf8.encode s).length
    simp only [length, List.length_append, length_littleEndian]
    omega
  | .list item, items => by
    have hsum : (items.map fun v ↦ item.leastLength v).sum ≤
        (items.map fun v ↦ (encode item v).length).sum :=
      List.sum_le_sum fun v _ ↦ leastLength_le item v
    have hlength : 1 ≤ (length items.length).length := by
      simp [length]
    calc 1 + (items.map fun v ↦ item.leastLength v).sum
      _ ≤ (length items.length).length + (items.map fun v ↦ (encode item v).length).sum :=
        Nat.add_le_add hlength hsum
      _ = (length items.length ++ items.flatMap fun v ↦ encode item v).length := by
        rw [List.length_append, List.length_flatMap]
  | .optional _, none => Nat.le_refl 1
  | .optional item, some v => by
    have hitem := leastLength_le item v
    show 1 + item.leastLength v ≤ (1 :: encode item v).length
    rw [List.length_cons]
    omega
  | .pair first second, (a, b) => by
    show first.leastLength a + second.leastLength b ≤ (encode first a ++ encode second b).length
    rw [List.length_append]
    exact Nat.add_le_add (leastLength_le first a) (leastLength_le second b)
  | .record _ _ fields, values => leastLength_le_fields fields values

/-- The fields of a record are written in no less bytes than their values take at least. -/
theorem leastLength_le_fields : ∀ (fields : Fields) (values : fields.Values),
    fields.leastLength values ≤ (encodeFields fields values).length
  | .nil, _ => Nat.le_refl 0
  | .cons _ shape rest, (v, values) => by
    show shape.leastLength v + rest.leastLength values ≤
      (encode shape v ++ encodeFields rest values).length
    rw [List.length_append]
    exact Nat.add_le_add (leastLength_le shape v) (leastLength_le_fields rest values)

end

end FramedRpc.Wire.Bincode
