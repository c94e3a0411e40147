import FramedRpc.Proofs.Text.Utf8RoundTrip
import FramedRpc.Proofs.Wire.Reading
import FramedRpc.Proofs.Wire.Values
import FramedRpc.Wire.Postcard

/-!
# Reading back postcard

The bytes of a value of any shape are taken as that value. The groups of an integer are read onto
what the groups before them gave, in units that grow from group to group.
-/

namespace FramedRpc.Wire.Postcard

open Reader

@[simp]
theorem unzigzag_zigzag (i : Int) : unzigzag (zigzag i) = i := by
  unfold zigzag unzigzag
  by_cases hsign : 0 ≤ i
  · rw [if_pos hsign, if_pos (by omega)]
    omega
  · rw [if_neg hsign, if_neg (by omega)]
    omega

theorem zigzag_lt {half : Nat} {i : Int} (hlow : -(half : Int) ≤ i) (hhigh : i < half) :
    zigzag i < 2 * half := by
  unfold zigzag
  by_cases hsign : 0 ≤ i
  · rw [if_pos hsign]
    omega
  · rw [if_neg hsign]
    omega

/-- A group without the high bit ends a number. -/
theorem takes_lastGroup {lastLimit count n : Nat} (unit value : Nat) (hn : n < 0x80)
    (hlast : count = 0 → n ≤ lastLimit) :
    Takes (readGroups lastLimit unit value (count + 1)) [n.toUInt8] (value + unit * n) := by
  have hbyte : n.toUInt8.toNat = n := Utf8.toNat_toUInt8 (by omega)
  have hplain : n.toUInt8 < 0x80 := by
    rw [UInt8.lt_iff_toNat_lt, hbyte]
    exact hn
  refine (takes_byte Flaw.endOfInput n.toUInt8).bind_nil ?_
  simp only [if_pos hplain, hbyte, Nat.mod_eq_of_lt hn]
  rw [if_neg (by omega)]
  exact Takes.pure _

/-- The groups of a number that fits into them are read onto what was read before. -/
theorem takes_groups {lastLimit : Nat} (hlimit : lastLimit < 0x80) (count n unit value : Nat)
    (hn : n < Nat.pow 0x80 count * (lastLimit + 1)) :
    Takes (readGroups lastLimit unit value (count + 1)) (groups (count + 1) n)
      (value + unit * n) := by
  induction count generalizing n unit value with
  | zero =>
    have hfit : n ≤ lastLimit := by
      simpa [Nat.lt_succ_iff] using hn
    rw [groups, if_pos (show n < 0x80 by omega)]
    exact takes_lastGroup unit value (by omega) fun _ ↦ hfit
  | succ count ih =>
    by_cases hshort : n < 0x80
    · rw [groups, if_pos hshort]
      exact takes_lastGroup unit value hshort fun h ↦ by cases h
    · have hbyte : (n % 0x80 + 0x80).toUInt8.toNat = n % 0x80 + 0x80 :=
        Utf8.toNat_toUInt8 (by omega)
      have hmore : ¬ (n % 0x80 + 0x80).toUInt8 < 0x80 := by
        rw [UInt8.lt_iff_toNat_lt, hbyte]
        show ¬ n % 0x80 + 0x80 < 0x80
        omega
      have hrest : n / 0x80 < Nat.pow 0x80 count * (lastLimit + 1) := by
        rw [Nat.div_lt_iff_lt_mul (by decide)]
        calc n < Nat.pow 0x80 count * 0x80 * (lastLimit + 1) := hn
          _ = Nat.pow 0x80 count * (lastLimit + 1) * 0x80 := Nat.mul_right_comm _ _ _
      have hread := ih (n / 0x80) (unit * 0x80) (value + unit * (n % 0x80)) hrest
      have hvalue : value + unit * (n % 0x80) + unit * 0x80 * (n / 0x80) = value + unit * n := by
        rw [Nat.mul_assoc, Nat.add_assoc, ← Nat.mul_add, Nat.mod_add_div]
      rw [hvalue] at hread
      rw [groups, if_neg hshort]
      refine Takes.bind (takes_byte Flaw.endOfInput (n % 0x80 + 0x80).toUInt8) ?_
      simp only [if_neg hmore, hbyte, Nat.add_mod_right, Nat.mod_mod]
      exact hread

theorem takes_integer (width : Width) {n : Nat} (h : n < Nat.pow 2 width.bits) :
    Takes (readInteger width) (integer width n) n := by
  have hgroups (lastLimit count : Nat) (hlimit : lastLimit < 0x80)
      (hn : n < Nat.pow 0x80 count * (lastLimit + 1)) :
      Takes (readGroups lastLimit 1 0 (count + 1)) (groups (count + 1) n) n := by
    have hread := takes_groups hlimit count n 1 0 hn
    rwa [Nat.one_mul, Nat.zero_add] at hread
  cases width with
  | w8 =>
    have hread := (takes_byte Flaw.endOfInput n.toUInt8).map UInt8.toNat
    rw [Utf8.toNat_toUInt8 h] at hread
    exact hread
  | w16 => exact hgroups 3 2 (by decide) h
  | w32 => exact hgroups 15 4 (by decide) h
  | w64 => exact hgroups 1 9 (by decide) h

theorem takes_length {n : Nat} (h : n < lengthEnd) : Takes (readInteger .w64) (length n) n :=
  takes_integer .w64 (Nat.lt_trans h (by decide))

theorem takes_string {s : String} (h : (Utf8.encode s).length < lengthEnd) :
    Takes string (length (Utf8.encode s).length ++ Utf8.encode s) s := by
  refine (takes_length h).bind ((takes_bytes Flaw.endOfInput (Utf8.encode s)).bind_nil ?_)
  simp only [Utf8.decode_encode]
  exact Takes.pure s

mutual

/-- What is written for a value is read back as that value, and nothing more is taken. -/
theorem takes_encode : ∀ (shape : Shape) (v : shape.Value), shape.Fits v →
    Takes (decode shape) (encode shape v) v
  | .unit, _, _ => Takes.pure ()
  | .bool, b, _ => by
    cases b with
    | false => exact (takes_byte _ 0).bind_nil (Takes.pure false)
    | true => exact (takes_byte _ 1).bind_nil (Takes.pure true)
  | .unsigned width, n, _ => by
    have hread := (takes_integer width (width.toNat_lt n)).map width.fromNat
    rw [width.fromNat_toNat] at hread
    exact hread
  | .signed width, i, _ => by
    have hrange := zigzag_lt (width.toInt_range i).1 (width.toInt_range i).2
    rw [width.unsigned.two_mul_half] at hrange
    have hread := (takes_integer width.unsigned hrange).map fun n ↦ width.fromInt (unzigzag n)
    rw [unzigzag_zigzag, width.fromInt_toInt] at hread
    exact hread
  | .text, s, h => takes_string h
  | .list item, items, ⟨hlength, hitems⟩ => by
    have hitem : ∀ v ∈ items, Takes (decode item) (encode item v) v :=
      fun v hv ↦ takes_encode item v (hitems v hv)
    exact (takes_length hlength).bind (takes_items hitem)
  | .optional _, none, _ => (takes_byte _ 0).bind_nil (Takes.pure none)
  | .optional item, some v, h => by
    have hitem := (takes_encode item v (h v rfl)).map some
    exact (takes_byte Flaw.endOfInput 1).bind hitem
  | .pair first second, (a, b), ⟨ha, hb⟩ => by
    have hsecond := (takes_encode second b hb).map (Prod.mk a)
    exact (takes_encode first a ha).bind hsecond
  | .record _ _ fields, values, h => takes_encodeFields fields values h

/-- What is written for the fields of a record is read back as their values. -/
theorem takes_encodeFields : ∀ (fields : Fields) (values : fields.Values), fields.Fits values →
    Takes (decodeFields fields) (encodeFields fields values) values
  | .nil, _, _ => Takes.pure ()
  | .cons _ shape rest, (v, values), ⟨hv, hvalues⟩ => by
    have hrest := (takes_encodeFields rest values hvalues).map (Prod.mk v)
    exact (takes_encode shape v hv).bind hrest

end

/-! ## How many bytes are written -/

theorem length_groups_pos (count n : Nat) : 0 < (groups (count + 1) n).length := by
  unfold groups
  by_cases hshort : n < 0x80
  · rw [if_pos hshort]
    exact Nat.one_pos
  · rw [if_neg hshort]
    exact Nat.succ_pos _

theorem length_integer_pos (width : Width) (n : Nat) : 0 < (integer width n).length := by
  cases width with
  | w8 => exact Nat.one_pos
  | w16 => exact length_groups_pos 2 n
  | w32 => exact length_groups_pos 4 n
  | w64 => exact length_groups_pos 9 n

mutual

/-- A value is written in no less bytes than it takes at least. -/
theorem leastLength_le : ∀ (shape : Shape) (v : shape.Value),
    shape.leastLength v ≤ (encode shape v).length
  | .unit, _ => Nat.le_refl 0
  | .bool, _ => Nat.le_refl 1
  | .unsigned width, n => length_integer_pos width (width.toNat n)
  | .signed width, i => length_integer_pos width.unsigned (zigzag (width.toInt i))
  | .text, s => by
    show 1 + (Utf8.encode s).length ≤ (length _ ++ Utf8.encode s).length
    rw [List.length_append]
    exact Nat.add_le_add_right (length_integer_pos .w64 _) _
  | .list item, items => by
    have hsum : (items.map fun v ↦ item.leastLength v).sum ≤
        (items.map fun v ↦ (encode item v).length).sum :=
      List.sum_le_sum fun v _ ↦ leastLength_le item v
    have hlength : 1 ≤ (length items.length).length := length_integer_pos .w64 _
    calc 1 + (items.map fun v ↦ item.leastLength v).sum
      _ ≤ (length items.length).length + (items.map fun v ↦ (encode item v).length).sum :=
        Nat.add_le_add hlength hsum
      _ = (length items.length ++ items.flatMap fun v ↦ encode item v).length := by
        rw [List.length_append, List.length_flatMap]
  | .optional _, none => Nat.le_refl 1
  | .optional item, some v => by
    have hitem := leastLength_le item v
    show 1 + item.leastLength v ≤ (1 :: encode item v).length
    rw [List.length_cons]
    omega
  | .pair first second, (a, b) => by
    show first.leastLength a + second.leastLength b ≤ (encode first a ++ encode second b).length
    rw [List.length_append]
    exact Nat.add_le_add (leastLength_le first a) (leastLength_le second b)
  | .record _ _ fields, values => leastLength_le_fields fields values

/-- The fields of a record are written in no less bytes than their values take at least. -/
theorem leastLength_le_fields : ∀ (fields : Fields) (values : fields.Values),
    fields.leastLength values ≤ (encodeFields fields values).length
  | .nil, _ => Nat.le_refl 0
  | .cons _ shape rest, (v, values) => by
    show shape.leastLength v + rest.leastLength values ≤
      (encode shape v ++ encodeFields rest values).length
    rw [List.length_append]
    exact Nat.add_le_add (leastLength_le shape v) (leastLength_le_fields rest values)

end

end FramedRpc.Wire.Postcard
