import FramedRpc.Wire.Reader

/-!
# What readers take

A reader takes bytes as a value if it takes them off whatever follows them. Readers that take what
was written in this sense can be put one behind the other, so an encoding is read back part by part.
-/

namespace FramedRpc.Wire.Reader

variable {ε α β : Type}

/-- A reader takes these bytes off every input that begins with them, and gives this value. -/
def Takes (reader : Reader ε α) (bytes : List UInt8) (a : α) : Prop :=
  ∀ rest, reader (bytes ++ rest) = .ok (a, rest)

theorem Takes.pure (a : α) : Takes (pure a : Reader ε α) [] a := fun _ ↦ rfl

theorem Takes.bind {reader : Reader ε α} {next : α → Reader ε β} {front back : List UInt8} {a : α}
    {b : β} (hfront : Takes reader front a) (hback : Takes (next a) back b) :
    Takes (reader >>= next) (front ++ back) b := by
  intro rest
  show (reader (front ++ back ++ rest)).bind (fun s ↦ next s.1 s.2) = _
  rw [List.append_assoc, hfront (back ++ rest)]
  exact hback rest

theorem Takes.bind_nil {reader : Reader ε α} {next : α → Reader ε β} {bytes : List UInt8} {a : α}
    {b : β} (hfront : Takes reader bytes a) (hback : Takes (next a) [] b) :
    Takes (reader >>= next) bytes b := by
  have h := hfront.bind hback
  rwa [List.append_nil] at h

theorem Takes.map {reader : Reader ε α} {bytes : List UInt8} {a : α} (f : α → β)
    (h : Takes reader bytes a) : Takes (f <$> reader) bytes (f a) := by
  intro rest
  show (reader (bytes ++ rest)).map (fun s ↦ (f s.1, s.2)) = _
  rw [h rest]
  rfl

/-- Where nothing follows, the value alone is what counts. -/
theorem Takes.run' {reader : Reader ε α} {bytes : List UInt8} {a : α} (h : Takes reader bytes a) :
    reader.run' bytes = .ok a := by
  have hrun : reader bytes = .ok (a, []) := by simpa using h []
  show (reader bytes).map Prod.fst = _
  rw [hrun]
  rfl

theorem takes_byte (short : ε) (b : UInt8) : Takes (byte short) [b] b := fun _ ↦ rfl

theorem takes_bytes (short : ε) (content : List UInt8) :
    Takes (bytes short content.length) content content := by
  intro rest
  unfold bytes
  simp

theorem takes_itemsAfter {item : Reader ε α} {encode : α → List UInt8} {items done : List α}
    (hitem : ∀ a ∈ items, Takes item (encode a) a) :
    Takes (itemsAfter item done items.length) (items.flatMap encode) (done.reverse ++ items) := by
  induction items generalizing done with
  | nil =>
    rw [List.append_nil]
    exact Takes.pure done.reverse
  | cons a items ih =>
    have hrest : Takes (itemsAfter item (a :: done) items.length) (items.flatMap encode)
        ((a :: done).reverse ++ items) :=
      ih fun b hb ↦ hitem b (List.mem_cons_of_mem a hb)
    rw [List.reverse_cons, List.append_assoc] at hrest
    exact (hitem a List.mem_cons_self).bind hrest

/-- Items that are written one behind the other are read one after the other. -/
theorem takes_items {item : Reader ε α} {encode : α → List UInt8} {items : List α}
    (hitem : ∀ a ∈ items, Takes item (encode a) a) :
    Takes (Reader.items item items.length) (items.flatMap encode) items :=
  takes_itemsAfter hitem

end FramedRpc.Wire.Reader
