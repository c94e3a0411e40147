import FramedRpc.Proofs.Client.Slots

/-!
# Numbers of connections

Connections are numbered in the order in which they are established, and differ in their numbers as
long as there are fewer than there are numbers. A number stands for one connection for good: what it
is made for stays the same, and once it has ended it stays so.
-/

namespace FramedRpc

namespace Pool

variable {p q : Pool} {now : Nat} {event : Option Event} {id : ConnectionId}
  {key : ConnectionKey} {n : Nat}

/-- The connections have the first numbers, beginning with one. -/
structure Numbered (n : Nat) (p : Pool) : Prop where
  ids : p.connections.map Connection.id = (List.range n).map fun i ↦ UInt64.ofNat (i + 1)
  next : p.nextId = UInt64.ofNat (n + 1)

theorem numbered_empty (config : ConnectionConfig) : Numbered 0 (empty config) := ⟨rfl, rfl⟩

theorem Numbered.length (h : Numbered n p) : p.connections.length = n := by
  have hlength := congrArg List.length h.ids
  simpa using hlength

theorem ofNat_inj {m n : Nat} (hm : m < UInt64.size) (hn : n < UInt64.size)
    (h : UInt64.ofNat m = UInt64.ofNat n) : m = n := by
  have htoNat := congrArg UInt64.toNat h
  rw [UInt64.toNat_ofNat_of_lt' hm, UInt64.toNat_ofNat_of_lt' hn] at htoNat
  exact htoNat

theorem Numbered.nodup (h : Numbered n p) (hn : n < UInt64.size) :
    (p.connections.map Connection.id).Nodup := by
  rw [h.ids]
  apply List.pairwise_map.mpr
  refine List.Pairwise.imp_of_mem (fun {i j} hi hj hne heq ↦ ?_) List.nodup_range
  rw [List.mem_range] at hi hj
  exact hne (Nat.succ.inj (ofNat_inj (by omega) (by omega) heq))

/-- The next number is free. -/
theorem Numbered.fresh (h : Numbered n p) (hn : n < UInt64.size) :
    p.connection? p.nextId = none := by
  rw [connection?, List.find?_eq_none]
  intro c hc hid
  have hmem : c.id ∈ p.connections.map Connection.id := List.mem_map_of_mem hc
  rw [h.ids, of_decide_eq_true hid, h.next] at hmem
  obtain ⟨i, hi, heq⟩ := List.mem_map.mp hmem
  rw [List.mem_range] at hi
  -- behind the last number comes zero, which is not one of the first numbers either
  rcases Nat.lt_or_ge (n + 1) UInt64.size with hlt | hge
  · have hsame := ofNat_inj (by omega) hlt heq
    omega
  · have hlast : n + 1 = UInt64.size := by omega
    have htoNat := congrArg UInt64.toNat heq
    rw [UInt64.toNat_ofNat_of_lt' (by omega), hlast] at htoNat
    cases htoNat

@[simp]
theorem map_id_setConnection (p : Pool) (c : Connection) :
    (p.setConnection c).connections.map Connection.id = p.connections.map Connection.id := by
  show (p.connections.map _).map Connection.id = _
  rw [List.map_map]
  apply List.map_congr_left
  intro other _
  by_cases hother : other.id = c.id <;> simp [hother]

/-- Only the numbers count. -/
theorem Numbered.congr (h : Numbered n p)
    (hids : q.connections.map Connection.id = p.connections.map Connection.id)
    (hnext : q.nextId = p.nextId) : Numbered n q :=
  ⟨hids.trans h.ids, hnext.trans h.next⟩

theorem Numbered.establish (h : Numbered n p) (now : Nat) (get : GetId) (key : ConnectionKey)
    (slot : SlotId) : Numbered (n + 1) (p.establish now get key slot) where
  ids := by
    show (p.connections ++ [_]).map Connection.id = _
    rw [List.map_append, h.ids, List.range_succ, List.map_append, List.map_singleton,
      List.map_singleton, ← h.next]
    rfl
  next := by
    show p.nextId + 1 = _
    rw [h.next]
    exact (UInt64.ofNat_add (n + 1) 1).symm

theorem Numbered.emptySlot (h : Numbered n p) (slot : SlotId) : Numbered n (p.emptySlot slot) := by
  unfold Pool.emptySlot
  split
  case h_1 => exact h.congr rfl rfl
  case h_2 => exact h.congr (map_id_setConnection (p.setContent slot none) _) rfl

/-- Every step keeps the numbers, or there is one more. -/
theorem Effect.numbered (heffect : Effect p now event q) (h : Numbered n p) :
    ∃ m ≥ n, Numbered m q := by
  cases heffect with
  | established => exact ⟨n + 1, Nat.le_succ n, h.establish _ _ _ _⟩
  | moved => exact ⟨n, Nat.le_refl n, h.congr (by simp) rfl⟩
  | searched => exact ⟨n, Nat.le_refl n, h.congr (by simp) rfl⟩
  | @departed id c reason found =>
    obtain ⟨slots, hslots⟩ := elim_clear p c.id found
    rw [hslots]
    exact ⟨n, Nat.le_refl n, h.congr (by simp) rfl⟩
  | @emptied sweep slot remaining =>
    have hsame : Numbered n { p with sweeps := p.sweeps.set sweep (remaining.erase slot) } :=
      h.congr rfl rfl
    exact ⟨n, Nat.le_refl n, hsame.emptySlot slot⟩
  | pushed => exact ⟨n, Nat.le_refl n, h.congr (by simp) rfl⟩
  | _ => exact ⟨n, Nat.le_refl n, h.congr rfl rfl⟩

/-- What a connection is made for stays the same. -/
theorem Effect.keyOf? (heffect : Effect p now event q) (h : p.keyOf? id = some key) :
    q.keyOf? id = some key := by
  cases heffect with
  | established => exact (thins_append p _ (p.nextId + 1)).key id key h
  | moved hc hmoves => exact (thins_setConnection hc hmoves.same.1 hmoves.same.2).key id key h
  | searched hc =>
    refine (thins_setConnection hc ?_ ?_).key id key h
    · rfl
    · rfl
  | departed hc => exact (thins_depart hc _ _).key id key h
  | emptied => exact (thins_empty p _ _ _).key id key h
  | pushed r hc =>
    refine (thins_setConnection hc ?_ ?_).key id key h
    · rfl
    · rfl
  | _ => exact h

/-- A connection that has ended stays so. -/
theorem Effect.ended (heffect : Effect p now event q) (h : p.Ended id) : q.Ended id := by
  obtain ⟨c, hc, hended⟩ := h
  have hkey := heffect.keyOf? (Option.map_eq_some_iff.mpr ⟨c, hc, rfl⟩)
  obtain ⟨d, hd, -⟩ := Option.map_eq_some_iff.mp hkey
  refine ⟨d, hd, ?_⟩
  have hstage {found : Connection} (hfound : p.connection? id = some found) :
      .ended = found.stage := by
    rw [← Option.some.inj (hc.symm.trans hfound), hended]
  cases heffect.origin hd with
  | kept hd => exact (hstage hd).symm
  | established _ _ _ hnone => cases hc.symm.trans hnone
  | moved hfound hmoves =>
    cases hmoves with
    | closed => exact (hstage hfound).symm
    | turned hserving => cases (hstage hfound).trans hserving
    | deafened hinactive => cases (hstage hfound).trans hinactive
    | finished => rfl
  | searched hfound hdeaf => cases (hstage hfound).trans hdeaf
  | departed hfound hleaving => cases (hstage hfound).trans hleaving
  | told hfound => exact (hstage hfound).symm
  | pushed r hfound => exact (hstage hfound).symm

/-- A connection that takes its last step has ended. -/
theorem Effect.ended_of_finish (heffect : Effect p now (some (.connection id .finish)) q) :
    q.Ended id := by
  cases heffect with
  | @moved _ c d _ hc hmoves =>
    have hended : d.stage = .ended := by
      cases hmoves
      rfl
    obtain rfl := id_of_connection? hc
    rw [← hmoves.same.1] at hc ⊢
    exact ⟨d, (connection?_setConnection hc d.id).trans (if_pos rfl), hended⟩

end Pool

end FramedRpc
