import FramedRpc.Proofs.Client.Correlation
import FramedRpc.Proofs.Client.Holding
import FramedRpc.Proofs.Client.Numbers

/-!
# One connection for each key

As long as nobody closes everything, all who ask for a connection for one key share the only one
that is active. It is held in the slot of the key, and a connection on its way out leads to the slot
in which it is held, so that once it has ended it is in none. A newer connection in that slot is
left there.
-/

namespace FramedRpc

/-- A connection in this stage can be held in a slot. On its way out it has found just that one. -/
def Connection.Stage.Leads (slot : SlotId) : Stage → Prop
  | .leaving _ found => found = some slot
  | .departed _ | .ended => False
  | _ => True

namespace Pool

variable {p q : Pool} {now : Nat} {event : Option Event} {id : ConnectionId}
  {keys : List ConnectionKey} {slot : SlotId} {c : Connection}

/-- The stages of all connections that are held lead to their slots. -/
def Led (p : Pool) : Prop :=
  ∀ id c slot, p.connection? id = some c → p.Held slot id → c.stage.Leads slot

theorem Effect.led (heffect : Effect p now event q) (hp : Ordered keys p)
    (hfresh : p.connection? p.nextId = none) (hsweeps : p.sweeps = []) (h : p.Led) : q.Led := by
  intro id d slot hd hheld
  rcases heffect.held_cases hheld with hold | ⟨rfl, get, g, rfl, hg, hphase⟩
  · have hleads {c : Connection} (hc : p.connection? id = some c) : c.stage.Leads slot :=
      h id c slot hc hold
    cases heffect.origin hd with
    | kept hc => exact hleads hc
    | established => trivial
    | moved hc hmoves =>
      have hbefore := hleads hc
      cases hmoves with
      | closed => exact hbefore
      | turned hserving hturns =>
        rcases hturns.stage with hsame | ⟨reason, hinactive⟩ | hbroken
        · exact hsame ▸ hbefore
        · rw [hinactive]
          trivial
        · rw [hbroken]
          trivial
      | deafened => trivial
      | finished hstage =>
        rw [hstage] at hbefore
        exact hbefore
    | searched hc => exact hp.lookup_of_held hsweeps hold hc
    | departed hc hstage =>
      have hfound := hleads hc
      rw [hstage] at hfound
      obtain rfl : _ = some slot := hfound
      exact absurd hheld (heffect.not_held_of_depart hc hstage)
    | told hc =>
      have hbefore := hleads hc
      exact hbefore
    | pushed r hc =>
      have hbefore := hleads hc
      exact hbefore
  · cases heffect.origin hd with
    | kept hc => cases hfresh.symm.trans hc
    | established => trivial

/-- What holds of a pool as long as there are numbers for new connections. -/
structure Regular (p : Pool) : Prop where
  ordered : ∃ keys, Ordered keys p
  sheltered : p.Sheltered
  led : p.sweeps = [] → p.Led

theorem regular_empty (config : ConnectionConfig) : (empty config).Regular where
  ordered := ⟨[], ordered_empty config⟩
  sheltered _ _ hc := by simp [connection?, empty] at hc
  led _ _ _ _ hc := by simp [connection?, empty] at hc

theorem Effect.regular (heffect : Effect p now event q) (hfresh : p.connection? p.nextId = none)
    (h : p.Regular) : q.Regular := by
  obtain ⟨keys, hp⟩ := h.ordered
  refine ⟨heffect.ordered hfresh hp, heffect.sheltered hp h.sheltered, fun hsweeps ↦ ?_⟩
  have hbefore := heffect.sweeps hsweeps
  exact heffect.led hp hfresh hbefore (h.led hbefore)

theorem connection?_of_mem (hnodup : (p.connections.map Connection.id).Nodup)
    (hc : c ∈ p.connections) : p.connection? c.id = some c := by
  cases hfound : p.connection? c.id with
  | none =>
    have hnone := List.find?_eq_none.mp hfound c hc
    simp at hnone
  | some found =>
    have hmem := List.mem_of_find?_eq_some hfound
    rw [List.inj_on_of_nodup_map hnodup hmem hc (id_of_connection? hfound)]

/-- What all who ask for a connection rely on. -/
structure Shared (p : Pool) : Prop where
  /-- Connections differ in their numbers. -/
  distinct : (p.connections.map Connection.id).Nodup
  /-- At most one connection for a key is active. -/
  single : ∀ c ∈ p.connections, ∀ d ∈ p.connections, c.isActive = true → d.isActive = true →
    c.key = d.key → c = d
  /-- Who gets a connection gets one for the key that was asked for. -/
  granted : ∀ g ∈ p.gets, ∀ id, g.phase = .done (.ok id) →
    ∃ c ∈ p.connections, c.id = id ∧ c.key = g.key

/-- An active connection is held in the slot that the table has for its key. -/
theorem Regular.exists_held (h : p.Regular) (hsweeps : p.sweeps = [])
    (hc : p.connection? id = some c) (hactive : c.isActive = true) :
    ∃ slot, p.table.lookup c.key = some slot ∧ p.Held slot id := by
  obtain ⟨keys, hp⟩ := h.ordered
  obtain ⟨slot, hheld⟩ := h.sheltered id c hc hactive (.inr hsweeps)
  exact ⟨slot, hp.lookup_of_held hsweeps hheld hc, hheld⟩

theorem Regular.shared (h : p.Regular) (hsweeps : p.sweeps = [])
    (hdistinct : (p.connections.map Connection.id).Nodup) : p.Shared where
  distinct := hdistinct
  single c hc d hd hactive hother hkey := by
    obtain ⟨keys, hp⟩ := h.ordered
    have hfirst := connection?_of_mem hdistinct hc
    have hsecond := connection?_of_mem hdistinct hd
    obtain ⟨slot, hslot, hheld⟩ := h.exists_held hsweeps hfirst hactive
    obtain ⟨target, htarget, hrival⟩ := h.exists_held hsweeps hsecond hother
    rw [hkey, htarget] at hslot
    obtain rfl := Option.some.inj hslot
    rw [hp.held_unique hheld hrival, hsecond] at hfirst
    exact (Option.some.inj hfirst).symm
  granted g hg id hphase := by
    obtain ⟨keys, hp⟩ := h.ordered
    have hkey := (hp.rightful g hg).owned id (by rw [hphase]; rfl)
    obtain ⟨c, hc, hsame⟩ := Option.map_eq_some_iff.mp hkey
    exact ⟨c, List.mem_of_find?_eq_some hc, id_of_connection? hc, hsame⟩

/-- The step of a connection leaves all others where they are. -/
theorem Effect.content?_of_connection {own : ConnectionEvent} {other : ConnectionId}
    (heffect : Effect p now (some (.connection id own)) q) (hother : other ≠ id)
    (h : p.content? slot = some other) : q.content? slot = some other := by
  cases heffect with
  | moved => exact h
  | searched => exact h
  | departed hc =>
    obtain rfl := id_of_connection? hc
    exact content?_clear_of_ne h hother _

end Pool

namespace Client

variable {config : ClientConfig} {events : List Event} {event : Event} {c d : Client}
  {id : ConnectionId}

theorem effect_of_pool {own : Pool.Event} (h : c.step (.pool own) = some d) :
    Pool.Effect c.pool c.now (some own) d.pool := by
  obtain ⟨-, -, h⟩ := Option.bind_eq_some_iff.mp h
  obtain ⟨pool, hpool, h⟩ := Option.bind_eq_some_iff.mp h
  obtain rfl := Option.some.inj h
  exact Pool.effect_of_step hpool

/-- After any steps of a client its connections are numbered, and as long as there are numbers all
is as it should be. -/
theorem regular_of_steps (h : (start config).steps events = some c) :
    c.pool.Numbered c.pool.connections.length ∧
      (c.pool.connections.length < UInt64.size → c.pool.Regular) := by
  have hnumbered : ∃ n, Pool.Numbered n c.pool ∧ (n < UInt64.size → c.pool.Regular) := by
    refine pool_induction (P := fun p ↦ ∃ n, Pool.Numbered n p ∧ (n < UInt64.size → p.Regular))
      ⟨0, Pool.numbered_empty _, fun _ ↦ Pool.regular_empty _⟩ ?_ h
    rintro p q now event ⟨n, hn, hregular⟩ heffect
    obtain ⟨m, hm, hq⟩ := heffect.numbered hn
    refine ⟨m, hq, fun hsize ↦ ?_⟩
    have hbefore := Nat.lt_of_le_of_lt hm hsize
    exact heffect.regular (hn.fresh hbefore) (hregular hbefore)
  obtain ⟨n, hn, hregular⟩ := hnumbered
  rw [hn.length]
  exact ⟨hn, hregular⟩

theorem sweeps_of_steps (h : (start config).steps events = some c)
    (hsweep : ∀ event ∈ events, event ≠ .pool .sweep) : c.pool.sweeps = [] := by
  revert hsweep
  refine steps_induction (P := fun events c ↦
    (∀ event ∈ events, event ≠ .pool .sweep) → c.pool.sweeps = []) (fun _ ↦ rfl) ?_ h
  intro events event c d _ hc hstep hsweep
  have hbefore := hc fun event hevent ↦ hsweep event (List.mem_append_left _ hevent)
  have hlast := hsweep event (List.mem_append_right _ List.mem_cons_self)
  rcases pool_of_step hstep with hsame | ⟨own, heffect, hown⟩
  · rw [hsame]
    exact hbefore
  · rcases heffect.sweeps_cases with hlength | ⟨rfl, -⟩
    · rw [hbefore] at hlength
      exact List.length_eq_zero_iff.mp hlength
    · rcases hown _ rfl with rfl | ⟨key, hkey⟩ | ⟨get, hget⟩
      · exact absurd rfl hlast
      · cases hkey
      · cases hget

/-- A connection that took its last step has ended. -/
theorem ended_of_steps (h : (start config).steps events = some c)
    (hfinish : .pool (.connection id .finish) ∈ events) : c.pool.Ended id := by
  revert hfinish
  refine steps_induction (P := fun events c ↦
    .pool (.connection id .finish) ∈ events → c.pool.Ended id) nofun ?_ h
  intro events event c d _ hc hstep hfinish
  rcases List.mem_append.mp hfinish with hold | hnew
  · rcases pool_of_step hstep with hsame | ⟨own, heffect, -⟩
    · rw [hsame]
      exact hc hold
    · exact heffect.ended (hc hold)
  · obtain rfl := List.mem_singleton.mp hnew
    exact (effect_of_pool hstep).ended_of_finish

/-- After any steps of a client in which nobody closes everything, and by which fewer connections
were established than there are numbers: connections differ in their numbers, at most one connection
for a key is active, and who got a connection got one for the key that was asked for. A connection
that took its last step is in no slot, and no connection takes another one out of a slot. -/
theorem one_connection_per_key (h : (start config).steps events = some c)
    (hsweep : ∀ event ∈ events, event ≠ .pool .sweep)
    (hnumbers : c.pool.connections.length < UInt64.size) :
    c.pool.Shared ∧
    (∀ id, .pool (.connection id .finish) ∈ events → ∀ slot, c.pool.content? slot ≠ some id) ∧
    (∀ id own d slot other, c.step (.pool (.connection id own)) = some d → other ≠ id →
      c.pool.content? slot = some other → d.pool.content? slot = some other) := by
  obtain ⟨hnumbered, hregular⟩ := regular_of_steps h
  have hregular := hregular hnumbers
  have hsweeps := sweeps_of_steps h hsweep
  refine ⟨hregular.shared hsweeps (hnumbered.nodup hnumbers), fun id hfinish slot hcontent ↦ ?_, ?_⟩
  · obtain ⟨connection, hconnection, hended⟩ := ended_of_steps h hfinish
    have hleads := hregular.led hsweeps id connection slot hconnection (.stored hcontent)
    rw [hended] at hleads
    exact hleads
  · exact fun id own d slot other hstep hother ↦
      (effect_of_pool hstep).content?_of_connection hother

/-- Two callers ask for one connection. The one that the first of them establishes is closed by its
peer before it is stored, so that the second caller throws it out again and connects anew, while the
closed connection waits for the slot. -/
def reconnectedEvents : List Event :=
  [.ask ⟨⟨"::1", 7000⟩, .json⟩, .ask ⟨⟨"::1", 7000⟩, .json⟩,
    .get 0 .find, .get 1 .find, .get 0 .lock, .get 0 .established,
    .connection 1 (.turn (.leave .closedByPeer)), .connection 1 .deafen, .connection 1 .search,
    .get 0 .store, .get 1 .lock, .get 1 .established, .get 1 .store,
    .connection 1 .depart, .connection 1 .finish].map .pool

theorem one_connection_reconnected : ∃ c, (start .standard).steps reconnectedEvents = some c ∧
    c.pool.content? 0 = some 2 ∧ c.pool.isActive 2 = true ∧ c.pool.Shared ∧
    ∀ slot, c.pool.content? slot ≠ some 1 := by
  have hend : ((start .standard).steps reconnectedEvents).map (fun c ↦
      (c.pool.content? 0, c.pool.isActive 2, c.pool.connections.length)) =
        some (some 2, true, 2) := by
    rfl
  obtain ⟨c, hc, hpool⟩ := Option.map_eq_some_iff.mp hend
  simp only [Prod.mk.injEq] at hpool
  obtain ⟨hcontent, hactive, hlength⟩ := hpool
  have hsweep : ∀ event ∈ reconnectedEvents, event ≠ .pool .sweep := by
    simp [reconnectedEvents]
  have hnumbers : c.pool.connections.length < UInt64.size := by
    rw [hlength]
    decide
  obtain ⟨hshared, hfinished, -⟩ := one_connection_per_key hc hsweep hnumbers
  exact ⟨c, hc, hcontent, hactive, hshared, hfinished 1 (by simp [reconnectedEvents])⟩

end Client

end FramedRpc
