import FramedRpc.Proofs.Client.Entries
import FramedRpc.Proofs.Client.Sharing

/-!
# Closing everything

Who closes everything makes the pool forget all slots and empties them afterwards. A caller that
locks such a slot before it is emptied stores a connection in it which is then asked to end. One
that locks it later does not: its connection strays in a slot that nobody knows. Whenever nobody who
asks for a connection or closes everything is on the way, all other active connections that are not
asked to end are found in the slots of their keys.
-/

namespace FramedRpc

namespace Pool

variable {p q : Pool} {now : Nat} {event : Option Event} {id : ConnectionId}
  {slot : SlotId} {key : ConnectionKey}

/-- The pool knows a slot, or somebody who closes everything has still to empty it. -/
def Tracked (p : Pool) (slot : SlotId) : Prop :=
  (∃ key, (key, slot) ∈ p.table) ∨ ∃ remaining ∈ p.sweeps, slot ∈ remaining

/-- A slot in which a connection is held is not lost sight of. -/
theorem Effect.tracked (heffect : Effect p now event q) (h : p.Tracked slot)
    (hheld : q.Held slot id) : q.Tracked slot := by
  have hempty (sweep : SweepId) (target : SlotId) (hevent : event = some (.empty sweep target)) :
      slot ≠ target := by
    rintro rfl
    subst hevent
    exact heffect.not_held_of_empty hheld
  cases heffect with
  | opened => exact h.imp_left fun ⟨key, hkey⟩ ↦ ⟨key, List.mem_append_left _ hkey⟩
  | @departed id c reason found =>
    obtain ⟨slots, hslots⟩ := elim_clear p c.id found
    rw [hslots]
    exact h
  | swept =>
    rcases h with ⟨key, hkey⟩ | ⟨remaining, hremaining, hslot⟩
    · exact .inr ⟨_, List.mem_append_right _ List.mem_cons_self, List.mem_map_of_mem hkey⟩
    · exact .inr ⟨remaining, List.mem_append_left _ hremaining, hslot⟩
  | @emptied sweep target remaining hsweep =>
    obtain ⟨slots, connections, hslots⟩ :=
      emptySlot_eq { p with sweeps := p.sweeps.set sweep (remaining.erase target) } target
    rw [hslots]
    refine h.imp_right fun ⟨others, hothers, hslot⟩ ↦ ?_
    obtain ⟨i, hi⟩ := List.mem_iff_getElem?.mp hothers
    have hset := getElem?_set_of_some hsweep (remaining.erase target) i
    by_cases hsame : sweep = i
    · rw [if_pos hsame] at hset
      subst hsame
      obtain rfl := Option.some.inj (hsweep.symm.trans hi)
      exact ⟨_, List.mem_of_getElem? hset,
        (List.mem_erase_of_ne (hempty sweep target rfl)).mpr hslot⟩
    · rw [if_neg hsame] at hset
      exact ⟨others, List.mem_of_getElem? (hset.trans hi), hslot⟩
  | _ => exact h

/-- Nobody who asks for a connection and nobody who closes everything is on the way. -/
structure AtRest (p : Pool) : Prop where
  gets : ∀ g ∈ p.gets, (∃ result, g.phase = .done result) ∨ g.phase = .cancelled
  sweeps : ∀ remaining ∈ p.sweeps, remaining = []

theorem AtRest.isFree (h : p.AtRest) (slot : SlotId) : p.isFree slot = true := by
  refine isFree_iff.mpr fun g hg hlocked ↦ ?_
  rcases h.gets g hg with ⟨result, hdone⟩ | hcancelled
  · rw [hdone] at hlocked
    cases hlocked
  · rw [hcancelled] at hlocked
    cases hlocked

theorem AtRest.stored (h : p.AtRest) (hheld : p.Held slot id) : p.content? slot = some id := by
  cases hheld with
  | stored hcontent => exact hcontent
  | coming hg hphase =>
    have hlocked := isFree_iff.mp (h.isFree slot) _ hg
    rw [hphase] at hlocked
    exact absurd rfl hlocked

theorem AtRest.known (h : p.AtRest) (htracked : p.Tracked slot) : ∃ key, (key, slot) ∈ p.table := by
  refine htracked.resolve_right fun ⟨remaining, hremaining, hslot⟩ ↦ ?_
  rw [h.sweeps remaining hremaining] at hslot
  exact List.not_mem_nil hslot

/-- The steps of a caller who finds an active connection in the slot of its key. -/
theorem AtRest.reuse (h : p.AtRest) (now : Nat) (hslot : p.table.lookup key = some slot)
    (hcontent : p.content? slot = some id) (hactive : p.isActive id = true) :
    ∃ asked waiting granted, p.step now (.ask key) = some asked ∧
      asked.step now (.get p.gets.length .find) = some waiting ∧
      waiting.step now (.get p.gets.length .lock) = some granted ∧
      granted.gets[p.gets.length]? = some ⟨key, .done (.ok id)⟩ := by
  let asked : Pool := { p with gets := p.gets ++ [⟨key, .asking⟩] }
  have hget : asked.gets[p.gets.length]? = some ⟨key, .asking⟩ := List.getElem?_concat_length
  let waiting := asked.setPhase p.gets.length (.waiting slot)
  have hwaiting : waiting.gets[p.gets.length]? = some ⟨key, .waiting slot⟩ :=
    (getElem?_setPhase hget _ _).trans (if_pos rfl)
  have hfree : waiting.isFree slot = true := by
    refine isFree_iff.mpr fun g hg ↦ ?_
    rcases mem_gets_setPhase hget hg with rfl | hold
    · nofun
    · rcases List.mem_append.mp hold with hold | hnew
      · exact isFree_iff.mp (h.isFree slot) g hold
      · obtain rfl := List.mem_singleton.mp hnew
        nofun
  refine ⟨asked, waiting, waiting.setPhase p.gets.length (.done (.ok id)), rfl, ?_, ?_,
    (getElem?_setPhase hwaiting _ _).trans (if_pos rfl)⟩
  · show (asked.gets[p.gets.length]?).bind _ = _
    rw [hget]
    have hfound : asked.slotFor key = (slot, asked) := by
      rw [slotFor, hslot]
    show some ((asked.slotFor key).2.setPhase _ (.waiting (asked.slotFor key).1)) = _
    rw [hfound]
  · show (waiting.gets[p.gets.length]?).bind _ = _
    rw [hwaiting]
    have hlock : waiting.lock p.gets.length slot =
        waiting.setPhase p.gets.length (.done (.ok id)) := by
      have hsame : waiting.content? slot = some id := hcontent
      rw [lock, hsame]
      exact if_pos hactive
    show (if waiting.isFree slot = true then some (waiting.lock p.gets.length slot) else none) = _
    rw [if_pos hfree, hlock]

/-- A connection is known, and while it is active and not asked to end it is held in one of the
first slots, which the table does not have any more but which is tracked. -/
structure Watched (n : Nat) (id : ConnectionId) (p : Pool) : Prop where
  known : (p.keyOf? id).isSome = true
  length : n ≤ p.slots.length
  table : ∀ key slot, (key, slot) ∈ p.table → n ≤ slot
  held : ∀ c, p.connection? id = some c → c.isActive = true → c.told = false →
    ∃ slot < n, p.Held slot id ∧ p.Tracked slot

theorem watched_sweep {c : Connection} (hc : p.connection? id = some c)
    (hlength : slot < p.slots.length) (hslot : (key, slot) ∈ p.table)
    (hcontent : p.content? slot = some id) : Watched p.slots.length id
      { p with table := [], sweeps := p.sweeps ++ [p.table.map Prod.snd] } where
  known := by
    show (p.keyOf? id).isSome = true
    rw [keyOf?, hc]
    rfl
  length := Nat.le_refl _
  table := nofun
  held _ _ _ _ := ⟨slot, hlength, .stored hcontent,
    .inr ⟨_, List.mem_append_right _ List.mem_cons_self, List.mem_map_of_mem hslot⟩⟩

/-- Slots are only added, and in the table at the end. -/
theorem Effect.slots {n : Nat} (heffect : Effect p now event q) (hlength : n ≤ p.slots.length)
    (htable : ∀ key slot, (key, slot) ∈ p.table → n ≤ slot) :
    n ≤ q.slots.length ∧ ∀ key slot, (key, slot) ∈ q.table → n ≤ slot := by
  have hthins (hthins : Thins p q) :
      n ≤ q.slots.length ∧ ∀ key slot, (key, slot) ∈ q.table → n ≤ slot := by
    rw [hthins.length, hthins.table]
    exact ⟨hlength, htable⟩
  cases heffect with
  | @opened get g =>
    refine ⟨?_, fun key slot hslot ↦ ?_⟩
    · show n ≤ (p.slots ++ [none]).length
      rw [List.length_append]
      exact Nat.le_add_right_of_le hlength
    · rcases List.mem_append.mp hslot with hold | hnew
      · exact htable key slot hold
      · obtain ⟨-, rfl⟩ := Prod.mk.inj (List.mem_singleton.mp hnew)
        exact hlength
  | locked => exact ⟨Nat.le_trans hlength (Nat.le_of_eq List.length_set.symm), htable⟩
  | stored => exact ⟨Nat.le_trans hlength (Nat.le_of_eq List.length_set.symm), htable⟩
  | departed hc => exact hthins (thins_depart hc _ _)
  | swept => exact ⟨hlength, nofun⟩
  | emptied => exact hthins (thins_empty p _ _ _)
  | _ => exact ⟨hlength, htable⟩

theorem Effect.watched {n : Nat} {keys : List ConnectionKey} (heffect : Effect p now event q)
    (hp : Ordered keys p) (hfresh : p.connection? p.nextId = none) (h : Watched n id p) :
    Watched n id q := by
  obtain ⟨key, hkey⟩ := Option.isSome_iff_exists.mp h.known
  obtain ⟨hlength, htable⟩ := heffect.slots h.length h.table
  refine ⟨Option.isSome_iff_exists.mpr ⟨key, heffect.keyOf? hkey⟩, hlength, htable, ?_⟩
  intro d hd hactive huntold
  rcases heffect.active_cases hp hd hactive (.inl huntold) with
    ⟨_, _, _, _, _, _, rfl, _⟩ | ⟨c, hc, hbefore, hasked, hstays⟩
  · rw [Pool.keyOf?, hfresh] at hkey
    cases hkey
  · obtain ⟨slot, hslot, hheld, htracked⟩ := h.held c hc hbefore (hasked huntold)
    have hheld := hstays slot hheld
    exact ⟨slot, hslot, hheld, heffect.tracked htracked hheld⟩

/-- A slot that is watched is not lost sight of before its connection is asked to end. -/
theorem Watched.told {n : Nat} {c : Connection} (h : Watched n id p) (hrest : p.AtRest)
    (hc : p.connection? id = some c) (hactive : c.isActive = true) : c.told = true := by
  by_contra huntold
  obtain ⟨slot, hslot, -, htracked⟩ := h.held c hc hactive (Bool.eq_false_iff.mpr huntold)
  obtain ⟨key, hknown⟩ := hrest.known htracked
  exact absurd hslot (Nat.not_lt_of_le (h.table key slot hknown))

end Pool

namespace Client

variable {config : ClientConfig} {events : List Event} {event : Event} {c d : Client}
  {id : ConnectionId} {connection : Connection} {key : ConnectionKey} {slot : SlotId}

/-- A connection was established for a slot that the pool had forgotten and that nobody had to empty
any more. -/
def Strayed (config : ClientConfig) (events : List Event) (id : ConnectionId) : Prop :=
  Happened config events fun b event ↦ ∃ get g slot, event = .pool (.get get .established) ∧
    b.pool.gets[get]? = some g ∧ g.phase = .connecting slot ∧ ¬ b.pool.Tracked slot ∧
    b.pool.nextId = id

/-- Every active connection that is not asked to end is held in a slot that is tracked, unless it
strayed. -/
def Accounted (config : ClientConfig) (events : List Event) (c : Client) : Prop :=
  ∀ id connection, c.pool.connection? id = some connection → connection.isActive = true →
    connection.told = false → ∃ slot, c.pool.Held slot id ∧
      (c.pool.Tracked slot ∨ Strayed config events id)

theorem accounted_step (hsteps : (start config).steps events = some c)
    (hregular : c.pool.Regular) (h : Accounted config events c) (hstep : c.step event = some d) :
    Accounted config (events ++ [event]) d := by
  intro id connection hconnection hactive huntold
  rcases pool_of_step hstep with hsame | ⟨own, heffect, hown⟩
  · rw [hsame] at hconnection ⊢
    obtain ⟨slot, hheld, hslot⟩ := h id connection hconnection hactive huntold
    exact ⟨slot, hheld, hslot.imp_right fun hstrayed ↦ Happened.append hstrayed event⟩
  · obtain ⟨keys, hp⟩ := hregular.ordered
    rcases heffect.active_cases hp hconnection hactive (.inl huntold) with
      ⟨get, g, slot, rfl, hg, hphase, hid, hheld⟩ | ⟨old, hold, hbefore, hasked, hstays⟩
    · refine ⟨slot, hheld, ?_⟩
      by_cases htracked : c.pool.Tracked slot
      · exact .inl (heffect.tracked htracked hheld)
      · rcases hown _ rfl with rfl | ⟨key, hkey⟩ | ⟨other, hother⟩
        · exact .inr (happened_last hsteps ⟨get, g, slot, rfl, hg, hphase, htracked, hid.symm⟩)
        · cases hkey
        · cases hother
    · obtain ⟨slot, hheld, hslot⟩ := h id old hold hbefore (hasked huntold)
      have hheld := hstays slot hheld
      refine ⟨slot, hheld, hslot.imp (fun htracked ↦ heffect.tracked htracked hheld) ?_⟩
      exact fun hstrayed ↦ Happened.append hstrayed event

theorem length_le_of_step (hsteps : (start config).steps events = some c)
    (hstep : c.step event = some d) : c.pool.connections.length ≤ d.pool.connections.length := by
  rcases pool_of_step hstep with hsame | ⟨own, heffect, -⟩
  · exact Nat.le_of_eq (by rw [hsame])
  · obtain ⟨m, hm, hd⟩ := heffect.numbered (regular_of_steps hsteps).1
    rw [hd.length]
    exact hm

theorem accounted_of_steps (h : (start config).steps events = some c)
    (hnumbers : c.pool.connections.length < UInt64.size) : Accounted config events c := by
  have hstart : Accounted config [] (start config) := by
    intro id connection hconnection
    simp [Pool.connection?, start, Pool.empty] at hconnection
  revert hnumbers
  refine steps_induction (P := fun events c ↦
    c.pool.connections.length < UInt64.size → Accounted config events c) (fun _ ↦ hstart) ?_ h
  intro events event c d hsteps hc hstep hnumbers
  have hbefore := Nat.lt_of_le_of_lt (length_le_of_step hsteps hstep) hnumbers
  exact accounted_step hsteps ((regular_of_steps hsteps).2 hbefore) (hc hbefore) hstep

/-! ## At rest -/

/-- A step in the pool that no pending call feels comes first. -/
theorem steps_pool_cons {own : Pool.Event} {pool : Pool} (rest : List Event)
    (hallows : c.allows own = true) (hfelt : c.feel own = c.pending)
    (h : c.pool.step c.now own = some pool) :
    c.steps (.pool own :: rest) = steps { c with pool } rest := by
  have hstep : c.step (.pool own) = some { c with pool } := by
    show (guard (c.allows own = true) : Option Unit).bind _ = _
    rw [(Option.guard_eq_some' ()).mpr hallows]
    show (c.pool.step c.now own).bind _ = _
    rw [h, ← hfelt]
    rfl
  show (c.step (.pool own)).bind (fun d ↦ d.steps rest) = _
  rw [hstep]
  rfl

/-- The steps of one more caller who asks for a connection for a key. -/
def asking (c : Client) (key : ConnectionKey) : List Event :=
  [.ask key, .get c.pool.gets.length .find, .get c.pool.gets.length .lock].map .pool

/-- A connection that a client finds where it looks for it. -/
structure Found (c : Client) (connection : Connection) : Prop where
  /-- The table has a slot for the key, and the connection is in it, where it is counted. -/
  stored : ∃ slot, c.pool.table.lookup connection.key = some slot ∧
    c.pool.content? slot = some connection.id ∧
    c.pool.size = (c.pool.setContent slot none).size + 1
  /-- Who asks for a connection for the key is given this one. -/
  reused : ∃ d, c.steps (c.asking connection.key) = some d ∧
    d.pool.gets[c.pool.gets.length]? = some ⟨connection.key, .done (.ok connection.id)⟩
  /-- Once somebody has closed everything, and all are at rest again, the connection is asked to
  end or inactive. -/
  closed : ∀ more d, c.steps (.pool .sweep :: more) = some d →
    d.pool.connections.length < UInt64.size → d.pool.AtRest →
    ∀ changed, d.pool.connection? connection.id = some changed → changed.isActive = true →
      changed.told = true

/-- A connection that is watched stays so whatever else is done. -/
theorem watched_of_steps {n : Nat} {more : List Event} (h : (start config).steps events = some c)
    (hc : Pool.Watched n id c.pool) (hmore : c.steps more = some d)
    (hnumbers : d.pool.connections.length < UInt64.size) : Pool.Watched n id d.pool := by
  have hwatched : (∃ past, (start config).steps past = some d) ∧
      (d.pool.connections.length < UInt64.size → Pool.Watched n id d.pool) := by
    refine steps_invariant (P := fun c ↦ (∃ past, (start config).steps past = some c) ∧
      (c.pool.connections.length < UInt64.size → Pool.Watched n id c.pool)) ?_
      ⟨⟨events, h⟩, fun _ ↦ hc⟩ hmore
    rintro c d event ⟨⟨past, hpast⟩, hc⟩ hstep
    refine ⟨⟨past ++ [event], ?_⟩, fun hnumbers ↦ ?_⟩
    · rw [steps_append, hpast]
      exact hstep
    · have hbefore := Nat.lt_of_le_of_lt (length_le_of_step hpast hstep) hnumbers
      obtain ⟨hnumbered, hregular⟩ := regular_of_steps hpast
      obtain ⟨keys, hp⟩ := (hregular hbefore).ordered
      rcases pool_of_step hstep with hsame | ⟨own, heffect, -⟩
      · rw [hsame]
        exact hc hbefore
      · exact heffect.watched hp (hnumbered.fresh hbefore) (hc hbefore)
  exact hwatched.2 hnumbers

theorem told_of_sweep {more : List Event} (h : (start config).steps events = some c)
    (hconnection : c.pool.connection? id = some connection)
    (hslot : (key, slot) ∈ c.pool.table) (hcontent : c.pool.content? slot = some id)
    (hsteps : c.steps (.pool .sweep :: more) = some d)
    (hnumbers : d.pool.connections.length < UInt64.size) (hrest : d.pool.AtRest)
    {changed : Connection} (hchanged : d.pool.connection? id = some changed)
    (hactive : changed.isActive = true) : changed.told = true := by
  let swept : Pool := { c.pool with
    table := []
    sweeps := c.pool.sweeps ++ [c.pool.table.map Prod.snd] }
  have hsweep : c.steps (.pool .sweep :: more) = steps { c with pool := swept } more :=
    steps_pool_cons more rfl rfl rfl
  have hlast : (start config).steps (events ++ [.pool .sweep]) = some { c with pool := swept } := by
    rw [steps_append, h]
    rfl
  have hlength : slot < c.pool.slots.length := by
    by_contra hge
    rw [Pool.content?_eq, List.getElem?_eq_none (Nat.le_of_not_lt hge)] at hcontent
    cases hcontent
  have hwatched := Pool.watched_sweep hconnection hlength hslot hcontent
  rw [hsweep] at hsteps
  exact (watched_of_steps hlast hwatched hsteps hnumbers).told hrest hchanged hactive

theorem found_of_lookup {keys : List ConnectionKey} (h : (start config).steps events = some c)
    (hp : Pool.Ordered keys c.pool) (hrest : c.pool.AtRest)
    (hconnection : c.pool.connection? connection.id = some connection)
    (hactive : connection.isActive = true) (hslot : c.pool.table.lookup connection.key = some slot)
    (hcontent : c.pool.content? slot = some connection.id) : Found c connection where
  stored := ⟨slot, hslot, hcontent, hp.size_eq (mem_of_lookup_eq_some hslot) hcontent⟩
  reused := by
    have hactive := (Pool.isActive_of_connection? hconnection).trans hactive
    obtain ⟨asked, waiting, granted, hask, hfind, hlock, hgranted⟩ :=
      hrest.reuse c.now hslot hcontent hactive
    refine ⟨{ c with pool := granted }, ?_, hgranted⟩
    calc c.steps (c.asking connection.key)
      _ = steps { c with pool := asked } _ := steps_pool_cons _ rfl rfl hask
      _ = steps { c with pool := waiting } _ := steps_pool_cons _ rfl rfl hfind
      _ = some { c with pool := granted } := steps_pool_cons _ rfl rfl hlock
  closed more d hsteps hnumbers hrest changed hchanged hactive :=
    told_of_sweep h hconnection (mem_of_lookup_eq_some hslot) hcontent hsteps hnumbers hrest
      hchanged hactive

/-- After any steps of a client by which fewer connections were established than there are numbers,
and behind which nobody who asks for a connection or closes everything is on the way: every active
connection that is not asked to end and that did not stray is found, and there is one at most for a
key. -/
theorem found_at_rest (h : (start config).steps events = some c)
    (hnumbers : c.pool.connections.length < UInt64.size) (hrest : c.pool.AtRest) :
    (∀ connection ∈ c.pool.connections, connection.isActive = true → connection.told = false →
      ¬ Strayed config events connection.id → Found c connection) ∧
    (∀ first ∈ c.pool.connections, ∀ second ∈ c.pool.connections,
      first.isActive = true → second.isActive = true → first.told = false → second.told = false →
      ¬ Strayed config events first.id → ¬ Strayed config events second.id →
      first.key = second.key → first = second) := by
  obtain ⟨hnumbered, hregular⟩ := regular_of_steps h
  obtain ⟨keys, hp⟩ := (hregular hnumbers).ordered
  have hdistinct := hnumbered.nodup hnumbers
  have haccounted := accounted_of_steps h hnumbers
  have hfound : ∀ connection ∈ c.pool.connections, connection.isActive = true →
      connection.told = false → ¬ Strayed config events connection.id →
      ∃ slot, c.pool.table.lookup connection.key = some slot ∧
        c.pool.content? slot = some connection.id := by
    intro connection hmem hactive huntold hstrayed
    have hconnection := Pool.connection?_of_mem hdistinct hmem
    obtain ⟨slot, hheld, hslot⟩ := haccounted connection.id connection hconnection hactive huntold
    obtain ⟨key, hknown⟩ := hrest.known (hslot.resolve_right hstrayed)
    have hkey := hp.key_of_held hheld hconnection
    obtain rfl := Option.some.inj (hkey.symm.trans (hp.known key slot hknown))
    exact ⟨slot, lookup_eq_some_of_mem hp.distinct hknown, hrest.stored hheld⟩
  refine ⟨fun connection hmem hactive huntold hstrayed ↦ ?_, ?_⟩
  · obtain ⟨slot, hslot, hcontent⟩ := hfound connection hmem hactive huntold hstrayed
    exact found_of_lookup h hp hrest (Pool.connection?_of_mem hdistinct hmem) hactive hslot hcontent
  · intro first hfirst second hsecond hactive hother huntold hasked hstrayed hstray hkey
    obtain ⟨slot, hslot, hcontent⟩ := hfound first hfirst hactive huntold hstrayed
    obtain ⟨target, htarget, hrival⟩ := hfound second hsecond hother hasked hstray
    rw [hkey, htarget] at hslot
    obtain rfl := Option.some.inj hslot
    exact List.inj_on_of_nodup_map hdistinct hfirst hsecond
      (Option.some.inj (hcontent.symm.trans hrival))

/-- The key of the connections in the runs below. -/
def localKey : ConnectionKey := ⟨⟨"::1", 7000⟩, .json⟩

theorem atRest_of_phases (results : List (Except Fault ConnectionId)) (sweeps : List (List SlotId))
    (hgets : c.pool.gets.map Pool.Get.phase = results.map .done)
    (hsweeps : c.pool.sweeps = sweeps) (hempty : ∀ remaining ∈ sweeps, remaining = []) :
    c.pool.AtRest where
  gets g hg := by
    have hmem := List.mem_map_of_mem (f := Pool.Get.phase) hg
    rw [hgets] at hmem
    obtain ⟨result, -, hresult⟩ := List.mem_map.mp hmem
    exact .inl ⟨result, hresult.symm⟩
  sweeps := hsweeps ▸ hempty

/-- A caller locks its slot before somebody who closes everything empties it, so that its connection
is asked to end. The next caller connects anew. -/
def overlappedEvents : List Event :=
  [.ask localKey, .get 0 .find, .get 0 .lock, .sweep, .get 0 .established, .get 0 .store,
    .empty 0 0, .ask localKey, .get 1 .find, .get 1 .lock, .get 1 .established,
    .get 1 .store].map .pool

theorem not_strayed_overlapped : ¬ Strayed .standard overlappedEvents 2 := by
  rintro ⟨j, b, event, hb, he, get, g, slot, rfl, hg, hphase, huntracked, hid⟩
  have hj : j < 12 := (List.getElem?_eq_some_iff.mp he).1
  match j, hj with
  | 4, _ =>
    have hnext : ((start .standard).steps (overlappedEvents.take 4)).map (fun b ↦ b.pool.nextId) =
        some 1 := by
      rfl
    rw [hb, Option.map_some, hid] at hnext
    cases hnext
  | 10, _ =>
    have hpool : ((start .standard).steps (overlappedEvents.take 10)).map (fun b ↦
        ((b.pool.gets[1]?).map Pool.Get.phase, b.pool.table)) =
          some (some (.connecting 1), [(localKey, 1)]) := by
      rfl
    cases he
    rw [hb, Option.map_some, hg, Option.map_some, hphase] at hpool
    obtain ⟨hslot, htable⟩ := Prod.mk.inj (Option.some.inj hpool)
    cases hslot
    exact huntracked (.inl ⟨localKey, htable ▸ List.mem_cons_self⟩)
  | 0, _ | 1, _ | 2, _ | 3, _ | 5, _ | 6, _ | 7, _ | 8, _ | 9, _ | 11, _ => cases he

theorem found_overlapped : ∃ c connection, (start .standard).steps overlappedEvents = some c ∧
    c.pool.AtRest ∧ connection ∈ c.pool.connections ∧ connection.id = 2 ∧ Found c connection := by
  have hend : ((start .standard).steps overlappedEvents).map (fun c ↦
      (c.pool.gets.map Pool.Get.phase, c.pool.sweeps, c.pool.connections.length,
        (c.pool.connections[1]?).map fun connection ↦
          (connection.id, connection.isActive, connection.told))) =
      some ([.ok 1, .ok 2].map .done, [[]], 2, some (2, true, false)) := by
    rfl
  obtain ⟨c, hc, hpool⟩ := Option.map_eq_some_iff.mp hend
  simp only [Prod.mk.injEq] at hpool
  obtain ⟨hgets, hsweeps, hlength, hlast⟩ := hpool
  obtain ⟨connection, hconnection, hflags⟩ := Option.map_eq_some_iff.mp hlast
  simp only [Prod.mk.injEq] at hflags
  obtain ⟨hid, hactive, huntold⟩ := hflags
  have hrest := atRest_of_phases [.ok 1, .ok 2] [[]] hgets hsweeps (by simp)
  have hmem := List.mem_of_getElem? hconnection
  have hnumbers : c.pool.connections.length < UInt64.size := by
    rw [hlength]
    decide
  have hstrayed : ¬ Strayed .standard overlappedEvents connection.id := by
    rw [hid]
    exact not_strayed_overlapped
  exact ⟨c, connection, hc, hrest, hmem, hid,
    (found_at_rest hc hnumbers hrest).1 connection hmem hactive huntold hstrayed⟩

/-- A caller finds its slot, somebody closes everything, and then the caller locks the slot. -/
def strayEvents : List Event :=
  [.ask localKey, .get 0 .find, .sweep, .empty 0 0, .get 0 .lock, .get 0 .established,
    .get 0 .store].map .pool

/-- What a client knows of its connections: their numbers, keys, and whether they are active and
asked to end. -/
def survey (c : Client) : List (ConnectionId × ConnectionKey × Bool × Bool) :=
  c.pool.connections.map fun connection ↦
    (connection.id, connection.key, connection.isActive, connection.told)

/-- All are at rest, but an active connection that is not asked to end is in no slot that the pool
knows. The next caller does not get it, so that there are two for one key, and closing everything
once more asks only the second one to end. -/
theorem stray_after_closing :
    (∃ c, (start .standard).steps strayEvents = some c ∧ c.pool.AtRest ∧
      c.survey = [(1, localKey, true, false)] ∧ c.pool.table = [] ∧ c.pool.size = 0) ∧
    (∃ c, (start .standard).steps (strayEvents ++ [.ask localKey, .get 1 .find, .get 1 .lock,
        .get 1 .established, .get 1 .store].map .pool) = some c ∧ c.pool.AtRest ∧
      c.survey = [(1, localKey, true, false), (2, localKey, true, false)]) ∧
    ∃ c, (start .standard).steps (strayEvents ++ [.ask localKey, .get 1 .find, .get 1 .lock,
        .get 1 .established, .get 1 .store, .sweep, .empty 1 1].map .pool) = some c ∧
      c.pool.AtRest ∧ c.survey = [(1, localKey, true, false), (2, localKey, true, true)] := by
  refine ⟨⟨_, rfl, ?_, rfl, rfl, rfl⟩, ⟨_, rfl, ?_, rfl⟩, ⟨_, rfl, ?_, rfl⟩⟩
  · exact atRest_of_phases [.ok 1] [[]] rfl rfl (by simp)
  · exact atRest_of_phases [.ok 1, .ok 2] [[]] rfl rfl (by simp)
  · exact atRest_of_phases [.ok 1, .ok 2] [[], []] rfl rfl (by simp)

end Client

end FramedRpc
