import FramedRpc.Proofs.Client.Slots
import Mathlib.Data.List.Nodup

/-!
# Slots and their keys

Every slot is made for one key, under which the table has it until the pool forgets all slots. Who
locks a slot finds it empty or empties it, and is alone with it from then on. A connection that is
in a slot, or that a caller has, is made for the key of the slot or of the caller.
-/

namespace FramedRpc

namespace Pool

def Phase.slot? : Phase → Option SlotId
  | .waiting slot | .connecting slot | .storing slot _ => some slot
  | _ => none

def Phase.connection? : Phase → Option ConnectionId
  | .storing _ id | .done (.ok id) => some id
  | _ => none

variable {p q : Pool} {now : Nat} {event : Option Event} {get : GetId} {g : Get} {id : ConnectionId}
  {slot : SlotId} {keys : List ConnectionKey} {key : ConnectionKey}

theorem Phase.slot?_of_locked? {phase : Phase} (h : phase.locked? = some slot) :
    phase.slot? = some slot := by
  cases phase with
  | connecting => exact h
  | storing => exact h
  | _ => cases h

/-- What holds of a caller in a pool whose slots are made for keys. -/
structure Rightful (keys : List ConnectionKey) (p : Pool) (g : Get) : Prop where
  sought : ∀ slot, g.phase.slot? = some slot → keys[slot]? = some g.key
  vacant : ∀ slot, g.phase.locked? = some slot → p.content? slot = none
  owned : ∀ id, g.phase.connection? = some id → p.keyOf? id = some g.key

/-- What holds of a pool whose slots are made for keys. -/
structure Ordered (keys : List ConnectionKey) (p : Pool) : Prop where
  length : p.slots.length = keys.length
  known : ∀ key slot, (key, slot) ∈ p.table → keys[slot]? = some key
  distinct : (p.table.map Prod.fst).Nodup
  complete : p.sweeps = [] → ∀ key slot, keys[slot]? = some key → (key, slot) ∈ p.table
  stored : ∀ slot id, p.content? slot = some id →
    ∃ key, keys[slot]? = some key ∧ p.keyOf? id = some key
  alone : ∀ (get other : GetId) (g f : Get) slot, p.gets[get]? = some g → p.gets[other]? = some f →
    g.phase.locked? = some slot → f.phase.locked? = some slot → get = other
  rightful : ∀ g ∈ p.gets, Rightful keys p g

theorem ordered_empty (config : ConnectionConfig) : Ordered [] (empty config) where
  length := rfl
  known := nofun
  distinct := List.nodup_nil
  complete _ _ _ hslot := absurd hslot (by simp)
  stored slot id hid := absurd hid (by simp [content?_eq, empty])
  alone _ _ _ _ _ hg := absurd hg (by simp [empty])
  rightful := nofun

/-- Only what is in the slots and what the connections are made for counts. -/
theorem Rightful.congr (h : Rightful keys p g) (hslots : q.slots = p.slots)
    (hconnections : q.connections = p.connections) : Rightful keys q g := by
  obtain ⟨hsought, hvacant, howned⟩ := h
  refine ⟨hsought, fun slot hslot ↦ ?_, fun id hid ↦ ?_⟩
  · rw [content?_eq, hslots]
    exact hvacant slot hslot
  · rw [keyOf?, Pool.connection?, hconnections]
    exact howned id hid

theorem Rightful.thins (h : Rightful keys p g) (hthins : Thins p q) : Rightful keys q g where
  sought := h.sought
  vacant slot hslot := by
    apply Option.eq_none_iff_forall_ne_some.mpr
    intro id hid
    cases (h.vacant slot hslot).symm.trans (hthins.content slot id hid)
  owned id hid := hthins.key id g.key (h.owned id hid)

theorem Ordered.thins (h : Ordered keys p) (hthins : Thins p q) : Ordered keys q where
  length := hthins.length.trans h.length
  known := by
    rw [hthins.table]
    exact h.known
  distinct := by
    rw [hthins.table]
    exact h.distinct
  complete hsweeps := by
    rw [hthins.table]
    exact h.complete (hthins.sweeps hsweeps)
  stored slot id hid := by
    obtain ⟨key, hslot, hkey⟩ := h.stored slot id (hthins.content slot id hid)
    exact ⟨key, hslot, hthins.key id key hkey⟩
  alone := by
    rw [hthins.gets]
    exact h.alone
  rightful := by
    rw [hthins.gets]
    exact fun g hg ↦ (h.rightful g hg).thins hthins

theorem Ordered.setPhase (h : Ordered keys p) (hg : p.gets[get]? = some g) {phase : Phase}
    (hrightful : Rightful keys p ⟨g.key, phase⟩)
    (halone : ∀ slot, phase.locked? = some slot → ∀ other f, p.gets[other]? = some f →
      f.phase.locked? = some slot → other = get) : Ordered keys (p.setPhase get phase) where
  length := h.length
  known := h.known
  distinct := h.distinct
  complete := h.complete
  stored := h.stored
  alone first second f k slot hf hk hfirst hsecond := by
    rw [getElem?_setPhase hg] at hf hk
    split at hf
    case isTrue hget =>
      obtain rfl := Option.some.inj hf
      split at hk
      case isTrue hother => rw [hget, hother]
      case isFalse => rw [hget, halone slot hfirst second k hk hsecond]
    case isFalse =>
      split at hk
      case isTrue hother =>
        obtain rfl := Option.some.inj hk
        rw [hother, halone slot hsecond first f hf hfirst]
      case isFalse => exact h.alone first second f k slot hf hk hfirst hsecond
  rightful f hf := by
    obtain ⟨other, hother⟩ := List.mem_iff_getElem?.mp hf
    rw [getElem?_setPhase hg] at hother
    split at hother
    case isTrue =>
      obtain rfl := Option.some.inj hother
      exact hrightful.congr rfl rfl
    case isFalse => exact (h.rightful f (List.mem_of_getElem? hother)).congr rfl rfl

/-- A connection is stored in a slot that nobody has locked. -/
theorem Ordered.fill (h : Ordered keys p) (hfree : ∀ g ∈ p.gets, g.phase.locked? ≠ some slot)
    (hslot : keys[slot]? = some key) (hkey : p.keyOf? id = some key) :
    Ordered keys (p.setContent slot (some id)) where
  length := List.length_set.trans h.length
  known := h.known
  distinct := h.distinct
  complete := h.complete
  stored other content hcontent := by
    rcases content?_setContent_cases hcontent with hold | ⟨rfl, hid⟩
    · exact h.stored other content hold
    · obtain rfl := Option.some.inj hid
      exact ⟨key, hslot, hkey⟩
  alone := h.alone
  rightful g hg := by
    obtain ⟨hsought, hvacant, howned⟩ := h.rightful g hg
    refine ⟨hsought, fun other hother ↦ ?_, howned⟩
    have hne : other ≠ slot := by
      rintro rfl
      exact hfree g hg hother
    simpa [hne] using hvacant other hother

/-- A slot is made for a key that has none. -/
theorem Ordered.open (h : Ordered keys p) (hnone : p.table.lookup key = none) :
    Ordered (keys ++ [key]) { p with
      slots := p.slots ++ [none]
      table := p.table ++ [(key, p.slots.length)] } := by
  have hkept {slot : SlotId} {other : ConnectionKey} (hslot : keys[slot]? = some other) :
      (keys ++ [key])[slot]? = some other := by
    rw [List.getElem?_append_left (List.getElem?_eq_some_iff.mp hslot).1, hslot]
  constructor
  case length => simp [h.length]
  case known =>
    intro other slot hmem
    rcases List.mem_append.mp hmem with hold | hnew
    · exact hkept (h.known other slot hold)
    · obtain ⟨rfl, rfl⟩ := Prod.mk.inj (List.mem_singleton.mp hnew)
      rw [h.length, List.getElem?_concat_length]
  case distinct =>
    have hnew : key ∉ p.table.map Prod.fst := by
      intro hmem
      obtain ⟨entry, hentry, rfl⟩ := List.mem_map.mp hmem
      have hlookup := List.lookup_eq_none_iff.mp hnone entry hentry
      simp at hlookup
    rw [List.map_append, List.map_singleton, List.nodup_append]
    refine ⟨h.distinct, List.pairwise_singleton _ _, ?_⟩
    rintro other hother _ hkey rfl
    obtain rfl := List.mem_singleton.mp hkey
    exact hnew hother
  case complete =>
    intro hsweeps other slot hslot
    rw [getElem?_concat, ← h.length] at hslot
    split at hslot
    case isTrue hlast =>
      obtain rfl := Option.some.inj hslot
      rw [hlast]
      exact List.mem_append_right _ List.mem_cons_self
    case isFalse => exact List.mem_append_left _ (h.complete hsweeps other slot hslot)
  case stored =>
    intro slot id hid
    obtain ⟨other, hslot, hkey⟩ := h.stored slot id (by simpa using hid)
    exact ⟨other, hkept hslot, hkey⟩
  case alone => exact h.alone
  case rightful =>
    intro g hg
    obtain ⟨hsought, hvacant, howned⟩ := h.rightful g hg
    refine ⟨fun slot hslot ↦ hkept (hsought slot hslot), fun slot hslot ↦ ?_, howned⟩
    simpa using hvacant slot hslot

theorem Ordered.ask (h : Ordered keys p) (key : ConnectionKey) :
    Ordered keys { p with gets := p.gets ++ [⟨key, .asking⟩] } where
  length := h.length
  known := h.known
  distinct := h.distinct
  complete := h.complete
  stored := h.stored
  alone first second f k slot hf hk hfirst hsecond := by
    rw [getElem?_concat] at hf hk
    split at hf
    case isTrue =>
      obtain rfl := Option.some.inj hf
      cases hfirst
    case isFalse =>
      split at hk
      case isTrue =>
        obtain rfl := Option.some.inj hk
        cases hsecond
      case isFalse => exact h.alone first second f k slot hf hk hfirst hsecond
  rightful g hg := by
    rcases List.mem_append.mp hg with hold | hnew
    · exact (h.rightful g hold).congr rfl rfl
    · obtain rfl := List.mem_singleton.mp hnew
      exact ⟨nofun, nofun, nofun⟩

theorem Ordered.sweep (h : Ordered keys p) :
    Ordered keys { p with table := [], sweeps := p.sweeps ++ [p.table.map Prod.snd] } where
  length := h.length
  known := nofun
  distinct := List.nodup_nil
  complete hsweeps := absurd hsweeps (List.append_ne_nil_of_right_ne_nil _ (List.cons_ne_nil _ _))
  stored := h.stored
  alone := h.alone
  rightful g hg := (h.rightful g hg).congr rfl rfl

theorem Ordered.rightful_of_getElem? (h : Ordered keys p) (hg : p.gets[get]? = some g) :
    Rightful keys p g := h.rightful g (List.mem_of_getElem? hg)

/-- The slot with which a caller deals is made for its key. -/
theorem Ordered.sought (h : Ordered keys p) (hg : p.gets[get]? = some g)
    (hslot : g.phase.slot? = some slot) : keys[slot]? = some g.key :=
  (h.rightful_of_getElem? hg).sought slot hslot

/-- The size of a pool counts each connection that is in the slot of a key. -/
theorem Ordered.size_eq (h : Ordered keys p) (hmem : (key, slot) ∈ p.table)
    (hcontent : p.content? slot = some id) : p.size = (p.setContent slot none).size + 1 := by
  let q := p.setContent slot none
  have hperm := List.perm_cons_erase hmem
  have hnodup : p.table.Nodup := h.distinct.of_map Prod.fst
  have hothers : ∀ entry ∈ p.table.erase (key, slot), entry.2 ≠ slot := by
    rintro ⟨other, target⟩ hentry rfl
    obtain ⟨hne, hold⟩ := hnodup.mem_erase_iff.mp hentry
    have hkey := (h.known other target hold).symm.trans (h.known key target hmem)
    exact hne (by rw [Option.some.inj hkey])
  have hsame : (p.table.erase (key, slot)).countP (fun entry ↦ (p.content? entry.2).isSome) =
      (p.table.erase (key, slot)).countP fun entry ↦ (q.content? entry.2).isSome := by
    refine List.countP_congr fun entry hentry ↦ ?_
    simp [q, hothers entry hentry]
  calc p.size
    _ = ((key, slot) :: p.table.erase (key, slot)).countP
          fun entry ↦ (p.content? entry.2).isSome := hperm.countP_eq _
    _ = (p.table.erase (key, slot)).countP (fun entry ↦ (q.content? entry.2).isSome) + 1 := by
        rw [List.countP_cons_of_pos (by simp [hcontent]), hsame]
    _ = ((key, slot) :: p.table.erase (key, slot)).countP
          (fun entry ↦ (q.content? entry.2).isSome) + 1 := by
        rw [List.countP_cons_of_neg (by simp [q])]
    _ = q.size + 1 := congrArg (· + 1) (hperm.countP_eq _).symm

/-! ## The steps of a caller -/

theorem Ordered.find (h : Ordered keys p) (hg : p.gets[get]? = some g)
    (hslot : keys[slot]? = some g.key) : Ordered keys (p.setPhase get (.waiting slot)) := by
  refine h.setPhase hg ⟨fun other hother ↦ ?_, nofun, nofun⟩ nofun
  obtain rfl := Option.some.inj hother
  exact hslot

/-- A caller has a connection for its key. -/
theorem Ordered.grant (h : Ordered keys p) (hg : p.gets[get]? = some g)
    (hkey : p.keyOf? id = some g.key) : Ordered keys (p.setPhase get (.done (.ok id))) := by
  refine h.setPhase hg ⟨nofun, nofun, fun other hother ↦ ?_⟩ nofun
  obtain rfl := Option.some.inj hother
  exact hkey

theorem Ordered.lock (h : Ordered keys p) (hg : p.gets[get]? = some g)
    (hphase : g.phase = .waiting slot) (hfree : p.isFree slot = true) :
    Ordered keys ((p.setContent slot none).setPhase get (.connecting slot)) := by
  have hthin := h.thins (thins_setContent_none p slot)
  have hsought : keys[slot]? = some g.key := h.sought hg (by rw [hphase]; rfl)
  refine hthin.setPhase hg ⟨fun other hother ↦ ?_, fun other hother ↦ ?_, nofun⟩ ?_
  · obtain rfl := Option.some.inj hother
    exact hsought
  · obtain rfl := Option.some.inj hother
    simp
  · rintro other hother _ f hf hlocked
    obtain rfl := Option.some.inj hother
    exact absurd hlocked (isFree_iff.mp hfree f (List.mem_of_getElem? hf))

theorem Ordered.establish (h : Ordered keys p) (hfresh : p.connection? p.nextId = none)
    (hg : p.gets[get]? = some g) (hlocked : g.phase.locked? = some slot) :
    Ordered keys (p.establish now get g.key slot) := by
  let new := Connection.establish p.nextId g.key p.config.idleLimits now
  have hthins := thins_append p new (p.nextId + 1)
  have hrightful := (h.rightful_of_getElem? hg).thins hthins
  refine (h.thins hthins).setPhase hg
    ⟨fun other hother ↦ ?_, fun other hother ↦ ?_, fun id hid ↦ ?_⟩ ?_
  · obtain rfl := Option.some.inj hother
    exact hrightful.sought _ (Phase.slot?_of_locked? hlocked)
  · obtain rfl := Option.some.inj hother
    exact hrightful.vacant _ hlocked
  · obtain rfl := Option.some.inj hid
    have hfind : (p.connections ++ [new]).find? (fun c ↦ c.id = p.nextId) = some new := by
      rw [List.find?_append, Option.or_eq_some_iff]
      exact .inr ⟨hfresh, by simp [new, Connection.establish]⟩
    exact Option.map_eq_some_iff.mpr ⟨new, hfind, rfl⟩
  · rintro other hother second f hf hsecond
    obtain rfl := Option.some.inj hother
    exact h.alone second get f g _ hf hg hsecond hlocked

theorem Ordered.store (h : Ordered keys p) (hg : p.gets[get]? = some g)
    (hphase : g.phase = .storing slot id) :
    Ordered keys ((p.setContent slot (some id)).setPhase get (.done (.ok id))) := by
  have hlocked : g.phase.locked? = some slot := by rw [hphase]; rfl
  have hkey : p.keyOf? id = some g.key :=
    (h.rightful_of_getElem? hg).owned id (by rw [hphase]; rfl)
  -- the caller leaves the slot first: in the other order it would be locked and not empty
  refine (h.grant hg hkey).fill ?_ (h.sought hg (Phase.slot?_of_locked? hlocked)) hkey
  intro f hf hsecond
  obtain ⟨other, hother⟩ := List.mem_iff_getElem?.mp hf
  rw [getElem?_setPhase hg] at hother
  split at hother
  case isTrue =>
    obtain rfl := Option.some.inj hother
    cases hsecond
  case isFalse hne => exact hne (h.alone other get f g slot hother hg hsecond hlocked)

/-- Every step keeps the slots in order if the next number is free. -/
theorem Effect.ordered (heffect : Effect p now event q) (hfresh : p.connection? p.nextId = none)
    (h : Ordered keys p) : ∃ keys, Ordered keys q := by
  cases heffect with
  | asked key => exact ⟨keys, h.ask key⟩
  | found hg _ hslot => exact ⟨keys, h.find hg (h.known _ _ (mem_of_lookup_eq_some hslot))⟩
  | @opened get g hg _ hnone =>
    refine ⟨keys ++ [g.key], (h.open hnone).find hg ?_⟩
    rw [h.length, List.getElem?_concat_length]
  | @granted get g slot id hg hphase hcontent =>
    have hsought : keys[slot]? = some g.key := h.sought hg (by rw [hphase]; rfl)
    obtain ⟨key, hslot, hkey⟩ := h.stored slot id hcontent
    obtain rfl := Option.some.inj (hsought.symm.trans hslot)
    exact ⟨keys, h.grant hg hkey⟩
  | locked hg hphase hfree => exact ⟨keys, h.lock hg hphase hfree⟩
  | established hg hphase => exact ⟨keys, h.establish hfresh hg (by rw [hphase]; rfl)⟩
  | failed flaw hg => exact ⟨keys, h.setPhase hg ⟨nofun, nofun, nofun⟩ nofun⟩
  | stored hg hphase => exact ⟨keys, h.store hg hphase⟩
  | cancelled hg => exact ⟨keys, h.setPhase hg ⟨nofun, nofun, nofun⟩ nofun⟩
  | moved hc hmoves => exact ⟨keys, h.thins (thins_setConnection hc hmoves.same.1 hmoves.same.2)⟩
  | searched hc => exact ⟨keys, h.thins (thins_setConnection hc rfl rfl)⟩
  | departed hc => exact ⟨keys, h.thins (thins_depart hc _ _)⟩
  | swept => exact ⟨keys, h.sweep⟩
  | emptied => exact ⟨keys, h.thins (thins_empty p _ _ _)⟩
  | pushed r hc => exact ⟨keys, h.thins (thins_setConnection hc rfl rfl)⟩

end Pool

end FramedRpc
