import FramedRpc.Proofs.Client.Pool
import FramedRpc.Proofs.Lists

/-!
# Changes of the slots

What is in a slot changes only where something is put in or taken out. Most steps do at most the
latter: of all that counts for the order of the slots they change nothing but that slots get empty.
-/

namespace FramedRpc

namespace Pool

def keyOf? (p : Pool) (id : ConnectionId) : Option ConnectionKey :=
  (p.connection? id).map Connection.key

variable {p q r : Pool} {now : Nat} {event : Event} {get : GetId} {g : Get} {id : ConnectionId}
  {c d : Connection} {slot : SlotId} {keys : List ConnectionKey} {key : ConnectionKey}

/-! ## Single changes -/

theorem getElem?_setPhase (hg : p.gets[get]? = some g) (phase : Phase) (other : GetId) :
    (p.setPhase get phase).gets[other]? =
      if other = get then some ⟨g.key, phase⟩ else p.gets[other]? := by
  show (p.gets.modify get _)[other]? = _
  by_cases hother : other = get
  · rw [if_pos hother, hother, List.getElem?_modify_eq, hg]
    rfl
  · rw [if_neg hother, List.getElem?_modify_ne _ _ (Ne.symm hother)]

theorem isFree_iff : p.isFree slot = true ↔ ∀ g ∈ p.gets, g.phase.locked? ≠ some slot := by
  simp [isFree]

@[simp]
theorem content?_setContent_self (p : Pool) (slot : SlotId) :
    (p.setContent slot none).content? slot = none := by
  rw [content?_eq, setContent, List.getElem?_set, if_pos rfl]
  split
  case isTrue => rfl
  case isFalse => rfl

@[simp]
theorem content?_setContent_of_ne {other : SlotId} (hother : other ≠ slot)
    (content : Option ConnectionId) : (p.setContent slot content).content? other =
      p.content? other := by
  rw [content?_eq, setContent, List.getElem?_set_ne hother.symm, content?_eq]

/-- What is in a slot was there before, or was just stored in it. -/
theorem content?_setContent_cases {other : SlotId} {content : Option ConnectionId}
    (h : (p.setContent slot content).content? other = some id) :
    p.content? other = some id ∨ other = slot ∧ content = some id := by
  by_cases hother : other = slot
  · rw [content?_eq, setContent, List.getElem?_set, if_pos hother.symm] at h
    split at h
    case isTrue => exact .inr ⟨hother, h⟩
    case isFalse => cases h
  · exact .inl (by simpa [hother] using h)

/-- A connection that leaves its slot leaves the others where they are. -/
theorem content?_clear_of_ne {other : ConnectionId} (h : p.content? slot = some id)
    (hother : id ≠ other) (found : Option SlotId) :
    (found.elim p (p.clear other)).content? slot = some id := by
  cases found with
  | none => exact h
  | some target =>
    show (p.clear other target).content? slot = some id
    unfold clear
    split
    case isTrue htarget =>
      rw [content?_setContent_of_ne]
      · exact h
      · rintro rfl
        exact hother (Option.some.inj (h.symm.trans htarget))
    case isFalse => exact h

@[simp]
theorem content?_open (p : Pool) (key : ConnectionKey) (slot : SlotId) :
    content? { p with
      slots := p.slots ++ [none]
      table := p.table ++ [(key, p.slots.length)] } slot = p.content? slot := by
  rw [content?_eq, getElem?_concat, content?_eq]
  split
  case isTrue hslot => simp [hslot]
  case isFalse => rfl

/-! ## Changes by which slots are emptied -/

/-- Nothing changes for callers and slots but that slots are emptied. -/
structure Thins (p q : Pool) : Prop where
  gets : q.gets = p.gets
  table : q.table = p.table
  length : q.slots.length = p.slots.length
  sweeps : q.sweeps = [] → p.sweeps = []
  content : ∀ slot id, q.content? slot = some id → p.content? slot = some id
  key : ∀ id key, p.keyOf? id = some key → q.keyOf? id = some key

theorem Thins.trans (hp : Thins p q) (hq : Thins q r) : Thins p r where
  gets := hq.gets.trans hp.gets
  table := hq.table.trans hp.table
  length := hq.length.trans hp.length
  sweeps h := hp.sweeps (hq.sweeps h)
  content slot id h := hp.content slot id (hq.content slot id h)
  key id key h := hq.key id key (hp.key id key h)

theorem thins_refl (p : Pool) : Thins p p :=
  ⟨rfl, rfl, rfl, fun h ↦ h, fun _ _ h ↦ h, fun _ _ h ↦ h⟩

theorem thins_setContent_none (p : Pool) (slot : SlotId) : Thins p (p.setContent slot none) where
  gets := rfl
  table := rfl
  length := List.length_set
  sweeps h := h
  content _ _ h := (content?_setContent_cases h).resolve_right nofun
  key _ _ h := h

theorem thins_clear (p : Pool) (id : ConnectionId) (found : Option SlotId) :
    Thins p (found.elim p (p.clear id)) := by
  cases found with
  | none => exact thins_refl p
  | some slot =>
    show Thins p (p.clear id slot)
    unfold clear
    split
    case isTrue => exact thins_setContent_none p slot
    case isFalse => exact thins_refl p

/-- A connection is put in the place of another one for its key. -/
theorem thins_setConnection (hc : p.connection? id = some c) (hid : d.id = c.id)
    (hkey : d.key = c.key) : Thins p (p.setConnection d) := by
  obtain rfl := id_of_connection? hc
  rw [← hid] at hc
  refine ⟨rfl, rfl, rfl, fun h ↦ h, fun _ _ h ↦ h, fun id key h ↦ ?_⟩
  rw [keyOf?, connection?_setConnection hc]
  split
  case isTrue hid =>
    rw [keyOf?, hid, hc] at h
    rw [← h, Option.map_some, Option.map_some, hkey]
  case isFalse => exact h

/-- A connection that leaves its slot takes itself out of it. -/
theorem thins_depart (hc : p.connection? id = some c) (found : Option SlotId)
    (stage : Connection.Stage) :
    Thins p ((found.elim p (p.clear c.id)).setConnection { c with stage }) := by
  have hsame : (found.elim p (p.clear c.id)).connection? id = some c := by
    obtain ⟨slots, hslots⟩ := elim_clear p c.id found
    rw [hslots]
    exact hc
  exact (thins_clear p c.id found).trans (thins_setConnection hsame rfl rfl)

theorem thins_emptySlot (p : Pool) (slot : SlotId) : Thins p (p.emptySlot slot) := by
  unfold emptySlot
  split
  case h_1 => exact thins_setContent_none p slot
  case h_2 c hc =>
    obtain ⟨content, -, hc⟩ := Option.bind_eq_some_iff.mp hc
    have hsame : (p.setContent slot none).connection? content = some c := hc
    exact (thins_setContent_none p slot).trans (thins_setConnection hsame rfl rfl)

/-- Who closes everything empties one slot more. -/
theorem thins_empty (p : Pool) (sweep : SweepId) (remaining : List SlotId) (slot : SlotId) :
    Thins p ({ p with sweeps := p.sweeps.set sweep remaining }.emptySlot slot) := by
  have hsweeps : Thins p { p with sweeps := p.sweeps.set sweep remaining } :=
    ⟨rfl, rfl, rfl, fun h ↦ by simpa using h, fun _ _ h ↦ h, fun _ _ h ↦ h⟩
  exact hsweeps.trans (thins_emptySlot _ slot)

theorem thins_append (p : Pool) (c : Connection) (id : ConnectionId) :
    Thins p { p with connections := p.connections ++ [c], nextId := id } := by
  refine ⟨rfl, rfl, rfl, fun h ↦ h, fun _ _ h ↦ h, fun id key h ↦ ?_⟩
  obtain ⟨found, hfound, hkey⟩ := Option.map_eq_some_iff.mp h
  refine Option.map_eq_some_iff.mpr ⟨found, ?_, hkey⟩
  show List.find? _ (p.connections ++ [c]) = some found
  rw [List.find?_append, Option.or_eq_some_iff]
  exact .inl hfound

end Pool

end FramedRpc
