import FramedRpc.Proofs.Discovery.Registry
import FramedRpc.Discovery.Directory
import Mathlib.Data.List.Destutter

/-!
# Taking turns

A directory that takes turns has one cursor for all its services. Its picks therefore form one round
through whatever lists are looked up, each at the position after the last pick. Lookups of one
service spread evenly over its list as long as no other service is served between them; each stretch
that begins anew adds one to how far the numbers of picks can lie apart.
-/

namespace FramedRpc

/-! ## The positions a cursor visits -/

namespace Balancer

@[simp]
theorem reduced_eq_mod (cursor length : Nat) : reduced cursor length = cursor % length := by
  unfold reduced
  split
  case isTrue => rfl
  case isFalse hlt => exact (Nat.mod_eq_of_lt (Nat.lt_of_not_le hlt)).symm

/-- The endpoint at the cursor is chosen, and the cursor moves behind it. -/
theorem select_roundRobin (cursor : Nat) {endpoints : List Endpoint} (hsome : endpoints ≠ []) :
    (roundRobin cursor).select endpoints =
      (endpoints[cursor % endpoints.length]?, .roundRobin (cursor % endpoints.length + 1)) := by
  unfold select
  rw [if_neg (mt List.isEmpty_iff.mp hsome)]
  simp only [reduced_eq_mod]

end Balancer

section Turns

variable {κ : Type}

/-- The positions that a cursor visits in lists of given sizes, each beside the key of its list. -/
def turns (size : κ → Nat) : (cursor : Nat) → List κ → List (κ × Nat)
  | _, [] => []
  | cursor, key :: keys => (key, cursor % size key) :: turns size (cursor % size key + 1) keys

@[simp]
theorem map_fst_turns (size : κ → Nat) (cursor : Nat) (keys : List κ) :
    (turns size cursor keys).map Prod.fst = keys := by
  induction keys generalizing cursor with
  | nil => rfl
  | cons key keys ih => rw [turns, List.map_cons, ih]

/-- The positions depend on the sizes alone. -/
theorem map_turns (size : κ → Nat) (cursor : Nat) (keys : List κ) :
    (turns size cursor keys).map (Prod.map size id) = turns id cursor (keys.map size) := by
  induction keys generalizing cursor with
  | nil => rfl
  | cons key keys ih => simp only [turns, List.map_cons, Prod.map_apply, id_eq, ih]

/-- Each position is the one after the position before, at the start of the list when that is past
its end. -/
theorem isChain_turns (size : κ → Nat) (cursor : Nat) (keys : List κ) :
    (turns size cursor keys).IsChain fun last next ↦ next.2 = (last.2 + 1) % size next.1 := by
  induction keys generalizing cursor with
  | nil => exact .nil
  | cons key keys ih =>
    cases keys with
    | nil => exact .singleton _
    | cons next keys => exact .cons_cons rfl (ih (cursor % size key + 1))

/-- From a cursor on, one position is visited before another. -/
def Precedes (cursor i j : Nat) : Prop :=
  cursor ≤ i ∧ i < j ∨ i < j ∧ j < cursor ∨ j < cursor ∧ cursor ≤ i

instance (cursor i j : Nat) : Decidable (Precedes cursor i j) :=
  inferInstanceAs (Decidable (_ ∨ _))

variable [DecidableEq κ]

/-- The number of unbroken stretches in which a key occurs. -/
def stretches (key : κ) (keys : List κ) : Nat := (keys.destutter (· ≠ ·)).count key

theorem stretches_le_one {key : κ} {keys : List κ} (h : ∀ other ∈ keys, other = key) :
    stretches key keys ≤ 1 := by
  have hchain := List.isChain_destutter (· ≠ ·) keys
  have hmem : ∀ other ∈ keys.destutter (· ≠ ·), other = key := fun other hother ↦
    h other ((List.destutter_sublist _ keys).subset hother)
  unfold stretches
  match keys.destutter (· ≠ ·), hchain, hmem with
  | [], _, _ => exact Nat.zero_le 1
  | [other], _, _ => exact List.count_le_length
  | first :: second :: rest, hchain, hmem =>
    have hfirst : first = key := hmem first List.mem_cons_self
    have hsecond : second = key := hmem second (by simp)
    exact absurd (hfirst.trans hsecond.symm) hchain.rel

/-- A visit within a stretch is made up for: of two positions, the one that is visited comes later
than the other from then on. -/
theorem visit_add_le {cursor n j : Nat} (i : Nat) {inside : Prop} [Decidable inside]
    (hj : j < n) (hcursor : inside → cursor ≤ n) :
    (if cursor % n = i then 1 else 0) + (if inside ∧ ¬Precedes cursor i j then 1 else 0) ≤
      (if cursor % n = j then 1 else 0) +
        if ¬Precedes (cursor % n + 1) i j then 1 else 0 := by
  unfold Precedes
  by_cases hinside : inside
  case pos =>
    have hmod : cursor % n = cursor ∨ cursor = n ∧ cursor % n = 0 := by
      obtain hlt | heq := Nat.lt_or_eq_of_le (hcursor hinside)
      · exact .inl (Nat.mod_eq_of_lt hlt)
      · exact .inr ⟨heq, by rw [heq, Nat.mod_self]⟩
    generalize cursor % n = p at *
    simp only [hinside, true_and]
    split_ifs <;> omega
  case neg =>
    generalize cursor % n = p
    simp only [hinside, false_and, if_false]
    split_ifs <;> omega

theorem count_destutter'_cons (key last next : κ) (keys : List κ) :
    ((next :: keys).destutter' (· ≠ ·) last).count key =
      (keys.destutter' (· ≠ ·) next).count key + if last = key ∧ next ≠ key then 1 else 0 := by
  by_cases hlast : last = next
  case pos =>
    subst hlast
    rw [List.destutter'_cons_neg keys (not_not.mpr rfl), if_neg fun h ↦ h.2 h.1, Nat.add_zero]
  case neg =>
    rw [List.destutter'_cons_pos keys hlast, List.count_cons]
    congr 1
    by_cases hkey : last = key
    case pos =>
      subst hkey
      simp [Ne.symm hlast]
    case neg => simp [hkey]

/-- Inside a stretch a position that is still to come is one visit behind at most. The induction is
on the visits to come: a stretch that begins anew, at whatever cursor, is paid for by the number of
stretches. -/
theorem count_turns_add_le {size : κ → Nat} {key : κ} {i j : Nat} (hj : j < size key)
    (keys : List κ) {cursor : Nat} {last : κ}
    (hcursor : last = key → cursor ≤ size key) :
    (turns size cursor keys).count (key, i) +
        (if last = key ∧ ¬Precedes cursor i j then 1 else 0) ≤
      (turns size cursor keys).count (key, j) + (keys.destutter' (· ≠ ·) last).count key := by
  induction keys generalizing cursor last with
  | nil =>
    rw [turns, List.destutter'_nil, List.count_singleton]
    by_cases hlast : last = key
    case pos =>
      simp only [hlast, true_and, beq_self_eq_true, if_true]
      split_ifs <;> simp
    case neg => simp [hlast]
  | cons next keys ih =>
    have hnext : next = key → cursor % size next + 1 ≤ size key := by
      rintro rfl
      exact Nat.mod_lt cursor (Nat.zero_lt_of_lt hj)
    have hrest := ih hnext
    have hvisit := visit_add_le i hj hcursor
    rw [count_destutter'_cons]
    simp only [turns, List.count_cons, beq_iff_eq, Prod.mk.injEq]
    by_cases hkey : next = key
    case pos =>
      -- One more visit in this stretch, or the first visit of the next one, which is counted.
      subst hkey
      simp only [true_and, ne_eq, not_true_eq_false, and_false, if_false] at hrest ⊢
      omega
    case neg =>
      -- The stretch is broken. What one position was behind is covered by the stretch itself.
      simp only [hkey, false_and, if_false, ne_eq, not_false_eq_true, and_true] at hrest ⊢
      have hfirst : (if last = key ∧ ¬Precedes cursor i j then 1 else 0) ≤
          if last = key then 1 else 0 := by split_ifs <;> simp_all
      omega

/-- Two positions of the list with a key occur equally often, but for one visit in each stretch that
no other key breaks. -/
def EvenInStretches (visits : List (κ × Nat)) (key : κ) (size : Nat) : Prop :=
  ∀ i < size, ∀ j < size, visits.count (key, i) ≤
    visits.count (key, j) + stretches key (visits.map Prod.fst)

theorem evenInStretches_turns (size : κ → Nat) (cursor : Nat) (keys : List κ) (key : κ) :
    EvenInStretches (turns size cursor keys) key (size key) := by
  intro i _ j hj
  rw [map_fst_turns]
  cases keys with
  | nil => exact Nat.zero_le _
  | cons first keys =>
    -- The first list is visited in the same way from the cursor that is reduced to it.
    have hreduced : turns size cursor (first :: keys) =
        turns size (cursor % size first) (first :: keys) := by
      rw [turns, turns, Nat.mod_mod]
    have hstretches : stretches key (first :: keys) =
        ((first :: keys).destutter' (· ≠ ·) first).count key := by
      rw [stretches, List.destutter_cons', List.destutter'_cons_neg keys (not_not.mpr rfl)]
    rw [hreduced, hstretches]
    refine Nat.le_trans (Nat.le_add_right _ _)
      (count_turns_add_le (i := i) hj (first :: keys) ?_)
    rintro rfl
    exact Nat.le_of_lt (Nat.mod_lt cursor (Nat.zero_lt_of_lt hj))

/-- Without another key the numbers of visits differ by one at most. -/
theorem EvenInStretches.count_le {visits : List (κ × Nat)} {key : κ} {size : Nat}
    (heven : EvenInStretches visits key size) (halone : ∀ visit ∈ visits, visit.1 = key) {i j : Nat}
    (hi : i < size) (hj : j < size) : visits.count (key, i) ≤ visits.count (key, j) + 1 := by
  have hstretches : stretches key (visits.map Prod.fst) ≤ 1 := by
    apply stretches_le_one
    intro other hother
    obtain ⟨visit, hvisit, rfl⟩ := List.mem_map.mp hother
    exact halone visit hvisit
  exact (heven i hi j hj).trans (Nat.add_le_add_left hstretches _)

end Turns

/-! ## Lookups -/

/-- A lookup: the position that was picked where there were endpoints, and the answer. -/
structure Lookup where
  service : String
  position : Option Nat
  answer : Except Fault Endpoint

/-- The lookup answers the endpoint at the position that it picked among those there are, and fails
where there are none. -/
def Lookup.Answered (endpoints : List Endpoint) (lookup : Lookup) : Prop :=
  match lookup.position with
  | some position => ∃ e, endpoints[position]? = some e ∧ lookup.answer = .ok e
  | none => endpoints = [] ∧ ∃ fault, lookup.answer = .error fault

/-- The positions that lookups picked, each beside the service. -/
def picks (lookups : List Lookup) : List (String × Nat) :=
  lookups.filterMap fun lookup ↦ lookup.position.map fun position ↦ (lookup.service, position)

namespace Directory

variable {σ : Type}

/-- The endpoints among which a lookup picks one. -/
def endpoints (d : Directory σ) (service : String) : List Endpoint :=
  match (d.query service).1 with
  | .ok endpoints => endpoints
  | .error _ => []

def size (d : Directory σ) (service : String) : Nat := (d.endpoints service).length

/-- The position that a lookup picks where the balancer takes turns. -/
def turn (d : Directory σ) (service : String) : Option Nat :=
  match d.balancer, d.endpoints service with
  | .roundRobin cursor, e :: others => some (Balancer.reduced cursor (e :: others).length)
  | _, _ => none

abbrev inTurns (backend : Backend σ) (contents : σ) (cursor : Nat) : Directory σ :=
  ⟨backend, contents, .roundRobin cursor⟩

def lookups (d : Directory σ) : List String → List Lookup
  | [] => []
  | service :: services =>
    let (answer, after) := d.lookup service
    ⟨service, d.turn service, answer⟩ :: after.lookups services

/-- What is known of lookups in a directory that takes turns, while its registry does not change. -/
structure Spread (d : Directory σ) (services : List String) : Prop where
  /-- The services are looked up one by one. -/
  asked : (d.lookups services).map Lookup.service = services
  /-- Each is answered with the endpoint at the position that it picks, and fails without one. -/
  answered : ∀ lookup ∈ d.lookups services, lookup.Answered (d.endpoints lookup.service)
  /-- Each pick is at the position after the last pick, whichever service that was made for. -/
  round : (picks (d.lookups services)).IsChain fun last next ↦
    next.2 = (last.2 + 1) % d.size next.1
  /-- Within a service the picks are even in each stretch that no pick for another breaks. -/
  perService : ∀ service, EvenInStretches (picks (d.lookups services)) service (d.size service)
  /-- The same holds of all services together whose lists have the same length. -/
  perSize : ∀ size,
    EvenInStretches ((picks (d.lookups services)).map (Prod.map d.size id)) size size
  /-- Where all picks are made for one service, the numbers differ by one at most. -/
  alone : ∀ service, (∀ pick ∈ picks (d.lookups services), pick.1 = service) →
    ∀ i < d.size service, ∀ j < d.size service,
      (picks (d.lookups services)).count (service, i) ≤
        (picks (d.lookups services)).count (service, j) + 1

/-! ### One lookup -/

theorem query_of_reads {d : Directory σ} (hreads : d.backend.Reads) (service : String) :
    d.query service = ((d.query service).1, d) :=
  Prod.ext rfl (congrArg (fun contents ↦ { d with contents }) (hreads service d.contents))

theorem lookup_of_nil {d : Directory σ} {service : String} (hreads : d.backend.Reads)
    (hnone : d.endpoints service = []) : ∃ fault, d.lookup service = (.error fault, d) := by
  unfold endpoints at hnone
  unfold lookup
  rw [query_of_reads hreads]
  split at hnone
  case h_1 found hquery =>
    rw [hquery, hnone]
    exact ⟨.serviceNotFound service, rfl⟩
  case h_2 fault hquery =>
    rw [hquery]
    exact ⟨fault, rfl⟩

@[simp]
theorem turn_of_nil {d : Directory σ} {service : String} (hnone : d.endpoints service = []) :
    d.turn service = none := by
  unfold turn
  rw [hnone]
  split
  case h_1 h => cases h
  case h_2 => rfl

/-! ### All lookups -/

@[simp]
theorem asked_lookups (d : Directory σ) (services : List String) :
    (d.lookups services).map Lookup.service = services := by
  induction services generalizing d with
  | nil => rfl
  | cons service services ih => rw [lookups, List.map_cons, ih]

theorem lookups_cons_of_nil {d : Directory σ} {service : String} (hreads : d.backend.Reads)
    (hnone : d.endpoints service = []) (services : List String) :
    ∃ fault, d.lookups (service :: services) =
      ⟨service, none, .error fault⟩ :: d.lookups services := by
  obtain ⟨fault, hlookup⟩ := lookup_of_nil hreads hnone
  exact ⟨fault, by simp [lookups, hlookup, hnone]⟩

section

variable {backend : Backend σ} (hreads : backend.Reads) (contents : σ) (cursor : Nat)

theorem turn_inTurns {service : String} {found : List Endpoint}
    (hfound : (inTurns backend contents cursor).endpoints service = found) (hsome : found ≠ []) :
    (inTurns backend contents cursor).turn service = some (cursor % found.length) := by
  obtain ⟨e, others, rfl⟩ := List.exists_cons_of_ne_nil hsome
  unfold turn
  simp only [hfound, Balancer.reduced_eq_mod]

include hreads

theorem lookup_inTurns {service : String} {found : List Endpoint}
    (hfound : (inTurns backend contents cursor).endpoints service = found) (hsome : found ≠ []) :
    ∃ e, found[cursor % found.length]? = some e ∧
      (inTurns backend contents cursor).lookup service =
        (.ok e, inTurns backend contents (cursor % found.length + 1)) := by
  have hlt : cursor % found.length < found.length :=
    Nat.mod_lt cursor (List.length_pos_iff.mpr hsome)
  have he : found[cursor % found.length]? = some found[cursor % found.length] :=
    List.getElem?_eq_getElem hlt
  refine ⟨found[cursor % found.length], he, ?_⟩
  unfold endpoints at hfound
  unfold lookup
  rw [query_of_reads hreads]
  split at hfound
  case h_1 queried hquery =>
    subst hfound
    simp only [hquery, Balancer.select_roundRobin cursor hsome, he]
  case h_2 => exact absurd hfound.symm hsome

theorem lookups_cons_inTurns {service : String} {found : List Endpoint}
    (hfound : (inTurns backend contents cursor).endpoints service = found) (hsome : found ≠ [])
    (services : List String) :
    ∃ e, found[cursor % found.length]? = some e ∧
      (inTurns backend contents cursor).lookups (service :: services) =
        ⟨service, some (cursor % found.length), .ok e⟩ ::
          (inTurns backend contents (cursor % found.length + 1)).lookups services := by
  obtain ⟨e, he, hlookup⟩ := lookup_inTurns hreads contents cursor hfound hsome
  refine ⟨e, he, ?_⟩
  rw [lookups, hlookup, turn_inTurns contents cursor hfound hsome]

theorem answered_lookups (services : List String) :
    ∀ lookup ∈ (inTurns backend contents cursor).lookups services,
      lookup.Answered ((inTurns backend contents cursor).endpoints lookup.service) := by
  induction services generalizing cursor with
  | nil => exact fun lookup hmem ↦ absurd hmem List.not_mem_nil
  | cons service services ih =>
    by_cases hnone : (inTurns backend contents cursor).endpoints service = []
    case pos =>
      obtain ⟨fault, hcons⟩ := lookups_cons_of_nil hreads hnone services
      rw [hcons]
      exact List.forall_mem_cons.mpr ⟨⟨hnone, fault, rfl⟩, ih cursor⟩
    case neg =>
      obtain ⟨e, he, hcons⟩ := lookups_cons_inTurns hreads contents cursor rfl hnone services
      rw [hcons]
      exact List.forall_mem_cons.mpr ⟨⟨e, he, rfl⟩, ih _⟩

/-- The picks are the turns of the cursor through the lists of those services that have one. -/
theorem picks_lookups (services : List String) :
    picks ((inTurns backend contents cursor).lookups services) =
      turns (inTurns backend contents cursor).size cursor
        (services.filter fun service ↦
          (inTurns backend contents cursor).endpoints service ≠ []) := by
  induction services generalizing cursor with
  | nil => rfl
  | cons service services ih =>
    by_cases hnone : (inTurns backend contents cursor).endpoints service = []
    case pos =>
      obtain ⟨fault, hcons⟩ := lookups_cons_of_nil hreads hnone services
      rw [hcons, List.filter_cons_of_neg (by simp [hnone]), ← ih cursor]
      rfl
    case neg =>
      obtain ⟨e, he, hcons⟩ := lookups_cons_inTurns hreads contents cursor rfl hnone services
      rw [hcons, List.filter_cons_of_pos (by simp [hnone]), turns]
      exact congrArg _ (ih _)

/-- However the services are interleaved, a directory that takes turns goes round, and each service
is served evenly between the picks for others. -/
theorem spread_lookups (services : List String) :
    (inTurns backend contents cursor).Spread services := by
  have hpicks := picks_lookups hreads contents cursor services
  set d := inTurns backend contents cursor
  set found := services.filter fun service ↦ d.endpoints service ≠ []
  have hperService : ∀ service,
      EvenInStretches (picks (d.lookups services)) service (d.size service) := by
    rw [hpicks]
    exact evenInStretches_turns d.size cursor found
  constructor
  case asked => simp
  case answered => exact answered_lookups hreads contents cursor services
  case round =>
    rw [hpicks]
    exact isChain_turns d.size cursor found
  case perService => exact hperService
  case perSize =>
    rw [hpicks, map_turns]
    exact evenInStretches_turns id cursor (found.map d.size)
  case alone =>
    intro service halone i hi j hj
    exact (hperService service).count_le halone hi hj

end

/-! ### Services that alternate -/

/-- Two services with two endpoints each. -/
def twoPairs : Registry :=
  [("a", 1), ("a", 2), ("b", 3), ("b", 4)].foldl
    (fun r entry ↦ r.register entry.1 ⟨"h", entry.2⟩) .empty

theorem spread_pairs :
    let d : Directory Registry := inTurns (.refusing Backend.refusesByName .memory) twoPairs 0
    d.Spread ["a", "bad", "b", "b"] ∧
      picks (d.lookups ["a", "bad", "b", "b"]) = [("a", 0), ("b", 1), ("b", 0)] :=
  ⟨spread_lookups (Backend.Provided.memory.refusing _).reads twoPairs 0 _, by decide +kernel⟩

/-- One lookup of another service between two lookups is enough for both to pick the same one of two
positions. -/
theorem uneven_lookups :
    let d : Directory Registry := ⟨.memory, twoPairs, Balancer.Policy.roundRobin.balancer 0⟩
    let picked := picks (d.lookups ["a", "b", "a"])
    d.size "a" = 2 ∧ picked = [("a", 0), ("b", 1), ("a", 0)] ∧
      ¬picked.count ("a", 0) ≤ picked.count ("a", 1) + 1 := by
  decide +kernel

end Directory

end FramedRpc
