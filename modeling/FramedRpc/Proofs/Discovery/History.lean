import Mathlib.Data.List.Induction
import Mathlib.Data.List.Nodup
import FramedRpc.Proofs.Discovery.Registry

/-!
# Registrations one after the other

What the registry in memory answers is decided by what was registered and deregistered before. An
endpoint is listed for a service if the last change of the two was a registration, and the endpoints
of a service stand in the order in which they came to stay. A change of one endpoint of one service
leaves all other services, and the order of the other endpoints, as they were.
-/

namespace FramedRpc.Registry

/-! ## Lists of endpoints -/

def without (e : Endpoint) (endpoints : List Endpoint) : List Endpoint :=
  endpoints.filter fun other ↦ other ≠ e

section Without

variable {a b e : Endpoint} {endpoints : List Endpoint}

@[simp]
theorem mem_without : a ∈ without e endpoints ↔ a ∈ endpoints ∧ a ≠ e := by
  simp [without]

@[simp]
theorem without_eq_self (h : e ∉ endpoints) : without e endpoints = endpoints :=
  List.filter_eq_self.mpr fun _ hother ↦ decide_eq_true fun heq ↦ h (heq ▸ hother)

@[simp]
theorem without_concat_self : without e (endpoints ++ [e]) = without e endpoints := by
  simp [without]

@[simp]
theorem without_concat_of_ne (h : a ≠ e) :
    without e (endpoints ++ [a]) = without e endpoints ++ [a] := by
  simp [without, h]

theorem without_without : without e (without e endpoints) = without e endpoints :=
  without_eq_self fun hmem ↦ (mem_without.mp hmem).2 rfl

theorem without_comm : without a (without b endpoints) = without b (without a endpoints) := by
  unfold without
  rw [List.filter_filter, List.filter_filter]
  exact List.filter_congr fun _ _ ↦ Bool.and_comm ..

end Without

inductive Change where
  | register (service : String) (e : Endpoint)
  | deregister (service : String) (e : Endpoint)
  deriving DecidableEq, Repr

namespace Change

def service : Change → String
  | .register service _ | .deregister service _ => service

def endpoint : Change → Endpoint
  | .register _ e | .deregister _ e => e

def Concerns (c : Change) (service : String) (e : Endpoint) : Prop :=
  c.service = service ∧ c.endpoint = e

instance (c : Change) (service : String) (e : Endpoint) : Decidable (c.Concerns service e) :=
  inferInstanceAs (Decidable (_ ∧ _))

def adjust (endpoints : List Endpoint) : Change → List Endpoint
  | .register _ e => if e ∈ endpoints then endpoints else endpoints ++ [e]
  | .deregister _ e => without e endpoints

variable {c : Change} {endpoints : List Endpoint} {service : String} {e : Endpoint}

theorem Concerns.resolve (h : c.Concerns service e) (hc : c ≠ .deregister service e) :
    c = .register service e := by
  obtain ⟨rfl, rfl⟩ := h
  cases c with
  | register => rfl
  | deregister => exact absurd rfl hc

@[simp]
theorem mem_adjust_self : c.endpoint ∈ c.adjust endpoints ↔ c = .register c.service c.endpoint := by
  cases c with
  | register service e =>
    refine iff_of_true ?_ rfl
    show e ∈ if e ∈ endpoints then endpoints else endpoints ++ [e]
    split
    case isTrue hknown => exact hknown
    case isFalse => exact List.mem_append_right _ List.mem_cons_self
  | deregister service e => exact iff_of_false (fun hmem ↦ (mem_without.mp hmem).2 rfl) nofun

/-- But for its own endpoint a change keeps the endpoints and their order. -/
@[simp]
theorem without_adjust_self :
    without c.endpoint (c.adjust endpoints) = without c.endpoint endpoints := by
  cases c with
  | register service e =>
    show without e (if e ∈ endpoints then endpoints else endpoints ++ [e]) = without e endpoints
    split
    case isTrue => rfl
    case isFalse => simp
  | deregister service e => exact without_without

/-- A change does to the endpoints other than a third one what it does to all of them. -/
theorem without_adjust_of_ne (h : c.endpoint ≠ e) :
    without e (c.adjust endpoints) = c.adjust (without e endpoints) := by
  cases c with
  | register service other =>
    show without e (if other ∈ endpoints then endpoints else endpoints ++ [other]) =
      if other ∈ without e endpoints then _ else without e endpoints ++ [other]
    by_cases hknown : other ∈ endpoints
    case pos => rw [if_pos hknown, if_pos (mem_without.mpr ⟨hknown, h⟩)]
    case neg =>
      rw [if_neg hknown, if_neg fun hmem ↦ hknown (mem_without.mp hmem).1]
      exact without_concat_of_ne h
  | deregister service other => exact without_comm

theorem mem_adjust_of_ne (h : c.endpoint ≠ e) : e ∈ c.adjust endpoints ↔ e ∈ endpoints := by
  have hmem (l : List Endpoint) : e ∈ l ↔ e ∈ without c.endpoint l :=
    ⟨fun he ↦ mem_without.mpr ⟨he, h.symm⟩, fun he ↦ (mem_without.mp he).1⟩
  rw [hmem, without_adjust_self, ← hmem]

theorem nodup_adjust (h : endpoints.Nodup) : (c.adjust endpoints).Nodup := by
  cases c with
  | register service other =>
    show (if other ∈ endpoints then endpoints else endpoints ++ [other]).Nodup
    split
    case isTrue => exact h
    case isFalse hnew => exact List.concat_eq_append ▸ h.concat hnew
  | deregister service other => exact h.filter _

end Change

def after (r : Registry) : Change → Registry
  | .register service e => r.register service e
  | .deregister service e => r.deregister service e

def afterAll (r : Registry) (changes : List Change) : Registry := changes.foldl after r

variable {r q : Registry} {c : Change} {changes : List Change} {service name : String}
  {e : Endpoint}

@[simp]
theorem afterAll_concat (r : Registry) (changes : List Change) (c : Change) :
    r.afterAll (changes ++ [c]) = (r.afterAll changes).after c := List.foldl_concat ..

/-! ## One change -/

@[simp]
theorem query_after (r : Registry) (c : Change) (name : String) :
    (r.after c).query name = if name = c.service then c.adjust (r.query name) else r.query name := by
  cases c with
  | register service e =>
    show (r.register service e).query name = if name = service then ite _ _ _ else r.query name
    rw [query_register]
    by_cases hname : name = service
    all_goals by_cases hknown : e ∈ r.query name
    all_goals simp [hname, hknown]
  | deregister service e => exact query_deregister r service e name

theorem mem_query_after_of_concerns (h : c.Concerns service e) :
    e ∈ (r.after c).query service ↔ c = .register service e := by
  obtain ⟨rfl, rfl⟩ := h
  simp

theorem mem_query_after_of_not_concerns (h : ¬ c.Concerns service e) :
    e ∈ (r.after c).query service ↔ e ∈ r.query service := by
  rw [query_after]
  split
  case isTrue hservice => exact Change.mem_adjust_of_ne fun he ↦ h ⟨hservice.symm, he⟩
  case isFalse => rfl

/-- An endpoint stays listed unless it is deregistered. -/
theorem mem_query_after_of_mem (h : e ∈ r.query service) (hc : c ≠ .deregister service e) :
    e ∈ (r.after c).query service := by
  by_cases hconcerns : c.Concerns service e
  case pos => exact (mem_query_after_of_concerns hconcerns).mpr (hconcerns.resolve hc)
  case neg => exact (mem_query_after_of_not_concerns hconcerns).mpr h

/-- A change takes endpoints from a service, or it adds one behind all others. -/
theorem query_after_cases (r : Registry) (c : Change) (service : String) :
    ((r.after c).query service).Sublist (r.query service) ∨
      ∃ e, c = .register service e ∧ e ∉ r.query service ∧
        (r.after c).query service = r.query service ++ [e] := by
  rw [query_after]
  split
  case isFalse => exact .inl (List.Sublist.refl _)
  case isTrue hservice =>
    subst hservice
    cases c with
    | register service e =>
      by_cases hknown : e ∈ r.query service
      case pos => exact .inl (by simp [Change.adjust, Change.service, hknown])
      case neg => exact .inr ⟨e, rfl, hknown, if_neg hknown⟩
    | deregister service e => exact .inl List.filter_sublist

/-- A registry answers as another one does, up to one endpoint of one service. -/
structure AlikeBut (service : String) (e : Endpoint) (r q : Registry) : Prop where
  others : ∀ name, name ≠ service → q.query name = r.query name
  kept : without e (q.query service) = without e (r.query service)

/-- A change of an endpoint of a service leaves all other services, and the order of the other
endpoints, as they were. -/
theorem alikeBut_after (r : Registry) (c : Change) :
    AlikeBut c.service c.endpoint r (r.after c) where
  others name hname := by simp [hname]
  kept := by simp

/-- Registries that answer alike up to an endpoint still do so behind a change of another one. -/
theorem AlikeBut.after (h : AlikeBut service e r q) (hc : c.endpoint ≠ e) :
    AlikeBut service e (r.after c) (q.after c) where
  others name hname := by simp [h.others name hname]
  kept := by
    simp only [query_after]
    split
    case isTrue => rw [Change.without_adjust_of_ne hc, Change.without_adjust_of_ne hc, h.kept]
    case isFalse => exact h.kept

theorem Tidy.after (h : r.Tidy) (c : Change) : (r.after c).Tidy := by
  cases c with
  | register service e => exact h.register service e
  | deregister service e => exact h.deregister service e

/-! ## Any number of changes -/

theorem afterAll_append (r : Registry) (before behind : List Change) :
    r.afterAll (before ++ behind) = (r.afterAll before).afterAll behind := List.foldl_append

theorem tidy_afterAll (h : r.Tidy) (changes : List Change) : (r.afterAll changes).Tidy := by
  induction changes generalizing r with
  | nil => exact h
  | cons c changes ih => exact ih (h.after c)

theorem nodup_query_afterAll (h : ∀ name, (r.query name).Nodup) (changes : List Change) :
    ∀ name, ((r.afterAll changes).query name).Nodup := by
  induction changes generalizing r with
  | nil => exact h
  | cons c changes ih =>
    refine ih fun name ↦ ?_
    rw [query_after]
    split
    case isTrue => exact Change.nodup_adjust (h name)
    case isFalse => exact h name

theorem AlikeBut.afterAll (h : AlikeBut service e r q) (hchanges : ∀ c ∈ changes, c.endpoint ≠ e) :
    AlikeBut service e (r.afterAll changes) (q.afterAll changes) := by
  induction changes generalizing r q with
  | nil => exact h
  | cons c changes ih =>
    exact ih (h.after (hchanges c List.mem_cons_self))
      fun d hd ↦ hchanges d (List.mem_cons_of_mem c hd)

/-- Changes of other endpoints do not decide whether an endpoint is listed. -/
theorem mem_query_afterAll_of_ne (hchanges : ∀ c ∈ changes, c.endpoint ≠ e) :
    e ∈ (r.afterAll changes).query service ↔ e ∈ r.query service := by
  induction changes generalizing r with
  | nil => rfl
  | cons c changes ih =>
    have hc : ¬ c.Concerns service e := fun hconcerns ↦ hchanges c List.mem_cons_self hconcerns.2
    exact (ih fun d hd ↦ hchanges d (List.mem_cons_of_mem c hd)).trans
      (mem_query_after_of_not_concerns hc)

/-- The last change that is about an endpoint and a service. -/
def lastOn (changes : List Change) (service : String) (e : Endpoint) : Option Change :=
  (changes.filter fun c ↦ c.Concerns service e).getLast?

@[simp]
theorem lastOn_concat (changes : List Change) (c : Change) (service : String) (e : Endpoint) :
    lastOn (changes ++ [c]) service e =
      if c.Concerns service e then some c else lastOn changes service e := by
  unfold lastOn
  rw [List.filter_append]
  split
  case isTrue h => simp [h]
  case isFalse h => simp [h]

/-- An endpoint is listed if the last change that is about it was its registration. -/
theorem mem_query_afterAll (changes : List Change) (service : String) (e : Endpoint) :
    e ∈ (empty.afterAll changes).query service ↔
      lastOn changes service e = some (.register service e) := by
  induction changes using List.reverseRecOn with
  | nil => exact iff_of_false List.not_mem_nil nofun
  | append_singleton changes c ih =>
    simp only [afterAll_concat, lastOn_concat]
    split
    case isTrue h => rw [mem_query_after_of_concerns h, Option.some.injEq]
    case isFalse h => rw [mem_query_after_of_not_concerns h, ih]

/-! ## The order of the endpoints -/

/-- The change at a position is the first registration of an endpoint for a service since the last
end of one, and it was not ended. -/
structure JoinedAt (changes : List Change) (service : String) (e : Endpoint) (n : Nat) : Prop where
  registered : changes[n]? = some (.register service e)
  first : ∀ m < n, changes[m]? = some (.register service e) →
    ∃ k, m < k ∧ k < n ∧ changes[k]? = some (.deregister service e)
  stayed : ∀ m, n < m → changes[m]? ≠ some (.deregister service e)

namespace JoinedAt

theorem lt_length {n : Nat} (h : JoinedAt changes service e n) : n < changes.length :=
  (List.getElem?_eq_some_iff.mp h.registered).1

theorem le {m n : Nat} (hm : JoinedAt changes service e m) (hn : JoinedAt changes service e n) :
    n ≤ m := by
  refine Nat.le_of_not_lt fun hlt ↦ ?_
  obtain ⟨k, hk, -, hended⟩ := hn.first m hlt hm.registered
  exact hm.stayed k hk hended

/-- An endpoint came to stay once only. -/
theorem unique {m n : Nat} (hm : JoinedAt changes service e m)
    (hn : JoinedAt changes service e n) : m = n := Nat.le_antisymm (hn.le hm) (hm.le hn)

theorem concat {n : Nat} (h : JoinedAt changes service e n) (hc : c ≠ .deregister service e) :
    JoinedAt (changes ++ [c]) service e n := by
  have hlt := h.lt_length
  have hbefore {m : Nat} (hm : m ≤ n) : (changes ++ [c])[m]? = changes[m]? :=
    List.getElem?_append_left (by omega)
  refine ⟨hbefore (Nat.le_refl n) ▸ h.registered, fun m hm hregistered ↦ ?_, fun m hm hended ↦ ?_⟩
  · rw [hbefore (Nat.le_of_lt hm)] at hregistered
    obtain ⟨k, hmk, hkn, hended⟩ := h.first m hm hregistered
    exact ⟨k, hmk, hkn, by rw [hbefore (Nat.le_of_lt hkn), hended]⟩
  · rw [getElem?_concat] at hended
    split at hended
    case isTrue => exact hc (Option.some.inj hended)
    case isFalse => exact h.stayed m hm hended

end JoinedAt

/-- The registration of an endpoint that is not listed was ended. -/
theorem exists_deregister {m : Nat} (hmem : e ∉ (empty.afterAll changes).query service)
    (hm : changes[m]? = some (.register service e)) :
    ∃ k, m < k ∧ k < changes.length ∧ changes[k]? = some (.deregister service e) := by
  induction changes using List.reverseRecOn with
  | nil => cases hm
  | append_singleton changes c ih =>
    rw [afterAll_concat] at hmem
    rw [getElem?_concat] at hm
    rw [List.length_append, List.length_singleton]
    split at hm
    case isTrue =>
      obtain rfl := Option.some.inj hm
      exact absurd ((mem_query_after_of_concerns ⟨rfl, rfl⟩).mpr rfl) hmem
    case isFalse =>
      by_cases hc : c = .deregister service e
      case pos =>
        have hlt : m < changes.length := (List.getElem?_eq_some_iff.mp hm).1
        exact ⟨changes.length, hlt, Nat.lt_succ_self _, by rw [List.getElem?_concat_length, hc]⟩
      case neg =>
        obtain ⟨k, hmk, hk, hended⟩ := ih (fun he ↦ hmem (mem_query_after_of_mem he hc)) hm
        exact ⟨k, hmk, Nat.lt_succ_of_lt hk, by rw [List.getElem?_append_left hk, hended]⟩

/-- An endpoint that was not listed joins with its registration. -/
theorem joinedAt_concat (hmem : e ∉ (empty.afterAll changes).query service) :
    JoinedAt (changes ++ [.register service e]) service e changes.length where
  registered := List.getElem?_concat_length
  first m hm hregistered := by
    rw [List.getElem?_append_left hm] at hregistered
    obtain ⟨k, hmk, hk, hended⟩ := exists_deregister hmem hregistered
    exact ⟨k, hmk, hk, by rw [List.getElem?_append_left hk, hended]⟩
  stayed m hm hended := by
    have hlt := (List.getElem?_eq_some_iff.mp hended).1
    rw [List.length_append, List.length_singleton] at hlt
    omega

/-- What is listed was not ended by the last change. -/
theorem ne_deregister_of_mem (h : e ∈ (r.after c).query service) : c ≠ .deregister service e := by
  rintro rfl
  cases (mem_query_after_of_concerns ⟨rfl, rfl⟩).mp h

/-- Every endpoint that is listed came to stay at some time. -/
theorem exists_joinedAt (h : e ∈ (empty.afterAll changes).query service) :
    ∃ n, JoinedAt changes service e n := by
  induction changes using List.reverseRecOn with
  | nil => cases h
  | append_singleton changes c ih =>
    rw [afterAll_concat] at h
    by_cases hbefore : e ∈ (empty.afterAll changes).query service
    case pos =>
      obtain ⟨n, hn⟩ := ih hbefore
      exact ⟨n, hn.concat (ne_deregister_of_mem h)⟩
    case neg =>
      have hconcerns : c.Concerns service e :=
        not_not.mp fun hc ↦ hbefore ((mem_query_after_of_not_concerns hc).mp h)
      obtain rfl := (mem_query_after_of_concerns hconcerns).mp h
      exact ⟨changes.length, joinedAt_concat hbefore⟩

/-- The endpoints of a service stand in the order in which they came to stay. -/
theorem pairwise_query_afterAll (changes : List Change) (service : String) :
    ((empty.afterAll changes).query service).Pairwise fun a b ↦
      ∃ m n, JoinedAt changes service a m ∧ JoinedAt changes service b n ∧ m < n := by
  induction changes using List.reverseRecOn with
  | nil => exact List.Pairwise.nil
  | append_singleton changes c ih =>
    rw [afterAll_concat]
    rcases query_after_cases (empty.afterAll changes) c service with hsublist | ⟨e, rfl, hnew, heq⟩
    · refine (ih.sublist hsublist).imp_of_mem fun {a b} ha hb hordered ↦ ?_
      obtain ⟨m, n, hm, hn, hlt⟩ := hordered
      exact ⟨m, n, hm.concat (ne_deregister_of_mem ha), hn.concat (ne_deregister_of_mem hb), hlt⟩
    · rw [heq, List.pairwise_append]
      refine ⟨ih.imp fun ⟨m, n, hm, hn, hlt⟩ ↦ ⟨m, n, hm.concat nofun, hn.concat nofun, hlt⟩,
        List.pairwise_singleton _ e, fun a ha b hb ↦ ?_⟩
      obtain rfl := List.mem_singleton.mp hb
      obtain ⟨m, hm⟩ := exists_joinedAt ha
      exact ⟨m, changes.length, hm.concat nofun, joinedAt_concat hnew, hm.lt_length⟩

/-! ## What a registry answers -/

/-- A registry answers what its history says. -/
structure Records (r : Registry) (changes : List Change) : Prop where
  /-- Exactly those endpoints are listed for a service whose last change was a registration. -/
  mem_iff : ∀ service e, e ∈ r.query service ↔
    lastOn changes service e = some (.register service e)
  nodup : ∀ service, (r.query service).Nodup
  /-- They came to stay one after the other. -/
  joined : ∀ service, ∀ e ∈ r.query service, ∃ n, JoinedAt changes service e n
  ordered : ∀ service, (r.query service).Pairwise fun a b ↦
    ∀ m n, JoinedAt changes service a m → JoinedAt changes service b n → m < n
  /-- The names are those of the services that have endpoints, in ascending order. -/
  mem_names_iff : ∀ name, name ∈ r.names ↔ r.query name ≠ []
  ascending : r.names.Pairwise (· < ·)
  /-- One more change leaves the other services and the order of the other endpoints. -/
  alike : ∀ c : Change, AlikeBut c.service c.endpoint r (r.after c)

/-- The registry in memory answers what was registered and not deregistered later, in the order of
the registrations. -/
theorem records_afterAll (changes : List Change) : (empty.afterAll changes).Records changes where
  mem_iff := mem_query_afterAll changes
  nodup := nodup_query_afterAll (r := empty) (fun _ ↦ List.nodup_nil) changes
  joined _ _ h := exists_joinedAt h
  ordered service := by
    refine (pairwise_query_afterAll changes service).imp fun hordered m n hm hn ↦ ?_
    obtain ⟨m', n', hm', hn', hlt⟩ := hordered
    rwa [hm.unique hm', hn.unique hn']
  mem_names_iff := (tidy_afterAll tidy_empty changes).mem_names_iff
  ascending := (tidy_afterAll tidy_empty changes).pairwise_names
  alike := alikeBut_after _

end FramedRpc.Registry
