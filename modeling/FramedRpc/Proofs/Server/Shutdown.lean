import FramedRpc.Proofs.Discovery.History
import FramedRpc.Proofs.Server.Startup

/-!
# Servers that stop

A server registers its endpoint for its services when it starts and takes it back when it stops. In
the meantime others register and deregister their own endpoints in the same registry, before, between
and behind its calls. Once the server was stopped, a service for which the endpoint could be taken
back is answered as if the server had never started, in the same order, and all other services are.
-/

namespace FramedRpc

open Registry (Change without)

/-! ## Registries in the hands of others -/

/-- A registry in memory that others use as well. -/
structure SharedRegistry where
  registry : Registry
  /-- What the others do before each of the next calls, and behind the last one. -/
  pending : List (List Change)
  /-- The changes for which there was a call, whether or not it was refused. -/
  calls : List Change

namespace SharedRegistry

/-- The registry when the others have done all that they will do. -/
def settled (s : SharedRegistry) : Registry := s.registry.afterAll s.pending.flatten

/-- The registry when the next call comes. -/
def awaken (s : SharedRegistry) : SharedRegistry :=
  { s with registry := s.registry.afterAll (s.pending.headD []), pending := s.pending.tail }

/-- A call for a change, which may be refused. -/
def call (refusal : Option Fault) (c : Change) (s : SharedRegistry) :
    Except Fault Unit × SharedRegistry :=
  let s := s.awaken
  let s := { s with calls := s.calls ++ [c] }
  match refusal with
  | some fault => (.error fault, s)
  | none => (.ok (), { s with registry := s.registry.after c })

end SharedRegistry

/-- The shared registry, which refuses some calls. -/
def Backend.shared (refusal : Change → Option Fault) : Backend SharedRegistry where
  register service e s := s.call (refusal (.register service e)) (.register service e)
  deregister service e s := s.call (refusal (.deregister service e)) (.deregister service e)
  query service s := (.ok (s.awaken.registry.query service), s.awaken)

namespace SharedRegistry

variable {s s' : SharedRegistry} {c : Change} {e : Endpoint} {service name : String}

/-- The others change other endpoints only. -/
def Spares (s : SharedRegistry) (e : Endpoint) : Prop :=
  ∀ c ∈ s.pending.flatten, c.endpoint ≠ e

@[simp]
theorem settled_awaken (s : SharedRegistry) : s.awaken.settled = s.settled := by
  obtain ⟨registry, pending, calls⟩ := s
  cases pending with
  | nil => rfl
  | cons next pending => simp [awaken, settled, Registry.afterAll_append]

theorem Spares.awaken (h : s.Spares e) : s.awaken.Spares e := by
  obtain ⟨registry, pending, calls⟩ := s
  cases pending with
  | nil => exact h
  | cons next pending => exact fun c hc ↦ h c (List.mem_append_right next hc)

theorem Spares.call (h : s.Spares e) (refusal : Option Fault) (c : Change) :
    (SharedRegistry.call refusal c s).2.Spares e := by
  cases refusal <;> exact h.awaken

theorem eq_of_call_ok {refusal : Option Fault} (h : call refusal c s = (.ok (), s')) :
    refusal = none ∧ s' = (call none c s).2 := by
  cases refusal with
  | none => exact ⟨rfl, (congrArg Prod.snd h).symm⟩
  | some fault => cases h

@[simp]
theorem calls_call (refusal : Option Fault) (c : Change) (s : SharedRegistry) :
    (call refusal c s).2.calls = s.calls ++ [c] := by
  cases refusal <;> rfl

/-- A call that is refused makes no difference in the end. -/
@[simp]
theorem settled_call_some (fault : Fault) (c : Change) (s : SharedRegistry) :
    (call (some fault) c s).2.settled = s.settled := settled_awaken s

/-- A call that is not refused makes the difference in the end that it makes when it comes. -/
theorem alikeBut_call_none (c : Change) (h : s.Spares c.endpoint) :
    Registry.AlikeBut c.service c.endpoint s.settled (call none c s).2.settled := by
  rw [← settled_awaken s]
  exact (Registry.alikeBut_after s.awaken.registry c).afterAll h.awaken

theorem mem_call_none (c : Change) (h : s.Spares c.endpoint) :
    c.endpoint ∈ (call none c s).2.settled.query c.service ↔
      c = .register c.service c.endpoint :=
  (Registry.mem_query_afterAll_of_ne h.awaken).trans
    (Registry.mem_query_after_of_concerns ⟨rfl, rfl⟩)

/-- A deregistration that is not refused takes the endpoint from its service in the end. -/
theorem query_call_deregister (h : s.Spares e) (refusal : Option Fault) (service name : String) :
    (call refusal (.deregister service e) s).2.settled.query name =
      if name = service ∧ refusal = none then without e (s.settled.query name)
      else s.settled.query name := by
  cases refusal with
  | some fault =>
    simp
  | none =>
    have hcall := alikeBut_call_none (.deregister service e) h
    split
    case isTrue hservice =>
      obtain ⟨rfl, -⟩ := hservice
      have hgone : e ∉ (call none (.deregister name e) s).2.settled.query name :=
        fun hmem ↦ nomatch (mem_call_none _ h).mp hmem
      rw [← Registry.without_eq_self hgone]
      exact hcall.kept
    case isFalse hservice => exact hcall.others name fun hname ↦ hservice ⟨hname, rfl⟩

end SharedRegistry

open SharedRegistry

variable {refusal : Change → Option Fault} {e : Endpoint} {services : List String}
  {s s' : SharedRegistry}

/-! ## The calls of a start -/

/-- What has become of a shared registry in which an endpoint was registered for some services. -/
structure Registered (e : Endpoint) (services : List String) (s s' : SharedRegistry) : Prop where
  spares : s'.Spares e
  calls : s'.calls = s.calls ++ services.map fun service ↦ .register service e
  mem : ∀ name ∈ services, e ∈ s'.settled.query name
  kept : ∀ name, without e (s'.settled.query name) = without e (s.settled.query name)
  others : ∀ name ∉ services, s'.settled.query name = s.settled.query name

theorem registered_registerAll (hs : s.Spares e)
    (h : Server.registerAll (.shared refusal) e services s = (.ok (), s')) :
    Registered e services s s' := by
  induction services generalizing s with
  | nil =>
    obtain ⟨-, rfl⟩ := Prod.mk.inj h
    exact ⟨hs, (List.append_nil _).symm, nofun, fun _ ↦ rfl, fun _ _ ↦ rfl⟩
  | cons service rest ih =>
    unfold Server.registerAll at h
    split at h
    case h_1 t hfirst =>
      obtain ⟨-, rfl⟩ := eq_of_call_ok hfirst
      have hcall := alikeBut_call_none (.register service e) hs
      have hrest := ih (hs.call none _) h
      refine ⟨hrest.spares, ?_, fun name hname ↦ ?_, fun name ↦ ?_, fun name hname ↦ ?_⟩
      · simp [hrest.calls]
      · by_cases hbehind : name ∈ rest
        case pos => exact hrest.mem name hbehind
        case neg =>
          obtain rfl : name = service := (List.mem_cons.mp hname).resolve_right hbehind
          rw [hrest.others name hbehind]
          exact (mem_call_none (.register name e) hs).mpr rfl
      · rw [hrest.kept]
        by_cases hservice : name = service
        case pos => exact hservice ▸ hcall.kept
        case neg => rw [hcall.others name hservice]
      · rw [hrest.others name (List.not_mem_of_not_mem_cons hname)]
        exact hcall.others name (List.ne_of_not_mem_cons hname)
    case h_2 => cases h

/-! ## The calls of a stop -/

/-- What has become of a shared registry in which an endpoint was deregistered for some services. -/
structure Withdrawn (refusal : Change → Option Fault) (e : Endpoint) (services : List String)
    (s s' : SharedRegistry) : Prop where
  calls : s'.calls = s.calls ++ services.map fun service ↦ .deregister service e
  removed : ∀ name ∈ services, refusal (.deregister name e) = none →
    s'.settled.query name = without e (s.settled.query name)
  others : ∀ name, name ∉ services ∨ refusal (.deregister name e) ≠ none →
    s'.settled.query name = s.settled.query name

theorem withdrawn_deregisterAll (hs : s.Spares e) (services : List String) :
    Withdrawn refusal e services s
      (RunningServer.deregisterAll (.shared refusal) e services s).2 := by
  induction services generalizing s with
  | nil => exact ⟨(List.append_nil _).symm, nofun, fun _ _ ↦ rfl⟩
  | cons service rest ih =>
    let t := (call (refusal (.deregister service e)) (.deregister service e) s).2
    show Withdrawn refusal e (service :: rest) s
      (RunningServer.deregisterAll (.shared refusal) e rest t).2
    have hfirst := query_call_deregister hs (refusal (.deregister service e)) service
    have hrest := ih (hs.call (refusal (.deregister service e)) (.deregister service e))
    refine ⟨?_, fun name hname hrefusal ↦ ?_, fun name hname ↦ ?_⟩
    · simp [hrest.calls, t]
    · by_cases hbehind : name ∈ rest
      case pos =>
        rw [hrest.removed name hbehind hrefusal, hfirst]
        split
        case isTrue => simp
        case isFalse => rfl
      case neg =>
        obtain rfl : name = service := (List.mem_cons.mp hname).resolve_right hbehind
        rw [hrest.others name (.inl hbehind), hfirst, if_pos ⟨rfl, hrefusal⟩]
    · have hbehind : name ∉ rest ∨ refusal (.deregister name e) ≠ none :=
        hname.imp_left List.not_mem_of_not_mem_cons
      rw [hrest.others name hbehind, hfirst, if_neg]
      rintro ⟨rfl, hrefusal⟩
      exact hname.elim (fun h ↦ h List.mem_cons_self) fun h ↦ h hrefusal

/-- The first refusal is reported. -/
theorem deregisterAll_fst (refusal : Change → Option Fault) (e : Endpoint) (services : List String)
    (s : SharedRegistry) : (RunningServer.deregisterAll (.shared refusal) e services s).1 =
      match services.findSome? fun service ↦ refusal (.deregister service e) with
      | some fault => .error fault
      | none => .ok () := by
  induction services generalizing s with
  | nil => rfl
  | cons service rest ih =>
    let first := call (refusal (.deregister service e)) (.deregister service e) s
    show (first.1 >>= fun _ ↦ (RunningServer.deregisterAll (.shared refusal) e rest first.2).1) = _
    rw [ih, List.findSome?_cons]
    show (SharedRegistry.call _ _ s).1 >>= _ = _
    cases refusal (.deregister service e) <;> rfl

/-! ## From the start to the end of a server -/

/-- A server that was started has registered its endpoint for every service. -/
theorem Server.registerAll_of_start {σ : Type} {b : Backend σ} {server : Server}
    {listener : Except String Endpoint} {running : RunningServer} {s s' : σ}
    (h : server.start b listener s = (.returned running, s')) :
    running.services = server.catalogue.names ∧
      registerAll b running.endpoint running.services s = (.ok (), s') := by
  unfold start at h
  split at h
  case h_1 => cases h
  case h_2 bound =>
    dsimp only at h
    split at h
    case h_1 => cases h
    case h_2 t hregister =>
      split at h
      case isTrue =>
        obtain ⟨hrunning, rfl⟩ := Prod.mk.inj h
        obtain rfl := Outcome.returned.inj hrunning
        exact ⟨rfl, hregister⟩
      case isFalse => cases h

/-- What has become of a shared registry, and what is reported, when a server that was started was
stopped. -/
structure Undone (refusal : Change → Option Fault) (running : RunningServer) (s : SharedRegistry)
    (stopped : Except Fault Unit × RunningServer × SharedRegistry) : Prop where
  /-- Where the endpoint could be taken back, the answers are as if it had never been there. -/
  undone : ∀ service ∈ running.services,
    refusal (.deregister service running.endpoint) = none →
      stopped.2.2.settled.query service = s.settled.query service
  /-- Elsewhere it stays, among the endpoints that would be there without it. -/
  stale : ∀ service ∈ running.services,
    refusal (.deregister service running.endpoint) ≠ none →
      running.endpoint ∈ stopped.2.2.settled.query service ∧
        without running.endpoint (stopped.2.2.settled.query service) = s.settled.query service
  others : ∀ name ∉ running.services, stopped.2.2.settled.query name = s.settled.query name
  /-- There was a call for every service. -/
  attempted : stopped.2.2.calls = s.calls ++
    (running.services.map fun service ↦ .register service running.endpoint) ++
    running.services.map fun service ↦ .deregister service running.endpoint
  closed : stopped.2.1.listening = false
  result_eq_ok_iff : stopped.1 = .ok () ↔ ∀ service ∈ running.services,
    refusal (.deregister service running.endpoint) = none
  /-- What is reported is the refusal of the first service that was refused. -/
  reported : ∀ fault, stopped.1 = .error fault → ∃ service ∈ running.services,
    refusal (.deregister service running.endpoint) = some fault ∧
      ∀ other ∈ running.services,
        refusal (.deregister other running.endpoint) ≠ none → service ≤ other

/-- A server that was stopped has left no trace but where it was refused, whatever others did in the
meantime. -/
theorem undone_by_stop {server : Server} {listener : Except String Endpoint}
    {running : RunningServer}
    (hstart : server.start (.shared refusal) listener s = (.returned running, s'))
    (hnew : ∀ service ∈ server.catalogue.names, running.endpoint ∉ s.registry.query service)
    (hothers : s.Spares running.endpoint) :
    running.services = server.catalogue.names ∧
      Undone refusal running s (running.stop (.shared refusal) s') := by
  obtain ⟨hservices, hregister⟩ := Server.registerAll_of_start hstart
  rw [← hservices] at hnew
  have hsorted : running.services.Pairwise (· ≤ ·) := hservices ▸ pairwise_le_sorted _
  have hstarted := registered_registerAll hothers hregister
  have hstopped := @withdrawn_deregisterAll refusal _ _ hstarted.spares running.services
  have hresult : (running.stop (.shared refusal) s').1 = _ :=
    deregisterAll_fst refusal running.endpoint running.services s'
  have hbefore : ∀ service ∈ running.services,
      without running.endpoint (s.settled.query service) = s.settled.query service := by
    intro service hservice
    refine Registry.without_eq_self fun hmem ↦ hnew service hservice ?_
    exact (Registry.mem_query_afterAll_of_ne hothers).mp hmem
  refine ⟨hservices,
    { undone := fun service hservice hrefusal ↦ ?undone
      stale := fun service hservice hrefusal ↦ ?stale
      others := fun name hname ↦ ?others
      attempted := ?attempted
      closed := rfl
      result_eq_ok_iff := ?result_eq_ok_iff
      reported := fun fault hfault ↦ ?reported }⟩
  case undone =>
    exact (hstopped.removed service hservice hrefusal).trans
      ((hstarted.kept service).trans (hbefore service hservice))
  case stale =>
    have hstill := hstopped.others service (.inr hrefusal)
    refine ⟨hstill ▸ hstarted.mem service hservice, ?_⟩
    exact (congrArg _ hstill).trans ((hstarted.kept service).trans (hbefore service hservice))
  case others => exact (hstopped.others name (.inl hname)).trans (hstarted.others name hname)
  case attempted => exact hstopped.calls.trans (congrArg (· ++ _) hstarted.calls)
  case result_eq_ok_iff =>
    rw [hresult, ← List.findSome?_eq_none_iff]
    split
    case h_1 hfirst => simp [hfirst]
    case h_2 hnone => exact iff_of_true rfl hnone
  case reported =>
    rw [hresult] at hfault
    split at hfault
    case h_1 first hfirst =>
      obtain rfl := Except.error.inj hfault
      exact exists_least_of_findSome? hsorted hfirst
    case h_2 => cases hfault

def crowdedServer : Server :=
  ⟨.standard, ⟨[("stuck", Server.idleHandler), ("a", Server.idleHandler),
    ("sticky", Server.idleHandler)]⟩, .all⟩

/-- Only the first service can be deregistered. -/
def stubborn : Change → Option Fault
  | .register _ _ => none
  | .deregister service _ =>
    if service = "a" then none else some (.registry ("deregister " ++ service))

def crowdedEndpoint : Endpoint := ⟨"127.0.0.1", 9000⟩
def earlierEndpoint : Endpoint := ⟨"127.0.0.1", 9001⟩
def laterEndpoint : Endpoint := ⟨"127.0.0.1", 9002⟩

/-- A registry in which others come and go while the server starts, runs and stops. -/
def crowdedRegistry : SharedRegistry where
  registry := Registry.empty.register "a" earlierEndpoint
  pending := [[], [.register "a" laterEndpoint], [.deregister "a" earlierEndpoint],
    [.register "a" earlierEndpoint, .register "sticky" laterEndpoint], [], [],
    [.register "b" laterEndpoint]]
  calls := []

@[simp]
theorem names_crowded : crowdedServer.catalogue.names = ["a", "sticky", "stuck"] := by
  simp [crowdedServer, Catalogue.names, List.mergeSort]

theorem undone_crowded : ∃ running s',
    crowdedServer.start (.shared stubborn) (.ok crowdedEndpoint) crowdedRegistry =
      (.returned running, s') ∧
    (∀ service ∈ crowdedServer.catalogue.names,
      running.endpoint ∉ crowdedRegistry.registry.query service) ∧
    crowdedRegistry.Spares running.endpoint ∧
    Undone stubborn running crowdedRegistry (running.stop (.shared stubborn) s') ∧
    (running.stop (.shared stubborn) s').1 = .error (.registry "deregister sticky") ∧
    (running.stop (.shared stubborn) s').2.2.settled.query "a" =
      [laterEndpoint, earlierEndpoint] := by
  have hstart : crowdedServer.start (.shared stubborn) (.ok crowdedEndpoint) crowdedRegistry =
      (.returned ⟨crowdedEndpoint, crowdedEndpoint, ["a", "sticky", "stuck"], true⟩,
        (Server.registerAll (.shared stubborn) crowdedEndpoint ["a", "sticky", "stuck"]
          crowdedRegistry).2) := by
    rw [Server.start, names_crowded]
    rfl
  have hnew : ∀ service ∈ crowdedServer.catalogue.names,
      crowdedEndpoint ∉ crowdedRegistry.registry.query service := by
    simp only [names_crowded]
    decide
  have hothers : crowdedRegistry.Spares crowdedEndpoint := by
    unfold Spares
    decide
  exact ⟨_, _, hstart, hnew, hothers, (undone_by_stop hstart hnew hothers).2, rfl, rfl⟩

end FramedRpc
