import FramedRpc.Discovery.Directory
import FramedRpc.Proofs.Discovery.Registry
import FramedRpc.Server.Lifecycle

/-!
# Servers that do not start

A server that starts registers its services one after the other. Where a registration is refused it
does not start, and nobody listens, but the services before stay registered: their clients are sent
to an endpoint that is not served. All other services are answered as before.
-/

namespace FramedRpc

namespace Server

variable {σ : Type} {b : Backend σ} {e : Endpoint} {services : List String} {s s' : σ}
  {fault : Fault} {name : String} {server : Server} {listener : Except String Endpoint}

/-! ## Registrations one after the other -/

/-- All services before the one that was refused were registered, and none behind it. -/
theorem exists_refused (h : registerAll b e services s = (.error fault, s')) :
    ∃ before service behind t, services = before ++ service :: behind ∧
      registerAll b e before s = (.ok (), t) ∧ b.register service e t = (.error fault, s') := by
  induction services generalizing s with
  | nil => cases h
  | cons service rest ih =>
    unfold registerAll at h
    split at h
    case h_1 t hfirst =>
      obtain ⟨before, refused, behind, u, rfl, hbefore, hrefused⟩ := ih h
      refine ⟨service :: before, refused, behind, u, rfl, ?_, hrefused⟩
      rw [registerAll, hfirst]
      exact hbefore
    case h_2 first t hfirst =>
      obtain ⟨hfault, rfl⟩ := Prod.mk.inj h
      obtain rfl := Except.error.inj hfault
      exact ⟨[], service, rest, s, rfl, rfl, hfirst⟩

/-- What has become of a registry in which an endpoint was registered for some services. -/
structure LeftBehind (b : Backend σ) (e : Endpoint) (services : List String) (s s' : σ) :
    Prop where
  others : ∀ name ∉ services, b.answer name s' = b.answer name s
  stale : b.Keeps → ∀ name ∈ services, ∀ endpoints, b.answer name s' = .ok endpoints →
    e ∈ endpoints

theorem leftBehind_registerAll (hb : b.Lawful) (h : registerAll b e services s = (.ok (), s')) :
    LeftBehind b e services s s' := by
  induction services generalizing s with
  | nil =>
    obtain ⟨-, rfl⟩ := Prod.mk.inj h
    exact ⟨fun _ _ ↦ rfl, fun _ _ hname ↦ by cases hname⟩
  | cons service rest ih =>
    unfold registerAll at h
    split at h
    case h_1 t hfirst =>
      have hrest := ih h
      refine ⟨fun name hname ↦ ?_, fun hkeeps name hname endpoints hendpoints ↦ ?_⟩
      · have hservice : name ≠ service := List.ne_of_not_mem_cons hname
        have hbehind : name ∉ rest := List.not_mem_of_not_mem_cons hname
        exact (hrest.others name hbehind).trans (hb.others hfirst name hservice)
      · by_cases hbehind : name ∈ rest
        case pos => exact hrest.stale hkeeps name hbehind endpoints hendpoints
        case neg =>
          obtain rfl : name = service := (List.mem_cons.mp hname).resolve_right hbehind
          rw [hrest.others name hbehind] at hendpoints
          exact hkeeps hfirst endpoints hendpoints
    case h_2 => cases h

/-- A registration that is refused leaves behind what was there. -/
theorem LeftBehind.refused {t : σ} {service : String} (h : LeftBehind b e services s t)
    (hb : b.Lawful) (hrefused : b.register service e t = (.error fault, s')) :
    LeftBehind b e services s s' where
  others name hname := (hb.refused hrefused name).trans (h.others name hname)
  stale hkeeps name hname endpoints hendpoints := by
    rw [hb.refused hrefused name] at hendpoints
    exact h.stale hkeeps name hname endpoints hendpoints

/-! ## Failed starts -/

/-- Why a server did not start, and what it has left behind. -/
inductive Failure (server : Server) (b : Backend σ) (s : σ) :
    Except String Endpoint → Fault → σ → Prop
  /-- There is no address to listen on, and nothing was registered. -/
  | unbound (detail : String) :
    Failure server b s (.error detail) (bindFault server.config.bindAddress detail) s
  /-- A service was refused, and those before it in the order of the names stay registered. -/
  | refused {bound : Endpoint} {before behind : List String} {service : String} {t s' : σ}
    {fault : Fault} (hnames : server.catalogue.names = before ++ service :: behind)
    (hbefore : registerAll b (server.announced bound) before s = (.ok (), t))
    (hrefused : b.register service (server.announced bound) t = (.error fault, s'))
    (hleft : b.Lawful → LeftBehind b (server.announced bound) before s s') :
    Failure server b s (.ok bound) fault s'

/-- Where a start fails there was no address, or a service was refused. In a lawful registry every
query is answered as before, but for the services before that one. -/
theorem failure_of_start (h : server.start b listener s = (.failed fault, s')) :
    server.Failure b s listener fault s' := by
  unfold start at h
  split at h
  case h_1 detail =>
    obtain ⟨hfault, rfl⟩ := Prod.mk.inj h
    obtain rfl := Outcome.failed.inj hfault
    exact .unbound detail
  case h_2 bound =>
    dsimp only at h
    split at h
    case h_1 refusal t hregister =>
      obtain ⟨hfault, rfl⟩ := Prod.mk.inj h
      obtain rfl := Outcome.failed.inj hfault
      obtain ⟨before, service, behind, u, hnames, hbefore, hrefused⟩ := exists_refused hregister
      exact .refused hnames hbefore hrefused fun hb ↦
        (leftBehind_registerAll hb hbefore).refused hb hrefused
    case h_2 => split at h <;> cases h

def idleHandler : Handler where
  service := "idle"
  methods := []
  call _ _ := .returned []

def mixedServer : Server :=
  ⟨.standard, ⟨[("bad", idleHandler), ("c", idleHandler), ("a", idleHandler)]⟩, .all⟩

/-- The registry in memory behind refusals by name. -/
def pickyRegistry : Backend Registry := .refusing Backend.refusesByName .memory

def mixedEndpoint : Endpoint := ⟨"127.0.0.1", 9000⟩

@[simp]
theorem names_mixed : mixedServer.catalogue.names = ["a", "bad", "c"] := by
  simp [mixedServer, Catalogue.names, List.mergeSort]

theorem start_mixed : mixedServer.start pickyRegistry (.ok mixedEndpoint) .empty =
    (.failed (.registry "register bad"), Registry.empty.register "a" mixedEndpoint) := by
  rw [start, names_mixed]
  rfl

theorem failure_mixed : ∃ s', mixedServer.start pickyRegistry (.ok mixedEndpoint) .empty =
      (.failed (.registry "register bad"), s') ∧
    mixedServer.Failure pickyRegistry .empty (.ok mixedEndpoint) (.registry "register bad") s' ∧
    pickyRegistry.Lawful ∧ pickyRegistry.Keeps :=
  ⟨_, start_mixed, failure_of_start start_mixed, Backend.lawful_memory.refusing _,
    Backend.keeps_memory.refusing _⟩

/-- The server does not start, and yet the clients of its first service, for which there was no
endpoint before, are sent to the endpoint that it had announced. -/
theorem stale_after_failure : ∃ fault s',
    mixedServer.start pickyRegistry (.ok mixedEndpoint) .empty = (.failed fault, s') ∧
    pickyRegistry.answer "a" .empty = .ok [] ∧ pickyRegistry.answer "a" s' = .ok [mixedEndpoint] ∧
    (Directory.lookup ⟨pickyRegistry, s', .roundRobin 0⟩ "a").1 = .ok mixedEndpoint :=
  ⟨_, _, start_mixed, rfl, rfl, rfl⟩

end Server

end FramedRpc
