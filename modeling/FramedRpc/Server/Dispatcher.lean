import FramedRpc.Server.Catalogue

/-!
# Dispatching

What a server does with a request: nothing for a sign of life, and otherwise one response. It first
decides whether a method is to be called, and then words how the call ended. A method that breaks
off is answered where methods run on workers of their own, and breaks off its caller elsewhere.
-/

namespace FramedRpc.Dispatcher

variable {m : Type → Type}

inductive Plan (m : Type → Type := Id) where
  | ignore
  | answer (response : Response)
  | call (handler : Handler m) (method : String) (arguments : Arguments)

/-- Decides what is to be done with a request whose arguments are encoded by a serializer. -/
def plan (catalogue : Catalogue m) (s : Serializer) (r : Request) : Plan m :=
  if r.heartbeat then .ignore
  else
    match r.validate with
    | .error fault => .answer (.failure r.id .fail fault.message)
    | .ok () =>
      match catalogue.get? r.service with
      | none => .answer (.failure r.id .classNotFound r.service)
      | some handler =>
        match handler.find? r.method r.paramTypes with
        | none => .answer (.failure r.id .methodNotFound r.signature)
        | some _ => .call handler r.method (.ofValues s r.parameters)

/-- The response to a call that returned or failed. -/
def respond (id : String) : Except Fault (List UInt8) → Response
  | .ok data => .success id data
  | .error (.methodNotFound method) => .failure id .methodNotFound method
  | .error fault => .failure id .fail fault.message

/-- The response to a call that ended, or the text with which the method broke off. -/
def conclude (id : String) : Outcome (List UInt8) → Except String (Option Response)
  | .returned data => .ok (some (respond id (.ok data)))
  | .failed fault => .ok (some (respond id (.error fault)))
  | .panicked text => .error text

/-- The response to a request that is handled where the caller runs, or the text with which the
method broke off. -/
def handle [Monad m] (catalogue : Catalogue m) (s : Serializer) (r : Request) :
    m (Except String (Option Response)) :=
  match plan catalogue s r with
  | .ignore => return .ok none
  | .answer response => return .ok (some response)
  | .call handler method arguments => do return conclude r.id (← handler.call method arguments)

/-- The response to a request whose method broke off. -/
def brokenOff (id : String) : Response := .failure id .fail "service method panicked"

/-- The response to a request for which no worker is handed out any more. -/
def turnedAway (id : String) : Response := .failure id .fail "dispatcher is shutting down"

/-- The response to a request that is handled on a worker. -/
def run [Monad m] (catalogue : Catalogue m) (s : Serializer) (r : Request) :
    m (Option Response) := do
  match ← handle catalogue s r with
  | .ok response => return response
  | .error _ => return some (brokenOff r.id)

end FramedRpc.Dispatcher
