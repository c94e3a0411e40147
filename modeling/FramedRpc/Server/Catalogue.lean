import FramedRpc.Service.Handler

/-!
# Published services

The handlers that a server offers, by the names under which they are published. The first handler
of a name stays.
-/

namespace FramedRpc

/-- The published services, in the order of publication. -/
structure Catalogue (m : Type → Type := Id) where
  services : List (String × Handler m)

namespace Catalogue

variable {m : Type → Type}

def empty : Catalogue m := ⟨[]⟩

def get? (c : Catalogue m) (name : String) : Option (Handler m) := c.services.lookup name

/-- Publishes a handler under a name, and tells whether the name was free. -/
def publishAs (c : Catalogue m) (name : String) (h : Handler m) : Bool × Catalogue m :=
  match c.get? name with
  | some _ => (false, c)
  | none => (true, ⟨c.services ++ [(name, h)]⟩)

def publish (c : Catalogue m) (h : Handler m) : Bool × Catalogue m := c.publishAs h.service h

/-- The names of all services, in ascending order. -/
def names (c : Catalogue m) : List String :=
  (c.services.map Prod.fst).mergeSort fun a b => a ≤ b

def size (c : Catalogue m) : Nat := c.services.length

def isEmpty (c : Catalogue m) : Bool := c.services.isEmpty

end Catalogue

end FramedRpc
