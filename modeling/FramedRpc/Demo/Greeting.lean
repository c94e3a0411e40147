import FramedRpc.Service.Declared

/-!
# Greeting services

The two services of the demonstration server: one says hello to an object, the other one says
goodbye to a name.
-/

namespace FramedRpc.Demo

open Wire (HasShape Shape)

structure HelloObject where
  id : Int32
  message : String
  deriving DecidableEq

instance : HasShape HelloObject where
  shape := .record "nexrpc_api" "HelloObject" (.cons "id" .i32 (.cons "message" .text .nil))
  toValue o := (o.id, o.message, ())
  ofValue := fun (id, message, _) => ⟨id, message⟩

def helloReply : String := "This is Impl1 method"

namespace Hello

def service : String := "nexrpc.api.HelloService"

def hello : Signature := ⟨"hello", [HasShape.shape HelloObject], .text⟩

end Hello

def helloService : Service where
  name := Hello.service
  methods := [⟨Hello.hello, fun _ => .returned helloReply⟩]

namespace Bye

def service : String := "nexrpc.api.ByeService"

def bye : Signature := ⟨"bye", [.text], .text⟩

end Bye

/-- A service of goodbyes that answers with a word and the name. -/
def partingService (word : String) : Service where
  name := Bye.service
  methods := [⟨Bye.bye, fun (name, _) => .returned (word ++ ", " ++ name)⟩]

def byeService : Service := partingService "bye"

inductive DemoMethod where
  | hello
  | bye
  deriving DecidableEq, Repr

def DemoMethod.name : DemoMethod → String
  | .hello => "hello"
  | .bye => "bye"

def DemoMethod.parse (text : String) : Except String DemoMethod :=
  match [DemoMethod.hello, .bye].find? fun m => m.name = text with
  | some m => .ok m
  | none => .error ("unknown method '" ++ text ++ "', expected hello or bye")

end FramedRpc.Demo
