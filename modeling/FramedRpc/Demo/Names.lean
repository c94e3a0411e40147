import FramedRpc.Demo.Kitchen
import FramedRpc.Endpoint

/-!
# Names for trials

Short names for the services that can be tried out, and for the shapes of values that can be written
and read.
-/

namespace FramedRpc.Demo

open Wire (HasShape Shape)

def services : List (String × Service) :=
  [("hello", helloService), ("bye", byeService), ("other_bye", partingService "other"),
    ("kitchen", kitchenService)]

def handlers : List (String × Handler) :=
  services.map (fun (name, service) => (name, service.handler)) ++ [("overloads", overloads)]

def shapes : List (String × Shape) :=
  [("unit", .unit), ("bool", .bool), ("u8", .u8), ("u16", .u16), ("u32", .u32), ("u64", .u64),
    ("i32", .i32), ("i64", .i64), ("string", .text), ("bytes", .bytes), ("strings", .list .text),
    ("opt_u32", .optional .u32), ("opt_string", .optional .text), ("pair", .pair .u32 .text),
    ("hello", HasShape.shape HelloObject), ("endpoint", HasShape.shape Endpoint),
    ("request", HasShape.shape Request), ("response", HasShape.shape Response)]

end FramedRpc.Demo
