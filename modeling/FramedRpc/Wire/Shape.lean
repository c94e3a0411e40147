/-!
# Shapes of values on the wire

A shape says how a value is built: from the unit, truth values, machine integers and texts, by
lists, optional values, pairs and records with named fields. Every encoding is a function on
shapes, so that a value of any shape can be written and read in each of them. The type `s.Value`
holds the values of the shape `s`; `s.typeName` is the name under which a call declares them.
-/

namespace FramedRpc.Wire

inductive Width where
  | w8
  | w16
  | w32
  | w64
  deriving DecidableEq, Repr

def Width.bytes : Width → Nat
  | .w8 => 1
  | .w16 => 2
  | .w32 => 4
  | .w64 => 8

def Width.bits (w : Width) : Nat := 8 * w.bytes

@[reducible] def Width.Value : Width → Type
  | .w8 => UInt8
  | .w16 => UInt16
  | .w32 => UInt32
  | .w64 => UInt64

def Width.toNat : (w : Width) → w.Value → Nat
  | .w8, v => v.toNat
  | .w16, v => v.toNat
  | .w32, v => v.toNat
  | .w64, v => v.toNat

/-- The unsigned integer for a number below `2 ^ w.bits`; larger numbers wrap around. -/
def Width.fromNat : (w : Width) → Nat → w.Value
  | .w8, n => n.toUInt8
  | .w16, n => n.toUInt16
  | .w32, n => n.toUInt32
  | .w64, n => n.toUInt64

def Width.largest (w : Width) : Nat := Nat.pow 2 w.bits - 1

inductive SignedWidth where
  | w32
  | w64
  deriving DecidableEq, Repr

def SignedWidth.unsigned : SignedWidth → Width
  | .w32 => .w32
  | .w64 => .w64

@[reducible] def SignedWidth.Value : SignedWidth → Type
  | .w32 => Int32
  | .w64 => Int64

/-- The integer that a signed integer stands for. -/
def SignedWidth.toInt : (w : SignedWidth) → w.Value → Int
  | .w32, v => v.toInt
  | .w64, v => v.toInt

/-- The signed integer for an integer of the range; others wrap around. -/
def SignedWidth.fromInt : (w : SignedWidth) → Int → w.Value
  | .w32, i => Int32.ofInt i
  | .w64, i => Int64.ofInt i

def SignedWidth.largest (w : SignedWidth) : Nat := Nat.pow 2 (w.unsigned.bits - 1) - 1

mutual

/-- How a value on the wire is built. -/
inductive Shape where
  | unit
  | bool
  | unsigned (width : Width)
  | signed (width : SignedWidth)
  | text
  | list (item : Shape)
  | optional (item : Shape)
  | pair (first second : Shape)
  /-- A record of the type `name` declared in `scope`. -/
  | record (scope name : String) (fields : Fields)

inductive Fields where
  | nil
  | cons (name : String) (shape : Shape) (rest : Fields)

end

mutual

@[reducible] def Shape.Value : Shape → Type
  | .unit => Unit
  | .bool => Bool
  | .unsigned width => width.Value
  | .signed width => width.Value
  | .text => String
  | .list item => List item.Value
  | .optional item => Option item.Value
  | .pair first second => first.Value × second.Value
  | .record _ _ fields => fields.Values

@[reducible] def Fields.Values : Fields → Type
  | .nil => Unit
  | .cons _ shape rest => shape.Value × rest.Values

end

def Fields.count : Fields → Nat
  | .nil => 0
  | .cons _ _ rest => rest.count + 1

abbrev Shape.u8 : Shape := .unsigned .w8
abbrev Shape.u16 : Shape := .unsigned .w16
abbrev Shape.u32 : Shape := .unsigned .w32
abbrev Shape.u64 : Shape := .unsigned .w64
abbrev Shape.i32 : Shape := .signed .w32
abbrev Shape.i64 : Shape := .signed .w64

abbrev Shape.bytes : Shape := .list .u8

def Width.typeName : Width → String
  | .w8 => "u8"
  | .w16 => "u16"
  | .w32 => "u32"
  | .w64 => "u64"

def SignedWidth.typeName : SignedWidth → String
  | .w32 => "i32"
  | .w64 => "i64"

/-- The name under which calls declare a parameter of this shape. -/
def Shape.typeName : Shape → String
  | .unit => "()"
  | .bool => "bool"
  | .unsigned width => width.typeName
  | .signed width => width.typeName
  | .text => "alloc::string::String"
  | .list item => "alloc::vec::Vec<" ++ item.typeName ++ ">"
  | .optional item => "core::option::Option<" ++ item.typeName ++ ">"
  | .pair first second => "(" ++ first.typeName ++ ", " ++ second.typeName ++ ")"
  | .record scope name _ => scope ++ "::" ++ name

/-- A type whose values travel as values of a shape. -/
class HasShape (α : Type) where
  shape : Shape
  toValue : α → shape.Value
  ofValue : shape.Value → α
  ofValue_toValue : ∀ a, ofValue (toValue a) = a := by intro a; rfl

end FramedRpc.Wire
