import FramedRpc.CommandLine.Layout

/-!
# Grammars of command lines

A command takes operands in a fixed order and settings, which are options with a value, anywhere
between them. Arguments are read from left to right into a record, and the first that is not
acceptable ends the reading. Asking for help does not end it: the operands that follow are still
read, and only then is the help given.
-/

namespace FramedRpc.CommandLine

inductive Halt where
  /-- Help was asked for. -/
  | help (text : String)
  | refused (message : String)
  deriving DecidableEq, Repr

def helpWords : List String := ["--help", "help"]

def helpEntry : String × String := (String.intercalate ", " helpWords, "display usage information")

def trailingMessage : String := "Trailing arguments are not allowed after \x60help\x60."

def isOption (argument : String) : Bool := argument.toList.head? = some '-'

def unknownMessage (argument : String) : String := "Unrecognized argument: " ++ argument ++ "\n"

structure Operand (σ : Type) where
  name : String
  about : String
  /-- Puts a value into the record of arguments. -/
  read : String → σ → Except String σ

structure Setting (σ : Type) where
  short : Option Char
  name : String
  about : String
  /-- Puts a value into the record of arguments. -/
  read : String → σ → Except String σ

namespace Setting

variable {σ : Type}

def long (s : Setting σ) : String := "--" ++ s.name

/-- All spellings, the short one first. -/
def spellings (s : Setting σ) : List String :=
  s.short.toList.map (fun c => "-" ++ c.toString) ++ [s.long]

/-- How the setting is written, in the first line of the help. -/
def usage (s : Setting σ) : String :=
  "[" ++ s.spellings.headD s.long ++ " <" ++ s.name ++ ">]"

end Setting

structure Grammar (σ : Type) where
  /-- The words with which the command is called. -/
  path : List String
  about : String
  operands : List (Operand σ)
  settings : List (Setting σ)

/-- How far the arguments of a command are read. -/
structure Reading (σ : Type) where
  /-- What was read. -/
  values : σ
  /-- The names of the settings that were given. -/
  given : List String
  /-- The number of operands that were given. -/
  place : Nat
  /-- Whether help was asked for. -/
  helped : Bool
  /-- Whether no more options follow. -/
  ended : Bool

namespace Grammar

variable {σ : Type}

def help (g : Grammar σ) : String :=
  let usage := g.path ++ g.operands.map (fun o => "<" ++ o.name ++ ">") ++
    g.settings.map Setting.usage
  let operands := g.operands.map fun o => (o.name, o.about)
  let settings := g.settings.map fun s => (String.intercalate ", " s.spellings, s.about)
  String.intercalate "\n\n"
    (["Usage: " ++ String.intercalate " " usage, g.about] ++
      (if operands.isEmpty then [] else [Layout.part "Positional Arguments:" operands]) ++
      [Layout.part "Options:" (settings ++ [helpEntry])]) ++ "\n"

def setting? (g : Grammar σ) (spelling : String) : Option (Setting σ) :=
  g.settings.find? fun s => s.spellings.contains spelling

/-- Reads the value of a setting, which may be given once. -/
def readSetting (r : Reading σ) (s : Setting σ) (spelling value : String) :
    Except Halt (Reading σ) :=
  let values :=
    if r.given.contains s.name then .error "duplicate values provided" else s.read value r.values
  match values with
  | .ok values => .ok { r with values, given := s.name :: r.given }
  | .error flaw =>
    .error (.refused ("Error parsing option '" ++ spelling ++ "' with value '" ++ value ++ "': " ++
      flaw ++ "\n"))

def readOperand (g : Grammar σ) (r : Reading σ) (argument : String) : Except Halt (Reading σ) :=
  match g.operands[r.place]? with
  | none => .error (.refused (unknownMessage argument))
  | some o =>
    match o.read argument r.values with
    | .ok values => .ok { r with values, place := r.place + 1 }
    | .error flaw =>
      .error (.refused ("Error parsing positional argument '" ++ o.name ++ "' with value '" ++
        argument ++ "': " ++ flaw ++ "\n"))

def readAll (g : Grammar σ) (r : Reading σ) : List String → Except Halt (Reading σ)
  | [] => if r.helped then .error (.help g.help) else .ok r
  | argument :: rest =>
    if !r.ended && helpWords.contains argument then g.readAll { r with helped := true } rest
    else if !r.ended && isOption argument then
      if argument = "--" then g.readAll { r with ended := true } rest
      else if r.helped then .error (.refused trailingMessage)
      else
        match g.setting? argument, rest with
        | none, _ => .error (.refused (unknownMessage argument))
        | some _, [] => .error (.refused ("No value provided for option '" ++ argument ++ "'.\n"))
        | some s, value :: rest =>
          match readSetting r s argument value with
          | .ok r => g.readAll r rest
          | .error halt => .error halt
    else
      match g.readOperand r argument with
      | .ok r => g.readAll r rest
      | .error halt => .error halt

/-- A list of what is missing, below a heading. -/
def missingMessage (heading : String) (names : List String) : String :=
  String.intercalate "\n    " (heading :: names) ++ "\n"

/-- Reads the arguments of a command into a record. Every operand has to be given. -/
def read (g : Grammar σ) (start : σ) (arguments : List String) : Except Halt σ := do
  let r ← g.readAll ⟨start, [], 0, false, false⟩ arguments
  match g.operands.drop r.place with
  | [] => return r.values
  | missing =>
    throw (.refused
      (missingMessage "Required positional arguments not provided:" (missing.map Operand.name)))

end Grammar

end FramedRpc.CommandLine
