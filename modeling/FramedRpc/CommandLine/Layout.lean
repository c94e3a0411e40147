/-!
# Layout of help texts

An entry of a help text is a name and what is said about it. The description begins in one column
for all entries, on a line of its own if the name is too long, and is wrapped between words.
-/

namespace FramedRpc.CommandLine

namespace Layout

/-- The column in which descriptions begin. -/
def column : Nat := 20

def width : Nat := 80

def indent : String := String.ofList (List.replicate column ' ')

/-- Continues a line with words, and begins new lines for those that do not fit. -/
def fill (line : String) : List String → List String
  | [] => [line]
  | word :: rest =>
    if width < line.length + word.length + 1 then line :: fill (indent ++ word) rest
    else fill (line ++ " " ++ word) rest

def entry (name about : String) : List String :=
  let head := "  " ++ name
  match about.splitOn " " with
  | [] | [""] => [head]
  | first :: rest =>
    if head.length < column then
      fill (head ++ String.ofList (List.replicate (column - head.length) ' ') ++ first) rest
    else head :: fill (indent ++ first) rest

/-- A heading with entries below it. -/
def part (heading : String) (entries : List (String × String)) : String :=
  String.intercalate "\n" (heading :: entries.flatMap fun (name, about) => entry name about)

end Layout

end FramedRpc.CommandLine
