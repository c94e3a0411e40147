import FramedRpc.Text.Numeral
import FramedRpc.Text.Unprintable

/-!
# Quoted texts

A text between double quotes, as it appears in diagnostics: quotes, backslashes and the usual
controls are written with a backslash, and unprintable characters by their number in hexadecimal.
-/

namespace FramedRpc.Quoted

def escape (c : Char) : String :=
  match c with
  | '\x00' => "\\0"
  | '\t' => "\\t"
  | '\r' => "\\r"
  | '\n' => "\\n"
  | '"' => "\\\""
  | '\\' => "\\\\"
  | c =>
    if Unprintable.contains c then "\\u\x7b" ++ Numeral.hexText 0 c.toNat ++ "\x7d"
    else String.singleton c

def quote (s : String) : String :=
  "\"" ++ String.join (s.toList.map escape) ++ "\""

end FramedRpc.Quoted
