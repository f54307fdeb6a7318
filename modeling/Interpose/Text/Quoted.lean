import Interpose.Text.Printable

/-! Quoted text: a string between double quotes, with everything escaped that would not show as a
character of its own. The quoted form of any text is a single line. -/

namespace Interpose.Text

/-- The number in lower case hexadecimal digits, without leading zeros. -/
def hexadecimal (n : Nat) : String := String.ofList (Nat.toDigits 16 n)

/-- One character in its quoted form. A single quote needs no escape. -/
def escape (c : Char) : String :=
  match c with
  | '\x00' => "\\0"
  | '\t' => "\\t"
  | '\n' => "\\n"
  | '\r' => "\\r"
  | '"' => "\\\""
  | '\\' => "\\\\"
  | _ =>
    if isExtending c || isUnprintable c then "\\u\x7b" ++ hexadecimal c.toNat ++ "\x7d"
    else c.toString

def quote (text : String) : String :=
  "\"" ++ String.join (text.toList.map escape) ++ "\""

end Interpose.Text
