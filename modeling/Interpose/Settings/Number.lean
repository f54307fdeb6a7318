import Interpose.Settings.Token

/-! Natural numbers as a settings document writes them: in decimal digits, or in another base behind
its mark, with single underscores between digits. -/

namespace Interpose.Settings

/-- The digits of a number without the underscores between them. None may come first, come last or
follow another. -/
def digitsBetween? : List Char → Option (List Char)
  | [] => none
  | ['_'] => none
  | [c] => some [c]
  | '_' :: _ => none
  | c :: '_' :: rest => (digitsBetween? rest).map (c :: ·)
  | c :: rest => (digitsBetween? rest).map (c :: ·)

def digitsValue? (base : Nat) (digits : List Char) : Option Nat :=
  digits.foldlM (fun value c =>
    (Token.hexDigit? c).bind fun digit =>
      if digit < base then some (base * value + digit) else none) 0

/-- A number without a base mark. More than one digit may not start with zero. -/
def decimal? (letters : List Char) : Option Nat :=
  match letters with
  | '0' :: _ :: _ => none
  | _ => (digitsBetween? letters).bind (digitsValue? 10)

/-- A word as a natural number of 64 bits. A sign may stand before decimal digits only, and a
minus sign only before zero. -/
def natural? (letters : List Char) : Option Nat :=
  let number := match letters with
    | '0' :: 'x' :: digits => (digitsBetween? digits).bind (digitsValue? 16)
    | '0' :: 'o' :: digits => (digitsBetween? digits).bind (digitsValue? 8)
    | '0' :: 'b' :: digits => (digitsBetween? digits).bind (digitsValue? 2)
    | '+' :: digits => decimal? digits
    | '-' :: digits => (decimal? digits).bind fun value => if value = 0 then some 0 else none
    | digits => decimal? digits
  number.bind fun value => if value < UInt64.size then some value else none

end Interpose.Settings
