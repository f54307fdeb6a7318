/-! The words, strings and marks of a settings document. A document is a sequence of tokens between
blanks; a comment runs from a number sign to the end of its line and leaves no token. -/

namespace Interpose.Settings

inductive Token where
  | word (letters : List Char)
  /-- A string, and whether it was written in the form that may span lines. -/
  | text (content : String) (spanning : Bool)
  | equals
  | openList
  | closeList
  | comma
  | newline
deriving DecidableEq, Repr

namespace Token

def isWordLetter (c : Char) : Bool := c.isAlphanum || c == '_' || c == '-' || c == '+'

/-- Control characters other than the tab may stand neither in comments nor in strings. -/
def isControl (c : Char) : Bool := c != '\t' && (decide (c.toNat < 0x20) || c == '\x7f')

def hexDigit? (c : Char) : Option Nat :=
  if c.isDigit then some (c.toNat - 48)
  else if 'a' ≤ c ∧ c ≤ 'f' then some (c.toNat - 87)
  else if 'A' ≤ c ∧ c ≤ 'F' then some (c.toNat - 55)
  else none

def hexNumber? : Nat → Nat → List Char → Option (Nat × List Char)
  | 0, number, rest => some (number, rest)
  | digits + 1, number, c :: rest =>
    (hexDigit? c).bind fun digit => hexNumber? digits (16 * number + digit) rest
  | _ + 1, _, [] => none

/-- The character with a code point given in so many digits. Surrogates are no characters. -/
def coded? (digits : Nat) (text : List Char) : Option (Char × List Char) :=
  (hexNumber? digits 0 text).bind fun (code, rest) =>
    if code.isValidChar then some (Char.ofNat code, rest) else none

def escaped? : List Char → Option (Char × List Char)
  | 'b' :: rest => some ('\x08', rest)
  | 't' :: rest => some ('\t', rest)
  | 'n' :: rest => some ('\n', rest)
  | 'f' :: rest => some ('\x0c', rest)
  | 'r' :: rest => some ('\r', rest)
  | 'e' :: rest => some ('\x1b', rest)
  | '"' :: rest => some ('"', rest)
  | '\\' :: rest => some ('\\', rest)
  | 'x' :: rest => coded? 2 rest
  | 'u' :: rest => coded? 4 rest
  | 'U' :: rest => coded? 8 rest
  | _ => none

/-- The text behind one end of line, which is a line feed that may follow a carriage return. -/
def afterNewline? : List Char → Option (List Char)
  | '\n' :: rest => some rest
  | '\r' :: '\n' :: rest => some rest
  | _ => none

def skipLines : List Char → List Char
  | '\r' :: '\n' :: rest => skipLines rest
  | c :: rest => if c = ' ' ∨ c = '\t' ∨ c = '\n' then skipLines rest else c :: rest
  | [] => []

/-- A backslash at the end of a line removes the line end and the blanks of the next lines. -/
def joinedLine? (text : List Char) : Option (List Char) :=
  (afterNewline? (text.dropWhile fun c => c == ' ' || c == '\t')).map skipLines

/-- How a string is written: its mark, and whether it stands between three marks and may span
lines. Escapes are read between double marks only. -/
structure Quotation where
  mark : Char
  spanning : Bool

/-- The rest of a string and the text behind it. The content read so far comes in reverse. Of the
marks that end a spanning string, up to two belong to its content. -/
def content? (quotation : Quotation) :
    Nat → List Char → List Char → Option (String × List Char)
  | 0, _, _ => none
  | _ + 1, _, [] => none
  | fuel + 1, read, c :: rest =>
    if c = quotation.mark then
      if quotation.spanning then
        let marks := ((c :: rest).takeWhile (· == quotation.mark)).length
        if marks < 3 then content? quotation fuel (c :: read) rest
        else
          let last := min marks 5
          some (String.ofList ((List.replicate (last - 3) c ++ read).reverse),
            (c :: rest).drop last)
      else some (String.ofList read.reverse, rest)
    else if c = '\\' ∧ quotation.mark = '"' then
      match if quotation.spanning then joinedLine? rest else none with
      | some next => content? quotation fuel read next
      | none => (escaped? rest).bind fun (c, next) => content? quotation fuel (c :: read) next
    else if quotation.spanning then
      match c, rest with
      | '\r', '\n' :: next => content? quotation fuel ('\n' :: '\r' :: read) next
      | '\n', next => content? quotation fuel ('\n' :: read) next
      | _, next => if isControl c then none else content? quotation fuel (c :: read) next
    else if isControl c then none
    else content? quotation fuel (c :: read) rest

/-- A string, from behind its first mark. A line end right after three marks is not content. -/
def string? (mark : Char) (text : List Char) : Option (Token × List Char) :=
  let spanning := text.take 2 == [mark, mark]
  let inner := if spanning then (afterNewline? (text.drop 2)).getD (text.drop 2) else text
  (content? ⟨mark, spanning⟩ (inner.length + 1) [] inner).map fun (content, rest) =>
    (.text content spanning, rest)

/-- The end of a comment, or nothing when it holds a control character. -/
def afterComment? : List Char → Option (List Char)
  | [] => some []
  | '\n' :: rest => some ('\n' :: rest)
  | '\r' :: '\n' :: rest => some ('\r' :: '\n' :: rest)
  | c :: rest => if isControl c then none else afterComment? rest

def tokens? : Nat → List Char → Option (List Token)
  | 0, _ => none
  | _ + 1, [] => some []
  | fuel + 1, c :: rest =>
    let one (token : Token) := (tokens? fuel rest).map (token :: ·)
    match c with
    | ' ' => tokens? fuel rest
    | '\t' => tokens? fuel rest
    | '=' => one .equals
    | '[' => one .openList
    | ']' => one .closeList
    | ',' => one .comma
    | '\n' => one .newline
    | '\r' =>
      (afterNewline? (c :: rest)).bind fun next => (tokens? fuel next).map (.newline :: ·)
    | '#' => (afterComment? rest).bind (tokens? fuel)
    | _ =>
      if c = '"' ∨ c = '\'' then
        (string? c rest).bind fun (token, next) => (tokens? fuel next).map (token :: ·)
      else if isWordLetter c then
        let letters := c :: rest.takeWhile isWordLetter
        (tokens? fuel (rest.dropWhile isWordLetter)).map (.word letters :: ·)
      else none

/-- The tokens of a document. A byte order mark may come first. -/
def ofDocument? (document : String) : Option (List Token) :=
  match document.toList with
  | '\uFEFF' :: rest => tokens? (rest.length + 1) rest
  | all => tokens? (all.length + 1) all

end Token

end Interpose.Settings
