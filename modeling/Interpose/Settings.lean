import Interpose.Settings.Number

/-! The settings of the hook, and the document they are read from. A document assigns each of its
two keys at most once and nothing else. -/

namespace Interpose

def defaultRecursionLimit : Nat := 64

structure Settings where
  /-- Units whose file name starts with one of these are never offered to a callback. -/
  skipDirectories : List String := []
  recursionLimit : Nat := defaultRecursionLimit
deriving DecidableEq, Repr

inductive SettingsError where
  /-- The document is not well formed, has an unknown key, or a value of another type. -/
  | malformed
  | limitNotPositive
deriving DecidableEq, Repr

def SettingsError.message : SettingsError → String
  | .malformed => "invalid hook config"
  | .limitNotPositive => "recursion_limit must be positive"

namespace Settings

structure Draft where
  skipDirectories? : Option (List String) := none
  recursionLimit? : Option Nat := none

/-- The strings of a list from behind its opening mark, and the tokens behind it. Lines may end
anywhere in it, and a comma may follow the last string. -/
def strings? (ready : Bool) (read : List String) : List Token → Option (List String × List Token)
  | .newline :: rest => strings? ready read rest
  | .closeList :: rest => some (read.reverse, rest)
  | .comma :: rest => if ready then none else strings? true read rest
  | .text content _ :: rest => if ready then strings? false (content :: read) rest else none
  | _ => none

def assign? (draft : Draft) (key : String) : List Token → Option (Draft × List Token)
  | .openList :: rest =>
    if key = "skip_dirs" ∧ draft.skipDirectories?.isNone then
      (strings? true [] rest).map fun (directories, rest) =>
        ({ draft with skipDirectories? := some directories }, rest)
    else none
  | .word letters :: rest =>
    if key = "recursion_limit" ∧ draft.recursionLimit?.isNone then
      (natural? letters).map fun limit => ({ draft with recursionLimit? := some limit }, rest)
    else none
  | _ => none

def assignments? (draft : Draft) : Nat → List Token → Option Draft
  | 0, _ => none
  | _ + 1, [] => some draft
  | fuel + 1, .newline :: rest => assignments? draft fuel rest
  | fuel + 1, key :: .equals :: rest => do
    let key ← match key with
      | .word letters => some (String.ofList letters)
      | .text content false => some content
      | _ => none
    match ← assign? draft key rest with
    | (draft, []) => some draft
    | (draft, .newline :: rest) => assignments? draft fuel rest
    | _ => none
  | _ + 1, _ => none

/-- Reads a document. Keys without a value keep their defaults. -/
def parse (document : String) : Except SettingsError Settings :=
  let draft? := (Token.ofDocument? document).bind fun tokens =>
    assignments? {} (tokens.length + 1) tokens
  match draft? with
  | none => .error .malformed
  | some draft =>
    let settings : Settings :=
      { skipDirectories := draft.skipDirectories?.getD []
        recursionLimit := draft.recursionLimit?.getD defaultRecursionLimit }
    if settings.recursionLimit = 0 then .error .limitNotPositive else .ok settings

end Settings

inductive LoadError where
  /-- There is no such file, or its bytes are not text. -/
  | unreadable (name : String)
  | rejected (name : String) (cause : SettingsError)
deriving DecidableEq, Repr

def LoadError.message : LoadError → String
  | .unreadable name => "reading " ++ name
  | .rejected name cause => "loading " ++ name ++ ": " ++ cause.message

def Settings.load (name : String) (bytes : Option ByteArray) : Except LoadError Settings :=
  match bytes.bind String.fromUTF8? with
  | none => .error (.unreadable name)
  | some document => (parse document).mapError (.rejected name)

end Interpose
