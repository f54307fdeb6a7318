import Interpose.Text.Blank

/-! Diagnostics are off, on, or on for a filter. The setting is read from one word of text. -/

namespace Interpose

inductive TraceSetting where
  | off
  | on
  | filter (directives : String)
deriving DecidableEq, Repr

namespace TraceSetting

/-- Reads a setting. Blanks around it and the case of the known words do not matter; anything that
is not a known word is a filter, kept as it is written. -/
def parse (raw : String) : TraceSetting :=
  let word := Text.strip raw
  let known := Text.lowerASCII word
  if ["", "0", "false", "off"].contains known then .off
  else if ["1", "true", "on"].contains known then .on
  else .filter word

def ofVariable : Option String → TraceSetting
  | none => .off
  | some raw => parse raw

end TraceSetting

structure Tracing where
  active : Bool := false
deriving DecidableEq, Repr

/-- Installs diagnostics unless the setting is off. A filter that cannot be read is replaced by the
default one, so installing does not fail. -/
def Tracing.install (tracing : Tracing) (setting : TraceSetting) : Tracing :=
  { active := tracing.active || setting != .off }

end Interpose
