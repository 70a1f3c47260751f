import DocQuery.Settings
import DocQuery.Toml.Reader

/-!
# Where settings come from

Settings are written as a configuration text.  A file that does not exist gives the defaults; the environment is looked
up afterwards.
-/
namespace DocQuery

inductive FileContent where
  | missing
  /-- something that is no file, or cannot be read -/
  | unreadable
  | text (s : String)

namespace Settings

def ofText (s : String) : Except Fault Settings :=
  match (Toml.parse? s).bind fun fs => ofValue? (.obj fs) with
  | some settings => .ok settings
  | none => .error (.settings .unreadable)

def load (file : FileContent) (lookup : String → Option String) : Except Fault Settings :=
  match file with
  | .missing => .ok (override {} lookup)
  | .unreadable => .error .io
  | .text s => (ofText s).map fun settings => settings.override lookup

end Settings

end DocQuery
