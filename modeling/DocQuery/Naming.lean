import DocQuery.Settings
import DocQuery.Text

/-!
# Names of tables

A table is named by its logical name in lower case with underscores, behind a prefix.
-/
namespace DocQuery

structure Naming where
  tablePrefix : String
  pk : String
  keyKind : KeyKind

namespace Naming

def ofSettings (s : Settings) : Naming := ⟨s.tablePrefix, s.logicalKey, s.keyKind⟩

def tableName (n : Naming) (name : String) : String := n.tablePrefix ++ Text.snake name

end Naming

end DocQuery
