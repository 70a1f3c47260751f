import DocQuery.Text

/-!
# Namespaces

A collection of a database.
-/
namespace DocQuery

structure Namespace where
  database : String
  collection : String
  deriving DecidableEq

namespace Namespace

def splitDot : List Char → List Char → Option (List Char × List Char)
  | [], _ => none
  | c :: r, acc => if c = '.' then some (acc.reverse, r) else splitDot r (c :: acc)

/-- The namespace of a table: one that names its database before a dot keeps it, all others are in the default one. -/
def resolve (defaultDatabase table : String) : Namespace :=
  match splitDot table.toList [] with
  | some (db, coll) => ⟨String.ofList db, String.ofList coll⟩
  | none => ⟨defaultDatabase, table⟩

def text (ns : Namespace) : String := ns.database ++ "." ++ ns.collection

end Namespace

end DocQuery
