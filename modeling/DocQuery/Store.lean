import DocQuery.Filter.Reader
import DocQuery.Namespace
import DocQuery.Value.Text

/-!
# The store — collections of documents

Collections are found by the text of their namespace.  A collection is there from the first write to it until it is
dropped.
-/
namespace DocQuery

/-- The documents of every collection, under the text of its namespace. -/
abbrev Store := Keyed String (List Value)

namespace Store

/-- The documents of a collection; one that is not there has none. -/
def documents (s : Store) (ns : Namespace) : List Value := (Keyed.get? s ns.text).getD []

def setDocuments (s : Store) (ns : Namespace) (docs : List Value) : Store := Keyed.set s ns.text docs

theorem documents_setDocuments (s : Store) (ns : Namespace) (docs : List Value) :
    (s.setDocuments ns docs).documents ns = docs := by
  rw [documents, setDocuments, Keyed.get?_set_self]
  rfl

def drop (s : Store) (ns : Namespace) : Store := Keyed.erase s ns.text

def collectionNames (s : Store) (database : String) : List String :=
  ((Keyed.keys s).filterMap (Text.after? (database ++ "."))).mergeSort

def matching (s : Store) (ns : Namespace) (filter : Value) : Except Fault (List Value) :=
  (Filter.ofValue filter).map fun f => (s.documents ns).filter f.holds

end Store

end DocQuery
