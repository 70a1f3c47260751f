import DocQuery.Request

/-!
# Filtering a request

The usual ways to put conditions on a request.
-/
namespace DocQuery.Request

def filterBy (r : Request) (logic : Logic) (field op : String) (v : Value) : Request :=
  r.addFilter (.name logic field (some (.str op)) (some v))

/-- A field is equal to a value; an array is read as pairs of operators and operands. -/
def filterEq (r : Request) (field : String) (v : Value) : Request := r.addFilter (.name .and field (some v) none)

def filterAll (r : Request) (fs : Fields) : Request := r.addFilter (.ofFields .and fs)

def filterRaw (r : Request) (expression : String) : Request := r.addFilter (.name .and expression none none)

def filterNull (r : Request) (field : String) : Request := r.filterEq field (.str "null")

def filterNotNull (r : Request) (field : String) : Request := r.filterEq field (.str "not null")

def filterWith (r : Request) (predicate : Predicate) : Request := r.addFilter (.deferred .and none predicate)

def filterNot (r : Request) (predicate : Predicate) : Request :=
  r.addFilter (.deferred .and (some (.str "not")) predicate)

def groupBy (r : Request) (fields : String) : Request := { r with group := Text.splitList fields }

end DocQuery.Request
