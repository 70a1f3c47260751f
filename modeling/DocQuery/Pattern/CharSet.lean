import DocQuery.Text
import DocQuery.Unicode.Category
import DocQuery.Unicode.Fold
import DocQuery.Unicode.Property
import DocQuery.Unicode.Script

/-!
# Sets of characters

What a class in a pattern stands for.  Sets are kept as expressions and asked for members; `fold` closes a set under
simple case folding.
-/
namespace DocQuery

inductive CharSet where
  | empty
  | range (first last : Char)
  | ranges (r : Unicode.Ranges)
  | union (a b : CharSet)
  | inter (a b : CharSet)
  | diff (a b : CharSet)
  | symmDiff (a b : CharSet)
  | compl (a : CharSet)
  /-- everything that differs from a member only in case -/
  | fold (a : CharSet)
  /-- everything that differs from a member only in the case of the letters `A` to `Z` -/
  | foldAscii (a : CharSet)

namespace CharSet

def contains : CharSet → Char → Bool
  | empty, _ => false
  | range first last, c => first ≤ c && c ≤ last
  | ranges r, c => r.contains c
  | union a b, c => a.contains c || b.contains c
  | inter a b, c => a.contains c && b.contains c
  | diff a b, c => a.contains c && !b.contains c
  | symmDiff a b, c => a.contains c != b.contains c
  | compl a, c => !a.contains c
  | fold a, c => a.contains c || (Unicode.orbit c).any fun d => a.contains d
  | foldAscii a, c => a.contains c || a.contains c.toLower || a.contains c.toUpper

def single (c : Char) : CharSet := range c c

def all : CharSet := compl empty

def unions (sets : List CharSet) : CharSet := sets.foldl union empty

def ofCategories (cs : List Unicode.Category) : CharSet := unions (cs.map fun c => ranges c.ranges)

def ofRanges (rs : List (Char × Char)) : CharSet := unions (rs.map fun r => range r.1 r.2)

def digits : CharSet := ofCategories Unicode.decimalNumber

def blanks : CharSet :=
  ofRanges [('\t', '\x0d'), (' ', ' '), ('\u0085', '\u0085'), ('\u00a0', '\u00a0'), ('\u1680', '\u1680'),
    ('\u2000', '\u200a'), ('\u2028', '\u2029'), ('\u202f', '\u202f'), ('\u205f', '\u205f'), ('\u3000', '\u3000')]

/-- Letters, marks, digits, connectors and joiners: the characters of words. -/
def word : CharSet :=
  union (ranges Unicode.alphabetic) (union (ofCategories Unicode.wordMarks) (ranges Unicode.joinControl))

def asciiDigits : CharSet := range '0' '9'

def asciiBlanks : CharSet := ofRanges [('\t', '\x0d'), (' ', ' ')]

def asciiWord : CharSet := ofRanges [('0', '9'), ('A', 'Z'), ('_', '_'), ('a', 'z')]

def named? : String → Option CharSet
  | "alnum" => some (ofRanges [('0', '9'), ('A', 'Z'), ('a', 'z')])
  | "alpha" => some (ofRanges [('A', 'Z'), ('a', 'z')])
  | "ascii" => some (range '\x00' '\x7f')
  | "blank" => some (ofRanges [('\t', '\t'), (' ', ' ')])
  | "cntrl" => some (ofRanges [('\x00', '\x1f'), ('\x7f', '\x7f')])
  | "digit" => some asciiDigits
  | "graph" => some (range '!' '~')
  | "lower" => some (range 'a' 'z')
  | "print" => some (range ' ' '~')
  | "punct" => some (ofRanges [('!', '/'), (':', '@'), ('[', '\x60'), ('\x7b', '~')])
  | "space" => some asciiBlanks
  | "upper" => some (range 'A' 'Z')
  | "word" => some asciiWord
  | "xdigit" => some (ofRanges [('0', '9'), ('A', 'F'), ('a', 'f')])
  | _ => none

/-- Names are compared without case, blanks, hyphens and underscores, and without a leading `is`. -/
def looseName (s : String) : String :=
  let plain := (s.toList.filter fun c => !(c == ' ' || c == '_' || c == '-') && c.toNat < 0x80).map Char.toLower
  String.ofList <| match plain with
    | 'i' :: 's' :: r => if r = ['c'] then plain else r
    | _ => plain

def isNamed (name given : String) : Bool := looseName given == name

def categoryGroup? (name : String) : Option CharSet :=
  match name with
  | "any" => some all
  | "ascii" => some (range '\x00' '\x7f')
  | "assigned" => some (compl (ofCategories (Unicode.categories.filter (·.short == "Cn"))))
  | "lc" | "casedletter" =>
    some (ofCategories (Unicode.categories.filter fun c => ["Lu", "Ll", "Lt"].contains c.short))
  | _ =>
    match Unicode.categories.find? fun c => isNamed name c.short || isNamed name c.long with
    | some c => some (ranges c.ranges)
    | none =>
      (Unicode.categoryGroups.find? fun g => isNamed name g.1 || isNamed name g.2).map fun g =>
        ofCategories (Unicode.categoriesOf g.1)

def script? (name : String) : Option CharSet :=
  (Unicode.scripts.find? fun s => isNamed name s.short || isNamed name s.long).map fun s => ranges s.ranges

/-- The characters with a property: a binary property, a general category or a script. -/
def property? (given : String) : Option CharSet :=
  let name := looseName given
  let binary := if name = "cf" ∨ name = "sc" ∨ name = "lc" then none
    else if name = "whitespace" ∨ name = "wspace" ∨ name = "space" then some blanks
    else (Unicode.properties.find? fun p => isNamed name p.1).map fun p => ranges p.2
  binary.or ((categoryGroup? name).or (script? name))

def propertyValue? (property value : String) : Option CharSet :=
  match looseName property with
  | "generalcategory" | "gc" => categoryGroup? (looseName value)
  | "script" | "sc" | "scriptextensions" | "scx" => script? (looseName value)
  | _ => none

end CharSet

end DocQuery
