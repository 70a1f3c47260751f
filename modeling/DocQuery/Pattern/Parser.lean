import DocQuery.Pattern

/-!
# Reading patterns

The written form of patterns: alternation, repetition, groups with flags, classes with set operations, escapes.
Groups that look around and references back to groups are refused.  Flags hold from where they stand to the end of
their group.
-/
namespace DocQuery.Pattern

structure Flags where
  caseless : Bool := false
  /-- line anchors hold at every line -/
  multiline : Bool := false
  /-- the dot matches line ends -/
  dotAll : Bool := false
  /-- a carriage return ends lines too -/
  crlf : Bool := false
  /-- classes reach beyond ASCII -/
  unicode : Bool := true
  /-- blanks and comments are left out -/
  spaced : Bool := false

/-- Sets or clears the flag of a letter; `none` for letters without a flag. -/
def Flags.set? (f : Flags) (letter : Char) (on : Bool) : Option Flags :=
  match letter with
  | 'i' => some { f with caseless := on }
  | 'm' => some { f with multiline := on }
  | 's' => some { f with dotAll := on }
  | 'R' => some { f with crlf := on }
  | 'u' => some { f with unicode := on }
  | 'x' => some { f with spaced := on }
  | 'U' => some f
  | _ => none

/-- The rest of a pattern behind what does not count: blanks and comments under the flag for them. -/
def Flags.skip (f : Flags) (s : List Char) : List Char := if f.spaced then blanksAndComments false s else s
where
  /-- Leaves out blanks, and everything from a `#` to the end of its line. -/
  blanksAndComments : Bool → List Char → List Char
    | _, [] => []
    | true, c :: r => blanksAndComments (c != '\n') r
    | false, c :: r =>
      if Text.isBlank c then blanksAndComments false r
      else if c = '#' then blanksAndComments true r
      else c :: r

def Flags.word (f : Flags) : CharSet := if f.unicode then .word else .asciiWord

def Flags.fold (f : Flags) (s : CharSet) : CharSet :=
  if f.caseless then (if f.unicode then .fold s else .foldAscii s) else s

/-- The complement of a set, if asked for.  A complement within ASCII would match parts of characters. -/
def Flags.negate? (f : Flags) (negated : Bool) (s : CharSet) : Option CharSet :=
  if negated then (if f.unicode then some (.compl s) else none) else some s

inductive Escape where
  | char (c : Char)
  | set (s : CharSet)
  | anchor (a : Anchor)

def charOf? (n : Nat) : Option Char := if n.isValidChar then some (Char.ofNat n) else none

def hexDigits? (f : Flags) : Nat → Nat → List Char → Option (Nat × List Char)
  | 0, n, s => some (n, s)
  | k + 1, n, s =>
    match f.skip s with
    | c :: r => if isHex c then hexDigits? f k (n * 16 + Unicode.hexNumber (String.singleton c.toLower)) r else none
    | [] => none
where
  isHex (c : Char) : Bool := c.isDigit || ('a' ≤ c && c ≤ 'f') || ('A' ≤ c && c ≤ 'F')

def untilBrace (f : Flags) : List Char → List Char → Option (List Char × List Char)
  | [], _ => none
  | c :: r, acc =>
    if c = '\x7d' then some (acc.reverse, r)
    else if f.spaced && Text.isBlank c then untilBrace f r acc
    else untilBrace f r (c :: acc)

/-- The character of a code point in base sixteen: so many digits, or any number of them in braces. -/
def hexEscape? (f : Flags) (digits : Nat) (s : List Char) : Option (Escape × List Char) :=
  match f.skip s with
  | '\x7b' :: r => do
    let (inner, rest) ← untilBrace f r []
    if inner.isEmpty || inner.length > 8 || !inner.all hexDigits?.isHex then none
    else
      let (n, _) ← hexDigits? f inner.length 0 inner
      let c ← charOf? n
      if f.unicode || n < 0x80 then return (.char c, rest) else none
  | r => do
    let (n, rest) ← hexDigits? f digits 0 r
    let c ← charOf? n
    if f.unicode || n < 0x80 then return (.char c, rest) else none

/-- The set of a class by property: one letter, or a name in braces with an optional value. -/
def propertyEscape? (f : Flags) (negated : Bool) (s : List Char) : Option (Escape × List Char) :=
  let close (negated : Bool) (set : Option CharSet) (rest : List Char) : Option (Escape × List Char) := do
    let set ← set
    let set ← f.negate? negated (f.fold set)
    return (.set set, rest)
  if !f.unicode then none
  else match f.skip s with
    | '\x7b' :: r => do
      let (inner, rest) ← untilBrace f r []
      match splitValue inner with
      | some (name, different, value) =>
        close (negated != different) (CharSet.propertyValue? (String.ofList name) (String.ofList value)) rest
      | none => close negated (CharSet.property? (String.ofList inner)) rest
    | '\\' :: _ => none
    | c :: r => close negated (CharSet.property? (String.singleton c)) r
    | [] => none
where
  /-- Name and value around `!=`, else around a colon, else around `=`. -/
  splitValue (s : List Char) : Option (List Char × Bool × List Char) :=
    match splitAt ['!', '='] s [] with
    | some (a, b) => some (a, true, b)
    | none =>
      match splitAt [':'] s [] with
      | some (a, b) => some (a, false, b)
      | none => (splitAt ['='] s []).map fun (a, b) => (a, false, b)
  /-- What stands before and behind the first place of a mark. -/
  splitAt (mark : List Char) : List Char → List Char → Option (List Char × List Char)
    | [], _ => none
    | c :: r, acc =>
      if mark.isPrefixOf (c :: r) then some (acc.reverse, (c :: r).drop mark.length) else splitAt mark r (c :: acc)

/-- The kind of edge that a name in braces behind `\b` asks for; the rest is unchanged if no name stands there. -/
def edgeEscape? (f : Flags) (s : List Char) : Option (Escape × List Char) :=
  match s with
  | '\x7b' :: r =>
    match f.skip r with
    | [] => none
    | c :: _ =>
      if !isNameChar c then some (.anchor (.edge f.word), s)
      else do
        let (inner, rest) ← untilBrace f r []
        match String.ofList inner with
        | "start" => return (.anchor (.wordStart f.word), rest)
        | "end" => return (.anchor (.wordStop f.word), rest)
        | "start-half" => return (.anchor (.halfStart f.word), rest)
        | "end-half" => return (.anchor (.halfStop f.word), rest)
        | _ => none
  | _ => some (.anchor (.edge f.word), s)
where
  isNameChar (c : Char) : Bool := c.isAlpha || c == '-'

/-- Signs that may stand behind a backslash for themselves: all of ASCII but letters, digits and angle brackets. -/
def isEscapable (c : Char) : Bool := c.toNat < 0x80 && !c.isAlphanum && c != '<' && c != '>'

def escape? (f : Flags) : List Char → Option (Escape × List Char)
  | [] => none
  | c :: r =>
    let set (unicode ascii : CharSet) (negated : Bool) : Option (Escape × List Char) := do
      let set ← f.negate? negated (if f.unicode then unicode else ascii)
      return (.set set, r)
    match c with
    | 'x' => hexEscape? f 2 r
    | 'u' => hexEscape? f 4 r
    | 'U' => hexEscape? f 8 r
    | 'p' => propertyEscape? f false r
    | 'P' => propertyEscape? f true r
    | 'd' => set .digits .asciiDigits false
    | 'D' => set .digits .asciiDigits true
    | 's' => set .blanks .asciiBlanks false
    | 'S' => set .blanks .asciiBlanks true
    | 'w' => set .word .asciiWord false
    | 'W' => set .word .asciiWord true
    | 'a' => some (.char '\x07', r)
    | 'f' => some (.char '\x0c', r)
    | 't' => some (.char '\t', r)
    | 'n' => some (.char '\n', r)
    | 'r' => some (.char '\r', r)
    | 'v' => some (.char '\x0b', r)
    | 'A' => some (.anchor .start, r)
    | 'z' => some (.anchor .stop, r)
    | 'b' => edgeEscape? f r
    | 'B' => some (.anchor (.inside f.word), r)
    | '<' => some (.anchor (.wordStart f.word), r)
    | '>' => some (.anchor (.wordStop f.word), r)
    | _ => if isEscapable c then some (.char c, r) else none

inductive SetOp where
  | inter
  | diff
  | symmDiff

/-- A class under construction: what stands to the left of the last operation, and the members since then. -/
structure ClassState where
  left : Option (SetOp × CharSet) := none
  members : CharSet := .empty

def ClassState.total (f : Flags) (st : ClassState) : CharSet :=
  match st.left with
  | none => st.members
  | some (op, left) =>
    match op with
    | .inter => .inter (f.fold left) (f.fold st.members)
    | .diff => .diff (f.fold left) (f.fold st.members)
    | .symmDiff => .symmDiff (f.fold left) (f.fold st.members)

def ClassState.add (st : ClassState) (s : CharSet) : ClassState := { st with members := .union st.members s }

/-- A named class within brackets, such as `[:alpha:]`, and the rest behind it; the opening bracket is gone. -/
def namedClass? (f : Flags) (s : List Char) : Option (CharSet × List Char) :=
  match s with
  | ':' :: r =>
    let (negated, r) := match r with
      | '^' :: r => (true, r)
      | r => (false, r)
    match r.dropWhile (· != ':') with
    | ':' :: ']' :: rest => do
      let set ← CharSet.named? (String.ofList (r.takeWhile (· != ':')))
      let set ← f.negate? negated (f.fold set)
      return (set, rest)
    | _ => none
  | _ => none

/-- The opening of a class: whether it is negated, its first members and the rest.  Hyphens at the start stand for
themselves, and so does a bracket that would close an empty class. -/
def classOpen? (f : Flags) (s : List Char) : Option (Bool × CharSet × List Char) :=
  let s := f.skip s
  let (negated, s) := match s with
    | '^' :: r => (true, f.skip r)
    | r => (false, r)
  let (found, s) := hyphens s false
  match s with
  | [] => none
  | ']' :: r =>
    if found then some (negated, .single '-', ']' :: r)
    else match f.skip r with
      | [] => none
      | r => some (negated, .single ']', r)
  | r => some (negated, if found then .single '-' else .empty, r)
where
  /-- Leaves out hyphens and tells whether there were some. -/
  hyphens : List Char → Bool → Bool × List Char
    | '-' :: r, _ => hyphens r true
    | c :: r, found => if f.spaced && Text.isBlank c then hyphens r found else (found, c :: r)
    | [], found => (found, [])

def classItem? (f : Flags) : List Char → Option (Escape × List Char)
  | [] => none
  | '\\' :: r =>
    match escape? f r with
    | some (.anchor _, _) => none
    | found => found
  | c :: r => if f.unicode || c.toNat < 0x80 then some (.char c, r) else none

/-- The members of a class up to its closing bracket; the first argument bounds the number of steps. -/
def classBody : Nat → Flags → List Char → ClassState → Option (CharSet × List Char)
  | 0, _, _, _ => none
  | fuel + 1, f, s, st =>
    let operate (op : SetOp) (r : List Char) : Option (CharSet × List Char) :=
      classBody fuel f r { left := some (op, st.total f), members := .empty }
    match f.skip s with
    | [] => none
    | ']' :: r => some (st.total f, r)
    | '[' :: r =>
      match namedClass? f r with
      | some (set, r) => classBody fuel f r (st.add set)
      | none => do
        let (negated, first, r) ← classOpen? f r
        let (inner, r) ← classBody fuel f r { members := first }
        let inner ← f.negate? negated (f.fold inner)
        classBody fuel f r (st.add inner)
    | '&' :: '&' :: r => operate .inter r
    | '-' :: '-' :: r => operate .diff r
    | '~' :: '~' :: r => operate .symmDiff r
    | s => do
      let (item, r) ← classItem? f s
      let alone : Option (CharSet × List Char) :=
        match item with
        | .char c => classBody fuel f r (st.add (.single c))
        | .set set => classBody fuel f r (st.add set)
        | .anchor _ => none
      match f.skip r with
      | [] => none
      | '-' :: t =>
        match f.skip t with
        | [] => none
        | ']' :: _ => alone
        | '-' :: _ => alone
        | t => do
          let (last, t) ← classItem? f t
          match item, last with
          | .char a, .char b => if a ≤ b then classBody fuel f t (st.add (.range a b)) else none
          | _, _ => none
      | _ => alone

def charClass? (f : Flags) (s : List Char) : Option (CharSet × List Char) := do
  let (negated, first, r) ← classOpen? f s
  let (inner, r) ← classBody (r.length + 1) f r { members := first }
  let set ← f.negate? negated (f.fold inner)
  return (set, r)

/-- A decimal number with blanks around it; `none` unless it has a digit and fits 32 bits. -/
def count? (f : Flags) (s : List Char) : Option (Nat × List Char) :=
  let s := s.dropWhile Text.isBlank
  let rec digits : List Char → List Char → List Char × List Char
    | c :: r, acc =>
      if c.isDigit then digits r (c :: acc)
      else if f.spaced && !acc.isEmpty && Text.isBlank c then digits r acc
      else (acc.reverse, c :: r)
    | [], acc => (acc.reverse, [])
  let (ds, r) := digits s []
  let n : Nat := ds.foldl (fun n c => n * 10 + (c.toNat - 48)) 0
  if ds.isEmpty || Nat.pow 2 32 ≤ n then none else some (n, r.dropWhile Text.isBlank)

/-- The bounds of a counted repetition and the rest behind its closing brace; the opening brace is gone. -/
def bounds? (f : Flags) (s : List Char) : Option (Nat × Option Nat × List Char) := do
  let (least, r) ← count? f (f.skip s)
  match r with
  | '\x7d' :: r => return (least, some least, r)
  | ',' :: r =>
    match f.skip r with
    | '\x7d' :: r => return (least, none, r)
    | r =>
      let (most, r) ← count? f r
      match r with
      | '\x7d' :: r => if least ≤ most then return (least, some most, r) else none
      | _ => none
  | _ => none

def isGroupNameChar (first : Bool) (c : Char) : Bool :=
  let letter := Unicode.alphabetic.contains c
  let number := Unicode.inCategories (Unicode.categories.filter fun k => ["Nd", "Nl", "No"].contains k.short) c
  if first then c == '_' || letter
  else c == '_' || c == '.' || c == '[' || c == ']' || letter || number

def groupName? (s : List Char) : Option (String × List Char) :=
  match s.takeWhile (· != '>'), s.dropWhile (· != '>') with
  | c :: name, '>' :: r =>
    if isGroupNameChar true c && name.all (isGroupNameChar false) then some (String.ofList (c :: name), r) else none
  | _, _ => none

/-- The flags at the opening of a group, and the character that ends them; `seen` holds the letters so far, the last
argument whether the letters behind a hyphen are being read and whether the hyphen came last. -/
def groupFlags? : List Char → Flags → List Char → Bool → Bool → Option (Flags × Bool × Char × List Char)
  | [], _, _, _, _ => none
  | c :: r, f, seen, off, dangling =>
    if c = ':' ∨ c = ')' then (if dangling then none else some (f, seen.isEmpty, c, r))
    else if c = '-' then (if off then none else groupFlags? r f ('-' :: seen) true true)
    else if seen.contains c then none
    else match f.set? c (!off) with
      | some g => groupFlags? r g (c :: seen) off false
      | none => none

inductive GroupHead where
  /-- the flags of the rest of the enclosing group -/
  | flags (f : Flags)
  /-- a group with flags, and its name if it has one -/
  | group (f : Flags) (name : Option String)

def groupHead? (f : Flags) (s : List Char) : Option (GroupHead × List Char) :=
  match f.skip s with
  | '?' :: 'P' :: '<' :: r => (groupName? r).map fun (n, r) => (.group f (some n), r)
  | '?' :: '=' :: _ => none
  | '?' :: '!' :: _ => none
  | '?' :: '<' :: '=' :: _ => none
  | '?' :: '<' :: '!' :: _ => none
  | '?' :: '<' :: r => (groupName? r).map fun (n, r) => (.group f (some n), r)
  | '?' :: r => do
    let (g, bare, stop, r) ← groupFlags? r f [] false false
    if stop = ')' then (if bare then failure else return (.flags g, r)) else return (.group g none, r)
  | r => some (.group f none, r)

/-- What has been read of a group: the finished branches, and the items of the last one in reverse.  An item without a
pattern stands for a change of flags. -/
structure Progress where
  branches : Option Pattern := none
  items : List (Option Pattern) := []

def Progress.branch (p : Progress) : Pattern :=
  p.items.foldl (fun acc item => match item with
    | some q => (match acc with
      | .empty => q
      | acc => .seq q acc)
    | none => acc) .empty

def Progress.total (p : Progress) : Pattern :=
  match p.branches with
  | none => p.branch
  | some q => .alt q p.branch

def Progress.push (p : Progress) (item : Option Pattern) : Progress := { p with items := item :: p.items }

def Progress.repeat? (p : Progress) (least : Nat) (most : Option Nat) : Option Progress :=
  match p.items with
  | some q :: r => some { p with items := some (.times q least most) :: r }
  | _ => none

/-- The rest behind a sign that asks for few repetitions; it does not change what matches. -/
def dropLazy : List Char → List Char
  | '?' :: r => r
  | r => r

def Flags.dot? (f : Flags) : Option Pattern :=
  if !f.unicode then none
  else if f.dotAll then some (.one .all)
  else if f.crlf then some (.one (.compl (.union (.single '\n') (.single '\r'))))
  else some (.one (.compl (.single '\n')))

def Flags.caret (f : Flags) : Anchor := if f.multiline then (if f.crlf then .crlfStart else .lineStart) else .start

def Flags.dollar (f : Flags) : Anchor := if f.multiline then (if f.crlf then .crlfStop else .lineStop) else .stop

def Flags.ofEscape (f : Flags) : Escape → Pattern
  | .char c => .one (f.fold (.single c))
  | .set s => .one s
  | .anchor a => .anchor a

/-- A group up to its end, which is a closing bracket or the end of the text, with the flags and the names of groups
known there.  The first argument bounds the number of steps. -/
def parseGroup : Nat → Flags → List String → List Char → Progress → Option (Pattern × List String × List Char)
  | 0, _, _, _, _ => none
  | fuel + 1, f, names, s, p =>
    let counted (least : Nat) (most : Option Nat) (r : List Char) : Option (Pattern × List String × List Char) := do
      let p ← p.repeat? least most
      parseGroup fuel f names (dropLazy r) p
    match f.skip s with
    | [] => some (p.total, names, [])
    | ')' :: r => some (p.total, names, ')' :: r)
    | '|' :: r => parseGroup fuel f names r { branches := some p.total, items := [] }
    | '(' :: r => do
      let (head, r) ← groupHead? f r
      match head with
      | .flags g => parseGroup fuel g names r (p.push none)
      | .group g name =>
        let names ← match name with
          | some n => if names.contains n then none else some (n :: names)
          | none => some names
        let (inner, names, r) ← parseGroup fuel g names r {}
        match r with
        | ')' :: r => parseGroup fuel f names r (p.push (some inner))
        | _ => none
    | '[' :: r => do
      let (set, r) ← charClass? f r
      parseGroup fuel f names r (p.push (some (.one set)))
    | '?' :: r => counted 0 (some 1) r
    | '*' :: r => counted 0 none r
    | '+' :: r => counted 1 none r
    | '\x7b' :: r => do
      let (least, most, r) ← bounds? f r
      counted least most (f.skip r)
    | '\\' :: r => do
      let (e, r) ← escape? f r
      parseGroup fuel f names r (p.push (some (f.ofEscape e)))
    | '.' :: r => do
      let dot ← f.dot?
      parseGroup fuel f names r (p.push (some dot))
    | '^' :: r => parseGroup fuel f names r (p.push (some (.anchor f.caret)))
    | '$' :: r => parseGroup fuel f names r (p.push (some (.anchor f.dollar)))
    | c :: r => parseGroup fuel f names r (p.push (some (f.ofEscape (.char c))))

/-- Reads a pattern; `none` if the text is not one.  With `caseless`, case does not count from the start. -/
def parse? (caseless : Bool) (s : String) : Option Pattern :=
  let chars := s.toList
  match parseGroup (chars.length + 1) { caseless := caseless } [] chars {} with
  | some (p, _, []) => some p
  | _ => none

end DocQuery.Pattern
