import DocQuery.Cache
import DocQuery.Digest

/-!
# Buffered counters

Steps of a counter are added up in the cache.  The first step opens a window; the first step after the window has
passed takes the sum out, and the next one opens a new window.
-/
namespace DocQuery

inductive CounterOutcome where
  /-- it is kept with the others -/
  | buffered
  /-- the sum of the steps is to be written now -/
  | flush (total : Int)
  deriving DecidableEq

namespace Counter

def key (table field : String) (filter : Value) : String :=
  Digest.key "lazy" (.arr [.str table, .str field, filter])

/-- The key for the time at which the window of a counter was opened. -/
def openedKey (key : String) : String := key ++ "_time"

/-- The last time inside a window; times do not grow beyond signed words of 64 bits. -/
def windowEnd (opened : Int) (window : Nat) : Int :=
  min (opened + min (window : Int) (Int.pow 2 63 - 1)) (Int.pow 2 63 - 1)

/-- Adds a step to a counter; `time` is the clock's reading, `now` the time that the cache goes by. -/
def accumulate (c : Cache) (now : Nat) (time : Int) (key : String) (step : Int) (window : Nat) :
    CounterOutcome × Cache :=
  let (opened, c) := c.lookup now (openedKey key)
  match opened.bind Value.signed? with
  | none =>
    let c := c.set now (openedKey key) (.int time) none none
    (.buffered, (c.increment now key step).2)
  | some opened =>
    let (total, c) := c.increment now key step
    if windowEnd opened window < time then
      let c := (c.delete key).delete (openedKey key)
      (if total = 0 then .buffered else .flush total, c)
    else (.buffered, c)

end Counter

end DocQuery
