import TopicPublisher.Entries
import TopicPublisher.Factory.Handle
import TopicPublisher.Registry

/-!
# The producer cache

One cell a topic. The first call that finds a cell empty gets the turn to create the topic's handle;
later ones wait in line. When a creation succeeds the cell is filled and all of them go on; when it
fails or is abandoned, the turn passes to the first in line, which creates a handle of its own.

The cache maps topics to cells. `Cache.take` empties the map, for a reset, and `Cache.shut` closes it
as well. A creation may finish after the map was emptied, and its cell is then in no entry any more.
So every handle, once its cell is filled, is placed: `Cache.place` compares it with what the map
holds for the topic by then, and says what becomes of it.
-/

namespace TopicPublisher

/-- The number of a cell. -/
abbrev CellId := Nat

/-- A place for one handle, filled once. -/
structure Cell where
  value : Option HandleId := none
  /-- The call whose turn it is to create the handle. -/
  turn : Option CallId := none
  /-- The calls in line behind it. -/
  queue : List CallId := []
  deriving DecidableEq, Repr

namespace Cell

/-- Takes the turn of an empty cell that is nobody's, or stands in line: whether it was taken. -/
def enter (k : Cell) (c : CallId) : Bool × Cell :=
  match k.turn with
  | none => (true, { k with turn := some c })
  | some _ => (false, { k with queue := k.queue ++ [c] })

/-- Gives up the turn: it goes to the first in line, which is woken. -/
def pass (k : Cell) : Cell × List CallId :=
  match k.queue with
  | [] => ({ k with turn := none }, [])
  | c :: rest => ({ k with turn := some c, queue := rest }, [c])

/-- Fills the cell; all in line are woken. -/
def fill (k : Cell) (h : HandleId) : Cell × List CallId :=
  ({ value := some h, turn := none, queue := [] }, k.queue)

/-- A call goes away, from the line or from its turn. -/
def leave (k : Cell) (c : CallId) : Cell × List CallId :=
  if k.turn = some c then k.pass else ({ k with queue := k.queue.filter (· ≠ c) }, [])

end Cell

/-- What becomes of a handle whose cell was filled.

* `cached`: the map holds it.
* `superseded`: the map holds another handle for the topic, and this one is to be retired.
* `closed`: the cache was closed, and the handle is to be retired.
* `retired`: it was taken out of the map before it could be placed. -/
inductive Placement where
  | cached (h : HandleId)
  | superseded (winner loser : HandleId)
  | closed (h : HandleId)
  | retired (h : HandleId)
  deriving DecidableEq, Repr

/-- The map from topics to cells, and all cells there ever were. -/
structure Cache where
  entries : List (String × CellId) := []
  cells : Registry Cell := .empty
  closed : Bool := false
  deriving Repr

namespace Cache

/-! ## 1. The map -/

/-- The cell that the map has for a topic. -/
def current? (c : Cache) (topic : String) : Option CellId := Entries.find? topic c.entries

/-- The handle in a cell. -/
def value? (c : Cache) (k : CellId) : Option HandleId := (c.cells.get? k).bind Cell.value

/-- The handle that the map has for a topic. -/
def handle? (c : Cache) (topic : String) : Option HandleId := (c.current? topic).bind c.value?

/-- All handles in the map. -/
def handles (c : Cache) : List HandleId := c.entries.filterMap fun e => c.value? e.2

/-- The cell of a topic; a topic without one gets a new and empty cell. -/
def cellFor (c : Cache) (topic : String) : Cache × CellId :=
  match c.current? topic with
  | some k => (c, k)
  | none =>
    ({ c with entries := Entries.putLast topic c.cells.size c.entries, cells := c.cells.add {} }, c.cells.size)

/-- Empties the map and gives the handles that were in it. -/
def take (c : Cache) : Cache × List HandleId := ({ c with entries := [] }, c.handles)

/-- Empties the map and closes the cache for good. -/
def shut (c : Cache) : Cache × List HandleId := ({ c with closed := true } : Cache).take

/-! ## 2. Placement -/

/-- Puts a handle into the map under a new cell. -/
def adopt (c : Cache) (topic : String) (h : HandleId) : Cache :=
  { c with
    entries := Entries.putLast topic c.cells.size c.entries
    cells := c.cells.add { value := some h } }

/-- What becomes of handle `h`, which cell `k` was filled with. A handle already in the map for the
topic stays there; a cell that is still empty gives way. -/
def place (c : Cache) (retiring : Bool) (topic : String) (k : CellId) (h : HandleId) :
    Placement × Cache :=
  if c.closed then (.closed h, c)
  else if retiring then
    (.retired h, if c.current? topic = some k then { c with entries := Entries.erase topic c.entries } else c)
  else
    match c.current? topic with
    | none => (.cached h, c.adopt topic h)
    | some now =>
      if now = k then (.cached h, c)
      else
        match c.value? now with
        | none => (.cached h, c.adopt topic h)
        | some other => if other = h then (.cached h, c) else (.superseded other h, c)

end Cache

end TopicPublisher
