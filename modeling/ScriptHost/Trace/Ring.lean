import ScriptHost.Dict
import ScriptHost.Trace.Event
/-!
# Ring buffers of trace records

A ring keeps the newest records and lets go of the oldest when it is full.
Records are numbered in the order of their arrival, and no number is used
twice, not even after the ring was cleared. Numbers and counts are natural
numbers here, where a host counts in 64 bits: a ring stands for one into which
fewer than 2 ^ 64 events have been pushed.
-/

namespace ScriptHost.Trace

/-- The newest records, oldest first. -/
structure Ring where
  records : List Record
  capacity : Nat
  /-- How many events were pushed, which is the number that the next record gets. It has no bound,
  and is the counter of 64 bits as long as that one has not come round to zero again. -/
  nextId : Nat
  /-- How many records were let go for want of room. -/
  evicted : Nat

namespace Ring

def ofCapacity (capacity : Nat) : Ring where
  records := []
  capacity := capacity
  nextId := 0
  evicted := 0

def defaultCapacity : Nat := 10000

instance : Inhabited Ring where
  default := ofCapacity defaultCapacity

/-- Adds an event as the newest record. -/
def push (b : Ring) (timestamp : Nat) (event : Event) : Ring :=
  let records := b.records ++ [⟨b.nextId, timestamp, event⟩]
  let excess := records.length - b.capacity
  { b with
    records := records.drop excess
    nextId := b.nextId + 1
    evicted := b.evicted + excess }

/-- Lets go of all records. The numbering goes on. -/
def clear (b : Ring) : Ring :=
  { b with records := [] }

def size (b : Ring) : Nat :=
  b.records.length

def last? (b : Ring) : Option Record :=
  b.records.getLast?

def recent (b : Ring) (n : Nat) : List Record :=
  b.records.drop (b.size - n)

def ofType (b : Ring) (type : String) : List Record :=
  b.records.filter (·.event.type == type)

def ofFunction (b : Ring) (function : String) : List Record :=
  b.records.filter (·.event.function == function)

def failures (b : Ring) : List Record :=
  b.records.filter (·.event.isFailure)

/-- How often each name occurs in a list. -/
def tally (names : List String) : Dict Nat :=
  names.foldl (fun m k => m.insert k ((m.get? k).getD 0 + 1)) ∅

structure Stats where
  recordCount : Nat
  capacity : Nat
  /-- How many records were let go for want of room. -/
  evicted : Nat
  eventCounts : Dict Nat
  /-- The number of recorded calls of each function. -/
  callCounts : Dict Nat

def stats (b : Ring) : Stats where
  recordCount := b.size
  capacity := b.capacity
  evicted := b.evicted
  eventCounts := tally (b.records.map (·.event.type))
  callCounts := tally ((b.records.filter (·.event.isCall)).map (·.event.function))

end Ring

end ScriptHost.Trace
