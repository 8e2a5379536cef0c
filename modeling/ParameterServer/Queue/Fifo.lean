import ParameterServer.Queue.RoundRobin

/-!
# First come, first served

The synchronous discipline: the messages of a key leave in the order in which they
came.
-/

namespace ParameterServer.Queue

/-- The waiting messages of one key, the oldest first. -/
abbrev Fifo := List Message

/-- Accepts every message and takes the oldest. -/
def Fifo.discipline : Discipline Fifo where
  fresh := []
  insert _ message waiting := .ok (waiting ++ [message])
  take
    | [] => none
    | message :: rest => some (message, rest)

end ParameterServer.Queue
