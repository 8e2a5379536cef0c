import ParameterServer.Message

/-!
# Round robin over keys

Waiting messages are kept in one slot per key.  A cursor goes round the keys in the
order of their first appearance; a scan visits each key at most once, starting at
the cursor, and takes at most one message.
-/

namespace ParameterServer.Queue

/-- How messages of one key wait: the slot of a new key, the acceptance of a message
and the choice of the next one. -/
structure Discipline (σ : Type) where
  fresh : σ
  insert : (key : String) → Message → σ → Except Error σ
  take : σ → Option (Message × σ)

/-- Slots with a cursor that goes round them. -/
structure RoundRobin (σ : Type) where
  /-- The known keys and their slots, in the order of first appearance. -/
  slots : List (String × σ) := []
  /-- The position where the next scan starts. -/
  cursor : Nat := 0
  /-- The number of waiting messages. -/
  pending : Nat := 0
  closed : Bool := false
deriving DecidableEq, Repr

namespace RoundRobin

variable {σ : Type}

/-- The number of known keys. -/
def keyCount (queue : RoundRobin σ) : Nat :=
  queue.slots.length

/-- Puts a message into the slot of its key, which is created at the end for a new
key. -/
def place (discipline : Discipline σ) (key : String) (message : Message) :
    List (String × σ) → Except Error (List (String × σ))
  | [] => do
      return [(key, ← discipline.insert key message discipline.fresh)]
  | (other, slot) :: rest =>
      if other = key then do
        return (other, ← discipline.insert key message slot) :: rest
      else do
        return (other, slot) :: (← place discipline key message rest)

/-- Accepts a message under its key, or refuses it and changes nothing. -/
def push (discipline : Discipline σ) (key : String) (message : Message)
    (queue : RoundRobin σ) : Except Error (RoundRobin σ) := do
  let slots ← place discipline key message queue.slots
  return { queue with slots, pending := queue.pending + 1 }

/-- Visits up to the given number of slots from the cursor on, and takes the first
message that a slot yields.  The cursor moves past every visited slot. -/
def scanFor (discipline : Discipline σ) :
    (visits : Nat) → RoundRobin σ → Option Message × RoundRobin σ
  | 0, queue => (none, queue)
  | visits + 1, queue =>
      let count := queue.keyCount
      let position := queue.cursor % count
      let moved := { queue with cursor := (position + 1) % count }
      match queue.slots[position]? with
      | none => scanFor discipline visits moved
      | some (key, slot) =>
          match discipline.take slot with
          | none => scanFor discipline visits moved
          | some (message, rest) =>
              (some message,
                { moved with
                  slots := moved.slots.set position (key, rest)
                  pending := moved.pending - 1 })

/-- Visits every known slot once. -/
def scan (discipline : Discipline σ) (queue : RoundRobin σ) :
    Option Message × RoundRobin σ :=
  scanFor discipline queue.keyCount queue

/-- The queue after the last message: what waits can still be scanned. -/
def close (queue : RoundRobin σ) : RoundRobin σ :=
  { queue with closed := true }

end RoundRobin

end ParameterServer.Queue
