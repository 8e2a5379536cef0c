import ParameterServer.Queue.RoundRobin
import ParameterServer.Text.Json.Form

/-!
# Rounds of puts and gets

The asynchronous discipline: a key is served in rounds, a number of puts and then
the same number of gets.  Updates count as puts.  The first put of a key may open a
round of gets by itself, since it gives the key its value.
-/

namespace ParameterServer.Queue

open Text (Json JsonForm)

/-- The kind of request that a key is served with. -/
inductive Phase where
  | put
  | get
deriving DecidableEq, Repr

/-- The name of a phase. -/
def Phase.name : Phase → String
  | put => "Put"
  | get => "Get"

/-- The name of the list that the messages of a phase wait in. -/
def Phase.listName : Phase → String
  | put => "put"
  | get => "get"

/-- The phase that serves messages with a tag: gets in one, puts and updates in the
other. -/
def Phase.ofTag (tag : Tag) : Phase :=
  if tag = .getRequest then .get else .put

instance : JsonForm Phase where
  toJson phase := .ofText phase.name
  ofJson? json := do
    match ← json.plainAlternative? with
    | "Put" => some .put
    | "Get" => some .get
    | _ => none

/-- The size of a round, and whether the first put of a key ends its first round. -/
structure Rounds where
  size : Nat
  firstPutFlips : Bool
deriving DecidableEq, Repr

/-- The waiting messages of one key and its place in the rounds. -/
structure PhasedSlot where
  puts : List Message := []
  gets : List Message := []
  phase : Phase := .put
  /-- Messages served in the current round. -/
  served : Nat := 0
  /-- Whether no put of the key has been served yet. -/
  untouched : Bool := true
deriving DecidableEq, Repr

namespace PhasedSlot

/-- The messages that wait for a phase, the oldest first. -/
def waiting (slot : PhasedSlot) : Phase → List Message
  | .put => slot.puts
  | .get => slot.gets

/-- Accepts a message unless its list already holds a whole round. -/
def insert (rounds : Rounds) (key : String) (message : Message)
    (slot : PhasedSlot) : Except Error PhasedSlot :=
  let phase := Phase.ofTag message.tag
  if rounds.size ≤ (slot.waiting phase).length then
    .error (.capacityExceeded key phase.listName rounds.size)
  else
    match phase with
    | .put => .ok { slot with puts := slot.puts ++ [message] }
    | .get => .ok { slot with gets := slot.gets ++ [message] }

/-- Takes the oldest message of the current phase.  A full round ends the phase, and
so does the first put of the key when it flips. -/
def take (rounds : Rounds) (slot : PhasedSlot) : Option (Message × PhasedSlot) :=
  let served := slot.served + 1
  match slot.phase with
  | .put =>
      match slot.puts with
      | [] => none
      | message :: puts =>
          let flips := slot.untouched && rounds.firstPutFlips
          let rest := { slot with puts, untouched := false }
          if flips || served = rounds.size then
            some (message, { rest with phase := .get, served := 0 })
          else
            some (message, { rest with served })
  | .get =>
      match slot.gets with
      | [] => none
      | message :: gets =>
          let rest := { slot with gets }
          if served = rounds.size then
            some (message, { rest with phase := .put, served := 0 })
          else
            some (message, { rest with served })

/-- The discipline of the given rounds. -/
def discipline (rounds : Rounds) : Discipline PhasedSlot where
  fresh := {}
  insert := insert rounds
  take := take rounds

end PhasedSlot

end ParameterServer.Queue
