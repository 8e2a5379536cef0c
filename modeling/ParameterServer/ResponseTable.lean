import ParameterServer.Message

/-!
# The response table

Payloads that are not requests wait for readers, in one lane for each tag and
sender.  A reader takes the oldest payload of a lane; a reader that accepts any
sender takes from the least rank of the group that has one.
-/

namespace ParameterServer

/-- The payloads of one tag from one sender, the oldest first. -/
structure ResponseLane where
  tag : Tag
  source : Rank
  waiting : List Payload
deriving DecidableEq, Repr

/-- The waiting payloads of a member in a group of `size`. -/
structure ResponseTable where
  size : Nat
  /-- At most one lane for each tag and sender. -/
  lanes : List ResponseLane := []
deriving DecidableEq, Repr

namespace ResponseTable

/-- Appends a payload to its lane, which is created at the end for a new tag or
sender. -/
def append (tag : Tag) (source : Rank) (payload : Payload) :
    List ResponseLane → List ResponseLane
  | [] => [⟨tag, source, [payload]⟩]
  | lane :: rest =>
      if lane.tag = tag ∧ lane.source = source then
        { lane with waiting := lane.waiting ++ [payload] } :: rest
      else
        lane :: append tag source payload rest

/-- Accepts a payload from any sender; only the tag is checked. -/
def push (tag : Tag) (source : Rank) (payload : Payload) (table : ResponseTable) :
    Except Error ResponseTable :=
  if tag.isKnown then
    .ok { table with lanes := append tag source payload table.lanes }
  else
    .error (.unknownTag tag)

/-- Removes the oldest payload of one lane. -/
def takeFrom (tag : Tag) (source : Rank) :
    List ResponseLane → Option (Payload × List ResponseLane)
  | [] => none
  | lane :: rest =>
      if lane.tag = tag ∧ lane.source = source then
        match lane.waiting with
        | [] => none
        | payload :: waiting => some (payload, { lane with waiting } :: rest)
      else do
        let (payload, others) ← takeFrom tag source rest
        return (payload, lane :: others)

/-- The senders of the group with a payload of the given tag. -/
def senders (tag : Tag) (table : ResponseTable) : List Rank :=
  (table.lanes.filter (fun lane =>
    lane.tag = tag && !lane.waiting.isEmpty && lane.source < table.size)).map (·.source)

/-- The sender that a selector chooses for a tag. -/
def chosen? (source : Source) (tag : Tag) (table : ResponseTable) : Option Rank :=
  match source with
  | .rank rank => some rank
  | .any => (table.senders tag).min?

/-- Removes the oldest payload that a selector accepts.  A rank outside the group is
refused before an unknown tag. -/
def pop (source : Source) (tag : Tag) (table : ResponseTable) :
    Except Error (Option (Rank × Payload) × ResponseTable) :=
  match source with
  | .rank rank =>
      if table.size ≤ rank then .error (.invalidRank rank table.size)
      else popChosen
  | .any => popChosen
where
  popChosen : Except Error (Option (Rank × Payload) × ResponseTable) :=
    if tag.isKnown then
      match table.chosen? source tag with
      | none => .ok (none, table)
      | some rank =>
          match takeFrom tag rank table.lanes with
          | none => .ok (none, table)
          | some (payload, lanes) => .ok (some (rank, payload), { table with lanes })
    else
      .error (.unknownTag tag)

/-- The number of waiting payloads of a tag, from every sender. -/
def count (tag : Tag) (table : ResponseTable) : Nat :=
  (table.lanes.filter (fun lane => lane.tag = tag)).foldr
    (fun lane total => lane.waiting.length + total) 0

/-- Whether no payload of a tag waits. -/
def isEmpty (tag : Tag) (table : ResponseTable) : Bool :=
  table.count tag = 0

/-- Pops until nothing is found or an error stops it, at most `limit` times. -/
def drainFor (source : Source) (tag : Tag) :
    (limit : Nat) → ResponseTable →
      List (Except Error (Rank × Payload)) × ResponseTable
  | 0, table => ([], table)
  | limit + 1, table =>
      match table.pop source tag with
      | .error error => ([.error error], table)
      | .ok (none, rest) => ([], rest)
      | .ok (some found, rest) =>
          let (others, last) := drainFor source tag limit rest
          (.ok found :: others, last)

/-- All payloads that a selector accepts, in the order in which they are read. -/
def drain (source : Source) (tag : Tag) (table : ResponseTable) :
    List (Except Error (Rank × Payload)) × ResponseTable :=
  table.drainFor source tag (table.count tag + 1)

end ResponseTable

end ParameterServer
