import ParameterServer.Engine.Basic

/-!
# Reading and waiting

The calls that a member makes on its own engine.  A call that would block is a
sequence of attempts, each of which is over, or waits for something to happen.  An
attempt looks for what it waits for and, if that is not there, looks at the engine.
-/

namespace ParameterServer

/-- The outcome of one attempt of a blocking call. -/
inductive Attempt (α : Type) where
  | done (value : α)
  | failed (error : Error)
  | waiting
deriving DecidableEq, Repr

namespace Engine

/-- Removes the oldest payload that a selector accepts, if there is one. -/
def tryRead (source : Source) (tag : Tag) (engine : Engine) :
    Except Error (Option (Rank × Payload)) × Engine :=
  match engine.responses.pop source tag with
  | .error error => (.error error, engine)
  | .ok (found, responses) => (.ok found, { engine with responses })

/-- Looks for a payload, which a stopped engine still yields; without one the attempt
goes on. -/
def seek (source : Source) (tag : Tag) (engine : Engine) :
    Attempt (Rank × Payload) × Engine :=
  if !engine.active then
    (.failed .inactive, engine)
  else
    match engine.tryRead source tag with
    | (.error error, after) => (.failed error, after)
    | (.ok (some found), after) => (.done found, after)
    | (.ok none, after) => (.waiting, after)

/-- Looks whether it is worth while to wait: a stopped engine ends the call. -/
def persist {α : Type} (engine : Engine) : Attempt α :=
  if engine.running then .waiting else .failed .stopped

/-- One attempt to read a payload, when nothing happens between its two looks. -/
def attemptRead (source : Source) (tag : Tag) (engine : Engine) :
    Attempt (Rank × Payload) × Engine :=
  match engine.seek source tag with
  | (.waiting, after) => (after.persist, after)
  | (outcome, after) => (outcome, after)

/-- Goes on with a barrier that still needs `count` replies, as far as they have
arrived; returns how many are needed afterwards. -/
def attemptBarrier (reply : Tag) : (count : Nat) → Engine → Attempt Unit × Nat × Engine
  | 0, engine => (.done (), 0, engine)
  | count + 1, engine =>
      match engine.attemptRead .any reply with
      | (.done _, after) => attemptBarrier reply count after
      | (.failed error, after) => (.failed error, count + 1, after)
      | (.waiting, after) => (.waiting, count + 1, after)

/-- The number of members that answer a broadcast. -/
def barrierSize (engine : Engine) : Nat :=
  engine.seat.size - 1

/-- Looks whether every send is complete. -/
def seekDrained (engine : Engine) : Attempt Unit :=
  if !engine.active || !engine.sends.isBusy then .done () else .waiting

/-- One attempt to see every send complete, when nothing happens between its two looks. -/
def attemptFlush (engine : Engine) : Attempt Unit :=
  match engine.seekDrained with
  | .waiting => engine.persist
  | outcome => outcome

end Engine

end ParameterServer
