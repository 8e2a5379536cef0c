import ParameterServer.Transport.Basic

/-!
# A scripted network

A network that answers sends and tests from a script and keeps a log of the calls,
for exercising a send tracker on its own.
-/

namespace ParameterServer.Simulation

/-- The answer to a send. -/
inductive SendOutcome where
  /-- Accepted and complete at once. -/
  | complete
  /-- Accepted, and complete once it is released. -/
  | slow
  | refused
deriving DecidableEq, Repr

/-- The answer to a test. -/
inductive TestOutcome where
  /-- Whether the send is complete. -/
  | truth
  | pending
  | failed
deriving DecidableEq, Repr

/-- A call of the network, with its outcome. -/
inductive NetworkCall where
  | send (destination : Rank) (tag : Tag) (payload : Payload) (outcome : SendOutcome)
  /-- A test, which either fails or says whether the send is complete. -/
  | test (id : Nat) (answer : Option Bool)
deriving DecidableEq, Repr

/-- The script that is left, the sends accepted so far and the calls made. -/
structure ScriptedNetwork where
  sendScript : List SendOutcome := []
  testScript : List TestOutcome := []
  /-- Accepted sends, which are numbered from one. -/
  accepted : Nat := 0
  /-- Accepted sends that are not complete. -/
  waiting : List Nat := []
  calls : List NetworkCall := []
deriving DecidableEq, Repr

namespace ScriptedNetwork

/-- Appends outcomes to the script. -/
def extend (sends : List SendOutcome) (tests : List TestOutcome)
    (network : ScriptedNetwork) : ScriptedNetwork :=
  { network with
    sendScript := network.sendScript ++ sends
    testScript := network.testScript ++ tests }

/-- Completes the given sends, or all of them when none is given. -/
def release (ids : List Nat) (network : ScriptedNetwork) : ScriptedNetwork :=
  { network with
    waiting :=
      if ids.isEmpty then [] else network.waiting.filter (fun id => !ids.contains id) }

def send (destination : Rank) (tag : Tag) (payload : Payload)
    (network : ScriptedNetwork) : Except Error SendHandle × ScriptedNetwork :=
  let outcome := network.sendScript.head?.getD .complete
  let id := network.accepted + 1
  let logged :=
    { network with
      sendScript := network.sendScript.tail
      calls := network.calls ++ [.send destination tag payload outcome] }
  match outcome with
  | .refused => (.error (.transport "refused"), logged)
  | .complete => (.ok ⟨id⟩, { logged with accepted := id })
  | .slow => (.ok ⟨id⟩, { logged with accepted := id, waiting := logged.waiting ++ [id] })

def test (handle : SendHandle) (network : ScriptedNetwork) :
    Except Error Bool × ScriptedNetwork :=
  let answer :=
    match network.testScript.head?.getD .truth with
    | .truth => some (!network.waiting.contains handle.id)
    | .pending => some false
    | .failed => none
  let logged :=
    { network with
      testScript := network.testScript.tail
      calls := network.calls ++ [.test handle.id answer] }
  match answer with
  | some complete => (.ok complete, logged)
  | none => (.error (.transport "test failed"), logged)

/-- The scripted network as a transport; no messages arrive on it. -/
def transport : Transport ScriptedNetwork where
  probe network := (.ok none, network)
  receive _ network := (.error (.transport "nothing to receive"), network)
  send := send
  test := test
  finalize network := (.ok (), network)

end ScriptedNetwork

end ParameterServer.Simulation
