import ParameterServer.Transport.Basic

/-!
# Faults

A transport whose calls fail as a plan says.  Every call takes the next entry of its
own list, and goes through unharmed when the list is used up.
-/

namespace ParameterServer.Simulation

/-- What becomes of a call that either goes through or fails. -/
inductive CallFault where
  | pass
  | refuse
deriving DecidableEq, Repr

/-- What becomes of an attempt to receive a message. -/
inductive ReceiveFault where
  | pass
  /-- The call fails, and the message stays. -/
  | refuse
  /-- The message has another length than advertised, and is lost. -/
  | short
  /-- The message is not the advertised one, and stays. -/
  | mismatch
deriving DecidableEq, Repr

/-- What becomes of a test for completion. -/
inductive TestFault where
  | pass
  | refuse
  /-- The send is reported as not complete. -/
  | pending
deriving DecidableEq, Repr

/-- The faults to come, and a count of the calls of `finalize`. -/
structure FaultPlan where
  probes : List CallFault := []
  receives : List ReceiveFault := []
  sends : List CallFault := []
  tests : List TestFault := []
  /-- Whether every test reports its send as not complete, and takes no entry. -/
  hang : Bool := false
  finalizeFails : Bool := false
  finalizations : Nat := 0
deriving DecidableEq, Repr

namespace FaultPlan

/-- The plan followed by the entries of another, whose flags replace the earlier
ones. -/
def extend (plan added : FaultPlan) : FaultPlan :=
  { probes := plan.probes ++ added.probes
    receives := plan.receives ++ added.receives
    sends := plan.sends ++ added.sends
    tests := plan.tests ++ added.tests
    hang := added.hang
    finalizeFails := added.finalizeFails
    finalizations := plan.finalizations }

variable {σ : Type}

/-- The error of a call that fails by plan. -/
def injected : Error :=
  .transport "injected fault"

def probe (transport : Transport σ) :
    FaultPlan × σ → Except Error (Option Header) × FaultPlan × σ
  | (plan, network) =>
      let rest := { plan with probes := plan.probes.tail }
      match plan.probes.head? with
      | some .refuse => (.error injected, rest, network)
      | _ =>
          let (found, after) := transport.probe network
          (found, rest, after)

def receive (transport : Transport σ) (header : Header) :
    FaultPlan × σ → Except Error Payload × FaultPlan × σ
  | (plan, network) =>
      let rest := { plan with receives := plan.receives.tail }
      let through (announced : Header) : Except Error Payload × FaultPlan × σ :=
        let (received, after) := transport.receive announced network
        (received, rest, after)
      match plan.receives.head? with
      | some .refuse => (.error injected, rest, network)
      | some .short => through { header with length := header.length + 1 }
      | some .mismatch => through { header with source := header.source + 1 }
      | _ => through header

def send (transport : Transport σ) (destination : Rank) (tag : Tag)
    (payload : Payload) : FaultPlan × σ → Except Error SendHandle × FaultPlan × σ
  | (plan, network) =>
      let rest := { plan with sends := plan.sends.tail }
      match plan.sends.head? with
      | some .refuse => (.error injected, rest, network)
      | _ =>
          let (handle, after) := transport.send destination tag payload network
          (handle, rest, after)

def test (transport : Transport σ) (handle : SendHandle) :
    FaultPlan × σ → Except Error Bool × FaultPlan × σ
  | (plan, network) =>
      if plan.hang then
        (.ok false, plan, network)
      else
        let rest := { plan with tests := plan.tests.tail }
        match plan.tests.head? with
        | some .refuse => (.error injected, rest, network)
        | some .pending => (.ok false, rest, network)
        | _ =>
            let (complete, after) := transport.test handle network
            (complete, rest, after)

def finalize (transport : Transport σ) :
    FaultPlan × σ → Except Error Unit × FaultPlan × σ
  | (plan, network) =>
      let counted := { plan with finalizations := plan.finalizations + 1 }
      let (outcome, after) := transport.finalize network
      (if plan.finalizeFails then .error injected else outcome, counted, after)

end FaultPlan

/-- The transport that fails as the plan in its state says. -/
def faulty {σ : Type} (transport : Transport σ) : Transport (FaultPlan × σ) where
  probe := FaultPlan.probe transport
  receive := FaultPlan.receive transport
  send := FaultPlan.send transport
  test := FaultPlan.test transport
  finalize := FaultPlan.finalize transport

end ParameterServer.Simulation
