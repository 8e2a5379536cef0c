import ParameterServer.Proofs.Engine.Progress
import ParameterServer.Transport.Mesh

/-!
# What halts a member

An engine goes on until something asks it to stop, or until its request queue refuses a
message for its capacity.  The error of the first such refusal is kept.

The process loop is followed step by step here: between its look whether the queue is
closed, its search of the queue and its look whether the engine runs, anything else can
happen.  A stop in between costs one request, which the loop takes from the queue and
drops when it finds the engine stopped.
-/

namespace ParameterServer

variable {σ ω : Type}

open Engine

/-! ## The process loop among others -/

/-- Where the process loop is. -/
inductive Place (ω : Type) where
  /-- At the top, where it looks whether the queue is closed. -/
  | resting
  /-- It has found the queue open, and is going to search it. -/
  | searching
  /-- It has taken a message, and is going to look whether the engine runs. -/
  | holding (message : Message)
  /-- It is going to give a request to its handler. -/
  | calling (handler : Handler ω) (request : Request)
  | ended

/-- A member with the place of its process loop.  An engine is stopped first and its queue is
closed then: while it is `closing`, the loop still finds the queue open. -/
structure Scene (ω : Type) where
  host : Host ω
  place : Place ω := .resting
  closing : Bool := false

/-- Who goes on next. -/
inductive Turn where
  | act (activity : Activity)
  /-- The body of an iteration of the network loop that has found the engine running. -/
  | iterate
  /-- Whoever has stopped the engine closes its queue. -/
  | close

namespace Scene

variable (transport : Transport σ) (bindings : Bindings ω)

/-- What happens on the member; the process loop does what is next at its place, which may be
a look only. -/
def progress? (turn : Turn) (scene : Scene ω) : Option (Progress ω) :=
  match turn with
  | .act .process =>
      match scene.place with
      | .searching => some .search
      | .holding message => some (.judge message)
      | .calling handler request => some (.serve handler request)
      | .resting | .ended => none
  | .act activity => some (.act activity)
  | .iterate => some .iterate
  | .close => none

def seemsClosed (scene : Scene ω) : Bool :=
  scene.host.engine.queue.isClosed && !scene.closing

/-- Where the process loop is after its next step. -/
def moveOn (scene : Scene ω) : Place ω :=
  match scene.place with
  | .resting => if scene.seemsClosed then .ended else .searching
  | .searching =>
      match scene.host.engine.queue.tryNext.1 with
      | some message => .holding message
      | none => .resting
  | .holding message =>
      match (Host.judge bindings message scene.host.engine).1 with
      | .call handler request => .calling handler request
      | .dropped | .idle => .resting
      | .ended => .ended
  | .calling .. => .resting
  | .ended => .ended

def step (turn : Turn) (scene : Scene ω) (network : σ) : Scene ω :=
  let host :=
    match scene.progress? turn with
    | some progress => scene.host.advance transport bindings progress network
    | none => scene.host
  match turn with
  | .act .process =>
      { host
        place := scene.moveOn bindings
        closing := scene.closing || (scene.host.engine.running && !host.engine.running) }
  | .act _ | .iterate =>
      { scene with
        host
        closing := scene.closing || (scene.host.engine.running && !host.engine.running) }
  | .close => { scene with closing := false }

/-- Lets turns be taken in order, each of which finds the network in some state. -/
def run (scene : Scene ω) (turns : List (Turn × σ)) : Scene ω :=
  turns.foldl
    (fun current (turn, network) => current.step transport bindings turn network)
    scene

/-- The error with which the queue refuses what is received next for its capacity. -/
def refusal? (turn : Turn) (scene : Scene ω) (network : σ) : Option Error :=
  (scene.progress? turn).bind fun progress =>
    scene.host.refusal? transport progress network

/-- Whether the engine is asked to stop next. -/
def asksToStop (turn : Turn) (scene : Scene ω) (network : σ) : Bool :=
  (scene.progress? turn).any fun progress =>
    scene.host.asksToStop transport bindings progress network

/-- What leaves the queue next. -/
def taken? (turn : Turn) (scene : Scene ω) : Option Message :=
  (scene.progress? turn).bind fun progress => scene.host.taken? progress

section Steps

variable (turn : Turn) (scene : Scene ω) (network : σ)

theorem step_host :
    (scene.step transport bindings turn network).host =
      match scene.progress? turn with
      | some progress => scene.host.advance transport bindings progress network
      | none => scene.host := by
  cases turn with
  | act activity => cases activity <;> rfl
  | iterate | close => rfl

theorem fares_step :
    Fares (scene.refusal? transport turn network)
      (scene.asksToStop transport bindings turn network) (scene.taken? turn)
      scene.host.engine (scene.step transport bindings turn network).host.engine := by
  rw [step_host, refusal?, asksToStop, taken?]
  cases scene.progress? turn with
  | some progress => exact Host.fares_advance transport bindings progress scene.host network
  | none => exact Fares.of_same rfl rfl rfl

theorem place_step :
    (scene.step transport bindings turn network).place =
      match turn with
      | .act .process => scene.moveOn bindings
      | _ => scene.place := by
  cases turn with
  | act activity => cases activity <;> rfl
  | iterate | close => rfl

variable {turn scene network}

/-- Only the process loop takes requests, where it searches the queue. -/
theorem taken?_of_place (elsewhere : turn = .act .process → scene.place ≠ .searching) :
    scene.taken? turn = none := by
  unfold taken? progress?
  cases turn with
  | iterate | close => rfl
  | act activity =>
      cases activity with
      | process =>
          have place := elsewhere rfl
          cases held : scene.place with
          | searching => exact absurd held place
          | resting | holding | calling | ended => rfl
      | network | send | broadcast | read | stop | shutdown => rfl

theorem closing_step (stopped : scene.host.engine.running = false)
    (closed : scene.closing = false) :
    (scene.step transport bindings turn network).closing = false := by
  cases turn with
  | act activity => cases activity <;> simp [step, stopped, closed]
  | iterate => simp [step, stopped, closed]
  | close => rfl

end Steps

/-! ## After a stop -/

/-- What has become of what was `buffered` when the engine was stopped: the process loop has
taken one message of it, at most, and drops it. -/
structure Keeps (buffered : List Message) (scene : Scene ω) : Prop where
  stopped : scene.host.engine.running = false
  kept : ∃ lost : Option Message,
    buffered.Subperm (scene.host.engine.queue.buffered ++ lost.toList) ∧
      ∀ message ∈ lost, scene.place = .holding message ∨ scene.place = .ended

/-- What was `buffered` when the engine was stopped remains so: the queue is closed, and the
process loop is not beyond its look at it. -/
structure Shut (buffered : List Message) (scene : Scene ω) : Prop where
  stopped : scene.host.engine.running = false
  seemsClosed : scene.host.engine.queue.isClosed = true ∧ scene.closing = false
  place : scene.place ≠ .searching
  kept : buffered.Subperm scene.host.engine.queue.buffered

variable {buffered : List Message} {scene : Scene ω}

theorem moveOn_of_holding {message : Message} (stopped : scene.host.engine.running = false)
    (place : scene.place = .holding message) : scene.moveOn bindings = .ended := by
  simp [moveOn, place, Host.judge, stopped]

theorem Keeps.step (keeps : Keeps buffered scene) (turn : Turn) (network : σ) :
    Keeps buffered (scene.step transport bindings turn network) := by
  have fares := fares_step transport bindings turn scene network
  refine ⟨by rw [fares.running, keeps.stopped]; rfl, ?_⟩
  obtain ⟨lost, kept, whereabouts⟩ := keeps.kept
  by_cases search : turn = .act .process ∧ scene.place = .searching
  · -- The search of the process loop: nothing has been lost before.
    obtain ⟨rfl, place⟩ := search
    have nothing : lost = none := by
      cases lost with
      | none => rfl
      | some message => simp [place] at whereabouts
    rw [nothing, Option.toList_none, List.append_nil] at kept
    refine ⟨scene.taken? (.act .process), kept.trans fares.kept, ?_⟩
    intro message taken
    have found : scene.host.engine.queue.tryNext.1 = some message := by
      simpa [taken?, progress?, place, Host.taken?] using taken
    left
    rw [place_step]
    simp [moveOn, place, found]
  · have grows := fares.kept
    rw [taken?_of_place fun same place => search ⟨same, place⟩, Option.toList_none,
      List.append_nil] at grows
    refine ⟨lost, kept.trans ((List.subperm_append_right _).mpr grows), ?_⟩
    intro message gone
    rw [place_step]
    split
    · rcases whereabouts message gone with place | place
      · exact .inr (moveOn_of_holding bindings keeps.stopped place)
      · exact .inr (by simp [moveOn, place])
    · exact whereabouts message gone

theorem Shut.step (shut : Shut buffered scene) (turn : Turn) (network : σ) :
    Shut buffered (scene.step transport bindings turn network) := by
  have fares := fares_step transport bindings turn scene network
  have stopped : (scene.step transport bindings turn network).host.engine.running = false := by
    rw [fares.running, shut.stopped]
    rfl
  have grows := fares.kept
  rw [taken?_of_place fun _ => shut.place, Option.toList_none, List.append_nil] at grows
  obtain ⟨closed, seen⟩ := shut.seemsClosed
  refine ⟨stopped, ⟨?_, closing_step transport bindings shut.stopped seen⟩, ?_,
    shut.kept.trans grows⟩
  · have flag := fares.closed (by rw [closed, shut.stopped]; rfl)
    rw [flag, stopped]
    rfl
  · rw [place_step]
    split
    · cases place : scene.place with
      | searching => exact absurd place shut.place
      | resting => simp [moveOn, place, Scene.seemsClosed, closed, seen]
      | holding message =>
          rw [moveOn_of_holding bindings shut.stopped place]
          simp
      | calling | ended => simp [moveOn, place]
    · exact shut.place

section Runs

variable (scene : Scene ω) (turns : List (Turn × σ))

end Runs

end Scene

end ParameterServer
