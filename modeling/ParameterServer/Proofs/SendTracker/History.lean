import Mathlib.Data.List.Induction
import Mathlib.Data.List.Nodup
import Mathlib.Data.List.Sort
import ParameterServer.Proofs.SendTracker.Passes
import ParameterServer.Proofs.Throughout

/-!
# Histories of a send tracker

A run of operations on a tracker, over a network that may answer every call as it
likes.  Each send that was queued is pending, active or complete; it is offered until
the network accepts it for the first time, and tested from then on until it is
complete.
-/

namespace ParameterServer

variable {σ : Type}

namespace SendTracker

/-! ## What events say of a send -/

/-- The handle that the network gives to a send by accepting it. -/
def Event.handle? (number : Nat) (event : Event) : Option SendHandle :=
  match event.call with
  | .offered _ answer => if event.number = number then answer else none
  | .tested .. => none

/-- The handles that a send has been given. -/
def handlesOf (number : Nat) (events : List Event) : List SendHandle :=
  events.filterMap (Event.handle? number)

/-- Whether a call may be made after some events: an offer for a send that has not been
accepted, and a test with the one handle of a send that is not complete. -/
def Event.Proper (queued : List Outgoing) (before : List Event) (event : Event) : Prop :=
  match event.call with
  | .offered send _ =>
      queued[event.number]? = some send ∧ handlesOf event.number before = []
  | .tested handle _ =>
      handlesOf event.number before = [handle] ∧ event.number ∉ completedIn before

section Events

variable {number : Nat} {queued : List Outgoing} {log events : List Event}

theorem handlesOf_append (number : Nat) (log events : List Event) :
    handlesOf number (log ++ events) = handlesOf number log ++ handlesOf number events :=
  List.filterMap_append

theorem completedIn_append (log events : List Event) :
    completedIn (log ++ events) = completedIn log ++ completedIn events :=
  List.filterMap_append

theorem handlesOf_of_not_mem (absent : number ∉ events.map Event.number) :
    handlesOf number events = [] := by
  refine List.filterMap_eq_nil_iff.mpr fun event member => ?_
  have apart : event.number ≠ number := fun same =>
    absent (List.mem_map.mpr ⟨event, member, same⟩)
  rw [Event.handle?]
  split <;> simp [apart]

theorem completedIn_subset : completedIn events ⊆ events.map Event.number := by
  intro number found
  obtain ⟨event, member, complete⟩ := List.mem_filterMap.mp found
  refine List.mem_map.mpr ⟨event, member, ?_⟩
  rw [Event.completed?] at complete
  split at complete
  · exact Option.some.inj complete
  · cases complete

/-- When no send has two events, an offer is all that is known of its send. -/
theorem handlesOf_of_mem (distinct : (events.map Event.number).Nodup)
    {send : Outgoing} {answer : Option SendHandle}
    (member : ⟨number, .offered send answer⟩ ∈ events) :
    handlesOf number events = answer.toList := by
  obtain ⟨before, after, rfl⟩ := List.append_of_mem member
  rw [List.map_append, List.map_cons, List.nodup_middle, List.nodup_cons,
    List.mem_append, not_or] at distinct
  obtain ⟨⟨notBefore, notAfter⟩, _⟩ := distinct
  rw [List.append_cons, handlesOf_append, handlesOf_append,
    handlesOf_of_not_mem notBefore, handlesOf_of_not_mem notAfter]
  cases answer <;> simp [handlesOf, Event.handle?]

/-- Calls for different sends do not disturb each other. -/
theorem proper_append (proper : Throughout (Event.Proper queued) log)
    (distinct : (events.map Event.number).Nodup)
    (each : ∀ event ∈ events, event.Proper queued log) :
    Throughout (Event.Proper queued) (log ++ events) := by
  induction events using List.reverseRecOn with
  | nil =>
      rwa [List.append_nil]
  | append_singleton events last inductionHypothesis =>
      rw [List.map_append, List.map_singleton, ← List.concat_eq_append,
        List.nodup_concat] at distinct
      obtain ⟨absent, distinct⟩ := distinct
      rw [← List.append_assoc]
      refine throughout_concat.mpr ⟨inductionHypothesis distinct fun event member =>
        each event (List.mem_append_left _ member), ?_⟩
      have alone := each last (by simp)
      unfold Event.Proper at alone ⊢
      rw [handlesOf_append, handlesOf_of_not_mem absent, List.append_nil,
        completedIn_append, List.mem_append, not_or]
      split at alone
      · exact alone
      · exact ⟨alone.1, alone.2, fun found => absent (completedIn_subset found)⟩

theorem proper_queue (proper : Throughout (Event.Proper queued) log) (send : Outgoing) :
    Throughout (Event.Proper (queued ++ [send])) log := by
  intro before event after split
  have known := proper before event after split
  unfold Event.Proper at known ⊢
  split at known
  · refine ⟨?_, known.2⟩
    rw [List.getElem?_append_left (List.getElem?_eq_some_iff.mp known.1).1]
    exact known.1
  · exact known

/-- Only what was queued is accepted. -/
theorem handlesOf_of_le (proper : Throughout (Event.Proper queued) log)
    (unknown : queued.length ≤ number) : handlesOf number log = [] := by
  refine List.filterMap_eq_nil_iff.mpr fun event member => ?_
  obtain ⟨before, after, split⟩ := List.append_of_mem member
  have known := proper before event after split
  rw [Event.handle?]
  unfold Event.Proper at known
  split
  · rename_i send answer called
    rw [called] at known
    have inside := (List.getElem?_eq_some_iff.mp known.1).1
    rw [if_neg (by omega)]
  · rfl

/-- What is complete has been accepted. -/
theorem handlesOf_of_completed (proper : Throughout (Event.Proper queued) log)
    (complete : number ∈ completedIn log) : handlesOf number log ≠ [] := by
  obtain ⟨event, member, found⟩ := List.mem_filterMap.mp complete
  obtain ⟨before, after, split⟩ := List.append_of_mem member
  have known := proper before event after split
  rw [Event.completed?] at found
  unfold Event.Proper at known
  split at found
  · rename_i handle called
    rw [called, Option.some.inj found] at known
    rw [split, handlesOf_append, known.1]
    simp
  · cases found

theorem handlesOf_tests (number : Nat) (pass : List Test) :
    handlesOf number (pass.map Test.event) = [] :=
  List.filterMap_eq_nil_iff.mpr fun event member => by
    obtain ⟨test, _, rfl⟩ := List.mem_map.mp member
    rfl

theorem completedIn_offers (pass : List Offer) :
    completedIn (pass.map Offer.event) = [] :=
  List.filterMap_eq_nil_iff.mpr fun event member => by
    obtain ⟨offer, _, rfl⟩ := List.mem_map.mp member
    rfl

end Events

/-! ## Runs of operations -/

/-- An operation on a tracker. -/
inductive Operation where
  | push (send : PendingSend)
  | issuePending
  | collectActive
deriving DecidableEq, Repr

def Operation.queued? : Operation → Option Outgoing
  | push send => some send.outgoing
  | _ => none

def Operation.apply (transport : Transport σ) (operation : Operation)
    (tracker : SendTracker) (network : σ) : SendTracker × σ :=
  match operation with
  | push send => (tracker.push send, network)
  | issuePending => tracker.issuePending transport network
  | collectActive => tracker.collectActive transport network

/-- Noting the calls of an operation makes no difference to the tracker. -/
theorem Operation.apply_noted (transport : Transport σ) (operation : Operation)
    (tracker : SendTracker) (network : σ) :
    (operation.apply transport.noted tracker ([], network)).1 =
      (operation.apply transport tracker network).1 := by
  have agree := transport.agree_noted
  cases operation with
  | push send => rfl
  | issuePending =>
      exact (agree.offer rfl tracker.pending { tracker with pending := [] }).1
  | collectActive =>
      have beside : (([], network) : List Call × σ).2 = network := rfl
      obtain ⟨active, stats, _⟩ := agree.testEach beside [] tracker.active tracker.stats
      simp only [apply, SendTracker.collectActive, active, stats]

/-- A tracker with what has happened to it. -/
structure History where
  tracker : SendTracker := {}
  /-- What was queued, in order; the position of a send is its number. -/
  queued : List Outgoing := []
  /-- The calls that were made of the network. -/
  calls : List Call := []
  /-- The same calls, with the send that each was made for. -/
  log : List Event := []
  /-- The pending sends, with their numbers. -/
  pending : List (Nat × PendingSend) := []
  /-- The active sends, with their numbers. -/
  active : List (Nat × ActiveSend) := []

namespace History

/-- The numbers of the complete sends. -/
def completed (history : History) : List Nat :=
  completedIn history.log

/-- The calls that an operation makes, with the sends that it makes them for. -/
def events (transport : Transport σ) (history : History) (operation : Operation)
    (network : σ) : List Event :=
  match operation with
  | .push _ => []
  | .issuePending => (offers transport history.pending network).map Offer.event
  | .collectActive => (tests transport history.active network).map Test.event

/-- Makes an operation, which finds the network in some state. -/
def step (transport : Transport σ) (history : History) (operation : Operation)
    (network : σ) : History :=
  let tracker := history.tracker
  let after :=
    { history with
      tracker := (operation.apply transport tracker network).1
      calls :=
        history.calls ++ (operation.apply transport.noted tracker ([], network)).2.1
      log := history.log ++ history.events transport operation network }
  match operation with
  | .push send =>
      { after with
        queued := history.queued ++ [send.outgoing]
        pending := history.pending ++ [(history.queued.length, send)] }
  | .issuePending =>
      let pass := offers transport history.pending network
      { after with
        pending := pass.filterMap Offer.refused?
        active := history.active ++ pass.filterMap Offer.accepted? }
  | .collectActive =>
      let pass := tests transport history.active network
      { after with active := pass.filterMap Test.unfinished? }

/-- Makes operations in order on a new tracker, each of which finds the network in some
state. -/
def run (transport : Transport σ) (steps : List (Operation × σ)) : History :=
  steps.foldl (fun history (operation, network) =>
    history.step transport operation network) {}

theorem queued_step (transport : Transport σ) (history : History)
    (operation : Operation) (network : σ) :
    (history.step transport operation network).queued =
      history.queued ++ operation.queued?.toList := by
  cases operation with
  | push send => rfl
  | issuePending | collectActive => exact (List.append_nil _).symm

theorem run_concat (transport : Transport σ) (steps : List (Operation × σ))
    (operation : Operation) (network : σ) :
    run transport (steps ++ [(operation, network)]) =
      (run transport steps).step transport operation network := by
  simp [run]

/-! ## Every send in its place -/

/-- What the log says of the tracker. -/
structure Sound (history : History) : Prop where
  pending : history.tracker.pending = history.pending.map Prod.snd
  active : history.tracker.active = history.active.map Prod.snd
  calls : history.log.map Event.call = history.calls
  placed :
    (history.pending.map Prod.fst ++ history.active.map Prod.fst ++
      history.completed).Perm (List.range history.queued.length)
  ordered : (history.pending.map Prod.fst).Pairwise (· < ·)
  waits : ∀ entry ∈ history.pending,
    history.queued[entry.1]? = some entry.2.outgoing ∧
      handlesOf entry.1 history.log = []
  underway : ∀ entry ∈ history.active,
    history.queued[entry.1]? = some entry.2.send.outgoing ∧
      handlesOf entry.1 history.log = [entry.2.handle]
  proper : Throughout (Event.Proper history.queued) history.log
  stats : history.tracker.stats =
    { queued := history.queued.length
      issued := history.active.length + history.completed.length
      completed := history.completed.length
      failures := history.log.countP fun event => event.call.isFailure }

namespace Sound

variable {history : History}

theorem distinct (sound : history.Sound) :
    (history.pending.map Prod.fst ++ history.active.map Prod.fst ++
      history.completed).Nodup :=
  sound.placed.nodup_iff.mpr List.nodup_range

theorem not_pending (sound : history.Sound) {number : Nat}
    (underway : number ∈ history.active.map Prod.fst) :
    number ∉ history.pending.map Prod.fst := fun waits =>
  (List.nodup_append.mp (List.nodup_append.mp sound.distinct).1).2.2
    number waits number underway rfl

theorem not_completed (sound : history.Sound) {number : Nat}
    (underway : number ∈ history.active.map Prod.fst) :
    number ∉ history.completed := fun complete =>
  (List.nodup_append.mp sound.distinct).2.2
    number (List.mem_append_right _ underway) number complete rfl

theorem initial : Sound {} where
  pending := rfl
  active := rfl
  calls := rfl
  placed := List.Perm.refl _
  ordered := List.Pairwise.nil
  waits := by simp
  underway := by simp
  proper := by simp [Throughout]
  stats := rfl

theorem push (sound : history.Sound) (transport : Transport σ) (send : PendingSend)
    (network : σ) : (history.step transport (.push send) network).Sound := by
  have known {number : Nat} {own : Outgoing}
      (listed : history.queued[number]? = some own) :
      (history.queued ++ [send.outgoing])[number]? = some own := by
    rw [List.getElem?_append_left (List.getElem?_eq_some_iff.mp listed).1]
    exact listed
  have silent : (history.step transport (.push send) network).log = history.log :=
    List.append_nil history.log
  refine
    { pending := ?_, active := sound.active, calls := ?_, placed := ?_, ordered := ?_
      waits := ?_, underway := ?_, proper := ?_, stats := ?_ }
  · simp [step, Operation.apply, SendTracker.push, sound.pending]
  · rw [silent]
    simp [step, Operation.apply, sound.calls]
  · rw [completed, silent]
    simp only [step, List.map_append, List.map_singleton, List.length_append,
      List.length_singleton, List.range_succ]
    refine List.Perm.trans ?_ (sound.placed.append_right [history.queued.length])
    rw [List.append_assoc, List.append_assoc, List.append_assoc, List.append_assoc,
      ← List.append_assoc (history.active.map Prod.fst)]
    exact List.perm_append_comm.append_left _
  · simp only [step, List.map_append, List.map_singleton]
    refine List.pairwise_append.mpr
      ⟨sound.ordered, List.pairwise_singleton _ _, fun number member fresh new => ?_⟩
    rw [List.mem_singleton.mp new]
    exact List.mem_range.mp (sound.placed.subset (by simp [member]))
  · intro entry member
    rw [silent]
    rcases List.mem_append.mp member with earlier | new
    · obtain ⟨listed, unaccepted⟩ := sound.waits entry earlier
      exact ⟨known listed, unaccepted⟩
    · rw [List.mem_singleton.mp new]
      exact ⟨List.getElem?_concat_length, handlesOf_of_le sound.proper (Nat.le_refl _)⟩
  · intro entry member
    rw [silent]
    obtain ⟨listed, accepted⟩ := sound.underway entry member
    exact ⟨known listed, accepted⟩
  · rw [silent]
    exact proper_queue sound.proper send.outgoing
  · simp [step, Operation.apply, SendTracker.push, sound.stats, events, completed]

theorem issuePending (sound : history.Sound) (transport : Transport σ) (network : σ) :
    (history.step transport .issuePending network).Sound := by
  let pass := offers transport history.pending network
  obtain ⟨tracker, made⟩ := issuePending_noted transport sound.pending network
  have numbers : (pass.map Offer.event).map Event.number =
      history.pending.map Prod.fst := numbers_offers transport history.pending network
  have distinct : ((pass.map Offer.event).map Event.number).Nodup :=
    numbers ▸ (List.nodup_append.mp (List.nodup_append.mp sound.distinct).1).1
  have none : (history.step transport .issuePending network).completed =
      history.completed := by
    simp only [completed, step, events, completedIn_append, completedIn_offers,
      List.append_nil]
  refine
    { pending := ?_, active := ?_, calls := ?_, placed := ?_, ordered := ?_
      waits := ?_, underway := ?_, proper := ?_, stats := ?_ }
  · simp only [step, Operation.apply, tracker]
  · simp only [step, Operation.apply, tracker, sound.active, List.map_append]
  · simp only [step, Operation.apply, events, made, List.map_append, sound.calls]
  · rw [none]
    have moved := numbers ▸ perm_offers pass
    simp only [step, List.map_append]
    refine List.Perm.trans (List.Perm.append_right _ ?_) sound.placed
    refine (List.perm_append_comm.append_left _).trans ?_
    rw [← List.append_assoc]
    exact moved.append_right _
  · exact sound.ordered.sublist (numbers ▸ sublist_refused pass)
  · intro entry member
    obtain ⟨send, listed, same, offered⟩ := of_mem_refused member
    obtain ⟨known, unaccepted⟩ := sound.waits _ listed
    refine ⟨same ▸ known, ?_⟩
    simp only [step, events]
    rw [handlesOf_append, unaccepted, handlesOf_of_mem distinct offered]
    rfl
  · intro entry member
    simp only [step, events]
    rw [handlesOf_append]
    rcases List.mem_append.mp member with earlier | new
    · obtain ⟨known, accepted⟩ := sound.underway entry earlier
      have absent : entry.1 ∉ (pass.map Offer.event).map Event.number := by
        rw [numbers]
        exact sound.not_pending (List.mem_map_of_mem earlier)
      rw [handlesOf_of_not_mem absent, List.append_nil]
      exact ⟨known, accepted⟩
    · obtain ⟨listed, offered⟩ := of_mem_accepted new
      obtain ⟨known, unaccepted⟩ := sound.waits _ listed
      rw [unaccepted, handlesOf_of_mem distinct offered]
      exact ⟨known, rfl⟩
  · refine proper_append sound.proper distinct fun event member => ?_
    obtain ⟨offer, offered, rfl⟩ := List.mem_map.mp member
    exact sound.waits _ (mem_of_offers offered)
  · rw [none]
    simp only [step, Operation.apply, tracker, sound.stats, events, List.length_append,
      List.length_map, List.countP_append, Nat.add_right_comm]

theorem collectActive (sound : history.Sound) (transport : Transport σ) (network : σ) :
    (history.step transport .collectActive network).Sound := by
  let pass := tests transport history.active network
  obtain ⟨tracker, made⟩ := collectActive_noted transport sound.active network
  have numbers : ((pass.map Test.event).map Event.number).Perm
      (history.active.map Prod.fst) := numbers_tests transport history.active network
  have distinct : ((pass.map Test.event).map Event.number).Nodup :=
    numbers.nodup_iff.mpr
      (List.nodup_append.mp (List.nodup_append.mp sound.distinct).1).2.1
  have handles (number : Nat) :
      handlesOf number (history.step transport .collectActive network).log =
        handlesOf number history.log := by
    simp only [step, events, handlesOf_append, handlesOf_tests, List.append_nil]
  have finished : (history.step transport .collectActive network).completed =
      history.completed ++ completedIn (pass.map Test.event) :=
    completedIn_append history.log _
  have moved := (perm_tests pass).trans numbers
  refine
    { pending := ?_, active := ?_, calls := ?_, placed := ?_, ordered := sound.ordered
      waits := ?_, underway := ?_, proper := ?_, stats := ?_ }
  · simp only [step, Operation.apply, tracker, sound.pending]
  · simp only [step, Operation.apply, tracker]
  · simp only [step, Operation.apply, events, made, List.map_append, sound.calls]
  · rw [finished]
    refine List.Perm.trans ?_ sound.placed
    simp only [step, List.append_assoc]
    refine List.Perm.append_left _ (List.Perm.trans ?_ (moved.append_right _))
    rw [List.append_assoc]
    exact List.perm_append_comm.append_left _
  · intro entry member
    rw [handles]
    exact sound.waits entry member
  · intro entry member
    rw [handles]
    obtain ⟨send, listed, same, handle⟩ := of_mem_unfinished member
    obtain ⟨known, accepted⟩ := sound.underway _ listed
    exact ⟨same ▸ known, handle ▸ accepted⟩
  · refine proper_append sound.proper distinct fun event member => ?_
    obtain ⟨test, tested, rfl⟩ := List.mem_map.mp member
    have listed := mem_of_tests tested
    exact ⟨(sound.underway _ listed).2,
      sound.not_completed (List.mem_map_of_mem (f := Prod.fst) listed)⟩
  · have count := moved.length_eq
    simp only [List.length_append, List.length_map, pass] at count
    rw [finished]
    simp only [step, Operation.apply, tracker, sound.stats, events, pass,
      List.length_append, List.countP_append, SendStats.mk.injEq, true_and, and_true]
    omega

theorem step (sound : history.Sound) (transport : Transport σ) (operation : Operation)
    (network : σ) : (history.step transport operation network).Sound := by
  cases operation with
  | push send => exact sound.push transport send network
  | issuePending => exact sound.issuePending transport network
  | collectActive => exact sound.collectActive transport network

end Sound

theorem queued_run (transport : Transport σ) (steps : List (Operation × σ)) :
    (run transport steps).queued = steps.filterMap fun step => step.1.queued? := by
  induction steps using List.reverseRecOn with
  | nil => rfl
  | append_singleton steps last inductionHypothesis =>
      rw [run_concat, queued_step, inductionHypothesis, List.filterMap_append]
      cases asks : last.1.queued? <;> simp [asks]

theorem sound_run (transport : Transport σ) (steps : List (Operation × σ)) :
    (run transport steps).Sound := by
  induction steps using List.reverseRecOn with
  | nil => exact Sound.initial
  | append_singleton steps last inductionHypothesis =>
      rw [run_concat]
      exact inductionHypothesis.step transport last.1 last.2

/-! ## Each send once -/

/-- The sends with the given numbers. -/
def named (queued : List Outgoing) (numbers : List Nat) : List Outgoing :=
  numbers.filterMap (queued[·]?)

theorem named_range (queued : List Outgoing) :
    named queued (List.range queued.length) = queued := by
  induction queued using List.reverseRecOn with
  | nil => rfl
  | append_singleton queued last inductionHypothesis =>
      have earlier : ∀ number ∈ List.range queued.length,
          (queued ++ [last])[number]? = queued[number]? := fun number inside =>
        List.getElem?_append_left (List.mem_range.mp inside)
      rw [named, List.length_append, List.length_singleton, List.range_succ,
        List.filterMap_append, List.filterMap_congr earlier]
      exact congrArg₂ (· ++ ·) inductionHypothesis (by simp)

namespace Sound

variable {history : History}

theorem named_pending (sound : history.Sound) :
    named history.queued (history.pending.map Prod.fst) =
      history.tracker.pending.map PendingSend.outgoing := by
  rw [named, sound.pending, List.filterMap_map, List.map_map]
  exact List.filterMap_eq_map_iff_forall_eq_some.mpr fun entry member =>
    (sound.waits entry member).1

theorem named_active (sound : history.Sound) :
    named history.queued (history.active.map Prod.fst) =
      history.tracker.active.map fun active => active.send.outgoing := by
  rw [named, sound.active, List.filterMap_map, List.map_map]
  exact List.filterMap_eq_map_iff_forall_eq_some.mpr fun entry member =>
    (sound.underway entry member).1

/-- What was queued is pending, active or complete. -/
theorem perm_queued (sound : history.Sound) :
    history.queued.Perm
      (history.tracker.pending.map PendingSend.outgoing ++
        history.tracker.active.map (fun active => active.send.outgoing) ++
          named history.queued history.completed) := by
  have all := sound.placed.filterMap (history.queued[·]?)
  rw [List.filterMap_append, List.filterMap_append] at all
  rw [← sound.named_pending, ← sound.named_active]
  exact (List.Perm.of_eq (named_range history.queued).symm).trans all.symm

theorem length_queued (sound : history.Sound) :
    history.queued.length =
      history.tracker.pending.length + history.tracker.active.length +
        history.completed.length := by
  have count := sound.placed.length_eq
  rw [sound.pending, sound.active, List.length_map, List.length_map]
  simpa [Nat.add_assoc] using count.symm

/-- The pending sends are those that the network has not accepted, in order. -/
theorem pending_eq (sound : history.Sound) :
    history.pending.map Prod.fst =
      (List.range history.queued.length).filter
        fun number => handlesOf number history.log = [] := by
  refine sound.ordered.eq_of_mem_iff (List.pairwise_lt_range.filter _) fun number => ?_
  rw [List.mem_filter, ← sound.placed.mem_iff, List.mem_append, List.mem_append,
    decide_eq_true_eq]
  constructor
  · intro waits
    obtain ⟨entry, listed, rfl⟩ := List.mem_map.mp waits
    exact ⟨Or.inl (Or.inl waits), (sound.waits entry listed).2⟩
  · rintro ⟨(waits | underway) | complete, unaccepted⟩
    · exact waits
    · obtain ⟨entry, listed, rfl⟩ := List.mem_map.mp underway
      rw [(sound.underway entry listed).2] at unaccepted
      cases unaccepted
    · exact absurd unaccepted (handlesOf_of_completed sound.proper complete)

/-- A pass offers all sends that the network has not accepted, in order. -/
theorem numbers_issuePending (sound : history.Sound) (transport : Transport σ)
    (network : σ) :
    (history.events transport .issuePending network).map Event.number =
      (List.range history.queued.length).filter
        fun number => handlesOf number history.log = [] := by
  rw [← sound.pending_eq]
  exact numbers_offers transport history.pending network

theorem isBusy_iff (sound : history.Sound) :
    history.tracker.isBusy = false ↔
      history.tracker.stats.queued = history.tracker.stats.completed := by
  have count := sound.length_queued
  rw [sound.stats]
  simp only [isBusy, Bool.or_eq_false_iff, Bool.not_eq_false', List.isEmpty_iff,
    ← List.length_eq_zero_iff]
  omega

theorem countP_calls (sound : history.Sound) :
    history.calls.countP Call.isFailure =
      history.log.countP fun event => event.call.isFailure := by
  rw [← sound.calls, List.countP_map]
  rfl

end Sound

/-- After any operations on a new tracker, over any network.  Noting the calls makes no
difference.  What was queued is pending, active or complete.  Each call is made for one
send: an offer only if the network has not accepted the send before, a test only with the
one handle of the send and only until a test has found it to be complete.  Each pass of
offers takes all sends that were never accepted, in the order of queueing.  The counters
are those of the calls, and the tracker is idle exactly when all that was queued is
complete. -/
theorem each_send_once (transport : Transport σ) (steps : List (Operation × σ)) :
    let history := run transport steps
    let tracker := history.tracker
    let pendingNumbers := history.pending.map Prod.fst
    let activeNumbers := history.active.map Prod.fst
    let pending := tracker.pending.map PendingSend.outgoing
    let active := tracker.active.map fun active => active.send.outgoing
    history.queued = steps.filterMap (fun step => step.1.queued?) ∧
      (∀ (operation : Operation) (network : σ),
        (operation.apply transport.noted tracker ([], network)).1 =
          (operation.apply transport tracker network).1) ∧
      history.log.map Event.call = history.calls ∧
      (pendingNumbers ++ activeNumbers ++ history.completed).Perm
        (List.range history.queued.length) ∧
      pending = named history.queued pendingNumbers ∧
      active = named history.queued activeNumbers ∧
      history.queued.Perm
        (pending ++ active ++ named history.queued history.completed) ∧
      Throughout (Event.Proper history.queued) history.log ∧
      (∀ network,
        (history.events transport .issuePending network).map Event.number =
          (List.range history.queued.length).filter
            fun number => handlesOf number history.log = []) ∧
      tracker.stats =
        { queued := history.queued.length
          issued := tracker.active.length + history.completed.length
          completed := history.completed.length
          failures := history.calls.countP Call.isFailure } ∧
      (tracker.isBusy = false ↔ tracker.stats.queued = tracker.stats.completed) := by
  intro history tracker pendingNumbers activeNumbers pending active
  have sound : history.Sound := sound_run transport steps
  refine ⟨queued_run transport steps, ?_, sound.calls, sound.placed,
    sound.named_pending.symm, sound.named_active.symm, sound.perm_queued, sound.proper,
    sound.numbers_issuePending transport, ?_, sound.isBusy_iff⟩
  · intro operation network
    exact operation.apply_noted transport tracker network
  · rw [sound.countP_calls, sound.active, List.length_map]
    exact sound.stats

end History

end SendTracker

end ParameterServer
