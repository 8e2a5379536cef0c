import ParameterServer.Proofs.SendTracker.History
import ParameterServer.Simulation.ScriptedNetwork

/-!
# The order in which sends are accepted

A pass offers the pending sends in the order in which they were queued, and goes on
after a refusal.  A send is therefore overtaken by those behind it exactly when it is
refused and they are accepted in the same pass.
-/

namespace ParameterServer

variable {σ : Type}

namespace SendTracker

/-! ## Overtaking -/

def Event.refused? (event : Event) : Option Nat :=
  match event.call with
  | .offered _ none => some event.number
  | _ => none

/-- The sends that the network has refused. -/
def refusedIn (events : List Event) : List Nat :=
  events.filterMap Event.refused?

theorem mem_refusedIn {number : Nat} {events : List Event} :
    number ∈ refusedIn events ↔
      ∃ send, ⟨number, .offered send none⟩ ∈ events := by
  constructor
  · intro refused
    obtain ⟨⟨own, call⟩, listed, found⟩ := List.mem_filterMap.mp refused
    rw [Event.refused?] at found
    split at found
    · rename_i send called
      cases found
      cases called
      exact ⟨send, listed⟩
    · cases found
  · rintro ⟨send, listed⟩
    exact List.mem_filterMap.mpr ⟨_, listed, rfl⟩

/-- Whether an accepted send overtakes, among the sends queued before it, exactly those
that were refused in the same pass. -/
def Event.Passes (log before : List Event) (event : Event) : Prop :=
  match event.call with
  | .offered _ (some _) =>
      ∀ earlier < event.number,
        handlesOf earlier (log ++ before) = [] ↔ earlier ∈ refusedIn before
  | _ => True

/-- Whether an event refuses a send to a member. -/
def Event.RefusedTo (destination : Rank) (event : Event) : Prop :=
  ∃ send, event.call = .offered send none ∧ send.destination = destination

/-- Whether an accepted send to a member comes after all sends to the member that were
queued before it. -/
def Event.InTurn (queued : List Outgoing) (destination : Rank) (before : List Event)
    (event : Event) : Prop :=
  match event.call with
  | .offered send (some _) =>
      send.destination = destination →
        ∀ earlier < event.number, ∀ other,
          queued[earlier]? = some other → other.destination = destination →
            handlesOf earlier before ≠ []
  | _ => True

namespace History

/-- Whether the sends to a member are accepted in the order in which they were
queued. -/
def InOrder (destination : Rank) (history : History) : Prop :=
  Throughout (Event.InTurn history.queued destination) history.log

variable {history : History}

theorem Sound.mem_pending_iff (sound : history.Sound) {number : Nat} :
    number ∈ history.pending.map Prod.fst ↔
      number < history.queued.length ∧ handlesOf number history.log = [] := by
  rw [sound.pending_eq, List.mem_filter, List.mem_range, decide_eq_true_eq]

/-- What is offered in a pass before a send is refused or accepted by then. -/
theorem refused_or_accepted {transport : Transport σ} {network : σ}
    {before : List Event} {number : Nat}
    (made : before ⊆ history.events transport .issuePending network)
    (offered : number ∈ before.map Event.number) :
    number ∈ refusedIn before ∨ handlesOf number before ≠ [] := by
  obtain ⟨event, member, rfl⟩ := List.mem_map.mp offered
  obtain ⟨⟨number, send, _ | handle⟩, _, rfl⟩ := List.mem_map.mp (made member)
  · exact Or.inl (List.mem_filterMap.mpr ⟨_, member, rfl⟩)
  · have given : handle ∈ handlesOf number before :=
      List.mem_filterMap.mpr ⟨_, member, by simp [Offer.event, Event.handle?]⟩
    exact Or.inr (List.ne_nil_of_mem given)

theorem Sound.passes_offers (sound : history.Sound) (transport : Transport σ)
    (network : σ) :
    Throughout (Event.Passes history.log)
      (history.events transport .issuePending network) := by
  have numbers : (history.events transport .issuePending network).map Event.number =
      history.pending.map Prod.fst := numbers_offers transport history.pending network
  have ordered := numbers ▸ sound.ordered
  intro before event after split
  unfold Event.Passes
  split
  case h_2 => trivial
  case h_1 accepting =>
    intro earlier below
    have member : event.number ∈ history.pending.map Prod.fst := by
      rw [← numbers, split]
      simp
    have inside := (sound.mem_pending_iff.mp member).1
    have made : before ⊆ history.events transport .issuePending network :=
      split ▸ List.subset_append_left before _
    constructor
    · intro unaccepted
      rw [handlesOf_append, List.append_eq_nil_iff] at unaccepted
      have waits : earlier ∈ history.pending.map Prod.fst :=
        sound.mem_pending_iff.mpr ⟨by omega, unaccepted.1⟩
      have offered : earlier ∈ before.map Event.number := by
        rw [← numbers, split, List.map_append, List.map_cons, List.mem_append,
          List.mem_cons] at waits
        rw [split, List.map_append, List.map_cons] at ordered
        have behind := (List.pairwise_cons.mp (List.pairwise_append.mp ordered).2.1).1
        rcases waits with first | same | later
        · exact first
        · omega
        · exact absurd (behind earlier later) (by omega)
      exact (refused_or_accepted made offered).resolve_right
        (not_not_intro unaccepted.2)
    · intro refused
      obtain ⟨send, listed⟩ := mem_refusedIn.mp refused
      have nothing := handlesOf_of_mem ordered.nodup (made listed)
      rw [split, handlesOf_append] at nothing
      have waits : earlier ∈ history.pending.map Prod.fst := by
        rw [← numbers]
        exact List.mem_map_of_mem (f := Event.number) (made listed)
      rw [handlesOf_append, (sound.mem_pending_iff.mp waits).2,
        (List.append_eq_nil_iff.mp nothing).1]
      rfl

/-- Only a pass of offers accepts anything. -/
theorem Sound.passes (sound : history.Sound) (transport : Transport σ)
    (operation : Operation) (network : σ) :
    Throughout (Event.Passes history.log)
      (history.events transport operation network) := by
  cases operation with
  | push send =>
      simp [events, Throughout]
  | issuePending => exact sound.passes_offers transport network
  | collectActive =>
      intro before event after split
      have member : event ∈ history.events transport .collectActive network := by
        rw [split]
        simp
      obtain ⟨test, _, rfl⟩ := List.mem_map.mp member
      trivial

theorem log_step (transport : Transport σ) (history : History) (operation : Operation)
    (network : σ) :
    (history.step transport operation network).log =
      history.log ++ history.events transport operation network := by
  cases operation <;> rfl

/-- What is overtaken has been refused. -/
theorem refused_of_overtaken (transport : Transport σ) (steps : List (Operation × σ)) :
    Throughout
      (fun before event =>
        ∀ send handle, event.call = .offered send (some handle) →
          ∀ earlier < event.number, handlesOf earlier before = [] →
            earlier ∈ refusedIn before)
      (run transport steps).log := by
  induction steps using List.reverseRecOn with
  | nil => simp [run, Throughout]
  | append_singleton steps last inductionHypothesis =>
      rw [run_concat, log_step]
      refine throughout_append.mpr ⟨inductionHypothesis, ?_⟩
      intro before event after split send handle accepted earlier below unaccepted
      have passes := (sound_run transport steps).passes transport last.1 last.2
        before event after split
      simp only [Event.Passes, accepted] at passes
      obtain ⟨other, listed⟩ := mem_refusedIn.mp ((passes earlier below).mp unaccepted)
      exact mem_refusedIn.mpr ⟨other, List.mem_append_right _ listed⟩

/-- As long as no send to a member is refused, the sends to it keep their order. -/
theorem inOrder_of_not_refused (transport : Transport σ) (steps : List (Operation × σ))
    (destination : Rank)
    (accepting : ∀ event ∈ (run transport steps).log, ¬ event.RefusedTo destination) :
    (run transport steps).InOrder destination := by
  intro before event after split
  unfold Event.InTurn
  split
  case h_2 => trivial
  case h_1 send handle called =>
    intro _ earlier below other queued own unaccepted
    have refused := refused_of_overtaken transport steps before event after split
      send handle called earlier below unaccepted
    obtain ⟨again, listed⟩ := mem_refusedIn.mp refused
    have member : ⟨earlier, .offered again none⟩ ∈ (run transport steps).log := by
      rw [split]
      exact List.mem_append_left _ listed
    obtain ⟨first, rest, place⟩ := List.append_of_mem member
    have proper := (sound_run transport steps).proper first _ rest place
    have same : again = other := Option.some.inj (proper.1.symm.trans queued)
    exact accepting _ member ⟨again, rfl, same ▸ own⟩

/-! ## The order of a member -/

/-- After any operations on a new tracker, over any network.  A pass offers all sends that
were never accepted, in the order of queueing.  A send that an operation makes the network
accept overtakes, of the sends queued before it, exactly those that the network has
refused earlier in the same pass.  As long as no send to a member is refused, the sends to
it are accepted in the order in which they were queued. -/
theorem overtaken_iff_refused (transport : Transport σ) (steps : List (Operation × σ))
    (operation : Operation) (network : σ) :
    let history := run transport steps
    let events := history.events transport operation network
    let reached := run transport (steps ++ [(operation, network)])
    history.queued = steps.filterMap (fun step => step.1.queued?) ∧
      (history.events transport .issuePending network).map Event.number =
        ((List.range history.queued.length).filter
          fun number => handlesOf number history.log = []) ∧
      reached.log = history.log ++ events ∧
      reached.log.map Event.call = reached.calls ∧
      Throughout (Event.Proper reached.queued) reached.log ∧
      Throughout (Event.Passes history.log) events ∧
      ∀ destination,
        (∀ event ∈ reached.log, ¬ event.RefusedTo destination) →
          reached.InOrder destination := by
  intro history events reached
  have before : history.Sound := sound_run transport steps
  have after : reached.Sound := sound_run transport (steps ++ [(operation, network)])
  have grown : reached.log = history.log ++ events := by
    simp only [reached, run_concat, log_step]
    rfl
  exact ⟨queued_run transport steps, before.numbers_issuePending transport network, grown,
    after.calls, after.proper, before.passes transport operation network,
    fun destination => inOrder_of_not_refused transport _ destination⟩

/-- Two sends to member 1. -/
def earlySend : Outgoing := ⟨1, .empty, [1]⟩

def lateSend : Outgoing := ⟨1, .empty, [2]⟩

open Simulation (ScriptedNetwork)

/-- The first send is refused and the second accepted in one pass; with a network that
accepts both, they keep their order. -/
theorem overtaken_iff_refused_pair :
    (handlesOf 0 [⟨0, .offered earlySend none⟩] = [] ↔
      0 ∈ refusedIn [⟨0, .offered earlySend none⟩]) ∧
    (run ScriptedNetwork.transport
      [(.push earlySend.pending, {}), (.push lateSend.pending, {}), (.issuePending, {})]).InOrder 1 := by
  let pushes : List (Operation × ScriptedNetwork) :=
    [(.push earlySend.pending, {}), (.push lateSend.pending, {})]
  have refusing := overtaken_iff_refused ScriptedNetwork.transport pushes .issuePending
    { sendScript := [.refused, .complete] }
  have accepting :=
    overtaken_iff_refused ScriptedNetwork.transport pushes .issuePending {}
  refine ⟨?_, accepting.2.2.2.2.2.2 1 ?_⟩
  · exact refusing.2.2.2.2.2.1 [⟨0, .offered earlySend none⟩]
      ⟨1, .offered lateSend (some ⟨1⟩)⟩ [] rfl 0 (by decide)
  · have log : (run ScriptedNetwork.transport
        (pushes ++ [(.issuePending, ({} : ScriptedNetwork))])).log =
        [⟨0, .offered earlySend (some ⟨1⟩)⟩, ⟨1, .offered lateSend (some ⟨2⟩)⟩] := rfl
    rw [log]
    simp [Event.RefusedTo]

/-- The second of two sends to a member is accepted while the first is not. -/
theorem not_inOrder_of_refused :
    ¬ (run ScriptedNetwork.transport
      [(.push earlySend.pending, {}), (.push lateSend.pending, {}),
        (.issuePending, { sendScript := [.refused, .complete] })]).InOrder 1 := by
  intro inOrder
  have accepted := inOrder [⟨0, .offered earlySend none⟩]
    ⟨1, .offered lateSend (some ⟨1⟩)⟩ [] rfl rfl 0 (by decide) earlySend rfl rfl
  exact accepted rfl

end History

end SendTracker

end ParameterServer
