import ParameterServer.Proofs.SendTracker.History

/-!
# How sends are stored

A stored send has room for a handle, whichever list of its tracker it is in, so that an
active send could lack one, and a send that is queued may come with one.  A pass of tests
goes through the list of active sends by position: the last send takes the place of a
complete one, and is then tested at the same position.  Such a pass has no outcome when it
is not through after the given number of turns.  The main statement is that it takes one
turn for each active send, in which it tests that send, and that it never comes to a send
without a handle.
-/

namespace ParameterServer

variable {σ : Type}

/-- A send with the handle that it has been given, if any. -/
structure StoredSend where
  send : PendingSend
  handle? : Option SendHandle

/-- The two lists of a tracker as they are stored, with its counters. -/
structure SendLists where
  pending : List StoredSend := []
  active : List StoredSend := []
  stats : SendStats := {}

namespace SendLists

def push (lists : SendLists) (stored : StoredSend) : SendLists :=
  { lists with
    pending := lists.pending ++ [stored]
    stats := { lists.stats with queued := lists.stats.queued + 1 } }

/-- Offers sends in order; an accepted one gets its handle. -/
def offer (transport : Transport σ) :
    List StoredSend → SendLists → σ → SendLists × σ
  | [], lists, network => (lists, network)
  | stored :: rest, lists, network =>
      let send := stored.send
      let stats := lists.stats
      match transport.send send.destination send.tag send.payload network with
      | (.ok handle, after) =>
          offer transport rest
            { lists with
              active := lists.active ++ [{ stored with handle? := some handle }]
              stats := { stats with issued := stats.issued + 1 } }
            after
      | (.error _, after) =>
          let refused := { send with failures := send.failures + 1 }
          offer transport rest
            { lists with
              pending := lists.pending ++ [{ stored with send := refused }]
              stats := { stats with failures := stats.failures + 1 } }
            after

def issuePending (transport : Transport σ) (lists : SendLists) (network : σ) :
    SendLists × σ :=
  offer transport lists.pending { lists with pending := [] } network

/-- The list without the element at a position, whose place the last element takes. -/
def swapRemove {α : Type} (position : Nat) (items : List α) : List α :=
  match items.getLast? with
  | none => items
  | some last => (items.set position last).dropLast

/-- Asks whether a send is complete.  It is left open what becomes of a send without a
handle. -/
def test (transport : Transport σ) (missing : σ → Except Error Bool × σ)
    (stored : StoredSend) (network : σ) : Except Error Bool × σ :=
  match stored.handle? with
  | some handle => transport.test handle network
  | none => missing network

/-- Tests the sends from a position on, in at most `turns` turns. -/
def sweep? (transport : Transport σ) (missing : σ → Except Error Bool × σ) :
    (turns position : Nat) → SendLists → σ → Option (SendLists × σ)
  | 0, position, lists, network =>
      if lists.active.length ≤ position then some (lists, network) else none
  | turns + 1, position, lists, network =>
      match lists.active[position]? with
      | none => some (lists, network)
      | some stored =>
          let stats := lists.stats
          match test transport missing stored network with
          | (.ok true, after) =>
              sweep? transport missing turns position
                { lists with
                  active := swapRemove position lists.active
                  stats := { stats with completed := stats.completed + 1 } }
                after
          | (.ok false, after) =>
              sweep? transport missing turns (position + 1) lists after
          | (.error _, after) =>
              let failed := { stored.send with failures := stored.send.failures + 1 }
              sweep? transport missing turns (position + 1)
                { lists with
                  active := lists.active.set position { stored with send := failed }
                  stats := { stats with failures := stats.failures + 1 } }
                after

/-- Tests the active sends in at most `turns` turns. -/
def collectActive? (transport : Transport σ) (missing : σ → Except Error Bool × σ)
    (turns : Nat) (lists : SendLists) (network : σ) : Option (SendLists × σ) :=
  if lists.active.isEmpty then some (lists, network)
  else sweep? transport missing turns 0 lists network

open SendTracker (Operation)

/-- Makes an operation; a pass of tests gets one turn for each active send.  The send that is
queued as number `n` comes with the handle `held n`, if any. -/
def perform? (transport : Transport σ) (missing : σ → Except Error Bool × σ)
    (held : Nat → Option SendHandle) (operation : Operation) (lists : SendLists)
    (network : σ) : Option (SendLists × σ) :=
  match operation with
  | .push send => some (lists.push ⟨send, held lists.stats.queued⟩, network)
  | .issuePending => some (lists.issuePending transport network)
  | .collectActive =>
      lists.collectActive? transport missing lists.active.length network

/-- Makes operations in order on new lists, each of which finds the network in some
state. -/
def run? (transport : Transport σ) (missing : σ → Except Error Bool × σ)
    (held : Nat → Option SendHandle) (steps : List (Operation × σ)) : Option SendLists :=
  steps.foldlM
    (fun lists (operation, network) =>
      (lists.perform? transport missing held operation network).map Prod.fst)
    {}

end SendLists

/-! ## Lists follow their tracker -/

def ActiveSend.stored (active : ActiveSend) : StoredSend :=
  ⟨active.send, some active.handle⟩

/-- The send after a failed test. -/
def ActiveSend.failedAgain (active : ActiveSend) : ActiveSend :=
  { active with send := { active.send with failures := active.send.failures + 1 } }

/-- What the lists of a tracker store: an active send with its handle, and a pending one with
whatever handle it has come with. -/
structure SendLists.Store (lists : SendLists) (tracker : SendTracker) : Prop where
  pending : lists.pending.map StoredSend.send = tracker.pending
  active : lists.active = tracker.active.map ActiveSend.stored
  stats : lists.stats = tracker.stats

namespace SendTracker

section Storage

variable (transport : Transport σ) (missing : σ → Except Error Bool × σ)

theorem offer_stored (sends : List StoredSend) {lists : SendLists} {tracker : SendTracker}
    (store : lists.Store tracker) (network : σ) :
    let offered := SendLists.offer transport sends lists network
    let result := offer transport (sends.map StoredSend.send) tracker network
    offered.1.Store result.1 ∧ offered.2 = result.2 := by
  induction sends generalizing lists tracker network with
  | nil => exact ⟨store, rfl⟩
  | cons stored rest inductionHypothesis =>
      obtain ⟨pending, active, stats⟩ := store
      rw [List.map_cons, SendLists.offer, offer]
      rcases transport.send stored.send.destination stored.send.tag stored.send.payload network
        with ⟨error | handle, after⟩
      · refine inductionHypothesis ?_ after
        exact ⟨by simp [pending], active, by simp [stats]⟩
      · refine inductionHypothesis ?_ after
        exact ⟨pending, by simp [active, ActiveSend.stored], by simp [stats]⟩

theorem swapRemove_append {α : Type} (kept : List α) (current : α) (rest : List α) :
    SendLists.swapRemove kept.length (kept ++ current :: rest) =
      kept ++ replaceHead rest := by
  rcases List.eq_nil_or_concat rest with rfl | ⟨before, last, rfl⟩
  · simp [SendLists.swapRemove, replaceHead]
  · have behind : kept ++ current :: (before ++ [last]) =
        kept ++ current :: before ++ [last] := by
      simp
    rw [List.concat_eq_append, SendLists.swapRemove, replaceHead, behind,
      List.getLast?_concat, List.getLast?_concat]
    simp [List.dropLast_cons_of_ne_nil]

theorem test_stored (active : ActiveSend) (network : σ) :
    SendLists.test transport missing active.stored network =
      transport.test active.handle network :=
  rfl

/-- A sweep over stored sends takes a turn for each send that is not yet tested. -/
theorem sweep?_stored (turns : Nat) (kept untested : List ActiveSend)
    (pending : List StoredSend) (stats : SendStats) (network : σ) :
    SendLists.sweep? transport missing turns kept.length
        ⟨pending, (kept ++ untested).map ActiveSend.stored, stats⟩ network =
      if untested.length ≤ turns then
        let (active, counted, after) := testEach transport kept stats untested network
        some (⟨pending, active.map ActiveSend.stored, counted⟩, after)
      else none := by
  induction turns generalizing kept untested stats network with
  | zero =>
      cases untested with
      | nil => simp [SendLists.sweep?, testEach]
      | cons current rest => simp [SendLists.sweep?]
  | succ turns inductionHypothesis =>
      cases untested with
      | nil => simp [SendLists.sweep?, testEach]
      | cons current rest =>
          have here : ((kept ++ current :: rest).map ActiveSend.stored)[kept.length]? =
              some current.stored := by
            simp
          have position (tested : ActiveSend) :
              kept.length + 1 = (kept ++ [tested]).length := by
            simp
          rw [SendLists.sweep?, testEach]
          simp only [here, test_stored, List.length_cons, Nat.add_le_add_iff_right]
          rcases answered : transport.test current.handle network with
            ⟨error | _ | _, after⟩
          · have replaced : ((kept ++ current :: rest).map ActiveSend.stored).set kept.length
                current.failedAgain.stored =
                  (kept ++ [current.failedAgain] ++ rest).map ActiveSend.stored := by
              simp
            have later := inductionHypothesis (kept ++ [current.failedAgain]) rest
              { stats with failures := stats.failures + 1 } after
            rw [← position, ← replaced] at later
            exact later
          · have later := inductionHypothesis (kept ++ [current]) rest stats after
            rw [← position, ← List.append_cons] at later
            exact later
          · have replaced : SendLists.swapRemove kept.length
                ((kept ++ current :: rest).map ActiveSend.stored) =
                  (kept ++ replaceHead rest).map ActiveSend.stored := by
              have stored := swapRemove_append (kept.map ActiveSend.stored) current.stored
                (rest.map ActiveSend.stored)
              rw [List.length_map, ← map_replaceHead] at stored
              simpa using stored
            have later := inductionHypothesis kept (replaceHead rest)
              { stats with completed := stats.completed + 1 } after
            rw [← replaced, length_replaceHead] at later
            exact later

/-- A pass of tests takes one turn for each active send. -/
theorem collectActive?_stored {lists : SendLists} {tracker : SendTracker}
    (store : lists.Store tracker) (turns : Nat) (network : σ) :
    lists.collectActive? transport missing turns network =
      if tracker.active.length ≤ turns then
        let (collected, after) := tracker.collectActive transport network
        some (⟨lists.pending, collected.active.map ActiveSend.stored, collected.stats⟩, after)
      else none := by
  obtain ⟨pending, stored, stats⟩ := lists
  obtain ⟨sends, active, counted⟩ := tracker
  obtain rfl : stored = active.map ActiveSend.stored := store.active
  obtain rfl : stats = counted := store.stats
  cases active with
  | nil => simp [SendLists.collectActive?, collectActive, testEach]
  | cons first rest =>
      rw [SendLists.collectActive?, if_neg (by simp)]
      exact sweep?_stored transport missing turns [] (first :: rest) _ stats network

theorem perform?_stored (held : Nat → Option SendHandle) (operation : Operation)
    {lists : SendLists} {tracker : SendTracker} (store : lists.Store tracker) (network : σ) :
    ∃ after,
      (lists.perform? transport missing held operation network).map Prod.fst = some after ∧
        after.Store (operation.apply transport tracker network).1 := by
  cases operation with
  | push send =>
      exact ⟨_, rfl, by simp [SendLists.push, Operation.apply, push, store.pending],
        store.active, by simp [SendLists.push, Operation.apply, push, store.stats]⟩
  | issuePending =>
      have emptied : SendLists.Store { lists with pending := [] }
          { tracker with pending := [] } := ⟨rfl, store.active, store.stats⟩
      have offered := offer_stored transport lists.pending emptied network
      rw [store.pending] at offered
      exact ⟨_, rfl, offered.1⟩
  | collectActive =>
      rw [SendLists.perform?, collectActive?_stored transport missing store,
        if_pos (by simp [store.active])]
      exact ⟨_, rfl, store.pending, rfl, rfl⟩

end Storage

/-- Tests that do not find a send complete keep it as it is or count the failure. -/
theorem perm_unfinished (pass : List Test) :
    ((pass.filterMap Test.unfinished?).map Prod.snd).Perm
      ((pass.filter fun test => test.answer = some false).map Test.send ++
        (pass.filter fun test => test.answer = none).map fun test =>
          test.send.failedAgain) := by
  induction pass with
  | nil => exact List.Perm.refl _
  | cons test rest inductionHypothesis =>
      obtain ⟨number, send, _ | _ | _⟩ := test
      · exact (inductionHypothesis.cons send.failedAgain).trans List.perm_middle.symm
      · exact inductionHypothesis.cons send
      · exact inductionHypothesis

namespace History

theorem tracker_step (transport : Transport σ) (history : History) (operation : Operation)
    (network : σ) :
    (history.step transport operation network).tracker =
      (operation.apply transport history.tracker network).1 := by
  cases operation <;> rfl

/-- Stored sends follow their tracker through every run, whatever handles they have come with
and whatever a send without a handle would be taken for. -/
theorem run?_stored (transport : Transport σ) (missing : σ → Except Error Bool × σ)
    (held : Nat → Option SendHandle) (steps : List (Operation × σ)) :
    ∃ lists, SendLists.run? transport missing held steps = some lists ∧
      lists.Store (run transport steps).tracker := by
  induction steps using List.reverseRecOn with
  | nil => exact ⟨{}, rfl, rfl, rfl, rfl⟩
  | append_singleton steps last inductionHypothesis =>
      obtain ⟨operation, network⟩ := last
      obtain ⟨lists, reached, store⟩ := inductionHypothesis
      obtain ⟨after, made, stores⟩ :=
        perform?_stored transport missing held operation store network
      refine ⟨after, ?_, ?_⟩
      · rw [SendLists.run?, List.foldlM_append, ← SendLists.run?, reached]
        simpa using made
      · rw [run_concat, tracker_step]
        exact stores

/-- What a failed test changes of a send: its failures are one more, unless the count starts
again from zero. -/
theorem failedAgain_eq (active : ActiveSend) :
    active.failedAgain.handle = active.handle ∧
      active.failedAgain.send.outgoing = active.send.outgoing ∧
      active.failedAgain.send.failures.toNat =
        if active.send.failures.toNat + 1 < 2 ^ 32 then active.send.failures.toNat + 1 else 0 := by
  refine ⟨rfl, rfl, ?_⟩
  have below := active.send.failures.toNat_lt
  rw [ActiveSend.failedAgain, UInt32.toNat_add, UInt32.toNat_one]
  split
  · rename_i room
    exact Nat.mod_eq_of_lt room
  · rename_i full
    have last : active.send.failures.toNat + 1 = 2 ^ 32 := by omega
    rw [last, Nat.mod_self]

/-- After any operations on a new tracker, over any network.  What is stored is the tracker,
whatever handles the queued sends have come with; every active send has the one handle that
the network has given it.  A pass of tests goes through the stored sends in one turn for each
active one.  It tests each active send once, with its handle, and leaves the pending ones
alone.  What a test finds complete is removed; the other sends stay as they are, but for the
failures of those whose test has failed: these are one more, unless the count starts again
from zero. -/
theorem collects_each_once (transport : Transport σ) (steps : List (Operation × σ))
    (network : σ) :
    let history := run transport steps
    let tracker := history.tracker
    let collected := tracker.collectActive transport network
    (∀ missing held, ∃ lists, SendLists.run? transport missing held steps = some lists ∧
      lists.Store tracker) ∧
      (∀ lists : SendLists, lists.Store tracker →
        ∀ stored ∈ lists.active, stored.handle?.isSome) ∧
      tracker.active = history.active.map Prod.snd ∧
      (∀ entry ∈ history.active, handlesOf entry.1 history.log = [entry.2.handle]) ∧
      collected.1.pending = tracker.pending ∧
      ∃ pass : List Test,
        (pass.map fun test => (test.number, test.send)).Perm history.active ∧
        pass.length = tracker.active.length ∧
        (∀ (lists : SendLists) missing turns, lists.Store tracker →
          lists.collectActive? transport.noted missing turns ([], network) =
            if tracker.active.length ≤ turns then
              some
                (⟨lists.pending, collected.1.active.map ActiveSend.stored, collected.1.stats⟩,
                  pass.map fun test => .tested test.send.handle test.answer, collected.2)
            else none) ∧
        collected.1.active.Perm
          ((pass.filter fun test => test.answer = some false).map Test.send ++
            (pass.filter fun test => test.answer = none).map fun test =>
              test.send.failedAgain) ∧
        ∀ test ∈ pass,
          test.send.failedAgain.handle = test.send.handle ∧
            test.send.failedAgain.send.outgoing = test.send.send.outgoing ∧
            test.send.failedAgain.send.failures.toNat =
              if test.send.send.failures.toNat + 1 < 2 ^ 32 then
                test.send.send.failures.toNat + 1
              else 0 := by
  intro history tracker collected
  have sound : history.Sound := sound_run transport steps
  obtain ⟨after, made⟩ := collectActive_noted transport sound.active network
  have each := perm_map_tests transport history.active network
  refine ⟨fun missing held => run?_stored transport missing held steps, ?_, sound.active,
    fun entry member => (sound.underway entry member).2, rfl,
    tests transport history.active network, each, ?_, fun lists missing turns store => ?_, ?_,
    fun test _ => failedAgain_eq test.send⟩
  · intro lists store stored member
    rw [store.active] at member
    obtain ⟨active, _, rfl⟩ := List.mem_map.mp member
    rfl
  · rw [sound.active, List.length_map, ← each.length_eq, List.length_map]
  · have same := Operation.apply_noted transport .collectActive tracker network
    have beside : (([], network) : List Call × σ).2 = network := rfl
    have reached := (transport.agree_noted.testEach beside [] tracker.active
      tracker.stats).2.2
    have noted : tracker.collectActive transport.noted ([], network) =
        (collected.1, (tests transport history.active network).map fun test =>
          .tested test.send.handle test.answer, collected.2) := by
      refine Prod.ext same (Prod.ext (made.trans ?_) reached)
      rw [List.map_map]
      rfl
    rw [collectActive?_stored transport.noted missing store, noted]
  · have kept := congrArg SendTracker.active after
    exact kept ▸ perm_unfinished _

end History

end SendTracker

end ParameterServer
