import ParameterServer.Proofs.Queue.Fairness
import ParameterServer.Proofs.Queue.Sources
import ParameterServer.Proofs.Queue.Trace

/-!
# Synchronous clients

Some sources use a key of an asynchronous queue, each of which puts and gets by turns and
asks for nothing more before its last request has been returned.  Each of them then has
at most one request waiting, so that as many sources as a round has messages never fill
a list of the key.  Without the flip of the first put they go through the rounds
together.  With it they are stuck after the first put and the get that follows it.
-/

namespace ParameterServer

open Queue

namespace Queue

/-- Every source puts and gets by turns, and at most one of its messages has not been
returned. -/
structure Paced (sources : Finset Rank) (accepted returned : List Message) : Prop where
  alternates : Alternates sources accepted
  settled : ∀ source, ∃ outstanding : Option Message,
    accepted.filter (Message.isFrom source) =
      returned.filter (Message.isFrom source) ++ outstanding.toList

namespace Paced

variable {sources : Finset Rank} {accepted returned : List Message} {message : Message}
  {rounds : Rounds} {slot : PhasedSlot} {source : Rank}

theorem fresh (sources : Finset Rank) : Paced sources [] [] where
  alternates := alternates_nil sources
  settled _ := ⟨none, rfl⟩

theorem alternates_returned (paced : Paced sources accepted returned) :
    Alternates sources returned where
  inside := by
    intro message listed
    obtain ⟨outstanding, own⟩ := paced.settled message.source
    have kept : message ∈ accepted.filter (Message.isFrom message.source) := by
      rw [own]
      exact List.mem_append_left _
        (List.mem_filter.mpr ⟨listed, by simp [Message.isFrom]⟩)
    exact paced.alternates.inside message (List.mem_of_mem_filter kept)
  turns := by
    intro source
    obtain ⟨outstanding, own⟩ := paced.settled source
    have turns := paced.alternates.turns source
    rw [own] at turns
    exact turns.of_append

/-- A source whose last request has been returned makes the next one of its turn. -/
theorem ask (paced : Paced sources accepted returned) (member : message.source ∈ sources)
    (settled : share message.source accepted = share message.source returned)
    (turn : message.phase = Phase.ofTurn (share message.source accepted)) :
    Paced sources (accepted ++ [message]) returned where
  alternates := alternates_concat.mpr ⟨paced.alternates, member, turn⟩
  settled := by
    intro source
    obtain ⟨outstanding, own⟩ := paced.settled source
    by_cases same : message.source = source
    · subst source
      have none : outstanding.toList = [] := by
        have lengths := congrArg List.length own
        rw [List.length_append] at lengths
        unfold share at settled
        exact List.eq_nil_of_length_eq_zero (by omega)
      rw [none, List.append_nil] at own
      exact ⟨some message, by simp [own, Message.isFrom]⟩
    · exact ⟨outstanding, by simp [own, Message.isFrom, same]⟩

/-! ## What waits -/

/-- What waits of a source is its request that has not been returned. -/
theorem waiting (paced : Paced sources accepted returned)
    (sound : PhasedSlot.Sound rounds accepted returned slot) (source : Rank) :
    ∃ outstanding : Option Message,
      accepted.filter (Message.isFrom source) =
          returned.filter (Message.isFrom source) ++ outstanding.toList ∧
        ∀ phase, (slot.waiting phase).filter (Message.isFrom source) =
          outstanding.toList.filter (Message.isOf phase) := by
  obtain ⟨outstanding, own⟩ := paced.settled source
  refine ⟨outstanding, own, fun phase => ?_⟩
  have conserved := congrArg (List.filter (Message.isFrom source)) (sound.conserved phase)
  rw [List.filter_comm _ _ accepted, own, List.filter_append, List.filter_append,
    List.filter_comm _ _ returned] at conserved
  exact (List.append_cancel_left conserved).symm

theorem share_waiting (paced : Paced sources accepted returned)
    (sound : PhasedSlot.Sound rounds accepted returned slot) (source : Rank)
    (phase : Phase) :
    share source (slot.waiting phase) + share source returned ≤ share source accepted ∧
      share source accepted ≤ share source returned + 1 := by
  obtain ⟨outstanding, own, waits⟩ := paced.waiting sound source
  have lengths := congrArg List.length own
  rw [List.length_append] at lengths
  have fewer := List.length_filter_le (Message.isOf phase) outstanding.toList
  have most : outstanding.toList.length ≤ 1 := Option.length_toList_le
  rw [← waits phase] at fewer
  unfold share
  omega

/-- A list of the key is never filled by the other sources. -/
theorem room (paced : Paced sources accepted returned)
    (sound : PhasedSlot.Sound rounds accepted returned slot)
    (few : sources.card ≤ rounds.size) (member : source ∈ sources)
    (settled : share source accepted = share source returned) (phase : Phase) :
    (slot.waiting phase).length < rounds.size := by
  have inside : ∀ message ∈ slot.waiting phase, message.source ∈ sources :=
    fun message waits =>
      paced.alternates.inside message (sound.mem_of_waiting waits).1
  have bounds (other : Rank) := paced.share_waiting sound other phase
  simp only [share_eq_countP] at bounds settled
  have own := bounds source
  apply Nat.lt_of_lt_of_le _ few
  apply length_lt_card Message.source inside _ member (by omega)
  intro other
  have others := bounds other
  omega

/-- A message that is returned is the outstanding one of its source. -/
theorem yield (paced : Paced sources accepted returned)
    (sound : PhasedSlot.Sound rounds accepted (returned ++ [message]) slot) :
    Paced sources accepted (returned ++ [message]) where
  alternates := paced.alternates
  settled := by
    intro source
    obtain ⟨outstanding, own⟩ := paced.settled source
    by_cases same : message.source = source
    · have conserved := congrArg (List.filter (Message.isFrom source))
        (sound.conserved message.phase)
      have first : [message].filter (Message.isOf message.phase) = [message] := by
        simp [Message.isOf]
      have ours : [message].filter (Message.isFrom source) = [message] := by
        simp [Message.isFrom, same]
      rw [List.filter_comm _ _ accepted, own, List.filter_append, List.filter_append,
        List.filter_append, List.filter_append, List.filter_comm _ _ returned, first, ours,
        List.append_assoc] at conserved
      have held : message ∈ outstanding.toList := by
        have listed : message ∈ outstanding.toList.filter (Message.isOf message.phase) := by
          rw [List.append_cancel_left conserved]
          exact List.mem_append_left _ (List.mem_singleton_self message)
        exact List.mem_of_mem_filter listed
      refine ⟨none, ?_⟩
      rw [own, Option.mem_toList.mp held, List.filter_append, ours]
      simp
    · exact ⟨outstanding, by simp [own, Message.isFrom, same]⟩

/-- The request of a source that has not been returned is the one of its turn. -/
theorem phase_of_outstanding (paced : Paced sources accepted returned)
    (own : accepted.filter (Message.isFrom source) =
      returned.filter (Message.isFrom source) ++ [message]) :
    message.phase = Phase.ofTurn (share source returned) := by
  have turns := paced.alternates.turns source
  rw [own] at turns
  exact (follows_concat.mp turns).2

theorem phase_of_waiting (paced : Paced sources accepted returned)
    (sound : PhasedSlot.Sound rounds accepted returned slot) {phase : Phase}
    (waits : message ∈ slot.waiting phase) :
    phase = Phase.ofTurn (share message.source returned) := by
  obtain ⟨outstanding, own, held⟩ := paced.waiting sound message.source
  have listed : message ∈ outstanding.toList.filter (Message.isOf phase) := by
    rw [← held phase]
    exact List.mem_filter.mpr ⟨waits, by simp [Message.isFrom]⟩
  have only : outstanding = some message :=
    Option.mem_toList.mp (List.mem_of_mem_filter listed)
  rw [only] at own
  rw [← (sound.mem_of_waiting waits).2]
  exact paced.phase_of_outstanding own

/-- If all sources wait, then a class waits exactly when it is some source's turn to
make a request of it. -/
theorem waiting_ne_nil_iff (paced : Paced sources accepted returned)
    (sound : PhasedSlot.Sound rounds accepted returned slot)
    (all : ∀ source ∈ sources, ∃ phase, ∃ message ∈ slot.waiting phase,
      message.source = source)
    (phase : Phase) :
    slot.waiting phase ≠ [] ↔
      ∃ source ∈ sources, Phase.ofTurn (share source returned) = phase := by
  constructor
  · intro waits
    obtain ⟨message, listed⟩ := List.exists_mem_of_ne_nil _ waits
    have member := paced.alternates.inside message (sound.mem_of_waiting listed).1
    exact ⟨message.source, member, (paced.phase_of_waiting sound listed).symm⟩
  · rintro ⟨source, member, turn⟩
    obtain ⟨tested, message, listed, rfl⟩ := all source member
    have same : tested = phase := (paced.phase_of_waiting sound listed).trans turn
    rw [← same]
    exact List.ne_nil_of_mem listed

end Paced

end Queue

namespace RequestQueue

variable {key : String} {sources : Finset Rank} {rounds : Rounds}

/-! ## One call -/

section Call

variable {queue : RequestQueue} {accepted returned : List Message} {message : Message}

theorem Tracks.exists_slot (tracks : queue.Tracks accepted returned)
    (policy : queue.rounds? = some rounds) (key : String) :
    ∃ slots, queue = .async rounds slots ∧
      PhasedSlot.Sound rounds (accepted.filter (Message.isFor key))
        (returned.filter (Message.isFor key))
        (slots.slot (PhasedSlot.discipline rounds) key) := by
  obtain ⟨slots, rfl⟩ := eq_async policy
  exact ⟨slots, rfl, tracks.2.sound key⟩

/-- A source that has nothing outstanding is not refused. -/
theorem Tracks.exists_enqueue (tracks : queue.Tracks accepted returned)
    (policy : queue.rounds? = some rounds) (few : sources.card ≤ rounds.size)
    (paced : Paced sources (accepted.filter (Message.isFor key))
      (returned.filter (Message.isFor key)))
    (own : message.isFor key = true) (member : message.source ∈ sources)
    (settled : share message.source (accepted.filter (Message.isFor key)) =
      share message.source (returned.filter (Message.isFor key))) :
    ∃ rest, queue.enqueue message = .ok rest := by
  obtain ⟨slots, rfl, sound⟩ := tracks.exists_slot policy key
  exact (exists_enqueue_iff (Message.isFor_iff.mp own)).mpr
    (paced.room sound few member settled message.phase)

/-- Sources stay paced if the call does not ask for a message out of turn. -/
theorem History.paced_step {history : History} {call : Call} (tracked : history.Tracked)
    (policy : history.queue.rounds? = some rounds) (few : sources.card ≤ rounds.size)
    (paced : Paced sources (history.accepted.filter (Message.isFor key))
      (history.returned.filter (Message.isFor key)))
    (turn : ∀ message ∈ call.asked?, message.isFor key = true →
      message.source ∈ sources ∧
        share message.source (history.accepted.filter (Message.isFor key)) =
          share message.source (history.returned.filter (Message.isFor key)) ∧
        message.phase = Phase.ofTurn
          (share message.source (history.accepted.filter (Message.isFor key)))) :
    (history.step call).accepted.filter (Message.isFor key) =
        history.accepted.filter (Message.isFor key) ++
          call.asked?.toList.filter (Message.isFor key) ∧
      Paced sources ((history.step call).accepted.filter (Message.isFor key))
        ((history.step call).returned.filter (Message.isFor key)) := by
  have grown := history.filter_accepted_step call key fun message asks own =>
    have ⟨member, settled, _⟩ := turn message asks own
    Tracks.exists_enqueue tracked policy few paced own member settled
  have ⟨slots, _, sound⟩ := (tracked.step call).exists_slot
    ((history.rounds?_step call).trans policy) key
  rw [grown] at sound ⊢
  refine ⟨rfl, ?_⟩
  cases asks : call.asked? with
  | none =>
      have ⟨_, found, more⟩ := history.step_of_not_asked asks
      rw [asks] at sound
      rw [more, List.filter_append] at sound ⊢
      simp only [Option.toList_none, List.filter_nil, List.append_nil] at sound ⊢
      cases found with
      | none => simpa using paced
      | some message =>
          by_cases own : message.isFor key = true
          · simp only [Option.toList_some, List.filter_singleton, own] at sound ⊢
            exact paced.yield sound
          · simpa [own] using paced
  | some message =>
      rw [history.returned_step_of_asked asks]
      by_cases own : message.isFor key = true
      · have ⟨member, settled, due⟩ := turn message asks own
        simp only [Option.toList_some, List.filter_singleton, own]
        exact paced.ask member settled due
      · simpa [own] using paced

end Call

/-! ## Runs of calls -/

namespace History

/-- Only some sources use a key.  Each of them puts and gets by turns, and asks for
nothing more before all it has asked for has been returned. -/
def TakesTurns (key : String) (sources : Finset Rank) (queue : RequestQueue)
    (calls : List Call) : Prop :=
  Throughout
    (fun before call =>
      ∀ message ∈ call.asked?, message.isFor key = true →
        message.source ∈ sources ∧
          share message.source (asked key before) =
            share message.source ((run queue before).returned.filter (Message.isFor key)) ∧
          message.phase = Phase.ofTurn (share message.source (asked key before)))
    calls

instance (key : String) (sources : Finset Rank) (queue : RequestQueue)
    (calls : List Call) : Decidable (TakesTurns key sources queue calls) :=
  inferInstanceAs (Decidable (Throughout _ _))

/-- Sources that take turns have all that they ask for accepted, and stay paced. -/
theorem paced_run {queue : RequestQueue} {calls : List Call}
    (fresh : queue.Tracks [] []) (policy : queue.rounds? = some rounds)
    (few : sources.card ≤ rounds.size) (turns : TakesTurns key sources queue calls) :
    (run queue calls).accepted.filter (Message.isFor key) = asked key calls ∧
      Paced sources ((run queue calls).accepted.filter (Message.isFor key))
        ((run queue calls).returned.filter (Message.isFor key)) := by
  induction calls using List.reverseRecOn with
  | nil => exact ⟨rfl, Paced.fresh sources⟩
  | append_singleton calls call inductionHypothesis =>
      have ⟨earlier, last⟩ := throughout_concat.mp turns
      have ⟨same, paced⟩ := inductionHypothesis earlier
      rw [← same] at last
      have ⟨grown, kept⟩ := paced_step (tracked_run fresh calls)
        ((rounds?_run queue calls).trans policy) few paced last
      rw [run_concat, asked_concat, ← same]
      exact ⟨grown, kept⟩

/-! ## Rounds without the flip -/

/-- Without the flip of the first put, and for as many sources as there are memory
servers: nothing that the sources ask for is refused, and when a get of a source is
returned, each source has had as many puts returned as that source has had gets, this
one included. -/
theorem gets_observe_round (memoryServers : Nat) (key : String) (sources : Finset Rank)
    (calls : List Call) (positive : 0 < memoryServers)
    (full : sources.card = memoryServers)
    (turns : TakesTurns key sources (.asynchronous memoryServers false) calls) :
    (∀ before message after, calls = before ++ .enqueue message :: after →
      message.isFor key = true →
        ∃ rest, (run (.asynchronous memoryServers false) before).queue.enqueue message =
          .ok rest) ∧
    ∀ earlier get later,
      (run (.asynchronous memoryServers false) calls).returned.filter
          (Message.isFor key) = earlier ++ get :: later →
        get.phase = .get →
          ∀ source ∈ sources,
            share source (earlier.filter (Message.isOf .put)) =
              share get.source (earlier.filter (Message.isOf .get)) + 1 := by
  let rounds : Rounds := ⟨max memoryServers 1, false⟩
  have size : sources.card = rounds.size := full.trans (Nat.max_eq_left positive).symm
  have fresh := Tracks.asynchronous memoryServers false
  have policy : (RequestQueue.asynchronous memoryServers false).rounds? = some rounds :=
    rfl
  refine ⟨?_, ?_⟩
  · intro before message after split own
    have earlier : TakesTurns key sources (.asynchronous memoryServers false) before :=
      Throughout.of_append (split ▸ turns)
    have ⟨same, paced⟩ := paced_run fresh policy size.le earlier
    have ⟨member, settled, _⟩ := turns before _ after split message rfl own
    rw [← same] at settled
    exact Tracks.exists_enqueue (tracked_run fresh before) (rounds?_run _ before) size.le
      paced own member settled
  · intro earlier get later split turn source member
    have ⟨_, paced⟩ := paced_run fresh policy size.le turns
    have ⟨slots, _, sound⟩ := Tracks.exists_slot (tracked_run fresh calls)
      (rounds?_run _ calls) key
    have ⟨follows, place⟩ := Follows.of_split (split ▸ sound.classes)
    have alternates := paced.alternates_returned
    rw [split, List.append_cons] at alternates
    have ⟨before, own, due⟩ := alternates_concat.mp alternates.of_append
    have bounds := share_bounds size follows before rfl
    have theirs := bounds source member
    have ours := bounds get.source own
    -- The round of the get and its turn are odd, so that the two are the same.
    have odd : share get.source earlier % 2 = 1 :=
      Phase.ofTurn_eq_get.mp (due.symm.trans turn)
    have round : earlier.length / rounds.size % 2 = 1 := by
      rw [← Phase.ofTurn_eq_get, ← turn, place]
      simp [Rounds.word, Rounds.lead, Rounds.turn_eq_ofTurn, rounds]
    rw [(before.counts source).1, (before.counts get.source).2]
    omega

/-- The first of two sources asks for the value before the second one has put it, and
waits for that. -/
theorem gets_observe_round_two :
    let calls : List Call :=
      [.put "k" 0, .tryNext, .get "k" 0, .nextRequest, .put "k" 1, .tryNext, .tryNext, .get "k" 1]
    let returned := (run (.asynchronous 2 false) calls).returned
    (∃ rest, (run (.asynchronous 2 false) (calls.take 7)).queue.enqueue
        ⟨.getRequest, 1, Wire.encode (⟨"k"⟩ : GetRequest)⟩ = .ok rest) ∧
      returned.length = 3 ∧
      share 1 ((returned.take 2).filter (Message.isOf .put)) =
        share 0 ((returned.take 2).filter (Message.isOf .get)) + 1 := by
  intro calls returned
  have observed := gets_observe_round 2 "k" {0, 1} calls (by decide) (by decide)
    (by decide +kernel)
  refine ⟨observed.1 (calls.take 7) _ [] ?_ ?_, ?_,
    observed.2 (returned.take 2) ⟨.getRequest, 0, Wire.encode (⟨"k"⟩ : GetRequest)⟩ []
      ?_ rfl 1 ?_⟩
  all_goals decide +kernel

/-! ## Progress -/

/-- Sources that take turns, as many as there are memory servers.  If the first put flips
before rounds of more than one message, then no more than two messages of the key are ever
returned, a put and then a get of its source; after these it is the turn of gets, while all
that waits for the key are puts.  Otherwise the key can be served whenever all sources
wait, so that the queue finds something. -/
theorem servable_iff_of_all_waiting (memoryServers : Nat) (flips : Bool) (key : String)
    (sources : Finset Rank) (calls : List Call) (positive : 0 < memoryServers)
    (full : sources.card = memoryServers)
    (turns : TakesTurns key sources (.asynchronous memoryServers flips) calls) :
    let history := run (.asynchronous memoryServers flips) calls
    let returned := history.returned.filter (Message.isFor key)
    (flips = true → 2 ≤ memoryServers →
      returned.length ≤ 2 ∧
      ∀ first second, returned = [first, second] →
        (first.phase = .put ∧ second.phase = .get ∧ second.source = first.source) ∧
        history.queue.turn? key = some .get ∧
        ∀ message ∈ history.queue.buffered, message.isFor key = true →
          message.phase = .put) ∧
    ((∀ source ∈ sources, ∃ message ∈ history.queue.buffered,
        message.isFor key = true ∧ message.source = source) →
      (history.queue.Servable key ↔
        ¬ (flips = true ∧ 2 ≤ memoryServers ∧ returned.length = 2)) ∧
      (history.queue.tryNext.1 = none →
        flips = true ∧ 2 ≤ memoryServers ∧ returned.length = 2)) := by
  intro history returned
  let rounds : Rounds := ⟨max memoryServers 1, flips⟩
  have count : memoryServers = rounds.size := (Nat.max_eq_left positive).symm
  have fresh := Tracks.asynchronous memoryServers flips
  have policy : (RequestQueue.asynchronous memoryServers flips).rounds? = some rounds :=
    rfl
  have tracked : history.Tracked := tracked_run fresh calls
  obtain ⟨_, paced⟩ := paced_run fresh policy (full.trans count).le turns
  obtain ⟨slots, shape, sound⟩ := Tracks.exists_slot tracked
    ((rounds?_run _ calls).trans policy) key
  have alternates := paced.alternates_returned
  have waits : ∀ message ∈ history.queue.buffered, message.isFor key = true →
      message ∈ (slots.slot (PhasedSlot.discipline rounds) key).waiting message.phase := by
    intro message listed own
    rw [Tracked, shape] at tracked
    rw [← tracked.filter_buffered key, ← shape]
    simp [listed, own, Message.isOf]
  refine ⟨?_, ?_⟩
  · intro flip large
    obtain ⟨short, stuck⟩ := stalled_of_flips sound.classes alternates flip (count ▸ large)
    refine ⟨short, fun first second two => ?_⟩
    obtain ⟨pair, puts⟩ := stuck first second two
    refine ⟨pair, ?_, fun message listed own => ?_⟩
    · have place := sound.phase
      rw [show (history.returned.filter (Message.isFor key)).length = 2 from
        congrArg List.length two, Rounds.word_two_of_flips flip (count ▸ large)] at place
      rw [shape, turn?, place]
    · exact (paced.phase_of_waiting sound (waits message listed own)).trans
        (puts message.source)
  · intro waiting
    have all : ∀ source ∈ sources, ∃ phase, ∃ message ∈
        (slots.slot (PhasedSlot.discipline rounds) key).waiting phase,
          message.source = source := by
      intro source member
      obtain ⟨message, listed, own, from_source⟩ := waiting source member
      exact ⟨message.phase, message, waits message listed own, from_source⟩
    have servable : history.queue.Servable key ↔
        ¬ (flips = true ∧ 2 ≤ memoryServers ∧ returned.length = 2) := by
      rw [shape]
      simp only [Servable, sound.phase]
      rw [paced.waiting_ne_nil_iff sound all,
        exists_due_iff (count ▸ positive) (full.trans count) sound.classes alternates,
        count]
    refine ⟨servable, fun missed => ?_⟩
    by_contra moving
    exact tracked.not_servable missed key (servable.mpr moving)

/-- The first of two sources gets its put and its get returned before the put of the
second, and puts again. -/
def stalling : List Call :=
  [.put "k" 0, .put "k" 1, .tryNext, .get "k" 0, .tryNext, .put "k" 0]

theorem none_of_stalling :
    ({0, 1} : Finset Rank).card = 2 ∧
      TakesTurns "k" {0, 1} (.asynchronous 2 true) stalling ∧
      (∀ source ∈ ({0, 1} : Finset Rank),
        ∃ message ∈ (run (.asynchronous 2 true) stalling).queue.buffered,
          message.isFor "k" = true ∧ message.source = source) ∧
      (run (.asynchronous 2 true) stalling).queue.tryNext.1 = none := by
  decide +kernel

theorem not_servable_of_stalling :
    ¬ (run (.asynchronous 2 true) stalling).queue.Servable "k" := by
  have ⟨_, progress⟩ := servable_iff_of_all_waiting 2 true "k" {0, 1} stalling
    (by decide) (by decide) (by decide +kernel)
  have ⟨servable, _⟩ := progress (by decide +kernel)
  intro now
  exact servable.mp now (by decide +kernel)

end History

end RequestQueue

end ParameterServer
