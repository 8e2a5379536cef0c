import ParameterServer.Proofs.Engine.Accounts
import ParameterServer.Proofs.Engine.Barrier

/-!
# What a wait for replies takes

A member that waits for replies makes one attempt after another, with whatever happens in
between.  An attempt takes the oldest reply of the least member that has one, and nothing
else.  If there is none it looks at the engine afterwards, and a reply that has arrived by
then is left behind when the engine has stopped.
-/

namespace ParameterServer

variable {σ ω : Type}

/-! ## One attempt -/

theorem ResponseTable.min?_senders_of_pop {table rest : ResponseTable} {tag : Tag}
    {rank : Rank} {payload : Payload}
    (popped : table.pop .any tag = .ok (some (rank, payload), rest)) :
    (table.senders tag).min? = some rank := by
  have chosen := popChosen_of_pop popped
  unfold pop.popChosen at chosen
  split at chosen
  · split at chosen
    · cases chosen
    · rename_i least
      split at chosen
      · cases chosen
      · cases chosen
        exact least
  · cases chosen

namespace Engine

variable {engine after : Engine} {seat : Seat} {reply : Tag} {rank : Rank}
  {payload : Payload} {error : Error}

/-- An engine gives up the oldest payload of the least rank that has one under a tag, and
stays as it was otherwise. -/
structure Takes (reply : Tag) (rank : Rank) (payload : Payload) (engine after : Engine) :
    Prop where
  inside : rank < engine.seat.size
  least : ∀ lower < rank, engine.responses.waiting reply lower = []
  oldest : engine.responses.waiting reply rank =
    payload :: after.responses.waiting reply rank
  others : ∀ tag source, (tag, source) ≠ (reply, rank) →
    after.responses.waiting tag source = engine.responses.waiting tag source
  frame : after = { engine with responses := after.responses }

/-- What waits in a lane is what is taken from it and what waits there afterwards. -/
theorem Takes.lanes (takes : Takes reply rank payload engine after) (tag : Tag)
    (source : Rank) :
    engine.responses.waiting tag source =
      Observation.takenFrom tag source [.taken reply rank payload] ++
        after.responses.waiting tag source := by
  rw [Observation.takenFrom_taken]
  by_cases own : reply = tag ∧ rank = source
  · obtain ⟨rfl, rfl⟩ := own
    rw [if_pos ⟨rfl, rfl⟩, takes.oldest]
    rfl
  · rw [if_neg own, List.nil_append, takes.others]
    intro same
    cases same
    exact own ⟨rfl, rfl⟩

theorem Seated.takes (seated : engine.Seated seat)
    (done : engine.seek .any reply = (.done (rank, payload), after)) :
    Takes reply rank payload engine after := by
  obtain ⟨popped, frame⟩ := seek_done done
  obtain ⟨sender, lower⟩ :=
    List.min?_eq_some_iff.mp (ResponseTable.min?_senders_of_pop popped)
  have inside := (seated.responses.mem_senders.mp sender).1
  have lanes := ResponseTable.waiting_of_pop popped
  refine ⟨seated.place ▸ inside, ?_, ?_, ?_, frame⟩
  · intro other earlier
    by_contra occupied
    have member : other ∈ engine.responses.senders reply :=
      seated.responses.mem_senders.mpr ⟨Nat.lt_trans earlier inside, occupied⟩
    exact absurd (lower other member) (Nat.not_le.mpr earlier)
  · rw [lanes, if_pos ⟨rfl, rfl⟩, List.singleton_append]
  · intro tag source apart
    rw [lanes, if_neg, List.nil_append]
    rintro ⟨rfl, rfl⟩
    exact apart rfl

/-- A look of an active engine under a known tag never fails. -/
theorem Seated.ne_failed_of_seek (seated : engine.Seated seat) (known : reply.isKnown = true) :
    (engine.seek .any reply).1 ≠ .failed error := by
  obtain ⟨rest, popped⟩ :=
    seated.responses.pop_eq known (Source.isWithin_any seat.size)
  rw [seek_of_active seated.active, popped]
  cases engine.responses.first? .any reply <;> simp

/-- A look finds nothing only when no member has a reply. -/
theorem Seated.of_seek_waiting (seated : engine.Seated seat)
    (waits : (engine.seek .any reply).1 = .waiting) :
    ∀ rank < seat.size, engine.responses.waiting reply rank = [] := by
  have nothing :=
    ResponseTable.first?_eq_none.mp (first?_of_seek_waiting seated.responses waits)
  rw [seated.responses.size] at nothing
  exact fun rank inside => nothing rank (List.mem_range.mpr inside)

end Engine

namespace Host

variable {transport : Transport σ} {bindings : Bindings ω} {host after last : Host ω}
  {noted seen : List Observation} {seat : Seat} {reply : Tag}

/-! ## What becomes of the lanes -/

theorem lanes_follow (transport : Transport σ) (bindings : Bindings ω) (host : Host ω)
    (steps : List (Activity × σ)) (tag : Tag) (source : Rank) :
    let followed := host.follow transport bindings steps
    host.engine.responses.waiting tag source ++ arrived tag source followed.1 =
      Observation.takenFrom tag source followed.1 ++
        followed.2.engine.responses.waiting tag source := by
  refine follow_invariant bindings host
    (motive := fun seen (reached : Host ω) =>
      host.engine.responses.waiting tag source ++ arrived tag source seen =
        Observation.takenFrom tag source seen ++ reached.engine.responses.waiting tag source)
    ?_ (fun _ holds => holds) transport ?_ steps
  · intro current after seen noted move holds
    rw [arrived_append, Observation.takenFrom_append, ← List.append_assoc, holds,
      List.append_assoc, move.lanes tag source, List.append_assoc]
  · rw [arrived_of_silent tag rfl]
    exact List.append_nil _

/-! ## What others take -/

/-- A step that is no read. -/
def Unread (step : Activity × σ) : Prop :=
  ∀ source tag, step.1 ≠ .read source tag

theorem takenFrom_routeNotes (bindings : Bindings ω) (message : Message) (host : Host ω)
    (tag : Tag) (source : Rank) :
    Observation.takenFrom tag source (routeNotes bindings message host) = [] := by
  have received : Observation.takenFrom tag source [.received message] = [] := rfl
  have announced (callback : Callback ω) (host : Host ω) :
      Observation.takenFrom tag source (host.announceNotes callback message) = [] :=
    Observation.takenFrom_accepted tag source _
  unfold routeNotes
  split
  · split
    · exact received
    · split
      · rw [Observation.takenFrom_append, announced, received]
        rfl
      · split
        · exact received
        · exact announced _ _
  · exact received

theorem takenFrom_act (host : Host ω) {step : Activity × σ} (unread : Unread step) (tag : Tag)
    (source : Rank) :
    Observation.takenFrom tag source (host.act transport bindings step.1 step.2).1 = [] := by
  obtain ⟨activity, network⟩ := step
  cases activity with
  | network =>
      simp only [act, networkNotes]
      split
      · split
        · rfl
        · exact takenFrom_routeNotes bindings _ _ tag source
      · rfl
  | process =>
      simp only [act, processNotes]
      split
      · rfl
      · rfl
  | send | broadcast => exact Observation.takenFrom_accepted tag source _
  | read selector own => exact absurd rfl (unread selector own)
  | stop | shutdown => rfl

theorem takenFrom_follow (host : Host ω) {steps : List (Activity × σ)}
    (unread : ∀ step ∈ steps, Unread step) (tag : Tag) (source : Rank) :
    Observation.takenFrom tag source (host.follow transport bindings steps).1 = [] := by
  induction steps generalizing host with
  | nil => rfl
  | cons step later inductionHypothesis =>
      rw [follow_cons]
      simp only [Observation.takenFrom_append]
      rw [takenFrom_act host (unread step List.mem_cons_self), List.nil_append]
      exact inductionHypothesis _ fun other member =>
        unread other (List.mem_cons_of_mem step member)

/-! ## The course of a wait -/

/-- The course of a wait for replies: steps of the member, with all that is noted of them, and
in between what the wait takes, one reply after another. -/
inductive Waits (transport : Transport σ) (bindings : Bindings ω) (reply : Tag) :
    Host ω → List (Activity × σ) → List Observation → List (Rank × Payload) → Host ω → Prop
  | refl (host : Host ω) : Waits transport bindings reply host [] [] [] host
  | steps {host last : Host ω} {more : List (Activity × σ)} {seen : List Observation}
      {reads : List (Rank × Payload)} (taken : List (Activity × σ)) :
      Waits transport bindings reply (host.follow transport bindings taken).2 more seen reads
        last →
      Waits transport bindings reply host (taken ++ more)
        ((host.follow transport bindings taken).1 ++ seen) reads last
  | take {host last : Host ω} {more : List (Activity × σ)} {seen : List Observation}
      {reads : List (Rank × Payload)} {engine : Engine} {rank : Rank} {payload : Payload} :
      Engine.Takes reply rank payload host.engine engine →
      Waits transport bindings reply { host with engine } more seen reads last →
      Waits transport bindings reply host more (.taken reply rank payload :: seen)
        ((rank, payload) :: reads) last

/-- What waits in a lane and what arrives there in the course of a wait is what is taken from
it, be it by the wait or by others, and what waits there in the end. -/
theorem Waits.lanes {done : List (Activity × σ)} {reads : List (Rank × Payload)}
    (waits : Waits transport bindings reply host done seen reads last) (tag : Tag)
    (source : Rank) :
    host.engine.responses.waiting tag source ++ arrived tag source seen =
      Observation.takenFrom tag source seen ++ last.engine.responses.waiting tag source := by
  induction waits with
  | refl host =>
      rw [arrived_of_silent tag rfl]
      exact List.append_nil _
  | steps taken rest inductionHypothesis =>
      rw [arrived_append, Observation.takenFrom_append, ← List.append_assoc,
        lanes_follow, List.append_assoc, inductionHypothesis, List.append_assoc]
  | @take host last more seen reads engine rank payload takes rest inductionHypothesis =>
      rw [← List.singleton_append, arrived_append, Observation.takenFrom_append,
        arrived_of_silent tag rfl, List.nil_append, takes.lanes, List.append_assoc,
        inductionHypothesis, List.append_assoc]

/-- What a wait has read from a member, in order. -/
def readFrom (source : Rank) (reads : List (Rank × Payload)) : List Payload :=
  (reads.filter fun read => read.1 = source).map Prod.snd

/-- If nobody else reads, what is taken is what the wait has read. -/
theorem Waits.takenFrom_eq {done : List (Activity × σ)} {reads : List (Rank × Payload)}
    (waits : Waits transport bindings reply host done seen reads last)
    (unread : ∀ step ∈ done, Unread step) (tag : Tag) (source : Rank) :
    Observation.takenFrom tag source seen =
      if tag = reply then readFrom source reads else [] := by
  induction waits with
  | refl host => exact (ite_self []).symm
  | @steps host last more seen reads taken rest inductionHypothesis =>
      rw [Observation.takenFrom_append, takenFrom_follow host, List.nil_append]
      · exact inductionHypothesis fun step member => unread step (List.mem_append_right _ member)
      · exact fun step member => unread step (List.mem_append_left _ member)
  | @take host last more seen reads engine rank payload takes rest inductionHypothesis =>
      rw [← List.singleton_append, Observation.takenFrom_append, inductionHypothesis unread,
        Observation.takenFrom_taken]
      obtain rfl | apart := eq_or_ne tag reply
      · by_cases own : rank = source <;> simp [readFrom, own]
      · simp [apart, apart.symm]

/-- How a wait of `host` is given up, as `last`: the look of its last attempt, at `sought`, found
no reply of any member, and after the steps between its looks the engine was stopped. -/
structure GivesUp (transport : Transport σ) (bindings : Bindings ω) (size : Nat) (reply : Tag)
    (pause : Pause σ) (host : Host ω) (done : List (Activity × σ))
    (reads : List (Rank × Payload)) (sought last : Host ω) : Prop where
  course : ∃ earlier seen, done = earlier ++ pause.between ∧
    Waits transport bindings reply host earlier seen reads sought
  nothing : ∀ rank < size, sought.engine.responses.waiting reply rank = []
  looked : last = (sought.follow transport bindings pause.between).2
  stopped : last.engine.running = false

namespace GivesUp

variable {size : Nat} {pause : Pause σ} {done : List (Activity × σ)}
  {reads : List (Rank × Payload)} {sought : Host ω}

theorem steps (taken : List (Activity × σ))
    (gives : GivesUp transport bindings size reply pause
      (host.follow transport bindings taken).2 done reads sought last) :
    GivesUp transport bindings size reply pause host (taken ++ done) reads sought last where
  course := by
    obtain ⟨earlier, seen, rfl, waits⟩ := gives.course
    exact ⟨taken ++ earlier, _, (List.append_assoc ..).symm, .steps taken waits⟩
  nothing := gives.nothing
  looked := gives.looked
  stopped := gives.stopped

theorem take {engine : Engine} {rank : Rank} {payload : Payload}
    (takes : Engine.Takes reply rank payload host.engine engine)
    (gives : GivesUp transport bindings size reply pause { host with engine } done reads
      sought last) :
    GivesUp transport bindings size reply pause host done ((rank, payload) :: reads)
      sought last where
  course := by
    obtain ⟨earlier, seen, rfl, waits⟩ := gives.course
    exact ⟨earlier, _, rfl, .take takes waits⟩
  nothing := gives.nothing
  looked := gives.looked
  stopped := gives.stopped

/-- What is left behind has arrived between the two looks of the last attempt. -/
theorem left (gives : GivesUp transport bindings size reply pause host done reads sought last)
    {rank : Rank} (inside : rank < size) :
    let between := (sought.follow transport bindings pause.between).1
    arrived reply rank between =
      Observation.takenFrom reply rank between ++
        last.engine.responses.waiting reply rank := by
  intro between
  have lanes := lanes_follow transport bindings sought pause.between reply rank
  dsimp only at lanes
  rw [gives.nothing rank inside, List.nil_append, ← gives.looked] at lanes
  exact lanes

end GivesUp

/-- What the outcome of a wait says. -/
structure Concluded (transport : Transport σ) (bindings : Bindings ω) (size : Nat) (reply : Tag)
    (count : Nat) (meanwhile : List (Pause σ)) (host : Host ω) (done : List (Activity × σ))
    (outcome : Attempt Unit) (reads : List (Rank × Payload)) (last : Host ω) : Prop where
  within : done.Sublist (meanwhile.flatMap Pause.steps)
  waits : ∃ seen, Waits transport bindings reply host done seen reads last
  counted : outcome = .done () → reads.length = count
  underway : outcome = .waiting → reads.length < count
  failed : ∀ error, outcome = .failed error →
    error = .stopped ∧ reads.length < count ∧
      ∃ sought, ∃ pause ∈ meanwhile,
        GivesUp transport bindings size reply pause host done reads sought last

namespace Concluded

variable {size count : Nat} {meanwhile : List (Pause σ)} {done : List (Activity × σ)}
  {outcome : Attempt Unit} {reads : List (Rank × Payload)}

theorem finished (size : Nat) (meanwhile : List (Pause σ)) (host : Host ω) :
    Concluded transport bindings size reply 0 meanwhile host [] (.done ()) [] host where
  within := List.nil_sublist _
  waits := ⟨[], .refl host⟩
  counted _ := rfl
  underway waiting := by cases waiting
  failed error ended := by cases ended

theorem waiting (size count : Nat) (host : Host ω) :
    Concluded transport bindings size reply (count + 1) [] host [] .waiting [] host where
  within := List.nil_sublist _
  waits := ⟨[], .refl host⟩
  counted ended := by cases ended
  underway _ := Nat.succ_pos count
  failed error ended := by cases ended

/-- The attempt takes a reply, and the wait goes on for one fewer. -/
theorem take {pause : Pause σ} {engine : Engine} {rank : Rank} {payload : Payload}
    (takes : Engine.Takes reply rank payload
      (host.follow transport bindings pause.before).2.engine engine)
    (concluded : Concluded transport bindings size reply count meanwhile
      { (host.follow transport bindings pause.before).2 with engine } done outcome reads last) :
    Concluded transport bindings size reply (count + 1) (pause :: meanwhile) host
      (pause.before ++ done) outcome ((rank, payload) :: reads) last where
  within := by
    rw [List.flatMap_cons, Pause.steps, List.append_assoc]
    exact (concluded.within.trans (List.sublist_append_right _ _)).append_left _
  waits := by
    obtain ⟨seen, waits⟩ := concluded.waits
    exact ⟨_, .steps pause.before (.take takes waits)⟩
  counted ended := congrArg Nat.succ (concluded.counted ended)
  underway waiting := Nat.succ_lt_succ (concluded.underway waiting)
  failed error ended := by
    obtain ⟨stopped, fewer, sought, final, listed, gives⟩ := concluded.failed error ended
    exact ⟨stopped, Nat.succ_lt_succ fewer, sought, final, List.mem_cons_of_mem pause listed,
      (gives.take takes).steps pause.before⟩

/-- The attempt finds nothing, and the wait goes on. -/
theorem miss {pause : Pause σ}
    (concluded : Concluded transport bindings size reply count meanwhile
      (Host.follow transport bindings (host.follow transport bindings pause.before).2
        pause.between).2 done outcome reads last) :
    Concluded transport bindings size reply count (pause :: meanwhile) host
      (pause.before ++ (pause.between ++ done)) outcome reads last where
  within := by
    rw [List.flatMap_cons, Pause.steps, List.append_assoc]
    exact (concluded.within.append_left _).append_left _
  waits := by
    obtain ⟨seen, waits⟩ := concluded.waits
    exact ⟨_, .steps pause.before (.steps pause.between waits)⟩
  counted := concluded.counted
  underway := concluded.underway
  failed error ended := by
    obtain ⟨stopped, fewer, sought, final, listed, gives⟩ := concluded.failed error ended
    exact ⟨stopped, fewer, sought, final, List.mem_cons_of_mem pause listed,
      (gives.steps pause.between).steps pause.before⟩

/-- The attempt finds nothing, and afterwards the engine is stopped. -/
theorem giveUp {pause : Pause σ} {sought : Host ω} (count : Nat) (meanwhile : List (Pause σ))
    (reached : sought = (host.follow transport bindings pause.before).2)
    (nothing : ∀ rank < size, sought.engine.responses.waiting reply rank = [])
    (stopped : (sought.follow transport bindings pause.between).2.engine.running = false) :
    Concluded transport bindings size reply (count + 1) (pause :: meanwhile) host
      (pause.before ++ (pause.between ++ [])) (.failed .stopped) []
      (sought.follow transport bindings pause.between).2 where
  within := by
    rw [List.flatMap_cons, Pause.steps, List.append_nil]
    exact List.sublist_append_left _ _
  waits := by
    subst reached
    exact ⟨_, .steps pause.before (.steps pause.between (.refl _))⟩
  counted ended := by cases ended
  underway waiting := by cases waiting
  failed error ended := by
    cases ended
    subst reached
    refine ⟨rfl, Nat.succ_pos count, _, pause, List.mem_cons_self, ?_, nothing, rfl, stopped⟩
    refine ⟨pause.before ++ [], _, ?_, .steps pause.before (.refl _)⟩
    rw [List.append_nil, List.append_nil]

end Concluded

theorem awaitReplies_course (transport : Transport σ) (bindings : Bindings ω)
    (known : reply.isKnown = true) (count : Nat) (meanwhile : List (Pause σ))
    (host : Host ω) (seated : host.engine.Seated seat) :
    let awaited := host.awaitReplies transport bindings reply count meanwhile
    ∃ done, Concluded transport bindings seat.size reply count meanwhile host done
      awaited.1 awaited.2.1 awaited.2.2 := by
  induction meanwhile generalizing count host with
  | nil =>
      cases count with
      | zero => exact ⟨[], .finished _ _ host⟩
      | succ count => exact ⟨[], .waiting _ count host⟩
  | cons pause later inductionHypothesis =>
      cases count with
      | zero => exact ⟨[], .finished _ _ host⟩
      | succ count =>
          have waited := seated_follow seated transport bindings pause.before
          have stays := waited.seek .any reply
          simp only [awaitReplies]
          rcases sought : (host.follow transport bindings pause.before).2.engine.seek
            .any reply with ⟨⟨rank, payload⟩ | error | _, engine⟩
          · rw [sought] at stays
            obtain ⟨done, concluded⟩ := inductionHypothesis count
              { (host.follow transport bindings pause.before).2 with engine } stays
            exact ⟨_, .take (waited.takes sought) concluded⟩
          · exact absurd (congrArg Prod.fst sought) (waited.ne_failed_of_seek known)
          · obtain rfl := Engine.seek_waiting sought
            have looked := seated_follow waited transport bindings pause.between
            have nothing := waited.of_seek_waiting (congrArg Prod.fst sought)
            simp only [Engine.persist]
            cases running : (Host.follow transport bindings
              (host.follow transport bindings pause.before).2 pause.between).2.engine.running with
            | true =>
                obtain ⟨done, concluded⟩ := inductionHypothesis (count + 1) _ looked
                exact ⟨_, .miss concluded⟩
            | false => exact ⟨_, .giveUp count later rfl nothing running⟩

/-- A wait of an active member for replies under a known tag, whatever has been buffered and
whatever happens meanwhile.  Between the other steps of the member it takes one reply after
another, each of them the oldest of the least member of the group that has one then, and it
changes nothing else.  Of each lane there is left what has waited and arrived without what was
taken, and only the wait takes anything if nobody else reads.  The wait is over after exactly
`count` replies.  It fails only when the engine has stopped and after fewer replies.  Its last
look has found no reply of any member then, and what is left behind is just what has arrived
after that look, and nobody else has taken, before the engine was found stopped. -/
theorem wait_takes_oldest (transport : Transport σ) (bindings : Bindings ω) (reply : Tag)
    (count : Nat) (meanwhile : List (Pause σ)) (host : Host ω) (seat : Seat)
    (seated : host.engine.Seated seat) (known : reply.isKnown = true) :
    let (outcome, reads, last) := host.awaitReplies transport bindings reply count meanwhile
    ∃ done seen, done.Sublist (meanwhile.flatMap Pause.steps) ∧
      Waits transport bindings reply host done seen reads last ∧
      (∀ tag source,
        host.engine.responses.waiting tag source ++ arrived tag source seen =
          Observation.takenFrom tag source seen ++
            last.engine.responses.waiting tag source) ∧
      ((∀ step ∈ done, Unread step) → ∀ tag source,
        Observation.takenFrom tag source seen =
          if tag = reply then readFrom source reads else []) ∧
      (outcome = .done () → reads.length = count) ∧
      (outcome = .waiting → reads.length < count) ∧
      (∀ error, outcome = .failed error →
        error = .stopped ∧ reads.length < count ∧
        ∃ sought, ∃ pause ∈ meanwhile,
          GivesUp transport bindings seat.size reply pause host done reads sought last ∧
          ∀ rank < seat.size,
            let between := (sought.follow transport bindings pause.between).1
            arrived reply rank between =
              Observation.takenFrom reply rank between ++
                last.engine.responses.waiting reply rank) := by
  obtain ⟨done, concluded⟩ :=
    awaitReplies_course transport bindings known count meanwhile host seated
  obtain ⟨seen, waits⟩ := concluded.waits
  refine ⟨done, seen, concluded.within, waits, waits.lanes, waits.takenFrom_eq,
    concluded.counted, concluded.underway, fun error ended => ?_⟩
  obtain ⟨stopped, fewer, sought, pause, listed, gives⟩ := concluded.failed error ended
  exact ⟨stopped, fewer, sought, pause, listed, gives, fun _ => gives.left⟩

/-- Two of three members reply to the third, the second of them first. -/
theorem wait_takes_oldest_two :
    let replied := fun rank => ((Mesh.ofSize 3).send rank 2 .empty []).2
    let host : Host Unit := ⟨.atSeat {} ⟨2, 3⟩ true, ()⟩
    let awaited := host.awaitReplies (Mesh.transport 2) {} .empty 2
      [⟨[(.network, replied 1)], []⟩, ⟨[(.network, replied 0)], []⟩]
    (∃ done seen, Waits (Mesh.transport 2) {} .empty host done seen awaited.2.1 awaited.2.2) ∧
      awaited.2.1.length = 2 := by
  intro replied host awaited
  obtain ⟨done, seen, _, waits, _, _, counted, _⟩ :=
    wait_takes_oldest (Mesh.transport 2) {} .empty 2
      [⟨[(.network, replied 1)], []⟩, ⟨[(.network, replied 0)], []⟩] host ⟨2, 3⟩
      (Engine.Seated.atSeat {} ⟨2, 3⟩) (by decide)
  exact ⟨⟨done, seen, waits⟩, counted (by decide +kernel)⟩

/-- A reply of member 0 arrives, and the engine is stopped, after the look for a reply and
before the look at the engine.  The wait ends without the reply, which stays behind. -/
theorem wait_leaves_reply :
    let replied := ((Mesh.ofSize 2).send 0 1 .empty []).2
    let host : Host Unit := ⟨.atSeat {} ⟨1, 2⟩ true, ()⟩
    let (outcome, reads, last) := host.awaitReplies (Mesh.transport 1) {} .empty 1
      [⟨[], [(.network, replied), (.stop, replied)]⟩]
    outcome = .failed .stopped ∧ reads = [] ∧
      last.engine.responses.waiting .empty 0 = [[]] := by
  decide +kernel

end Host

end ParameterServer
