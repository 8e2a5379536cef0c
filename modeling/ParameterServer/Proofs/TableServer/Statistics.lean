import ParameterServer.Proofs.Cluster.Replies
import ParameterServer.Proofs.TableServer.BuiltIn
import ParameterServer.Transport.Mesh

/-!
# What a table server counts

The statistics of a table server are a summary of what it has been asked, of what it has asked
its handler and of what it has replied.  A step lemma says what one request adds to each count,
and the counts of a member that has served any requests follow from it.
-/

namespace ParameterServer

open Observation

variable {η ω σ : Type}

/-! ## What is counted -/

namespace Consultation

/-- A first put that the handler has accepted. -/
def entersKey (consultation : Consultation) : Bool :=
  match consultation.question with
  | .put .. => consultation.accepted
  | .get .. | .update .. | .checkpoint .. => false

/-- A get that the handler has declined. -/
def refusesGet (consultation : Consultation) : Bool :=
  match consultation.question with
  | .get .. => !consultation.accepted
  | .put .. | .update .. | .checkpoint .. => false

/-- A checkpoint that the handler has found due. -/
def findsDue (consultation : Consultation) : Bool :=
  consultation.question.isCheckpoint && consultation.accepted

theorem isSome_entered? (consultation : Consultation) :
    consultation.entered?.isSome = consultation.entersKey := by
  obtain ⟨question, accepted, value⟩ := consultation
  cases question with
  | put => cases accepted <;> rfl
  | get | update | checkpoint => rfl

theorem length_filterMap_entered? (asked : List Consultation) :
    (asked.filterMap entered?).length = asked.countP entersKey := by
  induction asked with
  | nil => rfl
  | cons first rest inductionHypothesis =>
      rw [List.countP_cons, ← isSome_entered?, ← inductionHypothesis]
      cases entered : first.entered? <;> simp [entered]

end Consultation

/-- A reply to a put or an update that says that it was declined. -/
def Reply.declines : Reply → Bool
  | put response => !response.accepted
  | get _ => false

open Consultation (entersKey refusesGet findsDue)

/-- What a transport announces comes from a member of the group: a source is the rank of a
process within it. -/
def Transport.FromMembers (size : Nat) (transport : Transport σ) (network : σ) : Prop :=
  ∀ header, (transport.probe network).1 = .ok (some header) → header.source < size

theorem Transport.FromMembers.source_lt {size : Nat} {transport : Transport σ} {network : σ}
    (members : transport.FromMembers size network) {message : Message}
    (received : (transport.next network).1 = some message) : message.source < size := by
  unfold Transport.next at received
  split at received
  · rename_i header probed announced
    split at received
    · cases received
      exact members header (congrArg Prod.fst announced)
    · cases received
  · cases received
  · cases received

namespace TableServer

/-! ## One request -/

/-- The statistics with what was asked and replied for a request.  The number of keys is looked
up only after a first put that was accepted. -/
def noting (asked : List Consultation) (reply : Reply) (size : Nat) (stats : TableStats) :
    TableStats :=
  { stats with
    rejected := stats.rejected + reply.declines.toNat + asked.countP refusesGet
    checkpointsDue := stats.checkpointsDue + asked.countP findsDue
    keys := if asked.any entersKey then size else stats.keys }

/-- What a request adds to the counts of a server. -/
theorem Course.stats {server after : TableServer Unit} {request : Request}
    {asked : List Consultation} {reply : Reply}
    (course : Course server request asked reply after) :
    after.stats = noting asked reply after.table.length (server.counting request).stats := by
  cases course with
  | @first _ _ due | @merged _ _ _ due =>
      cases due <;>
        simp [noting, entering, replacing, marking, Reply.declines, entersKey, refusesGet, findsDue,
          Question.isCheckpoint]
  | refused | declined | unknown | shown | withheld | missing =>
      simp [noting, replacing, reject, Reply.declines, entersKey, refusesGet, findsDue,
        Question.isCheckpoint]

/-! ## All requests -/

theorem countP_concat {α : Type} (counts : α → Bool) (items : List α) (last : α) :
    (items ++ [last]).countP counts = items.countP counts + (counts last).toNat := by
  rw [List.countP_append, List.countP_singleton]
  cases counts last <;> rfl

theorem map_fst_transcript (handler : ValueHandler η) (requests : List Request)
    (server : TableServer η) : (transcript handler requests server).map Prod.fst = requests := by
  induction requests generalizing server with
  | nil => rfl
  | cons request rest inductionHypothesis =>
      exact congrArg (List.cons request)
        (inductionHypothesis (server.answer handler request).2)

theorem transcript_append (handler : ValueHandler η) (earlier later : List Request)
    (server : TableServer η) :
    transcript handler (earlier ++ later) server =
      transcript handler earlier server ++
        transcript handler later (serve handler earlier server) := by
  induction earlier generalizing server with
  | nil => rfl
  | cons request rest inductionHypothesis =>
      exact congrArg (List.cons _) (inductionHypothesis (server.answer handler request).2)

/-- The statistics of a server that has started without keys, after some requests. -/
structure Summarises (requests : List Request) (asked : List Consultation)
    (answered : List (Request × Reply)) (server : TableServer Unit) : Prop where
  puts : server.stats.puts = requests.countP Request.isPut
  gets : server.stats.gets = requests.countP Request.isGet
  updates : server.stats.updates = requests.countP Request.isUpdate
  rejected : server.stats.rejected =
    (answered.countP fun given => given.2.declines) + asked.countP refusesGet
  checkpointsDue : server.stats.checkpointsDue = asked.countP findsDue
  stored : server.stats.keys = server.table.length
  entered : server.stats.keys = asked.countP entersKey

/-- One request keeps the statistics a summary. -/
theorem Summarises.course {requests : List Request} {asked inquired : List Consultation}
    {answered : List (Request × Reply)} {server after : TableServer Unit} {request : Request}
    {reply : Reply} (summarises : Summarises requests asked answered server)
    (course : Course server request inquired reply after) :
    Summarises (requests ++ [request]) (asked ++ inquired) (answered ++ [(request, reply)])
      after := by
  have counted := course.stats
  have grown : after.table.length = server.table.length + inquired.countP entersKey := by
    have keys := congrArg List.length course.keys
    rwa [List.length_map, List.length_append, List.length_map,
      Consultation.length_filterMap_entered?] at keys
  have keys : after.stats.keys = after.table.length := by
    rw [counted, noting]
    cases enters : inquired.any entersKey with
    | true => rfl
    | false =>
        have none : inquired.countP entersKey = 0 := by
          simpa [List.countP_eq_zero] using enters
        rw [grown, none]
        exact summarises.stored
  constructor
  case stored => exact keys
  case entered => rw [keys, grown, ← summarises.stored, summarises.entered, List.countP_append]
  case rejected =>
    rw [countP_concat, List.countP_append, counted]
    simp only [noting, counting, summarises.rejected]
    omega
  case checkpointsDue =>
    rw [List.countP_append, counted, noting, counting, summarises.checkpointsDue]
  case puts => rw [countP_concat, counted, noting, counting, summarises.puts]
  case gets => rw [countP_concat, counted, noting, counting, summarises.gets]
  case updates => rw [countP_concat, counted, noting, counting, summarises.updates]

theorem summarises_serve (handler : ValueHandler η) (fresh : η) (requests : List Request) :
    let start : TableServer η := { handler := fresh }
    Summarises requests (log handler requests start) (transcript handler requests start)
      (serve handler requests start).bare := by
  intro start
  induction requests using List.reverseRecOn with
  | nil => exact ⟨rfl, rfl, rfl, rfl, rfl, rfl, rfl⟩
  | append_singleton earlier request inductionHypothesis =>
      rw [log_concat, transcript_concat, serve_concat]
      exact inductionHypothesis.course (course_answer handler request _)

/-! ## Queued replies -/

theorem encode_putResponse_inj {key : String} {accepted other : Bool} :
    Wire.encode (⟨key, accepted⟩ : PutResponse) = Wire.encode (⟨key, other⟩ : PutResponse) ↔
      accepted = other := by
  refine ⟨fun same => ?_, fun same => same ▸ rfl⟩
  have last := List.append_cancel_left same
  cases accepted <;> cases other <;> first | rfl | cases last

/-- The message that declines a put or an update. -/
def refusal (request : Request) : Outgoing :=
  ⟨request.source, .putResponse, Wire.encode (⟨request.key, false⟩ : PutResponse)⟩

section Queued

variable {server after : TableServer Unit} {request : Request} {asked : List Consultation}
  {reply : Reply}

/-- A reply is queued as a refusal if it declines and its reader belongs to the group. -/
theorem count_refusal (course : Course server request asked reply after) (seat : Seat) :
    (sendsOf seat request reply).count (refusal request) +
        (reply.declines && decide (seat.size ≤ request.source)).toNat =
      reply.declines.toNat := by
  by_cases inside : request.source < seat.size
  · simp only [sendsOf, inside, ↓reduceIte, List.count_singleton, Nat.not_le.mpr inside]
    cases course <;>
      simp [refusal, Reply.declines, Reply.tag, Reply.payload, encode_putResponse_inj]
  · simp [sendsOf, inside, Nat.not_lt.mp inside]

end Queued

/-- The refusals that are queued for the requests of a transcript are those of its refusals
that go to members of the group. -/
theorem sum_count_refusal (handler : ValueHandler η) (seat : Seat) (requests : List Request)
    (server : TableServer η) :
    let answered := transcript handler requests server
    (answered.map fun given => (sendsOf seat given.1 given.2).count (refusal given.1)).sum +
        (answered.countP fun given => given.2.declines && decide (seat.size ≤ given.1.source)) =
      answered.countP fun given => given.2.declines := by
  induction requests generalizing server with
  | nil => rfl
  | cons request rest inductionHypothesis =>
      have own := count_refusal (course_answer handler request server) seat
      have later := inductionHypothesis (server.answer handler request).2
      simp only [transcript, List.map_cons, List.sum_cons, List.countP_cons] at later ⊢
      have number (test : Bool) : test.toNat = if test then 1 else 0 := by cases test <;> rfl
      simp only [number] at own
      grind

/-! ## A member with a table server -/

/-- The server of a member has served what the member has served, and its replies are
queued. -/
structure Recounts (handler : ValueHandler η) (part : ω → TableServer η) (seat : Seat)
    (start : TableServer η) (seen : List Observation) (host : Host ω) : Prop where
  replies : Replies seat seen host.engine
  server : part host.memory = serve handler ((servings seen).map Prod.fst) start
  served : servings seen =
    (transcript handler ((servings seen).map Prod.fst) start).map
      fun given => (given.1, sendsOf seat given.1 given.2)

namespace Recounts

variable {handler : ValueHandler η} {part : ω → TableServer η}
  {replace : TableServer η → ω → ω} {bindings : Bindings ω} {seat : Seat}
  {start : TableServer η} {seen noted : List Observation} {host after : Host ω}

theorem congr (recounts : Recounts handler part seat start seen host)
    (replies : Replies seat (seen ++ noted) after.engine)
    (memory : part after.memory = part host.memory) (quiet : servings noted = []) :
    Recounts handler part seat start (seen ++ noted) after := by
  have same : servings (seen ++ noted) = servings seen := by simp [quiet]
  refine ⟨replies, ?_, ?_⟩
  · rw [same, memory]
    exact recounts.server
  · rw [same]
    exact recounts.served

theorem serve (resident : Resident handler part replace bindings)
    (recounts : Recounts handler part seat start seen host) {request : Request}
    (replies : Replies seat
      (seen ++ [.served request
        (sendsOf seat request ((part host.memory).answer handler request).1)]) after.engine)
    (memory : after.memory =
      replace ((part host.memory).answer handler request).2 host.memory) :
    Recounts handler part seat start
      (seen ++ [.served request
        (sendsOf seat request ((part host.memory).answer handler request).1)]) after := by
  refine ⟨replies, ?_, ?_⟩
  · rw [memory, resident.focused, recounts.server]
    simp [serve_concat]
  · simp only [servings_append, servings_served, List.map_append, List.map_cons, List.map_nil,
      transcript_concat, ← recounts.served, ← recounts.server]

/-- Whatever the member does, its server is asked by the requests that the member serves and
by nothing else. -/
theorem move (resident : Resident handler part replace bindings)
    (move : Host.Move bindings host noted after)
    (recounts : Recounts handler part seat start seen host) :
    Recounts handler part seat start (seen ++ noted) after := by
  obtain ⟨base, bound⟩ := resident.bound
  have replies := replies_move bound move recounts.replies
  cases move with
  | finalize | stop | deliver | miss | drop | take => exact recounts.congr replies rfl rfl
  | accept sends => exact recounts.congr replies rfl (servings_accepted sends)
  | remember callback message engine known =>
      exact recounts.congr replies
        (resident.untouched message.tag callback known engine message host.memory) rfl
  | serve message queue called request asked live known read =>
      obtain rfl : focusedHandler handler part replace = called :=
        Option.some.inj <| (handler?_of_bind handler part replace bound
          (Request.isRequest_of_ofMessage read)).symm.trans known
      have sent := acceptedSends_focusedHandler handler part replace
        { host.engine with queue } recounts.replies.active live request host.memory
      simp only at sent
      rw [sent, recounts.replies.place] at replies ⊢
      exact recounts.serve resident replies rfl

end Recounts

section Runs

variable {handler : ValueHandler η} {part : ω → TableServer η}
  {replace : TableServer η → ω → ω}

theorem Recounts.atSeat (handler : ValueHandler η) (part : ω → TableServer η)
    (config : EngineConfig) (seat : Seat) (memory : ω) :
    Recounts handler part seat (part memory) [] ⟨.atSeat config seat true, memory⟩ :=
  ⟨.atSeat config seat, rfl, rfl⟩

theorem Recounts.transmit {seat : Seat} {start : TableServer η} {seen : List Observation}
    {host : Host ω} (sends : SendTracker)
    (recounts : Recounts handler part seat start seen host) :
    Recounts handler part seat start seen
      { host with engine := { host.engine with sends } } :=
  ⟨recounts.replies.transmit sends, recounts.server, recounts.served⟩

end Runs

/-- The reply to a request that a member has served. -/
theorem Recounts.sends_of_split {handler : ValueHandler η} {part : ω → TableServer η}
    {seat : Seat} {start : TableServer η} {seen : List Observation} {host : Host ω}
    (recounts : Recounts handler part seat start seen host)
    {before rest : List (Request × List Outgoing)} {request : Request} {sends : List Outgoing}
    (split : servings seen = before ++ (request, sends) :: rest) :
    sends = sendsOf seat request
      ((TableServer.serve handler (before.map Prod.fst) start).answer handler request).1 := by
  have replies := recounts.served
  simp only [split, List.map_append, List.map_cons, transcript_append, transcript] at replies
  have long : before.length =
      ((transcript handler (before.map Prod.fst) start).map
        fun given => (given.1, sendsOf seat given.1 given.2)).length := by
    have names := congrArg List.length (map_fst_transcript handler (before.map Prod.fst) start)
    simpa using names.symm
  obtain ⟨_, later⟩ := List.append_inj replies long
  exact (Prod.mk.inj (List.cons.inj later).1).2

/-- The refusals of requests that have come from outside of the group: nothing can be queued
for their senders. -/
def unanswered (handler : ValueHandler η) (fresh : η) (size : Nat) (seen : List Observation) :
    Nat :=
  (transcript handler ((servings seen).map Prod.fst) { handler := fresh }).countP fun given =>
    given.2.declines && decide (size ≤ given.1.source)

/-- The refusals that are queued, and those for which no reply can be queued. -/
theorem Recounts.rejected {handler : ValueHandler η} {part : ω → TableServer η} {seat : Seat}
    {fresh : η} {seen : List Observation} {host : Host ω}
    (recounts : Recounts handler part seat { handler := fresh } seen host) :
    let requests := (servings seen).map Prod.fst
    (part host.memory).stats.rejected =
      ((servings seen).map fun serving => serving.2.count (refusal serving.1)).sum +
        (log handler requests { handler := fresh }).countP refusesGet +
        unanswered handler fresh seat.size seen := by
  intro requests
  have counted := (summarises_serve handler fresh requests).rejected
  rw [← sum_count_refusal handler seat requests { handler := fresh }] at counted
  have queued : (servings seen).map (fun serving => serving.2.count (refusal serving.1)) =
      (transcript handler requests { handler := fresh }).map fun given =>
        (sendsOf seat given.1 given.2).count (refusal given.1) := by
    rw [recounts.served, List.map_map]
    rfl
  rw [recounts.server, queued]
  refine counted.trans ?_
  simp only [unanswered, requests]
  omega

end TableServer

end ParameterServer
