import Mathlib.Data.List.Induction
import ParameterServer.Proofs.TableServer.Reference

/-!
# Consultations of a handler

A handler can write down every question that it is asked, with its answer.  A table server
does with such a handler what it does without the record, so that the record holds what the
server asks.  A request takes one of a few courses, whatever the handler is and however it
decides; from these one reads which questions it gets, what is replied and what becomes of the
table and of the statistics.
-/

namespace ParameterServer

variable {η : Type}

/-! ## Questions -/

/-- What a handler can be asked. -/
inductive Question where
  | put (key : String) (target incoming : ParamValue)
  | get (key : String) (stored out : ParamValue)
  | update (stored incoming : ParamValue)
  | checkpoint (key : String) (value : ParamValue)
deriving DecidableEq, Repr

def Question.isCheckpoint : Question → Bool
  | checkpoint .. => true
  | put .. | get .. | update .. => false

/-- Whether a handler is asked to take a value into the table. -/
def Question.offersValue : Question → Bool
  | put .. | update .. => true
  | get .. | checkpoint .. => false

/-- A question, whether the handler has accepted and the value that it has left. -/
structure Consultation where
  question : Question
  accepted : Bool
  value : ParamValue
deriving DecidableEq, Repr

/-- The key that a consultation brings into the table. -/
def Consultation.entered? (consultation : Consultation) : Option String :=
  match consultation.question with
  | .put key _ _ => if consultation.accepted then some key else none
  | _ => none

/-- A verdict with the consultation added to those before it. -/
def Verdict.noting (question : Question) (seen : List Consultation) (verdict : Verdict η) :
    Verdict (η × List Consultation) :=
  verdict.map (·, seen ++ [⟨question, verdict.accepted, verdict.value⟩])

/-- A handler that writes down what it is asked and what it answers.  For a checkpoint the value
is that of the question. -/
def ValueHandler.recording (handler : ValueHandler η) : ValueHandler (η × List Consultation) where
  name state := handler.name state.1
  setup config state := (·, state.2) <$> handler.setup config state.1
  put key target incoming state :=
    (handler.put key target incoming state.1).noting (.put key target incoming) state.2
  get key stored out state :=
    (handler.get key stored out state.1).noting (.get key stored out) state.2
  update stored incoming state :=
    (handler.update stored incoming state.1).noting (.update stored incoming) state.2
  checkpointNow key value state :=
    let (due, asked) := handler.checkpointNow key value state.1
    (due, asked, state.2 ++ [⟨.checkpoint key value, due, value⟩])

namespace Request

def isPut (request : Request) : Bool :=
  match request.action with
  | .put _ => true
  | .update _ | .get => false

def isUpdate (request : Request) : Bool :=
  match request.action with
  | .update _ => true
  | .put _ | .get => false

def isGet (request : Request) : Bool :=
  match request.action with
  | .get => true
  | .put _ | .update _ => false

end Request

namespace TableServer

/-- A server whose handler keeps a record, in which something is written already. -/
def watched (seen : List Consultation) (server : TableServer η) :
    TableServer (η × List Consultation) :=
  ⟨(server.handler, seen), server.table, server.stats⟩

/-- What a server asks its handler for a request: what a handler with a record has written down
when the request is answered. -/
def consultations (handler : ValueHandler η) (request : Request) (server : TableServer η) :
    List Consultation :=
  ((server.watched []).answer handler.recording request).2.handler.2

/-- With a record the same is done, and `asked` is added to what is written in it. -/
def Recorded {α : Type} (asked : List Consultation) (outcome : α × TableServer η)
    (watching : List Consultation → α × TableServer (η × List Consultation)) : Prop :=
  ∀ seen, watching seen = (outcome.1, outcome.2.watched (seen ++ asked))

/-! ## The course of a request -/

/-- The request is counted by its kind. -/
def counting (request : Request) (server : TableServer η) : TableServer η :=
  { server with
    stats :=
      { server.stats with
        puts := server.stats.puts + request.isPut.toNat
        gets := server.stats.gets + request.isGet.toNat
        updates := server.stats.updates + request.isUpdate.toNat } }

/-- A value takes the place of the stored one. -/
def replacing (key : String) (value : ParamValue) (server : TableServer η) : TableServer η :=
  { server with table := store key value server.table }

/-- The first value of a key comes into the table, and the keys are counted. -/
def entering (key : String) (value : ParamValue) (server : TableServer η) : TableServer η :=
  let table := store key value server.table
  { server with table, stats := { server.stats with keys := table.length } }

/-- A checkpoint that is due is counted. -/
def marking (due : Bool) (server : TableServer η) : TableServer η :=
  { server with
    stats :=
      { server.stats with checkpointsDue := server.stats.checkpointsDue + due.toNat } }

/-- A server without its handler. -/
def bare (server : TableServer η) : TableServer Unit :=
  ⟨(), server.table, server.stats⟩

/-- What can come of a request: the consultations, the reply, and the table and the statistics
that it leaves. -/
inductive Course (server : TableServer Unit) (request : Request) :
    List Consultation → Reply → TableServer Unit → Prop
  | first {incoming value : ParamValue} {due : Bool} (puts : request.action = .put incoming)
      (absent : server.table.lookup request.key = none) :
      Course server request
        [⟨.put request.key {} incoming, true, value⟩,
          ⟨.checkpoint request.key value, due, value⟩]
        (.put ⟨request.key, true⟩)
        (((server.counting request).entering request.key value).marking due)
  | refused {incoming value : ParamValue} (puts : request.action = .put incoming)
      (absent : server.table.lookup request.key = none) :
      Course server request [⟨.put request.key {} incoming, false, value⟩]
        (.put ⟨request.key, false⟩) (server.counting request).reject
  | merged {incoming stored value : ParamValue} {due : Bool}
      (carried : request.value? = some incoming)
      (present : server.table.lookup request.key = some stored) :
      Course server request
        [⟨.update stored incoming, true, value⟩, ⟨.checkpoint request.key value, due, value⟩]
        (.put ⟨request.key, true⟩)
        (((server.counting request).replacing request.key value).marking due)
  | declined {incoming stored value : ParamValue} (carried : request.value? = some incoming)
      (present : server.table.lookup request.key = some stored) :
      Course server request [⟨.update stored incoming, false, value⟩]
        (.put ⟨request.key, false⟩)
        ((server.counting request).replacing request.key value).reject
  | unknown {incoming : ParamValue} (updates : request.action = .update incoming)
      (absent : server.table.lookup request.key = none) :
      Course server request [] (.put ⟨request.key, false⟩) (server.counting request).reject
  | shown {stored value : ParamValue} (reads : request.action = .get)
      (present : server.table.lookup request.key = some stored) :
      Course server request [⟨.get request.key stored {}, true, value⟩]
        (.get ⟨request.key, some value⟩) (server.counting request)
  | withheld {stored value : ParamValue} (reads : request.action = .get)
      (present : server.table.lookup request.key = some stored) :
      Course server request [⟨.get request.key stored {}, false, value⟩]
        (.get ⟨request.key, none⟩) (server.counting request).reject
  | missing (reads : request.action = .get)
      (absent : server.table.lookup request.key = none) :
      Course server request [] (.get ⟨request.key, none⟩) (server.counting request)

/-- With a record the same is done, and what is written down goes with the course. -/
def Takes (request : Request) (server : TableServer η) (answered : Reply × TableServer η)
    (watching : List Consultation → Reply × TableServer (η × List Consultation)) : Prop :=
  ∃ asked, Recorded asked answered watching ∧
    Course server.bare request asked answered.1 answered.2.bare

section Answers

variable (handler : ValueHandler η) {request : Request} {server counted : TableServer η}
  {key : String} {asked : List Consultation}
  {watching : List Consultation → Bool × TableServer (η × List Consultation)}

theorem lookup_store_self (key : String) (value : ParamValue)
    (entries : List (String × ParamValue)) : (store key value entries).lookup key = some value :=
  (lookup_store key key value entries).trans (if_pos rfl)

theorem Recorded.refuse (recorded : Recorded asked (false, counted) watching) :
    Recorded asked (conclude handler key (false, counted)) fun seen =>
      conclude handler.recording key (watching seen) :=
  fun seen => congrArg (conclude handler.recording key) (recorded seen)

/-- An accepted value that is stored is considered for a checkpoint once. -/
theorem Recorded.accept {value : ParamValue} (recorded : Recorded asked (true, counted) watching)
    (present : counted.table.lookup key = some value) :
    let due := (handler.checkpointNow key value counted.handler).1
    let concluded := conclude handler key (true, counted)
    Recorded (asked ++ [⟨.checkpoint key value, due, value⟩]) concluded
        (fun seen => conclude handler.recording key (watching seen)) ∧
      concluded.2.bare = counted.bare.marking due := by
  refine ⟨fun seen => ?_, ?_⟩
  · refine (congrArg (conclude handler.recording key) (recorded seen)).trans ?_
    simp [conclude, checkCheckpoint, value?, watched, present, ValueHandler.recording]
  · simp [conclude, checkCheckpoint, value?, present, bare, marking]

theorem takes_merge {stored incoming : ParamValue} (carried : request.value? = some incoming)
    (present : server.table.lookup request.key = some stored)
    (same : counted = server.counting request) :
    Takes request server
      (conclude handler request.key (counted.merge handler request.key stored incoming))
      fun seen => conclude handler.recording request.key
        ((counted.watched seen).merge handler.recording request.key stored incoming) := by
  subst same
  rcases verdict : handler.update stored incoming server.handler with ⟨accepted, value, next⟩
  let left : TableServer η :=
    { (server.counting request).replacing request.key value with handler := next }
  have merged : (server.counting request).merge handler request.key stored incoming =
      (accepted, left) := by
    simp [merge, counting, verdict, left, replacing]
  have recorded : Recorded [⟨.update stored incoming, accepted, value⟩] (accepted, left)
      fun seen => ((server.counting request).watched seen).merge handler.recording request.key
        stored incoming := by
    intro seen
    simp [merge, watched, counting, ValueHandler.recording, Verdict.noting, Verdict.map, verdict,
      left, replacing]
  rw [merged]
  cases accepted with
  | false => exact ⟨_, recorded.refuse handler, .declined carried present⟩
  | true =>
      obtain ⟨noted, after⟩ := recorded.accept handler (lookup_store_self request.key value _)
      refine ⟨_, noted, ?_⟩
      rw [after]
      exact .merged carried present

theorem takes_initialise {incoming : ParamValue} (puts : request.action = .put incoming)
    (absent : server.table.lookup request.key = none)
    (same : counted = server.counting request) :
    Takes request server
      (conclude handler request.key (counted.initialise handler request.key incoming))
      fun seen => conclude handler.recording request.key
        ((counted.watched seen).initialise handler.recording request.key incoming) := by
  subst same
  rcases verdict : handler.put request.key {} incoming server.handler with
    ⟨accepted, value, next⟩
  cases accepted with
  | false =>
      let left : TableServer η := { server.counting request with handler := next }
      have initialised : (server.counting request).initialise handler request.key incoming =
          (false, left) := by
        simp [initialise, counting, verdict, left]
      have recorded : Recorded [⟨.put request.key {} incoming, false, value⟩] (false, left)
          fun seen => ((server.counting request).watched seen).initialise handler.recording
            request.key incoming := by
        intro seen
        simp [initialise, watched, counting, ValueHandler.recording, Verdict.noting, Verdict.map,
          verdict, left]
      rw [initialised]
      exact ⟨_, recorded.refuse handler, .refused puts absent⟩
  | true =>
      let left : TableServer η :=
        { (server.counting request).entering request.key value with handler := next }
      have initialised : (server.counting request).initialise handler request.key incoming =
          (true, left) := by
        simp [initialise, counting, verdict, left, entering]
      have recorded : Recorded [⟨.put request.key {} incoming, true, value⟩] (true, left)
          fun seen => ((server.counting request).watched seen).initialise handler.recording
            request.key incoming := by
        intro seen
        simp [initialise, watched, counting, ValueHandler.recording, Verdict.noting, Verdict.map,
          verdict, left, entering]
      rw [initialised]
      obtain ⟨noted, after⟩ := recorded.accept handler (lookup_store_self request.key value _)
      refine ⟨_, noted, ?_⟩
      rw [after]
      exact .first puts absent

theorem takes_get (source : Rank) (key : String) (server : TableServer η) :
    Takes ⟨source, key, .get⟩ server (server.answerGet handler key) fun seen =>
      (server.watched seen).answerGet handler.recording key := by
  cases held : server.table.lookup key with
  | none =>
      simp only [answerGet, value?, watched, held]
      exact ⟨[], fun seen => by simp [watched], .missing rfl held⟩
  | some stored =>
      rcases verdict : handler.get key stored {} server.handler with ⟨accepted, value, next⟩
      have recorded (seen : List Consultation) :
          handler.recording.get key stored {} (server.handler, seen) =
            ⟨accepted, value, next, seen ++ [⟨.get key stored {}, accepted, value⟩]⟩ := by
        simp [ValueHandler.recording, Verdict.noting, Verdict.map, verdict]
      simp only [answerGet, value?, watched, held, verdict, recorded]
      cases accepted with
      | false => exact ⟨_, fun seen => rfl, .withheld rfl held⟩
      | true => exact ⟨_, fun seen => rfl, .shown rfl held⟩

/-- Whatever the handler decides, a request takes one of the courses. -/
theorem takes_answer (request : Request) (server : TableServer η) :
    Takes request server (server.answer handler request) fun seen =>
      (server.watched seen).answer handler.recording request := by
  obtain ⟨source, key, action⟩ := request
  cases action with
  | get => exact takes_get handler source key server
  | put incoming =>
      cases held : server.table.lookup key with
      | none =>
          simp only [answer, answerPut, value?, watched, held]
          exact takes_initialise handler rfl held rfl
      | some stored =>
          simp only [answer, answerPut, value?, watched, held]
          exact takes_merge handler rfl held rfl
  | update incoming =>
      cases held : server.table.lookup key with
      | none =>
          simp only [answer, answerUpdate, value?, watched, held]
          exact ⟨[], fun seen => by simp [conclude, reject, watched], .unknown rfl held⟩
      | some stored =>
          simp only [answer, answerUpdate, value?, watched, held]
          exact takes_merge handler rfl held rfl

end Answers

namespace Course

variable {server after : TableServer Unit} {table : List (String × ParamValue)}
  {request : Request} {asked : List Consultation} {reply : Reply}

/-- A question that a handler may get for a request: about no key but that of the request,
and with the value that is stored for it. -/
def Proper (table after : List (String × ParamValue)) (request : Request) : Question → Prop
  | .put key target incoming =>
      key = request.key ∧ request.action = .put incoming ∧ table.lookup key = none ∧
        target = {}
  | .get key stored out =>
      key = request.key ∧ request.action = .get ∧ table.lookup key = some stored ∧ out = {}
  | .update stored incoming =>
      request.value? = some incoming ∧ table.lookup request.key = some stored
  | .checkpoint key value =>
      key = request.key ∧ request.value?.isSome ∧ after.lookup key = some value

theorem proper (course : Course server request asked reply after) :
    ∀ consultation ∈ asked, Proper server.table after.table request consultation.question := by
  cases course with
  | first puts absent =>
      simp [Proper, puts, absent, Request.value?, entering, marking, counting, lookup_store_self,
        -List.lookup_eq_none_iff]
  | refused puts absent => simp [Proper, puts, absent, -List.lookup_eq_none_iff]
  | merged carried present =>
      simp [Proper, carried, present, replacing, marking, counting, lookup_store_self]
  | declined carried present => simp [Proper, carried, present]
  | unknown | missing => simp
  | shown reads present | withheld reads present => simp [Proper, reads, present]

theorem keys_store_of_absent {key : String} {value : ParamValue}
    (absent : table.lookup key = none) :
    (store key value table).map Prod.fst = table.map Prod.fst ++ [key] := by
  rw [store_eq_assign, Association.keys_assign, if_neg]
  intro member
  obtain ⟨entry, listed, rfl⟩ := List.mem_map.mp member
  exact bne_iff_ne.mp (List.lookup_eq_none_iff.mp absent entry listed) rfl

theorem keys_store_of_present {key : String} {stored value : ParamValue}
    (present : table.lookup key = some stored) :
    (store key value table).map Prod.fst = table.map Prod.fst := by
  rw [store_eq_assign, Association.keys_assign, if_pos]
  exact List.mem_map_of_mem (Association.mem_of_lookup present)

/-- A key comes into the table exactly if its first put is accepted, and no key leaves. -/
theorem keys (course : Course server request asked reply after) :
    after.table.map Prod.fst =
      server.table.map Prod.fst ++ asked.filterMap Consultation.entered? := by
  cases course with
  | first puts absent => exact keys_store_of_absent absent
  | merged carried present | declined carried present =>
      exact (keys_store_of_present present).trans (List.append_nil _).symm
  | refused | unknown | shown | withheld | missing => exact (List.append_nil _).symm

theorem frame (course : Course server request asked reply after) {other : String}
    (apart : other ≠ request.key) : after.table.lookup other = server.table.lookup other := by
  cases course with
  | first | merged | declined =>
      exact (lookup_store request.key other _ server.table).trans (if_neg apart)
  | refused | unknown | shown | withheld | missing => rfl

theorem same_of_get (course : Course server request asked reply after)
    (reads : request.action = .get) : after.table = server.table := by
  cases course with
  | first puts => cases reads.symm.trans puts
  | merged carried | declined carried => simp [Request.value?, reads] at carried
  | refused | unknown | shown | withheld | missing => rfl

/-- A key without a value gets none by a request that is declined. -/
theorem same_of_absent (course : Course server request asked reply after)
    (absent : server.table.lookup request.key = none)
    (declined : reply ≠ .put ⟨request.key, true⟩) : after.table = server.table := by
  cases course with
  | first | merged => exact absurd rfl declined
  | declined _ present => cases absent.symm.trans present
  | refused | unknown | shown | withheld | missing => rfl

/-- An update of a key without a value is declined, and the handler is not asked. -/
theorem declined_of_unknown (course : Course server request asked reply after)
    {incoming : ParamValue} (updates : request.action = .update incoming)
    (absent : server.table.lookup request.key = none) :
    asked = [] ∧ reply = .put ⟨request.key, false⟩ := by
  cases course with
  | first puts | refused puts => cases updates.symm.trans puts
  | merged _ present | declined _ present => cases absent.symm.trans present
  | unknown => exact ⟨rfl, rfl⟩
  | shown reads | withheld reads | missing reads => cases updates.symm.trans reads

theorem accepted_iff (course : Course server request asked reply after) :
    reply = .put ⟨request.key, true⟩ ↔
      ∃ consultation ∈ asked,
        consultation.question.offersValue = true ∧ consultation.accepted = true := by
  cases course with
  | first | merged => simp [Question.offersValue]
  | refused | declined | shown | withheld => simp [Question.offersValue]
  | unknown | missing => simp

/-- After a put or an update that is accepted, the last question is for a checkpoint of the
value that is stored then. -/
theorem checkpoint_of_accepted (course : Course server request asked reply after)
    (accepted : reply = .put ⟨request.key, true⟩) :
    ∃ question value due,
      asked = [⟨question, true, value⟩, ⟨.checkpoint request.key value, due, value⟩] ∧
        question.isCheckpoint = false ∧ after.table.lookup request.key = some value := by
  cases course with
  | first | merged => exact ⟨_, _, _, rfl, rfl, lookup_store_self request.key _ server.table⟩
  | refused | declined | unknown | shown | withheld | missing => simp at accepted

/-- There is no other question for a checkpoint. -/
theorem no_checkpoint (course : Course server request asked reply after)
    (declined : reply ≠ .put ⟨request.key, true⟩) :
    ∀ consultation ∈ asked, consultation.question.isCheckpoint = false := by
  cases course with
  | first | merged => exact absurd rfl declined
  | refused | declined | shown | withheld => simp [Question.isCheckpoint]
  | unknown | missing => simp

end Course

theorem Recorded.consultations_eq {handler : ValueHandler η} {request : Request}
    {server : TableServer η} {asked : List Consultation}
    (recorded : Recorded asked (server.answer handler request) fun seen =>
      (server.watched seen).answer handler.recording request) :
    server.consultations handler request = asked :=
  congrArg (fun outcome : Reply × TableServer (η × List Consultation) => outcome.2.handler.2)
    (recorded [])

theorem answer_watched (handler : ValueHandler η) (request : Request) (server : TableServer η)
    (seen : List Consultation) :
    (server.watched seen).answer handler.recording request =
      ((server.answer handler request).1,
        (server.answer handler request).2.watched
          (seen ++ server.consultations handler request)) := by
  obtain ⟨asked, recorded, _⟩ := takes_answer handler request server
  rw [Recorded.consultations_eq recorded]
  exact recorded seen

theorem course_answer (handler : ValueHandler η) (request : Request) (server : TableServer η) :
    Course server.bare request (server.consultations handler request)
      (server.answer handler request).1 (server.answer handler request).2.bare := by
  obtain ⟨asked, recorded, course⟩ := takes_answer handler request server
  rw [Recorded.consultations_eq recorded]
  exact course

/-! ## Runs of requests -/

variable (handler : ValueHandler η)

/-- A server after some requests. -/
def serve (requests : List Request) (server : TableServer η) : TableServer η :=
  requests.foldl (fun current request => (current.answer handler request).2) server

/-- What a server asks its handler for some requests: what a handler with a record has written
down after them. -/
def log (requests : List Request) (server : TableServer η) : List Consultation :=
  (serve handler.recording requests (server.watched [])).handler.2

theorem serve_concat (earlier : List Request) (request : Request) (server : TableServer η) :
    serve handler (earlier ++ [request]) server =
      ((serve handler earlier server).answer handler request).2 :=
  List.foldl_concat ..

theorem serve_watched (requests : List Request) (server : TableServer η) :
    serve handler.recording requests (server.watched []) =
      (serve handler requests server).watched (log handler requests server) := by
  suffices same : ∃ asked, serve handler.recording requests (server.watched []) =
      (serve handler requests server).watched asked by
    obtain ⟨asked, same⟩ := same
    exact same.trans (congrArg (serve handler requests server).watched
      (congrArg (·.handler.2) same).symm)
  induction requests using List.reverseRecOn with
  | nil => exact ⟨[], rfl⟩
  | append_singleton earlier request inductionHypothesis =>
      obtain ⟨asked, same⟩ := inductionHypothesis
      refine ⟨asked ++ (serve handler earlier server).consultations handler request, ?_⟩
      rw [serve_concat, serve_concat, same, answer_watched]

theorem log_concat (earlier : List Request) (request : Request) (server : TableServer η) :
    log handler (earlier ++ [request]) server =
      log handler earlier server ++
        (serve handler earlier server).consultations handler request := by
  rw [log, serve_concat, serve_watched, answer_watched]
  rfl

theorem keys_serve (requests : List Request) (server : TableServer η) :
    (serve handler requests server).table.map Prod.fst =
      server.table.map Prod.fst ++
        (log handler requests server).filterMap Consultation.entered? := by
  induction requests using List.reverseRecOn with
  | nil => exact (List.append_nil _).symm
  | append_singleton earlier request inductionHypothesis =>
      have step := (course_answer handler request (serve handler earlier server)).keys
      rw [serve_concat, log_concat, List.filterMap_append, ← List.append_assoc,
        ← inductionHypothesis]
      exact step

/-- What a server does with a request, and what it asks its handler for that. -/
structure Disciplined (request : Request) (server : TableServer η) (asked : List Consultation)
    (answered : Reply × TableServer η) : Prop where
  /-- With a handler that keeps a record the server does the same, and what is written down is
  what was asked. -/
  recorded : ∀ seen,
    (server.watched seen).answer handler.recording request =
      (answered.1, answered.2.watched (seen ++ asked))
  proper : ∀ consultation ∈ asked,
    Course.Proper server.table answered.2.table request consultation.question
  keys : answered.2.table.map Prod.fst =
    server.table.map Prod.fst ++ asked.filterMap Consultation.entered?
  isolated : ∀ other ≠ request.key, answered.2.value? other = server.value? other
  get : request.action = .get → answered.2.table = server.table
  declined : server.value? request.key = none → answered.1 ≠ .put ⟨request.key, true⟩ →
    answered.2.table = server.table
  unknown : ∀ incoming, request.action = .update incoming →
    server.value? request.key = none → asked = [] ∧ answered.1 = .put ⟨request.key, false⟩
  accepted : answered.1 = .put ⟨request.key, true⟩ ↔
    ∃ consultation ∈ asked,
      consultation.question.offersValue = true ∧ consultation.accepted = true
  checkpoint : answered.1 = .put ⟨request.key, true⟩ →
    ∃ question value due,
      asked = [⟨question, true, value⟩, ⟨.checkpoint request.key value, due, value⟩] ∧
        question.isCheckpoint = false ∧ answered.2.value? request.key = some value
  otherwise : answered.1 ≠ .put ⟨request.key, true⟩ →
    ∀ consultation ∈ asked, consultation.question.isCheckpoint = false

/-- A server with any handler, after any requests; a handler that keeps a record writes down
what the server asks.  The keys of the table are those whose first puts the handler has
accepted, in this order.  For another request the handler is asked to put a key without a value,
into an empty target, or about the value that is stored for the key of the request, and nothing
else.  The request leaves all other keys alone, a get the whole table, and so does what is
declined for a key without a value.  A checkpoint is asked for once after a put or an update that
is accepted, with the value that is stored then, and at no other time. -/
theorem handler_discipline (fresh : η) (requests : List Request) :
    let start : TableServer η := { handler := fresh }
    let server := serve handler requests start
    let asked := log handler requests start
    serve handler.recording requests (start.watched []) = server.watched asked ∧
      server.table.map Prod.fst = asked.filterMap Consultation.entered? ∧
      ∀ request,
        Disciplined handler request server (server.consultations handler request)
          (server.answer handler request) := by
  intro start server asked
  refine ⟨serve_watched handler requests start, keys_serve handler requests start,
    fun request => ?_⟩
  have course := course_answer handler request server
  exact {
    recorded := answer_watched handler request server
    proper := course.proper
    keys := course.keys
    isolated := fun other apart => course.frame apart
    get := course.same_of_get
    declined := course.same_of_absent
    unknown := fun _ updates absent => course.declined_of_unknown updates absent
    accepted := course.accepted_iff
    checkpoint := course.checkpoint_of_accepted
    otherwise := course.no_checkpoint }

end TableServer

end ParameterServer
