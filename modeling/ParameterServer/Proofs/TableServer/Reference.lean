import ParameterServer.Handler.Stock
import ParameterServer.Proofs.Association
import ParameterServer.TableServer.Basic

/-!
# The sequential map of a key

What the requests for one key do to its value and how they are answered, with no
other key in sight.  A table server with a built-in handler answers every request as
the map of its key does, and leaves the values of all other keys alone.
-/

namespace ParameterServer

/-- The built-in handlers: one accumulates values, the other one overwrites them. -/
def StockHandler.BuiltIn : StockHandler → Prop
  | accumulate _ | overwrite _ => True
  | picky _ => False

/-- The value of one key, if it has one. -/
abbrev Entry := Option ParamValue

namespace Entry

variable (policy : StockHandler) (key : String)

/-- Merges a value by the handler, which may decline it. -/
def merge (stored incoming : ParamValue) : Reply × Entry :=
  let verdict := StockHandler.handler.update stored incoming policy
  (.put ⟨key, verdict.accepted⟩, some verdict.value)

/-- Answers one request.  The first put stores its data with version zero, a later
put and an update merge, an update of an unknown key is declined, and a get shows
the value. -/
def step : Request.Action → Entry → Reply × Entry
  | .put incoming, none => (.put ⟨key, true⟩, some ⟨0, incoming.data⟩)
  | .put incoming, some stored => merge policy key stored incoming
  | .update _, none => (.put ⟨key, false⟩, none)
  | .update incoming, some stored => merge policy key stored incoming
  | .get, entry => (.get ⟨key, entry⟩, entry)

/-- The value after some requests. -/
def after (entry : Entry) (requests : List Request) : Entry :=
  requests.foldl (fun current request => (step policy key request.action current).2)
    entry

/-- Requests with their answers. -/
def trace : Entry → List Request → List (Request × Reply)
  | _, [] => []
  | entry, request :: rest =>
      (request, (step policy key request.action entry).1) ::
        trace (step policy key request.action entry).2 rest

theorem after_concat (entry : Entry) (requests : List Request) (request : Request) :
    after policy key entry (requests ++ [request]) =
      (step policy key request.action (after policy key entry requests)).2 := by
  simp [after]

theorem trace_append (entry : Entry) (first rest : List Request) :
    trace policy key entry (first ++ rest) =
      trace policy key entry first ++
        trace policy key (after policy key entry first) rest := by
  induction first generalizing entry with
  | nil => rfl
  | cons request others inductionHypothesis =>
      simp [trace, after, inductionHypothesis]

theorem map_fst_trace (entry : Entry) (requests : List Request) :
    (trace policy key entry requests).map Prod.fst = requests := by
  induction requests generalizing entry with
  | nil => rfl
  | cons request rest inductionHypothesis =>
      simp [trace, inductionHypothesis]

theorem length_trace (entry : Entry) (requests : List Request) :
    (trace policy key entry requests).length = requests.length := by
  simpa using congrArg List.length (map_fst_trace policy key entry requests)

end Entry

/-- The library's handlers keep their state when they are asked for a checkpoint. -/
theorem StockHandler.checkpointNow_snd (key : String) (value : ParamValue)
    (policy : StockHandler) : (handler.checkpointNow key value policy).2 = policy := by
  cases policy <;> rfl

namespace StockHandler.BuiltIn

variable {policy : StockHandler}

theorem put_eq (builtIn : policy.BuiltIn) (key : String)
    (target incoming : ParamValue) :
    handler.put key target incoming policy =
      ⟨true, ⟨0, incoming.data⟩, policy⟩ := by
  cases policy with
  | picky => exact builtIn.elim
  | accumulate | overwrite => rfl

theorem get_eq (builtIn : policy.BuiltIn) (key : String)
    (stored out : ParamValue) :
    handler.get key stored out policy = ⟨true, stored, policy⟩ := by
  cases policy with
  | picky => exact builtIn.elim
  | accumulate | overwrite => rfl

theorem update_handler (builtIn : policy.BuiltIn) (target incoming : ParamValue) :
    (handler.update target incoming policy).handler = policy := by
  cases policy with
  | picky => exact builtIn.elim
  | accumulate state =>
      simp only [handler, update, Accumulate.handler, Accumulate.update]
      split <;> rfl
  | overwrite => rfl

end StockHandler.BuiltIn

namespace TableServer

variable {η : Type}

theorem store_eq_assign (key : String) (value : ParamValue)
    (entries : List (String × ParamValue)) :
    store key value entries = Association.assign key value entries := by
  induction entries with
  | nil => rfl
  | cons entry rest inductionHypothesis =>
      obtain ⟨other, earlier⟩ := entry
      simp [store, Association.assign, inductionHypothesis]

theorem lookup_store (key other : String) (value : ParamValue)
    (entries : List (String × ParamValue)) :
    (store key value entries).lookup other =
      if other = key then some value else entries.lookup other := by
  rw [store_eq_assign]
  exact Association.lookup_assign key other value entries

/-! ## Answers -/

/-- An answer as it is expected, by a server that has changed the value of one key at
most. -/
structure Answers (server : TableServer StockHandler) (key : String)
    (expected : Reply × Entry) (answered : Reply × TableServer StockHandler) :
    Prop where
  reply : answered.1 = expected.1
  handler : answered.2.handler = server.handler
  value : ∀ other, answered.2.value? other =
    if other = key then expected.2 else server.value? other

section Refinement

variable {server : TableServer StockHandler} {key : String}

theorem Answers.conclude (outcome : Bool × TableServer StockHandler) {entry : Entry}
    (handler : outcome.2.handler = server.handler)
    (value : ∀ other, outcome.2.value? other =
      if other = key then entry else server.value? other) :
    Answers server key (.put ⟨key, outcome.1⟩, entry)
      (conclude StockHandler.handler key outcome) := by
  obtain ⟨accepted, changed⟩ := outcome
  cases accepted with
  | false => exact ⟨rfl, handler, value⟩
  | true =>
      simp only [TableServer.conclude, checkCheckpoint, ↓reduceIte]
      split
      · exact ⟨rfl, handler, value⟩
      · exact ⟨rfl, (StockHandler.checkpointNow_snd _ _ _).trans handler, value⟩

variable (builtIn : server.handler.BuiltIn)

include builtIn

theorem answers_merge (stats : TableStats) (stored incoming : ParamValue) :
    Answers server key (Entry.merge server.handler key stored incoming)
      (conclude StockHandler.handler key
        (({ server with stats } : TableServer StockHandler).merge
          StockHandler.handler key stored incoming)) := by
  let merged := ({ server with stats } : TableServer StockHandler).merge
    StockHandler.handler key stored incoming
  exact Answers.conclude merged (builtIn.update_handler stored incoming)
    fun other => lookup_store key other _ server.table

theorem answers_initialise (stats : TableStats) (incoming : ParamValue) :
    Answers server key (.put ⟨key, true⟩, some ⟨0, incoming.data⟩)
      (conclude StockHandler.handler key
        (({ server with stats } : TableServer StockHandler).initialise
          StockHandler.handler key incoming)) := by
  simp only [initialise, builtIn.put_eq, ↓reduceIte]
  exact Answers.conclude (true, _) rfl
    fun other => lookup_store key other _ server.table

theorem answers_get :
    Answers server key (.get ⟨key, server.value? key⟩, server.value? key)
      (server.answerGet StockHandler.handler key) := by
  have same (other : String) : server.value? other =
      if other = key then server.value? key else server.value? other := by
    split <;> simp_all
  cases stored : server.table.lookup key with
  | none =>
      simp only [answerGet, value?, stored]
      simp only [value?, stored] at same
      exact ⟨rfl, rfl, same⟩
  | some value =>
      simp only [answerGet, value?, stored, builtIn.get_eq, ↓reduceIte]
      simp only [value?, stored] at same
      exact ⟨rfl, rfl, same⟩

/-- A server with a built-in handler answers every request as the map of its key
does, and changes no other key. -/
theorem answers_answer (request : Request) :
    Answers server request.key
      (Entry.step server.handler request.key request.action
        (server.value? request.key))
      (server.answer StockHandler.handler request) := by
  obtain ⟨source, key, action⟩ := request
  cases action with
  | get => exact answers_get builtIn
  | put incoming =>
      cases stored : server.table.lookup key with
      | none =>
          simp only [answer, answerPut, value?, stored]
          exact answers_initialise builtIn _ incoming
      | some value =>
          simp only [answer, answerPut, value?, stored]
          exact answers_merge builtIn _ value incoming
  | update incoming =>
      cases stored : server.table.lookup key with
      | none =>
          simp only [answer, answerUpdate, value?, stored]
          refine Answers.conclude (false, _) rfl fun other => ?_
          split
          · rename_i own
            rw [own]
            exact stored
          · rfl
      | some value =>
          simp only [answer, answerUpdate, value?, stored]
          exact answers_merge builtIn _ value incoming

end Refinement

end TableServer

end ParameterServer
