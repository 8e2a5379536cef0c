import Mathlib.Algebra.Order.Ring.Nat
import ParameterServer.Proofs.TableServer.Consultation

/-!
# Runs of the built-in handlers

What a server with a built-in handler stores for a key is told by the values that it has
accepted for the key: how often, of which lengths and in which order.  The versions that come
with the values play no part.
-/

namespace ParameterServer

open Ieee (Binary32)

variable {η : Type}

/-! ## Accepted values -/

namespace TableServer

/-- Requests with the replies that a server gives to them, one after another. -/
def transcript (handler : ValueHandler η) :
    List Request → TableServer η → List (Request × Reply)
  | [], _ => []
  | request :: rest, server =>
      let (reply, after) := server.answer handler request
      (request, reply) :: transcript handler rest after

/-- The value of a put or an update of a key that is accepted. -/
def acceptedValue? (key : String) (answered : Request × Reply) : Option ParamValue :=
  if answered.1.key = key ∧ answered.2 = .put ⟨key, true⟩ then answered.1.value? else none

/-- The values of the puts and updates of a key that are accepted, in order. -/
def acceptedValues (key : String) (answered : List (Request × Reply)) : List ParamValue :=
  answered.filterMap (acceptedValue? key)

/-- The value of a put of a key. -/
def putValue? (key : String) (request : Request) : Option ParamValue :=
  match request.action with
  | .put incoming => if request.key = key then some incoming else none
  | .update _ | .get => none

/-- The value of the first put of a key. -/
def firstPut? (key : String) (requests : List Request) : Option ParamValue :=
  requests.findSome? (putValue? key)

end TableServer

/-- A request that carries its value without a version. -/
def Request.unversioned (request : Request) : Request :=
  { request with
    action :=
      match request.action with
      | .put incoming => .put { incoming with version := 0 }
      | .update incoming => .update { incoming with version := 0 }
      | .get => .get }

/-- What the accumulating handler has made of the values that it has accepted for a key: all
have the same length, and each element is the first one with the later ones added to it, scaled,
from left to right. -/
structure Accumulated (scale : Binary32) (first : ParamValue) (rest : List ParamValue)
    (value : ParamValue) : Prop where
  lengths : ∀ incoming ∈ first :: rest, incoming.data.length = value.data.length
  elements : ∀ position : Nat,
    value.data[position]? = first.data[position]?.map fun start =>
      (rest.filterMap fun incoming => incoming.data[position]?).foldl
        (fun (total incoming : Binary32) => total.add (scale.multiply incoming)) start

namespace StockHandler

/-- What a built-in handler has made of the values that it has accepted for a key. -/
def Content (first : ParamValue) (rest : List ParamValue) (value : ParamValue) :
    StockHandler → Prop
  | accumulate state => Accumulated state.scale first rest value
  | overwrite _ => value.data = (rest.getLastD first).data
  | picky _ => True

/-- Whether a built-in handler declines a value for a key that has one. -/
def refuses (stored incoming : ParamValue) : StockHandler → Bool
  | accumulate _ => incoming.data.length != stored.data.length
  | overwrite _ | picky _ => false

/-- What a built-in handler declines: an update of a key without a value and, if it
accumulates, a value of another length than the stored one. -/
def declines (policy : StockHandler) : Request.Action → Entry → Bool
  | .get, _ | .put _, none => false
  | .update _, none => true
  | .put incoming, some stored | .update incoming, some stored => policy.refuses stored incoming

/-- What a built-in handler makes of a value that it accepts for a key that has one. -/
def combined (stored incoming : ParamValue) : StockHandler → List Binary32
  | accumulate state => List.zipWith (Accumulate.merge state.scale) stored.data incoming.data
  | overwrite _ | picky _ => incoming.data

theorem BuiltIn.update_eq {policy : StockHandler} (builtIn : policy.BuiltIn)
    (stored incoming : ParamValue) :
    handler.update stored incoming policy =
      if policy.refuses stored incoming then ⟨false, stored, policy⟩
      else ⟨true, ⟨stored.version + 1, policy.combined stored incoming⟩, policy⟩ := by
  cases policy with
  | picky => exact builtIn.elim
  | overwrite state => rfl
  | accumulate state =>
      simp only [handler, update, Accumulate.handler, Accumulate.update, refuses, combined]
      by_cases same : stored.data.length = incoming.data.length
      · simp [same, Verdict.map]
      · simp [same, Ne.symm same, Verdict.map]

theorem BuiltIn.update_unversioned {policy : StockHandler} (builtIn : policy.BuiltIn)
    (stored incoming : ParamValue) :
    handler.update stored { incoming with version := 0 } policy =
      handler.update stored incoming policy := by
  cases policy with
  | picky => exact builtIn.elim
  | accumulate | overwrite => rfl

end StockHandler

/-! ## One request for a key -/

namespace Accumulated

variable {scale : Binary32} {first incoming value : ParamValue} {rest : List ParamValue}

theorem start (scale : Binary32) (incoming : ParamValue) :
    Accumulated scale incoming [] ⟨0, incoming.data⟩ where
  lengths other member := by rw [List.mem_singleton.mp member]
  elements position := Option.map_id'.symm

theorem add (accumulated : Accumulated scale first rest value)
    (same : value.data.length = incoming.data.length) :
    Accumulated scale first (rest ++ [incoming])
      ⟨value.version + 1,
        List.zipWith (Accumulate.merge scale) value.data incoming.data⟩ where
  lengths other member := by
    have length : (List.zipWith (Accumulate.merge scale) value.data incoming.data).length =
        value.data.length := by
      rw [List.length_zipWith, ← same, Nat.min_self]
    rw [length]
    rw [← List.cons_append] at member
    rcases List.mem_append.mp member with earlier | last
    · exact accumulated.lengths other earlier
    · rw [List.mem_singleton.mp last, same]
  elements position := by
    have lengths := accumulated.lengths first List.mem_cons_self
    rw [List.getElem?_zipWith, accumulated.elements position]
    by_cases inside : position < incoming.data.length
    · have within : position < first.data.length := by omega
      simp [List.getElem?_eq_getElem inside, List.getElem?_eq_getElem within,
        Accumulate.merge]
    · have outside : first.data.length ≤ position := by omega
      simp [List.getElem?_eq_none outside]

end Accumulated

namespace Entry

variable {policy : StockHandler} {key : String} {entry : Entry}

theorem step_reply (builtIn : policy.BuiltIn) {action : Request.Action} (carried : action ≠ .get)
    (entry : Entry) :
    (step policy key action entry).1 = .put ⟨key, !policy.declines action entry⟩ := by
  cases action with
  | get => exact absurd rfl carried
  | put incoming | update incoming =>
      cases entry with
      | none => rfl
      | some stored =>
          simp only [step, merge, builtIn.update_eq, StockHandler.declines]
          split <;> simp_all

theorem step_declined (builtIn : policy.BuiltIn) {action : Request.Action}
    (declined : (step policy key action entry).1 = .put ⟨key, false⟩) :
    (step policy key action entry).2 = entry := by
  cases action with
  | get => rfl
  | put incoming | update incoming =>
      cases entry with
      | none => simp_all [step]
      | some stored =>
          simp only [step, merge, builtIn.update_eq] at declined ⊢
          split at declined
          · simp_all
          · simp at declined

end Entry

/-! ## All requests -/

namespace StockHandler

open TableServer (acceptedValue? acceptedValues putValue?)

variable {policy : StockHandler} {key : String} {first : Option ParamValue}
  {accepted : List ParamValue} {entry : Entry}

/-- What the entry of a key tells of the first put of the key and of the values that have been
accepted for it. -/
def Tells (policy : StockHandler) (first : Option ParamValue) (accepted : List ParamValue) :
    Entry → Prop
  | none => first = none ∧ accepted = []
  | some value =>
      ∃ start rest, first = some start ∧ accepted = start :: rest ∧
        value.version = UInt64.ofNat rest.length ∧ policy.Content start rest value

namespace BuiltIn

theorem content_start (builtIn : policy.BuiltIn) (incoming : ParamValue) :
    policy.Content incoming [] ⟨0, incoming.data⟩ := by
  cases policy with
  | picky => exact builtIn.elim
  | overwrite => rfl
  | accumulate state => exact .start state.scale incoming

theorem content_combined (builtIn : policy.BuiltIn) {start incoming value : ParamValue}
    {rest : List ParamValue} (content : policy.Content start rest value)
    (taken : policy.refuses value incoming = false) :
    policy.Content start (rest ++ [incoming])
      ⟨value.version + 1, policy.combined value incoming⟩ := by
  cases policy with
  | picky => exact builtIn.elim
  | overwrite => simp [Content, combined]
  | accumulate state =>
      have same : incoming.data.length = value.data.length := by
        simpa [refuses] using taken
      exact content.add same.symm

theorem tells_merge (builtIn : policy.BuiltIn) {stored incoming : ParamValue}
    (tells : policy.Tells first accepted (some stored)) (request : Request)
    (carried : request.value? = some incoming) :
    let merged := Entry.merge policy request.key stored incoming
    policy.Tells first
      (accepted ++ acceptedValues request.key [(request, merged.1)]) merged.2 := by
  simp only [Entry.merge, builtIn.update_eq]
  cases taken : policy.refuses stored incoming with
  | true => simpa [acceptedValues, acceptedValue?] using tells
  | false =>
      obtain ⟨start, rest, put, shape, version, content⟩ := tells
      refine ⟨start, rest ++ [incoming], put, ?_, ?_, builtIn.content_combined content taken⟩
      · simp [acceptedValues, acceptedValue?, carried, shape]
      · simp [version]

/-- A request adds its value to those that the entry tells of if it is accepted, and changes
nothing if it is not. -/
theorem tells_step (builtIn : policy.BuiltIn) (tells : policy.Tells first accepted entry)
    (request : Request) :
    let stepped := Entry.step policy request.key request.action entry
    policy.Tells (first.or (putValue? request.key request))
      (accepted ++ acceptedValues request.key [(request, stepped.1)]) stepped.2 := by
  obtain ⟨source, key, action⟩ := request
  cases action with
  | get => simpa [Entry.step, acceptedValues, acceptedValue?, putValue?] using tells
  | put incoming =>
      cases entry with
      | none =>
          obtain ⟨rfl, rfl⟩ := tells
          refine ⟨incoming, [], ?_, ?_, rfl, builtIn.content_start incoming⟩
          · simp [putValue?]
          · simp [acceptedValues, acceptedValue?, Entry.step, Request.value?]
      | some stored =>
          have later : first.or (putValue? key ⟨source, key, .put incoming⟩) = first := by
            obtain ⟨start, _, rfl, _⟩ := tells
            rfl
          rw [later]
          exact builtIn.tells_merge tells ⟨source, key, .put incoming⟩ rfl
  | update incoming =>
      rw [putValue?, Option.or_none]
      cases entry with
      | none => simpa [Entry.step, acceptedValues, acceptedValue?] using tells
      | some stored =>
          exact builtIn.tells_merge tells ⟨source, key, .update incoming⟩ rfl

end BuiltIn

end StockHandler

namespace TableServer

variable {policy : StockHandler}

theorem transcript_concat (handler : ValueHandler η) (earlier : List Request)
    (request : Request) (server : TableServer η) :
    transcript handler (earlier ++ [request]) server =
      transcript handler earlier server ++
        [(request, ((serve handler earlier server).answer handler request).1)] := by
  induction earlier generalizing server with
  | nil => rfl
  | cons first rest inductionHypothesis =>
      exact congrArg (List.cons _) (inductionHypothesis (server.answer handler first).2)

theorem acceptedValue?_of_ne {key : String} {request : Request} (reply : Reply)
    (apart : request.key ≠ key) : acceptedValue? key (request, reply) = none :=
  if_neg fun own => apart own.1

theorem putValue?_of_ne {key : String} {request : Request} (apart : request.key ≠ key) :
    putValue? key request = none := by
  unfold putValue?
  split
  · exact if_neg apart
  · rfl
  · rfl

/-- A server with a built-in handler keeps the handler as it is, and the entries of all keys
tell of what has been accepted for them. -/
theorem tells_serve (builtIn : policy.BuiltIn) (requests : List Request) :
    let start : TableServer StockHandler := { handler := policy }
    let server := serve StockHandler.handler requests start
    server.handler = policy ∧ ∀ key,
      policy.Tells (firstPut? key requests)
        (acceptedValues key (transcript StockHandler.handler requests start))
        (server.value? key) := by
  intro start server
  induction requests using List.reverseRecOn with
  | nil => exact ⟨rfl, fun key => ⟨rfl, rfl⟩⟩
  | append_singleton earlier request inductionHypothesis =>
      obtain ⟨same, tells⟩ := inductionHypothesis
      have answers := answers_answer (same.symm ▸ builtIn) request
      rw [same] at answers
      have served : server =
          ((serve StockHandler.handler earlier start).answer StockHandler.handler request).2 :=
        serve_concat StockHandler.handler earlier request start
      refine ⟨?_, fun key => ?_⟩
      · rw [served, answers.handler, same]
      · rw [served, answers.value, firstPut?, acceptedValues, transcript_concat,
          List.findSome?_append, List.filterMap_append, List.findSome?_singleton, answers.reply]
        by_cases own : request.key = key
        · subst own
          rw [if_pos rfl]
          exact builtIn.tells_step (tells request.key) request
        · rw [if_neg (Ne.symm own), putValue?_of_ne own, Option.or_none,
            List.filterMap_cons_none (acceptedValue?_of_ne _ own), List.filterMap_nil,
            List.append_nil]
          exact tells key

/-! ## Versions -/

theorem answer_unversioned {server : TableServer StockHandler}
    (builtIn : server.handler.BuiltIn) (request : Request) :
    server.answer StockHandler.handler request.unversioned =
      server.answer StockHandler.handler request := by
  obtain ⟨source, key, action⟩ := request
  cases action with
  | get => rfl
  | put incoming =>
      simp only [answer, Request.unversioned, answerPut, merge, initialise,
        builtIn.update_unversioned, builtIn.put_eq]
  | update incoming =>
      simp only [answer, Request.unversioned, answerUpdate, merge, builtIn.update_unversioned]

/-- The versions that come with the values make no difference. -/
theorem serve_unversioned (requests : List Request) (server : TableServer StockHandler)
    (builtIn : server.handler.BuiltIn) :
    let bare := requests.map Request.unversioned
    serve StockHandler.handler bare server = serve StockHandler.handler requests server ∧
      (transcript StockHandler.handler bare server).map Prod.snd =
        (transcript StockHandler.handler requests server).map Prod.snd := by
  induction requests generalizing server with
  | nil => exact ⟨rfl, rfl⟩
  | cons request rest inductionHypothesis =>
      have kept := (answers_answer builtIn request).handler
      obtain ⟨served, replies⟩ := inductionHypothesis _ (kept.symm ▸ builtIn)
      simp only [List.map_cons, transcript, serve, List.foldl_cons,
        answer_unversioned builtIn request]
      exact ⟨served, congrArg (List.cons _) replies⟩

/-- A server with a built-in handler after any requests.  The value of a key is what the handler
makes of the values that it has accepted for the key, of which the first one is that of the
first put, and its version is the number of the others.  What is asked next is declined in the
cases in which the handler declines it and in no others, and then all values stay as they are.
Nothing depends on the versions that come with the values. -/
theorem built_in_runs {policy : StockHandler} (builtIn : policy.BuiltIn)
    (requests : List Request) :
    let start : TableServer StockHandler := { handler := policy }
    let server := serve StockHandler.handler requests start
    let answered := transcript StockHandler.handler requests start
    (∀ key value, server.value? key = some value →
      ∃ first rest, acceptedValues key answered = first :: rest ∧
        firstPut? key requests = some first ∧
        ((acceptedValues key answered).length ≤ 2 ^ 64 →
          value.version.toNat = (acceptedValues key answered).length - 1) ∧
        policy.Content first rest value) ∧
      (∀ request,
        let next := server.answer StockHandler.handler request
        (request.action ≠ .get →
          next.1 = .put ⟨request.key,
            !policy.declines request.action (server.value? request.key)⟩) ∧
          (next.1 = .put ⟨request.key, false⟩ →
            ∀ key, next.2.value? key = server.value? key)) ∧
      ∀ others, others.map Request.unversioned = requests.map Request.unversioned →
        serve StockHandler.handler others start = server ∧
          (transcript StockHandler.handler others start).map Prod.snd =
            answered.map Prod.snd := by
  intro start server answered
  obtain ⟨same, tells⟩ := tells_serve builtIn requests
  refine ⟨fun key value stored => ?_, fun request => ?_, fun others alike => ?_⟩
  · have told := tells key
    rw [stored] at told
    obtain ⟨first, rest, put, accepted, version, content⟩ := told
    refine ⟨first, rest, accepted, put, fun bounded => ?_, content⟩
    rw [accepted, List.length_cons] at bounded ⊢
    rw [version, UInt64.toNat_ofNat_of_lt']
    · rfl
    · exact bounded
  · have answers := answers_answer (same.symm ▸ builtIn) request
    rw [same] at answers
    refine ⟨fun carried => ?_, fun declined key => ?_⟩
    · exact answers.reply.trans (Entry.step_reply builtIn carried _)
    · have unchanged := Entry.step_declined builtIn (answers.reply.symm.trans declined)
      refine (answers.value key).trans ?_
      split
      · rename_i own
        rw [own, unchanged]
      · rfl
  · obtain ⟨served, replies⟩ := serve_unversioned others start builtIn
    obtain ⟨expected, given⟩ := serve_unversioned requests start builtIn
    rw [alike] at served replies
    exact ⟨served.symm.trans expected, replies.symm.trans given⟩

/-- One is put and one is added to it; the versions that come with them are passed over. -/
theorem built_in_runs_two :
    let requests : List Request :=
      [⟨1, "w", .put ⟨7, [.one]⟩⟩, ⟨2, "w", .update ⟨9, [.one]⟩⟩]
    let start : TableServer StockHandler := { handler := .accumulate {} }
    let answered := transcript StockHandler.handler requests start
    StockHandler.BuiltIn (.accumulate {}) ∧
      (serve StockHandler.handler requests start).value? "w" = some ⟨1, [⟨0x40000000⟩]⟩ ∧
      (acceptedValues "w" answered).length ≤ 2 ^ 64 ∧
      ∃ first rest, acceptedValues "w" answered = first :: rest ∧
        (1 : UInt64).toNat = (acceptedValues "w" answered).length - 1 ∧
        Accumulated .one first rest ⟨1, [⟨0x40000000⟩]⟩ := by
  intro requests start answered
  have builtIn : StockHandler.BuiltIn (.accumulate {}) := trivial
  have stored : (serve StockHandler.handler requests start).value? "w" =
      some ⟨1, [⟨0x40000000⟩]⟩ := by decide +kernel
  have bounded : (acceptedValues "w" answered).length ≤ 2 ^ 64 := by decide +kernel
  obtain ⟨first, rest, accepted, _, version, content⟩ :=
    (built_in_runs builtIn requests).1 "w" _ stored
  exact ⟨builtIn, stored, bounded, first, rest, accepted, version bounded, content⟩

end TableServer

end ParameterServer
