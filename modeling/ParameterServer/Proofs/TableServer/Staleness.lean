import ParameterServer.Proofs.Queue.Tally
import ParameterServer.Proofs.TableServer.Hosting
import ParameterServer.Transport.Mesh

/-!
# What a reader sees

Under the asynchronous discipline the value that a get shows depends on the number of
gets before it and on nothing else: it is the value after as many puts and updates of
the key as the rounds of the key prescribe.
-/

namespace ParameterServer

open Observation

variable {σ ω : Type}

/-! ## Positions -/

/-- A list with the classes of the word has them in every part of it. -/
theorem Queue.Rounds.word_of_split {α : Type} (rounds : Rounds) (phase : α → Phase)
    (before : List α) (item : α) (after : List α)
    (classes : (before ++ item :: after).map phase =
      (List.range (before ++ item :: after).length).map rounds.word) :
    before.map phase = (List.range before.length).map rounds.word ∧
      phase item = rounds.word before.length :=
  Follows.of_split classes

theorem Queue.Rounds.tally_of_classes (rounds : Rounds) {requests : List Request}
    (classes : requests.map Request.phase =
      (List.range requests.length).map rounds.word) (phase : Phase) :
    (requests.filter fun request => request.phase = phase).length =
      rounds.tally phase requests.length := by
  rw [tally, ← classes, ← List.countP_eq_length_filter, List.count,
    List.countP_map]
  refine List.countP_congr fun request _ => ?_
  simp

namespace Entry

theorem after_filter_puts (policy : StockHandler) (key : String) (entry : Entry)
    (requests : List Request) :
    after policy key entry (requests.filter fun request => request.phase = .put) =
      after policy key entry requests := by
  induction requests generalizing entry with
  | nil => rfl
  | cons request rest inductionHypothesis =>
      cases action : request.action with
      | get =>
          have class_eq : request.phase = .get := by rw [Request.phase, action]
          simpa [after, class_eq, action, step] using inductionHypothesis entry
      | put | update =>
          have class_eq : request.phase = .put := by rw [Request.phase, action]
          simpa [after, class_eq] using
            inductionHypothesis (step policy key request.action entry).2

end Entry

namespace TableServer

variable {part : ω → TableServer StockHandler}
  {replace : TableServer StockHandler → ω → ω} {bindings : Bindings ω}

/-- An asynchronous member that hosts a table server, whatever it does and whatever
the network does meanwhile.  When a get of a key is served, the gets of the key served
before it fix the number of puts and updates served before it: as many as fill the
rounds up to its own, of which the first is a single put if the first put flips.  The
reply shows the value after that many of the puts and updates received for the key,
the first ones in the order of arrival. -/
theorem staleness_exact (transport : Transport σ) {config : EngineConfig}
    {seat : Seat} {engine : Engine}
    (started : Engine.start config seat = .ok engine)
    (mode : config.updateMode = .async)
    (resident : Resident StockHandler.handler part replace bindings) (memory : ω)
    (fresh : (part memory).table = [])
    (builtIn : (part memory).handler.BuiltIn)
    (steps : List (Activity × σ)) (key : String)
    (before after : List (Request × List Outgoing)) (request : Request)
    (sends : List Outgoing)
    (split : servedFor key
        (Host.follow transport bindings ⟨engine, memory⟩ steps).1 =
      before ++ (request, sends) :: after)
    (get : request.action = .get) :
    let size := config.memoryServers.toNat
    let asked := (before.filter fun served => served.1.phase = .get).length + 1
    let visible :=
      if config.firstPutFlips then 1 + size * (asked ⌈/⌉ size - 1)
      else size * (asked ⌈/⌉ size)
    let puts :=
      (requestsFor key
        (Host.follow transport bindings ⟨engine, memory⟩ steps).1).filter
          fun received => received.phase = .put
    (before.filter fun served => served.1.phase = .put).length = visible ∧
      visible ≤ puts.length ∧
      sends = sendsOf seat request
        (.get ⟨key,
          Entry.after (part memory).handler key none (puts.take visible)⟩) := by
  intro size asked visible puts
  obtain ⟨positive, rfl⟩ := Engine.of_start started
  let host : Host ω := ⟨.atSeat config seat true, memory⟩
  obtain ⟨schedules, keeps⟩ :
      Serves config seat (part memory).handler part
        (host.follow transport bindings steps).1
        (host.follow transport bindings steps).2 :=
    Host.follow_invariant bindings host
      (fun move serves => serves.move resident builtIn move)
      (fun sends serves => serves.transmit sends)
      transport (Serves.start config seat fresh) steps
  have listed : servedFor key (host.follow transport bindings steps).1 =
      before ++ (request, sends) :: after := split
  obtain ⟨classes, ordered⟩ := schedules.served_async mode key
  simp only [listed, List.map_append, List.map_cons, Nat.max_eq_left positive]
    at classes ordered
  let rounds : Queue.Rounds := ⟨size, config.firstPutFlips⟩
  obtain ⟨earlier, own⟩ := rounds.word_of_split Request.phase
    (before.map Prod.fst) request (after.map Prod.fst) (by simpa using classes)
  have turn : rounds.word (before.map Prod.fst).length = .get := by
    rw [← own, Request.phase, get]
  have tally (phase : Queue.Phase) :
      (before.filter fun served => served.1.phase = phase).length =
        rounds.tally phase (before.map Prod.fst).length := by
    rw [← rounds.tally_of_classes earlier phase, List.filter_map, List.length_map]
    rfl
  have count : (before.filter fun served => served.1.phase = .put).length =
      visible := by
    rw [tally, rounds.tally_put_of_get positive turn]
    simp only [visible, asked, tally]
    rfl
  -- The puts served before the get are the first ones received, since they are served in
  -- the order of their arrival.
  have first : (before.map Prod.fst).filter (fun served => served.phase = .put) <+:
      puts := by
    have all := ordered .put
    rw [List.filter_append] at all
    exact (List.prefix_append _ _).trans all
  have length : ((before.map Prod.fst).filter
      fun served => served.phase = .put).length = visible := by
    rw [List.filter_map, List.length_map]
    exact count
  have seen : (before.map Prod.fst).filter (fun served => served.phase = .put) =
      puts.take visible := by
    rw [← length]
    exact List.prefix_iff_eq_take.mp first
  refine ⟨count, length ▸ first.length_le, ?_⟩
  rw [keeps.sends_of_split listed, get, ← seen, Entry.after_filter_puts]
  rfl

/-- A client puts a value and asks for it; the put flips, so that the get sees it. -/
theorem staleness_exact_sole :
    [⟨1, .getResponse, Wire.encode (⟨"w", some ⟨0, [.one]⟩⟩ : GetResponse)⟩] =
      sendsOf ⟨0, 2⟩ ⟨1, "w", .get⟩
        (.get ⟨"w",
          Entry.after (.accumulate {}) "w" none [⟨1, "w", .put ⟨7, [.one]⟩⟩]⟩) := by
  have started : Engine.start (.asynchronous 2) ⟨0, 2⟩ =
      .ok (.atSeat (.asynchronous 2) ⟨0, 2⟩ true) := rfl
  have exactly := staleness_exact (Mesh.transport 0) started rfl resident_sole sole
    rfl trivial
    [(.network, ⟨[{ inbox := [⟨.putRequest, 1,
        Wire.encode (⟨"w", ⟨7, [.one]⟩⟩ : PutRequest)⟩] }, {}]⟩),
      (.network, ⟨[{ inbox := [⟨.getRequest, 1,
        Wire.encode (⟨"w"⟩ : GetRequest)⟩] }, {}]⟩),
      (.process, .ofSize 2), (.process, .ofSize 2)]
    "w"
    [(⟨1, "w", .put ⟨7, [.one]⟩⟩,
      [⟨1, .putResponse, Wire.encode (⟨"w", true⟩ : PutResponse)⟩])] []
    ⟨1, "w", .get⟩
    [⟨1, .getResponse, Wire.encode (⟨"w", some ⟨0, [.one]⟩⟩ : GetResponse)⟩]
    (by decide +kernel) rfl
  refine exactly.2.2.trans ?_
  decide +kernel

end TableServer

end ParameterServer
