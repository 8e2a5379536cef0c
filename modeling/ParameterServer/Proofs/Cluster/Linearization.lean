import ParameterServer.Proofs.Cluster.Delivery
import ParameterServer.Proofs.TableServer.Hosting

/-!
# The order of each key

Under the synchronous discipline a table server in a cluster serves the requests for a
key in the order in which it receives them, and the requests of one client for the
key arrive in the order in which the client has sent them.
-/

namespace ParameterServer

open Observation

variable {ω : Type}

namespace Observation

/-- The requests for a key that a member has had accepted for another one, in
order. -/
def requestsSent (key : String) (source destination : Rank)
    (seen : List Observation) : List Request :=
  ((sentTo destination seen).filterMap fun content =>
    Request.ofMessage? ⟨content.1, source, content.2⟩).filter
      fun request => request.key = key

theorem filter_requests (source : Rank) (seen : List Observation) :
    ((requests seen).filter fun request => request.source = source) =
      (receivedFrom source seen).filterMap fun content =>
        Request.ofMessage? ⟨content.1, source, content.2⟩ := by
  rw [requests, Request.filter_filterMap_ofMessage? _
    (fun message => message.source = source), receivedFrom, List.filterMap_filterMap,
    List.filterMap_filter]
  · refine List.filterMap_congr fun message _ => ?_
    obtain ⟨tag, sender, payload⟩ := message
    by_cases own : sender = source <;> simp [Message.contentFrom?, own]
  · intro message request read
    rw [(Request.routingKey_of_ofMessage read).2.1]

theorem source_lt_of_silent {size : Nat} {seen : List Observation}
    (silent : ∀ source, size ≤ source → receivedFrom source seen = []) {request : Request}
    (received : request ∈ requests seen) : request.source < size := by
  by_contra beyond
  have member : request ∈ (requests seen).filter fun other => other.source = request.source :=
    List.mem_filter.mpr ⟨received, by simp⟩
  rw [filter_requests, silent request.source (Nat.not_lt.mp beyond)] at member
  cases member

end Observation

namespace Cluster

/-- The requests for a key that a member receives from a client are the first ones that
the client has sent. -/
theorem Conserves.requests_prefix {size : Nat} {cluster : Cluster ω}
    (conserves : Conserves size cluster) (key : String) (client server : Rank) :
    ((requestsFor key (cluster.seen server)).filter
        fun request => request.source = client) <+:
      requestsSent key client server (cluster.seen client) := by
  have arrived : receivedFrom client (cluster.seen server) <+:
      sentTo server (cluster.seen client) := by
    rw [conserves.account, List.append_assoc]
    exact List.prefix_append _ _
  rw [requestsFor, List.filter_comm, filter_requests]
  exact (arrived.filterMap _).filter _

theorem Conserves.source_lt {size : Nat} {cluster : Cluster ω}
    (conserves : Conserves size cluster) {server : Rank} {request : Request}
    (received : request ∈ requests (cluster.seen server)) : request.source < size := by
  refine source_lt_of_silent (fun source beyond => ?_) received
  have account := conserves.account source server
  rw [conserves.outside source beyond] at account
  simp only [sentTo, List.flatMap_nil, List.filterMap_nil] at account
  exact (List.append_eq_nil_iff.mp (List.append_eq_nil_iff.mp account.symm).1).1

/-- A synchronous member of a cluster that hosts a table server, whatever the members
do and in whatever order.  The requests served for a key are the first ones received
for it, and each reply and the value of the key are those of the key's sequential map
on these requests alone.  Of the requests that a client has sent for the key, those
served before one of them are exactly those sent before it. -/
theorem linearizes_key (size : Nat) (config : Rank → EngineConfig)
    (memory : Rank → ω) (bindings : Rank → Bindings ω) (server : Rank)
    {part : ω → TableServer StockHandler}
    {replace : TableServer StockHandler → ω → ω}
    (resident :
      TableServer.Resident StockHandler.handler part replace (bindings server))
    (fresh : (part (memory server)).table = [])
    (builtIn : (part (memory server)).handler.BuiltIn)
    (mode : (config server).updateMode = .sync)
    (events : List (Rank × Activity)) (key : String) :
    let cluster := (start size config memory).run bindings events
    let policy := (part (memory server)).handler
    let served := servedFor key (cluster.seen server)
    let received := (requestsFor key (cluster.seen server)).take served.length
    served =
        (Entry.trace policy key none received).map (fun answered =>
          (answered.1,
            [⟨answered.1.source, answered.2.tag, answered.2.payload⟩])) ∧
      (part (cluster.hosts server).memory).value? key =
        Entry.after policy key none received ∧
      ∀ before request sends after,
        served = before ++ (request, sends) :: after →
          ∃ later,
            requestsSent key request.source server
                (cluster.seen request.source) =
              (before.map Prod.fst).filter
                  (fun earlier => earlier.source = request.source) ++
                request :: later := by
  intro cluster policy served received
  have conserves := conserves_run size config memory bindings events
  obtain ⟨schedules, keeps⟩ :
      TableServer.Serves (config server) ⟨server, size⟩ policy part
        (cluster.seen server) (cluster.hosts server) :=
    host_invariant (fun move serves => serves.move resident builtIn move)
      (fun sends serves => serves.transmit sends)
      (TableServer.Serves.start (config server) ⟨server, size⟩ fresh) events
  have early := schedules.served_sync mode key
  have same : served.map Prod.fst = received := by
    simpa using List.prefix_iff_eq_take.mp early
  refine ⟨?_, ?_, ?_⟩
  · rw [← same]
    refine (keeps.replies key).trans (List.map_congr_left ?_)
    intro answered member
    have listed : answered.1 ∈ served.map Prod.fst := by
      rw [← Entry.map_fst_trace policy key none (served.map Prod.fst)]
      exact List.mem_map_of_mem member
    have inside := conserves.source_lt
      (List.mem_of_mem_filter (early.subset listed))
    simp [TableServer.sendsOf, inside]
  · rw [← same]
    exact keeps.values key
  · intro before request sends after split
    have sent : (served.map Prod.fst).filter
          (fun other => other.source = request.source) <+:
        requestsSent key request.source server (cluster.seen request.source) :=
      (early.filter _).trans
        (conserves.requests_prefix key request.source server)
    obtain ⟨rest, shape⟩ := sent
    refine ⟨(after.map Prod.fst).filter
      (fun other => other.source = request.source) ++ rest, ?_⟩
    rw [← shape, split]
    simp

/-- A client gives a key its value, which the table server keeps with version zero. -/
theorem linearizes_key_sole :
    (((start 2 (fun _ => {}) fun _ => TableServer.sole).run
      (fun _ => TableServer.soleBindings)
      [(1, .send 0 .putRequest (Wire.encode (⟨"w", ⟨7, [.one]⟩⟩ : PutRequest))),
        (1, .network), (0, .network), (0, .process)]).hosts 0).memory.value? "w" =
      some ⟨0, [.one]⟩ := by
  have linearized := linearizes_key 2 (fun _ => {}) (fun _ => TableServer.sole)
    (fun _ => TableServer.soleBindings) 0 TableServer.resident_sole rfl trivial rfl
    [(1, .send 0 .putRequest (Wire.encode (⟨"w", ⟨7, [.one]⟩⟩ : PutRequest))),
      (1, .network), (0, .network), (0, .process)] "w"
  refine linearized.2.1.trans ?_
  decide +kernel

end Cluster

end ParameterServer
