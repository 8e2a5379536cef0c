import ParameterServer.Proofs.Transport.History

/-!
# How inboxes are stored

The inbox of a member is stored in two parts: a channel that the senders append to, and a
row of the messages that probes have moved out of it.  A probe fills the row when it is
empty; a receive searches the row for the first message from the announced sender with the
announced tag, and removes it by its position.  The main statement is that such a mesh
answers every call as the mesh with a stage for one message, so that the row never holds
two messages, and that every member takes its messages in the order in which they were
sent to it.
-/

namespace ParameterServer

/-- A member whose stage is a row of messages. -/
structure RowPeer where
  /-- The messages that probes have moved out of the channel. -/
  staged : List Envelope := []
  channel : List Envelope := []
  sent : Nat := 0
  finalized : Bool := false

/-- A mesh of such members, none of which is gone. -/
structure RowMesh where
  peers : List RowPeer

namespace RowMesh

def ofSize (size : Nat) : RowMesh :=
  ⟨List.replicate size {}⟩

def size (mesh : RowMesh) : Nat :=
  mesh.peers.length

def peer (mesh : RowMesh) (rank : Rank) : RowPeer :=
  mesh.peers.getD rank {}

def setPeer (mesh : RowMesh) (rank : Rank) (peer : RowPeer) : RowMesh :=
  ⟨mesh.peers.set rank peer⟩

def checkOpen (rank : Rank) (mesh : RowMesh) : Except Error Unit :=
  if (mesh.peer rank).finalized then
    .error (.transport s!"rank {rank} transport already finalized")
  else
    .ok ()

/-- Moves a message out of the channel if the row is empty, and reports the first message
of the row. -/
def probe (rank : Rank) (mesh : RowMesh) : Except Error (Option Header) × RowMesh :=
  match mesh.checkOpen rank with
  | .error error => (.error error, mesh)
  | .ok () =>
      let peer := mesh.peer rank
      if peer.staged.isEmpty then
        match peer.channel with
        | [] => (.ok none, mesh)
        | envelope :: channel =>
            let staged := peer.staged ++ [envelope]
            (.ok (staged.head?.map Mesh.header),
              mesh.setPeer rank { peer with staged, channel })
      else
        (.ok (peer.staged.head?.map Mesh.header), mesh)

/-- Removes the first message of the row that the header announces. -/
def receive (rank : Rank) (announced : Header) (mesh : RowMesh) :
    Except Error Payload × RowMesh :=
  match mesh.checkOpen rank with
  | .error error => (.error error, mesh)
  | .ok () =>
      let peer := mesh.peer rank
      match peer.staged.findIdx? fun envelope => decide (Mesh.Announces announced envelope) with
      | none =>
          (.error (.transport
            s!"no staged message from {announced.source} with tag {announced.tag.describe}"),
            mesh)
      | some position =>
          match peer.staged[position]? with
          | none => (.error (.internal "staged message vanished"), mesh)
          | some envelope =>
              let staged := peer.staged.eraseIdx position
              (Mesh.unpack announced envelope, mesh.setPeer rank { peer with staged })

def send (rank destination : Rank) (tag : Tag) (payload : Payload) (mesh : RowMesh) :
    Except Error SendHandle × RowMesh :=
  match mesh.checkOpen rank with
  | .error error => (.error error, mesh)
  | .ok () =>
      if destination < mesh.size then
        let target := mesh.peer destination
        let delivered := mesh.setPeer destination
          { target with channel := target.channel ++ [⟨tag, rank, payload⟩] }
        let sender := delivered.peer rank
        let id := sender.sent + 1
        (.ok ⟨id⟩, delivered.setPeer rank { sender with sent := id })
      else
        (.error (.invalidRank destination mesh.size), mesh)

def finalize (rank : Rank) (mesh : RowMesh) : Except Error Unit × RowMesh :=
  (.ok (), mesh.setPeer rank { mesh.peer rank with finalized := true })

/-- The mesh as one of its members sees it. -/
def transport (rank : Rank) : Transport RowMesh where
  probe := probe rank
  receive := receive rank
  send := send rank
  test _ mesh := (.ok true, mesh)
  finalize := finalize rank

/-- The members of a fresh mesh make calls, one after another; the answers are in the
order of the calls. -/
def run {size : Nat} (calls : List (Fin size × TransportCall)) :
    List TransportAnswer × RowMesh :=
  calls.foldl
    (fun (answers, mesh) (rank, call) =>
      let (answer, after) := (transport rank).perform call mesh
      (answers ++ [answer], after))
    ([], ofSize size)

end RowMesh

/-! ## A row mesh follows its mesh -/

/-- A member with its stage in a row. -/
def MeshPeer.inRow (peer : MeshPeer) : RowPeer :=
  ⟨peer.staged.toList, peer.inbox, peer.sent, peer.finalized⟩

namespace Mesh

/-- A mesh with its stages in rows. -/
def inRows (mesh : Mesh) : RowMesh :=
  ⟨mesh.peers.map MeshPeer.inRow⟩

section Rows

variable (mesh : Mesh) (rank : Rank)

theorem size_inRows : mesh.inRows.size = mesh.size :=
  List.length_map _

theorem peer_inRows : mesh.inRows.peer rank = (mesh.peer rank).inRow := by
  simp only [inRows, RowMesh.peer, peer, List.getD, List.getElem?_map]
  cases mesh.peers[rank]? <;> rfl

theorem setPeer_inRows (peer : MeshPeer) :
    mesh.inRows.setPeer rank peer.inRow = (mesh.setPeer rank peer).inRows := by
  simp [inRows, RowMesh.setPeer, setPeer, List.map_set]

theorem checkOpen_inRows : mesh.inRows.checkOpen rank = mesh.checkOpen rank := by
  rw [RowMesh.checkOpen, peer_inRows]
  rfl

theorem setPeer_self : mesh.setPeer rank (mesh.peer rank) = mesh := by
  by_cases inside : rank < mesh.peers.length
  · simp [setPeer, peer, List.getD, inside]
  · rw [setPeer, List.set_eq_of_length_le (Nat.le_of_not_lt inside)]

theorem probe_inRows :
    mesh.inRows.probe rank = Prod.map id inRows (mesh.probe rank) := by
  rw [RowMesh.probe, probe, checkOpen_inRows, peer_inRows]
  cases mesh.checkOpen rank with
  | error error => rfl
  | ok =>
      cases staged : (mesh.peer rank).staged with
      | some envelope =>
          have kept : stageOldest (mesh.peer rank) = mesh.peer rank := by
            simp [stageOldest, staged]
          simp [kept, setPeer_self, MeshPeer.inRow, staged]
      | none =>
          cases waiting : (mesh.peer rank).inbox with
          | nil =>
              have kept : stageOldest (mesh.peer rank) = mesh.peer rank := by
                simp [stageOldest, waiting]
              simp [kept, setPeer_self, MeshPeer.inRow, staged, waiting]
          | cons envelope inbox =>
              have moved : stageOldest (mesh.peer rank) =
                  { mesh.peer rank with staged := some envelope, inbox } := by
                simp [stageOldest, staged, waiting]
              simp [moved, ← setPeer_inRows, MeshPeer.inRow, staged, waiting]

theorem receive_inRows (announced : Header) :
    mesh.inRows.receive rank announced =
      Prod.map id inRows (mesh.receive rank announced) := by
  rw [RowMesh.receive, checkOpen_inRows, peer_inRows]
  cases opened : mesh.checkOpen rank with
  | error error => simp [receive, opened]
  | ok =>
      cases staged : (mesh.peer rank).staged with
      | none => simp [receive, opened, MeshPeer.inRow, staged]
      | some envelope =>
          by_cases announces : Announces announced envelope
          · rw [receive_of_announced opened staged announces, Prod.map_apply,
              ← setPeer_inRows]
            simp [MeshPeer.inRow, staged, announces]
          · have apart := announces
            unfold Announces at apart
            simp [receive, opened, MeshPeer.inRow, staged, announces, apart]

theorem send_inRows {size : Nat} (whole : Whole size mesh) (destination : Rank) (tag : Tag)
    (payload : Payload) :
    mesh.inRows.send rank destination tag payload =
      Prod.map id inRows (mesh.send rank destination tag payload) := by
  rw [RowMesh.send, checkOpen_inRows, size_inRows, peer_inRows]
  cases opened : mesh.checkOpen rank with
  | error error => simp [send, opened]
  | ok =>
      by_cases reached : destination < mesh.size
      · let delivered := mesh.setPeer destination
          (deliverTo ⟨tag, rank, payload⟩ (mesh.peer destination))
        have arrives : mesh.inRows.setPeer destination
            { (mesh.peer destination).inRow with
              channel := (mesh.peer destination).inRow.channel ++ [⟨tag, rank, payload⟩] } =
            delivered.inRows :=
          mesh.setPeer_inRows destination (deliverTo _ _)
        have counts : delivered.inRows.setPeer rank
            { (delivered.peer rank).inRow with sent := (delivered.peer rank).sent + 1 } =
            (delivered.setPeer rank (countSend (delivered.peer rank))).inRows :=
          delivered.setPeer_inRows rank (countSend _)
        simp only [reached, ↓reduceIte, send_of_reached whole opened reached]
        rw [arrives, peer_inRows]
        exact congrArg _ counts
      · simp [send, opened, reached]

/-- A mesh answers every call in the same way when its stages are in rows. -/
theorem perform_inRows {size : Nat} (whole : Whole size mesh) (call : TransportCall) :
    (RowMesh.transport rank).perform call mesh.inRows =
      Prod.map id inRows ((transport rank).perform call mesh) := by
  cases call with
  | probe => exact congrArg (Prod.map TransportAnswer.probed id) (mesh.probe_inRows rank)
  | receive announced =>
      exact congrArg (Prod.map TransportAnswer.received id)
        (mesh.receive_inRows rank announced)
  | send destination tag payload =>
      exact congrArg (Prod.map TransportAnswer.sent id)
        (mesh.send_inRows rank whole destination tag payload)
  | test handle => rfl
  | finalize =>
      have marked := mesh.setPeer_inRows rank { mesh.peer rank with finalized := true }
      simp only [Transport.perform, RowMesh.transport, RowMesh.finalize, peer_inRows]
      exact congrArg _ marked

end Rows

theorem ofSize_inRows (size : Nat) : (ofSize size).inRows = RowMesh.ofSize size := by
  rw [inRows, ofSize, RowMesh.ofSize, List.map_replicate]
  rfl

namespace History

section Probing

variable {size : Nat} (calls : List (Fin size × TransportCall)) (owner : Fin size)

/-- A mesh with its stages in rows answers the calls of a run alike, and ends alike. -/
theorem run_inRows :
    RowMesh.run calls =
      ((run calls).log.map Exchange.answer, (run calls).mesh.inRows) := by
  induction calls using List.reverseRecOn with
  | nil => exact congrArg (Prod.mk []) (ofSize_inRows size).symm
  | append_singleton calls last inductionHypothesis =>
      obtain ⟨rank, call⟩ := last
      have followed : RowMesh.run (calls ++ [(rank, call)]) =
          ((RowMesh.run calls).1 ++
              [((RowMesh.transport rank).perform call (RowMesh.run calls).2).1],
            ((RowMesh.transport rank).perform call (RowMesh.run calls).2).2) := by
        simp [RowMesh.run]
      rw [followed, inductionHypothesis, perform_inRows _ _ (whole_run calls), run_concat,
        step, List.map_append]
      rfl

theorem length_staged_inRows (mesh : Mesh) (rank : Rank) :
    (mesh.inRows.peer rank).staged.length ≤ 1 := by
  rw [peer_inRows]
  exact Option.length_toList_le

theorem staged_stageOldest (peer : MeshPeer) :
    (stageOldest peer).staged = peer.waiting.head? := by
  obtain ⟨_ | staged, _ | ⟨envelope, inbox⟩, _, _, _⟩ := peer <;> rfl

theorem finalized_run_eq_false (opened : (owner, .finalize) ∉ calls) :
    ((run calls).mesh.peer owner).finalized = false :=
  Bool.eq_false_iff.mpr (opened ∘ (finalized_run_iff calls owner).mp)

/-- A probe reports the oldest message that waits, and leaves it on the stage. -/
theorem exchange_probe (opened : (owner, .finalize) ∉ calls) :
    let peer := (run calls).mesh.peer owner
    let probing := (run calls).mesh.exchange owner .probe
    probing.answer = .probed (.ok (peer.waiting.head?.map header)) ∧
      (probing.after.peer owner).staged = peer.waiting.head? := by
  obtain ⟨answer, after⟩ := (effect_run calls owner .probe).probed_of_open rfl
    (finalized_run_eq_false calls owner opened)
  have staged := (congrArg MeshPeer.staged after).trans (staged_stageOldest _)
  exact ⟨answer.trans (by rw [staged]; rfl), staged⟩

/-- A message that a probe has reported is reported and received by its header for as long
as its member neither receives nor gives the network up. -/
theorem exchange_of_probed {announced : Header}
    (probed : ((run calls).mesh.exchange owner .probe).answer =
      .probed (.ok (some announced)))
    (between : List (Fin size × TransportCall))
    (opened : (owner, .finalize) ∉ between)
    (quiet : ∀ announced, (owner, .receive announced) ∉ between) :
    let later := (run (calls ++ [(owner, .probe)] ++ between)).mesh
    (later.exchange owner .probe).answer = .probed (.ok (some announced)) ∧
      ∃ envelope, ((run calls).mesh.peer owner).waiting.head? = some envelope ∧
        (later.exchange owner (.receive announced)).takenBy? owner = some envelope ∧
        (later.exchange owner (.receive announced)).answer =
          .received (.ok envelope.payload) := by
  have openBefore : (owner, .finalize) ∉ calls := fun finalized => by
    have refused := ((effect_run calls owner .probe).kept_of_finalized
      ((finalized_run_iff calls owner).mpr finalized) rfl).1
    rw [probed] at refused
    cases refused
  obtain ⟨answer, staged⟩ := exchange_probe calls owner openBefore
  rw [answer] at probed
  simp only [TransportAnswer.probed.injEq, Except.ok.injEq, Option.map_eq_some_iff] at probed
  obtain ⟨envelope, oldest, rfl⟩ := probed
  have stagedThen : ((run (calls ++ [(owner, .probe)])).mesh.peer owner).staged =
      some envelope := by
    rw [run_concat]
    exact staged.trans oldest
  have stagedLater := staged_run_append _ stagedThen between quiet
  have openLater : (owner, .finalize) ∉ calls ++ [(owner, .probe)] ++ between := by
    simp [openBefore, opened]
  have effect := effect_run (calls ++ [(owner, .probe)] ++ between) owner
    (.receive (header envelope))
  have taken := (effect.takenBy?_iff rfl envelope).mpr
    ⟨finalized_run_eq_false _ owner openLater, stagedLater, rfl, rfl⟩
  refine ⟨?_, envelope, oldest, taken, ?_⟩
  · rw [(exchange_probe _ owner openLater).1, MeshPeer.waiting, stagedLater]
    rfl
  · rw [effect.answer_of_taken rfl taken]
    simp [unpack, header]

end Probing

/-- Every member takes the messages that are sent to it in their order: in every run of
calls, what it has taken, what is on its stage and what is in its inbox make up, one after
the other, what has been sent to it. -/
theorem inbox_in_order {size : Nat} (calls : List (Fin size × TransportCall))
    (owner : Fin size) :
    let history := run calls
    let mesh := history.mesh
    let peer := mesh.peer owner
    history.takenBy owner ++ (peer.staged.toList ++ peer.inbox) = history.sentTo owner ∧
      -- A row for the stage makes no difference, and never holds two messages.
      RowMesh.run calls = (history.log.map Exchange.answer, mesh.inRows) ∧
      (mesh.inRows.peer owner).staged.length ≤ 1 ∧
      -- A receive takes the message on the stage if it is the announced one, and returns
      -- or loses it; otherwise it fails and changes nothing.
      (∀ announced,
        let receiving := mesh.exchange owner (.receive announced)
        (∀ envelope, receiving.takenBy? owner = some envelope ↔
          (owner, .finalize) ∉ calls ∧ peer.staged = some envelope ∧
            Announces announced envelope) ∧
        (∀ envelope, receiving.takenBy? owner = some envelope →
          receiving.answer = .received (unpack announced envelope)) ∧
        (receiving.takenBy? owner = none →
          receiving.answer.failed = true ∧ receiving.after = mesh)) ∧
      -- What a probe has reported is reported again, and received by its header.
      (∀ announced, (mesh.exchange owner .probe).answer = .probed (.ok (some announced)) →
        ∀ between : List (Fin size × TransportCall), (owner, .finalize) ∉ between →
          (∀ announced, (owner, .receive announced) ∉ between) →
          let later := (run (calls ++ [(owner, .probe)] ++ between)).mesh
          (later.exchange owner .probe).answer = .probed (.ok (some announced)) ∧
            ∃ envelope, peer.waiting.head? = some envelope ∧
              (later.exchange owner (.receive announced)).takenBy? owner = some envelope ∧
              (later.exchange owner (.receive announced)).answer =
                .received (.ok envelope.payload)) ∧
      -- A member that has given the network up gets nothing done any more.
      ((owner, .finalize) ∈ calls → ∀ call, call.isTraffic = true →
        (mesh.exchange owner call).answer.failed = true ∧
          (mesh.exchange owner call).after = mesh) := by
  refine ⟨waiting_run calls owner, run_inRows calls, length_staged_inRows _ owner,
    fun announced => ?_, fun announced probed between opened quiet =>
      exchange_of_probed calls owner probed between opened quiet,
    fun finalized call traffic =>
      (effect_run calls owner call).kept_of_finalized
        ((finalized_run_iff calls owner).mpr finalized) traffic⟩
  have effect := effect_run calls owner (.receive announced)
  refine ⟨fun envelope => ?_, fun envelope => effect.answer_of_taken rfl,
    effect.kept_of_untaken rfl⟩
  rw [← finalized_run_iff, Bool.not_eq_true]
  exact effect.takenBy?_iff rfl envelope

/-- Member 1 gets the message that it has probed although another one has come in between,
and gets nothing done after it has given the network up. -/
theorem inbox_in_order_pair :
    let calls : List (Fin 2 × TransportCall) := [(0, .send 1 .empty [1])]
    let between : List (Fin 2 × TransportCall) := [(0, .send 1 .empty [2]), (1, .probe)]
    let later := (run (calls ++ [(1, .probe)] ++ between)).mesh
    let closed := (run (calls ++ [(1, .finalize)])).mesh
    (later.exchange 1 (.receive ⟨0, .empty, 1⟩)).answer = .received (.ok [1]) ∧
      (closed.exchange 1 .probe).answer.failed = true := by
  constructor
  · obtain ⟨-, envelope, oldest, -, received⟩ :=
      (inbox_in_order [((0 : Fin 2), .send 1 .empty [1])] 1).2.2.2.2.1 ⟨0, .empty, 1⟩ rfl
        [(0, .send 1 .empty [2]), (1, .probe)] (by decide) (by simp)
    cases oldest
    exact received
  · exact ((inbox_in_order [((0 : Fin 2), .send 1 .empty [1]), (1, .finalize)] 1).2.2.2.2.2
      (by decide) .probe rfl).1

end History

end Mesh

end ParameterServer
