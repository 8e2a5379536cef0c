import ParameterServer.Proofs.Engine.Accounts
import ParameterServer.Transport.Mesh

/-!
# Messages in flight on a mesh

What waits for a member of a mesh is first the message on its stage and then its inbox.
Receiving removes the first of these messages; offering sends appends all of them, or
none if the sender has given the network up.
-/

namespace ParameterServer

/-- The messages that wait for a member, the oldest first. -/
def MeshPeer.waiting (peer : MeshPeer) : List Message :=
  peer.staged.toList ++ peer.inbox

namespace Mesh

variable {mesh after : Mesh} {rank : Rank}

/-- What is on its way from one member to another, the oldest first. -/
def inFlight (source destination : Rank) (mesh : Mesh) : List Content :=
  (mesh.peer destination).waiting.filterMap (Message.contentFrom? source)

/-- A mesh of `size` members none of which is gone. -/
structure Whole (size : Nat) (mesh : Mesh) : Prop where
  size_eq : mesh.size = size
  present : ∀ rank, (mesh.peer rank).gone = false

/-! ## Members -/

@[simp]
theorem size_setPeer (mesh : Mesh) (rank : Rank) (peer : MeshPeer) :
    (mesh.setPeer rank peer).size = mesh.size := by
  simp [setPeer, size]

theorem peer_setPeer (inside : rank < mesh.size) (peer : MeshPeer) (other : Rank) :
    (mesh.setPeer rank peer).peer other =
      if other = rank then peer else mesh.peer other := by
  unfold size at inside
  by_cases same : other = rank
  · subst other
    simp [setPeer, Mesh.peer, List.getD, inside]
  · simp [setPeer, Mesh.peer, List.getD, Ne.symm same, same]

theorem whole_ofSize (size : Nat) : Whole size (ofSize size) where
  size_eq := by simp [Mesh.size, ofSize]
  present rank := by
    simp only [peer, ofSize, List.getD, List.getElem?_replicate]
    split <;> rfl

theorem inFlight_ofSize (source destination : Rank) (size : Nat) :
    (ofSize size).inFlight source destination = [] := by
  simp only [inFlight, peer, ofSize, List.getD, List.getElem?_replicate]
  split <;> rfl

theorem Whole.setPeer {size : Nat} (whole : Whole size mesh)
    (inside : rank < mesh.size) {peer : MeshPeer} (present : peer.gone = false) :
    Whole size (mesh.setPeer rank peer) where
  size_eq := by rw [size_setPeer, whole.size_eq]
  present other := by
    rw [peer_setPeer inside]
    split
    · exact present
    · exact whole.present other

theorem inFlight_setPeer (inside : rank < mesh.size) (peer : MeshPeer)
    (source destination : Rank) :
    (mesh.setPeer rank peer).inFlight source destination =
      if destination = rank then
        peer.waiting.filterMap (Message.contentFrom? source)
      else mesh.inFlight source destination := by
  unfold inFlight
  rw [peer_setPeer inside]
  split <;> rfl

theorem inFlight_setPeer_of_waiting (inside : rank < mesh.size) (peer : MeshPeer)
    (same : peer.waiting = (mesh.peer rank).waiting) (source destination : Rank) :
    (mesh.setPeer rank peer).inFlight source destination =
      mesh.inFlight source destination := by
  rw [inFlight_setPeer inside, same]
  split
  · rename_i own
    rw [own]
    rfl
  · rfl

/-! ## Receiving -/

theorem waiting_stageOldest (peer : MeshPeer) :
    (stageOldest peer).waiting = peer.waiting := by
  unfold stageOldest
  split
  · simp_all [MeshPeer.waiting]
  · rfl

theorem gone_stageOldest (peer : MeshPeer) :
    (stageOldest peer).gone = peer.gone := by
  unfold stageOldest
  split <;> rfl

theorem finalized_stageOldest (peer : MeshPeer) :
    (stageOldest peer).finalized = peer.finalized := by
  unfold stageOldest
  split <;> rfl

theorem receive_of_staged (inside : rank < mesh.size)
    (opened : mesh.checkOpen rank = .ok ()) {peer : MeshPeer} {message : Message}
    (kept : peer.finalized = (mesh.peer rank).finalized)
    (staged : peer.staged = some message) :
    (mesh.setPeer rank peer).receive rank (header message) =
      (.ok message.payload,
        (mesh.setPeer rank peer).setPeer rank { peer with staged := none }) := by
  have own : (mesh.setPeer rank peer).peer rank = peer := by
    simp [peer_setPeer inside]
  have stillOpen : (mesh.setPeer rank peer).checkOpen rank = .ok () := by
    rw [checkOpen, own, kept]
    exact opened
  simp [receive, stillOpen, own, staged, header]

/-- A member receives the oldest message that waits for it, and nothing else
changes. -/
theorem next_transport {size : Nat} (whole : Whole size mesh)
    (inside : rank < mesh.size) (source destination : Rank) :
    Whole size ((transport rank).next mesh).2 ∧
      mesh.inFlight source destination =
        (if destination = rank then
          ((transport rank).next mesh).1.toList.filterMap
            (Message.contentFrom? source)
        else []) ++
          ((transport rank).next mesh).2.inFlight source destination := by
  cases opened : mesh.checkOpen rank with
  | error error =>
      have nothing : (transport rank).next mesh = (none, mesh) := by
        simp [Transport.next, transport, probe, opened]
      rw [nothing]
      exact ⟨whole, by simp⟩
  | ok =>
      have present : (stageOldest (mesh.peer rank)).gone = false :=
        (gone_stageOldest _).trans (whole.present rank)
      have probed : mesh.probe rank =
          (.ok ((stageOldest (mesh.peer rank)).staged.map header),
            mesh.setPeer rank (stageOldest (mesh.peer rank))) := by
        simp [probe, opened]
      cases staged : (stageOldest (mesh.peer rank)).staged with
      | none =>
          have nothing : (transport rank).next mesh =
              (none, mesh.setPeer rank (stageOldest (mesh.peer rank))) := by
            simp [Transport.next, transport, probed, staged]
          rw [nothing]
          refine ⟨whole.setPeer inside present, ?_⟩
          rw [inFlight_setPeer_of_waiting inside _ (waiting_stageOldest _)]
          simp
      | some message =>
          have received := receive_of_staged inside opened
            (finalized_stageOldest (mesh.peer rank)) staged
          have found : (transport rank).next mesh =
              (some message,
                (mesh.setPeer rank (stageOldest (mesh.peer rank))).setPeer rank
                  { stageOldest (mesh.peer rank) with staged := none }) := by
            simp only [Transport.next, transport, probed, staged, Option.map_some,
              received]
            rfl
          have stillInside :
              rank < (mesh.setPeer rank (stageOldest (mesh.peer rank))).size := by
            simpa using inside
          rw [found]
          refine ⟨(whole.setPeer inside present).setPeer stillInside present, ?_⟩
          rw [inFlight_setPeer stillInside, inFlight_setPeer inside]
          by_cases own : destination = rank
          · subst destination
            have waiting : (mesh.peer rank).waiting =
                [message] ++ (stageOldest (mesh.peer rank)).inbox := by
              rw [← waiting_stageOldest, MeshPeer.waiting, staged]
              rfl
            simp only [inFlight, waiting, List.filterMap_append, ↓reduceIte]
            rfl
          · simp [own]

theorem finalize_transport {size : Nat} (whole : Whole size mesh)
    (inside : rank < mesh.size) (source destination : Rank) :
    Whole size (mesh.finalize rank).2 ∧
      (mesh.finalize rank).2.inFlight source destination =
        mesh.inFlight source destination :=
  ⟨whole.setPeer inside (whole.present rank),
    inFlight_setPeer_of_waiting inside
      { mesh.peer rank with finalized := true } rfl source destination⟩

/-! ## Sending -/

/-- A member that has not given the network up reaches every member of a whole
mesh. -/
theorem send_of_open {size : Nat} (whole : Whole size mesh)
    (inside : rank < mesh.size) (opened : mesh.checkOpen rank = .ok ())
    {destination : Rank} (reached : destination < mesh.size) (tag : Tag)
    (payload : Payload) :
    ∃ handle after,
      mesh.send rank destination tag payload = (.ok handle, after) ∧
        Whole size after ∧ after.checkOpen rank = .ok () ∧
        ∀ source other,
          after.inFlight source other =
            mesh.inFlight source other ++
              if source = rank ∧ other = destination then [(tag, payload)]
              else [] := by
  have present := whole.present destination
  let delivered := mesh.setPeer destination
    { mesh.peer destination with
      inbox := (mesh.peer destination).inbox ++ [⟨tag, rank, payload⟩] }
  have deliveredWhole : Whole size delivered := whole.setPeer reached present
  have stillInside : rank < delivered.size := by
    simpa [delivered] using inside
  have sent : mesh.send rank destination tag payload =
      (.ok ⟨(delivered.peer rank).sent + 1⟩,
        delivered.setPeer rank
          { delivered.peer rank with sent := (delivered.peer rank).sent + 1 }) := by
    simp [send, opened, reached, present, delivered]
  refine ⟨_, _, sent, deliveredWhole.setPeer stillInside
    (deliveredWhole.present rank), ?_, ?_⟩
  · have kept : (delivered.peer rank).finalized = (mesh.peer rank).finalized := by
      simp only [delivered, peer_setPeer reached]
      split
      · rename_i own
        rw [own]
      · rfl
    simp only [checkOpen, peer_setPeer stillInside, ↓reduceIte, kept]
    exact opened
  · intro source other
    rw [inFlight_setPeer_of_waiting stillInside
      { delivered.peer rank with sent := (delivered.peer rank).sent + 1 } rfl,
      inFlight_setPeer reached]
    by_cases own : other = destination
    · subst other
      have waiting : (MeshPeer.waiting
          { mesh.peer destination with
            inbox := (mesh.peer destination).inbox ++ [⟨tag, rank, payload⟩] }) =
          (mesh.peer destination).waiting ++ [⟨tag, rank, payload⟩] :=
        (List.append_assoc _ _ _).symm
      rw [if_pos rfl, waiting, List.filterMap_append]
      by_cases mine : source = rank
      · simp [inFlight, Message.contentFrom?, mine]
      · simp [inFlight, Message.contentFrom?, mine, Ne.symm mine]
    · simp [own]

theorem send_of_closed {error : Error} (refused : mesh.checkOpen rank = .error error)
    (destination : Rank) (tag : Tag) (payload : Payload) :
    mesh.send rank destination tag payload = (.error error, mesh) := by
  simp [send, refused]

/-! ## Offering pending sends -/

/-- A member that has given the network up keeps its pending sends in their order. -/
theorem offer_of_closed {error : Error} (refused : mesh.checkOpen rank = .error error)
    (sends : List PendingSend) (tracker : SendTracker) :
    (SendTracker.offer (transport rank) sends tracker mesh).2 = mesh ∧
      (SendTracker.offer (transport rank) sends tracker mesh).1.pending =
        tracker.pending ++
          sends.map fun send => { send with failures := send.failures + 1 } := by
  induction sends generalizing tracker with
  | nil =>
      simp [SendTracker.offer]
  | cons send rest inductionHypothesis =>
      have closed : (transport rank).send send.destination send.tag send.payload
          mesh = (.error error, mesh) :=
        send_of_closed refused _ _ _
      simp only [SendTracker.offer, closed]
      obtain ⟨unchanged, pending⟩ := inductionHypothesis
        { tracker with
          pending :=
            tracker.pending ++ [{ send with failures := send.failures + 1 }]
          stats := { tracker.stats with failures := tracker.stats.failures + 1 } }
      refine ⟨unchanged, ?_⟩
      rw [pending]
      simp

/-- Any other member of a whole mesh gets rid of all of them. -/
theorem offer_of_open {size : Nat} (whole : Whole size mesh)
    (inside : rank < size) (opened : mesh.checkOpen rank = .ok ())
    (sends : List PendingSend) (reached : ∀ send ∈ sends, send.destination < size)
    (tracker : SendTracker) :
    let offered := SendTracker.offer (transport rank) sends tracker mesh
    Whole size offered.2 ∧ offered.1.pending = tracker.pending ∧
      ∀ source destination,
        offered.2.inFlight source destination =
          mesh.inFlight source destination ++
            if source = rank then
              sends.filterMap (PendingSend.contentTo? destination)
            else [] := by
  induction sends generalizing tracker mesh with
  | nil =>
      simp [SendTracker.offer, whole]
  | cons send rest inductionHypothesis =>
      obtain ⟨handle, after, sent, afterWhole, afterOpen, flight⟩ :=
        send_of_open whole (whole.size_eq ▸ inside) opened
          (whole.size_eq ▸ reached send List.mem_cons_self) send.tag send.payload
      have accepted : (transport rank).send send.destination send.tag send.payload
          mesh = (.ok handle, after) := sent
      obtain ⟨lastWhole, pending, lastFlight⟩ :=
        inductionHypothesis afterWhole afterOpen
          (fun later member => reached later (List.mem_cons_of_mem _ member))
          { tracker with
            active := tracker.active ++ [⟨send, handle⟩]
            stats := { tracker.stats with issued := tracker.stats.issued + 1 } }
      simp only [SendTracker.offer, accepted]
      refine ⟨lastWhole, pending, ?_⟩
      intro source destination
      rw [lastFlight, flight, List.append_assoc]
      congr 1
      by_cases mine : source = rank
      · by_cases own : destination = send.destination
        · simp [mine, own, PendingSend.contentTo?]
        · simp [mine, own, PendingSend.contentTo?, Ne.symm own]
      · simp [mine]

/-- Offering the pending sends moves them into flight, if it moves any. -/
theorem issuePending_transport {size : Nat} (whole : Whole size mesh)
    (inside : rank < size) (tracker : SendTracker)
    (reached : ∀ send ∈ tracker.pending, send.destination < size) :
    let issued := tracker.issuePending (transport rank) mesh
    Whole size issued.2 ∧
      (∀ send ∈ issued.1.pending, send.destination < size) ∧
      ∀ source destination,
        issued.2.inFlight source destination ++
            (if source = rank then issued.1.pendingTo destination else []) =
          mesh.inFlight source destination ++
            if source = rank then tracker.pendingTo destination else [] := by
  intro issued
  cases opened : mesh.checkOpen rank with
  | error error =>
      obtain ⟨unchanged, pending⟩ :=
        offer_of_closed opened tracker.pending { tracker with pending := [] }
      have kept : issued.2 = mesh := unchanged
      have still : issued.1.pending = tracker.pending.map fun send =>
          { send with failures := send.failures + 1 } := pending
      refine ⟨kept ▸ whole, ?_, ?_⟩
      · intro send member
        rw [still] at member
        obtain ⟨own, listed, rfl⟩ := List.mem_map.mp member
        exact reached own listed
      · intro source destination
        simp only [kept, SendTracker.pendingTo, still, List.filterMap_map]
        rfl
  | ok =>
      obtain ⟨afterWhole, pending, flight⟩ :=
        offer_of_open whole inside opened tracker.pending reached
          { tracker with pending := [] }
      have none : issued.1.pending = [] := pending
      refine ⟨afterWhole, by simp [none], ?_⟩
      intro source destination
      have moved : issued.2.inFlight source destination =
          mesh.inFlight source destination ++
            if source = rank then tracker.pendingTo destination else [] :=
        flight source destination
      simp [moved, SendTracker.pendingTo, none]

theorem testEach_transport (kept untested : List ActiveSend) (stats : SendStats) :
    (SendTracker.testEach (transport rank) kept stats untested mesh).1 = kept ∧
      (SendTracker.testEach (transport rank) kept stats untested mesh).2.2 =
        mesh := by
  induction length : untested.length generalizing untested stats with
  | zero =>
      rw [List.length_eq_zero_iff.mp length, SendTracker.testEach]
      exact ⟨rfl, rfl⟩
  | succ count inductionHypothesis =>
      cases untested with
      | nil =>
          simp at length
      | cons current rest =>
          have complete : (transport rank).test current.handle mesh =
              (.ok true, mesh) := rfl
          simp only [SendTracker.testEach, complete]
          exact inductionHypothesis _ _
            (by rw [SendTracker.length_replaceHead]; simpa using length)

theorem collectActive_transport (tracker : SendTracker) :
    (tracker.collectActive (transport rank) mesh).1.pending = tracker.pending ∧
      (tracker.collectActive (transport rank) mesh).2 = mesh :=
  ⟨rfl, (testEach_transport [] tracker.active tracker.stats).2⟩

end Mesh

end ParameterServer
