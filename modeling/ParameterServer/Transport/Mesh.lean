import ParameterServer.Transport.Basic

/-!
# The local mesh

A network inside one process: every member has an inbox that all members can append
to.  A probe moves the oldest message of the inbox to a stage, from where it is
received; at most one message is on the stage.
-/

namespace ParameterServer

/-- A message on its way inside a mesh. -/
abbrev Envelope := Message

/-- One member of a mesh. -/
structure MeshPeer where
  /-- The message that a probe has taken from the inbox. -/
  staged : Option Envelope := none
  /-- Messages that no probe has seen, the oldest first. -/
  inbox : List Envelope := []
  /-- Messages sent so far. -/
  sent : Nat := 0
  finalized : Bool := false
  /-- Whether the member is gone, so that nothing can be sent to it. -/
  gone : Bool := false
deriving DecidableEq, Repr

/-- A mesh, as its members in the order of their ranks. -/
structure Mesh where
  peers : List MeshPeer
deriving DecidableEq, Repr

namespace Mesh

/-- A mesh of `size` members before the first message. -/
def ofSize (size : Nat) : Mesh :=
  ⟨List.replicate size {}⟩

def size (mesh : Mesh) : Nat :=
  mesh.peers.length

/-- A member; past the end of the mesh, one that nothing has happened to. -/
def peer (mesh : Mesh) (rank : Rank) : MeshPeer :=
  mesh.peers.getD rank {}

def setPeer (mesh : Mesh) (rank : Rank) (peer : MeshPeer) : Mesh :=
  ⟨mesh.peers.set rank peer⟩

/-- Refuses a member that has given the network up. -/
def checkOpen (rank : Rank) (mesh : Mesh) : Except Error Unit :=
  if (mesh.peer rank).finalized then
    .error (.transport s!"rank {rank} transport already finalized")
  else
    .ok ()

/-- The header that announces a message. -/
def header (envelope : Envelope) : Header :=
  ⟨envelope.source, envelope.tag, envelope.payload.length⟩

/-- Puts the oldest message on the stage, if the stage is free. -/
def stageOldest (peer : MeshPeer) : MeshPeer :=
  match peer.staged, peer.inbox with
  | none, envelope :: inbox => { peer with staged := some envelope, inbox }
  | _, _ => peer

def probe (rank : Rank) (mesh : Mesh) : Except Error (Option Header) × Mesh :=
  match mesh.checkOpen rank with
  | .error error => (.error error, mesh)
  | .ok () =>
      let peer := stageOldest (mesh.peer rank)
      (.ok (peer.staged.map header), mesh.setPeer rank peer)

/-- Receives the staged message if its sender and its tag are those announced.  A
message whose length differs from the advertised one is lost. -/
def receive (rank : Rank) (announced : Header) (mesh : Mesh) :
    Except Error Payload × Mesh :=
  match mesh.checkOpen rank with
  | .error error => (.error error, mesh)
  | .ok () =>
      let peer := mesh.peer rank
      let missing : Error :=
        .transport
          s!"no staged message from {announced.source} with tag {announced.tag.describe}"
      match peer.staged with
      | none => (.error missing, mesh)
      | some envelope =>
          if envelope.source = announced.source ∧ envelope.tag = announced.tag then
            let cleared := mesh.setPeer rank { peer with staged := none }
            let found := envelope.payload.length
            if found = announced.length then
              (.ok envelope.payload, cleared)
            else
              (.error (.transport s!"advertised {announced.length} bytes, found {found}"),
                cleared)
          else
            (.error missing, mesh)

/-- Appends a message to the inbox of its destination and counts it for its sender,
whose sends are numbered from one. -/
def send (rank destination : Rank) (tag : Tag) (payload : Payload) (mesh : Mesh) :
    Except Error SendHandle × Mesh :=
  match mesh.checkOpen rank with
  | .error error => (.error error, mesh)
  | .ok () =>
      if destination < mesh.size then
        let target := mesh.peer destination
        if target.gone then
          (.error (.transport s!"rank {destination} is gone"), mesh)
        else
          let delivered := mesh.setPeer destination
            { target with inbox := target.inbox ++ [⟨tag, rank, payload⟩] }
          let sender := delivered.peer rank
          let id := sender.sent + 1
          (.ok ⟨id⟩, delivered.setPeer rank { sender with sent := id })
      else
        (.error (.invalidRank destination mesh.size), mesh)

def finalize (rank : Rank) (mesh : Mesh) : Except Error Unit × Mesh :=
  (.ok (), mesh.setPeer rank { mesh.peer rank with finalized := true })

/-- Removes a member: what waits for it is lost, and nothing more can be sent to
it. -/
def drop (rank : Rank) (mesh : Mesh) : Mesh :=
  mesh.setPeer rank { mesh.peer rank with staged := none, inbox := [], gone := true }

/-- The mesh as one of its members sees it.  A message is delivered when it is sent,
so that every accepted send is complete. -/
def transport (rank : Rank) : Transport Mesh where
  probe := probe rank
  receive := receive rank
  send := send rank
  test _ mesh := (.ok true, mesh)
  finalize := finalize rank

/-- Receives messages until a probe finds none or fails, at most `limit` times. -/
def receiveAllFor (rank : Rank) :
    (limit : Nat) → Mesh → List (Except Error Envelope) × Mesh
  | 0, mesh => ([], mesh)
  | limit + 1, mesh =>
      match mesh.probe rank with
      | (.error error, probed) => ([.error error], probed)
      | (.ok none, probed) => ([], probed)
      | (.ok (some announced), probed) =>
          let (received, rest) := probed.receive rank announced
          let envelope := (fun payload => ⟨announced.tag, announced.source, payload⟩) <$> received
          let (others, last) := receiveAllFor rank limit rest
          (envelope :: others, last)

/-- Every message that waits for a member. -/
def receiveAll (rank : Rank) (mesh : Mesh) : List (Except Error Envelope) × Mesh :=
  mesh.receiveAllFor rank ((mesh.peer rank).inbox.length + 2)

end Mesh

end ParameterServer
