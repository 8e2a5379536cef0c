import Mathlib.Data.List.Induction
import ParameterServer.Proofs.Transport.Calls
import ParameterServer.Proofs.Transport.Mesh

/-!
# Histories of a mesh

A run of calls that the members of a mesh make, in any order and with any arguments, with
the answer to each call.  What a call does is one of a few effects, so that an invariant of
a mesh is a matter of one case for each of them.
-/

namespace ParameterServer

variable {σ : Type}

/-! ## Calls and answers -/

/-- What the network answers to a call. -/
inductive TransportAnswer where
  | probed (found : Except Error (Option Header))
  | received (payload : Except Error Payload)
  | sent (handle : Except Error SendHandle)
  | tested (complete : Except Error Bool)
  | finalized (outcome : Except Error Unit)

/-- Whether a call has failed. -/
def TransportAnswer.failed : TransportAnswer → Bool
  | probed (.error _) | received (.error _) | sent (.error _) | tested (.error _) => true
  | finalized (.error _) => true
  | _ => false

/-- Whether a call looks for a message, receives or sends one. -/
def TransportCall.isTraffic : TransportCall → Bool
  | probe | receive _ | send .. => true
  | test _ | finalize => false

/-- Makes a call of the network. -/
def Transport.perform (transport : Transport σ) (call : TransportCall) (network : σ) :
    TransportAnswer × σ :=
  match call with
  | .probe => Prod.map .probed id (transport.probe network)
  | .receive announced => Prod.map .received id (transport.receive announced network)
  | .send destination tag payload =>
      Prod.map .sent id (transport.send destination tag payload network)
  | .test handle => Prod.map .tested id (transport.test handle network)
  | .finalize => Prod.map .finalized id (transport.finalize network)

namespace Mesh

/-- A call that a member has made, with the answer and the meshes before and after it. -/
structure Exchange where
  rank : Rank
  call : TransportCall
  answer : TransportAnswer
  before : Mesh
  after : Mesh

/-- A member makes a call. -/
def exchange (mesh : Mesh) (rank : Rank) (call : TransportCall) : Exchange :=
  let (answer, after) := (transport rank).perform call mesh
  ⟨rank, call, answer, mesh, after⟩

/-! ## What a call does -/

/-- Whether a header announces a message: its length does not matter. -/
def Announces (announced : Header) (envelope : Envelope) : Prop :=
  envelope.source = announced.source ∧ envelope.tag = announced.tag

instance (announced : Header) (envelope : Envelope) :
    Decidable (Announces announced envelope) :=
  inferInstanceAs (Decidable (_ ∧ _))

/-- What a receive makes of the message that it takes. -/
def unpack (announced : Header) (envelope : Envelope) : Except Error Payload :=
  let found := envelope.payload.length
  if found = announced.length then
    .ok envelope.payload
  else
    .error (.transport s!"advertised {announced.length} bytes, found {found}")

/-- Whether a call changes the members of a mesh in a certain way. -/
def Changes (mesh after : Mesh) (change : Rank → MeshPeer → MeshPeer) : Prop :=
  after.size = mesh.size ∧ ∀ rank, after.peer rank = change rank (mesh.peer rank)

/-- The change of one member. -/
def changeAt (rank : Rank) (change : MeshPeer → MeshPeer) (other : Rank)
    (peer : MeshPeer) : MeshPeer :=
  if other = rank then change peer else peer

/-- The member with one message more in its inbox. -/
def deliverTo (envelope : Envelope) (peer : MeshPeer) : MeshPeer :=
  { peer with inbox := peer.inbox ++ [envelope] }

/-- The member that has sent one message more. -/
def countSend (peer : MeshPeer) : MeshPeer :=
  { peer with sent := peer.sent + 1 }

/-- A message comes into the inbox of a member and is counted for its sender. -/
def changeBySend (destination : Rank) (envelope : Envelope) (other : Rank)
    (peer : MeshPeer) : MeshPeer :=
  changeAt envelope.source countSend other
    (changeAt destination (deliverTo envelope) other peer)

/-- What a call does to a mesh none of whose members is gone. -/
inductive Exchange.Effect : Exchange → Prop
  /-- The member has given the network up. -/
  | closed {rank : Rank} {call : TransportCall} {answer : TransportAnswer} {mesh : Mesh}
      (finalized : (mesh.peer rank).finalized = true) (traffic : call.isTraffic = true)
      (failed : answer.failed = true) : Effect ⟨rank, call, answer, mesh, mesh⟩
  | probed {rank : Rank} {mesh after : Mesh}
      (opened : (mesh.peer rank).finalized = false)
      (changes : Changes mesh after (changeAt rank stageOldest)) :
      Effect
        ⟨rank, .probe, .probed (.ok ((stageOldest (mesh.peer rank)).staged.map header)),
          mesh, after⟩
  /-- The announced message is not on the stage. -/
  | missed {rank : Rank} {announced : Header} {answer : TransportAnswer} {mesh : Mesh}
      (opened : (mesh.peer rank).finalized = false)
      (absent : ∀ envelope, (mesh.peer rank).staged = some envelope →
        ¬ Announces announced envelope)
      (failed : answer.failed = true) :
      Effect ⟨rank, .receive announced, answer, mesh, mesh⟩
  | taken {rank : Rank} {announced : Header} {envelope : Envelope} {mesh after : Mesh}
      (opened : (mesh.peer rank).finalized = false)
      (staged : (mesh.peer rank).staged = some envelope)
      (announces : Announces announced envelope)
      (changes : Changes mesh after
        (changeAt rank fun peer => { peer with staged := none })) :
      Effect
        ⟨rank, .receive announced, .received (unpack announced envelope), mesh, after⟩
  /-- There is no such destination. -/
  | stray {rank destination : Rank} {tag : Tag} {payload : Payload}
      {answer : TransportAnswer} {mesh : Mesh}
      (opened : (mesh.peer rank).finalized = false) (outside : mesh.size ≤ destination)
      (failed : answer.failed = true) :
      Effect ⟨rank, .send destination tag payload, answer, mesh, mesh⟩
  | sent {rank destination : Rank} {tag : Tag} {payload : Payload} {handle : SendHandle}
      {mesh after : Mesh} (opened : (mesh.peer rank).finalized = false)
      (inside : destination < mesh.size)
      (changes : Changes mesh after (changeBySend destination ⟨tag, rank, payload⟩)) :
      Effect ⟨rank, .send destination tag payload, .sent (.ok handle), mesh, after⟩
  | tested {rank : Rank} {handle : SendHandle} {mesh : Mesh} :
      Effect ⟨rank, .test handle, .tested (.ok true), mesh, mesh⟩
  | finalized {rank : Rank} {mesh after : Mesh}
      (changes : Changes mesh after
        (changeAt rank fun peer => { peer with finalized := true })) :
      Effect ⟨rank, .finalize, .finalized (.ok ()), mesh, after⟩

section Effects

variable {mesh : Mesh} {rank : Rank} {size : Nat}

theorem checkOpen_of_open (opened : (mesh.peer rank).finalized = false) :
    mesh.checkOpen rank = .ok () := by
  simp [checkOpen, opened]

theorem checkOpen_of_closed (finalized : (mesh.peer rank).finalized = true) :
    ∃ error, mesh.checkOpen rank = .error error := by
  simp [checkOpen, finalized]

theorem changes_setPeer (inside : rank < mesh.size) (change : MeshPeer → MeshPeer) :
    Changes mesh (mesh.setPeer rank (change (mesh.peer rank))) (changeAt rank change) := by
  refine ⟨size_setPeer mesh rank _, fun other => ?_⟩
  rw [peer_setPeer inside, changeAt]
  split
  · rename_i own
    rw [own]
  · rfl

theorem Changes.trans {middle after : Mesh} {change next : Rank → MeshPeer → MeshPeer}
    (first : Changes mesh middle change) (second : Changes middle after next) :
    Changes mesh after fun rank peer => next rank (change rank peer) :=
  ⟨second.1.trans first.1, fun other => by rw [second.2, first.2]⟩

/-- What a change of one member leaves alone is left alone everywhere. -/
theorem changeAt_keeps {α : Type} (part : MeshPeer → α) (change : MeshPeer → MeshPeer)
    (kept : ∀ peer, part (change peer) = part peer) (rank other : Rank) (peer : MeshPeer) :
    part (changeAt rank change other peer) = part peer := by
  unfold changeAt
  split
  · exact kept peer
  · rfl

theorem effect_of_closed (finalized : (mesh.peer rank).finalized = true)
    {call : TransportCall} (traffic : call.isTraffic = true) :
    (mesh.exchange rank call).Effect := by
  obtain ⟨error, refused⟩ := checkOpen_of_closed finalized
  cases call with
  | probe | receive | send =>
      simp only [exchange, Transport.perform, transport, probe, receive, send, refused]
      exact .closed finalized traffic rfl
  | test | finalize => cases traffic

theorem effect_probe (inside : rank < mesh.size)
    (opened : (mesh.peer rank).finalized = false) :
    (mesh.exchange rank .probe).Effect := by
  simp only [exchange, Transport.perform, transport, probe, checkOpen_of_open opened]
  exact .probed opened (changes_setPeer inside stageOldest)

theorem receive_of_announced (opened : mesh.checkOpen rank = .ok ()) {announced : Header}
    {envelope : Envelope} (staged : (mesh.peer rank).staged = some envelope)
    (announces : Announces announced envelope) :
    mesh.receive rank announced =
      (unpack announced envelope,
        mesh.setPeer rank { mesh.peer rank with staged := none }) := by
  unfold Announces at announces
  simp only [receive, opened, staged, announces, and_self, ↓reduceIte, unpack]
  split <;> rfl

theorem effect_receive (inside : rank < mesh.size)
    (opened : (mesh.peer rank).finalized = false) (announced : Header) :
    (mesh.exchange rank (.receive announced)).Effect := by
  by_cases found : ∃ envelope, (mesh.peer rank).staged = some envelope ∧
      Announces announced envelope
  · obtain ⟨envelope, staged, announces⟩ := found
    simp only [exchange, Transport.perform, transport,
      receive_of_announced (checkOpen_of_open opened) staged announces]
    exact .taken opened staged announces
      (changes_setPeer inside fun peer => { peer with staged := none })
  · have absent (envelope : Envelope) (staged : (mesh.peer rank).staged = some envelope) :
        ¬ Announces announced envelope :=
      fun announces => found ⟨envelope, staged, announces⟩
    simp only [exchange, Transport.perform, transport, receive, checkOpen_of_open opened]
    cases staged : (mesh.peer rank).staged with
    | none => exact .missed opened absent rfl
    | some envelope =>
        have apart := absent envelope staged
        unfold Announces at apart
        simp only [apart, ↓reduceIte]
        exact .missed opened absent rfl

theorem send_of_reached (whole : Whole size mesh) (opened : mesh.checkOpen rank = .ok ())
    {destination : Rank} (reached : destination < mesh.size) (tag : Tag)
    (payload : Payload) :
    let delivered := mesh.setPeer destination
      (deliverTo ⟨tag, rank, payload⟩ (mesh.peer destination))
    mesh.send rank destination tag payload =
      (.ok ⟨(delivered.peer rank).sent + 1⟩,
        delivered.setPeer rank (countSend (delivered.peer rank))) := by
  rw [send, opened]
  simp only [reached, ↓reduceIte]
  rw [if_neg (by simp [whole.present])]
  rfl

theorem effect_send (whole : Whole size mesh) (inside : rank < mesh.size)
    (opened : (mesh.peer rank).finalized = false) (destination : Rank) (tag : Tag)
    (payload : Payload) : (mesh.exchange rank (.send destination tag payload)).Effect := by
  by_cases reached : destination < mesh.size
  · have arrives := changes_setPeer reached (deliverTo ⟨tag, rank, payload⟩)
    have counts := changes_setPeer (arrives.1.symm ▸ inside) countSend
    simp only [exchange, Transport.perform, transport,
      send_of_reached whole (checkOpen_of_open opened) reached]
    exact .sent opened reached (arrives.trans counts)
  · simp only [exchange, Transport.perform, transport, send, checkOpen_of_open opened,
      reached, ↓reduceIte]
    exact .stray opened (Nat.le_of_not_lt reached) rfl

theorem effect_finalize (inside : rank < mesh.size) :
    (mesh.exchange rank .finalize).Effect :=
  .finalized (changes_setPeer inside fun peer => { peer with finalized := true })

/-- Every call has one of the effects. -/
theorem effect_exchange (whole : Whole size mesh) (inside : rank < size)
    (call : TransportCall) : (mesh.exchange rank call).Effect := by
  rw [← whole.size_eq] at inside
  cases finalized : (mesh.peer rank).finalized with
  | true =>
      cases call with
      | probe | receive | send => exact effect_of_closed finalized rfl
      | test handle => exact .tested
      | finalize => exact effect_finalize inside
  | false =>
      cases call with
      | probe => exact effect_probe inside finalized
      | receive announced => exact effect_receive inside finalized announced
      | send destination tag payload =>
          exact effect_send whole inside finalized destination tag payload
      | test handle => exact .tested
      | finalize => exact effect_finalize inside

end Effects

/-! ## What every call keeps -/

namespace Exchange

/-- The message that a call puts into the inbox of a member. -/
def sentTo? (destination : Rank) (exchange : Exchange) : Option Envelope :=
  match exchange.call, exchange.answer with
  | .send target tag payload, .sent (.ok _) =>
      if target = destination then some ⟨tag, exchange.rank, payload⟩ else none
  | _, _ => none

/-- The message that a call takes from the stage of a member, whether it is then returned
or lost. -/
def takenBy? (receiver : Rank) (exchange : Exchange) : Option Envelope :=
  match exchange.call with
  | .receive _ =>
      if exchange.rank = receiver ∧ (exchange.after.peer receiver).staged = none then
        (exchange.before.peer receiver).staged
      else none
  | _ => none

section Observers

variable {exchange : Exchange}

theorem sentTo?_of_failed (failed : exchange.answer.failed = true) (destination : Rank) :
    exchange.sentTo? destination = none := by
  unfold sentTo?
  split
  · rename_i answer
    rw [answer] at failed
    cases failed
  · rfl

theorem takenBy?_of_kept (kept : exchange.after = exchange.before) (receiver : Rank) :
    exchange.takenBy? receiver = none := by
  unfold takenBy?
  split
  · rw [ite_eq_right_iff]
    rintro ⟨-, cleared⟩
    rw [← kept]
    exact cleared
  · rfl

end Observers

namespace Effect

variable {exchange : Exchange}

/-- No member is gone after a call if none was before. -/
theorem whole {size : Nat} (effect : exchange.Effect)
    (before : Whole size exchange.before) : Whole size exchange.after := by
  obtain ⟨rank, call, answer, mesh, after⟩ := exchange
  simp only at before ⊢
  have of_changes {change : Rank → MeshPeer → MeshPeer} (changes : Changes mesh after change)
      (kept : ∀ other peer, (change other peer).gone = peer.gone) : Whole size after :=
    ⟨changes.1.trans before.size_eq, fun other => by
      rw [changes.2, kept, before.present]⟩
  cases effect with
  | closed | missed | stray | tested => exact before
  | probed _ changes =>
      exact of_changes changes (changeAt_keeps MeshPeer.gone _ gone_stageOldest rank)
  | taken _ _ _ changes | finalized changes =>
      refine of_changes changes (changeAt_keeps MeshPeer.gone _ ?_ rank)
      exact fun _ => rfl
  | sent _ _ changes =>
      refine of_changes changes fun other peer => ?_
      rw [changeBySend, changeAt_keeps MeshPeer.gone countSend fun _ => rfl,
        changeAt_keeps MeshPeer.gone (deliverTo _) fun _ => rfl]

/-- What a call takes comes off the front of what waits for a member, and what it sends
comes to the end. -/
theorem waiting (effect : exchange.Effect) (owner : Rank) :
    (exchange.takenBy? owner).toList ++ (exchange.after.peer owner).waiting =
      (exchange.before.peer owner).waiting ++ (exchange.sentTo? owner).toList := by
  cases effect with
  | closed _ _ failed | missed _ _ failed | stray _ _ failed =>
      rw [sentTo?_of_failed failed, takenBy?_of_kept rfl]
      simp
  | tested =>
      simp [sentTo?, takenBy?]
  | probed _ changes =>
      simp only [sentTo?, takenBy?, changes.2]
      rw [changeAt_keeps MeshPeer.waiting _ waiting_stageOldest]
      simp
  | @taken rank _ envelope mesh after _ staged _ changes =>
      by_cases own : rank = owner
      · subst own
        simp [sentTo?, takenBy?, changes.2, changeAt, staged, MeshPeer.waiting]
      · simp [sentTo?, takenBy?, changes.2, changeAt, own, Ne.symm own]
  | @sent rank destination tag payload _ mesh after _ _ changes =>
      simp only [sentTo?, takenBy?, changes.2, changeBySend]
      rw [changeAt_keeps MeshPeer.waiting countSend fun _ => rfl]
      by_cases own : destination = owner
      · simp [changeAt, own, deliverTo, MeshPeer.waiting]
      · simp [changeAt, own, Ne.symm own]
  | finalized changes =>
      simp only [sentTo?, takenBy?, changes.2]
      rw [changeAt_keeps MeshPeer.waiting (fun peer => { peer with finalized := true })
        fun _ => rfl]
      simp

theorem finalized_iff (effect : exchange.Effect) (owner : Rank) :
    (exchange.after.peer owner).finalized = true ↔
      (exchange.before.peer owner).finalized = true ∨
        exchange.rank = owner ∧ exchange.call = .finalize := by
  cases effect with
  | @closed _ call _ _ _ traffic _ =>
      have other : call ≠ .finalize := by
        rintro rfl
        cases traffic
      simp [other]
  | missed | stray | tested =>
      simp
  | probed _ changes =>
      rw [changes.2, changeAt_keeps MeshPeer.finalized _ finalized_stageOldest]
      simp
  | taken _ _ _ changes =>
      rw [changes.2,
        changeAt_keeps MeshPeer.finalized (fun peer => { peer with staged := none }) fun _ => rfl]
      simp
  | sent _ _ changes =>
      rw [changes.2, changeBySend, changeAt_keeps MeshPeer.finalized countSend fun _ => rfl,
        changeAt_keeps MeshPeer.finalized (deliverTo _) fun _ => rfl]
      simp
  | @finalized rank mesh after changes =>
      simp only [changes.2, changeAt, and_true]
      by_cases own : owner = rank
      · simp [own]
      · simp [own, Ne.symm own]

/-- A message stays on the stage until its member receives. -/
theorem staged (effect : exchange.Effect) {owner : Rank} {envelope : Envelope}
    (quiet : ∀ announced, exchange.call = .receive announced → exchange.rank ≠ owner)
    (staged : (exchange.before.peer owner).staged = some envelope) :
    (exchange.after.peer owner).staged = some envelope := by
  cases effect with
  | closed | missed | stray | tested =>
      exact staged
  | probed _ changes =>
      rw [changes.2, changeAt]
      split
      · simp only at staged
        simp [stageOldest, staged]
      · exact staged
  | taken _ _ _ changes =>
      rw [changes.2, changeAt, if_neg (quiet _ rfl).symm]
      exact staged
  | sent _ _ changes =>
      rw [changes.2, changeBySend, changeAt_keeps MeshPeer.staged countSend fun _ => rfl,
        changeAt_keeps MeshPeer.staged (deliverTo _) fun _ => rfl]
      exact staged
  | finalized changes =>
      rw [changes.2,
        changeAt_keeps MeshPeer.staged (fun peer => { peer with finalized := true }) fun _ => rfl]
      exact staged

/-- A member that has given the network up gets nothing done. -/
theorem kept_of_finalized (effect : exchange.Effect)
    (finalized : (exchange.before.peer exchange.rank).finalized = true)
    (traffic : exchange.call.isTraffic = true) :
    exchange.answer.failed = true ∧ exchange.after = exchange.before := by
  cases effect with
  | closed _ _ failed =>
      exact ⟨failed, rfl⟩
  | probed opened | missed opened | taken opened | stray opened | sent opened =>
      simp [finalized] at opened
  | tested | finalized =>
      cases traffic

/-- A probe reports what it leaves on the stage: the oldest message. -/
theorem probed_of_open (effect : exchange.Effect) (probes : exchange.call = .probe)
    (opened : (exchange.before.peer exchange.rank).finalized = false) :
    exchange.answer = .probed (.ok ((exchange.after.peer exchange.rank).staged.map header)) ∧
      exchange.after.peer exchange.rank =
        stageOldest (exchange.before.peer exchange.rank) := by
  cases effect with
  | closed finalized _ _ =>
      simp [finalized] at opened
  | probed _ changes =>
      have own := changes.2
      simp only [changeAt] at own
      simp [own]
  | missed | taken | stray | sent | tested | finalized =>
      cases probes

section Receiving

variable {announced : Header} (receives : exchange.call = .receive announced)
include receives

theorem takenBy?_iff (effect : exchange.Effect) (envelope : Envelope) :
    exchange.takenBy? exchange.rank = some envelope ↔
      (exchange.before.peer exchange.rank).finalized = false ∧
        (exchange.before.peer exchange.rank).staged = some envelope ∧
          Announces announced envelope := by
  cases effect with
  | closed finalized _ _ =>
      rw [takenBy?_of_kept rfl]
      simp [finalized]
  | missed _ absent _ =>
      cases receives
      rw [takenBy?_of_kept rfl]
      simpa using fun _ => absent envelope
  | taken opened staged announces changes =>
      cases receives
      simp only [takenBy?, changes.2, changeAt, ↓reduceIte, staged, and_self, opened,
        Option.some.injEq, true_and]
      exact ⟨fun same => ⟨same, same ▸ announces⟩, And.left⟩
  | probed | stray | sent | tested | finalized =>
      cases receives

theorem answer_of_taken (effect : exchange.Effect) {envelope : Envelope}
    (taken : exchange.takenBy? exchange.rank = some envelope) :
    exchange.answer = .received (unpack announced envelope) := by
  obtain ⟨opened, staged, announces⟩ := (effect.takenBy?_iff receives envelope).mp taken
  cases effect with
  | closed finalized _ _ =>
      simp [finalized] at opened
  | missed _ absent _ =>
      cases receives
      exact absurd announces (absent envelope staged)
  | taken _ found _ _ =>
      cases receives
      cases found.symm.trans staged
      rfl
  | probed | stray | sent | tested | finalized =>
      cases receives

theorem kept_of_untaken (effect : exchange.Effect)
    (untaken : exchange.takenBy? exchange.rank = none) :
    exchange.answer.failed = true ∧ exchange.after = exchange.before := by
  cases effect with
  | closed _ _ failed | missed _ _ failed =>
      exact ⟨failed, rfl⟩
  | taken opened staged announces changes =>
      cases receives
      simp [takenBy?, changes.2, changeAt, staged] at untaken
  | probed | stray | sent | tested | finalized =>
      cases receives

end Receiving

end Effect

end Exchange

/-! ## Runs of calls -/

/-- A mesh with every call that its members have made, the oldest first. -/
structure History where
  mesh : Mesh
  log : List Exchange

namespace History

def step (history : History) (rank : Rank) (call : TransportCall) : History :=
  let exchange := history.mesh.exchange rank call
  ⟨exchange.after, history.log ++ [exchange]⟩

/-- The members of a fresh mesh make calls, one after another. -/
def run {size : Nat} (calls : List (Fin size × TransportCall)) : History :=
  calls.foldl (fun history (rank, call) => history.step rank call) ⟨ofSize size, []⟩

/-- The messages that have been sent to a member. -/
def sentTo (destination : Rank) (history : History) : List Envelope :=
  history.log.filterMap (Exchange.sentTo? destination)

/-- The messages that a member has taken from its stage. -/
def takenBy (receiver : Rank) (history : History) : List Envelope :=
  history.log.filterMap (Exchange.takenBy? receiver)

section Steps

variable (history : History) (owner rank : Rank) (call : TransportCall)

theorem sentTo_step :
    (history.step rank call).sentTo owner =
      history.sentTo owner ++
        ((history.mesh.exchange rank call).sentTo? owner).toList := by
  rw [sentTo, step, List.filterMap_append, sentTo]
  cases found : (history.mesh.exchange rank call).sentTo? owner <;> simp [found]

theorem takenBy_step :
    (history.step rank call).takenBy owner =
      history.takenBy owner ++
        ((history.mesh.exchange rank call).takenBy? owner).toList := by
  rw [takenBy, step, List.filterMap_append, takenBy]
  cases found : (history.mesh.exchange rank call).takenBy? owner <;> simp [found]

end Steps

section Runs

variable {size : Nat} (calls : List (Fin size × TransportCall))

theorem run_concat (rank : Fin size) (call : TransportCall) :
    run (calls ++ [(rank, call)]) = (run calls).step rank call := by
  simp [run]

theorem whole_run : Whole size (run calls).mesh := by
  induction calls using List.reverseRecOn with
  | nil => exact whole_ofSize size
  | append_singleton calls last inductionHypothesis =>
      obtain ⟨rank, call⟩ := last
      rw [run_concat]
      exact (effect_exchange inductionHypothesis rank.isLt call).whole inductionHypothesis

/-- Every call in a run has one of the effects. -/
theorem effect_run (rank : Fin size) (call : TransportCall) :
    ((run calls).mesh.exchange rank call).Effect :=
  effect_exchange (whole_run calls) rank.isLt call

/-- What a member has taken and what waits for it is what has been sent to it. -/
theorem waiting_run (owner : Rank) :
    (run calls).takenBy owner ++ ((run calls).mesh.peer owner).waiting =
      (run calls).sentTo owner := by
  induction calls using List.reverseRecOn with
  | nil =>
      simp only [run, List.foldl_nil, takenBy, sentTo, List.filterMap_nil, peer, ofSize,
        List.getD, List.getElem?_replicate]
      split <;> rfl
  | append_singleton calls last inductionHypothesis =>
      obtain ⟨rank, call⟩ := last
      have kept := (effect_run calls rank call).waiting owner
      rw [run_concat, takenBy_step, sentTo_step, List.append_assoc, ← inductionHypothesis,
        List.append_assoc]
      exact congrArg _ kept

theorem finalized_run_iff (owner : Fin size) :
    ((run calls).mesh.peer owner).finalized = true ↔ (owner, .finalize) ∈ calls := by
  induction calls using List.reverseRecOn with
  | nil =>
      simp [run, peer, ofSize]
  | append_singleton calls last inductionHypothesis =>
      obtain ⟨rank, call⟩ := last
      have after := (effect_run calls rank call).finalized_iff owner
      rw [run_concat, List.mem_append, ← inductionHypothesis, List.mem_singleton,
        Prod.mk.injEq]
      refine after.trans (or_congr_right (and_congr ?_ eq_comm))
      exact Fin.val_inj.trans eq_comm

/-- A message stays on the stage through calls among which its member does not receive. -/
theorem staged_run_append {owner : Fin size} {envelope : Envelope}
    (staged : ((run calls).mesh.peer owner).staged = some envelope)
    (between : List (Fin size × TransportCall))
    (quiet : ∀ announced, (owner, .receive announced) ∉ between) :
    ((run (calls ++ between)).mesh.peer owner).staged = some envelope := by
  induction between using List.reverseRecOn with
  | nil => simpa using staged
  | append_singleton between last inductionHypothesis =>
      obtain ⟨rank, call⟩ := last
      have earlier := inductionHypothesis fun announced called =>
        quiet announced (List.mem_append_left _ called)
      rw [← List.append_assoc, run_concat]
      refine (effect_run (calls ++ between) rank call).staged ?_ earlier
      rintro announced received own
      refine quiet announced (List.mem_append_right _ (List.mem_singleton.mpr ?_))
      exact Prod.ext (Fin.ext own.symm) received.symm

end Runs

end History

end Mesh

end ParameterServer
