import ParameterServer.Message

/-!
# Transports

What a member needs of the network that carries its messages.  A transport is a
record of operations on a state `σ`, which can be the whole network, one member's
share of it or a script.
-/

namespace ParameterServer

/-- What is known of a message before it is received. -/
structure Header where
  source : Rank
  tag : Tag
  /-- The advertised number of payload bytes. -/
  length : Nat
deriving DecidableEq, Repr

/-- A send that the network has accepted. -/
structure SendHandle where
  id : Nat
deriving DecidableEq, Repr

/-- The operations of one member on the network; every one of them may fail. -/
structure Transport (σ : Type) where
  /-- Looks for a message, from anyone and with any tag, without receiving it. -/
  probe : σ → Except Error (Option Header) × σ
  /-- Receives the message that a probe has announced. -/
  receive : Header → σ → Except Error Payload × σ
  /-- Hands a message over, without waiting until it has arrived. -/
  send : (destination : Rank) → Tag → Payload → σ → Except Error SendHandle × σ
  /-- Asks whether a send is complete. -/
  test : SendHandle → σ → Except Error Bool × σ
  /-- Gives the network up. -/
  finalize : σ → Except Error Unit × σ

end ParameterServer
