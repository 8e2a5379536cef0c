import ParameterServer.Engine.Bindings
import ParameterServer.TableServer.Basic

/-!
# Table servers on an engine

A table server is bound to the three request tags, and sends every reply to the
member that asked.
-/

namespace ParameterServer.TableServer

variable {η ω : Type}

/-- Answers a request and queues the reply. -/
def requestHandler (handler : ValueHandler η) : Handler (TableServer η) :=
  fun _ request server =>
    let (reply, answered) := server.answer handler request
    .send request.source reply.tag reply.payload fun outcome =>
      .done (outcome, answered)

/-- Binds the server that is a part of the memory to the put, the get and the update
tag. -/
def bind (handler : ValueHandler η) (part : ω → TableServer η)
    (replace : TableServer η → ω → ω) (bindings : Bindings ω) :
    Except Error (Bindings ω) :=
  [Tag.putRequest, Tag.getRequest, Tag.updateRequest].foldlM
    (fun bound tag =>
      bound.onRequest tag (Handler.focus part replace (requestHandler handler)))
    bindings

end ParameterServer.TableServer
