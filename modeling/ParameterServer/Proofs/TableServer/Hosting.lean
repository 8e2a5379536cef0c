import ParameterServer.Proofs.Engine.Schedule
import ParameterServer.Proofs.TableServer.Binding
import ParameterServer.Proofs.TableServer.Reference

/-!
# A member that hosts a table server

A table server that is bound to the request tags of a member answers every request
that the member serves, and nothing else touches its table.  The table and the replies
are therefore those of the sequential maps of the keys.
-/

namespace ParameterServer

variable {η ω : Type}

open Observation

namespace TableServer

/-- A table server that is bound to the bindings of a member.  It is a part of the
memory, which no callback touches. -/
structure Resident (handler : ValueHandler η) (part : ω → TableServer η)
    (replace : TableServer η → ω → ω) (bindings : Bindings ω) : Prop where
  bound : ∃ base, bind handler part replace base = .ok bindings
  focused : ∀ server memory, part (replace server memory) = server
  untouched : ∀ tag callback, bindings.callback? tag = some callback →
    ∀ (engine : Engine) (message : Message) (memory : ω),
      part (engine.run (callback engine.seat message memory)).1 = part memory

namespace Resident

variable {handler : ValueHandler η} {part : ω → TableServer η}
  {replace : TableServer η → ω → ω} {bindings : Bindings ω}

theorem handler? (resident : Resident handler part replace bindings) {tag : Tag}
    (request : tag.isRequest = true) :
    bindings.handler? tag = some (focusedHandler handler part replace) := by
  obtain ⟨base, bound⟩ := resident.bound
  exact handler?_of_bind handler part replace bound request

theorem servesRequests (resident : Resident handler part replace bindings) :
    bindings.ServesRequests := by
  intro tag request
  simp [resident.handler? request]

end Resident

/-- A fresh table server that accumulates. -/
def sole : TableServer StockHandler where
  handler := .accumulate {}

/-- The bindings of a member whose memory is a table server and nothing else. -/
def soleBindings : Bindings (TableServer StockHandler) where
  handlers := [Tag.putRequest, .getRequest, .updateRequest].map fun tag =>
    (tag, focusedHandler StockHandler.handler id fun server _ => server)

theorem resident_sole :
    Resident StockHandler.handler id (fun server _ => server) soleBindings where
  bound := ⟨{}, rfl⟩
  focused _ _ := rfl
  untouched _ _ found := by simp [soleBindings, Bindings.callback?] at found

/-! ## All requests -/

variable {part : ω → TableServer StockHandler}
  {replace : TableServer StockHandler → ω → ω} {bindings : Bindings ω}

/-- The table and the replies are those of the sequential maps of the keys. -/
structure Keeps (seat : Seat) (policy : StockHandler)
    (part : ω → TableServer StockHandler) (seen : List Observation)
    (host : Host ω) : Prop where
  place : host.engine.seat = seat
  active : host.engine.active = true
  handler : (part host.memory).handler = policy
  replies : ∀ key,
    servedFor key seen =
      (Entry.trace policy key none ((servedFor key seen).map Prod.fst)).map
        fun answered => (answered.1, sendsOf seat answered.1 answered.2)
  values : ∀ key,
    (part host.memory).value? key =
      Entry.after policy key none ((servedFor key seen).map Prod.fst)

namespace Keeps

variable {seat : Seat} {policy : StockHandler} {seen noted : List Observation}
  {host after : Host ω}

theorem start (config : EngineConfig) (seat : Seat) {memory : ω}
    (fresh : (part memory).table = []) :
    Keeps seat (part memory).handler part [] ⟨.atSeat config seat true, memory⟩ where
  place := rfl
  active := rfl
  handler := rfl
  replies _ := rfl
  values key := by
    simp [value?, fresh, servedFor, servings, Entry.after]

theorem congr (keeps : Keeps seat policy part seen host)
    (frame : after.engine.seat = host.engine.seat ∧
      after.engine.active = host.engine.active)
    (memory : part after.memory = part host.memory) (served : servings noted = []) :
    Keeps seat policy part (seen ++ noted) after := by
  have same (key : String) : servedFor key (seen ++ noted) = servedFor key seen := by
    simp [servedFor, served]
  refine ⟨frame.1.trans keeps.place, frame.2.trans keeps.active,
    by rw [memory, keeps.handler], ?_, ?_⟩
  · intro key
    rw [same]
    exact keeps.replies key
  · intro key
    rw [same, memory]
    exact keeps.values key

theorem serve (resident : Resident StockHandler.handler part replace bindings)
    (builtIn : policy.BuiltIn)
    (keeps : Keeps seat policy part seen host)
    (frame : after.engine.seat = host.engine.seat ∧
      after.engine.active = host.engine.active)
    (request : Request)
    (memory : after.memory =
      replace ((part host.memory).answer StockHandler.handler request).2
        host.memory) :
    Keeps seat policy part
      (seen ++
        [.served request
          (sendsOf seat request
            ((part host.memory).answer StockHandler.handler request).1)]) after := by
  have server : part after.memory =
      ((part host.memory).answer StockHandler.handler request).2 := by
    rw [memory, resident.focused]
  have answers := answers_answer (keeps.handler.symm ▸ builtIn) request
  rw [keeps.handler, keeps.values] at answers
  refine ⟨frame.1.trans keeps.place, frame.2.trans keeps.active,
    by rw [server, answers.handler, keeps.handler], ?_, ?_⟩
  · intro key
    by_cases own : request.key = key
    · subst key
      simp only [servedFor_served, ↓reduceIte, List.map_append, List.map_cons,
        List.map_nil, Entry.trace_append, ← keeps.replies]
      simp [Entry.trace, answers.reply]
    · simpa [servedFor_served, own] using keeps.replies key
  · intro key
    rw [server, answers.value]
    by_cases own : request.key = key
    · subst key
      simp [servedFor_served, Entry.after_concat]
    · simpa [servedFor_served, own, Ne.symm own] using keeps.values key

/-- Every reply is that of the key's map after the requests served before. -/
theorem sends_of_split (keeps : Keeps seat policy part seen host) {key : String}
    {before rest : List (Request × List Outgoing)} {request : Request}
    {sends : List Outgoing}
    (split : servedFor key seen = before ++ (request, sends) :: rest) :
    sends = sendsOf seat request
      (Entry.step policy key request.action
        (Entry.after policy key none (before.map Prod.fst))).1 := by
  have replies := keeps.replies key
  simp only [split, List.map_append, List.map_cons, Entry.trace_append,
    Entry.trace] at replies
  obtain ⟨_, later⟩ := List.append_inj replies (by simp [Entry.length_trace])
  exact (Prod.mk.inj (List.cons.inj later).1).2

end Keeps

/-- Whatever the member does, its table server keeps to the maps of the keys. -/
theorem keeps_move (resident : Resident StockHandler.handler part replace bindings)
    {policy : StockHandler} (builtIn : policy.BuiltIn) {seat : Seat}
    {seen noted : List Observation} {host after : Host ω} (move : Host.Move bindings host noted after)
    (keeps : Keeps seat policy part seen host) :
    Keeps seat policy part (seen ++ noted) after := by
  have frame := move.frame
  cases move with
  | finalize | stop | deliver | miss | drop | take => exact keeps.congr frame rfl rfl
  | accept sends => exact keeps.congr frame rfl (servings_accepted sends)
  | remember callback message engine bound =>
      exact keeps.congr frame
        (resident.untouched message.tag callback bound engine message host.memory) rfl
  | serve message queue handler request asked live bound read =>
      obtain rfl : focusedHandler StockHandler.handler part replace = handler :=
        Option.some.inj <| (resident.handler?
          (Request.isRequest_of_ofMessage read)).symm.trans bound
      have sent := acceptedSends_focusedHandler StockHandler.handler part replace
        { host.engine with queue } keeps.active live request host.memory
      rw [sent, keeps.place]
      exact keeps.serve resident builtIn frame request rfl

/-- A member that keeps to its schedule, with a table server that keeps to the maps of
the keys. -/
structure Serves (config : EngineConfig) (seat : Seat) (policy : StockHandler)
    (part : ω → TableServer StockHandler) (seen : List Observation)
    (host : Host ω) : Prop where
  schedules : host.engine.Schedules config seen
  keeps : Keeps seat policy part seen host

namespace Serves

variable {config : EngineConfig} {seat : Seat} {policy : StockHandler}
  {seen noted : List Observation} {host after : Host ω}

theorem start (config : EngineConfig) (seat : Seat) {memory : ω}
    (fresh : (part memory).table = []) :
    Serves config seat (part memory).handler part []
      ⟨.atSeat config seat true, memory⟩ :=
  ⟨.atSeat config seat, .start config seat fresh⟩

theorem move (resident : Resident StockHandler.handler part replace bindings)
    (builtIn : policy.BuiltIn)
    (move : Host.Move bindings host noted after)
    (serves : Serves config seat policy part seen host) :
    Serves config seat policy part (seen ++ noted) after :=
  ⟨move.schedules resident.servesRequests serves.schedules,
    keeps_move resident builtIn move serves.keeps⟩

theorem transmit (sends : SendTracker)
    (serves : Serves config seat policy part seen host) :
    Serves config seat policy part seen
      { host with engine := { host.engine with sends } } :=
  ⟨⟨serves.schedules.closed, serves.schedules.rounds, serves.schedules.tracked⟩,
    ⟨serves.keeps.place, serves.keeps.active, serves.keeps.handler,
      serves.keeps.replies, serves.keeps.values⟩⟩

end Serves

end TableServer

end ParameterServer
