import ParameterServer.Handler.Accumulate
import ParameterServer.Handler.Overwrite
import ParameterServer.Handler.Picky

/-!
# The stock of handlers

The handlers of the library as one state machine, so that a registry can hold any of
them.
-/

namespace ParameterServer

/-- The state of one of the library's handlers. -/
inductive StockHandler where
  | accumulate (state : Accumulate)
  | overwrite (state : Overwrite)
  | picky (state : Picky)
deriving DecidableEq, Repr

namespace StockHandler

/-- A handler of the given kind before its setup. -/
def ofKind? : String → Option StockHandler
  | "accumulate" => some (.accumulate {})
  | "overwrite" => some (.overwrite {})
  | "picky" => some (.picky {})
  | _ => none

def setup (config : TableConfig) : StockHandler → Except Error StockHandler
  | accumulate state => accumulate <$> Accumulate.handler.setup config state
  | overwrite state => overwrite <$> Overwrite.handler.setup config state
  | picky state => picky <$> Picky.handler.setup config state

def put (key : String) (target incoming : ParamValue) :
    StockHandler → Verdict StockHandler
  | accumulate state => (Accumulate.handler.put key target incoming state).map accumulate
  | overwrite state => (Overwrite.handler.put key target incoming state).map overwrite
  | picky state => (Picky.handler.put key target incoming state).map picky

def get (key : String) (stored out : ParamValue) : StockHandler → Verdict StockHandler
  | accumulate state => (Accumulate.handler.get key stored out state).map accumulate
  | overwrite state => (Overwrite.handler.get key stored out state).map overwrite
  | picky state => (Picky.handler.get key stored out state).map picky

def update (target incoming : ParamValue) : StockHandler → Verdict StockHandler
  | accumulate state => (Accumulate.handler.update target incoming state).map accumulate
  | overwrite state => (Overwrite.handler.update target incoming state).map overwrite
  | picky state => (Picky.handler.update target incoming state).map picky

def checkpointNow (key : String) (value : ParamValue) :
    StockHandler → Bool × StockHandler
  | accumulate state => (Accumulate.handler.checkpointNow key value state).map id accumulate
  | overwrite state => (Overwrite.handler.checkpointNow key value state).map id overwrite
  | picky state => (Picky.handler.checkpointNow key value state).map id picky

/-- The handler that behaves as the one in its state does. -/
def handler : ValueHandler StockHandler where
  name
    | accumulate state => Accumulate.handler.name state
    | overwrite state => Overwrite.handler.name state
    | picky state => Picky.handler.name state
  setup := setup
  put := put
  get := get
  update := update
  checkpointNow := checkpointNow

end StockHandler

end ParameterServer
