import ParameterServer.TableServer.Basic
import ParameterServer.Text.Json.Form

/-!
# The JSON form of table statistics
-/

namespace ParameterServer

open Text (Json JsonForm)

instance : JsonForm TableStats where
  toJson stats := .record
    [("puts", .ofNat stats.puts), ("gets", .ofNat stats.gets),
      ("updates", .ofNat stats.updates), ("rejected", .ofNat stats.rejected),
      ("checkpoints_due", .ofNat stats.checkpointsDue), ("keys", .ofNat stats.keys)]
  ofJson? json := do
    let fields ← json.fields?
      ["puts", "gets", "updates", "rejected", "checkpoints_due", "keys"]
    let counter (name : String) : Option Nat :=
      fields.required? name (Json.toNatBelow? UInt64.size)
    return ⟨← counter "puts", ← counter "gets", ← counter "updates",
      ← counter "rejected", ← counter "checkpoints_due", ← counter "keys"⟩

end ParameterServer
