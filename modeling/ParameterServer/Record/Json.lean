import ParameterServer.Record
import ParameterServer.Text.Json.Form

/-!
# JSON forms of records

The records that may stand in JSON texts, with the selectors and tags that go with
them.
-/

namespace ParameterServer

open Text (Json JsonForm)

instance : JsonForm Source where
  toJson
    | .any => .ofText "Any"
    | .rank rank => .record [("Rank", .ofNat rank)]
  ofJson? json :=
    match json.alternative? with
    | some ("Any", none) | some ("Any", some .null) => some .any
    | some ("Rank", some contents) => .rank <$> contents.toNatBelow? UInt64.size
    | _ => none

instance : JsonForm Tag where
  toJson tag := .ofInt tag.code
  ofJson? json := do
    let code ← json.toInt?
    if -2147483648 ≤ code ∧ code ≤ 2147483647 then some ⟨code⟩ else none

instance : JsonForm GetRequest where
  toJson request := .record [("key", .ofText request.key)]
  ofJson? json := do
    let fields ← json.fields? ["key"]
    return ⟨← fields.required? "key" Json.toText?⟩

instance : JsonForm PutResponse where
  toJson response :=
    .record [("key", .ofText response.key), ("accepted", .bool response.accepted)]
  ofJson? json := do
    let fields ← json.fields? ["key", "accepted"]
    return ⟨← fields.required? "key" Json.toText?,
      ← fields.required? "accepted" Json.toBool?⟩

/-- A shard and its owner, as a pair. -/
def ShardAssignment.pair? (json : Json) : Option (UInt32 × UInt64) :=
  match json with
  | .array [shard, owner] => do return (← shard.toUInt32?, ← owner.toUInt64?)
  | _ => none

instance : JsonForm ShardAssignment where
  toJson assignment :=
    let pair (entry : UInt32 × UInt64) : Json :=
      .array [.ofNat entry.1.toNat, .ofNat entry.2.toNat]
    .record [("table", .ofNat assignment.table.toNat),
      ("assignments", .array (assignment.assignments.map pair))]
  ofJson? json := do
    let fields ← json.fields? ["table", "assignments"]
    let pairs (items : Json) : Option (List (UInt32 × UInt64)) := do
      (← items.toItems?).mapM ShardAssignment.pair?
    return ⟨← fields.required? "table" Json.toUInt32?,
      ← fields.required? "assignments" pairs⟩

instance : JsonForm EmptyMessage where
  toJson _ := .null
  ofJson?
    | .null => some ⟨⟩
    | _ => none

end ParameterServer
