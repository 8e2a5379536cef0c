import ParameterServer.Tag

/-!
# Kinds of tags

Requests are the three scheduled tags; no control tag is among them, and all of them
are known.
-/

namespace ParameterServer.Tag

variable {tag : Tag}

theorem isRequest_iff :
    tag.isRequest = true ↔
      tag = .putRequest ∨ tag = .getRequest ∨ tag = .updateRequest := by
  unfold isRequest
  split <;> simp_all

theorem isControl_iff :
    tag.isControl = true ↔
      tag = .shardAssignment ∨ tag = .workerShutdown := by
  unfold isControl
  split <;> simp_all

theorem isRequest_of_isControl (control : tag.isControl = true) :
    tag.isRequest = false := by
  rcases isControl_iff.mp control with rfl | rfl <;> rfl

theorem isRequest_of_unknown (unknown : tag.isKnown = false) :
    tag.isRequest = false := by
  rw [Bool.eq_false_iff]
  intro request
  rcases isRequest_iff.mp request with rfl | rfl | rfl <;> cases unknown

end ParameterServer.Tag
