/-!
# Ranks

A group of `size` members numbers them `0, 1, ..., size - 1`.  A read names the
members it accepts a message from by a `Source`.
-/

namespace ParameterServer

/-- A member of the group, counted from zero. -/
abbrev Rank := Nat

/-- The members a read accepts a message from. -/
inductive Source where
  | any
  | rank (rank : Rank)
deriving DecidableEq, Repr

namespace Source

/-- The written form: `any`, or the rank in decimal. -/
def describe : Source → String
  | any => "any"
  | rank only => toString only

end Source

end ParameterServer
