import CallContracts.World.Act

/-!
Checking the values of a call against a stage.

The pass goes through the descriptors and the values from left to right. A value that its
descriptor accepts is consumed. An optional descriptor that does not accept is skipped, and its
value is offered to the next one. The pass ends when descriptors or values run out; a call without
values is still asked for the first descriptor, with the null value. A value may also be the marker
of a parameter left out: an optional descriptor skips and consumes it, a required one sees null.

Main definitions: `Verdict`, `Stage.step` and `Stage.verify`.
-/

namespace CallContracts

/-- How the last descriptor of a pass fared. -/
inductive Verdict where
  | accept
  | skip
  deriving Repr, DecidableEq

namespace Stage

/-- How one descriptor fares with the values that are left. -/
def step (accepts : Descriptor → Value → Act Bool) (consumed : Nat) (d : Descriptor)
    (values : List Value) : Act Verdict := do
  let isMarker := values.head?.any Value.isAbsent
  let v := if isMarker then .null else values.head?.getD .null
  if isMarker && d.optional then return .skip
  else if ← accepts d v then return .accept
  else if d.optional then return .skip
  else Act.throw (.typeMismatch d.typeText v consumed)

/-- Whether a descriptor consumes the first of the values that are left. -/
def consumes (verdict : Verdict) (values : List Value) : Bool :=
  verdict == .accept || values.head?.any Value.isAbsent

/-- The pass over the descriptors that are left, `consumed` values being consumed. A stage has at
least one descriptor. -/
def verifyFrom (accepts : Descriptor → Value → Act Bool) (consumed : Nat) (values : List Value) :
    Stage → Act Verdict
  | [] => Act.mishap .index
  | d :: rest => do
    let verdict ← step accepts consumed d values
    let left := if consumes verdict values then values.drop 1 else values
    let consumed := if consumes verdict values then consumed + 1 else consumed
    if rest.isEmpty || left.isEmpty then
      if verdict == .skip && !left.isEmpty then
        Act.throw (.unfulfilledOptional d.typeText left)
      else return verdict
    else verifyFrom accepts consumed left rest

/-- Checks values against a stage. -/
def verify (accepts : Descriptor → Value → Act Bool) (stage : Stage) (values : List Value) :
    Act Verdict :=
  verifyFrom accepts 0 values stage

end Stage

end CallContracts
