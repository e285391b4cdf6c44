import NativeLink.Util.StoreTrait
import Mathlib

-- `nativelink-util/src/platform_properties.rs`: the properties an action asks for and a worker
-- offers, and when a worker's satisfy an action's. A `Minimum` value is a `u64` count of a
-- resource; the worker scheduler subtracts an action's counts from its worker's while the action
-- runs there.

namespace NativeLink

-- `PlatformPropertyValue`.
inductive PlatformPropertyValue
  | exact (value : String)
  | minimum (value : UInt64)
  | priority (value : String)
  | unknown (value : String)
  deriving DecidableEq, Repr

-- `PlatformPropertyValue::is_satisfied_by`.
def PlatformPropertyValue.isSatisfiedBy (self workerValue : PlatformPropertyValue) : Bool :=
  if self = workerValue then true
  else
    match self with
    | .minimum v =>
      match workerValue with
      | .minimum workerV => decide (workerV ≥ v)
      | _ => false
    -- a priority is information for the worker and restricts nothing
    | .priority _ => true
    | .exact _ | .unknown _ => false

-- `PlatformProperties`: its map from property names to values.
structure PlatformProperties where
  properties : AList (fun _ : String => PlatformPropertyValue)

-- `PlatformProperties::is_satisfied_by`: every property asked for is offered with a value that
-- satisfies it. The loop returns at the first failing property; which one it meets first does not
-- change the answer.
def PlatformProperties.isSatisfiedBy (self workerProperties : PlatformProperties) : Bool :=
  self.properties.entries.all fun ⟨property, checkValue⟩ =>
    match workerProperties.properties.lookup property with
    | some workerValue => checkValue.isSatisfiedBy workerValue
    | none => false

end NativeLink
