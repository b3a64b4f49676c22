/-!
The gauges of a pool and the registry in which pools publish them. Each pool has two gauges under
the label of its host, one for each queue, and a label is taken once.
-/

namespace SlotPool

/-- The two queues from which slots are taken. -/
inductive Source
  | new
  | reused
  deriving DecidableEq

/-- The two values a pool publishes. They are 64-bit words and wrap around. -/
structure Gauges where
  new : Int64
  reused : Int64
  deriving DecidableEq

namespace Gauges

/-- No slot in either queue. -/
def zero : Gauges := ⟨0, 0⟩

/-- Adds to the gauge of one queue. -/
def add (gauges : Gauges) : Source → Int64 → Gauges
  | .new, delta => { gauges with new := gauges.new + delta }
  | .reused, delta => { gauges with reused := gauges.reused + delta }

/-- One slot more. -/
def raise (gauges : Gauges) (source : Source) : Gauges := gauges.add source 1

/-- One slot less. -/
def lower (gauges : Gauges) (source : Source) : Gauges := gauges.add source (-1)

end Gauges

/-- The published name of a queue's gauge. -/
def Source.metricName : Source → String
  | .new => "netpool_new_slots"
  | .reused => "netpool_reused_slots"

/-- What a gauge is about. -/
def Source.metricHelp : Source → String
  | .new => "Network slots waiting in the new-slot queue"
  | .reused => "Network slots waiting in the reused-slot queue"

/-- What is said of a label that is taken. -/
def duplicateRegistration : String := "Duplicate metrics collector registration attempted"

/-- The published gauges: the values of both families by host label, in order of registration. -/
structure Registry where
  new : List (String × Int64)
  reused : List (String × Int64)
  deriving DecidableEq

namespace Registry

/-- A registry without gauges. -/
def empty : Registry := ⟨[], []⟩

/-- The gauges of one family. -/
def family (registry : Registry) : Source → List (String × Int64)
  | .new => registry.new
  | .reused => registry.reused

/-- Replaces the gauges of one family. -/
def setFamily (registry : Registry) (values : List (String × Int64)) : Source → Registry
  | .new => { registry with new := values }
  | .reused => { registry with reused := values }

/-- Publishes one gauge with the value zero, unless its label is taken in its family. -/
def registerOne (source : Source) (host : String) (registry : Registry) : Except String Registry :=
  if (registry.family source).any (·.1 = host) then .error duplicateRegistration
  else .ok (registry.setFamily (registry.family source ++ [(host, 0)]) source)

/-- Publishes both gauges of a host, first that of the new queue. A failure to publish the second
    does not take back the first. -/
def register (host : String) (registry : Registry) : Except String Unit × Registry :=
  match registry.registerOne .new host with
  | .error reason => (.error reason, registry)
  | .ok once =>
    match once.registerOne .reused host with
    | .error reason => (.error reason, once)
    | .ok twice => (.ok (), twice)

/-- Sets the values a host has published. -/
def publish (host : String) (gauges : Gauges) (registry : Registry) : Registry where
  new := registry.new.map fun entry => if entry.1 = host then (host, gauges.new) else entry
  reused := registry.reused.map fun entry => if entry.1 = host then (host, gauges.reused) else entry

/-- The nearest number with at most 53 significant bits, of two equally near the even one. -/
def roundSignificant (value : Int) : Int :=
  let size := value.natAbs
  let unit := 1 <<< (size.log2 - 52)
  let floor := size / unit
  let rest := size % unit
  let rounded := if 2 * rest > unit ∨ (2 * rest = unit ∧ floor % 2 = 1) then floor + 1 else floor
  value.sign * (rounded * unit : Nat)

/-- The value of a gauge as readers see it: they keep 53 significant bits and stop at the largest
    64-bit word. -/
def readValue (value : Int64) : Int := min (roundSignificant value.toInt) Int64.maxValue.toInt

/-- The values of one family by host label, as readers see them. -/
def gather (registry : Registry) (source : Source) : List (String × Int) :=
  (registry.family source).map fun (host, value) => (host, readValue value)

/-- The sum of one family's values over all hosts. -/
def total (registry : Registry) (source : Source) : Int :=
  (registry.gather source).foldl (fun sum entry => sum + entry.2) 0

end Registry
end SlotPool
