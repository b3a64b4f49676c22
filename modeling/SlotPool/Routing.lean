import SlotPool.Address.Ipv4
/-!
Routes and packet-filter rules, and how they are written.
-/

namespace SlotPool

/-- A route of the current namespace. Without a destination it is the default route. -/
structure Route where
  destination : Option Cidr
  gateway : Ipv4
  deriving DecidableEq

namespace Route

/-- The destination in words. -/
def destinationText (route : Route) : String :=
  match route.destination with
  | some destination => destination.toText
  | none => "default"

/-- The destination and the gateway. -/
def toText (route : Route) : String := s!"{route.destinationText} via {route.gateway.toText}"

end Route

/-- The packet-filter tables in use. -/
inductive Table
  | filter
  | nat
  deriving DecidableEq

/-- The name of a table. -/
def Table.name : Table → String
  | .filter => "filter"
  | .nat => "nat"

/-- A packet-filter rule: its table, its chain, and the words that say what it matches and does. -/
structure Rule where
  table : Table
  chain : String
  spec : List String
  deriving DecidableEq

/-- A rule as it is listed. -/
def Rule.toText (rule : Rule) : String :=
  s!"-t {rule.table.name} {rule.chain} " ++ String.intercalate " " rule.spec

end SlotPool
