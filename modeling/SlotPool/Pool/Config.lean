import SlotPool.Address.Plan
import SlotPool.Failure.Pool
import SlotPool.Text.Blank
import SlotPool.Text.Numeral
/-!
The configuration of a pool: its defaults, what the environment changes, and what is refused.
-/

namespace SlotPool

/-- How a pool is set up. -/
structure Config where
  /-- how many fresh identities are wanted in stock -/
  newSlots : Nat
  /-- how many returned slots may wait for reuse -/
  reusedSlots : Nat
  /-- how many slots may exist at all -/
  maxSlots : Nat
  /-- the label of this host on its gauges -/
  hostId : String
  /-- where named namespaces are kept -/
  netnsDir : String
  /-- the interface that leads outside; found out when absent -/
  egressInterface : Option String
  /-- the least pause before a failed acquisition is tried again, in milliseconds -/
  backoffMs : Nat
  deriving DecidableEq

/-- Why a configuration is refused. -/
inductive ConfigError
  | noNewSlots
  | noReusedSlots
  | maxSlotsOutOfRange (maxSlots : Nat)
  | noHostId
  deriving DecidableEq

/-- The wording of a refusal. -/
def ConfigError.message : ConfigError → String
  | .noNewSlots => "new_slots must be at least 1"
  | .noReusedSlots => "reused_slots must be at least 1"
  | .maxSlotsOutOfRange n => s!"max_slots must be between 1 and {planSize}, got {n}"
  | .noHostId => "host_id must not be empty"

/-- What a set of environment variables says: the text of each variable that is set. -/
abbrev Environment := String → Option String

namespace Config

/-- The configuration of a host that nothing is said about. `freshId` labels a host without a
    name of its own. -/
def default (freshId : String) : Config where
  newSlots := 32
  reusedSlots := 100
  maxSlots := planSize
  hostId := freshId
  netnsDir := "/var/run/netns"
  egressInterface := none
  backoffMs := 100

/-- The number a variable holds: blank characters at both ends are cut, and a text that is no
    numeral up to `bound` counts as not set. -/
def numberVariable (env : Environment) (bound : Nat) (name : String) : Option Nat :=
  (env name).bind fun text => Text.numeral? bound (Text.trim text.toList)

/-- The text a variable holds, exactly as it stands. An empty text counts as not set. -/
def textVariable (env : Environment) (name : String) : Option String :=
  (env name).filter (· ≠ "")

/-- The defaults, changed by the variables that are set. -/
def ofEnvironment (freshId : String) (env : Environment) : Config :=
  let base := default freshId
  { base with
    newSlots := (numberVariable env Text.maxWord64 "NETPOOL_NEW_SLOTS").getD base.newSlots
    reusedSlots := (numberVariable env Text.maxWord64 "NETPOOL_REUSED_SLOTS").getD base.reusedSlots
    maxSlots := (numberVariable env Text.maxWord32 "NETPOOL_MAX_SLOTS").getD base.maxSlots
    hostId := (textVariable env "NETPOOL_HOST_ID").getD base.hostId
    netnsDir := (textVariable env "NETPOOL_NETNS_DIR").getD base.netnsDir
    egressInterface := textVariable env "NETPOOL_EGRESS_INTERFACE" }

/-- The room in the queue of fresh identities. One more is held ready by the task that fills it. -/
def newQueueCapacity (config : Config) : Nat := max (config.newSlots - 1) 1

/-- The first reason to refuse the configuration, if there is one. -/
def validate (config : Config) : Except ConfigError Unit :=
  if config.newSlots = 0 then .error .noNewSlots
  else if config.reusedSlots = 0 then .error .noReusedSlots
  else if config.maxSlots = 0 ∨ planSize < config.maxSlots then
    .error (.maxSlotsOutOfRange config.maxSlots)
  else if config.hostId = "" then .error .noHostId
  else .ok ()

end Config
end SlotPool
