import SlotPool.Operator.Run
/-!
The operator's tool as a program. It has no access to other programs, and so sees a machine on which
none are installed and on which it may change nothing.
-/

namespace SlotPool

/-- The machine that the tool sees. -/
def bareMachine : Linux.Host where
  kernel := .unprivileged
  files := .usual
  directory := []
  path := ""
  tools := ⟨false, []⟩
  egress := none
  current := hostNamespace
  runs := []

/-- The variables that the tool reads. -/
def settingNames : List String :=
  ["NETPOOL_NEW_SLOTS", "NETPOOL_REUSED_SLOTS", "NETPOOL_MAX_SLOTS", "NETPOOL_HOST_ID",
    "NETPOOL_NETNS_DIR", "NETPOOL_EGRESS_INTERFACE"]

end SlotPool

/-- Reads the environment, runs the tool, and writes what it has to say. -/
def main (words : List String) : IO UInt32 := do
  let mut env : List (String × String) := []
  for name in SlotPool.settingNames do
    if let some text ← IO.getEnv name then env := (name, text) :: env
  match SlotPool.Operator.run words (fun name => env.lookup name) SlotPool.bareMachine with
  | (some ending, _) =>
    IO.print ending.stdout
    IO.eprint ending.stderr
    match ending.status with
    | .code number => pure number.toUInt32
    | .aborted => pure 134
  | (none, _) => pure 1
