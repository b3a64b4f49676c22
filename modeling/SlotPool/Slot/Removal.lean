import SlotPool.Slot.Layout
/-!
Taking the network of a slot away. `remove` undoes what `create` has made. `reap` clears up after a
process that is gone, going by names alone. Both go on past failures, count what is absent as
removed, and leave a slot that remembers nothing.
-/

namespace SlotPool.Slot

open Sequence

/-- A deletion as one named step; an absent thing counts as deleted. -/
def deletion (name : String) (delete : Sequence Unit) : Sequence Unit :=
  step name (tolerant delete)

/-- Closes the firewall of a slot that has one. A namespace that is gone has taken its firewall with
    it. The failures are collected. -/
def closeFirewall : Sequence (List NetworkError) := do
  if (← get).hasFirewall then
    let closed ← attempt (inNamespace (attempt Firewall.close))
    modify fun slot => slot.takeFirewall.2
    match closed with
    | .ok (.ok ()) => pure []
    | .ok (.error failure) => pure [failure]
    | .error failure =>
      pure (if failure.isNotFound then [] else [.step "entering slot namespace" failure])
  else pure []

/-- Removes everything that `create` has made. -/
def remove (egress : String) : Sequence Unit := do
  let id := (← get).id
  let inside ← closeFirewall
  let outside ← attemptAll <|
    (id.hostRules egress).map (fun rule =>
        deletion "deleting host forwarding rule" (perform (.deleteRule rule)))
      ++ [deletion "deleting host route" (perform (.deleteRoute id.hostRoute)),
        deletion "deleting veth" (perform (.deleteLink id.vethName))]
  modify fun slot => slot.clearNetwork.2
  let last ← attemptAll
    [deletion "deleting namespace" (perform (.deleteNamespace id.namespaceName))]
  failWith (inside ++ outside ++ last)

/-- Deletes something only if a probe finds it. -/
def ifFound (probe : Sequence Bool) (delete : Sequence Unit) : Sequence Unit := do
  if ← probe then delete

/-- Removes what an earlier process has left of a slot. -/
def reap (egress : String) : Sequence Unit := do
  let id := (← get).id
  let veth ← attemptAll
    [ifFound (step "probing veth" (perform (.linkExists id.vethName)))
      (deletion "deleting dangling veth" (perform (.deleteLink id.vethName)))]
  modify fun slot => slot.clearNetwork.2
  let rest ← attemptAll <|
    (id.hostRules egress).map (fun rule =>
        deletion "deleting dangling host rule" (perform (.deleteRule rule)))
      ++ [deletion "deleting dangling host route" (perform (.deleteRoute id.hostRoute)),
        ifFound (step "probing namespace" (perform (.namespaceExists id.namespaceName)))
          (deletion "deleting dangling namespace" (perform (.deleteNamespace id.namespaceName)))]
  failWith (veth ++ rest)

end SlotPool.Slot
