import SlotPool.World.Basic
/-!
How the machine in memory answers each call. A call that fails changes nothing.
-/

namespace SlotPool.World

open NetworkError

/-- A refusal because the thing to be made is there already. -/
def alreadyThere (line : String) : NetworkError := .command line "File exists"

/-- Changes the current namespace, if it is still there and the change succeeds. -/
def edit (world : World) (change : Namespace → Except NetworkError Namespace) :
    Except NetworkError Unit × World :=
  match world.namespaces[world.current]? with
  | none => (.error (.notFound world.current), world)
  | some ns =>
    match change ns with
    | .error failure => (.error failure, world)
    | .ok changed => (.ok (), world.setNamespace world.current changed)

/-- Opens a namespace by name. -/
def openNamed (world : World) (name : String) : Except NetworkError Handle × World :=
  if name ∈ world.namespaces then (.ok ⟨name, true⟩, world) else (.error (.notFound name), world)

/-- Moves the thread. Only the label of the handle counts. -/
def enter (world : World) (target : Handle) : Except NetworkError Unit × World :=
  if target.label ∈ world.namespaces then (.ok (), { world with current := target.label })
  else (.error (.notFound target.label), world)

/-- Makes a namespace and moves the thread into it. -/
def createNamed (world : World) (name : String) : Except NetworkError Handle × World :=
  if name ∈ world.namespaces then (.error (alreadyThere s!"netns add {name}"), world)
  else (.ok ⟨name, true⟩, { world.setNamespace name .bare with current := name })

/-- Deletes a namespace with all that is in it, and with it the other ends of its cables. The host's
    own namespace has no name to be deleted by. -/
def deleteNamed (world : World) (name : String) : Except NetworkError Unit × World :=
  if name = hostNamespace then (.error (.notFound name), world)
  else
    match world.namespaces[name]? with
    | none => (.error (.notFound name), world)
    | some ns =>
      (.ok (), ns.links.keys.foldl dropPeer
        { world with namespaces := world.namespaces.erase name })

/-- Makes a cable with both ends in the current namespace. -/
def layCable (world : World) (name peer : String) : Except NetworkError Unit × World :=
  match world.namespaces[world.current]? with
  | none => (.error (.notFound world.current), world)
  | some ns =>
    if name ∈ ns.links ∨ peer ∈ ns.links then
      (.error (alreadyThere s!"link add {name} peer {peer}"), world)
    else
      let links := (ns.links.insert name .plain).insert peer .plain
      let world := world.setNamespace world.current { ns with links }
      (.ok (), { world with peers := (world.peers.insert name peer).insert peer name })

/-- Makes a tap device. -/
def addTap (name : String) (ns : Namespace) : Except NetworkError Namespace :=
  if name ∈ ns.links then .error (alreadyThere s!"tuntap add {name}")
  else .ok { ns with links := ns.links.insert name .plain }

/-- Sets a link up. -/
def setLinkUp (name : String) (ns : Namespace) : Except NetworkError Namespace :=
  match ns.links[name]? with
  | none => .error (.notFound name)
  | some link => .ok { ns with links := ns.links.insert name { link with up := true } }

/-- Gives a link one address more. -/
def addAddress (name : String) (address : Cidr) (ns : Namespace) :
    Except NetworkError Namespace :=
  match ns.links[name]? with
  | none => .error (.notFound name)
  | some link =>
    if address ∈ link.addresses then
      .error (alreadyThere s!"addr add {address.toText} dev {name}")
    else
      let link := { link with addresses := link.addresses ++ [address] }
      .ok { ns with links := ns.links.insert name link }

/-- Moves a link into another namespace, where it arrives down and without addresses. A link of the
    same name there is lost. -/
def moveLink (world : World) (name : String) (target : Handle) :
    Except NetworkError Unit × World :=
  if target.label ∉ world.namespaces then (.error (.notFound target.label), world)
  else
    match world.namespaces[world.current]? with
    | none => (.error (.notFound name), world)
    | some ns =>
      if name ∉ ns.links then (.error (.notFound name), world)
      else
        let namespaces := world.namespaces.insert world.current (ns.dropLink name)
        let namespaces := namespaces.modify target.label fun ns =>
          { ns with links := ns.links.insert name .plain }
        (.ok (), { world with namespaces })

/-- Deletes a link of the current namespace, and with it the other end of its cable. -/
def deleteLink (world : World) (name : String) : Except NetworkError Unit × World :=
  match world.namespaces[world.current]? with
  | none => (.error (.notFound name), world)
  | some ns =>
    if name ∉ ns.links then (.error (.notFound name), world)
    else (.ok (), (world.setNamespace world.current (ns.dropLink name)).dropPeer name)

/-- Adds a route that is not there yet. -/
def addRoute (route : Route) (ns : Namespace) : Except NetworkError Namespace :=
  if route ∈ ns.routes then .error (alreadyThere s!"route add {route.toText}")
  else .ok { ns with routes := ns.routes ++ [route] }

/-- Deletes a route. -/
def deleteRoute (route : Route) (ns : Namespace) : Except NetworkError Namespace :=
  if route ∈ ns.routes then .ok { ns with routes := ns.routes.erase route }
  else .error (.notFound route.toText)

/-- Adds a rule at the end, even if there is one like it. -/
def appendRule (rule : Rule) (ns : Namespace) : Except NetworkError Namespace :=
  if ns.hasChain rule.table rule.chain then .ok { ns with rules := ns.rules ++ [rule] }
  else .error (.notFound rule.chain)

/-- Deletes the first rule like the given one. -/
def deleteRule (rule : Rule) (ns : Namespace) : Except NetworkError Namespace :=
  if rule ∈ ns.rules then .ok { ns with rules := ns.rules.erase rule }
  else .error (.notFound rule.toText)

/-- Makes a chain. -/
def newChain (table : Table) (chain : String) (ns : Namespace) : Except NetworkError Namespace :=
  if ns.hasChain table chain then .error (alreadyThere s!"-N {chain}")
  else .ok { ns with chains := ns.chains ++ [(table, chain)] }

/-- Deletes the rules of a chain. -/
def flushChain (table : Table) (chain : String) (ns : Namespace) :
    Except NetworkError Namespace :=
  if ns.hasChain table chain then
    .ok { ns with rules := ns.rules.filter fun rule => !(rule.table = table ∧ rule.chain = chain) }
  else .error (.notFound chain)

/-- A rule that keeps a chain from being deleted: it is in the chain, or its last word names it. -/
def keepsChain (table : Table) (chain : String) (rule : Rule) : Bool :=
  rule.table = table && (rule.chain = chain || rule.spec.getLast? = some chain)

/-- Deletes a chain that was made, has no rules and is not used by any. -/
def deleteChain (table : Table) (chain : String) (ns : Namespace) :
    Except NetworkError Namespace :=
  if !ns.chains.contains (table, chain) then .error (.notFound chain)
  else if ns.rules.any (keepsChain table chain) then
    .error (.command s!"-X {chain}" "Directory not empty")
  else .ok { ns with chains := ns.chains.erase (table, chain) }

/-- The answer to a call, and the world after it. -/
def answer (world : World) : (call : Call) → Except NetworkError call.Reply × World
  | .currentNamespace => (.ok ⟨world.current, true⟩, world)
  | .enterNamespace target => world.enter target
  | .openNamespace name => world.openNamed name
  | .createNamespace name => world.createNamed name
  | .deleteNamespace name => world.deleteNamed name
  | .namespaceExists name => (.ok (name ≠ hostNamespace ∧ name ∈ world.namespaces), world)
  | .linkExists name =>
    match world.namespaces[world.current]? with
    | none => (.error (.notFound world.current), world)
    | some ns => (.ok (name ∈ ns.links), world)
  | .addVethPair name peer => world.layCable name peer
  | .addTap name => world.edit (addTap name)
  | .setLinkUp name => world.edit (setLinkUp name)
  | .addAddress link address => world.edit (addAddress link address)
  | .moveLink link target => world.moveLink link target
  | .deleteLink name => world.deleteLink name
  | .addRoute route => world.edit (addRoute route)
  | .deleteRoute route => world.edit (deleteRoute route)
  | .appendRule rule => world.edit (appendRule rule)
  | .deleteRule rule => world.edit (deleteRule rule)
  | .newChain table chain => world.edit (newChain table chain)
  | .flushChain table chain => world.edit (flushChain table chain)
  | .deleteChain table chain => world.edit (deleteChain table chain)
  | .egressInterface => (.ok outsideInterface, world)

/-- The machine in memory. It answers every call. -/
def machine : Machine World where
  answer call world :=
    let (result, after) := world.answer call
    (.returned result, after)

end SlotPool.World
