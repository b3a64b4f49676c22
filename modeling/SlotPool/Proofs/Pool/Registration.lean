import SlotPool.Proofs.Pool.Published
/-!
What becomes of a registry, whoever registers with it and whatever is done to the gauges. A registration takes both of
a host's gauges or neither, since the two families have the same labels at any time: a label that is free in one is
free in the other. So a refusal leaves no trace, and each gauge has the value that its own host has given to it.
-/

namespace SlotPool

/-- What is done to a gauge by whoever has registered it. -/
inductive Change
  | set (value : Int64)
  | add (delta : Int64)

/-- The value of a gauge after a change. -/
def Change.apply : Change → Int64 → Int64
  | .set value, _ => value
  | .add delta, value => value + delta

namespace Gauges

/-- Changes the gauge of one queue. -/
def change (gauges : Gauges) : Source → Change → Gauges
  | .new, .set value => { gauges with new := value }
  | .reused, .set value => { gauges with reused := value }
  | source, .add delta => gauges.add source delta

theorem reading_change (gauges : Gauges) (source other : Source) (change : Change) :
    (gauges.change source change).reading other =
      if other = source then change.apply (gauges.reading other) else gauges.reading other := by
  cases change with
  | set value => cases source <;> cases other <;> rfl
  | add delta => cases source <;> cases other <;> simp [Gauges.change, reading_add, Change.apply]

end Gauges

/-- What has happened to a registry, as those who use it know it. -/
inductive Happening
  /-- a host has registered, by itself or as a pool was opened -/
  | registered (host : String)
  /-- a host was refused, by itself or as a pool was opened -/
  | refused (host : String)
  /-- the opening of a pool has ended before it came to a registration -/
  | unopened
  /-- a host has changed one of its gauges -/
  | changed (host : String) (source : Source) (change : Change)

namespace Happening

/-- The host that has registered. -/
def host? : Happening → Option String
  | .registered host => some host
  | _ => none

/-- What the opening of a pool is for the registry. A pool whose queues are too large comes to nothing only after its
    gauges are registered. -/
def ofOpening (host : String) : Except Pool.Breakdown (Except PoolError Pool) → Happening
  | .ok (.ok _) | .error .oversizedQueue => .registered host
  | .ok (.error (.metrics _)) => .refused host
  | .ok (.error _) | .error .threadStopped => .unopened

/-- The value that a host has given to a gauge, if this was its value before. -/
def settle (host : String) (source : Source) (value : Int64) : Happening → Int64
  | .changed owner queue change => if host = owner ∧ source = queue then change.apply value else value
  | _ => value

end Happening

/-- The hosts that have registered, the earliest first. -/
def hosts (past : List Happening) : List String := past.filterMap Happening.host?

/-- The value that a host has given to a gauge by its own changes, from zero on. -/
def tally (past : List Happening) (host : String) (source : Source) : Int64 :=
  past.foldl (Happening.settle host source) 0

/-- The gauges that a host has published. -/
def Registry.gauges? (registry : Registry) (host : String) : Option Gauges :=
  match registry.new.lookup host, registry.reused.lookup host with
  | some new, some reused => some ⟨new, reused⟩
  | _, _ => none

/-- A registry that was empty once, after all that has happened to it since: registrations of any hosts, openings of
    pools on any machines, and changes of gauges by the hosts that have registered them. -/
inductive Course : List Happening → Registry → Prop
  | start : Course [] .empty
  | registered {past : List Happening} {registry after : Registry} {host : String} (hpast : Course past registry)
    (hregister : registry.register host = (.ok (), after)) : Course (past ++ [.registered host]) after
  | refused {past : List Happening} {registry after : Registry} {host reason : String} (hpast : Course past registry)
    (hregister : registry.register host = (.error reason, after)) : Course (past ++ [.refused host]) after
  | opening {past : List Happening} {registry after : Registry} {σ : Type} {machine : Machine σ} {config : Config}
    {cancelled : Bool} {state state' : σ} {result : Except Pool.Breakdown (Except PoolError Pool)}
    (hpast : Course past registry)
    (hopen : Pool.openWith machine config cancelled registry state = (result, after, state')) :
    Course (past ++ [.ofOpening config.hostId result]) after
  | changed {past : List Happening} {registry : Registry} {host : String} {gauges : Gauges} (source : Source)
    (change : Change) (hpast : Course past registry) (hown : host ∈ hosts past)
    (hgauges : registry.gauges? host = some gauges) :
    Course (past ++ [.changed host source change]) (registry.publish host (gauges.change source change))

variable {σ : Type} {past : List Happening} {registry after : Registry} {host reason : String} {source : Source}
  {happening : Happening} {gauges : Gauges} {change : Change}

theorem hosts_concat : hosts (past ++ [happening]) = hosts past ++ happening.host?.toList := by
  rw [hosts, hosts, List.filterMap_append]
  cases happening <;> rfl

theorem tally_concat : tally (past ++ [happening]) host source =
    happening.settle host source (tally past host source) := List.foldl_concat ..

/-- The value of a label in a list that was made label by label is the one that was made for it. -/
theorem lookup_map (labels : List String) (value : String → Int64) (hmem : host ∈ labels) :
    (labels.map fun label => (label, value label)).lookup host = some (value host) := by
  induction labels with
  | nil => cases hmem
  | cons label labels ih =>
    rw [List.map_cons, List.lookup_cons]
    by_cases hlabel : host = label
    · simp [hlabel]
    · rw [beq_false_of_ne hlabel]
      exact ih ((List.mem_cons.mp hmem).resolve_left hlabel)

/-- The registry has a gauge for each host that has registered and each queue, with the value that the host has given to
it, and no other gauge. -/
structure Registry.Reflects (registry : Registry) (past : List Happening) : Prop where
  families : ∀ source, registry.family source = (hosts past).map fun host => (host, tally past host source)
  once : (hosts past).Nodup
  untouched : ∀ host ∉ hosts past, ∀ source, tally past host source = 0

namespace Registry.Reflects

theorem taken_iff (h : registry.Reflects past) (source : Source) :
    (registry.family source).any (·.1 = host) = true ↔ host ∈ hosts past := by
  simp [h.families source]

theorem register_taken (h : registry.Reflects past) (hmem : host ∈ hosts past) :
    registry.register host = (.error duplicateRegistration, registry) := by
  rw [register, registerOne, if_pos ((h.taken_iff _).mpr hmem)]

/-- A label that is free in the first family is free in the second one. -/
theorem register_free (h : registry.Reflects past) (hfree : host ∉ hosts past) :
    registry.register host = (.ok (), ⟨registry.new ++ [(host, 0)], registry.reused ++ [(host, 0)]⟩) := by
  have hnew : registry.registerOne .new host = .ok ⟨registry.new ++ [(host, 0)], registry.reused⟩ :=
    if_neg (mt (h.taken_iff .new).mp hfree)
  have hreused : registerOne .reused host ⟨registry.new ++ [(host, 0)], registry.reused⟩ =
      .ok ⟨registry.new ++ [(host, 0)], registry.reused ++ [(host, 0)]⟩ :=
    if_neg (mt (h.taken_iff .reused).mp hfree)
  simp only [register, hnew, hreused]

theorem register_ok_iff (h : registry.Reflects past) : (registry.register host).1 = .ok () ↔ host ∉ hosts past := by
  by_cases hmem : host ∈ hosts past
  · simp [h.register_taken hmem, hmem]
  · simp [h.register_free hmem, hmem]

/-- A registration that is refused leaves the registry as it was: the host is taken in both families or in
    neither, so the first gauge is never registered alone. -/
theorem register_error (h : registry.Reflects past) (hregister : registry.register host = (.error reason, after)) :
    after = registry := by
  by_cases hmem : host ∈ hosts past
  · rw [h.register_taken hmem] at hregister
    exact (Prod.mk.inj hregister).2.symm
  · rw [h.register_free hmem] at hregister
    exact nomatch (Prod.mk.inj hregister).1

theorem reads (h : registry.Reflects past) (hmem : host ∈ hosts past) (source : Source) :
    (registry.family source).lookup host = some (tally past host source) := by
  rw [h.families source, lookup_map _ _ hmem]

/-- What is read off a host's gauge is what its owner has made of it by all the changes since it was registered.
    -/
theorem reading (h : registry.Reflects past) (hmem : host ∈ hosts past)
    (hgauges : registry.gauges? host = some gauges) : gauges.reading source = tally past host source := by
  have hnew : registry.new.lookup host = some (tally past host .new) := h.reads hmem .new
  have hreused : registry.reused.lookup host = some (tally past host .reused) := h.reads hmem .reused
  simp only [gauges?, hnew, hreused, Option.some.injEq] at hgauges
  subst hgauges
  cases source <;> rfl

/-- What is no registration and no change leaves the registry to reflect what has happened. -/
theorem idle (h : registry.Reflects past) (hhost : happening.host? = none)
    (hsettle : ∀ host source value, happening.settle host source value = value) :
    registry.Reflects (past ++ [happening]) := by
  have hhosts : hosts (past ++ [happening]) = hosts past := by
    rw [hosts_concat, hhost, Option.toList_none, List.append_nil]
  refine ⟨fun source => ?_, hhosts ▸ h.once, fun host hfree source => ?_⟩
  · simp only [hhosts, h.families source, tally_concat, hsettle]
  · rw [tally_concat, hsettle, h.untouched host (hhosts ▸ hfree)]

/-- A registration that succeeds adds the host to both families, with gauges at zero, and leaves all others
    alone. -/
theorem registered (h : registry.Reflects past) (hregister : registry.register host = (.ok (), after)) :
    after.Reflects (past ++ [.registered host]) := by
  have hfree : host ∉ hosts past := h.register_ok_iff.mp (congrArg Prod.fst hregister)
  have hhosts : hosts (past ++ [.registered host]) = hosts past ++ [host] := hosts_concat
  have htally (other : String) (source : Source) :
      tally (past ++ [.registered host]) other source = tally past other source := tally_concat
  rw [h.register_free hfree, Prod.mk.injEq] at hregister
  obtain ⟨-, rfl⟩ := hregister
  refine ⟨fun source => ?_, ?_, fun other hother source => ?_⟩
  · have hfamily : Registry.family ⟨registry.new ++ [(host, 0)], registry.reused ++ [(host, 0)]⟩ source =
        registry.family source ++ [(host, 0)] := by cases source <;> rfl
    rw [hfamily, h.families source, hhosts, List.map_append, List.map_singleton, htally, h.untouched host hfree]
    simp only [htally]
  · rw [hhosts]
    refine List.nodup_append.mpr ⟨h.once, List.nodup_singleton host, fun other hmem only honly => ?_⟩
    obtain rfl := List.mem_singleton.mp honly
    exact fun heq => hfree (heq ▸ hmem)
  · rw [htally, h.untouched other fun hmem => hother (hhosts ▸ List.mem_append_left _ hmem)]

/-- A change is one of its own host's gauge and of no other. Its value is the one before with the change added.
    -/
theorem changed (h : registry.Reflects past) (hown : host ∈ hosts past)
    (hgauges : registry.gauges? host = some gauges) :
    (registry.publish host (gauges.change source change)).Reflects (past ++ [.changed host source change]) := by
  have hhosts : hosts (past ++ [.changed host source change]) = hosts past := by
    rw [hosts_concat]
    exact List.append_nil _
  have htally (other : String) (queue : Source) : tally (past ++ [.changed host source change]) other queue =
      if other = host ∧ queue = source then change.apply (tally past other queue) else tally past other queue :=
    tally_concat
  refine ⟨fun queue => ?_, hhosts ▸ h.once, fun other hother queue => ?_⟩
  · rw [family_publish, h.families queue, List.map_map, hhosts]
    refine List.map_congr_left fun other _ => ?_
    rw [Function.comp_apply, htally, Gauges.reading_change, h.reading hown hgauges]
    by_cases hother : other = host
    · simp [hother]
    · simp [hother]
  · have hforeign : other ≠ host := fun heq => hother (hhosts ▸ heq ▸ hown)
    rw [htally, if_neg fun hsame => hforeign hsame.1, h.untouched other (hhosts ▸ hother)]

end Registry.Reflects

/-- How the opening of a pool can go that finds this when it looks for the interface that leads outside: what comes of
it, and the registry after it. -/
inductive Pool.Opening (config : Config) (found : Option (Except NetworkError String)) (registry : Registry) :
    Except Breakdown (Except PoolError Pool) → Registry → Prop
  | invalid {refusal : ConfigError} (hinvalid : config.validate = .error refusal) :
    Opening config found registry (.ok (.error (.config refusal.message))) registry
  | stopped (hvalid : config.validate = .ok ()) (hfound : found = none) :
    Opening config found registry (.error .threadStopped) registry
  | undetected {cause : NetworkError} (hvalid : config.validate = .ok ()) (hfound : found = some (.error cause)) :
    Opening config found registry (.ok (.error (.egress cause))) registry
  | refused {egress reason : String} {after : Registry} (hvalid : config.validate = .ok ())
    (hfound : found = some (.ok egress)) (hregister : registry.register config.hostId = (.error reason, after)) :
    Opening config found registry (.ok (.error (.metrics reason))) after
  | registered {egress : String} {result : Except Breakdown (Except PoolError Pool)} {after : Registry}
    (hvalid : config.validate = .ok ()) (hfound : found = some (.ok egress))
    (hregister : registry.register config.hostId = (.ok (), after))
    (hresult : result = .error .oversizedQueue ∨ ∃ pool, result = .ok (.ok pool)) :
    Opening config found registry result after

/-- Opening a pool does to the registry one of a few things, by how far it comes: it is refused before the
    gauges are registered, at them, or it registers them. -/
theorem Pool.openWith_opening {machine : Machine σ} {config : Config} {cancelled : Bool} {state state' : σ}
    {result : Except Breakdown (Except PoolError Pool)}
    (hopen : openWith machine config cancelled registry state = (result, after, state')) :
    Opening config (egressFor machine config state).1 registry result after := by
  unfold openWith at hopen
  split at hopen
  case h_1 refusal hinvalid =>
    obtain ⟨rfl, rfl, -⟩ := by simpa using hopen
    exact .invalid hinvalid
  case h_2 hvalid =>
  split at hopen
  case h_1 between hfound =>
    obtain ⟨rfl, rfl, -⟩ := by simpa using hopen
    exact .stopped hvalid (congrArg Prod.fst hfound)
  case h_2 cause between hfound =>
    obtain ⟨rfl, rfl, -⟩ := by simpa using hopen
    exact .undetected hvalid (congrArg Prod.fst hfound)
  case h_3 egress between hfound =>
  split at hopen
  case h_1 reason left hregister =>
    obtain ⟨rfl, rfl, -⟩ := by simpa using hopen
    exact .refused hvalid (congrArg Prod.fst hfound) hregister
  case h_2 left hregister =>
  split at hopen
  case isTrue hlarge =>
    obtain ⟨rfl, rfl, -⟩ := by simpa using hopen
    exact .registered hvalid (congrArg Prod.fst hfound) hregister (.inl rfl)
  case isFalse hfits =>
    obtain ⟨rfl, rfl, -⟩ := by simpa using hopen
    exact .registered hvalid (congrArg Prod.fst hfound) hregister (.inr ⟨_, rfl⟩)

/-- Whatever has happened to a registry, its families have the same labels, namely the hosts that were
    registered, and each gauge has the value that its owner has given to it. -/
theorem Course.reflects (hcourse : Course past registry) : registry.Reflects past := by
  induction hcourse with
  | start => exact ⟨fun source => by cases source <;> rfl, List.nodup_nil, fun _ _ _ => rfl⟩
  | registered hpast hregister ih => exact ih.registered hregister
  | refused hpast hregister ih =>
    obtain rfl := ih.register_error hregister
    exact ih.idle rfl fun _ _ _ => rfl
  | opening hpast hopen ih =>
    cases Pool.openWith_opening hopen with
    | invalid | stopped | undetected => exact ih.idle rfl fun _ _ _ => rfl
    | refused hvalid hfound hregister =>
      obtain rfl := ih.register_error hregister
      exact ih.idle rfl fun _ _ _ => rfl
    | registered hvalid hfound hregister hresult =>
      rcases hresult with rfl | ⟨pool, rfl⟩ <;> exact ih.registered hregister
  | changed source change hpast hown hgauges ih => exact ih.changed hown hgauges

/-- What an opening leaves of a registry with which these hosts have registered. If it fails, all is as it was. -/
structure Pool.Opening.Clean (config : Config) (found : Option (Except NetworkError String)) (taken : List String)
    (registry : Registry) (result : Except Breakdown (Except PoolError Pool)) (after : Registry) : Prop where
  fails : config.validate ≠ .ok () ∨ (∃ cause, found = some (.error cause)) → ∃ failure, result = .ok (.error failure)
  failed : ∀ failure, result = .ok (.error failure) → after = registry
  stopped : result = .error .threadStopped → after = registry
  registers : result = .error .oversizedQueue ∨ (∃ pool, result = .ok (.ok pool)) ↔
    config.validate = .ok () ∧ (∃ egress, found = some (.ok egress)) ∧ config.hostId ∉ taken
  registered : result = .error .oversizedQueue ∨ (∃ pool, result = .ok (.ok pool)) →
    registry.register config.hostId = (.ok (), after)

/-- An opening registers both gauges of a host or leaves the registry as it was. It fails at the gauges just
    when the host is taken. -/
theorem Registry.Reflects.opening {config : Config} {found : Option (Except NetworkError String)}
    {result : Except Pool.Breakdown (Except PoolError Pool)} (h : registry.Reflects past)
    (hopening : Pool.Opening config found registry result after) :
    Pool.Opening.Clean config found (hosts past) registry result after := by
  have hfree {outcome : Except String Unit} (hregister : registry.register config.hostId = (outcome, after)) :
      outcome = .ok () ↔ config.hostId ∉ hosts past := by
    rw [← h.register_ok_iff, hregister]
  cases hopening with
  | invalid hinvalid =>
    exact ⟨fun _ => ⟨_, rfl⟩, fun _ _ => rfl, nofun, by simp [hinvalid], by simp⟩
  | stopped hvalid hfound =>
    exact ⟨by simp [hvalid, hfound], nofun, fun _ => rfl, by simp [hfound], by simp⟩
  | undetected hvalid hfound =>
    exact ⟨fun _ => ⟨_, rfl⟩, fun _ _ => rfl, nofun, by simp [hfound], by simp⟩
  | refused hvalid hfound hregister =>
    have htaken := (hfree hregister).not.mp nofun
    exact ⟨fun _ => ⟨_, rfl⟩, fun _ _ => h.register_error hregister, nofun, by simpa using fun _ _ _ => htaken, by simp⟩
  | registered hvalid hfound hregister hresult =>
    refine ⟨by simp [hvalid, hfound], fun failure hfailed => ?_, fun hstopped => ?_, ?_, fun _ => hregister⟩
    · rcases hresult with rfl | ⟨pool, rfl⟩ <;> cases hfailed
    · rcases hresult with rfl | ⟨pool, rfl⟩ <;> cases hstopped
    · exact iff_of_true hresult ⟨hvalid, ⟨_, hfound⟩, (hfree hregister).mp rfl⟩

/-- The hosts of a history are those that were registered in it. -/
theorem mem_hosts : host ∈ hosts past ↔ .registered host ∈ past := by
  rw [hosts, List.mem_filterMap]
  constructor
  · rintro ⟨happening, hmem, hhost⟩
    cases happening with
    | registered other => exact Option.some.inj hhost ▸ hmem
    | refused | unopened | changed => cases hhost
  · exact fun hmem => ⟨_, hmem, rfl⟩

/-- Registration is all or nothing. Whatever has happened to a registry, a host can register exactly if it has not done
so before; a refusal and an opening that fails leave the registry as it was; both families have the labels of the hosts
that have registered, each once; and each gauge has the value that its host has given to it. -/
theorem Course.all_or_nothing (hcourse : Course past registry) :
    (∀ host, (registry.register host).1 = .ok () ↔ .registered host ∉ past) ∧
    (∀ host reason after, registry.register host = (.error reason, after) → after = registry) ∧
    (∀ (σ : Type) (machine : Machine σ) (config : Config) (cancelled : Bool) (state : σ),
      Pool.Opening.Clean config (Pool.egressFor machine config state).1 (hosts past) registry
        (Pool.openWith machine config cancelled registry state).1
        (Pool.openWith machine config cancelled registry state).2.1) ∧
    (∀ source, (registry.family source).map (·.1) = hosts past) ∧ (hosts past).Nodup ∧
    (∀ host, .registered host ∈ past → ∀ source,
      (registry.family source).lookup host = some (tally past host source) ∧
      (registry.gather source).lookup host = some (Registry.readValue (tally past host source))) := by
  have hreflects := hcourse.reflects
  refine ⟨fun host => ?_, fun host reason after => hreflects.register_error, ?_, fun source => ?_, hreflects.once,
    fun host hmem source => ?_⟩
  · rw [hreflects.register_ok_iff, mem_hosts]
  · exact fun σ machine config cancelled state => hreflects.opening (Pool.openWith_opening rfl)
  · rw [hreflects.families source, List.map_map]
    exact List.map_id _
  · have hreads := hreflects.reads (mem_hosts.mpr hmem) source
    exact ⟨hreads, by rw [Registry.lookup_gather, hreads, Option.map_some]⟩

/-- One host has registered and set a gauge and could not register again, and no pool could be opened without stock. The
second host to register finds both its gauges at zero. -/
theorem all_or_nothing_twoHosts : ∃ registry,
    Course [.registered "a", .changed "a" .new (.set 3), .refused "a", .unopened, .registered "b"] registry ∧
    (registry.register "a").1 ≠ .ok () ∧ (registry.register "c").1 = .ok () ∧
    registry.new.lookup "a" = some 3 ∧ registry.reused.lookup "b" = some 0 := by
  have hfirst : Course [.registered "a"] ⟨[("a", 0)], [("a", 0)]⟩ := .registered .start rfl
  have hchanged : Course [.registered "a", .changed "a" .new (.set 3)] ⟨[("a", 3)], [("a", 0)]⟩ :=
    .changed .new (.set 3) hfirst (List.mem_singleton_self _) rfl
  have hrefused : Course [.registered "a", .changed "a" .new (.set 3), .refused "a"] ⟨[("a", 3)], [("a", 0)]⟩ :=
    .refused hchanged rfl
  have hopen : Pool.openWith World.machine { Config.default "b" with newSlots := 0 } false
      ⟨[("a", 3)], [("a", 0)]⟩ World.fresh =
        (.ok (.error (.config ConfigError.noNewSlots.message)), ⟨[("a", 3)], [("a", 0)]⟩, World.fresh) := rfl
  have hunopened : Course [.registered "a", .changed "a" .new (.set 3), .refused "a", .unopened]
      ⟨[("a", 3)], [("a", 0)]⟩ := .opening hrefused hopen
  have hcourse : Course [.registered "a", .changed "a" .new (.set 3), .refused "a", .unopened, .registered "b"]
      ⟨[("a", 3), ("b", 0)], [("a", 0), ("b", 0)]⟩ := .registered hunopened rfl
  obtain ⟨hregisters, -, -, -, -, hvalues⟩ := Course.all_or_nothing hcourse
  exact ⟨_, hcourse, (hregisters "a").not.mpr (by simp), (hregisters "c").mpr (by simp),
    (hvalues "a" (by simp) .new).1, (hvalues "b" (by simp) .reused).1⟩

end SlotPool
