import Mathlib.Algebra.Group.Nat.Defs
import SlotPool.Pool.Config
import SlotPool.Proofs.Text.Blank
import SlotPool.Proofs.Text.Numeral
/-!
What a set of environment variables says about a pool. Each field of the configuration has a variable of its own and
takes what this says, or its default where it says nothing. There is one such configuration for every environment.
-/

namespace SlotPool

namespace Environment

/-- A variable says a number: without the white space at its ends its text writes it, and it is not above the bound. -/
def SaysNumber (env : Environment) (name : String) (bound n : Nat) : Prop :=
  ∃ text core, env name = some text ∧ Text.Stripped text.toList core ∧ Text.Writes core n ∧ n ≤ bound

/-- A variable says a text: this is all of its text, and it is not empty. -/
def SaysText (env : Environment) (name text : String) : Prop :=
  env name = some text ∧ text ≠ ""

end Environment

/-- A field takes what is said of it, and its default if nothing is. -/
structure Takes {α : Type} (tells : α → Prop) (base field : α) : Prop where
  said : ∀ value, tells value → field = value
  unsaid : (∀ value, ¬ tells value) → field = base

namespace Config

/-- The configuration is as the environment says, and as usual in everything else. -/
structure Describes (freshId : String) (env : Environment) (config : Config) : Prop where
  newSlots : Takes (env.SaysNumber "NETPOOL_NEW_SLOTS" (2 ^ 64 - 1)) 32 config.newSlots
  reusedSlots : Takes (env.SaysNumber "NETPOOL_REUSED_SLOTS" (2 ^ 64 - 1)) 100 config.reusedSlots
  maxSlots : Takes (env.SaysNumber "NETPOOL_MAX_SLOTS" (2 ^ 32 - 1)) planSize config.maxSlots
  hostId : Takes (env.SaysText "NETPOOL_HOST_ID") freshId config.hostId
  netnsDir : Takes (env.SaysText "NETPOOL_NETNS_DIR") "/var/run/netns" config.netnsDir
  egressInterface : ∀ interface, config.egressInterface = some interface ↔
    env.SaysText "NETPOOL_EGRESS_INTERFACE" interface
  backoffMs : config.backoffMs = 100

/-- Each field of a second configuration is that of the first where the field's own variable is the same. -/
structure Follows (env env' : Environment) (config config' : Config) : Prop where
  newSlots : env' "NETPOOL_NEW_SLOTS" = env "NETPOOL_NEW_SLOTS" → config'.newSlots = config.newSlots
  reusedSlots : env' "NETPOOL_REUSED_SLOTS" = env "NETPOOL_REUSED_SLOTS" → config'.reusedSlots = config.reusedSlots
  maxSlots : env' "NETPOOL_MAX_SLOTS" = env "NETPOOL_MAX_SLOTS" → config'.maxSlots = config.maxSlots
  hostId : env' "NETPOOL_HOST_ID" = env "NETPOOL_HOST_ID" → config'.hostId = config.hostId
  netnsDir : env' "NETPOOL_NETNS_DIR" = env "NETPOOL_NETNS_DIR" → config'.netnsDir = config.netnsDir
  egressInterface : env' "NETPOOL_EGRESS_INTERFACE" = env "NETPOOL_EGRESS_INTERFACE" →
    config'.egressInterface = config.egressInterface
  backoffMs : config'.backoffMs = config.backoffMs

variable {α : Type} {tells : α → Prop} {found : Option α} {base field : α} {env env' : Environment}
  {name text freshId : String} {bound n : Nat} {config : Config}

/-- Where what is said is looked up, a field that takes it is what is found, or the default. -/
theorem takes_iff (hfound : ∀ value, found = some value ↔ tells value) :
    Takes tells base field ↔ field = found.getD base := by
  cases found with
  | none =>
    have hunsaid : ∀ value, ¬ tells value := fun value hvalue => nomatch (hfound value).mpr hvalue
    refine ⟨fun h => h.unsaid hunsaid, fun h => ⟨fun value hvalue => (hunsaid value hvalue).elim, fun _ => h⟩⟩
  | some value =>
    have hsaid : tells value := (hfound value).mp rfl
    refine ⟨fun h => h.said value hsaid, fun h => ⟨fun other hother => ?_, fun hnone => (hnone value hsaid).elim⟩⟩
    exact h.trans (Option.some.inj ((hfound other).mpr hother))

/-- A variable is read as a number just when its text, without the blanks around it, writes that number within
    the bound. Whatever else it holds counts as nothing. -/
theorem numberVariable_eq_some_iff : numberVariable env bound name = some n ↔ env.SaysNumber name bound n := by
  rw [numberVariable, Option.bind_eq_some_iff]
  constructor
  · rintro ⟨text, htext, hread⟩
    exact ⟨text, _, htext, Text.trim_stripped text.toList, Text.numeral?_eq_some_iff.mp hread⟩
  · rintro ⟨text, core, htext, hstripped, hwrites⟩
    refine ⟨text, htext, ?_⟩
    rw [hstripped.trim_eq]
    exact Text.numeral?_eq_some_iff.mpr hwrites

theorem textVariable_eq_some_iff : textVariable env name = some text ↔ env.SaysText name text := by
  rw [textVariable, Option.filter_eq_some_iff, decide_eq_true_eq]
  exact Iff.rfl

/-- The configuration that is read off an environment is what that says, field by field: each takes what its own
    variable says, or its default. -/
theorem ofEnvironment_describes : Describes freshId env (ofEnvironment freshId env) where
  newSlots := (takes_iff fun _ => numberVariable_eq_some_iff).mpr rfl
  reusedSlots := (takes_iff fun _ => numberVariable_eq_some_iff).mpr rfl
  maxSlots := (takes_iff fun _ => numberVariable_eq_some_iff).mpr rfl
  hostId := (takes_iff fun _ => textVariable_eq_some_iff).mpr rfl
  netnsDir := (takes_iff fun _ => textVariable_eq_some_iff).mpr rfl
  egressInterface _ := textVariable_eq_some_iff
  backoffMs := rfl

/-- There is no other configuration that an environment describes, so reading it off is all that there is to
    know. -/
theorem Describes.eq_ofEnvironment (h : Describes freshId env config) : config = ofEnvironment freshId env := by
  have hegress : config.egressInterface = textVariable env "NETPOOL_EGRESS_INTERFACE" :=
    Option.ext fun interface => (h.egressInterface interface).trans textVariable_eq_some_iff.symm
  have hnew := (takes_iff fun _ => numberVariable_eq_some_iff).mp h.newSlots
  have hreused := (takes_iff fun _ => numberVariable_eq_some_iff).mp h.reusedSlots
  have hmax := (takes_iff fun _ => numberVariable_eq_some_iff).mp h.maxSlots
  have hhost := (takes_iff fun _ => textVariable_eq_some_iff).mp h.hostId
  have hdir := (takes_iff fun _ => textVariable_eq_some_iff).mp h.netnsDir
  have hbackoff := h.backoffMs
  obtain ⟨newSlots, reusedSlots, maxSlots, hostId, netnsDir, egressInterface, backoffMs⟩ := config
  subst hnew hreused hmax hhost hdir hegress hbackoff
  rfl

/-- Two environments that agree on the variable of a field give that field the same value, whatever else they
    say. -/
theorem ofEnvironment_follows : Follows env env' (ofEnvironment freshId env) (ofEnvironment freshId env') := by
  have hnumber {name : String} {bound : Nat} (h : env' name = env name) :
      numberVariable env' bound name = numberVariable env bound name := by
    rw [numberVariable, numberVariable, h]
  have htext {name : String} (h : env' name = env name) : textVariable env' name = textVariable env name := by
    rw [textVariable, textVariable, h]
  exact
    { newSlots := fun h => congrArg (Option.getD · _) (hnumber h)
      reusedSlots := fun h => congrArg (Option.getD · _) (hnumber h)
      maxSlots := fun h => congrArg (Option.getD · _) (hnumber h)
      hostId := fun h => congrArg (Option.getD · _) (htext h)
      netnsDir := fun h => congrArg (Option.getD · _) (htext h)
      egressInterface := fun h => htext h
      backoffMs := rfl }

/-- A configuration is accepted just when it asks for at least one new and one reused slot, for at least one
    slot in all and not more than the plan has, and names its host. -/
theorem validate_eq_ok_iff : config.validate = .ok () ↔ 0 < config.newSlots ∧ 0 < config.reusedSlots ∧
    1 ≤ config.maxSlots ∧ config.maxSlots ≤ planSize ∧ config.hostId ≠ "" := by
  rw [validate]
  split
  case isTrue hnew => exact iff_of_false nofun fun h => Nat.ne_of_gt h.1 hnew
  split
  case isTrue hreused => exact iff_of_false nofun fun h => Nat.ne_of_gt h.2.1 hreused
  split
  case isTrue hmax =>
    refine iff_of_false nofun fun h => ?_
    obtain ⟨-, -, hpos, hle, -⟩ := h
    omega
  split
  case isTrue hhost => exact iff_of_false nofun fun h => h.2.2.2.2 hhost
  case isFalse hnew hreused hmax hhost =>
    exact iff_of_true rfl ⟨by omega, by omega, by omega, by omega, hhost⟩

/-- The environment fixes the configuration: each field takes what its own variable says and no other, and what comes of
    it is accepted exactly if it has room for slots within the plan and a name for the host. -/
theorem ofEnvironment_exact (freshId : String) (env : Environment) :
    (∀ config, Describes freshId env config ↔ config = ofEnvironment freshId env) ∧
    (∀ env', Follows env env' (ofEnvironment freshId env) (ofEnvironment freshId env')) ∧
    ((ofEnvironment freshId env).validate = .ok () ↔
      0 < (ofEnvironment freshId env).newSlots ∧ 0 < (ofEnvironment freshId env).reusedSlots ∧
      1 ≤ (ofEnvironment freshId env).maxSlots ∧ (ofEnvironment freshId env).maxSlots ≤ planSize ∧
      (ofEnvironment freshId env).hostId ≠ "") :=
  ⟨fun _ => ⟨Describes.eq_ofEnvironment, fun h => h ▸ ofEnvironment_describes⟩, fun _ => ofEnvironment_follows,
    validate_eq_ok_iff⟩

end Config
end SlotPool
