import CardHost.Bench.Device
import CardHost.Host.Slot
import CardHost.Proofs.Held

/-!
# What loading leaves behind the lock

A load that succeeds puts a ring of the configured size and an empty latch into the cell.  Nothing
it asks can be interrupted, so this holds whatever host was loaded before and whatever calls wait on
the registers.
-/

namespace CardHost

/-- The ring of a host has as many descriptors as configured, in as many pages as they need. -/
def Ring.Sized (ring : Ring) (config : HostConfig) : Prop :=
  ring.count = config.descriptorCount.toNat ∧ ring.pages = pagesFor (ring.count * descriptorSize)

/-- A fresh host with the state behind its lock. -/
def Host.Fresh (config : HostConfig) (services : Services) (made : Host × HostState) : Prop :=
  made.1.config = config ∧ made.1.services = services ∧ made.2.ring.Sized config
    ∧ made.2.latch = none

theorem Ring.asks_putFrom (ring : Ring) (index : Nat) (descriptors : List Descriptor) :
    (ring.putFrom index descriptors : Prog σ Unit).Asks Request.OnMemory := by
  induction descriptors generalizing index with
  | nil => trivial
  | cons descriptor rest ih => exact (Prog.asks_request trivial).bind fun _ => ih (index + 1)

theorem Ring.asks_reset (ring : Ring) : (ring.reset : Prog σ Unit).Asks Request.OnMemory := by
  unfold reset
  split
  · exact asks_putFrom _ _ _
  · trivial

theorem Ring.obeys_allocate (services : Services) (count : Nat) :
    Action.Obeys Request.Silent
      (fun ring => ring.count = count ∧ ring.pages = pagesFor (count * descriptorSize))
      (Ring.allocate services count : Action σ Ring) := by
  unfold allocate
  split
  · trivial
  · split
    · trivial
    · have hpages : Action.Obeys Request.Silent
          (fun pages => pages.count = pagesFor (count * descriptorSize))
          (Pages.allocate services (pagesFor (count * descriptorSize)) : Action σ Pages) := by
        refine (Prog.asks_request trivial).obeys_bind fun grant => ?_
        split
        · rfl
        · trivial
      refine (hpages.onError _ fun _ => trivial).bind fun pages hcount => ?_
      have hreset (ring : Ring) : (ring.reset : Prog σ Unit).Asks Request.Silent :=
        (asks_reset ring).mono fun _ => Request.OnMemory.silent
      refine Action.Asks.obeys_bind (Action.asks_lift (hreset _)) fun _ => ?_
      refine (Action.asks_lift (asks_log _ trivial)).obeys_bind fun _ => ?_
      exact ⟨rfl, hcount⟩

theorem Host.obeys_make (config : HostConfig) (services : Services) :
    Action.Obeys Request.Silent (Host.Fresh config services)
      (Host.make config services : Action σ (Host × HostState)) := by
  unfold make
  split
  · exact (Action.asks_lift (asks_log _ trivial)).obeys_bind fun _ => trivial
  · refine (Ring.obeys_allocate services _).bind fun ring hring => ?_
    exact ⟨rfl, rfl, ⟨hring.1, hring.1 ▸ hring.2⟩, rfl⟩

theorem Host.obeys_load (config : HostConfig) (services : Services) :
    Action.Obeys Request.Silent (Host.Fresh config services)
      (Host.load config services : Action σ (Host × HostState)) := by
  refine ((obeys_make config services).onError _ fun _ => trivial).bind fun made hmade => ?_
  exact (Action.asks_lift (asks_log _ trivial)).obeys_bind fun _ => hmade

theorem Slot.asks_retire {allowed : Request HostState → Prop}
    (frees : ∀ services address count, allowed (.free services address count))
    (logs : ∀ message, allowed (.log message)) (former : Option (Host × HostState)) :
    (Slot.retire former).Asks allowed := by
  obtain _ | ⟨host, state⟩ := former
  · trivial
  · refine Prog.Asks.bind ?_ fun outcome => ?_
    · unfold Ring.free
      split
      · trivial
      · exact (Prog.asks_request (frees _ _ _)).bind fun _ => trivial
    · cases outcome with
      | ok value => trivial
      | error error => exact asks_log _ (logs _)

/-- A load that succeeds leaves a fresh ring and an empty latch in the cell. -/
theorem Slot.load_run {machine : Machine ι} {handler : ι → Prog HostState ρ} {depth : Nat}
    {slot loaded : Slot} {config : HostConfig} {services : Services}
    {before start : System machine HostState ρ}
    (ran : (slot.load config services).run handler depth before = .ok ((.ok (), loaded), start)) :
    ∃ host state, loaded = ⟨some host⟩ ∧ start.cell = some state
      ∧ Host.Fresh config services (host, state) := by
  obtain ⟨outcome, made, hload, hrest⟩ := Prog.run_bind_ok ran
  have hfresh := ((Host.obeys_load config services).run_silent hload).1
  obtain error | ⟨host, state⟩ := outcome
  · cases hrest
  · obtain ⟨former, detached, -, hput⟩ := Prog.run_bind_ok hrest
    obtain ⟨_, filled, hfill, hretire⟩ := Prog.run_bind_ok hput
    obtain ⟨_, retired, hretired, hdone⟩ := Prog.run_bind_ok hretire
    have hcell : filled.cell = some state := by
      cases hfill
      rfl
    have hquiet : (retire former).Asks Request.Silent :=
      Slot.asks_retire (fun _ _ _ => trivial) (fun _ => trivial) former
    have hkept := (hquiet.run_silent hretired).2.1
    cases hdone
    exact ⟨host, state, rfl, hkept.trans hcell, hfresh⟩

/-! ## A small host on the bench -/

/-- A configuration for one segment at a time, as small as a concrete run wants it. -/
def smallConfig : HostConfig :=
  { HostConfig.standard with baseAddress := 0x28000000, maxRequest := 0x1000, descriptorCount := 1 }

/-- The host of the small configuration. -/
def smallHost : Host where
  config := smallConfig
  services := .supplied
  usable := by decide

/-- A bench of a few pages on which nothing happened. -/
def smallBench : System Bench.machine HostState ρ where
  shared := ⟨.initial 0x1F0000000 16 0, .blank⟩
  level := 4
  cell := none
  verbosity := none
  journal := []

end CardHost
