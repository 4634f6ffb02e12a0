import CardHost.Bench.Session.Objects
import CardHost.Proofs.Latch
import CardHost.Proofs.Ledger
import CardHost.Proofs.Staging
import CardHost.Proofs.Statuses

/-!
# Who owns which pages

Pages are had in two places: a load asks for the ring of the new host, and a data phase for staging
pages.  What a data phase had is given back before it answers; a ring goes back when its host is
replaced or unloaded.

`HostStep.Calls` lists the page calls of each step with what is owned before and after it, and
`Slot.Stands.step` is the step lemma: a step books its own calls, and a loaded host keeps its ring.
The run lemma `Slot.replay_accounts` settles the calls of a history against what its slot owns.
`Slot.replay_alike` compares a history with the same one on a machine that reports other statuses of
its frees.
-/

namespace CardHost

section Programs

variable {machine : Machine ι} {handler : ι → Prog σ ρ} {depth : Nat}

/-! ## Rings -/

/-- The pages of a ring. -/
def Ring.owned (ring : Ring) (services : Services) : Pages :=
  ⟨services, ring.base, ring.pages⟩

/-- The ways that something with pages of its own is made: with an error and without pages, or with
its pages granted by one call. -/
def Acquired (system after : System machine σ ρ) (outcome : Except HostError α)
    (owned : α → Pages) : Prop :=
  after.cell = system.cell
    ∧ ((∃ error calls, outcome = .error error ∧ Unfulfilled calls ∧ Booked system after calls)
      ∨ ∃ value, outcome = .ok value ∧ Booked system after [(owned value).grantCall])

theorem Ring.acquired_allocate {services : Services} {count : Nat}
    {system after : System machine σ ρ} {outcome : Except HostError Ring}
    (ran : (Ring.allocate services count : Action σ Ring).run.run handler depth system =
      .ok (outcome, after)) :
    Acquired system after outcome fun ring => ring.owned services := by
  unfold allocate at ran
  split at ran
  · cases ran
    exact ⟨rfl, .inl ⟨_, [], rfl, .none, Booked.refl _⟩⟩
  · split at ran
    · cases ran
    · rw [Action.run_bind] at ran
      obtain ⟨asked, granted, hasked, hrest⟩ := Prog.run_bind_ok ran
      obtain ⟨hcell, ⟨error, calls, rfl, hcalls, hbooked⟩ | ⟨pages, rfl, rfl, -, hbooked⟩⟩ :=
        Pages.booked_allocate hasked
      · cases hrest
        exact ⟨hcell, .inl ⟨error, calls, rfl, hcalls, hbooked⟩⟩
      · dsimp only at hrest
        rw [Action.run_lift_bind] at hrest
        obtain ⟨_, reset, hreset, hlog⟩ := Prog.run_bind_ok hrest
        rw [Action.run_lift_bind] at hlog
        obtain ⟨_, logged, hlogged, hdone⟩ := Prog.run_bind_ok hlog
        cases hdone
        obtain ⟨hlaid, hkept⟩ := (asks_reset _).booked_onMemory hreset
        obtain ⟨hquiet, hsame⟩ := Prog.Asks.booked_onMemory (asks_log _ trivial) hlogged
        exact ⟨hsame.trans (hkept.trans hcell),
          .inr ⟨_, rfl, (hbooked.trans hlaid).trans hquiet⟩⟩

namespace Host

/-- The pages that come with a host. -/
def owned (made : Host × HostState) : Pages :=
  made.2.ring.owned made.1.services

theorem acquired_make {config : HostConfig} {services : Services}
    {system after : System machine σ ρ} {outcome : Except HostError (Host × HostState)}
    (ran : (Host.make config services : Action σ (Host × HostState)).run.run handler depth system =
      .ok (outcome, after)) :
    Acquired system after outcome owned := by
  unfold make at ran
  split at ran
  · rw [report, Action.run_lift_bind] at ran
    obtain ⟨_, logged, hlogged, hdone⟩ := Prog.run_bind_ok ran
    cases hdone
    obtain ⟨hquiet, hsame⟩ := Prog.Asks.booked_onMemory (asks_log _ trivial) hlogged
    exact ⟨hsame, .inl ⟨_, [], rfl, .none, hquiet⟩⟩
  · rw [Action.run_bind] at ran
    obtain ⟨asked, granted, hasked, hrest⟩ := Prog.run_bind_ok ran
    obtain ⟨hcell, ⟨error, calls, rfl, hcalls, hbooked⟩ | ⟨ring, rfl, hbooked⟩⟩ :=
      Ring.acquired_allocate hasked
    · cases hrest
      exact ⟨hcell, .inl ⟨error, calls, rfl, hcalls, hbooked⟩⟩
    · cases hrest
      exact ⟨hcell, .inr ⟨_, rfl, hbooked⟩⟩

theorem acquired_load {config : HostConfig} {services : Services}
    {system after : System machine σ ρ} {outcome : Except HostError (Host × HostState)}
    (ran : (Host.load config services : Action σ (Host × HostState)).run.run handler depth system =
      .ok (outcome, after)) :
    Acquired system after outcome owned := by
  unfold load at ran
  rw [Action.run_bind, Action.run_onError, Prog.bind_assoc] at ran
  obtain ⟨made, making, hmade, hrest⟩ := Prog.run_bind_ok ran
  obtain ⟨hcell, ⟨error, calls, rfl, hcalls, hbooked⟩ | ⟨value, rfl, hbooked⟩⟩ :=
    acquired_make hmade
  · obtain ⟨_, logged, hlogged, hdone⟩ := Prog.run_bind_ok hrest
    obtain ⟨_, last, hremark, hend⟩ := Prog.run_bind_ok hlogged
    cases hend
    cases hdone
    obtain ⟨hquiet, hsame⟩ := Prog.Asks.booked_onMemory (asks_log _ trivial) hremark
    have hall := hbooked.trans hquiet
    rw [List.append_nil] at hall
    exact ⟨hsame.trans hcell, .inl ⟨error, calls, rfl, hcalls, hall⟩⟩
  · obtain ⟨_, logged, hlogged, hdone⟩ := Prog.run_bind_ok hrest
    cases hlogged
    dsimp only at hdone
    rw [report, Action.run_lift_bind] at hdone
    obtain ⟨_, last, hremark, hend⟩ := Prog.run_bind_ok hdone
    cases hend
    obtain ⟨hquiet, hsame⟩ := Prog.Asks.booked_onMemory (asks_log _ trivial) hremark
    exact ⟨hsame.trans hcell, .inr ⟨value, rfl, hbooked.trans hquiet⟩⟩

/-- A retired host gives its ring back by one call. -/
theorem booked_retire {host : Host} {state : HostState} (hring : 0 < state.ring.count)
    {system after : System machine σ ρ}
    (ran : (host.retire state : Prog σ Unit).run handler depth system = .ok ((), after)) :
    after.cell = system.cell
      ∧ ∃ status, Booked system after [(owned (host, state)).freeCall status] := by
  have hfull : state.ring.isEmpty = false := by
    rw [Ring.isEmpty, beq_eq_false_iff_ne]
    omega
  unfold retire Ring.free at ran
  rw [hfull] at ran
  apply Services.booked_free _ ran
  intro outcome
  cases outcome with
  | ok value => exact Prog.asks_done ()
  | error error => exact asks_log _ trivial

end Host

end Programs

/-! ## Slots -/

/-- The pages of the loaded host, where `cell` holds the guarded state. -/
def Slot.owned? (slot : Slot) (cell : Option HostState) : Option Pages :=
  match slot.host, cell with
  | some host, some state => some (Host.owned (host, state))
  | _, _ => none

/-- The calls that give pages back, if there are any. -/
def returns (status : Status) (owned : Option Pages) : List (Event ρ) :=
  (owned.map fun pages => pages.freeCall status).toList

/-- The page calls of a step, with the pages owned before it and after it: a load has the ring of
the new host granted before the former ring is freed, or nothing; an unload frees the ring; a data
phase frees what it was granted; and nothing else calls. -/
inductive Bench.HostStep.Calls (owned : Option Pages) :
    Bench.HostStep → List (Event ρ) → Option Pages → Prop
  | loaded (config : HostConfig) (source : Source) (pages : Pages) (status : Status) :
      Calls owned (.load config source) (pages.grantCall :: returns status owned) (some pages)
  | failed (config : HostConfig) (source : Source) {calls : List (Event ρ)}
      (h : Unfulfilled calls) : Calls owned (.load config source) calls owned
  | unloaded (status : Status) : Calls owned .unload (returns status owned) none
  | asked : Calls owned .loaded [] owned
  | phase {call : Call} {calls : List (Event ρ)} (h : call.phase?.isSome = true)
      (hcalls : PhaseCalls calls) : Calls owned (.call call) calls owned
  | other {call : Call} (h : call.phase? = none) : Calls owned (.call call) [] owned

/-- The program of a step, which answers and leaves a slot. -/
def Bench.HostStep.program (slot : Slot) : Bench.HostStep → Prog HostState (Bench.Reply × Slot)
  | .load config source => do
    let loaded ← source.load slot config
    pure (.outcome loaded.1, loaded.2)
  | .unload => do
    let unloaded ← slot.unload
    pure (.ok, unloaded)
  | .loaded => pure (.flag slot.host.isSome, slot)
  | .call operation => do
    let answer ← slot.perform operation
    pure (.answer answer, slot)

/-- A session runs the program of a step. -/
theorem Bench.Session.hostStep_eq (session : Bench.Session) (step : Bench.HostStep) :
    session.hostStep step = (session.run (step.program session.slot)).map
      fun ended => (ended.1.1, { ended.2 with slot := ended.1.2 }) := by
  obtain ⟨system, slot, window, ring, pages, nextPages, lock⟩ := session
  let depth := system.shared.device.armed.length
  cases step with
  | load config source =>
      simp only [hostStep, run, Bench.HostStep.program, Prog.bind_eq, Prog.pure_eq,
        Prog.run_bind_done]
      cases (source.load slot config).run slot.perform depth system <;> rfl
  | unload =>
      simp only [hostStep, run, Bench.HostStep.program, Prog.bind_eq, Prog.pure_eq,
        Prog.run_bind_done]
      cases slot.unload.run slot.perform depth system <;> rfl
  | loaded => rfl
  | call operation =>
      simp only [hostStep, runFor, run, Bench.HostStep.program, Prog.bind_eq, Prog.pure_eq,
        Prog.run_bind_done]
      cases (slot.perform operation).run slot.perform depth system <;> rfl

theorem Bench.HostStep.alike_program (slot : Slot) (step : Bench.HostStep) :
    (step.program slot).Alike (step.program slot) := by
  cases step with
  | load config source => exact (source.alike_load slot config).bind fun _ => .done _
  | unload => exact slot.alike_unload.bind fun _ => .done _
  | loaded => exact .done _
  | call operation => exact (slot.alike_perform operation).bind fun _ => .done _

/-- The loaded host has its state in the cell, with a ring as it is configured. -/
def Slot.Stands {machine : Machine ι} (slot : Slot) (system : System machine HostState ρ) : Prop :=
  ∀ host, slot.host = some host →
    ∃ state, system.cell = some state ∧ state.ring.Sized host.config

/-- The ring of a host is not empty. -/
theorem Ring.Sized.pos {host : Host} {ring : Ring} (h : ring.Sized host.config) :
    0 < ring.count := by
  rw [h.1]
  exact (host.config.usable_iff.mp host.usable).1.2.2.2

namespace Slot

variable {machine : Machine ι}

section Loads

variable {handler : ι → Prog HostState ρ} {depth : Nat}

/-- A host is detached with its state, and nothing is called. -/
theorem run_detach {slot : Slot} {system after : System machine HostState ρ}
    {former : Option (Host × HostState)}
    (ran : slot.detach.run handler depth system = .ok (former, after)) :
    former = slot.host.bind (fun host => system.cell.map fun state => (host, state))
      ∧ Booked system after [] := by
  unfold detach at ran
  cases hhost : slot.host with
  | none =>
      rw [hhost] at ran
      cases ran
      exact ⟨rfl, Booked.refl system⟩
  | some host =>
      rw [hhost] at ran
      obtain ⟨state, taken, htake, hdone⟩ := Prog.run_bind_ok ran
      obtain ⟨rfl, rfl⟩ := Prog.run_request_ok rfl htake
      cases hdone
      exact ⟨rfl, answer_booked (.take : Request HostState) system⟩

/-- What a slot owns is what comes with its detached host. -/
theorem owned?_eq (slot : Slot) (cell : Option HostState) :
    slot.owned? cell =
      (slot.host.bind fun host => cell.map fun state => (host, state)).map Host.owned := by
  unfold owned?
  cases slot.host with
  | none => rfl
  | some host => cases cell <;> rfl

theorem Stands.ring_pos {slot : Slot} {system : System machine HostState ρ}
    (h : slot.Stands system) {made : Host × HostState}
    (hmade : slot.host.bind (fun host => system.cell.map fun state => (host, state)) = some made) :
    0 < made.2.ring.count := by
  obtain ⟨host, hhost, hstate⟩ := Option.bind_eq_some_iff.mp hmade
  obtain ⟨state, hcell, hsized⟩ := h host hhost
  rw [hcell] at hstate
  cases hstate
  exact hsized.pos

/-- What is retired is given back, by one call each. -/
theorem booked_retire {former : Option (Host × HostState)}
    (hring : ∀ made, former = some made → 0 < made.2.ring.count)
    {system after : System machine HostState ρ}
    (ran : (retire former).run handler depth system = .ok ((), after)) :
    after.cell = system.cell
      ∧ ∃ status, Booked system after (returns status (former.map Host.owned)) := by
  cases former with
  | none =>
      cases ran
      exact ⟨rfl, .success, Booked.refl system⟩
  | some made => exact Host.booked_retire (hring made rfl) ran

/-- A load books one grant and the return of the ring it replaces, or nothing was granted. -/
theorem booked_load {slot loaded : Slot} {config : HostConfig} {services : Services}
    {outcome : Except HostError Unit} {system after : System machine HostState ρ}
    (stands : slot.Stands system)
    (ran : (slot.load config services).run handler depth system =
      .ok ((outcome, loaded), after)) :
    (∃ calls, Unfulfilled calls ∧ Booked system after calls ∧ loaded = slot
        ∧ after.cell = system.cell)
      ∨ outcome = .ok () ∧ ∃ pages status, loaded.owned? after.cell = some pages
        ∧ Booked system after (pages.grantCall :: returns status (slot.owned? system.cell)) := by
  unfold load at ran
  obtain ⟨made, making, hmade, hrest⟩ := Prog.run_bind_ok ran
  obtain ⟨hcell, ⟨error, calls, rfl, hcalls, hbooked⟩ | ⟨⟨host, state⟩, rfl, hbooked⟩⟩ :=
    Host.acquired_load hmade
  · cases hrest
    exact .inl ⟨calls, hcalls, hbooked, rfl, hcell⟩
  · obtain ⟨former, detached, hdetach, hput⟩ := Prog.run_bind_ok hrest
    obtain ⟨_, filled, hfilled, hretire⟩ := Prog.run_bind_ok hput
    obtain ⟨_, retired, hretired, hdone⟩ := Prog.run_bind_ok hretire
    obtain ⟨hformer, hquiet⟩ := run_detach hdetach
    obtain ⟨-, rfl⟩ := Prog.run_request_ok rfl hfilled
    have hfill := answer_booked (.put state : Request HostState) detached
    rw [hcell] at hformer
    have hring (made : Host × HostState) (heq : former = some made) : 0 < made.2.ring.count :=
      stands.ring_pos (hformer.symm.trans heq)
    obtain ⟨hkept, status, hreturned⟩ := booked_retire hring hretired
    cases hdone
    have hnow : after.cell = some state := hkept
    refine .inr ⟨rfl, Host.owned (host, state), status, ?_, ?_⟩
    · rw [hnow]
      rfl
    · rw [owned?_eq, ← hformer]
      exact ((hbooked.trans hquiet).trans hfill).trans hreturned

/-- An unload books the return of the ring. -/
theorem booked_unload {slot unloaded : Slot} {system after : System machine HostState ρ}
    (stands : slot.Stands system)
    (ran : slot.unload.run handler depth system = .ok (unloaded, after)) :
    unloaded.host = none
      ∧ ∃ status, Booked system after (returns status (slot.owned? system.cell)) := by
  unfold unload at ran
  cases hhost : slot.host with
  | none =>
      rw [hhost] at ran
      cases ran
      refine ⟨hhost, .success, ?_⟩
      rw [owned?_eq, hhost]
      exact Booked.refl system
  | some host =>
      rw [hhost] at ran
      obtain ⟨_, logged, hlogged, hrest⟩ := Prog.run_bind_ok ran
      obtain ⟨former, detached, hdetach, hretire⟩ := Prog.run_bind_ok hrest
      obtain ⟨_, retired, hretired, hdone⟩ := Prog.run_bind_ok hretire
      obtain ⟨hremarked, hcell⟩ := Prog.Asks.booked_onMemory (asks_log _ trivial) hlogged
      obtain ⟨hformer, hquiet⟩ := run_detach hdetach
      rw [hcell] at hformer
      have hring (made : Host × HostState) (heq : former = some made) : 0 < made.2.ring.count :=
        stands.ring_pos (hformer.symm.trans heq)
      obtain ⟨-, status, hreturned⟩ := booked_retire hring hretired
      cases hdone
      refine ⟨rfl, status, ?_⟩
      rw [owned?_eq, ← hformer]
      exact (hremarked.trans hquiet).trans hreturned

end Loads

/-- What interrupts a step: operations of the loaded host. -/
def interrupted (slot : Slot) (calls : ι → List Call) (i : ι) : Prog HostState (List Answer) :=
  match slot.host with
  | none => .done []
  | some host => host.performAll (calls i)

/-- The calls of a load from any source. -/
theorem Stands.load {handler : ι → Prog HostState (List Answer)} {depth : Nat} {slot later : Slot}
    {config : HostConfig} {source : Bench.Source} {outcome : Except HostError Unit}
    {system after : System machine HostState (List Answer)} (stands : slot.Stands system)
    (ran : (source.load slot config).run handler depth system = .ok ((outcome, later), after)) :
    later.Stands after ∧ ∃ booked, Booked system after booked
      ∧ (Bench.HostStep.load config source).Calls (slot.owned? system.cell) booked
          (later.owned? after.cell) := by
  have loads {services : Services}
      (hran : (slot.load config services).run handler depth system =
        .ok ((outcome, later), after)) :
      later.Stands after ∧ ∃ booked, Booked system after booked
        ∧ (Bench.HostStep.load config source).Calls (slot.owned? system.cell) booked
            (later.owned? after.cell) := by
    rcases booked_load stands hran with
      ⟨booked, hcalls, hbooked, rfl, hcell⟩ | ⟨rfl, pages, status, howned, hbooked⟩
    · constructor
      · unfold Stands
        rw [hcell]
        exact stands
      · rw [hcell]
        exact ⟨booked, hbooked, .failed config source hcalls⟩
    · obtain ⟨host, state, rfl, hcell, hconfig, -, hsized, -⟩ := Slot.load_run hran
      constructor
      · intro other hother
        cases hother
        exact ⟨state, hcell, hconfig ▸ hsized⟩
      · rw [howned]
        exact ⟨_, hbooked, .loaded config source pages status⟩
  cases source with
  | supplied => exact loads ran
  | firmware => exact loads ran
  | missing =>
      obtain ⟨_, logged, hlogged, hdone⟩ := Prog.run_bind_ok ran
      obtain ⟨hquiet, hcell⟩ := Prog.Asks.booked_onMemory (asks_log _ trivial) hlogged
      cases hdone
      constructor
      · unfold Stands
        rw [hcell]
        exact stands
      · rw [hcell]
        exact ⟨[], hquiet, .failed config .missing .none⟩

/-- The calls of an operation. -/
theorem Stands.perform {calls : ι → List Call} {depth : Nat} {slot : Slot} {call : Call}
    {answer : Answer} {system after : System machine HostState (List Answer)}
    (stands : slot.Stands system)
    (ran : (slot.perform call).run (slot.interrupted calls) depth system =
      .ok (answer, after)) :
    slot.Stands after ∧ ∃ booked, Booked system after booked
      ∧ (Bench.HostStep.call call).Calls (slot.owned? system.cell) booked
          (slot.owned? after.cell) := by
  obtain ⟨_ | host⟩ := slot
  · cases ran
    refine ⟨stands, [], Booked.refl system, ?_⟩
    cases hphase : call.phase? with
    | none => exact .other hphase
    | some phase => exact .phase (by rw [hphase]; rfl) (.unfulfilled .none)
  · obtain ⟨state, hcell, hsized⟩ := stands host rfl
    have hnow := Host.perform_settles host calls hcell ran
    rw [Call.settle_eq_passOn] at hnow
    obtain ⟨booked, hcalls, hnone, hbooked⟩ :=
      host.booked_perform (host.idles_performAll calls depth) ran
    constructor
    · intro other hother
      cases hother
      exact ⟨_, hnow, hsized⟩
    · rw [hcell, hnow]
      refine ⟨booked, hbooked, ?_⟩
      cases hphase : call.phase? with
      | none =>
          rw [hnone hphase]
          exact .other hphase
      | some phase => exact .phase (by rw [hphase]; rfl) hcalls

/-- The step lemma: a step books the calls that are its own, and leaves the loaded host with its
ring. -/
theorem Stands.step {calls : ι → List Call} {depth : Nat} {slot later : Slot}
    {step : Bench.HostStep} {reply : Bench.Reply}
    {system after : System machine HostState (List Answer)} (stands : slot.Stands system)
    (ran : (step.program slot).run (slot.interrupted calls) depth system =
      .ok ((reply, later), after)) :
    later.Stands after ∧ ∃ booked, Booked system after booked
      ∧ step.Calls (slot.owned? system.cell) booked (later.owned? after.cell) := by
  cases step with
  | load config source =>
      obtain ⟨⟨outcome, loaded⟩, last, hload, hdone⟩ := Prog.run_bind_ok ran
      cases hdone
      exact stands.load hload
  | unload =>
      obtain ⟨unloaded, last, hunload, hdone⟩ := Prog.run_bind_ok ran
      cases hdone
      obtain ⟨hempty, status, hbooked⟩ := booked_unload stands hunload
      constructor
      · intro host hhost
        rw [hempty] at hhost
        cases hhost
      · rw [owned?_eq later, hempty]
        exact ⟨_, hbooked, .unloaded status⟩
  | loaded =>
      cases ran
      exact ⟨stands, [], Booked.refl system, .asked⟩
  | call operation =>
      obtain ⟨answer, last, hperform, hdone⟩ := Prog.run_bind_ok ran
      cases hdone
      exact stands.perform hperform

end Slot

/-! ## The ledger -/

theorem Unfulfilled.settles {calls : List (Event ρ)} (h : Unfulfilled calls) (live : List Pages) :
    calls.foldlM Event.settle live = some live := by
  cases h with
  | none => rfl
  | refused services count h =>
      rw [List.foldlM_cons, settle_refused h]
      rfl

theorem PhaseCalls.settles {calls : List (Event ρ)} (h : PhaseCalls calls) (live : List Pages) :
    calls.foldlM Event.settle live = some live := by
  cases h with
  | unfulfilled h => exact h.settles live
  | borrowed pages status =>
      rw [List.foldlM_cons, settle_grantCall, Option.bind_eq_bind, Option.bind_some,
        List.foldlM_cons, settle_freeCall List.mem_cons_self, List.erase_cons_head]
      rfl

/-- Pages given back are outstanding no more, and pages granted before stay. -/
theorem returns_settles (status : Status) (owned : Option Pages) (granted : List Pages)
    (h : granted.length ≤ 1) :
    (returns status owned : List (Event ρ)).foldlM Event.settle (granted ++ owned.toList) =
      some granted := by
  cases owned with
  | none => exact congrArg some (List.append_nil granted)
  | some former =>
      have hmem : former ∈ granted ++ [former] := by simp
      have herase : (granted ++ [former]).erase former = granted := by
        cases granted with
        | nil => exact List.erase_cons_head former []
        | cons pages rest =>
            have hrest : rest = [] := List.eq_nil_of_length_eq_zero (Nat.le_zero.mp
              (Nat.le_of_succ_le_succ h))
            subst hrest
            by_cases hsame : pages = former
            · rw [hsame]
              exact List.erase_cons_head former [former]
            · rw [List.cons_append, List.erase_cons_tail (by simpa using hsame)]
              exact congrArg _ (List.erase_cons_head former [])
      show [former.freeCall status].foldlM Event.settle (granted ++ [former]) = _
      rw [List.foldlM_cons, settle_freeCall hmem, herase]
      rfl

/-- The calls of a step settle what was owned before it into what is owned after it. -/
theorem Bench.HostStep.Calls.settles {owned left : Option Pages} {step : Bench.HostStep}
    {calls : List (Event ρ)} (h : step.Calls owned calls left) :
    calls.foldlM Event.settle owned.toList = some left.toList := by
  cases h with
  | loaded config source pages status =>
      rw [List.foldlM_cons, settle_grantCall]
      exact returns_settles status owned [pages] (Nat.le_refl 1)
  | failed config source h => exact h.settles _
  | unloaded status => exact returns_settles status owned [] (Nat.zero_le 1)
  | asked => rfl
  | phase h hcalls => exact hcalls.settles _
  | other h => rfl

/-! ## Histories of a slot -/

namespace Slot

variable {machine : Machine ι}

/-- A history of steps: the replies, with the slot and the system it leaves. -/
def replay (calls : ι → List Call) (depth : Nat) :
    List Bench.HostStep → Slot → System machine HostState (List Answer) →
      Except Halt (List Bench.Reply × Slot × System machine HostState (List Answer))
  | [], slot, system => .ok ([], slot, system)
  | step :: steps, slot, system =>
    match (step.program slot).run (slot.interrupted calls) depth system with
    | .ok ((reply, later), after) =>
      match replay calls depth steps later after with
      | .ok (replies, ended) => .ok (reply :: replies, ended)
      | .error halt => .error halt
    | .error halt => .error halt

/-- The pages outstanding are those of the loaded host. -/
def Accounts (slot : Slot) (system : System machine HostState ρ) : Prop :=
  outstanding (pageCalls system.journal) = some (slot.owned? system.cell).toList

theorem Accounts.step {slot later : Slot} {system after : System machine HostState ρ}
    {step : Bench.HostStep} {booked : List (Event ρ)} (h : slot.Accounts system)
    (hbooked : Booked system after booked)
    (hcalls : step.Calls (slot.owned? system.cell) booked (later.owned? after.cell)) :
    later.Accounts after := by
  unfold Accounts outstanding at h ⊢
  unfold Booked at hbooked
  rw [hbooked, List.foldlM_append, h]
  exact hcalls.settles

/-- The run lemma: over a history the loaded host keeps its ring, and no other pages stay
outstanding. -/
theorem replay_accounts {calls : ι → List Call} {depth : Nat} {steps : List Bench.HostStep}
    {replies : List Bench.Reply} {slot last : Slot}
    {system now : System machine HostState (List Answer)} (stands : slot.Stands system)
    (accounts : slot.Accounts system)
    (ran : replay calls depth steps slot system = .ok (replies, last, now)) :
    last.Stands now ∧ last.Accounts now := by
  induction steps generalizing slot system replies with
  | nil =>
      cases ran
      exact ⟨stands, accounts⟩
  | cons step steps ih =>
      unfold replay at ran
      split at ran
      · rename_i reply later after hran
        split at ran
        · rename_i rest ended hrest
          cases ran
          obtain ⟨hstands, booked, hbooked, hcalls⟩ := stands.step hran
          exact ih hstands (accounts.step hbooked hcalls) hrest
        · cases ran
      · cases ran

/-! ## Statuses of frees -/

theorem alike_interrupted (slot : Slot) (calls : ι → List Call) (i : ι) :
    (slot.interrupted calls i).Alike (slot.interrupted calls i) := by
  unfold interrupted
  split
  · exact .done []
  · exact Host.alike_performAll _ (calls i)

/-- On a machine that reports other statuses of frees, a history leaves the same. -/
theorem replay_alike {report : Services → UInt64 → Nat → Shared machine.State → Status}
    {calls : ι → List Call} {depth : Nat} {steps : List Bench.HostStep}
    {replies : List Bench.Reply} {slot last : Slot}
    {one now : System machine HostState (List Answer)}
    {other : System (machine.reporting report) HostState (List Answer)} (alike : one.Alike other)
    (ran : replay calls depth steps slot one = .ok (replies, last, now)) :
    ∃ left, replay calls depth steps slot other = .ok (replies, last, left) ∧ now.Alike left := by
  induction steps generalizing slot one other replies with
  | nil =>
      cases ran
      exact ⟨other, rfl, alike⟩
  | cons step steps ih =>
      unfold replay at ran ⊢
      split at ran
      · rename_i reply later after hran
        split at ran
        · rename_i rest ended hrest
          cases ran
          obtain ⟨reported, hreported, hafter⟩ :=
            (step.alike_program slot).run (slot.alike_interrupted calls) alike hran
          obtain ⟨left, hleft, hnow⟩ := ih hafter hrest
          rw [hreported]
          dsimp only
          rw [hleft]
          exact ⟨left, rfl, hnow⟩
        · cases ran
      · cases ran

/-- Over any history of loads, unloads and operations every free is of outstanding pages, and what
stays outstanding is the ring of the loaded host: all other pages are freed as often as they are
granted.  Each further step books its own calls.  What a free reports changes neither the replies
nor the state behind the lock, and there is no further call because of it. -/
theorem pages_freed_once {calls : ι → List Call} {depth : Nat} {steps : List Bench.HostStep}
    {replies : List Bench.Reply} {slot : Slot}
    {start now : System machine HostState (List Answer)} (fresh : start.journal = [])
    (ran : replay calls depth steps .empty start = .ok (replies, slot, now)) :
    outstanding (pageCalls now.journal) = some (slot.owned? now.cell).toList
      ∧ (slot.owned? now.cell).isSome = slot.host.isSome
      ∧ (∀ pages, (grantedPages (pageCalls now.journal)).count pages =
          (freedPages (pageCalls now.journal)).count pages
            + (slot.owned? now.cell).toList.count pages)
      ∧ (∀ step reply later after, (Bench.HostStep.program slot step).run (slot.interrupted calls)
          depth now = .ok ((reply, later), after) →
            ∃ booked, pageCalls after.journal = pageCalls now.journal ++ booked
              ∧ step.Calls (slot.owned? now.cell) booked (later.owned? after.cell))
      ∧ ∀ report, ∃ other, replay calls depth steps .empty (start.reporting report) =
          .ok (replies, slot, other) ∧ now.Alike other := by
  have hempty : Slot.empty.Stands start := by
    intro host hhost
    cases hhost
  have hnothing : Slot.empty.Accounts start := by
    unfold Accounts
    rw [fresh]
    rfl
  obtain ⟨hstands, haccounts⟩ := replay_accounts hempty hnothing ran
  refine ⟨haccounts, ?_, outstanding_count haccounts, ?_, ?_⟩
  · cases hhost : slot.host with
    | none => rw [owned?_eq, hhost]; rfl
    | some host =>
        obtain ⟨state, hcell, -⟩ := hstands host hhost
        rw [owned?_eq, hhost, hcell]
        rfl
  · intro step reply later after hran
    exact (hstands.step hran).2
  · intro report
    exact replay_alike (start.alike_reporting report) ran

/-- A write between two loads on the small bench. -/
def reloading : List Bench.HostStep :=
  [.load hastyHost.config .supplied, .call (.sendCommand 24 0), .call (.writeData 1 [7]),
    .load hastyHost.config .supplied]

/-- Whether a history ended with a ring in the second page, granted after a ring in the first page
and staging pages in the second. -/
def hasReloaded :
    Except Halt (List Bench.Reply × Slot × System machine HostState (List Answer)) → Bool
  | .ok (_, slot, now) =>
    slot.owned? now.cell == some ⟨.supplied, 0x1F0001000, 1⟩
      && grantedPages (pageCalls now.journal) ==
        [⟨.supplied, 0x1F0000000, 1⟩, ⟨.supplied, 0x1F0001000, 1⟩, ⟨.supplied, 0x1F0001000, 1⟩]
  | .error _ => false

/-- There the former ring and the staging page were freed once each, and the later ring stays
outstanding. -/
theorem reloaded_ring_outstanding :
    ∃ replies slot now, replay (fun call => [call]) 1 reloading .empty
        (smallBench : System Bench.machine HostState (List Answer)) = .ok (replies, slot, now)
      ∧ outstanding (pageCalls now.journal) = some [⟨.supplied, 0x1F0001000, 1⟩]
      ∧ (freedPages (pageCalls now.journal)).count ⟨.supplied, 0x1F0000000, 1⟩ = 1
      ∧ (freedPages (pageCalls now.journal)).count ⟨.supplied, 0x1F0001000, 1⟩ = 1 := by
  have hreloaded : hasReloaded (replay (fun call => [call]) 1 reloading .empty
      (smallBench : System Bench.machine HostState (List Answer))) = true := by
    decide +kernel
  cases hran : replay (fun call => [call]) 1 reloading .empty
      (smallBench : System Bench.machine HostState (List Answer)) with
  | error halt =>
      rw [hran] at hreloaded
      cases hreloaded
  | ok ended =>
      obtain ⟨replies, slot, now⟩ := ended
      rw [hran] at hreloaded
      simp only [hasReloaded, Bool.and_eq_true, beq_iff_eq] at hreloaded
      obtain ⟨howned, hgranted⟩ := hreloaded
      obtain ⟨hlive, -, hcounts, -⟩ := pages_freed_once rfl hran
      have hformer := hcounts ⟨.supplied, 0x1F0000000, 1⟩
      have hstaging := hcounts ⟨.supplied, 0x1F0001000, 1⟩
      rw [howned] at hlive
      rw [howned, hgranted] at hformer hstaging
      refine ⟨replies, slot, now, rfl, hlive, ?_, ?_⟩
      · simpa using hformer.symm
      · simpa using hstaging.symm

end Slot

end CardHost
