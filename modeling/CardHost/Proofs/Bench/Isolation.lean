import CardHost.Proofs.Bench.Confinement

/-!
# The driver stays in its own memory

On the simulated controller no request of the driver, and nothing that the card does because of
one, changes memory outside the descriptors of the driver's ring and, during a data phase, the
staging pages of its transfer; and the card follows no other descriptors
(`Slot.memory_confined`).  That holds over every history of loads, unloads and operations, at every
moment of every step, whatever the step comes to, wherever the allocator has its pages and however
far the DMA engine reaches.

Most requests are `Harmless`: they store nothing and start no command with data.  What is left are
the transfers of data phases (`Host.perform_confined`) and the fresh rings of loads
(`Slot.lays_load`).
-/

namespace CardHost

/-! ## Requests that leave memory alone -/

/-- A request that stores nothing and starts no command with data. -/
def Request.Harmless : Request σ → Prop
  | .store .. => False
  | .write window offset value =>
    window.services = .supplied ∧ ¬ (.write window offset value : Request σ).CommandsData
  | _ => True

theorem Request.Idle.harmless {request : Request σ} (h : request.Idle) : request.Harmless := by
  cases request with
  | store => exact h.elim
  | write => exact h.elim
  | _ => trivial

theorem Request.OffBoard.harmless {request : Request σ} (h : request.OffBoard) :
    request.Harmless := by
  cases request with
  | store => exact h.elim
  | write => exact h.elim
  | _ => trivial

theorem Request.OnRegisters.harmless {window : Window} {request : Request σ}
    (supplied : window.services = .supplied)
    (h : request.OnRegisters window Register.WritesQuietly) : request.Harmless := by
  cases request with
  | store => exact h.elim
  | write w offset value =>
      obtain ⟨rfl, register, rfl, -, -, hquiet⟩ := h
      refine ⟨supplied, fun hcommand => ?_⟩
      have hdata := hquiet (Register.offset_injective hcommand.1)
      rw [hcommand.2] at hdata
      cases hdata
  | _ => trivial

/-- Nothing is followed, and no memory changes but by the allocator. -/
def Moment.Spotless {allocator : Bench.Allocator}
    (moment : Moment (Bench.machineWith allocator) σ ρ) : Prop :=
  moment.followed = [] ∧ (moment.request.KeepsPages → ∀ address, ¬ moment.Changes address)

theorem Moment.spotless {allocator : Bench.Allocator}
    {moment : Moment (Bench.machineWith allocator) σ ρ} (h : moment.request.Harmless)
    (untimed : Bench.Untimed moment.system.shared) : moment.Spotless := by
  have hnone : moment.followed = [] := by
    refine List.eq_nil_iff_forall_not_mem.mpr fun entry hmem => ?_
    have hcommand := (mem_followed hmem).1
    obtain ⟨request, system⟩ := moment
    cases request with
    | write window offset value => exact h.2 hcommand
    | _ => exact hcommand
  refine ⟨hnone, fun hkeeps address hchanges => ?_⟩
  have hreaches := hchanges.reaches untimed
  unfold Reaches at hreaches
  rw [hnone] at hreaches
  obtain ⟨request, system⟩ := moment
  cases request with
  | store => exact h
  | write =>
      obtain ⟨entry, hmem, -⟩ := hreaches h.1
      cases hmem
  | allocate => exact hkeeps
  | free => exact hkeeps
  | _ => exact hreaches

/-! ## Operations -/

section Operations

variable {allocator : Bench.Allocator} {host : Host} {depth : Nat}
  {front back : List (Moment (Bench.machineWith allocator) HostState ρ)}
  {moment : Moment (Bench.machineWith allocator) HostState ρ}

/-- A moment of a transfer through pages that were granted before it: what is followed is in the
ring with buffers in the pages, and memory changes in both. -/
structure Moment.Transfers (moment : Moment (Bench.machineWith allocator) σ ρ)
    (front : List (Moment (Bench.machineWith allocator) σ ρ)) (ring : Ring) (pages : Pages) :
    Prop where
  granted : front.filterMap Moment.pageCall? = [pages.grantCall]
  follows : ∀ entry ∈ moment.followed, ring.Lends pages entry
  changes : ∀ address, moment.Changes address → ring.Reserves pages address

/-- Where some linked requests find no timers, there were none before them. -/
theorem untimed_of_linked {before after : Bench.Platform}
    {trace : List (Moment (Bench.machineWith allocator) σ ρ)}
    (hlinked : Linked before trace after)
    (huntimed : ∀ moment ∈ trace, Bench.Untimed moment.system.shared)
    (hafter : Bench.Untimed after) : Bench.Untimed before := by
  cases trace with
  | nil =>
      have hend : before = after := hlinked
      rw [hend]
      exact hafter
  | cons first rest =>
      have hfirst := huntimed first List.mem_cons_self
      rw [hlinked.1] at hfirst
      exact hfirst

/-- A data phase leaves memory alone, but in its transfer. -/
theorem Host.Phased.confined {handler : Call → Prog HostState ρ}
    (idles : Idles (Bench.machineWith allocator) handler depth)
    (supplied : host.services = .supplied) {cell : Option HostState} {length : Nat}
    {buffer : DataBuffer} {trace : List (Moment (Bench.machineWith allocator) HostState ρ)}
    {ends : Except HostError (List UInt8) → Prop}
    (h : host.Phased handler depth cell length buffer trace ends)
    (untimed : ∀ other ∈ trace, Bench.Untimed other.system.shared)
    (htrace : trace = front ++ moment :: back) :
    moment.Spotless
      ∨ ∃ ring latch pages, cell = some ⟨ring, some latch⟩ ∧ moment.Transfers front ring pages := by
  have hmoment : moment ∈ trace := by
    rw [htrace]
    simp
  have offBoard (hoff : moment.request.OffBoard) : moment.Spotless :=
    Moment.spotless hoff.harmless (untimed moment hmoment)
  cases h with
  | failed quiet fails => exact .inl (offBoard (quiet moment hmoment))
  | @moved ring latch pages borrowed lead tail latched cleared held granted before after split
      moves called =>
      rw [split] at htrace untimed
      rcases split_append htrace with ⟨between, rfl, hbehind⟩ | ⟨between, rfl, -⟩
      · rcases split_append hbehind with ⟨rest, rfl, htail⟩ | ⟨rest, hmoved, -⟩
        · refine .inl (offBoard (after moment ?_).offBoard)
          rw [htail]
          simp
        · right
          have huntimed (other : Moment (Bench.machineWith allocator) HostState ρ)
              (hmem : other ∈ (host.moveThrough ring latch length buffer pages).run.trace handler
                depth borrowed) : Bench.Untimed other.system.shared :=
            untimed other (List.mem_append_right _ (List.mem_append_left _ hmem))
          have hborrowed : Bench.Untimed borrowed.shared := by
            refine untimed_of_linked (Prog.linked_of_trace hmoved) (fun other hmem => ?_) ?_
            · refine huntimed other ?_
              rw [hmoved]
              exact List.mem_append_left _ hmem
            · refine huntimed moment ?_
              rw [hmoved]
              simp
          have hquiet : between.filterMap Moment.pageCall? = [] := by
            refine filterMap_pageCall_of_keepsPages fun other hmem => ?_
            have hunpaged := Host.moveThrough_unpaged idles held other (by
              rw [hmoved]
              exact List.mem_append_left _ hmem)
            exact hunpaged.elim Request.Unpaged.keepsPages Request.Idle.keepsPages
          refine ⟨ring, latch, pages, latched, ?_, ?_, ?_⟩
          · rw [List.filterMap_append, called, hquiet, List.append_nil]
          · exact cleared.followed_lends idles supplied held hborrowed hmoved
          · exact cleared.changes_reserves idles supplied held hborrowed hmoved
      · exact .inl (offBoard (before moment (by simp)))

/-- An operation leaves memory alone, but in the transfer of a data phase. -/
theorem Host.perform_confined {calls : Call → List Call} {call : Call}
    {system : System (Bench.machineWith allocator) HostState (List Answer)}
    {front back : List (Moment (Bench.machineWith allocator) HostState (List Answer))}
    {moment : Moment (Bench.machineWith allocator) HostState (List Answer)}
    (supplied : host.services = .supplied) (untimed : Bench.Untimed system.shared)
    (htrace : (host.perform call).trace (fun i => host.performAll (calls i)) depth system =
      front ++ moment :: back) :
    moment.Spotless
      ∨ ∃ ring latch pages, system.cell = some ⟨ring, some latch⟩ ∧ call.phase?.isSome = true
        ∧ moment.Transfers front ring pages := by
  have hmoment : moment ∈ (host.perform call).trace (fun i => host.performAll (calls i)) depth
      system := by
    rw [htrace]
    simp
  have huntimed := untimed_of_mem_trace untimed moment hmoment
  have idles : Idles (Bench.machineWith allocator) (fun i => host.performAll (calls i)) depth :=
    host.idles_performAll calls depth
  cases hphase : call.phase? with
  | some phase =>
      obtain ⟨length, buffer⟩ := phase
      rcases (host.perform_phased hphase _ depth system).confined idles supplied
          (untimed_of_mem_trace untimed) htrace with
        hspotless | ⟨ring, latch, pages, hcell, htransfers⟩
      · exact .inl hspotless
      · exact .inr ⟨ring, latch, pages, hcell, rfl, htransfers⟩
  | none =>
      left
      rcases host.permits_of_mem_trace idles call system moment hmoment with
        hidle | ⟨left, hput⟩ | hpermits
      · exact Moment.spotless hidle.harmless huntimed
      · refine Moment.spotless ?_ huntimed
        rw [hput]
        trivial
      · exact Moment.spotless ((hpermits.of_not_phase hphase).harmless supplied) huntimed

end Operations

/-! ## Loads -/

section Loads

variable {machine : Machine ι} {handler : ι → Prog σ ρ} {depth : Nat}

/-- A trace that stores descriptors of a fresh ring of some count, into pages that it was granted
before, and is otherwise harmless. -/
def Lays (count : Nat) (trace : List (Moment machine σ ρ)) : Prop :=
  ∀ front moment back, trace = front ++ moment :: back → moment.request.Harmless
    ∨ ∃ pages : Pages, front.filterMap Moment.pageCall? = [pages.grantCall]
      ∧ ∃ start bytes, moment.request = .store start bytes
        ∧ ∀ address, start ≤ address → address < start + bytes.length →
          (Ring.mk pages.address count pages.count).Covers address

theorem lays_of_harmless {count : Nat} {trace : List (Moment machine σ ρ)}
    (h : ∀ moment ∈ trace, moment.request.Harmless) : Lays count trace := by
  rintro front moment back rfl
  exact .inl (h moment (by simp))

theorem Lays.append {count : Nat} {first rest : List (Moment machine σ ρ)} (h : Lays count first)
    (hrest : ∀ moment ∈ rest, moment.request.Harmless) : Lays count (first ++ rest) := by
  intro front moment back hsplit
  rcases split_append hsplit with ⟨between, -, rfl⟩ | ⟨between, hfirst, -⟩
  · exact .inl (hrest moment (by simp))
  · exact h front moment between hfirst

/-- A program off the board is harmless. -/
theorem Prog.Asks.harmless_of_mem_trace {program : Prog σ α} (h : program.Asks Request.OffBoard)
    (system : System machine σ ρ) :
    ∀ moment ∈ program.trace handler depth system, moment.request.Harmless := by
  intro moment hmem
  rw [h.trace_eq_moments_of handler depth (fun _ _ _ => id)] at hmem
  exact (h.of_mem_moments handler depth system moment hmem).harmless

/-- What comes behind a program off the board adds nothing. -/
theorem Lays.bind {count : Nat} {program : Prog σ α} {next : α → Prog σ β}
    {system : System machine σ ρ} (h : Lays count (program.trace handler depth system))
    (rest : ∀ value, (next value).Asks Request.OffBoard) :
    Lays count ((program.bind next).trace handler depth system) := by
  rw [Prog.trace_bind]
  refine h.append fun moment hmem => ?_
  split at hmem
  · exact (rest _).harmless_of_mem_trace _ moment hmem
  · cases hmem

/-- A fresh ring is stored in its own descriptors. -/
theorem Ring.asks_reset_within (ring : Ring) (window : Window) :
    (ring.reset : Prog σ Unit).Asks (Request.Within window ring.Covers) := by
  have hput (index : Nat) (descriptors : List Descriptor)
      (hcount : index + descriptors.length ≤ ring.count) :
      (ring.putFrom index descriptors : Prog σ Unit).Asks (Request.Within window ring.Covers) := by
    induction descriptors generalizing index with
    | nil => trivial
    | cons descriptor rest ih =>
        rw [List.length_cons] at hcount
        refine (Prog.asks_request ?_).bind fun _ => ih (index + 1) (by omega)
        intro address hstart hstop
        have hbase : ring.base.toNat ≤ ring.place index := Nat.le_add_right _ _
        have hbehind := ring.place_behind (show index < ring.count by omega)
        rw [DescriptorWords.length_toBytes] at hstop
        exact ⟨by omega, by omega⟩
  unfold reset
  split
  · refine hput 0 _ ?_
    simp [fresh]
  · trivial

/-- Pages are granted, and then a program on memory stores in the ring of these pages. -/
theorem lays_granted {count : Nat} {services : Services} {asked : Nat} {pages : Pages}
    {before : System machine σ ρ}
    (hgranted : (⟨.allocate services asked, before⟩ : Moment machine σ ρ).granted? = some pages)
    {program : Prog σ α} {window : Window} (hmemory : program.Asks Request.OnMemory)
    (hwithin : program.Asks
      (Request.Within window (Ring.mk pages.address count pages.count).Covers))
    (system : System machine σ ρ) :
    Lays count (⟨.allocate services asked, before⟩ :: program.trace handler depth system) := by
  rw [(hmemory.mono fun _ => Request.OnMemory.silent).trace_eq_moments]
  intro front moment back hsplit
  cases front with
  | nil =>
      obtain ⟨rfl, -⟩ := List.cons.inj hsplit
      exact .inl trivial
  | cons first between =>
      obtain ⟨rfl, hmoments⟩ := List.cons.inj hsplit
      have hon := hmemory.of_mem_moments handler depth system
      have hin := hwithin.of_mem_moments handler depth system moment (by rw [hmoments]; simp)
      have hmoment := hon moment (by rw [hmoments]; simp)
      obtain ⟨request, asked⟩ := moment
      cases request with
      | store start bytes =>
          refine .inr ⟨pages, ?_, start, bytes, rfl, hin⟩
          rw [List.filterMap_cons, pageCall?_of_granted hgranted, filterMap_pageCall_of_keepsPages]
          intro other hmem
          exact (hon other (by rw [hmoments]; exact List.mem_append_left _ hmem)).unpaged.keepsPages
      | write => exact hmoment.elim
      | _ => exact .inl trivial

/-- A ring is made fresh in pages that were granted for it. -/
theorem Ring.lays_allocate (services : Services) (count : Nat) (system : System machine σ ρ) :
    Lays count ((Ring.allocate services count : Action σ Ring).run.trace handler depth system) := by
  have quiet {program : Prog σ (Except HostError Ring)} (h : program.Asks Request.OffBoard) :
      Lays count (program.trace handler depth system) :=
    lays_of_harmless (h.harmless_of_mem_trace system)
  unfold allocate
  split
  · exact quiet trivial
  · split
    · exact quiet trivial
    · rw [Action.run_bind]
      rcases Pages.trace_allocate handler depth services (pagesFor (count * descriptorSize))
        (fun error => .ringNotAllocated count error) system with
          ⟨error, after, -, hran, -, -, hoff, -⟩ |
            ⟨pages, after, hran, -, -, -, htrace, hgranted⟩
      · rw [Prog.trace_bind_of_run handler depth hran]
        refine lays_of_harmless fun moment hmem => ?_
        rcases List.mem_append.mp hmem with hmem | hmem
        · exact (hoff moment hmem).harmless
        · cases hmem
      · rw [Prog.trace_bind_of_run handler depth hran, htrace]
        have hmemory : (do
            (Ring.mk pages.address count pages.count).reset.lift
            (Prog.log (.ringReady count pages.address)).lift
            pure ⟨pages.address, count, pages.count⟩ : Action σ Ring).Asks Request.OnMemory :=
          Action.Asks.bind (Action.asks_lift (asks_reset _)) fun _ =>
            Action.Asks.bind (Action.asks_lift (asks_log _ trivial)) fun _ => Action.asks_pure _
        have hwithin : (do
            (Ring.mk pages.address count pages.count).reset.lift
            (Prog.log (.ringReady count pages.address)).lift
            pure ⟨pages.address, count, pages.count⟩ : Action σ Ring).Asks
              (Request.Within ⟨0, services⟩ (Ring.mk pages.address count pages.count).Covers) :=
          Action.Asks.bind (Action.asks_lift (asks_reset_within _ _)) fun _ =>
            Action.Asks.bind (Action.asks_lift (asks_log _ trivial)) fun _ => Action.asks_pure _
        exact lays_granted hgranted hmemory hwithin after

theorem Host.lays_load (config : HostConfig) (services : Services) (system : System machine σ ρ) :
    Lays config.descriptorCount.toNat
      ((Host.load config services : Action σ (Host × HostState)).run.trace handler depth
        system) := by
  have hmake : Lays config.descriptorCount.toNat
      ((Host.make config services : Action σ (Host × HostState)).run.trace handler depth
        system) := by
    unfold make
    split
    · have hrefused {defect : Defect} :
          (do report (.configRefused config defect); throw defect.error :
            Action σ (Host × HostState)).run.Asks Request.OffBoard :=
        (asks_log _ trivial).bind fun _ => Prog.asks_done _
      exact lays_of_harmless (hrefused.harmless_of_mem_trace system)
    · rw [Action.run_bind]
      apply (Ring.lays_allocate services _ system).bind
      intro outcome
      cases outcome <;> trivial
  unfold load
  rw [Action.run_bind, Action.run_onError]
  apply Lays.bind
  · apply hmake.bind
    intro outcome
    cases outcome with
    | ok made => trivial
    | error error => exact asks_log _ trivial
  · intro outcome
    cases outcome with
    | ok made => exact (asks_log _ trivial).bind fun _ => Prog.asks_done _
    | error error => trivial

end Loads

namespace Slot

variable {machine : Machine ι} {handler : ι → Prog HostState ρ} {depth : Nat} (slot : Slot)

theorem asks_detach : slot.detach.Asks Request.OffBoard := by
  unfold detach
  split
  · trivial
  · exact (Prog.asks_request trivial).bind fun _ => Prog.asks_done _

theorem asks_unload : slot.unload.Asks Request.OffBoard := by
  unfold unload
  split
  · trivial
  · refine (asks_log _ trivial).bind fun _ => ?_
    refine slot.asks_detach.bind fun former => ?_
    exact (asks_retire (fun _ _ _ => trivial) (fun _ => trivial) former).bind fun _ =>
      Prog.asks_done _

/-- A load stores a fresh ring into pages that it was granted, and nothing else. -/
theorem lays_load (config : HostConfig) (source : Bench.Source)
    (system : System machine HostState ρ) :
    Lays config.descriptorCount.toNat ((source.load slot config).trace handler depth system) := by
  have loads (services : Services) :
      Lays config.descriptorCount.toNat
        ((slot.load config services).trace handler depth system) := by
    unfold load
    apply (Host.lays_load config services system).bind
    intro outcome
    cases outcome with
    | error error => trivial
    | ok made =>
        refine slot.asks_detach.bind fun former => ?_
        refine (Prog.asks_request trivial).bind fun _ => ?_
        exact (asks_retire (fun _ _ _ => trivial) (fun _ => trivial) former).bind fun _ =>
          Prog.asks_done _
  cases source with
  | supplied => exact loads .supplied
  | firmware => exact loads .firmware
  | missing =>
      have hmissing : (Bench.Source.missing.load slot config).Asks Request.OffBoard :=
        (asks_log _ trivial).bind fun _ => Prog.asks_done _
      exact lays_of_harmless (hmissing.harmless_of_mem_trace system)

/-- Pages granted by a step are live next to those of the loaded host. -/
theorem Accounts.live {slot : Slot} {now asked : System machine HostState ρ} {pages : Pages}
    (h : slot.Accounts now) (hbooked : Booked now asked [pages.grantCall]) :
    outstanding (pageCalls asked.journal) = some (pages :: (slot.owned? now.cell).toList) := by
  unfold Accounts outstanding at h
  unfold Booked at hbooked
  unfold outstanding
  rw [hbooked, List.foldlM_append, h]
  rfl

end Slot

/-! ## Histories -/

/-- The bytes that a step may change, where `owned` are the pages of the loaded host, `cell` holds
its state and `live` are the outstanding pages: for an operation the descriptors of the ring and,
if it is a data phase, its staging pages, and for a load those of the ring that it makes. -/
inductive Bench.HostStep.Uses (owned : Option Pages) (cell : Option HostState)
    (live : Option (List Pages)) : Bench.HostStep → Nat → Prop
  | ring {call : Call} {state : HostState} {address : Nat} (loaded : cell = some state)
      (covers : state.ring.Covers address) : Uses owned cell live (.call call) address
  | staging {call : Call} {pages : Pages} {address : Nat} (phase : call.phase?.isSome = true)
      (alive : live = some (pages :: owned.toList)) (covers : pages.Covers address) :
      Uses owned cell live (.call call) address
  | fresh {config : HostConfig} {source : Bench.Source} {pages : Pages} {address : Nat}
      (alive : live = some (pages :: owned.toList))
      (covers : (Ring.mk pages.address config.descriptorCount.toNat pages.count).Covers address) :
      Uses owned cell live (.load config source) address

namespace Slot

variable {allocator : Bench.Allocator} {calls : Call → List Call} {depth : Nat} {slot : Slot}
  {now : System (Bench.machineWith allocator) HostState (List Answer)}
  {front back : List (Moment (Bench.machineWith allocator) HostState (List Answer))}
  {moment : Moment (Bench.machineWith allocator) HostState (List Answer)}

/-- One moment of a step: bytes change where the step may change them, if the request is not for the
allocator, and a descriptor that the card follows is one of the ring, with its buffer in the staging
pages of the data phase, which are live next to those of the ring. -/
structure Confined (slot : Slot)
    (now : System (Bench.machineWith allocator) HostState (List Answer)) (step : Bench.HostStep)
    (moment : Moment (Bench.machineWith allocator) HostState (List Answer)) : Prop where
  changes : moment.request.KeepsPages → ∀ address, moment.Changes address →
    step.Uses (slot.owned? now.cell) now.cell (outstanding (pageCalls moment.system.journal))
      address
  follows : ∀ entry ∈ moment.followed, ∃ call state staging, step = .call call
    ∧ call.phase?.isSome = true ∧ now.cell = some state
    ∧ outstanding (pageCalls moment.system.journal) = some [staging, state.ring.owned .supplied]
    ∧ state.ring.Lends staging entry

theorem confined_of_spotless {step : Bench.HostStep} (h : moment.Spotless) :
    slot.Confined now step moment := by
  refine ⟨fun hkeeps address hchanges => (h.2 hkeeps address hchanges).elim, ?_⟩
  rw [h.1]
  simp

/-- A load is confined to the ring that it makes. -/
theorem load_confined {config : HostConfig} {source : Bench.Source} (accounts : slot.Accounts now)
    (untimed : Bench.Untimed now.shared)
    (htrace : ((Bench.HostStep.load config source).program slot).trace (slot.interrupted calls)
      depth now = front ++ moment :: back) :
    slot.Confined now (.load config source) moment := by
  have huntimed : Bench.Untimed moment.system.shared :=
    Prog.carried_at along_untimed untimed htrace
  have hbooked := Prog.booked_of_trace htrace
  have hlays : Lays config.descriptorCount.toNat
      (((Bench.HostStep.load config source).program slot).trace (slot.interrupted calls) depth
        now) := by
    apply (slot.lays_load config source now).bind
    intro loaded
    trivial
  rcases hlays front moment back htrace with hharmless | ⟨pages, hcalls, start, bytes, hstore, hin⟩
  · exact confined_of_spotless (Moment.spotless hharmless huntimed)
  · rw [hcalls] at hbooked
    have hfollowed : moment.followed = [] := by
      unfold Moment.followed
      rw [hstore]
    constructor
    · intro _ address hchanges
      have hreaches := hchanges.reaches huntimed
      unfold Moment.Reaches at hreaches
      rw [hstore] at hreaches
      exact .fresh (accounts.live hbooked) (hin address hreaches.1 hreaches.2)
    · rw [hfollowed]
      simp

/-- An operation is confined to the ring of its host and to the staging pages of its transfer. -/
theorem call_confined {call : Call} (accounts : slot.Accounts now)
    (untimed : Bench.Untimed now.shared)
    (supplied : ∀ host, slot.host = some host → host.services = .supplied)
    (htrace : ((Bench.HostStep.call call).program slot).trace (slot.interrupted calls)
      depth now = front ++ moment :: back) :
    slot.Confined now (.call call) moment := by
  have hbooked := Prog.booked_of_trace htrace
  obtain ⟨_ | host⟩ := slot
  · cases front <;> cases htrace
  · have hservices := supplied host rfl
    have hprogram : (Bench.HostStep.call call).program ⟨some host⟩ =
        (host.perform call).bind fun answer => .done (.answer answer, ⟨some host⟩) := rfl
    rw [hprogram, Prog.trace_bind_done] at htrace
    rcases Host.perform_confined hservices untimed htrace with
      hspotless | ⟨ring, latch, pages, hcell, hphase, htransfers⟩
    · exact confined_of_spotless hspotless
    · rw [htransfers.granted] at hbooked
      have hlive := accounts.live hbooked
      constructor
      · intro _ address hchanges
        rcases htransfers.changes address hchanges with hring | hpages
        · exact .ring hcell hring
        · exact .staging hphase hlive hpages
      · intro entry hmem
        refine ⟨call, _, pages, rfl, hphase, hcell, ?_, htransfers.follows entry hmem⟩
        rw [hlive, hcell, ← hservices]
        rfl

/-- What a step touches, whatever it is. -/
theorem step_confined {step : Bench.HostStep} (accounts : slot.Accounts now)
    (untimed : Bench.Untimed now.shared)
    (supplied : ∀ host, slot.host = some host → host.services = .supplied)
    (htrace : (step.program slot).trace (slot.interrupted calls) depth now =
      front ++ moment :: back) :
    slot.Confined now step moment := by
  cases step with
  | load config source => exact load_confined accounts untimed htrace
  | unload =>
      have huntimed : Bench.Untimed moment.system.shared :=
        Prog.carried_at along_untimed untimed htrace
      have hasks : (Bench.HostStep.unload.program slot).Asks Request.OffBoard :=
        slot.asks_unload.bind fun _ => Prog.asks_done _
      have hharmless := hasks.harmless_of_mem_trace now moment (by rw [htrace]; simp)
      exact confined_of_spotless (Moment.spotless hharmless huntimed)
  | loaded => cases front <;> cases htrace
  | call call => exact call_confined accounts untimed supplied htrace

/-- A bench without timers has none after a history. -/
theorem replay_untimed {steps : List Bench.HostStep} {replies : List Bench.Reply} {slot last : Slot}
    {start : System (Bench.machineWith allocator) HostState (List Answer)}
    (untimed : Bench.Untimed start.shared)
    (ran : replay calls depth steps slot start = .ok (replies, last, now)) :
    Bench.Untimed now.shared := by
  induction steps generalizing slot start replies with
  | nil =>
      cases ran
      exact untimed
  | cons step steps ih =>
      unfold replay at ran
      split at ran
      · rename_i reply later after hran
        split at ran
        · rename_i rest ended hrest
          cases ran
          exact ih (Prog.carried_to_end along_untimed untimed hran) hrest
        · cases ran
      · cases ran

/-- The driver and the card stay in the driver's memory.  Over any history of loads, unloads and
operations, with any configurations, calls that interrupt and answers of the allocator, with pages
anywhere and a DMA engine that reaches them or not, and whatever the registers of the controller are
made to read: the descriptors of the ring lie in the pages that the host owns, and every request of
a further step, whatever its outcome, is confined.  The loaded host runs on the simulated
controller, and no timers change memory or registers on their own. -/
theorem memory_confined {steps : List Bench.HostStep} {replies : List Bench.Reply}
    {start : System (Bench.machineWith allocator) HostState (List Answer)}
    (fresh : start.journal = []) (untimed : Bench.Untimed start.shared)
    (ran : replay calls depth steps .empty start = .ok (replies, slot, now))
    (supplied : ∀ host, slot.host = some host → host.services = .supplied) :
    (∀ host, slot.host = some host → ∃ state, now.cell = some state
        ∧ outstanding (pageCalls now.journal) = some [state.ring.owned .supplied]
        ∧ ∀ address, state.ring.Covers address → (state.ring.owned .supplied).Covers address)
      ∧ ∀ step front moment back, (Bench.HostStep.program slot step).trace (slot.interrupted calls)
          depth now = front ++ moment :: back → slot.Confined now step moment := by
  have hempty : Slot.empty.Stands start := by
    intro host hhost
    cases hhost
  have hnothing : Slot.empty.Accounts start := by
    unfold Accounts
    rw [fresh]
    rfl
  obtain ⟨hstands, haccounts⟩ := replay_accounts hempty hnothing ran
  constructor
  · intro host hhost
    obtain ⟨state, hcell, hcount, hpages⟩ := hstands host hhost
    refine ⟨state, hcell, ?_, ?_⟩
    · rw [haccounts, owned?_eq, hhost, hcell, ← supplied host hhost]
      rfl
    · rintro address ⟨hstart, hstop⟩
      have hroom := le_pagesFor (state.ring.count * descriptorSize)
      rw [← hpages] at hroom
      exact ⟨hstart, Nat.lt_of_lt_of_le hstop (Nat.add_le_add_left hroom _)⟩
  · intro step front moment back htrace
    exact step_confined haccounts (replay_untimed untimed ran) supplied htrace

/-- A small bench with a card and its own allocator, with pages at 1 GiB. -/
def cardBench : System (Bench.machineWith .own) HostState (List Answer) where
  shared := ⟨{ Bench.Device.initial 0x40000000 16 0 with card := some (.blank 8) }, .blank⟩
  level := 4
  cell := none
  verbosity := none
  journal := []

/-- A load and a write that is latched. -/
def latching : List Bench.HostStep :=
  [.load hastyHost.config .supplied, .call (.sendCommand 24 0)]

/-- The trace of a write of one byte. -/
def writeTrace (slot : Slot) (now : System (Bench.machineWith .own) HostState (List Answer)) :
    List (Moment (Bench.machineWith .own) HostState (List Answer)) :=
  ((Bench.HostStep.call (.writeData 1 [7])).program slot).trace
    (slot.interrupted fun call => [call]) 1 now

/-- Whether a history ended with a host on the controller for whose write the card follows the first
descriptor of the ring. -/
def followsFirst :
    Except Halt (List Bench.Reply × Slot × System (Bench.machineWith .own) HostState
      (List Answer)) → Bool
  | .ok (_, slot, now) =>
    slot.host.all (fun host => host.services == .supplied)
      && ((writeTrace slot now)[31]?.map fun moment => moment.followed.map Prod.fst) ==
        some [0x40000000]
  | .error _ => false

/-- There the write is confined, the descriptor that the card follows included. -/
theorem one_byte_confined :
    ∃ replies slot now front command back,
      replay (fun call => [call]) 1 latching .empty cardBench = .ok (replies, slot, now)
        ∧ writeTrace slot now = front ++ command :: back
        ∧ command.followed.map Prod.fst = [0x40000000]
        ∧ slot.Confined now (.call (.writeData 1 [7])) command := by
  have hfollows :
      followsFirst (replay (fun call => [call]) 1 latching .empty cardBench) = true := by
    decide +kernel
  cases hran : replay (fun call => [call]) 1 latching .empty cardBench with
  | error halt =>
      rw [hran] at hfollows
      cases hfollows
  | ok ended =>
      obtain ⟨replies, slot, now⟩ := ended
      rw [hran] at hfollows
      simp only [followsFirst, Bool.and_eq_true, beq_iff_eq, Option.map_eq_some_iff] at hfollows
      obtain ⟨hservices, command, hcommand, hfollowed⟩ := hfollows
      obtain ⟨hlength, hget⟩ := List.getElem?_eq_some_iff.mp hcommand
      have hsupplied : ∀ host, slot.host = some host → host.services = .supplied := by
        intro host hhost
        rw [hhost] at hservices
        exact beq_iff_eq.mp hservices
      have huntimed : Bench.Untimed cardBench.shared := rfl
      have htrace := split_at hlength
      rw [List.get_eq_getElem, hget] at htrace
      exact ⟨replies, slot, now, _, command, _, rfl, htrace, hfollowed,
        (memory_confined rfl huntimed hran hsupplied).2 _ _ _ _ htrace⟩

end Slot

end CardHost
