import CardHost.Proofs.Engine
import CardHost.Proofs.Ledger
import CardHost.Proofs.Split

/-!
# The transfer inside a data phase

A data phase either fails before it reaches the board, or it makes one transfer: it is granted pages
and moves the data through them (`Host.moveThrough`).  Around the transfer it only tries the lock,
logs, and asks for the pages and gives them back.  `Host.Phased` says so of a trace and of the
outcomes that the run may end with, and `perform_phased` of every data phase on every platform.
What is said about commands, memory or data during a phase is then said about the transfer.
-/

namespace CardHost

/-- A request that reaches neither registers nor memory and takes no time. -/
def Request.OffBoard : Request σ → Prop
  | .read .. => False
  | .write .. => False
  | .patience .. => False
  | .stall .. => False
  | .load .. => False
  | .store .. => False
  | _ => True

/-- A request off the board that asks for no pages. -/
def Request.Aside : Request σ → Prop
  | .allocate .. => False
  | request => request.OffBoard

theorem Request.Aside.offBoard {request : Request σ} (h : request.Aside) : request.OffBoard := by
  cases request with
  | allocate => exact h.elim
  | _ => exact h

theorem Request.Aside.not_allocates {request : Request σ} (h : request.Aside)
    (services : Services) (count : Nat) : request ≠ .allocate services count := by
  rintro rfl
  exact h

/-- What a data phase knows when it moves data through pages. -/
structure Host.Cleared (host : Host) (ring : Ring) (latch : Latch) (length : Nat)
    (buffer : DataBuffer) (pages : Pages) : Prop where
  direction : latch.word.isWrite = buffer.isWrite
  positive : 0 < length
  supplied : length ≤ buffer.size
  splits : Geometry.ofLength? length host.config.segmentSize.toNat host.config.blockSize.toNat =
    some (host.split length)
  room : (host.split length).segments ≤ ring.count
  services : pages.services = host.services
  staged : pages.count = (host.split length).stagingPages

/-- The staging pages hold the data. -/
theorem Host.Cleared.length_le_size {host : Host} {ring : Ring} {latch : Latch} {length : Nat}
    {buffer : DataBuffer} {pages : Pages} (h : host.Cleared ring latch length buffer pages) :
    length ≤ pages.size := by
  obtain ⟨⟨-, hblock, -⟩, -⟩ := host.config.usable_iff.mp host.usable
  calc length ≤ (host.split length).bytes := Geometry.length_le_bytes hblock
    _ ≤ pagesFor (host.split length).bytes * pageSize := le_pagesFor _
    _ = pages.size := by rw [Pages.size, h.staged, Geometry.stagingPages]

section Phases

variable {machine : Machine ι}

/-- The pages that a request was granted. -/
def Moment.granted? (moment : Moment machine σ ρ) : Option Pages :=
  match moment.request with
  | .allocate services count =>
    let grant := (machine.allocate services count moment.system.shared).1
    if grant.status = .success then some ⟨services, grant.address, count⟩ else none
  | _ => none

theorem granted?_of_not_allocates {moment : Moment machine σ ρ}
    (h : ∀ services count, moment.request ≠ .allocate services count) :
    moment.granted? = none := by
  unfold Moment.granted?
  split
  · rename_i services count hrequest
    exact (h services count hrequest).elim
  · rfl

/-- Requests without an allocation are granted nothing. -/
theorem filterMap_granted_of_not_allocates {trace : List (Moment machine σ ρ)}
    (h : ∀ moment ∈ trace, ∀ services count, moment.request ≠ .allocate services count) :
    trace.filterMap Moment.granted? = [] := by
  rw [List.filterMap_eq_nil_iff]
  intro moment hmem
  exact granted?_of_not_allocates (h moment hmem)

/-- A request that was granted pages is called so. -/
theorem pageCall?_of_granted {moment : Moment machine σ ρ} {pages : Pages}
    (h : moment.granted? = some pages) : moment.pageCall? = some pages.grantCall := by
  obtain ⟨request, system⟩ := moment
  cases request with
  | allocate services count =>
      simp only [Moment.granted?] at h
      split at h
      · rename_i hsuccess
        cases h
        simp only [Moment.pageCall?, Pages.grantCall, ← hsuccess]
      · cases h
  | _ => cases h

/-- The trace of a data phase, with the outcomes that its run may end with, where `cell` holds the
guarded state: it fails without reaching the board, or makes one transfer between requests that do
not reach it. -/
inductive Host.Phased (host : Host) (handler : ι → Prog σ ρ) (depth : Nat)
    (cell : Option HostState) (length : Nat) (buffer : DataBuffer)
    (trace : List (Moment machine σ ρ)) (ends : Except HostError (List UInt8) → Prop) : Prop
  | failed (quiet : ∀ moment ∈ trace, moment.request.OffBoard)
      (fails : ∀ outcome, ends outcome → ∃ error, outcome = .error error)
  | moved {ring : Ring} {latch : Latch} {pages : Pages} {borrowed : System machine σ ρ}
      (lead tail : List (Moment machine σ ρ))
      (latched : cell = some ⟨ring, some latch⟩)
      (cleared : host.Cleared ring latch length buffer pages)
      (held : borrowed.cell = none)
      (granted : lead.filterMap Moment.granted? = [pages])
      (before : ∀ moment ∈ lead, moment.request.OffBoard)
      (after : ∀ moment ∈ tail, moment.request.Aside)
      (split : trace = lead ++
        ((host.moveThrough ring latch length buffer pages).run.trace handler depth borrowed
          ++ tail))
      (moves : ∀ outcome, ends outcome → ∃ last,
        (host.moveThrough ring latch length buffer pages).run.run handler depth borrowed =
          .ok (outcome, last))
      (called : lead.filterMap Moment.pageCall? = [pages.grantCall])

namespace Host.Phased

variable {host : Host} {handler : ι → Prog σ ρ} {depth : Nat} {cell : Option HostState}
  {length : Nat} {buffer : DataBuffer} {trace : List (Moment machine σ ρ)}
  {ends : Except HostError (List UInt8) → Prop}

theorem mono (h : host.Phased handler depth cell length buffer trace ends)
    {finishes : Except HostError (List UInt8) → Prop}
    (hends : ∀ outcome, finishes outcome → ends outcome) :
    host.Phased handler depth cell length buffer trace finishes := by
  cases h with
  | failed quiet fails => exact .failed quiet fun outcome h => fails outcome (hends outcome h)
  | moved lead tail latched cleared held granted before after split moves called =>
      exact .moved lead tail latched cleared held granted before after split
        (fun outcome h => moves outcome (hends outcome h)) called

/-- A phase with more requests around it. -/
theorem wrap (h : host.Phased handler depth cell length buffer trace ends)
    {front back : List (Moment machine σ ρ)}
    (hfront : ∀ moment ∈ front, moment.request.Aside ∧ moment.request.KeepsPages)
    (hback : ∀ moment ∈ back, moment.request.Aside) :
    host.Phased handler depth cell length buffer (front ++ (trace ++ back)) ends := by
  cases h with
  | failed quiet fails =>
      refine .failed ?_ fails
      intro moment hmem
      rcases List.mem_append.mp hmem with hmem | hmem
      · exact (hfront moment hmem).1.offBoard
      · rcases List.mem_append.mp hmem with hmem | hmem
        · exact quiet moment hmem
        · exact (hback moment hmem).offBoard
  | moved lead tail latched cleared held granted before after split moves called =>
      refine .moved (front ++ lead) (tail ++ back) latched cleared held ?_ ?_ ?_ ?_ moves ?_
      · rw [List.filterMap_append, granted, filterMap_granted_of_not_allocates, List.nil_append]
        exact fun moment hmem => (hfront moment hmem).1.not_allocates
      · intro moment hmem
        rcases List.mem_append.mp hmem with hmem | hmem
        · exact (hfront moment hmem).1.offBoard
        · exact before moment hmem
      · intro moment hmem
        rcases List.mem_append.mp hmem with hmem | hmem
        · exact after moment hmem
        · exact hback moment hmem
      · rw [split]
        simp only [List.append_assoc]
      · rw [List.filterMap_append, called, filterMap_pageCall_of_keepsPages, List.nil_append]
        exact fun moment hmem => (hfront moment hmem).2

end Host.Phased

theorem Request.Unpaged.not_allocates {request : Request σ} (h : request.Unpaged)
    (services : Services) (count : Nat) : request ≠ .allocate services count := by
  rintro rfl
  exact h

theorem Request.Idle.not_allocates {request : Request σ} (h : request.Idle)
    (services : Services) (count : Nat) : request ≠ .allocate services count := by
  rintro rfl
  exact h

/-- A transfer leaves pages alone. -/
theorem Host.moveThrough_unpaged {host : Host} {handler : ι → Prog σ ρ} {depth : Nat}
    (idles : Idles machine handler depth) {ring : Ring} {latch : Latch} {length : Nat}
    {buffer : DataBuffer} {pages : Pages} {system : System machine σ ρ}
    (held : system.cell = none) :
    ∀ moment ∈ (host.moveThrough ring latch length buffer pages).run.trace handler depth system,
      moment.request.Unpaged ∨ moment.request.Idle := by
  have hasks : (host.moveThrough ring latch length buffer pages : Action σ _).run.Asks
      Request.Unpaged := asks_moveThrough host ring latch length buffer pages
  exact hasks.of_mem_trace idles (fun _ => Request.Unpaged.inner) held

/-- A transfer is granted no pages of its own. -/
theorem Host.moveThrough_granted (host : Host) {handler : ι → Prog σ ρ} {depth : Nat}
    (idles : Idles machine handler depth) (ring : Ring) (latch : Latch) (length : Nat)
    (buffer : DataBuffer) (pages : Pages) {system : System machine σ ρ}
    (held : system.cell = none) :
    ((host.moveThrough ring latch length buffer pages).run.trace handler depth system).filterMap
      Moment.granted? = [] := by
  refine filterMap_granted_of_not_allocates ?_
  intro moment hmem
  rcases Host.moveThrough_unpaged idles held moment hmem with h | h
  · exact h.not_allocates
  · exact h.not_allocates

/-! ## Asking for pages -/

variable (handler : ι → Prog σ ρ) (depth : Nat)

/-- An allocation, with a message if it fails: one request, and the answer is the pages it was
granted. -/
theorem Pages.trace_allocate (services : Services) (count : Nat) (refused : HostError → Message)
    (system : System machine σ ρ) :
    (∃ error after,
        HostError.ofStatus (machine.allocate services count system.shared).1.status = .error error
          ∧ ((Pages.allocate services count : Action σ Pages).onError refused).run.run handler depth
            system = .ok (.error error, after)
          ∧ after.shared = (machine.allocate services count system.shared).2
          ∧ after.cell = system.cell
          ∧ (∀ moment ∈ ((Pages.allocate services count : Action σ Pages).onError refused).run.trace
            handler depth system, moment.request.OffBoard)
          ∧ (((Pages.allocate services count : Action σ Pages).onError refused).run.trace
            handler depth system).filterMap Moment.pageCall? =
              [.allocated services count (machine.allocate services count system.shared).1])
      ∨ ∃ pages after,
        ((Pages.allocate services count : Action σ Pages).onError refused).run.run handler depth
            system = .ok (.ok pages, after)
          ∧ after.cell = system.cell ∧ pages.services = services ∧ pages.count = count
          ∧ ((Pages.allocate services count : Action σ Pages).onError refused).run.trace handler
              depth system = [⟨.allocate services count, system⟩]
          ∧ Moment.granted? (⟨.allocate services count, system⟩ : Moment machine σ ρ) =
              some pages := by
  obtain ⟨shared, level, cell, verbosity, journal⟩ := system
  rw [Action.run_onError, allocate, Action.run_ofProg, Prog.bind_eq, Prog.bind_assoc]
  unfold Moment.granted?
  simp only [Prog.request, Prog.bind, Prog.run, Prog.trace, Prog.runWith, Prog.traceWith,
    System.answer]
  cases hstatus : HostError.ofStatus (machine.allocate services count shared).1.status with
  | ok value =>
      have hsuccess := (HostError.ofStatus_eq_ok_iff _).mp hstatus
      right
      rw [if_pos hsuccess]
      exact ⟨_, _, rfl, rfl, rfl, rfl, rfl, rfl⟩
  | error error =>
      left
      refine ⟨error, _, rfl, rfl, rfl, rfl, ?_, rfl⟩
      intro moment hmem
      rcases List.mem_cons.mp hmem with rfl | hmem
      · trivial
      · rcases List.mem_cons.mp hmem with rfl | hmem
        · trivial
        · cases hmem

/-- A request that gives pages back, or a message. -/
def Request.Returns : Request σ → Prop
  | .free .. => True
  | .log _ => True
  | _ => False

theorem Request.Returns.aside {request : Request σ} (h : request.Returns) : request.Aside := by
  cases request with
  | free => trivial
  | log => trivial
  | _ => exact h.elim

theorem Request.Returns.silent {request : Request σ} (h : request.Returns) :
    request.Silent := by
  cases request with
  | free => trivial
  | log => trivial
  | _ => exact h.elim

/-- Work, and then the pages given back. -/
theorem Pages.trace_released (work : Action σ α) (pages : Pages) (system : System machine σ ρ) :
    ∃ tail, (work.run.bind fun outcome => pages.release.bind fun _ => .done outcome).trace handler
          depth system = work.run.trace handler depth system ++ tail
      ∧ (∀ moment ∈ tail, moment.request.Returns)
      ∧ ∀ outcome after, (work.run.bind fun outcome =>
          pages.release.bind fun _ => .done outcome).run handler depth system =
            .ok (outcome, after) → ∃ last, work.run.run handler depth system =
              .ok (outcome, last) := by
  have hasks (outcome : Except HostError α) :
      (pages.release.bind fun _ => .done outcome : Prog σ _).Asks Request.Returns :=
    (asks_release pages trivial fun _ => trivial).bind fun _ => Prog.asks_done outcome
  refine ⟨_, Prog.trace_bind handler depth _ _ system, ?_, ?_⟩
  · intro moment hmem
    split at hmem
    · rename_i outcome after _
      have hsilent := (hasks outcome).mono fun _ => Request.Returns.silent
      rw [hsilent.trace_eq_moments] at hmem
      exact (hasks outcome).of_mem_moments handler depth after moment hmem
    · cases hmem
  · intro outcome after hafter
    obtain ⟨worked, last, hwork, hfreed⟩ := Prog.run_bind_ok hafter
    obtain ⟨_, final, -, hdone⟩ := Prog.run_bind_ok hfreed
    cases hdone
    exact ⟨last, hwork⟩

/-- Where pages are granted, the work with them is part of what borrowing does, and borrowing ends
only if the work does. -/
theorem Pages.trace_borrow_of_granted {services : Services} {count : Nat}
    (refused : HostError → Message) (work : Pages → Action σ α) {system : System machine σ ρ}
    {address : UInt64}
    (granted : (machine.allocate services count system.shared).1 = ⟨.success, address⟩) :
    ∃ borrowed : System machine σ ρ, borrowed.cell = system.cell
      ∧ (∀ moment ∈ (work ⟨services, address, count⟩).run.trace handler depth borrowed,
        moment ∈ (borrow services count refused work).run.trace handler depth system)
      ∧ ∀ outcome after, (borrow services count refused work).run.run handler depth system =
          .ok (outcome, after) →
        ∃ last, (work ⟨services, address, count⟩).run.run handler depth borrowed =
          .ok (outcome, last) := by
  rcases trace_allocate handler depth services count refused system with
    ⟨error, after, hrefused, -⟩ | ⟨pages, borrowed, hran, hcell, -, -, -, hgranted⟩
  · rw [granted, (HostError.ofStatus_eq_ok_iff _).mpr rfl] at hrefused
    cases hrefused
  · have hpages : pages = ⟨services, address, count⟩ := by
      simp only [Moment.granted?, granted, if_true] at hgranted
      exact (Option.some.inj hgranted).symm
    subst hpages
    obtain ⟨tail, hreleased, -, hends⟩ := trace_released handler depth
      (work ⟨services, address, count⟩) ⟨services, address, count⟩ borrowed
    unfold borrow
    rw [Action.run_bind]
    refine ⟨borrowed, hcell, ?_, ?_⟩
    · intro moment hmem
      rw [Prog.trace_bind_of_run handler depth hran]
      apply List.mem_append_right
      dsimp only
      rw [Action.run_ofProg]
      simp only [Prog.bind_eq, Prog.pure_eq, hreleased]
      exact List.mem_append_left _ hmem
    · intro outcome after ran
      rw [Prog.run_bind, hran] at ran
      exact hends outcome after ran

/-! ## From the checks to the transfer -/

namespace Host

variable (host : Host)

/-- Borrowed pages: the work is done on them between the request for them and their return. -/
theorem borrow_phased {cell : Option HostState} {ring : Ring} {latch : Latch} {length : Nat}
    {buffer : DataBuffer} {count : Nat} (refused : HostError → Message)
    (latched : cell = some ⟨ring, some latch⟩)
    (cleared : ∀ pages : Pages, pages.services = host.services → pages.count = count →
      host.Cleared ring latch length buffer pages)
    {system : System machine σ ρ} (held : system.cell = none) :
    host.Phased handler depth cell length buffer
      ((Pages.borrow host.services count refused
        (host.moveThrough ring latch length buffer)).run.trace handler depth system)
      fun outcome => ∃ after, (Pages.borrow host.services count refused
        (host.moveThrough ring latch length buffer)).run.run handler depth system =
          .ok (outcome, after) := by
  unfold Pages.borrow
  rw [Action.run_bind]
  rcases Pages.trace_allocate handler depth host.services count refused
    system with ⟨error, after, -, hran, -, -, hquiet, -⟩ |
      ⟨pages, borrowed, hran, hcell, hservices, hcount, htrace, hgranted⟩
  · rw [Prog.trace_bind_of_run handler depth hran]
    refine .failed ?_ ?_
    · intro moment hmem
      rcases List.mem_append.mp hmem with hmem | hmem
      · exact hquiet moment hmem
      · cases hmem
    · rintro outcome ⟨last, hlast⟩
      rw [Prog.run_bind, hran] at hlast
      cases hlast
      exact ⟨error, rfl⟩
  · obtain ⟨tail, hreleased, hreturns, hends⟩ := Pages.trace_released handler depth
      (host.moveThrough ring latch length buffer pages) pages borrowed
    rw [Prog.trace_bind_of_run handler depth hran, htrace]
    refine .moved _ tail latched (cleared pages hservices hcount) (hcell.trans held) ?_ ?_ ?_
      (congrArg _ hreleased) ?_ ?_
    · rw [List.filterMap_cons, hgranted]
      rfl
    · intro moment hmem
      rcases List.mem_cons.mp hmem with rfl | hmem
      · trivial
      · cases hmem
    · exact fun moment hmem => (hreturns moment hmem).aside
    · rintro outcome ⟨after, hafter⟩
      obtain ⟨granted, middle, hgrant, hrest⟩ := Prog.run_bind_ok hafter
      rw [hran] at hgrant
      cases hgrant
      exact hends outcome after hrest
    · rw [List.filterMap_cons, pageCall?_of_granted hgranted]
      rfl

/-- A check that fails is reported and ends the phase. -/
theorem refused_phased {cell : Option HostState} {length : Nat} {buffer : DataBuffer}
    (message : Message) (error : HostError) (system : System machine σ ρ) :
    host.Phased handler depth cell length buffer
      ((do report message; throw error : Action σ (List UInt8)).run.trace handler depth system)
      fun outcome => ∃ after, (do report message; throw error : Action σ (List UInt8)).run.run
        handler depth system = .ok (outcome, after) := by
  refine .failed ?_ ?_
  · intro moment hmem
    rcases List.mem_cons.mp hmem with rfl | hmem
    · trivial
    · cases hmem
  · rintro outcome ⟨after, hafter⟩
    cases hafter
    exact ⟨error, rfl⟩

theorem runLatched_phased (ring : Ring) (latch : Latch) (length : Nat) (buffer : DataBuffer)
    {system : System machine σ ρ} (held : system.cell = none) :
    host.Phased handler depth (some ⟨ring, some latch⟩) length buffer
      ((host.runLatched ring latch length buffer).run.trace handler depth system)
      fun outcome => ∃ after, (host.runLatched ring latch length buffer).run.run handler depth
        system = .ok (outcome, after) := by
  have hform := host.runLatched_form (σ := σ) ring latch length buffer
  generalize (host.runLatched ring latch length buffer : Action σ _).run = phase at hform ⊢
  cases hform with
  | refused message error => exact refused_phased handler depth host message error system
  | unsplit =>
      refine .failed ?_ ?_
      · intro moment hmem
        cases hmem
      · rintro outcome ⟨after, hafter⟩
        cases hafter
  | moves direction positive supplied splits room =>
      refine borrow_phased handler depth host _ rfl ?_ held
      intro pages hservices hcount
      exact
        { direction := direction
          positive := positive
          supplied := supplied
          splits := splits
          room := room
          services := hservices
          staged := hcount }

theorem runPhase_phased (length : Nat) (buffer : DataBuffer) (state : HostState)
    (handler : ι → Prog HostState ρ) {system : System machine HostState ρ}
    (held : system.cell = none) :
    host.Phased handler depth (some state) length buffer
      ((host.runPhase length buffer state).trace handler depth system)
      fun outcome => ∃ left after, (host.runPhase length buffer state).run handler depth system =
        .ok ((outcome, left), after) := by
  obtain ⟨ring, latch⟩ := state
  cases latch with
  | none =>
      refine .failed ?_ ?_
      · intro moment hmem
        rcases List.mem_cons.mp hmem with rfl | hmem
        · trivial
        · cases hmem
      · rintro outcome ⟨left, after, hafter⟩
        cases hafter
        exact ⟨.invalidArgument, rfl⟩
  | some latch =>
      have hphase : (host.runPhase length buffer ⟨ring, some latch⟩ : Prog HostState _) =
          (host.runLatched ring latch length buffer).run.bind fun outcome =>
            .done (outcome, ⟨ring, none⟩) := rfl
      rw [hphase, Prog.trace_bind_done]
      apply (runLatched_phased handler depth host ring latch length buffer held).mono
      rintro outcome ⟨left, after, hafter⟩
      obtain ⟨ended, last, hran, hdone⟩ := Prog.run_bind_ok hafter
      cases hdone
      exact ⟨after, hran⟩

end Host

end Phases

/-! ## Under the lock -/

namespace Lock

variable {machine : Machine ι}

/-- A lock that is held refuses its caller away from the board and from pages. -/
theorem aside_of_held (handler : ι → Prog σ ρ) (depth : Nat) (lock : Lock)
    (body : σ → Prog σ (Except HostError α × σ)) {system : System machine σ ρ}
    (held : system.cell = none) :
    ∀ moment ∈ (lock.holding body).trace handler depth system,
      moment.request.Aside ∧ moment.request.KeepsPages := by
  intro moment hmem
  have hrequest : moment.request ∈ List.map Moment.request _ := List.mem_map_of_mem hmem
  rw [trace_holding_of_held handler depth lock body held] at hrequest
  simp only [List.mem_cons, List.not_mem_nil, or_false] at hrequest
  rcases hrequest with h | h | h | h
  all_goals
    rw [h]
    exact ⟨trivial, trivial⟩

/-- Around its body a lock that is free stays away from the board and from pages. -/
theorem aside_of_free (handler : ι → Prog σ ρ) (depth : Nat) (lock : Lock)
    (body : σ → Prog σ (Except HostError α × σ)) {system : System machine σ ρ} {state : σ}
    (free : system.cell = some state) :
    ∃ lead tail : List (Moment machine σ ρ),
      (lock.holding body).trace handler depth system =
          lead ++ ((body state).trace handler depth (lock.entered system) ++ tail)
        ∧ (∀ moment ∈ lead, moment.request.Aside ∧ moment.request.KeepsPages)
        ∧ ∀ moment ∈ tail, moment.request.Aside ∧ moment.request.KeepsPages := by
  obtain ⟨lead, tail, htrace, hlead, htail⟩ :=
    trace_holding_of_free handler depth lock body free
  refine ⟨lead, tail, htrace, ?_, ?_⟩
  · intro moment hmem
    have hrequest : moment.request ∈ List.map Moment.request _ := List.mem_map_of_mem hmem
    rw [hlead] at hrequest
    simp only [List.mem_cons, List.not_mem_nil, or_false] at hrequest
    rcases hrequest with h | h
    all_goals
      rw [h]
      exact ⟨trivial, trivial⟩
  · intro moment hmem
    rcases htail moment hmem with ⟨left, h⟩ | h
    all_goals
      rw [h]
      exact ⟨trivial, trivial⟩

end Lock

/-- On every platform a data phase fails off the board or makes one transfer. -/
theorem Host.perform_phased (host : Host) {machine : Machine ι} {call : Call} {length : Nat}
    {buffer : DataBuffer} (phase : call.phase? = some (length, buffer))
    (handler : ι → Prog HostState ρ) (depth : Nat) (system : System machine HostState ρ) :
    host.Phased handler depth system.cell length buffer
      ((host.perform call).trace handler depth system)
      fun outcome => ∃ after, (host.lock.holding (host.runPhase length buffer)).run handler depth
        system = .ok (outcome, after) := by
  rw [host.perform_phase phase, Prog.trace_bind_done]
  cases hcell : system.cell with
  | none =>
      apply Phased.failed
      · exact fun moment hmem =>
          (Lock.aside_of_held handler depth host.lock _ hcell moment hmem).1.offBoard
      · rintro outcome ⟨after, hafter⟩
        rw [Lock.run_holding_of_held handler depth host.lock _ system hcell] at hafter
        cases hafter
        exact ⟨_, rfl⟩
  | some state =>
      obtain ⟨lead, tail, htrace, hlead, htail⟩ :=
        Lock.aside_of_free handler depth host.lock (host.runPhase length buffer) hcell
      rw [htrace]
      apply Phased.mono (Phased.wrap (runPhase_phased depth host length buffer state handler rfl)
        hlead fun moment hmem => (htail moment hmem).1)
      rintro outcome ⟨after, hafter⟩
      obtain ⟨left, last, hran, -⟩ := Lock.returned_of_run hcell hafter
      exact ⟨left, last, hran⟩

/-- What a data phase answers comes from what its body ends with. -/
theorem Host.run_phase {host : Host} {machine : Machine ι} {call : Call} {length : Nat}
    {buffer : DataBuffer} (phase : call.phase? = some (length, buffer))
    {handler : ι → Prog HostState ρ} {depth : Nat} {system after : System machine HostState ρ}
    {answer : Answer}
    (ran : (host.perform call).run handler depth system = .ok (answer, after)) :
    ∃ outcome, answer = call.phaseAnswer outcome ∧
      (host.lock.holding (host.runPhase length buffer)).run handler depth system =
        .ok (outcome, after) := by
  rw [host.perform_phase phase] at ran
  obtain ⟨outcome, last, hran, hdone⟩ := Prog.run_bind_ok ran
  cases hdone
  exact ⟨outcome, rfl, hran⟩

/-- Where the lock is free and pages are granted, a data phase that passes its checks makes its
transfer, and ends only if the transfer does. -/
theorem Host.transfer_of_granted (host : Host) {machine : Machine ι} {call : Call} {length : Nat}
    {buffer : DataBuffer} (phase : call.phase? = some (length, buffer))
    (handler : ι → Prog HostState ρ) (depth : Nat) {system : System machine HostState ρ}
    {ring : Ring} {latch : Latch} (free : system.cell = some ⟨ring, some latch⟩)
    (direction : latch.word.isWrite = buffer.isWrite) (positive : 0 < length)
    (supplied : length ≤ buffer.size)
    (splits : Geometry.ofLength? length host.config.segmentSize.toNat
      host.config.blockSize.toNat = some (host.split length))
    (room : (host.split length).segments ≤ ring.count) {address : UInt64}
    (granted : (machine.allocate host.services (host.split length).stagingPages
      system.shared).1 = ⟨.success, address⟩) :
    ∃ borrowed : System machine HostState ρ, borrowed.cell = none
      ∧ (∀ moment ∈ (host.moveThrough ring latch length buffer
          ⟨host.services, address, (host.split length).stagingPages⟩).run.trace handler depth
            borrowed, moment ∈ (host.perform call).trace handler depth system)
      ∧ ∀ answer after, (host.perform call).run handler depth system = .ok (answer, after) →
        ∃ outcome last, (host.moveThrough ring latch length buffer
          ⟨host.services, address, (host.split length).stagingPages⟩).run.run handler depth
            borrowed = .ok (outcome, last) := by
  have hbody : (host.runPhase length buffer ⟨ring, some latch⟩ : Prog HostState _) =
      (host.runLatched ring latch length buffer).run.bind fun outcome =>
        .done (outcome, ⟨ring, none⟩) := rfl
  rw [runLatched_moves host direction positive supplied splits room] at hbody
  have hgranted : (machine.allocate host.services (host.split length).stagingPages
      (host.lock.entered system).shared).1 = ⟨.success, address⟩ := granted
  obtain ⟨borrowed, hcell, hmoments, hends⟩ := Pages.trace_borrow_of_granted handler depth
    .stagingNotAllocated (host.moveThrough ring latch length buffer) hgranted
  obtain ⟨lead, tail, htrace, -⟩ :=
    Lock.aside_of_free handler depth host.lock (host.runPhase length buffer) free
  refine ⟨borrowed, hcell, ?_, ?_⟩
  · intro moment hmem
    rw [host.perform_phase phase, Prog.trace_bind_done, htrace, hbody, Prog.trace_bind_done]
    apply List.mem_append_right
    apply List.mem_append_left
    exact hmoments moment hmem
  · intro answer after hanswered
    obtain ⟨outcome, -, hheld⟩ := run_phase phase hanswered
    rw [Lock.run_holding_of_free handler depth host.lock _ system _ free, hbody] at hheld
    split at hheld
    · rename_i ended left last hphase
      obtain ⟨moved, middle, hborrow, -⟩ := Prog.run_bind_ok hphase
      obtain ⟨final, hmoves⟩ := hends moved middle hborrow
      exact ⟨moved, final, hmoves⟩
    · cases hheld

end CardHost
