import CardHost.Proofs.Loading
import CardHost.Proofs.Trace

/-!
# The page calls of a run

The journal of a run lists, among the other events, every request for pages and every return of
them.  `pageCalls` keeps these in order, and `Booked` says which of them happened between two
systems.  They are those of the trace (`Prog.run_booked`), so a program that leaves pages alone
books none, not even where it is interrupted.

`outstanding` settles the calls against each other: it is the pages granted and not freed, and has
no value if pages are freed that are not outstanding.
-/

namespace CardHost

/-! ## Page calls -/

/-- Whether an event is a request for pages or a return of them. -/
def Event.isPageCall : Event ρ → Bool
  | .allocated .. => true
  | .freed .. => true
  | _ => false

/-- The page calls of a journal in order. -/
def pageCalls (journal : List (Event ρ)) : List (Event ρ) :=
  (journal.filter Event.isPageCall).reverse

/-- The call that these pages were granted by. -/
def Pages.grantCall (pages : Pages) : Event ρ :=
  .allocated pages.services pages.count ⟨.success, pages.address⟩

/-- The call that these pages are freed by, with the status it reports. -/
def Pages.freeCall (pages : Pages) (status : Status) : Event ρ :=
  .freed pages.services pages.address pages.count status

/-- The pages outstanding after one more call.  Only outstanding pages can be freed, and all of them
at once. -/
def Event.settle (live : List Pages) : Event ρ → Option (List Pages)
  | .allocated services count grant =>
    if grant.status = .success then some (⟨services, grant.address, count⟩ :: live) else some live
  | .freed services address count _ =>
    if ⟨services, address, count⟩ ∈ live then some (live.erase ⟨services, address, count⟩) else none
  | _ => some live

/-- The pages granted and not freed after some calls, if every free was one of outstanding pages. -/
def outstanding (calls : List (Event ρ)) : Option (List Pages) :=
  calls.foldlM Event.settle []

theorem settle_grantCall (live : List Pages) (pages : Pages) :
    (pages.grantCall : Event ρ).settle live = some (pages :: live) := rfl

theorem settle_freeCall {live : List Pages} {pages : Pages} (h : pages ∈ live) (status : Status) :
    (pages.freeCall status : Event ρ).settle live = some (live.erase pages) :=
  if_pos h

theorem settle_refused {grant : Grant} (h : grant.status ≠ .success) (live : List Pages)
    (services : Services) (count : Nat) :
    (.allocated services count grant : Event ρ).settle live = some live :=
  if_neg h

/-- The pages that a call granted. -/
def Event.grants? : Event ρ → Option Pages
  | .allocated services count grant =>
    if grant.status = .success then some ⟨services, grant.address, count⟩ else none
  | _ => none

/-- The pages that a call freed. -/
def Event.frees? : Event ρ → Option Pages
  | .freed services address count _ => some ⟨services, address, count⟩
  | _ => none

/-- The pages that some calls granted, in order. -/
def grantedPages (calls : List (Event ρ)) : List Pages :=
  calls.filterMap Event.grants?

/-- The pages that some calls freed, in order. -/
def freedPages (calls : List (Event ρ)) : List Pages :=
  calls.filterMap Event.frees?

/-- One call settled: what it granted or was outstanding is outstanding now, or was freed by it. -/
theorem settle_count {event : Event ρ} {live left : List Pages} (h : event.settle live = some left)
    (pages : Pages) :
    event.grants?.toList.count pages + live.count pages =
      event.frees?.toList.count pages + left.count pages := by
  cases event with
  | allocated services count grant =>
      simp only [Event.settle, Event.grants?, Event.frees?] at h ⊢
      by_cases hsuccess : grant.status = .success
      · rw [if_pos hsuccess] at h ⊢
        cases h
        simp only [Option.toList_some, Option.toList_none, List.count_cons, List.count_nil]
        omega
      · rw [if_neg hsuccess] at h ⊢
        cases h
        rfl
  | freed services address count status =>
      simp only [Event.settle, Event.grants?, Event.frees?] at h ⊢
      by_cases hmem : (⟨services, address, count⟩ : Pages) ∈ live
      · rw [if_pos hmem] at h
        cases h
        have hpos := List.count_pos_iff.mpr hmem
        simp only [Option.toList_some, Option.toList_none, List.count_cons, List.count_nil,
          List.count_erase]
        by_cases hsame : (⟨services, address, count⟩ : Pages) = pages
        · subst hsame
          simp only [beq_self_eq_true, if_true]
          omega
        · simp only [beq_eq_false_iff_ne.mpr hsame, Bool.false_eq_true, if_false]
          omega
      · rw [if_neg hmem] at h
        cases h
  | _ =>
      cases h
      rfl

theorem foldlM_settle_count {calls : List (Event ρ)} {start left : List Pages}
    (h : calls.foldlM Event.settle start = some left) (pages : Pages) :
    (grantedPages calls).count pages + start.count pages =
      (freedPages calls).count pages + left.count pages := by
  induction calls generalizing start with
  | nil =>
      cases h
      rfl
  | cons event rest ih =>
      rw [List.foldlM_cons] at h
      obtain ⟨middle, hsettle, hrest⟩ := Option.bind_eq_some_iff.mp h
      have hfirst := settle_count hsettle pages
      have hlater := ih hrest
      have hcons (call? : Event ρ → Option Pages) :
          ((event :: rest).filterMap call?).count pages =
            (call? event).toList.count pages + (rest.filterMap call?).count pages := by
        rw [List.filterMap_cons]
        cases call? event with
        | none => simp
        | some called => simp [List.count_cons, Nat.add_comm]
      unfold grantedPages freedPages at hlater ⊢
      rw [hcons, hcons]
      omega

/-- Pages were granted as often as they were freed, and once more for each time that they are
outstanding. -/
theorem outstanding_count {calls : List (Event ρ)} {live : List Pages}
    (h : outstanding calls = some live) (pages : Pages) :
    (grantedPages calls).count pages = (freedPages calls).count pages + live.count pages :=
  foldlM_settle_count h pages

/-! ## The calls between two systems -/

section Runs

variable {machine : Machine ι}

/-- The page calls between two systems, in order. -/
def Booked (before after : System machine σ ρ) (calls : List (Event ρ)) : Prop :=
  pageCalls after.journal = pageCalls before.journal ++ calls

theorem Booked.refl (system : System machine σ ρ) : Booked system system [] :=
  (List.append_nil _).symm

theorem Booked.trans {before middle after : System machine σ ρ} {first rest : List (Event ρ)}
    (hfirst : Booked before middle first) (hrest : Booked middle after rest) :
    Booked before after (first ++ rest) := by
  unfold Booked at hfirst hrest ⊢
  rw [hrest, hfirst, List.append_assoc]

/-- The page call of a request. -/
def Moment.pageCall? (moment : Moment machine σ ρ) : Option (Event ρ) :=
  match moment.request with
  | .allocate services count =>
    some (.allocated services count
      (machine.allocate services count moment.system.shared).1)
  | .free services address count =>
    some (.freed services address count
      (machine.free services address count moment.system.shared).1)
  | _ => none

theorem pageCalls_cons (event : Event ρ) (journal : List (Event ρ)) :
    pageCalls (event :: journal) =
      pageCalls journal ++ if event.isPageCall then [event] else [] := by
  unfold pageCalls
  rw [List.filter_cons]
  by_cases h : event.isPageCall = true
  · rw [if_pos h, if_pos h, List.reverse_cons]
  · rw [if_neg h, if_neg h, List.append_nil]

/-- A request books its page call. -/
theorem answer_booked (request : Request σ) (system : System machine σ ρ) :
    Booked system (system.answer request).2.2
      (Moment.pageCall? ⟨request, system⟩).toList := by
  unfold Booked Moment.pageCall?
  obtain ⟨shared, level, cell, verbosity, journal⟩ := system
  cases request with
  | store => exact (List.append_nil _).symm
  | patience => exact (List.append_nil _).symm
  | load => exact (List.append_nil _).symm
  | shows => exact (List.append_nil _).symm
  | _ => exact pageCalls_cons _ _

theorem note_booked {event : Event ρ} (h : event.isPageCall = false) (system : System machine σ ρ) :
    Booked system (system.note event) [] := by
  obtain ⟨shared, level, cell, verbosity, journal⟩ := system
  show pageCalls (event :: journal) = _
  rw [pageCalls_cons, h]
  rfl

/-- The requests so far book their calls. -/
theorem along_booked (start : System machine σ ρ) :
    Along fun (past : List (Moment machine σ ρ)) (system : System machine σ ρ) =>
      Booked start system (past.filterMap Moment.pageCall?) where
  answer {past system} request h := by
    have hcall : List.filterMap Moment.pageCall? [(⟨request, system⟩ : Moment machine σ ρ)] =
        (Moment.pageCall? (⟨request, system⟩ : Moment machine σ ρ)).toList := by
      rw [List.filterMap_cons]
      cases Moment.pageCall? (⟨request, system⟩ : Moment machine σ ρ) <;> rfl
    rw [List.filterMap_append, hcall]
    exact h.trans (answer_booked request system)
  entered {past system} h := by
    have hnote : Booked system (system.note .entered) [] := note_booked rfl system
    have hall := h.trans hnote
    rw [List.append_nil] at hall
    exact hall
  left {past system} answer h := by
    have hnote : Booked system (system.note (.left answer)) [] := note_booked rfl system
    have hall := h.trans hnote
    rw [List.append_nil] at hall
    exact hall

namespace Prog

variable {handler : ι → Prog σ ρ} {depth : Nat} {program : Prog σ α} {system : System machine σ ρ}

/-- Up to any of its moments a run books the page calls of its trace. -/
theorem booked_of_trace {front back : List (Moment machine σ ρ)} {moment : Moment machine σ ρ}
    (htrace : program.trace handler depth system = front ++ moment :: back) :
    Booked system moment.system (front.filterMap Moment.pageCall?) :=
  carried_at (along_booked system) (Booked.refl system) htrace

/-- A run books the page calls of its trace. -/
theorem run_booked {after : System machine σ ρ} {value : α}
    (ran : program.run handler depth system = .ok (value, after)) :
    Booked system after
      ((program.trace handler depth system).filterMap Moment.pageCall?) :=
  carried_to_end (along_booked system) (Booked.refl system) ran

end Prog

/-! ## Programs that leave pages alone -/

/-- A request that neither asks for pages nor gives any back. -/
def Request.KeepsPages : Request σ → Prop
  | .allocate .. => False
  | .free .. => False
  | _ => True

theorem Request.Unpaged.keepsPages {request : Request σ} (h : request.Unpaged) :
    request.KeepsPages := by
  cases request with
  | allocate => exact h
  | free => exact h
  | _ => trivial

theorem Request.Idle.keepsPages {request : Request σ} (h : request.Idle) :
    request.KeepsPages := by
  cases request with
  | allocate => exact h
  | free => exact h
  | _ => trivial

theorem Moment.pageCall?_eq_none {moment : Moment machine σ ρ} (h : moment.request.KeepsPages) :
    moment.pageCall? = none := by
  obtain ⟨request, system⟩ := moment
  cases request with
  | allocate => exact h.elim
  | free => exact h.elim
  | _ => rfl

/-- Requests that keep the pages are no calls. -/
theorem filterMap_pageCall_of_keepsPages {trace : List (Moment machine σ ρ)}
    (h : ∀ moment ∈ trace, moment.request.KeepsPages) : trace.filterMap Moment.pageCall? = [] := by
  rw [List.filterMap_eq_nil_iff]
  intro moment hmem
  exact Moment.pageCall?_eq_none (h moment hmem)

variable {handler : ι → Prog σ ρ} {depth : Nat}

namespace Prog

/-- A run whose requests keep the pages books no call. -/
theorem booked_of_keepsPages {program : Prog σ α} {system after : System machine σ ρ} {value : α}
    (h : ∀ moment ∈ program.trace handler depth system, moment.request.KeepsPages)
    (ran : program.run handler depth system = .ok (value, after)) : Booked system after [] := by
  have hbooked := run_booked ran
  rw [filterMap_pageCall_of_keepsPages h] at hbooked
  exact hbooked

/-- Under the lock a program that leaves pages alone books no call, whatever interrupts it. -/
theorem Asks.booked_held (idles : Idles machine handler depth) {program : Prog σ α}
    (h : program.Asks Request.Unpaged) {system after : System machine σ ρ} {value : α}
    (held : system.cell = none) (ran : program.run handler depth system = .ok (value, after)) :
    Booked system after [] ∧ after.cell = none := by
  constructor
  · apply booked_of_keepsPages _ ran
    intro moment hmem
    rcases h.of_mem_trace idles (fun _ => Request.Unpaged.inner) held moment hmem with
      hasked | hidle
    · exact hasked.keepsPages
    · exact hidle.keepsPages
  · exact ((h.mono fun _ => Request.Unpaged.inner).run_held idles.keeps held ran).2

/-- A program on memory alone books no call. -/
theorem Asks.booked_onMemory {program : Prog σ α} (h : program.Asks Request.OnMemory)
    {system after : System machine σ ρ} {value : α}
    (ran : program.run handler depth system = .ok (value, after)) :
    Booked system after [] ∧ after.cell = system.cell := by
  have hsilent := h.mono fun _ => Request.OnMemory.silent
  constructor
  · apply booked_of_keepsPages _ ran
    intro moment hmem
    rw [hsilent.trace_eq_moments] at hmem
    exact (h.of_mem_moments handler depth system moment hmem).unpaged.keepsPages
  · exact (hsilent.run_silent ran).2.1

end Prog

/-! ## Pages had and pages given back -/

/-- Calls that had no pages granted: none, or one that was refused. -/
inductive Unfulfilled : List (Event ρ) → Prop
  | none : Unfulfilled []
  | refused (services : Services) (count : Nat) {grant : Grant} (h : grant.status ≠ .success) :
      Unfulfilled [.allocated services count grant]

/-- A single request that cannot interrupt. -/
theorem Prog.run_request_ok {request : Request σ} {system after : System machine σ ρ}
    {reply : request.Reply} (hnone : (system.answer request).2.1 = none)
    (ran : (Prog.request request).run handler depth system = .ok (reply, after)) :
    reply = (system.answer request).1 ∧ after = (system.answer request).2.2 := by
  simp only [Prog.request, Prog.run, Prog.runWith] at ran
  rcases hanswer : system.answer request with ⟨answer, _ | call, asked⟩
  · rw [hanswer] at ran
    cases ran
    exact ⟨rfl, rfl⟩
  · rw [hanswer] at hnone
    cases hnone

/-- An allocation is one call: it was refused, or it granted what it answers. -/
theorem Pages.booked_allocate {services : Services} {count : Nat} {refused : HostError → Message}
    {system after : System machine σ ρ} {outcome : Except HostError Pages}
    (ran : ((Pages.allocate services count : Action σ Pages).onError refused).run.run handler depth
      system = .ok (outcome, after)) :
    after.cell = system.cell
      ∧ ((∃ error calls, outcome = .error error ∧ Unfulfilled calls ∧ Booked system after calls)
        ∨ ∃ pages, outcome = .ok pages ∧ pages.services = services ∧ pages.count = count
          ∧ Booked system after [pages.grantCall]) := by
  rw [Action.run_onError, allocate, Action.run_ofProg, Prog.bind_eq, Prog.bind_assoc] at ran
  obtain ⟨⟨status, address⟩, asked, hgrant, hrest⟩ := Prog.run_bind_ok ran
  obtain ⟨hreply, rfl⟩ := Prog.run_request_ok rfl hgrant
  have hbooked : Booked system _ [.allocated services count (system.answer
      (.allocate services count : Request σ)).1] :=
    answer_booked (.allocate services count : Request σ) system
  rw [← hreply] at hbooked
  dsimp only at hrest
  cases hstatus : HostError.ofStatus status with
  | ok value =>
      have hsuccess := (HostError.ofStatus_eq_ok_iff status).mp hstatus
      subst hsuccess
      cases hrest
      exact ⟨rfl, .inr ⟨_, rfl, rfl, rfl, hbooked⟩⟩
  | error error =>
      rw [hstatus] at hrest
      obtain ⟨_, failed, hfailed, hreport⟩ := Prog.run_bind_ok hrest
      cases hfailed
      obtain ⟨_, logged, hlogged, hdone⟩ := Prog.run_bind_ok hreport
      obtain ⟨hquiet, hcell⟩ :=
        Prog.Asks.booked_onMemory (asks_log (refused error) trivial) hlogged
      cases hdone
      have hrefused : status ≠ .success := by
        rintro rfl
        rw [(HostError.ofStatus_eq_ok_iff _).mpr rfl] at hstatus
        cases hstatus
      exact ⟨hcell, .inl ⟨error, _, rfl, .refused services count hrefused, hbooked.trans hquiet⟩⟩

/-- A free is one call, and what comes after it only remarks on the status. -/
theorem Services.booked_free {services : Services} {address : UInt64} {count : Nat}
    {next : Except HostError Unit → Prog σ α} (remarks : ∀ outcome, (next outcome).Asks
      Request.OnMemory) {system after : System machine σ ρ} {value : α}
    (ran : ((services.free address count).run.bind next).run handler depth system =
      .ok (value, after)) :
    after.cell = system.cell
      ∧ ∃ status, Booked system after [.freed services address count status] := by
  unfold free at ran
  rw [Action.run_ofProg, Prog.bind_eq, Prog.bind_assoc] at ran
  obtain ⟨status, asked, hfree, hrest⟩ := Prog.run_bind_ok ran
  obtain ⟨-, rfl⟩ := Prog.run_request_ok rfl hfree
  have hbooked := answer_booked (.free services address count : Request σ) system
  obtain ⟨hquiet, hcell⟩ := (remarks _).booked_onMemory hrest
  exact ⟨hcell, _, hbooked.trans hquiet⟩

/-- Pages are given back by one call, whatever it reports. -/
theorem Pages.booked_release {pages : Pages} {system after : System machine σ ρ}
    (ran : (pages.release : Prog σ Unit).run handler depth system = .ok ((), after)) :
    after.cell = system.cell ∧ ∃ status, Booked system after [pages.freeCall status] := by
  apply Services.booked_free _ ran
  intro outcome
  cases outcome with
  | ok value => exact Prog.asks_done ()
  | error error => exact asks_log _ trivial

/-- The page calls of a data phase: none that had pages, or one grant, and then the return of what
it granted. -/
inductive PhaseCalls : List (Event ρ) → Prop
  | unfulfilled {calls : List (Event ρ)} (h : Unfulfilled calls) : PhaseCalls calls
  | borrowed (pages : Pages) (status : Status) :
      PhaseCalls [pages.grantCall, pages.freeCall status]

/-- Borrowed pages are given back before the work answers. -/
theorem Pages.booked_borrow (idles : Idles machine handler depth) {services : Services}
    {count : Nat} {refused : HostError → Message} {work : Pages → Action σ α}
    (hwork : ∀ pages, (work pages).Asks Request.Unpaged) {system after : System machine σ ρ}
    {outcome : Except HostError α} (held : system.cell = none)
    (ran : (Pages.borrow services count refused work).run.run handler depth system =
      .ok (outcome, after)) :
    ∃ calls, PhaseCalls calls ∧ Booked system after calls := by
  unfold borrow at ran
  rw [Action.run_bind] at ran
  obtain ⟨asked, granted, hasked, hrest⟩ := Prog.run_bind_ok ran
  obtain ⟨hcell, ⟨error, calls, rfl, hcalls, hbooked⟩ | ⟨pages, rfl, -, -, hbooked⟩⟩ :=
    booked_allocate hasked
  · cases hrest
    exact ⟨calls, .unfulfilled hcalls, hbooked⟩
  · dsimp only at hrest
    rw [Action.run_ofProg] at hrest
    obtain ⟨worked, last, hworked, hreturn⟩ := Prog.run_bind_ok hrest
    obtain ⟨_, final, hreleased, hdone⟩ := Prog.run_bind_ok hreturn
    cases hdone
    obtain ⟨hquiet, -⟩ := Prog.Asks.booked_held idles (hwork pages) (hcell.trans held) hworked
    obtain ⟨-, status, hfreed⟩ := booked_release hreleased
    exact ⟨_, .borrowed pages status, (hbooked.trans hquiet).trans hfreed⟩

/-! ## Data phases -/

/-- A lock books what its body books. -/
theorem Lock.booked_holding (lock : Lock) {body : σ → Prog σ (Except HostError α × σ)}
    (allowed : List (Event ρ) → Prop) (hnone : allowed [])
    (hbody : ∀ state (system last : System machine σ ρ) result, system.cell = none →
      (body state).run handler depth system = .ok (result, last) →
        ∃ calls, allowed calls ∧ Booked system last calls)
    {system after : System machine σ ρ} {outcome : Except HostError α}
    (ran : (lock.holding body).run handler depth system = .ok (outcome, after)) :
    ∃ calls, allowed calls ∧ Booked system after calls := by
  cases hcell : system.cell with
  | none =>
      rw [run_holding_of_held handler depth lock body system hcell] at ran
      cases ran
      exact ⟨[], hnone, Booked.refl system⟩
  | some state =>
      obtain ⟨left, last, hran, rfl⟩ := returned_of_run hcell ran
      obtain ⟨calls, hcalls, hbooked⟩ := hbody state _ last _ rfl hran
      exact ⟨calls, hcalls, hbooked⟩

namespace Host

variable (host : Host)

theorem booked_runLatched (idles : Idles machine handler depth) {ring : Ring} {latch : Latch}
    {length : Nat} {buffer : DataBuffer} {system after : System machine σ ρ}
    {outcome : Except HostError (List UInt8)} (held : system.cell = none)
    (ran : (host.runLatched ring latch length buffer).run.run handler depth system =
      .ok (outcome, after)) :
    ∃ calls, PhaseCalls calls ∧ Booked system after calls := by
  have hform := host.runLatched_form (σ := σ) ring latch length buffer
  generalize (host.runLatched ring latch length buffer : Action σ _).run = phase at hform ran
  cases hform with
  | refused message error =>
      have hasks : (do report message; throw error : Action σ (List UInt8)).run.Asks
          Request.OnMemory := (asks_log message trivial).bind fun _ => Prog.asks_done _
      exact ⟨[], .unfulfilled .none, (hasks.booked_onMemory ran).1⟩
  | unsplit => cases ran
  | moves =>
      exact Pages.booked_borrow idles (fun pages => asks_moveThrough host ring latch length buffer
        pages) held ran

theorem booked_runPhase (idles : Idles machine handler depth) {length : Nat} {buffer : DataBuffer}
    (state : HostState) {system after : System machine σ ρ}
    {result : Except HostError (List UInt8) × HostState} (held : system.cell = none)
    (ran : (host.runPhase length buffer state).run handler depth system = .ok (result, after)) :
    ∃ calls, PhaseCalls calls ∧ Booked system after calls := by
  unfold runPhase at ran
  split at ran
  · have hasks : (do Prog.log .nothingLatched; pure (.error .invalidArgument, state) :
        Prog σ (Except HostError (List UInt8) × HostState)).Asks Request.OnMemory :=
      (asks_log _ trivial).bind fun _ => Prog.asks_done _
    exact ⟨[], .unfulfilled .none, (hasks.booked_onMemory ran).1⟩
  · obtain ⟨outcome, last, hlatched, hdone⟩ := Prog.run_bind_ok ran
    cases hdone
    exact host.booked_runLatched idles held hlatched

/-- Only data phases have pages, and each gives back what it had. -/
theorem booked_perform {handler : ι → Prog HostState ρ} (idles : Idles machine handler depth)
    {call : Call} {system after : System machine HostState ρ} {answer : Answer}
    (ran : (host.perform call).run handler depth system = .ok (answer, after)) :
    ∃ calls, PhaseCalls calls ∧ (call.phase? = none → calls = []) ∧ Booked system after calls := by
  cases hphase : call.phase? with
  | some phase =>
      obtain ⟨length, buffer⟩ := phase
      rw [host.perform_phase hphase] at ran
      obtain ⟨outcome, last, hheld, hdone⟩ := Prog.run_bind_ok ran
      cases hdone
      have hbody (state : HostState) (system last : System machine HostState ρ)
          (result : Except HostError (List UInt8) × HostState) (held : system.cell = none)
          (hran : (host.runPhase length buffer state).run handler depth system =
            .ok (result, last)) : ∃ calls, PhaseCalls calls ∧ Booked system last calls :=
        host.booked_runPhase idles state held hran
      obtain ⟨calls, hcalls, hbooked⟩ :=
        Lock.booked_holding host.lock PhaseCalls (.unfulfilled .none) hbody hheld
      refine ⟨calls, hcalls, ?_, hbooked⟩
      intro hnone
      cases hnone
  | none =>
      refine ⟨[], .unfulfilled .none, fun _ => rfl, ?_⟩
      rcases host.idle_or_locks handler depth call with hidle | ⟨α, body, finish, hprogram, hasks⟩
      · exact Prog.booked_of_keepsPages
          (fun moment hmem => (hidle system moment hmem).keepsPages) ran
      · rw [hprogram] at ran
        obtain ⟨outcome, last, hheld, hdone⟩ := Prog.run_bind_ok ran
        cases hdone
        have hbody (state : HostState) (system last : System machine HostState ρ)
            (result : Except HostError α × HostState) (held : system.cell = none)
            (hran : (body state).run handler depth system = .ok (result, last)) :
            ∃ calls, calls = [] ∧ Booked system last calls := by
          have hunpaged := (hasks state).mono fun _ hpermits =>
            (Permits.of_not_phase hpermits hphase).unpaged
          exact ⟨[], rfl, (hunpaged.booked_held idles held hran).1⟩
        obtain ⟨calls, rfl, hbooked⟩ :=
          Lock.booked_holding host.lock (fun calls => calls = []) rfl hbody hheld
        exact hbooked

end Host

end Runs

end CardHost
