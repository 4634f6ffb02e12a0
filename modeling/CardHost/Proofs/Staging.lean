import CardHost.Proofs.Engine
import CardHost.Proofs.Loading

/-!
# When staging pages are freed

The staging pages of a data phase are freed exactly once, after the DMA engine was enabled over a
chain that points into them.  The driver neither stops the engine nor writes any memory in between,
so after a failure the engine may still own descriptors of the freed pages
(`freed_while_owned`).  After a success the platform is, at that moment, in the very state in which
the controller showed that the data phase is over (`staging_freed_running`).
-/

namespace CardHost

section Samples

variable {machine : Machine ι}

/-! ## The sample that ends a data phase -/

/-- A read of the raw interrupt status which shows that the data phase is over, without an error,
and which leaves the platform in `shared`. -/
def Moment.Concludes (sample : Moment machine σ ρ) (window : Window)
    (shared : Shared machine.State) : Prop :=
  sample.request = .read window Register.rawInterrupt.offset
    ∧ ∃ status, machine.read window Register.rawInterrupt.offset sample.system.shared =
        (status, shared)
      ∧ hasAny status RawInterrupt.errors = false
      ∧ hasAll status RawInterrupt.transferOver = true

variable {handler : ι → Prog σ ρ} {depth : Nat}

/-- A read that ends is one moment, and its value is what the platform answers. -/
theorem Window.run_read_ok {window : Window} {offset : Nat} {system after : System machine σ ρ}
    {value : UInt32}
    (ran : (window.read offset : Prog σ UInt32).run handler depth system = .ok (value, after)) :
    (window.read offset : Prog σ UInt32).moments handler depth system =
        [⟨.read window offset, system⟩]
      ∧ machine.read window offset system.shared = (value, after.shared) := by
  unfold read at ran ⊢
  split at ran
  · rename_i hbase
    rw [if_pos hbase]
    cases ran
    exact ⟨rfl, rfl⟩
  · cases ran

theorem Pages.release_eq (pages : Pages) :
    (pages.release : Prog σ Unit) =
      (Prog.request (.free pages.services pages.address pages.count)).bind fun status =>
        match HostError.ofStatus status with
        | .ok () => .done ()
        | .error error => Prog.log (.pagesNotFreed pages.count pages.address error) := rfl

/-- Giving pages back asks the allocator once, before anything else. -/
theorem Pages.moments_release (pages : Pages) (value : α) (system : System machine σ ρ) :
    ∃ back, (pages.release.bind fun _ => .done value).moments handler depth system =
        ⟨.free pages.services pages.address pages.count, system⟩ :: back
      ∧ ∀ moment ∈ back, ¬ moment.request.Frees := by
  have hran : (Prog.request (.free pages.services pages.address pages.count) : Prog σ _).run
      handler depth system =
        .ok ((system.answer (.free pages.services pages.address pages.count)).1,
          (system.answer (.free pages.services pages.address pages.count)).2.2) := rfl
  have hmoment : (Prog.request (.free pages.services pages.address pages.count) : Prog σ _).moments
      handler depth system = [⟨.free pages.services pages.address pages.count, system⟩] := rfl
  have hquiet (status : Status) : ((match HostError.ofStatus status with
      | .ok () => Prog.done ()
      | .error error => Prog.log (.pagesNotFreed pages.count pages.address error)).bind
        fun _ => Prog.done value : Prog σ α).Asks Request.Unpaged := by
    refine Prog.Asks.bind ?_ fun _ => trivial
    split
    · trivial
    · exact asks_log _ trivial
  rw [release_eq, Prog.bind_assoc, Prog.moments_bind_of_run handler depth hran, hmoment]
  exact ⟨_, rfl, fun moment hmem =>
    ((hquiet _).of_mem_moments handler depth _ moment hmem).not_frees⟩

namespace Host

variable (host : Host)

/-- Polling that finishes ends with a sample that shows so. -/
theorem poll_finished (polls : Nat) {system after : System machine σ ρ}
    (ran : (host.poll dataFinished polls : Prog σ Poll).run handler depth system =
      .ok (.finished, after)) :
    ∃ earlier sample,
      (host.poll dataFinished polls : Prog σ Poll).moments handler depth system =
          earlier ++ [sample]
        ∧ sample.Concludes host.window after.shared := by
  induction polls generalizing system with
  | zero => cases ran
  | succ polls ih =>
      unfold poll at ran ⊢
      rw [Prog.bind_eq] at ran ⊢
      obtain ⟨status, middle, hread, hrest⟩ := Prog.run_bind_ok ran
      obtain ⟨hmoment, hstatus⟩ := Window.run_read_ok hread
      rw [Prog.moments_bind_of_run handler depth hread, hmoment]
      split at hrest
      · cases hrest
      · rename_i herrors
        rw [if_neg herrors]
        split at hrest
        · rename_i hfinished
          rw [if_pos hfinished]
          cases hrest
          exact ⟨[], _, rfl, rfl, status, hstatus, by simpa using herrors, hfinished⟩
        · rename_i hfinished
          rw [if_neg hfinished, Prog.bind_eq]
          rw [Prog.bind_eq] at hrest
          obtain ⟨_, later, hstall, hpolled⟩ := Prog.run_bind_ok hrest
          obtain ⟨earlier, sample, hmoments, hconcludes⟩ := ih hpolled
          rw [Prog.moments_bind_of_run handler depth hstall, hmoments, ← List.append_assoc,
            ← List.append_assoc]
          exact ⟨_, sample, rfl, hconcludes⟩

/-- A wait for data that succeeds ends with such a sample. -/
theorem awaitData_ok {system after : System machine σ ρ}
    (ran : (host.awaitData : Action σ Unit).run.run handler depth system =
      .ok (.ok (), after)) :
    ∃ earlier sample,
      (host.awaitData : Action σ Unit).run.moments handler depth system = earlier ++ [sample]
        ∧ sample.Concludes host.window after.shared := by
  unfold awaitData completion at ran ⊢
  rw [Action.run_lift_bind] at ran ⊢
  obtain ⟨ended, middle, hpoll, hrest⟩ := Prog.run_bind_ok ran
  rw [Prog.moments_bind_of_run handler depth hpoll]
  cases ended with
  | finished =>
      obtain ⟨earlier, sample, hmoments, hconcludes⟩ := poll_finished host _ hpoll
      cases hrest
      exact ⟨earlier, sample, by rw [hmoments]; exact List.append_nil _, hconcludes⟩
  | failed status => cases hrest
  | exhausted => cases hrest

/-! ## Moving data through staging pages -/

/-- The engine runs since it was enabled: nothing after that moment touches the engine or memory,
and if the transfer succeeded, a sample among those moments shows it over and leaves the platform in
`shared`. -/
def LeftRunning (front : List (Moment machine σ ρ)) (shared : Shared machine.State)
    (succeeded : Prop) : Prop :=
  ∃ lead launch tail, front = lead ++ launch :: tail ∧ launch.request.EnablesDma
    ∧ (∀ moment ∈ tail, moment.request.LeavesDma)
    ∧ (succeeded → ∃ earlier sample later, tail = earlier ++ sample :: later
        ∧ sample.Concludes host.window shared)

variable {host} in
theorem LeftRunning.append_left {front : List (Moment machine σ ρ)}
    {shared : Shared machine.State} {succeeded goal : Prop}
    (h : host.LeftRunning front shared succeeded) (hgoal : goal → succeeded)
    (before : List (Moment machine σ ρ)) : host.LeftRunning (before ++ front) shared goal := by
  obtain ⟨lead, launch, tail, rfl, hlaunch, hleaves, hover⟩ := h
  exact ⟨before ++ lead, launch, tail, (List.append_assoc _ _ _).symm, hlaunch, hleaves,
    fun hsucceeded => hover (hgoal hsucceeded)⟩

/-- Taking the data that arrived leaves the platform as it is. -/
theorem run_collected (latch : Latch) (length : Nat) (buffer : DataBuffer) (pages : Pages)
    (geometry : Geometry) {system after : System machine σ ρ}
    {outcome : Except HostError (List UInt8)}
    (ran : (do
        let arrived ← (collect pages length buffer).lift
        report (.moved latch.word geometry.blocks geometry.segments)
        pure arrived : Action σ (List UInt8)).run.run handler depth system =
      .ok (outcome, after)) : after.shared = system.shared := by
  obtain ⟨shared, level, cell, verbosity, journal⟩ := system
  cases buffer with
  | incoming size =>
      cases ran
      rfl
  | outgoing bytes =>
      cases ran
      rfl

/-- A conclusion that succeeds has seen the data phase over, and nothing happens after that. -/
theorem conclude_ok (latch : Latch) (length : Nat) (buffer : DataBuffer) (pages : Pages)
    (geometry : Geometry) {system after : System machine σ ρ} {arrived : List UInt8}
    (ran : (host.conclude latch length buffer pages geometry).run.run handler depth system =
      .ok (.ok arrived, after)) :
    ∃ earlier sample later,
      (host.conclude latch length buffer pages geometry).run.moments handler depth system =
          earlier ++ sample :: later
        ∧ sample.Concludes host.window after.shared := by
  unfold conclude at ran ⊢
  rw [Action.run_bind] at ran ⊢
  obtain ⟨waited, middle, hwait, hrest⟩ := Prog.run_bind_ok ran
  rw [Prog.moments_bind_of_run handler depth hwait]
  cases waited with
  | error error => cases hrest
  | ok =>
      obtain ⟨earlier, sample, hmoments, hconcludes⟩ := awaitData_ok host hwait
      rw [run_collected latch length buffer pages geometry hrest, hmoments, List.append_assoc]
      exact ⟨earlier, sample, _, rfl, hconcludes⟩

/-- A transfer through staging pages that ends has left the engine running. -/
theorem moveThrough_leftRunning (ring : Ring) (latch : Latch) {length : Nat} (buffer : DataBuffer)
    (pages : Pages) (hlength : length ≠ 0)
    (hfits : ∀ geometry, Geometry.ofLength? length host.config.segmentSize.toNat
      host.config.blockSize.toNat = some geometry → geometry.segments ≤ ring.count)
    {system after : System machine σ ρ} {outcome : Except HostError (List UInt8)}
    (ran : (host.moveThrough ring latch length buffer pages).run.run handler depth system =
      .ok (outcome, after)) :
    host.LeftRunning
      ((host.moveThrough ring latch length buffer pages).run.moments handler depth system)
      after.shared (∃ arrived, outcome = .ok arrived) := by
  rw [moveThrough_eq, Action.run_bind] at ran ⊢
  obtain ⟨launched, middle, hlaunch, hrest⟩ := Prog.run_bind_ok ran
  rw [Prog.moments_bind_of_run handler depth hlaunch]
  obtain ⟨lead, launch, tail, hmoments, henables, hleaves⟩ :=
    (launches_launch host ring latch buffer pages hlength hfits).moments hlaunch
  rw [hmoments, List.append_assoc, List.cons_append]
  cases launched with
  | error error =>
      cases hrest
      refine ⟨lead, launch, tail ++ [], rfl, henables, ?_, ?_⟩
      · rw [List.append_nil]
        exact hleaves
      · rintro ⟨arrived, hok⟩
        cases hok
  | ok geometry =>
      refine ⟨lead, launch, _, rfl, henables, ?_, ?_⟩
      · intro moment hmem
        rcases List.mem_append.mp hmem with hmem | hmem
        · exact hleaves moment hmem
        · have hasks := asks_conclude (σ := σ) host latch length buffer pages geometry
          exact hasks.of_mem_moments handler depth _ moment hmem
      · rintro ⟨arrived, rfl⟩
        obtain ⟨earlier, sample, later, hconclude, hconcludes⟩ :=
          conclude_ok host latch length buffer pages geometry hrest
        exact ⟨tail ++ earlier, sample, later, by
          rw [List.append_assoc]
          exact congrArg _ hconclude, hconcludes⟩

/-! ## Borrowing the pages -/

/-- Pages are freed at most once, and then while the engine runs. -/
def FreesRunning (moments : List (Moment machine σ ρ)) (succeeded : Prop) : Prop :=
  (∀ moment ∈ moments, ¬ moment.request.Frees)
    ∨ ∃ front freeing back, moments = front ++ freeing :: back
      ∧ (∀ moment ∈ front, ¬ moment.request.Frees) ∧ (∀ moment ∈ back, ¬ moment.request.Frees)
      ∧ host.LeftRunning front freeing.system.shared succeeded

variable {host} in
theorem FreesRunning.mono {moments : List (Moment machine σ ρ)} {succeeded goal : Prop}
    (h : host.FreesRunning moments succeeded) (hgoal : goal → succeeded) :
    host.FreesRunning moments goal := by
  rcases h with hnone | ⟨front, freeing, back, hmoments, hfront, hback, hleft⟩
  · exact .inl hnone
  · exact .inr ⟨front, freeing, back, hmoments, hfront, hback, hleft.append_left hgoal []⟩

variable {host} in
theorem FreesRunning.append {moments : List (Moment machine σ ρ)} {succeeded : Prop}
    (h : host.FreesRunning moments succeeded) {before after : List (Moment machine σ ρ)}
    (hbefore : ∀ x ∈ before, ¬ x.request.Frees) (hafter : ∀ x ∈ after, ¬ x.request.Frees) :
    host.FreesRunning (before ++ (moments ++ after)) succeeded := by
  rcases h with hnone | ⟨front, freeing, back, rfl, hfront, hback, hleft⟩
  · left
    intro moment hmem
    rcases List.mem_append.mp hmem with hmem | hmem
    · exact hbefore moment hmem
    · rcases List.mem_append.mp hmem with hmem | hmem
      · exact hnone moment hmem
      · exact hafter moment hmem
  · right
    refine ⟨before ++ front, freeing, back ++ after, ?_, ?_, ?_, hleft.append_left id before⟩
    · simp only [List.append_assoc, List.cons_append]
    · intro moment hmem
      rcases List.mem_append.mp hmem with hmem | hmem
      · exact hbefore moment hmem
      · exact hfront moment hmem
    · intro moment hmem
      rcases List.mem_append.mp hmem with hmem | hmem
      · exact hback moment hmem
      · exact hafter moment hmem

variable {host} in
theorem FreesRunning.append_left {moments : List (Moment machine σ ρ)} {succeeded : Prop}
    (h : host.FreesRunning moments succeeded) {before : List (Moment machine σ ρ)}
    (hbefore : ∀ x ∈ before, ¬ x.request.Frees) :
    host.FreesRunning (before ++ moments) succeeded := by
  have hnil : ∀ x ∈ ([] : List (Moment machine σ ρ)), ¬ x.request.Frees := by simp
  have happended := h.append hbefore hnil
  rw [List.append_nil] at happended
  exact happended

/-- Pages are freed when the work with them has ended. -/
theorem released_freesRunning {work : Action σ (List UInt8)} (pages : Pages)
    (hwork : work.Asks Request.Unpaged) {system : System machine σ ρ}
    (hleft : ∀ outcome after, work.run.run handler depth system = .ok (outcome, after) →
      host.LeftRunning (work.run.moments handler depth system) after.shared
        (∃ arrived, outcome = .ok arrived)) :
    host.FreesRunning
      ((work.run.bind fun outcome => pages.release.bind fun _ => .done outcome).moments
        handler depth system)
      (∃ arrived after, (work.run.bind fun outcome =>
        pages.release.bind fun _ => .done outcome).run handler depth system =
          .ok (.ok arrived, after)) := by
  have hfront := Prog.Obeys.of_mem_moments handler depth hwork system
  cases hran : work.run.run handler depth system with
  | error halt =>
      left
      rw [Prog.moments_bind, hran, List.append_nil]
      exact fun moment hmem => (hfront moment hmem).not_frees
  | ok ended =>
      obtain ⟨outcome, after⟩ := ended
      obtain ⟨back, hrelease, hback⟩ := pages.moments_release outcome after
      right
      rw [Prog.moments_bind_of_run handler depth hran, hrelease]
      refine ⟨_, _, back, rfl, fun moment hmem => (hfront moment hmem).not_frees, hback, ?_⟩
      refine (hleft outcome after hran).append_left ?_ []
      rintro ⟨arrived, last, hok⟩
      obtain ⟨outcome', after', hran', hreleased⟩ := Prog.run_bind_ok hok
      obtain ⟨_, _, -, hdone⟩ := Prog.run_bind_ok hreleased
      rw [hran] at hran'
      cases hran'
      cases hdone
      exact ⟨arrived, rfl⟩

/-- Borrowed pages are freed when the work with them has ended. -/
theorem borrow_freesRunning (count : Nat) (refused : HostError → Message)
    {work : Pages → Action σ (List UInt8)} (hwork : ∀ pages, (work pages).Asks Request.Unpaged)
    (hleft : ∀ pages (system after : System machine σ ρ) outcome,
      (work pages).run.run handler depth system = .ok (outcome, after) →
        host.LeftRunning ((work pages).run.moments handler depth system) after.shared
          (∃ arrived, outcome = .ok arrived))
    (system : System machine σ ρ) :
    host.FreesRunning
      ((Pages.borrow host.services count refused work).run.moments handler depth system)
      (∃ arrived after, (Pages.borrow host.services count refused work).run.run handler depth
        system = .ok (.ok arrived, after)) := by
  have hgrant : ((Pages.allocate host.services count : Action σ Pages).onError refused).run.Asks
      fun request => ¬ request.Frees := by
    refine Action.Asks.onError ?_ refused fun _ => id
    refine (Prog.asks_request id).bind fun grant => ?_
    split <;> trivial
  unfold Pages.borrow
  rw [Action.run_bind, Prog.moments_bind]
  have hbefore := hgrant.of_mem_moments handler depth system
  cases hgranted : ((Pages.allocate host.services count : Action σ Pages).onError refused).run.run
      handler depth system with
  | error halt =>
      dsimp only
      rw [List.append_nil]
      exact .inl hbefore
  | ok granted =>
      obtain ⟨error | pages, borrowed⟩ := granted
      · left
        intro moment hmem
        rcases List.mem_append.mp hmem with hmem | hmem
        · exact hbefore moment hmem
        · cases hmem
      · have hreleased := released_freesRunning host pages (hwork pages)
          fun outcome after => hleft pages borrowed after outcome
        refine (hreleased.mono ?_).append_left hbefore
        rintro ⟨arrived, after, hok⟩
        obtain ⟨granted, middle, hgranted', hrest⟩ := Prog.run_bind_ok hok
        rw [hgranted] at hgranted'
        cases hgranted'
        exact ⟨arrived, after, hrest⟩

/-! ## The whole data phase -/

theorem freesRunning_of_asks {program : Prog σ α}
    (h : program.Asks fun request => ¬ request.Frees) (system : System machine σ ρ)
    (succeeded : Prop) : host.FreesRunning (program.moments handler depth system) succeeded :=
  .inl (h.of_mem_moments handler depth system)

theorem runLatched_freesRunning (ring : Ring) (latch : Latch) (length : Nat) (buffer : DataBuffer)
    (system : System machine σ ρ) :
    host.FreesRunning
      ((host.runLatched ring latch length buffer).run.moments handler depth system)
      (∃ arrived after, (host.runLatched ring latch length buffer).run.run handler depth system =
        .ok (.ok arrived, after)) := by
  have hform := host.runLatched_form (σ := σ) ring latch length buffer
  generalize (host.runLatched ring latch length buffer : Action σ _).run = phase at hform ⊢
  cases hform with
  | refused message error =>
      have hasks : (do report message; throw error : Action σ (List UInt8)).run.Asks
          fun request => ¬ request.Frees :=
        (asks_log message id).bind fun _ => Prog.asks_done _
      exact freesRunning_of_asks host hasks system _
  | unsplit => exact .inl (by intro moment hmem; cases hmem)
  | moves direction positive supplied splits room =>
      have hfits : ∀ other, Geometry.ofLength? length host.config.segmentSize.toNat
          host.config.blockSize.toNat = some other → other.segments ≤ ring.count := by
        intro other hother
        rw [splits] at hother
        cases hother
        exact room
      exact borrow_freesRunning host _ _
        (fun pages => asks_moveThrough host ring latch length buffer pages)
        (fun pages _ _ _ ran => moveThrough_leftRunning host ring latch buffer pages
          (Nat.pos_iff_ne_zero.mp positive) hfits ran) system

end Host

end Samples

/-- The answer of a data phase that moved its data. -/
def Answer.Moved : Answer → Prop
  | .outcome ended => ended = .ok ()
  | .data ended _ => ended = .ok ()
  | _ => False

theorem Call.ok_of_moved {call : Call} {outcome : Except HostError (List UInt8)}
    (h : (call.phaseAnswer outcome).Moved) : ∃ arrived, outcome = .ok arrived := by
  cases outcome with
  | ok arrived => exact ⟨arrived, rfl⟩
  | error error => cases call <;> cases h

namespace Host

variable (host : Host) {machine : Machine ι} {handler : ι → Prog HostState ρ} {depth : Nat}

theorem runPhase_freesRunning (length : Nat) (buffer : DataBuffer) (state : HostState)
    (system : System machine HostState ρ) :
    host.FreesRunning ((host.runPhase length buffer state).moments handler depth system)
      (∃ arrived left after, (host.runPhase length buffer state).run handler depth system =
        .ok ((.ok arrived, left), after)) := by
  obtain ⟨ring, latch⟩ := state
  cases latch with
  | none =>
      have hquiet : (host.runPhase length buffer ⟨ring, none⟩ : Prog HostState _).Asks
          fun request => ¬ request.Frees :=
        Prog.Asks.bind (asks_log .nothingLatched id) fun _ => Prog.asks_done _
      exact freesRunning_of_asks host hquiet system _
  | some latch =>
      have hphase : (host.runPhase length buffer ⟨ring, some latch⟩ : Prog HostState _) =
          (host.runLatched ring latch length buffer).run.bind fun outcome =>
            .done (outcome, ⟨ring, none⟩) := rfl
      rw [hphase, Prog.moments_bind_done]
      refine (runLatched_freesRunning host ring latch length buffer system).mono ?_
      rintro ⟨arrived, left, after, hok⟩
      obtain ⟨outcome, middle, hran, hdone⟩ := Prog.run_bind_ok hok
      cases hdone
      exact ⟨arrived, _, hran⟩

/-- Under its lock a program asks what it asks, after taking the lock and before giving it back. -/
theorem holding_freesRunning
    {body : HostState → Prog HostState (Except HostError (List UInt8) × HostState)}
    (hbody : ∀ state (system : System machine HostState ρ),
      host.FreesRunning ((body state).moments handler depth system)
        (∃ arrived left after, (body state).run handler depth system =
          .ok ((.ok arrived, left), after)))
    (system : System machine HostState ρ) :
    host.FreesRunning ((host.lock.holding body).moments handler depth system)
      (∃ arrived after, (host.lock.holding body).run handler depth system =
        .ok (.ok arrived, after)) := by
  have hacquire : (host.lock.acquire? : Prog HostState (Option (Guard HostState))).Asks
      fun request => ¬ request.Frees :=
    host.lock.asks_acquire Request.not_frees_of_outer fun _ => id
  have hrelease (guard : Guard HostState) (outcome : Except HostError (List UInt8)) :
      (guard.release.bind fun _ => .done outcome).Asks fun request => ¬ request.Frees :=
    (guard.asks_release Request.not_frees_of_outer).bind fun _ => Prog.asks_done _
  have hbefore := hacquire.of_mem_moments handler depth system
  unfold Lock.holding
  rw [Prog.bind_eq, Prog.moments_bind]
  cases hacquired : host.lock.acquire?.run handler depth system with
  | error halt =>
      left
      intro moment hmem
      rw [List.append_nil] at hmem
      exact hbefore moment hmem
  | ok acquired =>
      obtain ⟨found, taken⟩ := acquired
      cases found with
      | none =>
          left
          intro moment hmem
          rcases List.mem_append.mp hmem with hmem | hmem
          · exact hbefore moment hmem
          · cases hmem
      | some guard =>
          dsimp only
          rw [Prog.bind_eq, Prog.moments_bind]
          refine ((hbody guard.state taken).mono ?_).append hbefore ?_
          · rintro ⟨arrived, after, hok⟩
            obtain ⟨found, middle, hacquired', hrest⟩ := Prog.run_bind_ok hok
            rw [hacquired] at hacquired'
            cases hacquired'
            obtain ⟨⟨outcome, left⟩, last, hran, hdone⟩ := Prog.run_bind_ok hrest
            obtain ⟨_, final, -, hend⟩ := Prog.run_bind_ok hdone
            cases hend
            exact ⟨arrived, left, last, hran⟩
          · intro moment hmem
            split at hmem
            · exact (hrelease _ _).of_mem_moments handler depth _ moment hmem
            · cases hmem

end Host

/-! ## Two writes on the bench -/

/-- The small host with a single poll for each completion. -/
def hastyHost : Host where
  config := { smallConfig with commandTimeout := 500, dataTimeout := 500 }
  services := .supplied
  usable := by decide

/-- Nothing interrupts. -/
def undisturbed (_ : Call) : Prog HostState (List Answer) := .done []

/-- A bench whose data phases end or not, with the hasty host loaded and a write latched. -/
@[irreducible]
def latchedBench (ends : Bool) : System Bench.machine HostState (List Answer) :=
  let bench : System Bench.machine HostState (List Answer) :=
    { smallBench with
      shared := ⟨{ Bench.Device.initial 0x1F0000000 16 0 with dataDone := ends }, .blank⟩ }
  match ((Slot.empty.load hastyHost.config .supplied).bind fun _ =>
      hastyHost.perform (.sendCommand 24 0)).run undisturbed 0 bench with
  | .ok (_, latched) => latched
  | .error _ => bench

/-- The moments of a write of one byte there. -/
@[irreducible]
def writeMoments (ends : Bool) : List (Moment Bench.machine HostState (List Answer)) :=
  (hastyHost.perform (.writeData 1 [7])).moments undisturbed 0 (latchedBench ends)

theorem writeMoments_eq (ends : Bool) :
    (hastyHost.perform (.writeData 1 [7])).moments undisturbed 0 (latchedBench ends) =
      writeMoments ends := by
  rw [writeMoments]

/-- What a request frees. -/
def Request.freed? : Request σ → Option (Services × UInt64 × Nat)
  | .free services address pages => some (services, address, pages)
  | _ => none

theorem Request.eq_free {request : Request σ} {services : Services} {address : UInt64}
    {pages : Nat} (h : request.freed? = some (services, address, pages)) :
    request = .free services address pages := by
  cases request with
  | free services' address' pages' =>
      cases h
      rfl
  | _ => cases h

/-- Whether a data phase ended and moved its data. -/
def hasMoved {machine : Machine ι} :
    Except Halt (Answer × System machine σ ρ) → Bool
  | .ok (.outcome (.ok ()), _) => true
  | .ok (.data (.ok ()) _, _) => true
  | _ => false

theorem moved_of_hasMoved {machine : Machine ι} {ran : Except Halt (Answer × System machine σ ρ)}
    (h : hasMoved ran = true) : ∃ answer after, ran = .ok (answer, after) ∧ answer.Moved := by
  unfold hasMoved at h
  split at h
  · exact ⟨_, _, rfl, rfl⟩
  · exact ⟨_, _, rfl, rfl⟩
  · cases h

theorem length_writeMoments_ends : 38 < (writeMoments true).length := by decide +kernel

theorem length_writeMoments_stuck : 39 < (writeMoments false).length := by decide +kernel

namespace Host

variable (host : Host) {machine : Machine ι}

/-- In every data phase, whatever its outcome and whatever the platform does: when staging pages are
freed, the DMA engine was enabled before, and since then the driver neither stopped it nor wrote any
memory.  If the phase succeeds, one of the moments in between is a sample that shows the data phase
over without an error, and the registers and the memory are still those which that sample left. -/
theorem staging_freed_running {call : Call} {length : Nat} {buffer : DataBuffer}
    (phase : call.phase? = some (length, buffer)) (handler : ι → Prog HostState ρ) (depth : Nat)
    (system : System machine HostState ρ) {front back : List (Moment machine HostState ρ)}
    {freeing : Moment machine HostState ρ}
    (moments : (host.perform call).moments handler depth system = front ++ freeing :: back)
    (frees : freeing.request.Frees) :
    ∃ lead launch tail, front = lead ++ launch :: tail ∧ launch.request.EnablesDma
      ∧ (∀ moment ∈ tail, moment.request.LeavesDma ∧ ¬ moment.request.StopsDma)
      ∧ ∀ answer after, (host.perform call).run handler depth system = .ok (answer, after) →
          answer.Moved → ∃ earlier sample later, tail = earlier ++ sample :: later
            ∧ sample.Concludes host.window freeing.system.shared := by
  rw [host.perform_phase phase] at moments ⊢
  rw [Prog.moments_bind_done] at moments
  have hfrees : host.FreesRunning ((host.lock.holding (host.runPhase length buffer)).moments
      handler depth system) _ :=
    holding_freesRunning host
      (fun state system => runPhase_freesRunning host length buffer state system) system
  rw [moments] at hfrees
  rcases hfrees with hnone | ⟨front', freeing', back', hsplit, hfront, hback, hleft⟩
  · exact (hnone freeing (by simp) frees).elim
  · obtain ⟨rfl, rfl⟩ := split_unique hsplit.symm hfront hback frees
    obtain ⟨lead, launch, tail, hlead, henables, hleaves, hover⟩ := hleft
    refine ⟨lead, launch, tail, hlead, henables, ?_, ?_⟩
    · exact fun moment hmem => ⟨hleaves moment hmem, (hleaves moment hmem).not_stops⟩
    · intro answer after ran hmoved
      obtain ⟨outcome, last, hheld, hdone⟩ := Prog.run_bind_ok ran
      cases hdone
      obtain ⟨arrived, rfl⟩ := Call.ok_of_moved hmoved
      exact hover ⟨arrived, after, hheld⟩

/-- A write that ends has its page freed after the sample which shows so. -/
theorem write_freed_after_sample :
    ∃ freeing : Moment Bench.machine HostState (List Answer),
      freeing.request = .free .supplied 0x1F0001000 1
        ∧ ∃ lead launch earlier sample later,
          (writeMoments true).take 38 = lead ++ launch :: (earlier ++ sample :: later)
            ∧ launch.request.EnablesDma
            ∧ sample.Concludes hastyHost.window freeing.system.shared := by
  have hfree : ((writeMoments true).get ⟨38, length_writeMoments_ends⟩).request =
      .free .supplied 0x1F0001000 1 :=
    Request.eq_free (by decide +kernel)
  have hfrees : ((writeMoments true).get ⟨38, length_writeMoments_ends⟩).request.Frees := by
    rw [hfree]
    trivial
  have hmoved : hasMoved ((hastyHost.perform (.writeData 1 [7])).run undisturbed 0
      (latchedBench true)) = true := by
    decide +kernel
  obtain ⟨answer, after, hran, hanswer⟩ := moved_of_hasMoved hmoved
  obtain ⟨lead, launch, tail, hfront, henables, -, hover⟩ :=
    staging_freed_running hastyHost rfl undisturbed 0 (latchedBench true)
      ((writeMoments_eq true).trans (split_at length_writeMoments_ends)) hfrees
  obtain ⟨earlier, sample, later, htail, hconcludes⟩ := hover answer after hran hanswer
  rw [htail] at hfront
  exact ⟨_, hfree, lead, launch, earlier, sample, later, hfront, henables, hconcludes⟩

end Host

/-! ## What is not promised -/

/-- Whether a descriptor is owned by the DMA engine and points into some pages. -/
def Descriptor.Reaches (descriptor : Descriptor) (address : UInt64) (pages : Nat) : Prop :=
  hasAll descriptor.flags DescriptorFlags.owned = true
    ∧ address.toNat ≤ descriptor.buffer.toNat
    ∧ descriptor.buffer.toNat < address.toNat + pages * pageSize

instance (descriptor : Descriptor) (address : UInt64) (pages : Nat) :
    Decidable (descriptor.Reaches address pages) :=
  inferInstanceAs (Decidable (_ ∧ _ ∧ _))

/-- Pages are freed only when no descriptor of the ring reaches them any more, or after the engine
was stopped. -/
def ReleasesStopped {machine : Machine ι} (ring : Ring) (moments : List (Moment machine σ ρ)) :
    Prop :=
  ∀ front freeing back services address pages, moments = front ++ freeing :: back →
    freeing.request = .free services address pages →
      (¬ ∃ index < ring.count, (Bench.descriptorAt freeing.system.shared.memory
          (ring.place index)).Reaches address pages)
        ∨ ∃ lead launch between stop rest, front = lead ++ launch :: (between ++ stop :: rest)
            ∧ launch.request.EnablesDma ∧ stop.request.StopsDma

/-- A write that times out frees its staging page while the engine runs and owns the descriptor of
that page. -/
theorem freed_while_owned : (latchedBench false).cell =
      some ⟨⟨0x1F0000000, 1, 1⟩, some ⟨CommandWord.ofCommand 24 0, 0⟩⟩
    ∧ ¬ ReleasesStopped ⟨0x1F0000000, 1, 1⟩ (writeMoments false) := by
  constructor
  · decide +kernel
  · intro hreleases
    have hfree : ((writeMoments false).get ⟨39, length_writeMoments_stuck⟩).request =
        .free .supplied 0x1F0001000 1 :=
      Request.eq_free (by decide +kernel)
    have hreaches : (Bench.descriptorAt ((writeMoments false).get
        ⟨39, length_writeMoments_stuck⟩).system.shared.memory 0x1F0000000).Reaches
          0x1F0001000 1 := by
      decide +kernel
    have hnever : ((writeMoments false).take 39).Pairwise fun earlier later =>
        ¬ (earlier.request.EnablesDma ∧ later.request.StopsDma) := by
      decide +kernel
    rcases hreleases _ _ _ _ _ _ (split_at length_writeMoments_stuck) hfree with hnone | hstopped
    · exact hnone ⟨0, by decide, hreaches⟩
    · obtain ⟨lead, launch, between, stop, rest, hfront, henables, hstops⟩ := hstopped
      rw [hfront] at hnever
      have hlater := (List.pairwise_cons.mp (List.pairwise_append.mp hnever).2.1).1
      exact hlater stop (by simp) ⟨henables, hstops⟩

end CardHost
