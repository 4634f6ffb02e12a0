import CardHost.Lock.Bracket
import CardHost.Proofs.HostRequests

/-!
# Programs that end

`Prog.Ends` says of a program and a platform that every run from there ends with a value, and with
which value and on which platform.  It leaves out what such a program cannot depend on: guarded
state, priority, journal and what interruptions would do.  The rules follow the sequencing of
programs and actions, so that a proof about a long program walks down its steps (`Ends.step`).

`Prog.Ensures` is the same without the promise of an end, for programs that may fault.  Both carry
over to the operation that runs such a program under a lock that is free.
-/

namespace CardHost

variable {machine : Machine ι}

/-- Every run that starts on the platform `before` ends, with one value on one platform that meet
`post`; guarded state and priority stay as they were. -/
def Prog.Ends (machine : Machine ι) (program : Prog σ α) (before : Shared machine.State)
    (post : α → Shared machine.State → Prop) : Prop :=
  ∃ value after, post value after ∧
    ∀ (ρ : Type) (handler : ι → Prog σ ρ) (depth : Nat) (system : System machine σ ρ),
      system.shared = before →
        ∃ journal, program.run handler depth system =
          .ok (value, { system with shared := after, journal := journal })

/-- Every run that starts on the platform `before` and ends leaves a value and a platform that meet
`post`, with the guarded state as it was. -/
def Prog.Ensures (machine : Machine ι) (program : Prog σ α) (before : Shared machine.State)
    (post : α → Shared machine.State → Prop) : Prop :=
  ∀ (ρ : Type) (handler : ι → Prog σ ρ) (depth : Nat) (system after : System machine σ ρ)
    (value : α), system.shared = before → program.run handler depth system = .ok (value, after) →
      post value after.shared ∧ after.cell = system.cell

/-- Every run of an action ends in success. -/
def Action.Succeeds (machine : Machine ι) (action : Action σ α) (before : Shared machine.State)
    (post : α → Shared machine.State → Prop) : Prop :=
  action.run.Ends machine before fun outcome after =>
    ∃ value, outcome = .ok value ∧ post value after

namespace Prog

variable {before : Shared machine.State}

theorem ends_done {post : α → Shared machine.State → Prop} {value : α} (h : post value before) :
    (done value : Prog σ α).Ends machine before post := by
  refine ⟨value, before, h, fun ρ handler depth system hshared => ⟨system.journal, ?_⟩⟩
  subst hshared
  rfl

theorem Ends.bind {mid : α → Shared machine.State → Prop} {post : β → Shared machine.State → Prop}
    {program : Prog σ α} {next : α → Prog σ β} (first : program.Ends machine before mid)
    (rest : ∀ value middle, mid value middle → (next value).Ends machine middle post) :
    (program.bind next).Ends machine before post := by
  obtain ⟨value, middle, hmid, hfirst⟩ := first
  obtain ⟨result, after, hpost, hrest⟩ := rest value middle hmid
  refine ⟨result, after, hpost, fun ρ handler depth system hshared => ?_⟩
  obtain ⟨journal, hran⟩ := hfirst ρ handler depth system hshared
  obtain ⟨later, hlater⟩ :=
    hrest ρ handler depth { system with shared := middle, journal := journal } rfl
  refine ⟨later, ?_⟩
  rw [run_bind, hran]
  exact hlater

/-- What the first part has to end in is that the rest ends. -/
theorem Ends.step {post : β → Shared machine.State → Prop} {program : Prog σ α}
    {next : α → Prog σ β}
    (first : program.Ends machine before fun value after => (next value).Ends machine after post) :
    (program.bind next).Ends machine before post :=
  first.bind fun _ _ => id

theorem Ends.mono {post goal : α → Shared machine.State → Prop} {program : Prog σ α}
    (h : program.Ends machine before post)
    (reaches : ∀ value after, post value after → goal value after) :
    program.Ends machine before goal := by
  obtain ⟨value, after, hpost, hran⟩ := h
  exact ⟨value, after, reaches value after hpost, hran⟩

theorem Ends.ensures {post : α → Shared machine.State → Prop} {program : Prog σ α}
    (h : program.Ends machine before post) : program.Ensures machine before post := by
  intro ρ handler depth system after value hshared ran
  obtain ⟨result, platform, hpost, hran⟩ := h
  obtain ⟨journal, heq⟩ := hran ρ handler depth system hshared
  rw [heq] at ran
  cases ran
  exact ⟨hpost, rfl⟩

theorem Ensures.bind {mid : α → Shared machine.State → Prop}
    {post : β → Shared machine.State → Prop} {program : Prog σ α} {next : α → Prog σ β}
    (first : program.Ensures machine before mid)
    (rest : ∀ value middle, mid value middle → (next value).Ensures machine middle post) :
    (program.bind next).Ensures machine before post := by
  intro ρ handler depth system after result hshared ran
  obtain ⟨value, middle, hfirst, hrest⟩ := run_bind_ok ran
  obtain ⟨hmid, hcell⟩ := first ρ handler depth system middle value hshared hfirst
  obtain ⟨hpost, hlater⟩ := rest value middle.shared hmid ρ handler depth middle after result rfl
    hrest
  exact ⟨hpost, hlater.trans hcell⟩

theorem Ensures.mono {post goal : α → Shared machine.State → Prop} {program : Prog σ α}
    (h : program.Ensures machine before post)
    (reaches : ∀ value after, post value after → goal value after) :
    program.Ensures machine before goal := by
  intro ρ handler depth system after value hshared ran
  obtain ⟨hpost, hcell⟩ := h ρ handler depth system after value hshared ran
  exact ⟨reaches value after.shared hpost, hcell⟩

/-- A request ends where its answer depends on the platform alone. -/
theorem ends_request {asked : Request σ} {post : asked.Reply → Shared machine.State → Prop}
    {reply : asked.Reply} {after : Shared machine.State} (hpost : post reply after)
    (answers : ∀ (ρ : Type) (system : System machine σ ρ), system.shared = before →
      ∃ journal, system.answer asked =
        (reply, none, { system with shared := after, journal := journal })) :
    (Prog.request asked).Ends machine before post := by
  refine ⟨reply, after, hpost, fun ρ handler depth system hshared => ?_⟩
  obtain ⟨journal, hanswer⟩ := answers ρ system hshared
  refine ⟨journal, ?_⟩
  unfold Prog.request run runWith
  rw [hanswer]
  rfl

/-- A message changes nothing but the journal. -/
theorem ends_log {post : Unit → Shared machine.State → Prop} (message : Message)
    (h : post () before) : (log message : Prog σ Unit).Ends machine before post := by
  refine ends_request h fun ρ system hshared => ⟨.logged message :: system.journal, ?_⟩
  subst hshared
  rfl

theorem ends_read {post : UInt32 → Shared machine.State → Prop} {window : Window} {offset : Nat}
    {value : UInt32} {after : Shared machine.State}
    (hread : machine.read window offset before = (value, after)) (h : post value after) :
    (request (.read window offset) : Prog σ UInt32).Ends machine before post := by
  refine ends_request h fun ρ system hshared => ⟨.read window offset value :: system.journal, ?_⟩
  subst hshared
  simp only [System.answer, hread]

theorem ends_write {post : Unit → Shared machine.State → Prop} {window : Window} {offset : Nat}
    {value : UInt32} {after : Shared machine.State}
    (hwrite : machine.write window offset value before = (none, after)) (h : post () after) :
    (request (.write window offset value) : Prog σ Unit).Ends machine before post := by
  refine ends_request h fun ρ system hshared => ⟨.wrote window offset value :: system.journal, ?_⟩
  subst hshared
  simp only [System.answer, hwrite]

theorem ends_allocate {post : Grant → Shared machine.State → Prop} {services : Services}
    {pages : Nat} {grant : Grant} {after : Shared machine.State}
    (hallocate : machine.allocate services pages before = (grant, after)) (h : post grant after) :
    (request (.allocate services pages) : Prog σ Grant).Ends machine before post := by
  refine ends_request h fun ρ system hshared =>
    ⟨.allocated services pages grant :: system.journal, ?_⟩
  subst hshared
  simp only [System.answer, hallocate]

theorem ends_free {post : Status → Shared machine.State → Prop} {services : Services}
    {address : UInt64} {pages : Nat} {status : Status} {after : Shared machine.State}
    (hfree : machine.free services address pages before = (status, after)) (h : post status after) :
    (request (.free services address pages) : Prog σ Status).Ends machine before post := by
  refine ends_request h fun ρ system hshared =>
    ⟨.freed services address pages status :: system.journal, ?_⟩
  subst hshared
  simp only [System.answer, hfree]

theorem ends_patience {post : Nat → Shared machine.State → Prop} {window : Window} {offset : Nat}
    (h : post (machine.patience window offset before) before) :
    (request (.patience window offset) : Prog σ Nat).Ends machine before post := by
  refine ends_request h fun ρ system hshared => ⟨system.journal, ?_⟩
  subst hshared
  rfl

theorem ends_stall {post : Status → Shared machine.State → Prop} {services : Services}
    {microseconds : Nat} {status : Status} {after : Shared machine.State}
    (hstall : machine.stall services microseconds before = (status, after))
    (h : post status after) :
    (request (.stall services microseconds) : Prog σ Status).Ends machine before post := by
  refine ends_request h fun ρ system hshared =>
    ⟨.stalled services microseconds status :: system.journal, ?_⟩
  subst hshared
  simp only [System.answer, hstall]

theorem ends_store {post : Unit → Shared machine.State → Prop} {address : Nat}
    {bytes : List UInt8} (h : post () ⟨before.device, before.memory.write address bytes⟩) :
    (request (.store address bytes) : Prog σ Unit).Ends machine before post := by
  refine ends_request h fun ρ system hshared => ⟨system.journal, ?_⟩
  subst hshared
  rfl

theorem ends_load {post : List UInt8 → Shared machine.State → Prop} {address count : Nat}
    (h : post (before.memory.read address count) before) :
    (request (.load address count) : Prog σ (List UInt8)).Ends machine before post := by
  refine ends_request h fun ρ system hshared => ⟨system.journal, ?_⟩
  subst hshared
  rfl

end Prog

namespace Action

variable {before : Shared machine.State}

theorem succeeds_pure {post : α → Shared machine.State → Prop} {value : α} (h : post value before) :
    Succeeds machine (pure value : Action σ α) before post :=
  Prog.ends_done ⟨value, rfl, h⟩

theorem succeeds_lift {post : α → Shared machine.State → Prop} {program : Prog σ α}
    (h : program.Ends machine before post) : Succeeds machine program.lift before post :=
  h.bind fun value _ hpost => Prog.ends_done ⟨value, rfl, hpost⟩

/-- An action in front that succeeds. -/
theorem Succeeds.ends_bind {mid : α → Shared machine.State → Prop}
    {post : Except HostError β → Shared machine.State → Prop} {action : Action σ α}
    {next : α → Action σ β} (first : Succeeds machine action before mid)
    (rest : ∀ value middle, mid value middle → (next value).run.Ends machine middle post) :
    (action >>= next).run.Ends machine before post := by
  rw [run_bind]
  refine Prog.Ends.bind first fun outcome middle hmid => ?_
  obtain ⟨value, rfl, hmid⟩ := hmid
  exact rest value middle hmid

theorem Succeeds.bind {mid : α → Shared machine.State → Prop}
    {post : β → Shared machine.State → Prop} {action : Action σ α} {next : α → Action σ β}
    (first : Succeeds machine action before mid)
    (rest : ∀ value middle, mid value middle → Succeeds machine (next value) middle post) :
    Succeeds machine (action >>= next) before post :=
  first.ends_bind rest

/-- What the action in front has to leave is that the rest ends. -/
theorem Succeeds.ends_step {post : Except HostError β → Shared machine.State → Prop}
    {action : Action σ α} {next : α → Action σ β}
    (first : Succeeds machine action before fun value after =>
      (next value).run.Ends machine after post) :
    (action >>= next).run.Ends machine before post :=
  first.ends_bind fun _ _ => id

theorem Succeeds.step {post : β → Shared machine.State → Prop} {action : Action σ α}
    {next : α → Action σ β}
    (first : Succeeds machine action before fun value after =>
      Succeeds machine (next value) after post) :
    Succeeds machine (action >>= next) before post :=
  first.bind fun _ _ => id

/-- An action in front that succeeds, and a rest that may fault. -/
theorem Succeeds.ensures_step {post : Except HostError β → Shared machine.State → Prop}
    {action : Action σ α} {next : α → Action σ β}
    (first : Succeeds machine action before fun value after =>
      (next value).run.Ensures machine after post) :
    (action >>= next).run.Ensures machine before post := by
  rw [run_bind]
  refine Prog.Ensures.bind (Prog.Ends.ensures first) fun outcome middle hrest => ?_
  obtain ⟨value, rfl, hrest⟩ := hrest
  exact hrest

/-- A sequence fails where its first action does. -/
theorem ends_bind_error {post : Except HostError α → Shared machine.State → Prop}
    {goal : Except HostError β → Shared machine.State → Prop} {action : Action σ α}
    {next : α → Action σ β} (first : action.run.Ends machine before post)
    (fails : ∀ outcome after, post outcome after →
      ∃ error, outcome = .error error ∧ goal (.error error) after) :
    (action >>= next).run.Ends machine before goal := by
  rw [run_bind]
  refine Prog.Ends.bind first fun outcome after hpost => ?_
  obtain ⟨error, rfl, hgoal⟩ := fails outcome after hpost
  exact Prog.ends_done hgoal

end Action

/-! ## Pages -/

namespace Pages

variable {before granted : Shared machine.State} {services : Services} {count : Nat}
  {grant : Grant} (refused : HostError → Message)

/-- An allocation succeeds where the platform grants the pages. -/
theorem succeeds_granted (allocates : machine.allocate services count before = (grant, granted))
    (success : grant.status = .success) {post : Pages → Shared machine.State → Prop}
    (h : post ⟨services, grant.address, count⟩ granted) :
    ((allocate services count : Action σ Pages).onError refused).Succeeds machine before post := by
  apply Prog.Ends.step
  apply Prog.Ends.step
  apply Prog.ends_allocate allocates
  rw [(HostError.ofStatus_eq_ok_iff _).mpr success]
  apply Prog.ends_done
  exact Prog.ends_done ⟨_, rfl, h⟩

/-- An allocation that the platform refuses fails. -/
theorem ends_refused (allocates : machine.allocate services count before = (grant, granted))
    (failed : grant.status ≠ .success) :
    ((allocate services count : Action σ Pages).onError refused).run.Ends machine before
      fun outcome after => (∃ error, outcome = .error error) ∧ after = granted := by
  apply Prog.Ends.step
  apply Prog.Ends.step
  apply Prog.ends_allocate allocates
  split
  · rename_i hok
    exact (failed ((HostError.ofStatus_eq_ok_iff _).mp hok)).elim
  · rename_i error _
    apply Prog.ends_done
    apply Prog.Ends.step
    apply Prog.ends_log
    exact Prog.ends_done ⟨⟨error, rfl⟩, rfl⟩

/-- Giving pages back ends, whatever the platform says to it. -/
theorem ends_release (pages : Pages) {post : Unit → Shared machine.State → Prop}
    (h : post () (machine.free pages.services pages.address pages.count before).2) :
    (pages.release : Prog σ Unit).Ends machine before post := by
  apply Prog.Ends.step
  apply Prog.Ends.step
  apply Prog.ends_free rfl
  apply Prog.ends_done
  cases HostError.ofStatus
      (machine.free pages.services pages.address pages.count before).1 with
  | ok value => exact Prog.ends_done h
  | error error => exact Prog.ends_log _ h

/-- Work with pages that are given ends if the work does, and the pages go back. -/
theorem ends_borrow (allocates : machine.allocate services count before = (grant, granted))
    (success : grant.status = .success) {work : Pages → Action σ α}
    {mid : Except HostError α → Shared machine.State → Prop}
    (hwork : (work ⟨services, grant.address, count⟩).run.Ends machine granted mid) :
    (borrow services count refused work).run.Ends machine before fun outcome after =>
      ∃ middle, mid outcome middle
        ∧ after = (machine.free services grant.address count middle).2 := by
  apply Action.Succeeds.ends_step
  apply succeeds_granted refused allocates success
  refine hwork.bind fun outcome middle hmid => ?_
  apply Prog.Ends.step
  apply ends_release
  exact Prog.ends_done ⟨middle, hmid, rfl⟩

/-- What work with borrowed pages leaves, from what the work leaves. -/
theorem ensures_borrow (allocates : machine.allocate services count before = (grant, granted))
    {work : Pages → Action σ α} {post : Except HostError α → Shared machine.State → Prop}
    (hrefused : grant.status ≠ .success → ∀ error, post (.error error) granted)
    (hwork : grant.status = .success →
      (work ⟨services, grant.address, count⟩).run.Ensures machine granted fun outcome after =>
        post outcome (machine.free services grant.address count after).2) :
    (borrow services count refused work).run.Ensures machine before post := by
  unfold borrow
  by_cases success : grant.status = .success
  · apply Action.Succeeds.ensures_step
    apply succeeds_granted refused allocates success
    refine (hwork success).bind fun outcome worked hworked => ?_
    apply Prog.Ends.ensures
    apply Prog.Ends.step
    apply ends_release
    exact Prog.ends_done hworked
  · rw [Action.run_bind]
    refine (ends_refused refused allocates success).ensures.bind fun outcome after hafter => ?_
    obtain ⟨⟨error, rfl⟩, rfl⟩ := hafter
    exact (Prog.ends_done (hrefused success error)).ensures

end Pages

/-! ## Under the lock -/

namespace Lock

variable {lock : Lock} {body : σ → Prog σ (Except HostError α × σ)} {system : System machine σ ρ}
  {state : σ} {post : Except HostError α × σ → Shared machine.State → Prop}

/-- What the body ensures is what the operation leaves. -/
theorem holding_ensures {handler : ι → Prog σ ρ} {depth : Nat} {after : System machine σ ρ}
    {outcome : Except HostError α} (free : system.cell = some state)
    (h : (body state).Ensures machine system.shared post)
    (ran : (lock.holding body).run handler depth system = .ok (outcome, after)) :
    ∃ left, after.cell = some left ∧ post (outcome, left) after.shared := by
  obtain ⟨left, last, hbody, rfl⟩ := returned_of_run free ran
  obtain ⟨hpost, -⟩ := h ρ handler depth (lock.entered system) last (outcome, left) rfl hbody
  exact ⟨left, rfl, hpost⟩

/-- A body that ends makes an operation that ends. -/
theorem holding_ends (handler : ι → Prog σ ρ) (depth : Nat) (free : system.cell = some state)
    (h : (body state).Ends machine system.shared post) :
    ∃ outcome left after, (lock.holding body).run handler depth system = .ok (outcome, after)
      ∧ after.cell = some left ∧ post (outcome, left) after.shared := by
  obtain ⟨⟨outcome, left⟩, platform, hpost, hran⟩ := h
  obtain ⟨journal, hbody⟩ := hran ρ handler depth (lock.entered system) rfl
  rw [entered] at hbody
  have hholding := run_holding_of_free handler depth lock body system state free
  rw [hbody] at hholding
  exact ⟨outcome, left, _, hholding, rfl, hpost⟩

/-- An action that succeeds does so under a lock that is free. -/
theorem during_succeeds (handler : ι → Prog σ ρ) (depth : Nat) (free : system.cell = some state)
    {action : Action σ α} {goal : α → Shared machine.State → Prop}
    (h : action.Succeeds machine system.shared goal) :
    ∃ value after, (lock.during action).run handler depth system = .ok (.ok value, after)
      ∧ after.cell = some state ∧ goal value after.shared := by
  let body (left : σ) : Prog σ (Except HostError α × σ) :=
    action.run.bind fun outcome => .done (outcome, left)
  have hbody : (body state).Ends machine system.shared fun result after =>
      (∃ value, result.1 = .ok value ∧ goal value after) ∧ result.2 = state :=
    Prog.Ends.bind h fun outcome after hpost => Prog.ends_done ⟨hpost, rfl⟩
  obtain ⟨outcome, left, after, hran, hcell, ⟨value, rfl, hgoal⟩, rfl⟩ :=
    lock.holding_ends handler depth free hbody
  exact ⟨value, after, hran, hcell, hgoal⟩

end Lock

end CardHost
