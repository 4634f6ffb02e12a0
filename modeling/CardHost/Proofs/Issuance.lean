import CardHost.Proofs.Effects
import CardHost.Proofs.Latch
import CardHost.Proofs.Staging

/-!
# Where data commands come from

A write to the command register that moves data happens inside a data phase, and only right after
that phase installed its own transfer.  It carries the word and the argument of the last data
command that was latched, and no command is issued more often than it was latched.

`traceOf` is the trace of a history of operations, up to where one of them halts; `Provenance`
collects what is known of a data command in it, and `data_commands_follow_latches` is the result.
The step lemma is `Attempt.issued_trace` for one operation; the run lemmas are `traceOf_split` and
`issued_sublist`.
-/

namespace CardHost

/-! ## The trace of a history -/

section Histories

variable {machine : Machine ι}

/-- The system that an attempt runs in; where the lock is held elsewhere, without the guarded
state. -/
def Attempt.entry (attempt : Attempt) (before : System machine HostState ρ) :
    System machine HostState ρ :=
  if attempt.admitted then before else { before with cell := none }

/-- The trace of one attempt. -/
def Attempt.trace (host : Host) (handler : ι → Prog HostState ρ) (depth : Nat) (attempt : Attempt)
    (before : System machine HostState ρ) : List (Moment machine HostState ρ) :=
  (host.perform attempt.call).trace handler depth (attempt.entry before)

/-- The system after an attempt, if it ends. -/
def Attempt.after? (host : Host) (handler : ι → Prog HostState ρ) (depth : Nat) (attempt : Attempt)
    (before : System machine HostState ρ) : Option (System machine HostState ρ) :=
  match (host.perform attempt.call).run handler depth (attempt.entry before) with
  | .ok (_, after) => some (if attempt.admitted then after else { after with cell := before.cell })
  | .error _ => none

/-- The trace of a history of attempts, up to one that does not end. -/
def Host.traceOf (host : Host) (handler : ι → Prog HostState ρ) (depth : Nat) :
    System machine HostState ρ → List Attempt → List (Moment machine HostState ρ)
  | _, [] => []
  | before, attempt :: rest =>
    attempt.trace host handler depth before ++
      match attempt.after? host handler depth before with
      | some after => host.traceOf handler depth after rest
      | none => []

variable {host : Host} {handler : ι → Prog HostState ρ} {depth : Nat}

/-- An attempt that ends is one step of a history. -/
theorem Attempt.attempted {attempt : Attempt} {before after : System machine HostState ρ}
    (h : attempt.after? host handler depth before = some after) :
    ∃ answer, host.Attempted handler depth before attempt answer after := by
  obtain ⟨call, admitted⟩ := attempt
  unfold after? entry at h
  cases admitted with
  | true =>
      simp only [if_true] at h
      split at h
      · rename_i answer last hran
        cases h
        exact ⟨answer, .admitted hran⟩
      · cases h
  | false =>
      simp only [Bool.false_eq_true, if_false] at h
      split at h
      · rename_i answer last hran
        cases h
        exact ⟨answer, .refused hran⟩
      · cases h

/-- A moment of a history is a moment of one of its attempts, run where the earlier ones led. -/
theorem Host.traceOf_split {start : System machine HostState ρ} {history : List Attempt}
    {front back : List (Moment machine HostState ρ)} {moment : Moment machine HostState ρ}
    (h : host.traceOf handler depth start history = front ++ moment :: back) :
    ∃ earlier attempt rest now inside outside, history = earlier ++ attempt :: rest
      ∧ host.After handler depth start earlier now
      ∧ front = host.traceOf handler depth start earlier ++ inside
      ∧ attempt.trace host handler depth now = inside ++ moment :: outside := by
  induction history generalizing start front with
  | nil => simp [traceOf] at h
  | cons attempt rest ih =>
      rw [traceOf] at h
      rcases split_append h with ⟨between, rfl, hlater⟩ | ⟨between, htrace, -⟩
      · -- The moment comes after the first attempt, which therefore ended.
        cases hafter : attempt.after? host handler depth start with
        | none =>
            rw [hafter] at hlater
            simp at hlater
        | some after =>
            rw [hafter] at hlater
            obtain ⟨earlier, other, later, now, inside, outside, hhistory, hran, hfront, htrace⟩ :=
              ih hlater
            obtain ⟨answer, hattempted⟩ := Attempt.attempted hafter
            refine ⟨attempt :: earlier, other, later, now, inside, outside, ?_,
              .next hattempted hran, ?_, htrace⟩
            · rw [hhistory, List.cons_append]
            · rw [hfront, traceOf, hafter, List.append_assoc]
      · exact ⟨[], attempt, rest, start, front, between, rfl, .none, rfl, htrace⟩

end Histories

/-! ## Operations that start no data command -/

theorem Request.Idle.not_commandsData {request : Request σ} (h : request.Idle) :
    ¬ request.CommandsData := by
  cases request with
  | write => exact h.elim
  | _ => exact id

theorem Request.OnRegisters.not_commandsData_quietly {window : Window} {request : Request σ}
    (h : request.OnRegisters window Register.WritesQuietly) : ¬ request.CommandsData := by
  cases request with
  | write w offset value =>
      rintro ⟨hcommand, hdata⟩
      obtain ⟨-, register, rfl, -, -, hquiet⟩ := h
      rw [hquiet (Register.offset_injective hcommand)] at hdata
      cases hdata
  | _ => exact id

/-- An operation that is no data phase starts no data command. -/
theorem Host.not_commandsData_of_not_phase (host : Host) {machine : Machine ι}
    {handler : ι → Prog HostState ρ} {depth : Nat} (idles : Idles machine handler depth)
    {call : Call} (hphase : call.phase? = none) (system : System machine HostState ρ) :
    ∀ moment ∈ (host.perform call).trace handler depth system,
      ¬ moment.request.CommandsData := by
  intro moment hmem
  rcases host.permits_of_mem_trace idles call system moment hmem with h | ⟨left, h⟩ | h
  · exact h.not_commandsData
  · rw [h]
    exact id
  · exact (h.of_not_phase hphase).not_commandsData_quietly

/-! ## The data commands of a trace -/

/-- The argument register after a request. -/
def Request.argumentAfter (argument : UInt32) : Request σ → UInt32
  | .write _ offset value => if offset = Register.argument.offset then value else argument
  | _ => argument

/-- The data command that a request starts, with the argument that was written before. -/
def Request.issues? (argument : UInt32) : Request σ → Option Latch
  | .write _ offset value =>
    if offset = Register.command.offset ∧ hasAll value CommandFlags.dataExpected = true then
      some ⟨⟨value⟩, argument⟩
    else
      none
  | _ => none

/-- The data commands among requests, each with the argument that was written last before it; at
first that is `argument`. -/
def issuedFrom : UInt32 → List (Request σ) → List Latch
  | _, [] => []
  | argument, request :: rest =>
    (request.issues? argument).toList ++ issuedFrom (request.argumentAfter argument) rest

/-- The data commands of a trace in order. -/
def issued {machine : Machine ι} (trace : List (Moment machine σ ρ)) : List Latch :=
  issuedFrom 0 (trace.map Moment.request)

theorem Request.issues?_eq_none {request : Request σ} (h : ¬ request.CommandsData)
    (argument : UInt32) : request.issues? argument = none := by
  cases request with
  | write window offset value => exact if_neg h
  | _ => rfl

theorem issuedFrom_append (argument : UInt32) (front back : List (Request σ)) :
    issuedFrom argument (front ++ back) =
      issuedFrom argument front
        ++ issuedFrom (front.foldl Request.argumentAfter argument) back := by
  induction front generalizing argument with
  | nil => rfl
  | cons request rest ih =>
      simp only [List.cons_append, issuedFrom, List.foldl_cons, ih, List.append_assoc]

theorem issuedFrom_eq_nil {requests : List (Request σ)}
    (h : ∀ request ∈ requests, ¬ request.CommandsData) (argument : UInt32) :
    issuedFrom argument requests = [] := by
  induction requests generalizing argument with
  | nil => rfl
  | cons request rest ih =>
      have hfirst := h request List.mem_cons_self
      have hrest : ∀ other ∈ rest, ¬ other.CommandsData := fun other hmem =>
        h other (List.mem_cons_of_mem _ hmem)
      rw [issuedFrom, Request.issues?_eq_none hfirst, ih hrest]
      rfl

/-- Only effects change the argument register. -/
theorem foldl_argumentAfter_effects {machine : Machine ι} (trace : List (Moment machine σ ρ))
    (argument : UInt32) :
    (trace.map Moment.request).foldl Request.argumentAfter argument =
      (effects trace).foldl Request.argumentAfter argument := by
  unfold effects
  induction trace generalizing argument with
  | nil => rfl
  | cons moment rest ih =>
      rw [List.map_cons, List.foldl_cons, ih, List.filter_cons]
      by_cases heffect : moment.request.isEffect = true
      · rw [if_pos heffect, List.foldl_cons]
      · rw [if_neg heffect]
        have hsame : moment.request.argumentAfter argument = argument := by
          generalize moment.request = request at heffect
          cases request with
          | write => exact (heffect rfl).elim
          | _ => rfl
        rw [hsame]

/-- An installation leaves its argument in the argument register. -/
theorem foldl_argumentAfter_installation (host : Host) (ring : Ring) (argument : UInt32)
    (length : Nat) (buffer : DataBuffer) (pages : Pages) (mode control enable before : UInt32) :
    (host.installation ring argument length buffer pages mode control enable :
      List (Request σ)).foldl Request.argumentAfter before = argument := by
  simp only [Host.installation, Host.settings, List.foldl_append, List.foldl_cons, List.foldl_nil]
  rw [Request.argumentAfter, if_pos rfl]

/-! ## One attempt -/

/-- The data command that an attempt latches. -/
def Attempt.latched? (attempt : Attempt) : Option Latch :=
  if attempt.decides then attempt.call.latches? else none

/-- The word of every command has the start bit. -/
theorem CommandWord.withStart_ofCommand (index argument : UInt32) :
    (CommandWord.ofCommand index argument).withStart = CommandWord.ofCommand index argument := by
  unfold CommandWord.withStart CommandWord.ofCommand
  rw [UInt32.or_assoc _ (index &&& CommandIndex.mask), UInt32.or_comm (index &&& CommandIndex.mask),
    ← UInt32.or_assoc, UInt32.or_assoc _ CommandFlags.start CommandFlags.start, UInt32.or_self]

section Attempts

variable {machine : Machine ι} {host : Host} {handler : ι → Prog HostState ρ} {depth : Nat}

/-- A refused attempt starts no data command. -/
theorem Attempt.not_commandsData_of_refused {attempt : Attempt} (refused : attempt.admitted = false)
    (before : System machine HostState ρ) :
    ∀ moment ∈ attempt.trace host handler depth before, ¬ moment.request.CommandsData := by
  intro moment hmem
  have hheld : (attempt.entry before).cell = none := by
    rw [entry, if_neg (by rw [refused]; exact Bool.false_ne_true)]
  exact (host.idle_of_mem_trace handler depth attempt.call hheld moment hmem).not_commandsData

/-- A data phase uses the latch up. -/
theorem Attempt.passOn_of_phase {call : Call} {length : Nat} {buffer : DataBuffer}
    (phase : call.phase? = some (length, buffer)) (latch : Option Latch) :
    (Attempt.mk call true).passOn latch = none := by
  cases call with
  | readData => rfl
  | writeData => rfl
  | _ => cases phase

/-- What a data phase issues up to and with its command. -/
theorem Host.Commands.issued_eq {cell : Option HostState} {length : Nat} {buffer : DataBuffer}
    {front back : List (Moment machine HostState ρ)} {moment : Moment machine HostState ρ}
    {ring : Ring} {latch : Latch} {pages : Pages} {mode control enable : UInt32}
    (h : host.Commands cell length buffer front moment ring latch pages mode control enable)
    (hcommand : moment.request.CommandsData)
    (hfront : ∀ other ∈ front, ¬ other.request.CommandsData)
    (hback : ∀ other ∈ back, ¬ other.request.CommandsData) (argument : UInt32) :
    issuedFrom argument ((front ++ moment :: back).map Moment.request) =
      [⟨latch.word.withStart, latch.argument⟩] := by
  have quiet {moments : List (Moment machine HostState ρ)}
      (hmoments : ∀ other ∈ moments, ¬ other.request.CommandsData) (before : UInt32) :
      issuedFrom before (moments.map Moment.request) = [] := by
    apply issuedFrom_eq_nil
    intro request hmem
    obtain ⟨other, hother, rfl⟩ := List.mem_map.mp hmem
    exact hmoments other hother
  rw [List.map_append, issuedFrom_append, quiet hfront, foldl_argumentAfter_effects, h.effects_eq,
    foldl_argumentAfter_installation, List.map_cons, issuedFrom, quiet hback, List.nil_append,
    List.append_nil]
  rw [h.request] at hcommand ⊢
  have hissues : Request.issues? latch.argument (.write host.window Register.command.offset
      latch.word.withStart.bits : Request HostState) =
        some ⟨latch.word.withStart, latch.argument⟩ := if_pos hcommand
  rw [hissues]
  rfl

/-- An attempt issues the data command that waits in the latch, or none. -/
theorem Attempt.issued_trace (idles : Idles machine handler depth) (attempt : Attempt)
    {before : System machine HostState ρ} {state : HostState} (free : before.cell = some state)
    (argument : UInt32) :
    issuedFrom argument ((attempt.trace host handler depth before).map Moment.request) = []
      ∨ ∃ latch, state.latch = some latch ∧ attempt.passOn state.latch = none
        ∧ issuedFrom argument ((attempt.trace host handler depth before).map Moment.request) =
          [⟨latch.word.withStart, latch.argument⟩] := by
  by_cases hsome : ∃ moment ∈ attempt.trace host handler depth before,
      moment.request.CommandsData
  · right
    obtain ⟨moment, hmem, hcommand⟩ := hsome
    obtain ⟨call, admitted⟩ := attempt
    cases admitted with
    | false => exact (not_commandsData_of_refused rfl before moment hmem hcommand).elim
    | true =>
        have hentry : (Attempt.mk call true).entry before = before := rfl
        rw [trace, hentry] at hmem ⊢
        cases hphase : call.phase? with
        | none =>
            exact (host.not_commandsData_of_not_phase idles hphase before moment hmem hcommand).elim
        | some phase =>
            obtain ⟨length, buffer⟩ := phase
            have hphased := host.perform_phased hphase handler depth before
            obtain ⟨front, back, hsplit⟩ := List.append_of_mem hmem
            obtain ⟨⟨ring, latch, pages, mode, control, enable, hcommands⟩, hback⟩ :=
              hphased.commands idles hsplit hcommand
            have hfront : ∀ other ∈ front, ¬ other.request.CommandsData := by
              intro other hother hagain
              obtain ⟨earlier, later, rfl⟩ := List.append_of_mem hother
              rw [List.append_assoc, List.cons_append] at hsplit
              exact (hphased.commands idles hsplit hagain).2 moment (by simp) hcommand
            have hlatched := hcommands.latched
            rw [free] at hlatched
            cases hlatched
            refine ⟨latch, rfl, passOn_of_phase hphase _, ?_⟩
            rw [hsplit]
            exact hcommands.issued_eq hcommand hfront hback argument
  · left
    apply issuedFrom_eq_nil
    intro request hmem hcommand
    obtain ⟨moment, hmoment, rfl⟩ := List.mem_map.mp hmem
    exact hsome ⟨moment, hmoment, hcommand⟩

end Attempts

/-! ## Histories -/

theorem Attempt.passOn_toList (attempt : Attempt) (latch : Option Latch) :
    (attempt.passOn latch).toList.Sublist (latch.toList ++ attempt.latched?.toList) := by
  unfold passOn latched?
  by_cases hdecides : attempt.decides = true
  · rw [if_pos hdecides, if_pos hdecides]
    exact List.sublist_append_right _ _
  · rw [if_neg hdecides, if_neg hdecides]
    exact List.sublist_append_left _ _

theorem filterMap_latched_cons (attempt : Attempt) (history : List Attempt) :
    (attempt :: history).filterMap Attempt.latched? =
      attempt.latched?.toList ++ history.filterMap Attempt.latched? := by
  rw [List.filterMap_cons]
  cases attempt.latched? <;> rfl

/-- What an attempt passes on has the start bit if what it found has. -/
theorem Attempt.started_passOn (attempt : Attempt) {latch : Option Latch}
    (started : ∀ waiting, latch = some waiting → waiting.word.withStart = waiting.word) :
    ∀ waiting, attempt.passOn latch = some waiting → waiting.word.withStart = waiting.word := by
  intro waiting hwaiting
  unfold passOn at hwaiting
  by_cases hdecides : attempt.decides = true
  · rw [if_pos hdecides] at hwaiting
    obtain ⟨call, admitted⟩ := attempt
    cases call with
    | sendCommand index argument =>
        cases hwaiting
        exact CommandWord.withStart_ofCommand index argument
    | _ => cases hwaiting
  · rw [if_neg hdecides] at hwaiting
    exact started waiting hwaiting

section Runs

variable {host : Host} {machine : Machine ι} (calls : ι → List Call) {depth : Nat}

/-- Over a history the data commands issued are among those latched, in that order, if the one
that waits at first is counted too. -/
theorem Host.issued_sublist {history : List Attempt}
    {before : System machine HostState (List Answer)} {state : HostState}
    (free : before.cell = some state)
    (started : ∀ latch, state.latch = some latch → latch.word.withStart = latch.word)
    (argument : UInt32) :
    (issuedFrom argument ((host.traceOf (fun i => host.performAll (calls i)) depth before
        history).map Moment.request)).Sublist
      (state.latch.toList ++ history.filterMap Attempt.latched?) := by
  induction history generalizing before state argument with
  | nil => exact List.nil_sublist _
  | cons attempt history ih =>
      -- What the rest of the history issues is latched in it, or passed on by this attempt.
      obtain ⟨rest, htrace, hrest⟩ : ∃ rest,
          host.traceOf (fun i => host.performAll (calls i)) depth before (attempt :: history) =
              attempt.trace host (fun i => host.performAll (calls i)) depth before ++ rest
            ∧ ∀ later, (issuedFrom later (rest.map Moment.request)).Sublist
              ((attempt.passOn state.latch).toList ++ history.filterMap Attempt.latched?) := by
        rw [traceOf]
        cases hafter : attempt.after? host (fun i => host.performAll (calls i)) depth before with
        | none => exact ⟨[], rfl, fun _ => List.nil_sublist _⟩
        | some after =>
            obtain ⟨answer, hattempted⟩ := Attempt.attempted hafter
            exact ⟨_, rfl, ih (Attempted.cell_eq calls free hattempted)
              (attempt.started_passOn started)⟩
      rw [htrace, List.map_append, issuedFrom_append, filterMap_latched_cons]
      rcases attempt.issued_trace (host.idles_performAll calls depth) free argument with
        hnone | ⟨latch, hlatch, hpassed, hissued⟩
      · rw [hnone, List.nil_append, ← List.append_assoc]
        exact (hrest _).trans ((attempt.passOn_toList state.latch).append_right _)
      · rw [hpassed] at hrest
        rw [hissued, hlatch, started latch hlatch]
        exact ((hrest _).trans (List.sublist_append_right _ _)).append_left [latch]

end Runs

/-- The data command that waits after a history was latched in it, and nothing decided since. -/
theorem latchAfter_split {history : List Attempt} {latch : Latch}
    (h : latchAfter history = some latch) :
    ∃ older index between,
      history = older ++ ⟨.sendCommand index latch.argument, true⟩ :: between
        ∧ latch.word = .ofCommand index latch.argument ∧ latch.word.isData = true
        ∧ ∀ attempt ∈ between, attempt.decides = false := by
  unfold latchAfter at h
  rw [Option.bind_eq_some_iff] at h
  obtain ⟨attempt, hlast, hlatches⟩ := h
  obtain ⟨front, hfront⟩ := List.getLast?_eq_some_iff.mp hlast
  obtain ⟨older, rest, rfl, -, hrest⟩ := List.filter_eq_append_iff.mp hfront
  obtain ⟨skipped, between, rfl, -, hdecides, hbetween⟩ := List.filter_eq_cons_iff.mp hrest
  obtain ⟨call, admitted⟩ := attempt
  cases call with
  | sendCommand index argument =>
      cases hlatches
      rw [Attempt.decides, Bool.and_eq_true] at hdecides
      obtain ⟨rfl, hdata⟩ := hdecides
      refine ⟨older ++ skipped, index, between, (List.append_assoc _ _ _).symm, rfl, hdata, ?_⟩
      intro attempt hmem
      rw [List.filter_eq_nil_iff] at hbetween
      exact Bool.eq_false_iff.mpr (hbetween attempt hmem)
  | _ => cases hlatches

/-! ## Where a data command comes from -/

/-- Where a data command in the trace of a history comes from.  The history splits at the data
command that was latched last and at the data phase that issues it; before the command, that phase
was granted its staging pages, and registers and memory saw nothing of it but its installation. -/
structure Host.Provenance (host : Host) {machine : Machine ι} (handler : ι → Prog HostState ρ)
    (depth : Nat) (ring : Ring) (start : System machine HostState ρ) (history : List Attempt)
    (front : List (Moment machine HostState ρ)) (moment : Moment machine HostState ρ) where
  older : List Attempt
  index : UInt32
  argument : UInt32
  between : List Attempt
  phase : Call
  rest : List Attempt
  history_eq : history =
    older ++ ⟨.sendCommand index argument, true⟩ :: (between ++ ⟨phase, true⟩ :: rest)
  data : (CommandWord.ofCommand index argument).isData = true
  undecided : ∀ attempt ∈ between, attempt.decides = false
  length : Nat
  buffer : DataBuffer
  phase_eq : phase.phase? = some (length, buffer)
  direction : (CommandWord.ofCommand index argument).isWrite = buffer.isWrite
  /-- The system that the data phase runs in. -/
  now : System machine HostState ρ
  reached : host.After handler depth start
    (older ++ ⟨.sendCommand index argument, true⟩ :: between) now
  inside : List (Moment machine HostState ρ)
  outside : List (Moment machine HostState ρ)
  front_eq : front = host.traceOf handler depth start
    (older ++ ⟨.sendCommand index argument, true⟩ :: between) ++ inside
  trace_eq : (host.perform phase).trace handler depth now = inside ++ moment :: outside
  request_eq : moment.request =
    .write host.window Register.command.offset (CommandWord.ofCommand index argument).bits
  pages : Pages
  granted : inside.filterMap Moment.granted? = [pages]
  mode : UInt32
  control : UInt32
  enable : UInt32
  installed : effects inside =
    host.installation ring argument length buffer pages mode control enable
  only : ∀ other ∈ outside, ¬ other.request.CommandsData

namespace Host

variable {host : Host} {machine : Machine ι}

/-- A data command in a history from a system with an empty latch has a provenance. -/
theorem provenance (calls : ι → List Call) {depth : Nat} {ring : Ring}
    {start : System machine HostState (List Answer)} (free : start.cell = some ⟨ring, none⟩)
    {history : List Attempt} {front back : List (Moment machine HostState (List Answer))}
    {moment : Moment machine HostState (List Answer)}
    (htrace : host.traceOf (fun i => host.performAll (calls i)) depth start history =
      front ++ moment :: back)
    (hcommand : moment.request.CommandsData) :
    Nonempty (host.Provenance (fun i => host.performAll (calls i)) depth ring start history front
      moment) := by
  obtain ⟨earlier, ⟨call, admitted⟩, rest, now, inside, outside, rfl, hreached, rfl, hattempt⟩ :=
    traceOf_split htrace
  have hmem : moment ∈ Attempt.trace host (fun i => host.performAll (calls i)) depth
      ⟨call, admitted⟩ now := by
    rw [hattempt]
    simp
  have hcell := After.cell_eq calls free hreached
  dsimp only at hcell
  rw [← latchAfter_eq_foldl] at hcell
  cases admitted with
  | false => exact (Attempt.not_commandsData_of_refused rfl now moment hmem hcommand).elim
  | true =>
      have hidles : Idles machine (fun i => host.performAll (calls i)) depth :=
        host.idles_performAll calls depth
      cases hphase : call.phase? with
      | none =>
          exact (host.not_commandsData_of_not_phase hidles hphase now moment hmem hcommand).elim
      | some phase =>
          obtain ⟨length, buffer⟩ := phase
          obtain ⟨⟨ring', latch, pages, mode, control, enable, hcommands⟩, honly⟩ :=
            (host.perform_phased hphase _ depth now).commands hidles hattempt hcommand
          have hlatched := hcommands.latched
          rw [hcell] at hlatched
          simp only [Option.some.injEq, HostState.mk.injEq] at hlatched
          obtain ⟨rfl, hlast⟩ := hlatched
          obtain ⟨older, index, between, rfl, hword, hdata, hbetween⟩ := latchAfter_split hlast
          have hdirection := hcommands.cleared.direction
          have hrequest := hcommands.request
          rw [hword] at hdata hdirection
          rw [hword, CommandWord.withStart_ofCommand] at hrequest
          exact ⟨{
            older := older
            index := index
            argument := latch.argument
            between := between
            phase := call
            rest := rest
            history_eq := by rw [List.append_assoc, List.cons_append]
            data := hdata
            undecided := hbetween
            length := length
            buffer := buffer
            phase_eq := hphase
            direction := hdirection
            now := now
            reached := hreached
            inside := inside
            outside := outside
            front_eq := rfl
            trace_eq := hattempt
            request_eq := hrequest
            pages := pages
            granted := hcommands.granted_eq
            mode := mode
            control := control
            enable := enable
            installed := hcommands.effects_eq
            only := honly }⟩

/-- After a load, in any history of operations on any platform, with any operations interrupting
them and any of them refused the lock, the data commands issued are among those latched, in that
order, and each of them has a provenance. -/
theorem data_commands_follow_latches (calls : ι → List Call) {slot : Slot} {config : HostConfig}
    {services : Services} {earlier : ι → Prog HostState (List Answer)} {loadDepth : Nat}
    {before start : System machine HostState (List Answer)}
    (loaded : (slot.load config services).run earlier loadDepth before =
      .ok ((.ok (), ⟨some host⟩), start)) (depth : Nat) (history : List Attempt) :
    ∃ ring, start.cell = some ⟨ring, none⟩
      ∧ (issued (host.traceOf (fun i => host.performAll (calls i)) depth start history)).Sublist
          (history.filterMap Attempt.latched?)
      ∧ ∀ front moment back,
          host.traceOf (fun i => host.performAll (calls i)) depth start history =
              front ++ moment :: back →
            moment.request.CommandsData →
              Nonempty (host.Provenance (fun i => host.performAll (calls i)) depth ring start
                history front moment) := by
  obtain ⟨host', ⟨ring, latch⟩, hhost, hcell, -, -, -, hlatch⟩ := Slot.load_run loaded
  have hnone : latch = none := hlatch
  subst hnone
  refine ⟨ring, hcell, ?_, ?_⟩
  · apply issued_sublist calls hcell
    intro waiting hwaiting
    cases hwaiting
  · intro front moment back htrace hcommand
    exact provenance calls hcell htrace hcommand

/-- A history that issues anything has a moment which does so. -/
theorem exists_commandsData {handler : ι → Prog HostState ρ} {depth : Nat}
    {start : System machine HostState ρ} {history : List Attempt}
    (h : issued (host.traceOf handler depth start history) ≠ []) :
    ∃ front moment back, host.traceOf handler depth start history = front ++ moment :: back
      ∧ moment.request.CommandsData := by
  apply Classical.byContradiction
  intro hnone
  apply h
  apply issuedFrom_eq_nil
  intro request hmem hcommand
  obtain ⟨moment, hmoment, rfl⟩ := List.mem_map.mp hmem
  obtain ⟨front, back, hsplit⟩ := List.append_of_mem hmoment
  exact hnone ⟨front, moment, back, hsplit, hcommand⟩

end Host

/-! ## A write on the bench -/

/-- The small bench with the hasty host loaded. -/
@[irreducible]
def hastyStart : System Bench.machine HostState (List Answer) :=
  match (Slot.empty.load hastyHost.config .supplied).run undisturbed 0 smallBench with
  | .ok (_, start) => start
  | .error _ => smallBench

namespace Host

/-- A write that follows its latch issues its command once, and the command has a provenance. -/
theorem write_follows_latch :
    ∃ ring front moment back,
      hastyHost.traceOf (fun call => hastyHost.performAll [call]) 1 hastyStart
          [⟨.sendCommand 24 0, true⟩, ⟨.writeData 1 [7], true⟩] = front ++ moment :: back
        ∧ Nonempty (hastyHost.Provenance (fun call => hastyHost.performAll [call]) 1 ring hastyStart
          [⟨.sendCommand 24 0, true⟩, ⟨.writeData 1 [7], true⟩] front moment) := by
  have hloaded : (Slot.empty.load hastyHost.config .supplied).run undisturbed 0 smallBench =
      .ok ((.ok (), ⟨some hastyHost⟩), hastyStart) := by
    rw [hastyStart]
    rfl
  have hissued : issued (hastyHost.traceOf (fun call => hastyHost.performAll [call]) 1 hastyStart
      [⟨.sendCommand 24 0, true⟩, ⟨.writeData 1 [7], true⟩]) =
        [⟨CommandWord.ofCommand 24 0, 0⟩] := by
    decide +kernel
  obtain ⟨front, moment, back, htrace, hcommand⟩ := exists_commandsData (by rw [hissued]; simp)
  obtain ⟨ring, -, -, hprovenance⟩ := data_commands_follow_latches (fun call => [call]) hloaded 1
    [⟨.sendCommand 24 0, true⟩, ⟨.writeData 1 [7], true⟩]
  exact ⟨ring, front, moment, back, htrace, hprovenance front moment back htrace hcommand⟩

end Host

end CardHost
