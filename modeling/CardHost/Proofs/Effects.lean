import CardHost.Proofs.Transfers

/-!
# What a transfer does before its command

The effects of a run are the register writes and the stores of its trace.  `Prog.Unfolds` says of a
program what it may do *after what it already did*: each effect is judged with all effects before
it, whatever the platform answers along the way.  `Unfolds.effects_of_trace` carries this to traces,
where operations of the host may interrupt the program.

With it the whole course of a transfer up to its command is one list (`Host.installation`): the data
staged, the chain stored, the engine pointed at the chain and enabled, the sizes set, pending status
cleared and the argument written.  Nothing else reaches a register or memory before a command that
moves data (`moveThrough_installs`).
-/

namespace CardHost

/-! ## Effects -/

/-- Whether a request changes a register or memory. -/
def Request.isEffect : Request σ → Bool
  | .write .. => true
  | .store .. => true
  | _ => false

theorem Request.Idle.not_effect {request : Request σ} (h : request.Idle) :
    request.isEffect = false := by
  cases request with
  | write => exact h.elim
  | store => exact h.elim
  | _ => rfl

theorem Request.OffBoard.not_effect {request : Request σ} (h : request.OffBoard) :
    request.isEffect = false := by
  cases request with
  | write => exact h.elim
  | store => exact h.elim
  | _ => rfl

/-- The effects of a trace. -/
def effects {machine : Machine ι} (trace : List (Moment machine σ ρ)) : List (Request σ) :=
  (trace.map Moment.request).filter Request.isEffect

section Traces

variable {machine : Machine ι}

theorem effects_append (front back : List (Moment machine σ ρ)) :
    effects (front ++ back) = effects front ++ effects back := by
  simp only [effects, List.map_append, List.filter_append]

theorem effects_cons (moment : Moment machine σ ρ) (rest : List (Moment machine σ ρ)) :
    effects (moment :: rest) =
      (if moment.request.isEffect then [moment.request] else []) ++ effects rest := by
  simp only [effects, List.map_cons, List.filter_cons]
  by_cases h : moment.request.isEffect
  · rw [if_pos h, if_pos h, List.singleton_append]
  · rw [if_neg h, if_neg h, List.nil_append]

theorem effects_eq_nil {trace : List (Moment machine σ ρ)}
    (h : ∀ moment ∈ trace, moment.request.isEffect = false) : effects trace = [] := by
  rw [effects, List.filter_eq_nil_iff]
  intro request hmem
  obtain ⟨moment, hmoment, rfl⟩ := List.mem_map.mp hmem
  rw [h moment hmoment]
  exact Bool.false_ne_true

end Traces

/-! ## Programs that unfold -/

/-- After the effects `past` every effect of the program is allowed by those before it, whatever its
requests are answered; where it ends, `post` holds of all effects and the value. -/
def Prog.Unfolds (allowed : List (Request σ) → Request σ → Prop)
    (post : List (Request σ) → α → Prop) : List (Request σ) → Prog σ α → Prop
  | past, .done value => post past value
  | _, .fault => True
  | _, .stuck => True
  | past, .ask request next =>
    if request.isEffect then
      allowed past request ∧ ∀ reply, (next reply).Unfolds allowed post (past ++ [request])
    else
      ∀ reply, (next reply).Unfolds allowed post past

namespace Prog

variable {allowed : List (Request σ) → Request σ → Prop} {past : List (Request σ)}

/-- The rest of the program starts after its first request, if that is an effect. -/
theorem Unfolds.of_reply {post : List (Request σ) → α → Prop} {request : Request σ}
    {next : request.Reply → Prog σ α} (h : (ask request next).Unfolds allowed post past)
    (reply : request.Reply) :
    (next reply).Unfolds allowed post (past ++ if request.isEffect then [request] else []) := by
  unfold Unfolds at h
  by_cases heffect : request.isEffect = true
  · rw [if_pos heffect] at h ⊢
    exact h.2 reply
  · rw [if_neg heffect] at h ⊢
    rw [List.append_nil]
    exact h reply

theorem Unfolds.bind {mid : List (Request σ) → α → Prop} {post : List (Request σ) → β → Prop}
    {program : Prog σ α} {next : α → Prog σ β} (first : program.Unfolds allowed mid past)
    (rest : ∀ value later, mid later value → (next value).Unfolds allowed post later) :
    (program.bind next).Unfolds allowed post past := by
  induction program generalizing past with
  | done value => exact rest value past first
  | fault => trivial
  | stuck => trivial
  | ask request reply ih =>
      unfold Unfolds at first
      unfold Prog.bind Unfolds
      by_cases heffect : request.isEffect = true
      · rw [if_pos heffect] at first ⊢
        exact ⟨first.1, fun answer => ih answer (first.2 answer)⟩
      · rw [if_neg heffect] at first ⊢
        exact fun answer => ih answer (first answer)

theorem Unfolds.mono {post goal : List (Request σ) → α → Prop} {program : Prog σ α}
    (h : program.Unfolds allowed post past)
    (reaches : ∀ later value, post later value → goal later value) :
    program.Unfolds allowed goal past := by
  rw [← bind_done program]
  apply h.bind
  intro value later hpost
  exact reaches later value hpost

/-- Effects are only added to those before the program. -/
theorem Unfolds.grows {post : List (Request σ) → α → Prop} {program : Prog σ α}
    (h : program.Unfolds allowed post past) :
    program.Unfolds allowed (fun later value => past <+: later ∧ post later value) past := by
  induction program generalizing past with
  | done value => exact ⟨List.prefix_rfl, h⟩
  | fault => trivial
  | stuck => trivial
  | ask request next ih =>
      unfold Unfolds at h ⊢
      by_cases heffect : request.isEffect = true
      · rw [if_pos heffect] at h ⊢
        refine ⟨h.1, fun reply => (ih reply (h.2 reply)).mono fun later value hlater => ?_⟩
        exact ⟨(List.prefix_append past [request]).trans hlater.1, hlater.2⟩
      · rw [if_neg heffect] at h ⊢
        exact fun reply => ih reply (h reply)

/-- A program without effects. -/
theorem Asks.unfolds {program : Prog σ α}
    (h : program.Asks fun request => request.isEffect = false) :
    program.Unfolds allowed (fun later _ => later = past) past := by
  induction program with
  | done value => exact rfl
  | fault => trivial
  | stuck => trivial
  | ask request next ih =>
      have heffect : ¬ request.isEffect = true := by
        rw [h.1]
        exact Bool.false_ne_true
      unfold Unfolds
      rw [if_neg heffect]
      exact fun reply => ih reply (h.2 reply)

/-- A program whose effects are all allowed at any time. -/
theorem Asks.unfolds_anyhow {program : Prog σ α} {anytime : Request σ → Prop}
    (h : program.Asks anytime) (hallowed : ∀ past request, anytime request → allowed past request)
    (past : List (Request σ)) : program.Unfolds allowed (fun _ _ => True) past := by
  induction program generalizing past with
  | done value => trivial
  | fault => trivial
  | stuck => trivial
  | ask request next ih =>
      unfold Unfolds
      by_cases heffect : request.isEffect = true
      · rw [if_pos heffect]
        exact ⟨hallowed past request h.1, fun reply => ih reply (h.2 reply) _⟩
      · rw [if_neg heffect]
        exact fun reply => ih reply (h.2 reply) past

/-- Each effect of a trace is allowed by those before it. -/
theorem Unfolds.effects_of_trace {machine : Machine ι} {handler : ι → Prog σ ρ} {depth : Nat}
    (idles : Idles machine handler depth) {post : List (Request σ) → α → Prop}
    {program : Prog σ α} (inner : program.Asks Request.Inner)
    (h : program.Unfolds allowed post past) {system : System machine σ ρ}
    (held : system.cell = none) {front back : List (Moment machine σ ρ)}
    {moment : Moment machine σ ρ}
    (htrace : program.trace handler depth system = front ++ moment :: back)
    (heffect : moment.request.isEffect = true) :
    allowed (past ++ effects front) moment.request := by
  unfold trace at htrace
  induction program generalizing past system front with
  | done value => simp [traceWith] at htrace
  | fault => simp [traceWith] at htrace
  | stuck => simp [traceWith] at htrace
  | ask request next ih =>
      have hcell := (answer_inner inner.1 system).1
      have hnext := h.of_reply
      rw [traceWith] at htrace
      cases front with
      | nil =>
          obtain ⟨rfl, -⟩ := List.cons.inj htrace
          unfold Unfolds at h
          rw [if_pos heffect] at h
          rw [effects, List.map_nil, List.filter_nil, List.append_nil]
          exact h.1
      | cons first front =>
          obtain ⟨rfl, hrest⟩ := List.cons.inj htrace
          rw [effects_cons, ← List.append_assoc]
          rcases hanswer : system.answer request with ⟨reply, _ | call, after⟩
          · rw [hanswer] at hcell hrest
            exact ih reply (inner.2 reply) (hnext reply) (hcell.trans held) hrest
          · rw [hanswer] at hcell hrest
            have hidle := idles.idle call after (hcell.trans held)
            have hquiet : ∀ other ∈ traceAt handler depth call after,
                ¬ other.request.isEffect = true := by
              intro other hmem
              rw [(hidle other hmem).not_effect]
              exact Bool.false_ne_true
            obtain ⟨between, rfl, hlater⟩ := split_behind
              (fun other : Moment machine σ ρ => other.request.isEffect = true) hrest hquiet heffect
            rw [effects_append, effects_eq_nil fun other hmem => (hidle other hmem).not_effect,
              List.nil_append]
            cases hserved : serveAt handler depth call after with
            | ok served =>
                rw [hserved] at hlater
                have hkept := idles.keeps call after served (hcell.trans held) hserved
                exact ih reply (inner.2 reply) (hnext reply) hkept hlater
            | error halt =>
                rw [hserved] at hlater
                simp at hlater

/-- What holds of the effects and the value where the program ends holds of a run that ends. -/
theorem Unfolds.post_of_run {machine : Machine ι} {handler : ι → Prog σ ρ} {depth : Nat}
    (idles : Idles machine handler depth) {post : List (Request σ) → α → Prop}
    {program : Prog σ α} (inner : program.Asks Request.Inner)
    (h : program.Unfolds allowed post past) {system after : System machine σ ρ} {value : α}
    (held : system.cell = none) (ran : program.run handler depth system = .ok (value, after)) :
    post (past ++ effects (program.trace handler depth system)) value := by
  unfold trace
  unfold run at ran
  induction program generalizing past system with
  | done value =>
      cases ran
      rw [traceWith, effects, List.map_nil, List.filter_nil, List.append_nil]
      exact h
  | fault => cases ran
  | stuck => cases ran
  | ask request next ih =>
      have hcell := (answer_inner inner.1 system).1
      have hnext := h.of_reply
      rw [runWith] at ran
      rw [traceWith, effects_cons, ← List.append_assoc]
      rcases hanswer : system.answer request with ⟨reply, _ | call, answered⟩
      · rw [hanswer] at hcell ran
        exact ih reply (inner.2 reply) (hnext reply) (hcell.trans held) ran
      · rw [hanswer] at hcell ran
        dsimp only at ran ⊢
        cases hserved : serveAt handler depth call answered with
        | error halt =>
            rw [hserved] at ran
            cases ran
        | ok served =>
            rw [hserved] at ran
            have hidle := idles.idle call answered (hcell.trans held)
            have hkept := idles.keeps call answered served (hcell.trans held) hserved
            rw [effects_append, effects_eq_nil fun other hmem => (hidle other hmem).not_effect,
              List.nil_append]
            exact ih reply (inner.2 reply) (hnext reply) hkept ran

end Prog

/-! ## The effects of the parts of a transfer -/

/-- A write that starts a command which moves data. -/
def Request.CommandsData : Request σ → Prop
  | .write _ offset value =>
    offset = Register.command.offset ∧ hasAll value CommandFlags.dataExpected = true
  | _ => False

instance (request : Request σ) : Decidable request.CommandsData :=
  match request with
  | .write _ offset value => inferInstanceAs (Decidable (offset = Register.command.offset
      ∧ hasAll value CommandFlags.dataExpected = true))
  | .read .. | .patience .. | .stall .. | .allocate .. | .free .. | .load .. | .store .. | .raise ..
  | .restore .. | .take | .put .. | .shows .. | .log .. => .isFalse id

theorem Request.CommandsData.isEffect {request : Request σ} (h : request.CommandsData) :
    request.isEffect = true := by
  cases request with
  | write => rfl
  | _ => exact h.elim

theorem Request.not_commandsData_of_ne {register : Register} (h : register ≠ .command)
    (window : Window) (value : UInt32) :
    ¬ (.write window register.offset value : Request σ).CommandsData :=
  fun hcommand => h (Register.offset_injective hcommand.1)

theorem Request.OnRegisters.not_commandsData {window : Window} {request : Request σ}
    (h : request.OnRegisters window fun register _ => register ≠ .command) :
    ¬ request.CommandsData := by
  cases request with
  | write w offset value =>
      obtain ⟨-, register, rfl, hregister⟩ := h
      exact not_commandsData_of_ne hregister w value
  | _ => exact id

/-- The stores that put descriptors in their places, from an index on. -/
def Ring.stores (ring : Ring) : Nat → List Descriptor → List (Request σ)
  | _, [] => []
  | index, descriptor :: rest =>
    .store (ring.place index) descriptor.encode.toBytes :: ring.stores (index + 1) rest

/-- The stores that stage the data to send. -/
def DataBuffer.stores (buffer : DataBuffer) (pages : Pages) (length : Nat) : List (Request σ) :=
  match buffer with
  | .incoming _ => []
  | .outgoing bytes =>
    [.store pages.address.toNat (bytes.take length ++ List.replicate (pages.size - length) 0)]

/-- The registers written for a transfer, around the values read from the bus mode and control
registers: the two halves of the ring base, the engine reset and enabled, the sizes, the pending
status cleared and the argument. -/
def Host.settings (host : Host) (ring : Ring) (argument : UInt32) (length : Nat)
    (mode control enable : UInt32) : List (Request σ) :=
  [.write host.window Register.listLow.offset (Bytes.lowHalf ring.base),
    .write host.window Register.listHigh.offset (Bytes.highHalf ring.base),
    .write host.window Register.busMode.offset (mode ||| BusMode.softReset),
    .write host.window Register.control.offset
      (control ||| (Control.interruptEnable ||| Control.internalDma)),
    .write host.window Register.busMode.offset (enable ||| BusMode.enable),
    .write host.window Register.blockSize.offset (UInt32.ofNat host.config.blockSize.toNat),
    .write host.window Register.byteCount.offset (UInt32.ofNat length),
    .write host.window Register.rawInterrupt.offset clearAll,
    .write host.window Register.argument.offset argument]

/-- Everything that a transfer does to registers and memory before its command. -/
def Host.installation (host : Host) (ring : Ring) (argument : UInt32) (length : Nat)
    (buffer : DataBuffer) (pages : Pages) (mode control enable : UInt32) : List (Request σ) :=
  buffer.stores pages length
    ++ ring.stores 0 (ring.chain (host.split length) pages.address host.config.segmentSize.toNat)
    ++ host.settings ring argument length mode control enable

section Parts

variable {allowed : List (Request σ) → Request σ → Prop} {past : List (Request σ)}

theorem unfolds_log (message : Message) :
    (Prog.log message : Prog σ Unit).Unfolds allowed (fun later _ => later = past) past :=
  Prog.Asks.unfolds (asks_log message rfl)

namespace Window

variable (window : Window)

theorem unfolds_read (offset : Nat) :
    (window.read offset : Prog σ UInt32).Unfolds allowed (fun later _ => later = past) past := by
  apply Prog.Asks.unfolds
  unfold read
  split
  · exact Prog.asks_request rfl
  · trivial

theorem unfolds_write {offset : Nat} {value : UInt32}
    (h : allowed past (.write window offset value)) :
    (window.write offset value : Prog σ Unit).Unfolds allowed
      (fun later _ => later = past ++ [.write window offset value]) past := by
  apply (unfolds_log _).bind
  intro _ later hlater
  subst hlater
  split
  · exact ⟨h, fun _ => rfl⟩
  · trivial

theorem unfolds_setBits {offset : Nat} {bits : UInt32}
    (h : ∀ value, allowed past (.write window offset (value ||| bits))) :
    (window.setBits offset bits : Prog σ Unit).Unfolds allowed
      (fun later _ => ∃ value, later = past ++ [.write window offset (value ||| bits)]) past := by
  apply (window.unfolds_read offset).bind
  intro value later hlater
  subst hlater
  apply (window.unfolds_write (h value)).mono
  intro later _ hlater
  exact ⟨value, hlater⟩

/-- Waiting has no effects. -/
theorem unfolds_handshake (services : Services) (offset : Nat) (ready : UInt32 → Bool)
    (missed : Message) (bound : Option UInt32) :
    (window.handshake services offset ready missed bound : Action σ Unit).run.Unfolds allowed
      (fun later _ => later = past) past := by
  have hasks : (window.handshake services offset ready missed bound : Action σ Unit).run.Asks
      (Request.OnRegisters window fun _ _ => False) :=
    asks_handshake services offset ready missed bound
  apply Prog.Asks.unfolds
  apply hasks.mono
  intro request hrequest
  exact hrequest.idle.not_effect

end Window

theorem Ring.unfolds_putChain (ring : Ring)
    (hallowed : ∀ past address bytes, allowed past (.store address bytes)) (index : Nat)
    (descriptors : List Descriptor) :
    (ring.putChain index descriptors : Prog σ Unit).Unfolds allowed
      (fun later _ => later = past ++ ring.stores index descriptors) past := by
  induction descriptors generalizing index past with
  | nil => exact (List.append_nil past).symm
  | cons descriptor rest ih =>
      apply (unfolds_log _).bind
      intro _ later hlater
      subst hlater
      constructor
      · exact hallowed _ _ _
      · intro _
        apply (ih (index + 1)).mono
        intro final _ hfinal
        rw [hfinal, List.append_assoc]
        rfl

end Parts

namespace Host

variable (host : Host)

/-- The descriptors of a transfer have addresses, and so have the buffers that they name. -/
structure Addressed (ring : Ring) (length : Nat) (pages : Pages) : Prop where
  buffers : pages.address.toNat
    + ((host.split length).segments - 1) * host.config.segmentSize.toNat < wordSpan
  places : ring.place (host.split length).segments < wordSpan

/-- What is allowed before and at the command of a transfer: no command that moves data but that of
the transfer, right after its installation. -/
def Installs (ring : Ring) (latch : Latch) (length : Nat) (buffer : DataBuffer) (pages : Pages)
    (past : List (Request σ)) (request : Request σ) : Prop :=
  request.CommandsData →
    request = .write host.window Register.command.offset latch.word.withStart.bits
      ∧ host.Addressed ring length pages
      ∧ ∃ mode control enable,
        past = host.installation ring latch.argument length buffer pages mode control enable

/-- The sizes of a transfer are set: the block size of the host, and its own length. -/
def SetsSizes (length : Nat) (past : List (Request σ)) : Prop :=
  .write host.window Register.blockSize.offset (UInt32.ofNat host.config.blockSize.toNat) ∈ past
    ∧ .write host.window Register.byteCount.offset (UInt32.ofNat length) ∈ past

section Walk

variable {host} {ring : Ring} {latch : Latch} {length : Nat} {buffer : DataBuffer} {pages : Pages}
  {past : List (Request σ)}

theorem installs_of_ne {register : Register} (h : register ≠ .command) (value : UInt32) :
    host.Installs ring latch length buffer pages past
      (.write host.window register.offset value) :=
  fun hcommand => (Request.not_commandsData_of_ne h host.window value hcommand).elim

theorem unfolds_stage :
    (stage pages length buffer : Prog σ Unit).Unfolds
      (host.Installs ring latch length buffer pages)
      (fun later _ => later = past ++ buffer.stores pages length) past := by
  cases buffer with
  | incoming size => exact (List.append_nil past).symm
  | outgoing bytes => exact ⟨fun hcommand => hcommand.elim, fun _ => rfl⟩

/-- Once its data phase has checked it, a transfer gets its descriptors. -/
theorem unfolds_prepare (cleared : host.Cleared ring latch length buffer pages) :
    (ring.prepare length pages.address host.config.segmentSize.toNat
        host.config.blockSize.toNat : Action σ Geometry).run.Unfolds
      (host.Installs ring latch length buffer pages)
      (fun later outcome => outcome = .ok (host.split length) ∧ host.Addressed ring length pages
        ∧ later = past ++ ring.stores 0 (ring.chain (host.split length) pages.address
          host.config.segmentSize.toNat)) past := by
  have hlength : ¬ length = 0 := Nat.pos_iff_ne_zero.mp cleared.positive
  have hroom : ¬ ring.count < (host.split length).segments := Nat.not_lt.mpr cleared.room
  unfold Ring.prepare
  rw [if_neg hlength, cleared.splits, Action.run_lift_bind]
  simp only [Prog.require, Prog.bind, if_neg hroom]
  rw [Action.run_lift_bind]
  by_cases haddresses : pages.address.toNat
      + ((host.split length).segments - 1) * host.config.segmentSize.toNat < wordSpan
        ∧ ring.place (host.split length).segments < wordSpan
  · rw [Ring.chain?, if_pos haddresses]
    simp only [Prog.bind]
    rw [Action.run_lift_bind]
    apply (ring.unfolds_putChain (fun _ _ _ hcommand => hcommand.elim) 0 _).bind
    intro _ later hlater
    exact ⟨rfl, ⟨haddresses.1, haddresses.2⟩, hlater⟩
  · rw [Ring.chain?, if_neg haddresses]
    trivial

theorem unfolds_program :
    (ring.program host.window : Prog σ Unit).Unfolds (host.Installs ring latch length buffer pages)
      (fun later _ => ∃ mode, later = past ++
        [.write host.window Register.listLow.offset (Bytes.lowHalf ring.base),
          .write host.window Register.listHigh.offset (Bytes.highHalf ring.base),
          .write host.window Register.busMode.offset (mode ||| BusMode.softReset)]) past := by
  apply (host.window.unfolds_write (installs_of_ne (by decide) _)).bind
  intro _ later hlater
  subst hlater
  apply (host.window.unfolds_write (installs_of_ne (by decide) _)).bind
  intro _ later hlater
  subst hlater
  apply (host.window.unfolds_setBits fun value => installs_of_ne (by decide) _).mono
  rintro later _ ⟨mode, rfl⟩
  exact ⟨mode, by simp only [List.append_assoc, List.cons_append, List.nil_append]⟩

theorem unfolds_start :
    (Ring.start host.window length host.config.blockSize.toNat : Prog σ Unit).Unfolds
      (host.Installs ring latch length buffer pages)
      (fun later _ => ∃ control enable, later = past ++
        [.write host.window Register.control.offset
            (control ||| (Control.interruptEnable ||| Control.internalDma)),
          .write host.window Register.busMode.offset (enable ||| BusMode.enable),
          .write host.window Register.blockSize.offset
            (UInt32.ofNat host.config.blockSize.toNat),
          .write host.window Register.byteCount.offset (UInt32.ofNat length)]) past := by
  apply (host.window.unfolds_setBits fun value => installs_of_ne (by decide) _).bind
  rintro _ later ⟨control, rfl⟩
  apply (host.window.unfolds_setBits fun value => installs_of_ne (by decide) _).bind
  rintro _ later ⟨enable, rfl⟩
  apply (host.window.unfolds_write (installs_of_ne (by decide) _)).bind
  intro _ later hlater
  subst hlater
  apply (host.window.unfolds_write (installs_of_ne (by decide) _)).mono
  intro later _ hlater
  subst hlater
  exact ⟨control, enable, by simp only [List.append_assoc, List.cons_append, List.nil_append]⟩

/-- Requests that start no command with data are allowed at any time. -/
theorem Installs.of_asks {program : Prog σ α}
    (h : program.Asks (Request.OnRegisters host.window fun register _ => register ≠ .command)) :
    program.Unfolds (host.Installs ring latch length buffer pages) (fun _ _ => True) past := by
  apply h.unfolds_anyhow
  intro past request hrequest hcommand
  exact (hrequest.not_commandsData hcommand).elim

/-- A command is started right after its argument is set. -/
theorem unfolds_post (addressed : host.Addressed ring length pages)
    (hinstalled : ∃ mode control enable,
      past ++ [.write host.window Register.argument.offset latch.argument] =
        host.installation ring latch.argument length buffer pages mode control enable) :
    (host.post latch.word latch.argument : Action σ Unit).run.Unfolds
      (host.Installs ring latch length buffer pages) (fun _ _ => True) past := by
  have haccepted : (host.awaitClear .command CommandFlags.start : Action σ Unit).run.Asks
      (Request.OnRegisters host.window fun register _ => register ≠ .command) :=
    Window.asks_handshake _ _ _ _ _
  unfold post
  rw [write, Action.run_lift_bind]
  apply (host.window.unfolds_write (installs_of_ne (by decide) _)).bind
  intro _ later hlater
  rw [← hlater] at hinstalled
  rw [Action.run_bind]
  apply (host.window.unfolds_handshake _ _ _ _ _).bind
  intro outcome still hstill
  subst hstill
  cases outcome with
  | error error => trivial
  | ok value =>
      dsimp only
      rw [write, Action.run_lift_bind]
      apply (host.window.unfolds_write fun _ => ⟨rfl, addressed, hinstalled⟩).bind
      intro _ final _
      exact Installs.of_asks haccepted

/-- A command clears pending status and sets its argument right before it is started. -/
theorem unfolds_issue (addressed : host.Addressed ring length pages)
    (hinstalled : ∃ mode control enable,
      past ++ [.write host.window Register.rawInterrupt.offset clearAll,
          .write host.window Register.argument.offset latch.argument] =
        host.installation ring latch.argument length buffer pages mode control enable) :
    (host.issue latch.word latch.argument : Action σ Unit).run.Unfolds
      (host.Installs ring latch length buffer pages) (fun _ _ => True) past := by
  have hpolled : (host.write .interruptMask RawInterrupt.errorMask >>= fun _ =>
      host.awaitCommand latch.word : Action σ Unit).run.Asks
        (Request.OnRegisters host.window fun register _ => register ≠ .command) :=
    Action.Asks.bind (Action.asks_lift (Window.asks_write (by decide))) fun _ =>
      asks_completion host _ _ _ _
  unfold issue
  rw [report, Action.run_lift_bind]
  apply (unfolds_log _).bind
  intro _ later hlater
  subst hlater
  rw [Action.run_bind]
  apply (host.window.unfolds_handshake _ _ _ _ _).bind
  intro outcome later hlater
  subst hlater
  cases outcome with
  | error error => trivial
  | ok value =>
      dsimp only
      rw [write, Action.run_lift_bind]
      apply (host.window.unfolds_write (installs_of_ne (by decide) _)).bind
      intro _ cleared hcleared
      subst hcleared
      rw [Action.run_bind]
      apply (unfolds_post addressed ?_).bind
      · intro outcome posted _
        cases outcome with
        | error error => trivial
        | ok value => exact Installs.of_asks hpolled
      · obtain ⟨mode, control, enable, h⟩ := hinstalled
        refine ⟨mode, control, enable, ?_⟩
        rw [List.append_assoc]
        exact h

/-- Once its command is accepted a transfer has no more effects. -/
theorem asks_conclude_quietly (geometry : Geometry) :
    (host.conclude latch length buffer pages geometry : Action σ (List UInt8)).run.Asks
      fun request => request.isEffect = false := by
  have hawait : (host.awaitData : Action σ Unit).Asks
      (Request.OnRegisters host.window fun _ _ => False) := asks_completion host _ _ _ _
  have hcollect : (collect pages length buffer : Prog σ (List UInt8)).Asks
      fun request => request.isEffect = false := by
    cases buffer with
    | incoming size => exact Prog.asks_request rfl
    | outgoing bytes => trivial
  apply Action.Asks.bind (hawait.mono fun _ hrequest => hrequest.idle.not_effect)
  intro _
  apply (Action.asks_lift hcollect).bind
  intro arrived
  exact Action.Asks.bind (Action.asks_lift (asks_log _ rfl)) fun _ => Action.asks_pure _

/-- A transfer issues no command that moves data but its own, and that right after its
installation; one that succeeds has set its sizes. -/
theorem unfolds_moveThrough (cleared : host.Cleared ring latch length buffer pages) :
    (host.moveThrough ring latch length buffer pages : Action σ (List UInt8)).run.Unfolds
      (host.Installs ring latch length buffer pages)
      (fun later outcome => ∀ arrived, outcome = .ok arrived → host.SetsSizes length later) [] := by
  rw [moveThrough_eq, Action.run_bind]
  unfold launch
  rw [Action.run_lift_bind, Prog.bind_assoc]
  apply unfolds_stage.bind
  intro _ later hlater
  subst hlater
  rw [Action.run_bind, Prog.bind_assoc]
  apply (unfolds_prepare cleared).bind
  rintro outcome later ⟨rfl, addressed, rfl⟩
  dsimp only
  rw [Action.run_lift_bind, Prog.bind_assoc]
  apply unfolds_program.bind
  rintro _ later ⟨mode, rfl⟩
  rw [Action.run_lift_bind, Prog.bind_assoc]
  apply unfolds_start.bind
  rintro _ later ⟨control, enable, rfl⟩
  rw [Action.run_bind, Prog.bind_assoc]
  apply (Prog.Unfolds.grows (unfolds_issue addressed ⟨mode, control, enable, ?_⟩)).bind
  · rintro outcome issued ⟨hgrown, -⟩
    have hsizes : host.SetsSizes length issued :=
      ⟨hgrown.subset (by simp), hgrown.subset (by simp)⟩
    cases outcome with
    | error error => exact fun arrived h => by cases h
    | ok value =>
        apply (asks_conclude_quietly _).unfolds.mono
        intro later _ hlater _ _
        rw [hlater]
        exact hsizes
  · simp only [installation, settings, List.nil_append, List.append_assoc, List.cons_append]

end Walk

/-- In a transfer nothing reaches a register or memory before the command but its installation. -/
theorem moveThrough_installs {machine : Machine ι} {handler : ι → Prog σ ρ} {depth : Nat}
    (idles : Idles machine handler depth) {ring : Ring} {latch : Latch} {length : Nat}
    {buffer : DataBuffer} {pages : Pages}
    (cleared : host.Cleared ring latch length buffer pages) {system : System machine σ ρ}
    (held : system.cell = none) {front back : List (Moment machine σ ρ)}
    {moment : Moment machine σ ρ}
    (htrace : (host.moveThrough ring latch length buffer pages).run.trace handler depth system =
      front ++ moment :: back)
    (hcommand : moment.request.CommandsData) :
    moment.request = .write host.window Register.command.offset latch.word.withStart.bits
      ∧ host.Addressed ring length pages ∧ ∃ mode control enable, effects front =
        host.installation ring latch.argument length buffer pages mode control enable := by
  have hinner : (host.moveThrough ring latch length buffer pages : Action σ _).run.Asks
      Request.Inner :=
    Prog.Asks.mono (asks_moveThrough host ring latch length buffer pages)
      fun _ => Request.Unpaged.inner
  have hallowed := (unfolds_moveThrough cleared).effects_of_trace idles hinner held htrace
    hcommand.isEffect
  rw [List.nil_append] at hallowed
  exact hallowed hcommand

/-- A transfer starts one data command. -/
theorem moveThrough_commands_once {machine : Machine ι} {handler : ι → Prog σ ρ} {depth : Nat}
    (idles : Idles machine handler depth) {ring : Ring} {latch : Latch} {length : Nat}
    {buffer : DataBuffer} {pages : Pages}
    (cleared : host.Cleared ring latch length buffer pages) {system : System machine σ ρ}
    (held : system.cell = none) {front back : List (Moment machine σ ρ)}
    {moment : Moment machine σ ρ}
    (htrace : (host.moveThrough ring latch length buffer pages).run.trace handler depth system =
      front ++ moment :: back)
    (hcommand : moment.request.CommandsData) :
    ∀ other ∈ back, ¬ other.request.CommandsData := by
  intro other hmem hother
  obtain ⟨earlier, later, rfl⟩ := List.append_of_mem hmem
  have hagain : (host.moveThrough ring latch length buffer pages).run.trace handler depth system =
      (front ++ moment :: earlier) ++ other :: later := by
    rw [htrace]
    simp only [List.append_assoc, List.cons_append]
  -- A second command would have the first one among the effects before it.
  obtain ⟨-, -, mode, control, enable, hfirst⟩ :=
    host.moveThrough_installs idles cleared held htrace hcommand
  obtain ⟨-, -, mode', control', enable', hsecond⟩ :=
    host.moveThrough_installs idles cleared held hagain hother
  rw [effects_append, hfirst, effects_cons, if_pos hcommand.isEffect] at hsecond
  have hlengths := congrArg List.length hsecond
  simp only [installation, settings, List.length_append, List.length_cons] at hlengths
  omega

/-- The run of a data phase up to a command that moves data, which is the command of its transfer:
first the pages are granted, and from then on the only effects are the installation of the
transfer. -/
structure Commands {machine : Machine ι} (cell : Option HostState) (length : Nat)
    (buffer : DataBuffer) (front : List (Moment machine σ ρ)) (moment : Moment machine σ ρ)
    (ring : Ring) (latch : Latch) (pages : Pages) (mode control enable : UInt32) : Prop where
  latched : cell = some ⟨ring, some latch⟩
  cleared : host.Cleared ring latch length buffer pages
  addressed : host.Addressed ring length pages
  request : moment.request = .write host.window Register.command.offset latch.word.withStart.bits
  course : ∃ lead between start, front = lead ++ between
    ∧ lead.filterMap Moment.granted? = [pages]
    ∧ (∀ other ∈ lead, other.request.OffBoard)
    ∧ (∀ other ∈ between, other.request.Unpaged ∨ other.request.Idle)
    ∧ effects between =
      host.installation ring latch.argument length buffer pages mode control enable
    ∧ Linked start between moment.system.shared

section Commands

variable {host} {machine : Machine ι} {cell : Option HostState} {length : Nat}
  {buffer : DataBuffer} {front : List (Moment machine σ ρ)} {moment : Moment machine σ ρ}
  {ring : Ring} {latch : Latch} {pages : Pages} {mode control enable : UInt32}

/-- Up to the command the effects of the phase are the installation. -/
theorem Commands.effects_eq
    (h : host.Commands cell length buffer front moment ring latch pages mode control enable) :
    effects front =
      host.installation ring latch.argument length buffer pages mode control enable := by
  obtain ⟨lead, between, start, rfl, -, hlead, -, hbetween, -⟩ := h.course
  rw [effects_append, effects_eq_nil fun other hmem => (hlead other hmem).not_effect,
    List.nil_append, hbetween]

/-- Up to the command the phase is granted its staging pages, and no others. -/
theorem Commands.granted_eq
    (h : host.Commands cell length buffer front moment ring latch pages mode control enable) :
    front.filterMap Moment.granted? = [pages] := by
  obtain ⟨lead, between, start, rfl, hlead, -, hbetween, -⟩ := h.course
  rw [List.filterMap_append, hlead, filterMap_granted_of_not_allocates]
  · rfl
  · intro other hmem
    rcases hbetween other hmem with h | h
    · exact h.not_allocates
    · exact h.not_allocates

end Commands

variable {host} in
/-- A command that moves data in a data phase is the command of its transfer. -/
theorem Phased.commands {machine : Machine ι} {handler : ι → Prog σ ρ} {depth : Nat}
    (idles : Idles machine handler depth) {cell : Option HostState} {length : Nat}
    {buffer : DataBuffer} {trace : List (Moment machine σ ρ)}
    {ends : Except HostError (List UInt8) → Prop}
    (h : host.Phased handler depth cell length buffer trace ends)
    {front back : List (Moment machine σ ρ)} {moment : Moment machine σ ρ}
    (htrace : trace = front ++ moment :: back) (hcommand : moment.request.CommandsData) :
    (∃ ring latch pages mode control enable,
        host.Commands cell length buffer front moment ring latch pages mode control enable)
      ∧ ∀ other ∈ back, ¬ other.request.CommandsData := by
  have offBoard {moments : List (Moment machine σ ρ)}
      (hoff : ∀ other ∈ moments, other.request.OffBoard) :
      ∀ other ∈ moments, ¬ other.request.CommandsData := by
    intro other hmem hother
    have hquiet := (hoff other hmem).not_effect
    rw [hother.isEffect] at hquiet
    cases hquiet
  cases h with
  | failed quiet fails =>
      have hmem : moment ∈ trace := by
        rw [htrace]
        simp
      exact (offBoard quiet moment hmem hcommand).elim
  | @moved ring latch pages borrowed lead tail latched cleared held granted before after split
      moves =>
      rw [split] at htrace
      obtain ⟨between, rfl, hrest⟩ := split_behind
        (fun other : Moment machine σ ρ => other.request.CommandsData) htrace
        (offBoard before) hcommand
      have htail := offBoard fun other hmem => (after other hmem).offBoard
      obtain ⟨rest, hmoved, rfl⟩ := split_before
        (fun other : Moment machine σ ρ => other.request.CommandsData) hrest htail hcommand
      obtain ⟨hrequest, haddressed, mode, control, enable, heffects⟩ :=
        host.moveThrough_installs idles cleared held hmoved hcommand
      have hunpaged : ∀ other ∈ between, other.request.Unpaged ∨ other.request.Idle := by
        intro other hmem
        apply moveThrough_unpaged idles held
        rw [hmoved]
        simp [hmem]
      constructor
      · exact ⟨ring, latch, pages, mode, control, enable, latched, cleared, haddressed, hrequest,
          lead, between, borrowed.shared, rfl, granted, before, hunpaged, heffects,
          Prog.linked_of_trace hmoved⟩
      · intro other hmem hother
        rcases List.mem_append.mp hmem with hmem | hmem
        · exact host.moveThrough_commands_once idles cleared held hmoved hcommand other hmem hother
        · exact htail other hmem hother

end Host

end CardHost
