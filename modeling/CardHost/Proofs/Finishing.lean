import CardHost.Lock.Bracket
import CardHost.Platform.Journal
import CardHost.Proofs.Operations
import CardHost.Proofs.Trace

/-!
# Programs that finish within a budget

`Prog.Finishes` reads off the tree of a program that it ends with a value, whatever it is answered
out of the replies called possible, and that on every path the time it asks to stall adds up to no
more than a budget.  The rules charge each part of a sequence and leave the rest to what follows.

The waits of the driver are where budgets are spent and where operations fail.  `Host.Waits` states
what a data phase needs of them, with the time that each may take and with whether failing is
allowed at all, so that one pass over the driver serves to bound the time of any run and to show
that a run on a good controller succeeds.

`Prog.Finishes.run` turns the tree into a run: it ends, and its journal has stalled no more than the
budget.
-/

namespace CardHost

/-- The replies that are possible to each request. -/
abbrev Replies (σ : Type) := ∀ request : Request σ, request.Reply → Prop

/-- The microseconds that a request asks to stall. -/
def Request.stalls : Request σ → Nat
  | .stall _ microseconds => microseconds
  | _ => 0

/-- Whatever replies are possible, the program ends with a value that satisfies `post`, and asks to
stall no longer than a budget. -/
def Prog.Finishes (possible : Replies σ) (post : α → Prop) : Prog σ α → Nat → Prop
  | .done value, _ => post value
  | .fault, _ => False
  | .stuck, _ => False
  | .ask request next, budget => request.stalls ≤ budget ∧ ∀ reply, possible request reply →
      (next reply).Finishes possible post (budget - request.stalls)

/-- A success whose value satisfies `post`, or a failure where failing is allowed. -/
def Outcome (fails : Prop) (post : α → Prop) : Except HostError α → Prop
  | .ok value => post value
  | .error _ => fails

/-- The same for an action, whose value satisfies `post` if it succeeds, and which may fail only if
`fails` holds. -/
def Action.Finishes (possible : Replies σ) (fails : Prop) (post : α → Prop) (action : Action σ α)
    (budget : Nat) : Prop :=
  action.run.Finishes possible (Outcome fails post) budget

variable {possible : Replies σ} {fails : Prop}

namespace Prog

theorem Finishes.mono {post goal : α → Prop} {program : Prog σ α} {spent budget : Nat}
    (h : program.Finishes possible post spent) (hle : spent ≤ budget)
    (reaches : ∀ value, post value → goal value) : program.Finishes possible goal budget := by
  induction program generalizing spent budget with
  | done value => exact reaches value h
  | fault => exact h
  | stuck => exact h
  | ask request next ih =>
      obtain ⟨hstalls, hnext⟩ := h
      refine ⟨Nat.le_trans hstalls hle, ?_⟩
      intro reply hreply
      exact ih reply (hnext reply hreply) (Nat.sub_le_sub_right hle _)

/-- What the first part of a sequence does not spend is left to the rest. -/
theorem Finishes.bind {mid : α → Prop} {goal : β → Prop} {next : α → Prog σ β}
    {program : Prog σ α} {spent budget : Nat} (first : program.Finishes possible mid spent)
    (hle : spent ≤ budget)
    (rest : ∀ value, mid value → (next value).Finishes possible goal (budget - spent)) :
    (program.bind next).Finishes possible goal budget := by
  induction program generalizing spent budget with
  | done value => exact (rest value first).mono (Nat.sub_le _ _) fun _ => id
  | fault => exact first
  | stuck => exact first
  | ask request reply ih =>
      obtain ⟨hstalls, hnext⟩ := first
      refine ⟨Nat.le_trans hstalls hle, ?_⟩
      intro answer hanswer
      refine ih answer (hnext answer hanswer) (by omega) ?_
      intro value hmid
      exact (rest value hmid).mono (by omega) fun _ => id

/-- A part that does not stall leaves the whole budget. -/
theorem Finishes.step {mid : α → Prop} {goal : β → Prop} {next : α → Prog σ β}
    {program : Prog σ α} {budget : Nat} (first : program.Finishes possible mid 0)
    (rest : ∀ value, mid value → (next value).Finishes possible goal budget) :
    (program.bind next).Finishes possible goal budget :=
  first.bind (Nat.zero_le budget) rest

/-- A request ends with a possible reply. -/
theorem finishes_request (request : Request σ) :
    (Prog.request request).Finishes possible (possible request) request.stalls :=
  ⟨Nat.le_refl _, fun _ => id⟩

/-- Arithmetic that has a value goes on with it. -/
theorem finishes_require (value : α) :
    (require (some value) : Prog σ α).Finishes possible (fun found => found = value) 0 :=
  rfl

theorem finishes_log (message : Message) :
    (Prog.log message).Finishes possible (fun _ => True) 0 :=
  ⟨Nat.le_refl _, fun _ _ => trivial⟩

theorem finishes_logAll (messages : List Message) :
    (logAll messages).Finishes possible (fun _ => True) 0 := by
  induction messages with
  | nil => trivial
  | cons message rest ih => exact (finishes_log message).step fun _ _ => ih

end Prog

namespace Action

theorem finishes_throw {post : α → Prop} (h : fails) (error : HostError) (budget : Nat) :
    (throw error : Action σ α).Finishes possible fails post budget :=
  h

theorem finishes_lift {post : α → Prop} {program : Prog σ α} {budget : Nat}
    (h : program.Finishes possible post budget) :
    program.lift.Finishes possible fails post budget :=
  h.bind (Nat.le_refl _) fun _ hpost => hpost

theorem Finishes.mono {post goal : α → Prop} {action : Action σ α} {spent budget : Nat}
    (h : action.Finishes possible fails post spent) (hle : spent ≤ budget)
    (reaches : ∀ value, post value → goal value) :
    action.Finishes possible fails goal budget := by
  refine Prog.Finishes.mono h hle fun outcome hpost => ?_
  cases outcome with
  | ok value => exact reaches value hpost
  | error error => exact hpost

theorem Finishes.bind {mid : α → Prop} {goal : β → Prop} {action : Action σ α}
    {next : α → Action σ β} {spent budget : Nat}
    (first : action.Finishes possible fails mid spent) (hle : spent ≤ budget)
    (rest : ∀ value, mid value → (next value).Finishes possible fails goal (budget - spent)) :
    (action >>= next).Finishes possible fails goal budget := by
  unfold Finishes
  rw [run_bind]
  refine Prog.Finishes.bind first hle fun outcome hmid => ?_
  cases outcome with
  | ok value => exact rest value hmid
  | error error => exact hmid

theorem Finishes.step {mid : α → Prop} {goal : β → Prop} {action : Action σ α}
    {next : α → Action σ β} {budget : Nat} (first : action.Finishes possible fails mid 0)
    (rest : ∀ value, mid value → (next value).Finishes possible fails goal budget) :
    (action >>= next).Finishes possible fails goal budget :=
  first.bind (Nat.zero_le budget) rest

theorem Finishes.onError {post : α → Prop} {action : Action σ α} {budget : Nat}
    (h : action.Finishes possible fails post budget) (message : HostError → Message) :
    (action.onError message).Finishes possible fails post budget := by
  unfold Finishes
  rw [run_onError]
  refine Prog.Finishes.bind h (Nat.le_refl _) fun outcome hpost => ?_
  cases outcome with
  | ok value => exact hpost
  | error error => exact (Prog.finishes_log _).step fun _ _ => hpost

end Action

/-! ## Registers -/

/-- Every register of the window has an address. -/
def Window.Fits (window : Window) : Prop :=
  ∀ register : Register, window.base.toNat + register.offset < wordSpan

namespace Window

variable {window : Window}

theorem finishes_read (fits : window.Fits) (register : Register) :
    (window.read register.offset : Prog σ UInt32).Finishes possible
      (possible (.read window register.offset)) 0 := by
  unfold read
  rw [if_pos (fits register)]
  exact Prog.finishes_request _

theorem finishes_write (fits : window.Fits) (register : Register) (value : UInt32) :
    (window.write register.offset value : Prog σ Unit).Finishes possible (fun _ => True) 0 := by
  unfold write
  refine (Prog.finishes_log _).step fun _ _ => ?_
  rw [if_pos (fits register)]
  exact (Prog.finishes_request _).mono (Nat.le_refl _) fun _ _ => trivial

theorem finishes_setBits (fits : window.Fits) (register : Register) (bits : UInt32) :
    (window.setBits register.offset bits : Prog σ Unit).Finishes possible (fun _ => True) 0 :=
  (finishes_read fits register).step fun _ _ => finishes_write fits register _

theorem finishes_clearBits (fits : window.Fits) (register : Register) (bits : UInt32) :
    (window.clearBits register.offset bits : Prog σ Unit).Finishes possible (fun _ => True) 0 :=
  (finishes_read fits register).step fun _ _ => finishes_write fits register _

end Window

theorem Services.finishes_stall (services : Services) (microseconds : Nat) :
    (services.stall microseconds : Prog σ Unit).Finishes possible (fun _ => True) microseconds := by
  refine (Prog.finishes_request _).bind (Nat.le_refl _) fun status _ => ?_
  cases services with
  | supplied => exact trivial
  | firmware =>
      dsimp only
      split
      · exact (Prog.finishes_log _).mono (Nat.zero_le _) fun _ => id
      · exact trivial

/-! ## The ring -/

namespace Ring

variable (ring : Ring)

theorem finishes_putChain (index : Nat) (descriptors : List Descriptor) :
    (ring.putChain index descriptors : Prog σ Unit).Finishes possible (fun _ => True) 0 := by
  induction descriptors generalizing index with
  | nil => exact trivial
  | cons descriptor rest ih =>
      refine (Prog.finishes_log _).step fun _ _ => ?_
      exact (Prog.finishes_request _).step fun _ _ => ih (index + 1)

/-- A transfer that the ring has room for, through a buffer with an address, is described. -/
theorem finishes_prepare {length segment block : Nat} {buffer : UInt64} {geometry : Geometry}
    (positive : 0 < length) (splits : Geometry.ofLength? length segment block = some geometry)
    (room : geometry.segments ≤ ring.count)
    (hbuffer : buffer.toNat + (geometry.segments - 1) * segment < wordSpan)
    (hplace : ring.place ring.count < wordSpan) :
    (ring.prepare length buffer segment block : Action σ Geometry).Finishes possible fails
      (fun _ => True) 0 := by
  have hbehind : ring.place geometry.segments < wordSpan := by
    refine Nat.lt_of_le_of_lt ?_ hplace
    exact Nat.add_le_add_left (Nat.mul_le_mul_right _ room) _
  unfold prepare
  rw [if_neg (Nat.pos_iff_ne_zero.mp positive), splits]
  refine (Action.finishes_lift (Prog.finishes_require geometry)).step fun found hfound => ?_
  subst hfound
  rw [if_neg (Nat.not_lt.mpr room), chain?, if_pos ⟨hbuffer, hbehind⟩]
  refine (Action.finishes_lift (Prog.finishes_require _)).step fun descriptors _ => ?_
  refine (Action.finishes_lift (ring.finishes_putChain 0 descriptors)).step fun _ _ => ?_
  exact trivial

end Ring

/-! ## Commands and data phases -/

/-- The pages end inside the address space. -/
def Pages.Fits (pages : Pages) : Prop :=
  pages.address.toNat + pages.count * pageSize < wordSpan

/-- What commands need: a window that fits, and waits that end within their times.  A wait may fail
only if `fails` holds. -/
structure Host.Waits (host : Host) (possible : Replies σ) (fails : Prop)
    (handshake command : Nat) : Prop where
  fits : host.window.Fits
  dataIdle : (host.awaitClear .status ControllerStatus.dataBusy : Action σ Unit).Finishes possible
    fails (fun _ => True) handshake
  cardIdle : (host.awaitClear .status ControllerStatus.cardBusy : Action σ Unit).Finishes possible
    fails (fun _ => True) handshake
  accepted : (host.awaitClear .command CommandFlags.start : Action σ Unit).Finishes possible
    fails (fun _ => True) handshake
  completes : ∀ word, (host.awaitCommand word : Action σ Unit).Finishes possible fails
    (fun _ => True) command

/-- What data phases need besides: a wait for the data, and grants whose pages end inside the
address space. -/
structure Host.PhaseWaits (host : Host) (possible : Replies σ) (fails : Prop)
    (handshake command data : Nat) : Prop extends host.Waits possible fails handshake command where
  transfers : (host.awaitData : Action σ Unit).Finishes possible fails (fun _ => True) data
  grants : ∀ services count grant, possible (.allocate services count) grant →
    if grant.status = .success then (Pages.mk services grant.address count).Fits else fails

namespace Host

variable {host : Host} {handshake command data : Nat}

theorem finishes_report (message : Message) :
    (report message : Action σ Unit).Finishes possible fails (fun _ => True) 0 :=
  Action.finishes_lift (Prog.finishes_log message)

theorem finishes_write (fits : host.window.Fits) (register : Register) (value : UInt32) :
    (host.write register value : Action σ Unit).Finishes possible fails (fun _ => True) 0 :=
  Action.finishes_lift (Window.finishes_write fits register value)

namespace Waits

variable (waits : host.Waits possible fails handshake command)
include waits

theorem finishes_post (word : CommandWord) (argument : UInt32) :
    (host.post word argument : Action σ Unit).Finishes possible fails (fun _ => True)
      (2 * handshake) := by
  refine (finishes_write waits.fits .argument argument).step fun _ _ => ?_
  refine waits.cardIdle.bind (by omega) fun _ _ => ?_
  refine (finishes_write waits.fits .command word.withStart.bits).step fun _ _ => ?_
  exact waits.accepted.mono (by omega) fun _ => id

/-- A command waits for the card, hands over and is polled. -/
theorem finishes_issue (word : CommandWord) (argument : UInt32) :
    (host.issue word argument : Action σ Unit).Finishes possible fails (fun _ => True)
      (3 * handshake + command) := by
  refine (finishes_report _).step fun _ _ => ?_
  refine waits.dataIdle.bind (by omega) fun _ _ => ?_
  refine (finishes_write waits.fits .rawInterrupt clearAll).step fun _ _ => ?_
  refine (waits.finishes_post word argument).bind (by omega) fun _ _ => ?_
  refine (finishes_write waits.fits .interruptMask RawInterrupt.errorMask).step fun _ _ => ?_
  exact (waits.completes word).mono (by omega) fun _ => id

theorem finishes_program (ring : Ring) :
    (ring.program host.window : Prog σ Unit).Finishes possible (fun _ => True) 0 := by
  refine (Window.finishes_write waits.fits .listLow _).step fun _ _ => ?_
  refine (Window.finishes_write waits.fits .listHigh _).step fun _ _ => ?_
  exact Window.finishes_setBits waits.fits .busMode _

theorem finishes_start (length block : Nat) :
    (Ring.start host.window length block : Prog σ Unit).Finishes possible (fun _ => True) 0 := by
  refine (Window.finishes_setBits waits.fits .control _).step fun _ _ => ?_
  refine (Window.finishes_setBits waits.fits .busMode _).step fun _ _ => ?_
  refine (Window.finishes_write waits.fits .blockSize _).step fun _ _ => ?_
  exact Window.finishes_write waits.fits .byteCount _

end Waits

/-- The segments before the last end within the whole blocks. -/
theorem before_last_lt_bytes (host : Host) {length : Nat} (positive : 0 < length) :
    ((host.split length).segments - 1) * host.config.segmentSize.toNat <
      (host.split length).bytes := by
  obtain ⟨⟨hsegment, hblock, -⟩, -⟩ := (HostConfig.usable_iff _).mp host.usable
  calc ((host.split length).segments - 1) * host.config.segmentSize.toNat
      < length := Geometry.before_last_lt positive hsegment
    _ ≤ (host.split length).bytes := Geometry.length_le_bytes hblock

/-- In staging pages inside the address space every segment has an address. -/
theorem last_segment_fits (host : Host) {length : Nat} (positive : 0 < length) {pages : Pages}
    (count : pages.count = (host.split length).stagingPages) (fits : pages.Fits) :
    pages.address.toNat +
      ((host.split length).segments - 1) * host.config.segmentSize.toNat < wordSpan := by
  have hbefore := host.before_last_lt_bytes positive
  have hstaged : (host.split length).bytes ≤ pages.count * pageSize := by
    rw [count]
    exact le_pagesFor _
  unfold Pages.Fits at fits
  omega

/-- Data that the ring has room for moves through pages that end inside the address space. -/
theorem PhaseWaits.finishes_moveThrough
    (waits : host.PhaseWaits possible fails handshake command data) {ring : Ring} (latch : Latch)
    {length : Nat} (buffer : DataBuffer)
    (positive : 0 < length) (splits : Geometry.ofLength? length host.config.segmentSize.toNat
      host.config.blockSize.toNat = some (host.split length))
    (room : (host.split length).segments ≤ ring.count) (hplace : ring.place ring.count < wordSpan)
    {pages : Pages} (count : pages.count = (host.split length).stagingPages) (fits : pages.Fits) :
    (host.moveThrough ring latch length buffer pages : Action σ (List UInt8)).Finishes possible
      fails (fun _ => True) (3 * handshake + command + data) := by
  have hbuffer := host.last_segment_fits positive count fits
  have hstage : (stage pages length buffer : Prog σ Unit).Finishes possible (fun _ => True) 0 := by
    cases buffer with
    | incoming size => exact trivial
    | outgoing bytes => exact (Prog.finishes_request _).mono (Nat.le_refl 0) fun _ _ => trivial
  have hcollect : (collect pages length buffer : Prog σ (List UInt8)).Finishes possible
      (fun _ => True) 0 := by
    cases buffer with
    | incoming size => exact (Prog.finishes_request _).mono (Nat.le_refl 0) fun _ _ => trivial
    | outgoing bytes => exact trivial
  refine (Action.finishes_lift hstage).step fun _ _ => ?_
  refine (ring.finishes_prepare positive splits room hbuffer hplace).step fun geometry _ => ?_
  refine (Action.finishes_lift (waits.toWaits.finishes_program ring)).step fun _ _ => ?_
  refine (Action.finishes_lift (waits.toWaits.finishes_start _ _)).step fun _ _ => ?_
  refine (waits.finishes_issue latch.word latch.argument).bind (by omega) fun _ _ => ?_
  refine waits.transfers.bind (by omega) fun _ _ => ?_
  refine Action.Finishes.mono ?_ (Nat.zero_le _) fun _ => id
  refine (Action.finishes_lift hcollect).step fun arrived _ => ?_
  exact (finishes_report _).step fun _ _ => trivial

end Host

/-- An allocation ends with pages that meet what holds of every grant, or fails. -/
theorem Pages.finishes_allocate {holds : Pages → Prop}
    (grants : ∀ services count grant, possible (.allocate services count) grant →
      if grant.status = .success then holds ⟨services, grant.address, count⟩ else fails)
    (services : Services) (count : Nat) :
    (Pages.allocate services count : Action σ Pages).Finishes possible fails
      (fun pages => pages.count = count ∧ holds pages) 0 := by
  unfold allocate Action.Finishes
  rw [Action.run_ofProg]
  refine (Prog.finishes_request _).step fun grant hgrant => ?_
  have hholds := grants services count grant hgrant
  cases hstatus : HostError.ofStatus grant.status with
  | ok value =>
      rw [if_pos ((HostError.ofStatus_eq_ok_iff _).mp hstatus)] at hholds
      exact ⟨rfl, hholds⟩
  | error error =>
      have hrefused : grant.status ≠ .success := by
        intro hsuccess
        rw [(HostError.ofStatus_eq_ok_iff _).mpr hsuccess] at hstatus
        cases hstatus
      rw [if_neg hrefused] at hholds
      exact hholds

theorem Pages.finishes_release (pages : Pages) :
    (pages.release : Prog σ Unit).Finishes possible (fun _ => True) 0 := by
  unfold release Services.free
  rw [Action.run_ofProg, Prog.bind_eq, Prog.bind_eq, Prog.bind_assoc]
  refine (Prog.finishes_request _).step fun status _ => ?_
  dsimp only [Prog.pure_eq, Prog.bind]
  cases HostError.ofStatus status with
  | ok value => exact trivial
  | error error => exact Prog.finishes_log _

/-- Work with borrowed pages ends as the work does. -/
theorem Pages.finishes_borrow
    (grants : ∀ services count grant, possible (.allocate services count) grant →
      if grant.status = .success then (Pages.mk services grant.address count).Fits else fails)
    {services : Services} {count : Nat} {refused : HostError → Message}
    {work : Pages → Action σ α} {post : α → Prop} {budget : Nat}
    (hwork : ∀ pages : Pages, pages.count = count → pages.Fits →
      (work pages).Finishes possible fails post budget) :
    (Pages.borrow services count refused work).Finishes possible fails post budget := by
  refine ((finishes_allocate grants services count).onError refused).step fun pages hpages => ?_
  obtain ⟨hcount, hfits⟩ := hpages
  refine Prog.Finishes.bind (hwork pages hcount hfits) (Nat.le_refl _) fun outcome hpost => ?_
  exact (finishes_release pages).step fun _ _ => hpost

/-- The bytes that a slice of memory stays below. -/
def sliceLimit : Nat := 0x8000000000000000

namespace Host

variable {host : Host} {handshake command data : Nat}

/-- The length of a slice has a split. -/
theorem splits_of_lt (host : Host) {length : Nat} (h : length < sliceLimit) :
    Geometry.ofLength? length host.config.segmentSize.toNat host.config.blockSize.toNat =
      some (host.split length) := by
  obtain ⟨⟨hsegment, hblock, -⟩, ⟨hwhole, hmax⟩, -⟩ := (HostConfig.usable_iff _).mp host.usable
  have hle : host.config.blockSize.toNat ≤ host.config.segmentSize.toNat :=
    Nat.le_of_dvd hsegment (Nat.dvd_of_mod_eq_zero hwhole)
  have hround : ceilDiv length host.config.blockSize.toNat * host.config.blockSize.toNat <
      length + host.config.blockSize.toNat := by
    refine Nat.lt_of_not_le fun hge => ?_
    have hless : ceilDiv length host.config.blockSize.toNat ≤
        ceilDiv length host.config.blockSize.toNat - 1 := by
      rw [ceilDiv_le_iff hblock, Nat.sub_mul, Nat.one_mul]
      omega
    have hzero : ceilDiv length host.config.blockSize.toNat = 0 := by omega
    rw [hzero, Nat.zero_mul] at hge
    omega
  unfold Geometry.ofLength?
  rw [if_neg]
  · rfl
  · unfold maxSegment at hmax
    unfold sliceLimit at h
    unfold wordSpan
    omega

/-- A data phase that passes its checks moves its data; it may fail them only if `fails` holds. -/
theorem PhaseWaits.finishes_runLatched
    (waits : host.PhaseWaits possible fails handshake command data)
    {ring : Ring} (hplace : ring.place ring.count < wordSpan) {latch : Latch} {length : Nat}
    {buffer : DataBuffer} (hsize : buffer.size < sliceLimit)
    (checked : fails ∨ latch.word.isWrite = buffer.isWrite ∧ 0 < length ∧ length ≤ buffer.size
      ∧ (host.split length).segments ≤ ring.count) :
    (host.runLatched ring latch length buffer : Action σ (List UInt8)).Finishes possible fails
      (fun _ => True) (3 * handshake + command + data) := by
  have refuses (message : Message) (error : HostError) (h : fails) :
      (do report message; throw error : Action σ (List UInt8)).Finishes possible fails
        (fun _ => True) (3 * handshake + command + data) :=
    (finishes_report message).step fun _ _ => Action.finishes_throw h error _
  unfold runLatched
  by_cases hdirection : latch.word.isWrite ≠ buffer.isWrite
  · rw [if_pos hdirection]
    exact refuses _ _ (checked.resolve_right fun h => hdirection h.1)
  · rw [if_neg hdirection]
    by_cases hlength : length = 0 ∨ buffer.size < length
    · rw [if_pos hlength]
      refine refuses _ _ (checked.resolve_right fun h => ?_)
      omega
    · rw [if_neg hlength]
      have hsplits := host.splits_of_lt (show length < sliceLimit by omega)
      rw [hsplits]
      refine (Action.finishes_lift (Prog.finishes_require _)).step fun geometry hgeometry => ?_
      subst hgeometry
      by_cases hroom : ring.count < (host.split length).segments
      · rw [if_pos hroom]
        refine refuses _ _ (checked.resolve_right fun h => ?_)
        omega
      · rw [if_neg hroom]
        exact Pages.finishes_borrow waits.grants fun pages hcount hfits =>
          waits.finishes_moveThrough latch buffer (by omega) hsplits (Nat.not_lt.mp hroom) hplace
            hcount hfits

/-- A data command is only latched. -/
theorem finishes_latching {possible : Replies HostState} {index : UInt32}
    (data : (CommandWord.ofCommand index argument).isData = true) (state : HostState) :
    (host.commandBody index argument state).Finishes possible
      (fun result => Outcome fails (fun _ => True) result.1) 0 := by
  obtain ⟨remarks, hbody⟩ := host.commandBody_latching data state
  rw [hbody]
  exact (Prog.finishes_logAll remarks).step fun _ _ => trivial

/-- What runs under the lock for a command. -/
theorem Waits.finishes_commandBody {possible : Replies HostState}
    (waits : host.Waits possible fails handshake command) (index argument : UInt32)
    (state : HostState) :
    (host.commandBody index argument state).Finishes possible
      (fun result => Outcome fails (fun _ => True) result.1) (3 * handshake + command) := by
  cases hdata : (CommandWord.ofCommand index argument).isData with
  | true => exact (finishes_latching hdata state).mono (Nat.zero_le _) fun _ => id
  | false =>
      obtain ⟨remarks, hbody⟩ := host.commandBody_issuing hdata state
      rw [hbody]
      apply (Prog.finishes_logAll remarks).step
      intro _ _
      exact Prog.Finishes.bind (waits.finishes_issue _ _) (Nat.le_refl _) fun _ => id

/-- What runs under the lock for a data phase; it may fail its checks only if `fails` holds. -/
theorem PhaseWaits.finishes_runPhase (waits : host.PhaseWaits possible fails handshake command data)
    {state : HostState} (hplace : state.ring.place state.ring.count < wordSpan) {length : Nat}
    {buffer : DataBuffer} (hsize : buffer.size < sliceLimit)
    (checked : fails ∨ ∃ latch, state.latch = some latch ∧ latch.word.isWrite = buffer.isWrite
      ∧ 0 < length ∧ length ≤ buffer.size ∧ (host.split length).segments ≤ state.ring.count) :
    (host.runPhase length buffer state : Prog σ _).Finishes possible
      (fun result => Outcome fails (fun _ => True) result.1) (3 * handshake + command + data) := by
  obtain ⟨ring, latch⟩ := state
  unfold runPhase
  cases latch with
  | none =>
      have hfails : fails := checked.resolve_right fun ⟨_, hlatch, _⟩ => by cases hlatch
      exact (Prog.finishes_log _).step fun _ _ => hfails
  | some latch =>
      have hchecked := checked.imp_right fun ⟨_, hlatch, hrest⟩ => by
        cases hlatch
        exact hrest
      exact Prog.Finishes.bind (waits.finishes_runLatched hplace hsize hchecked) (Nat.le_refl _)
        fun _ => id

end Host

/-! ## Under the lock -/

/-- An operation under the lock finishes if its body does on every state that the lock may hold. -/
theorem Lock.finishes_holding {lock : Lock} {body : σ → Prog σ (Except HostError α × σ)}
    {post : Except HostError α → Prop} {budget : Nat}
    (refused : possible .take none → post (.error (.firmware .accessDenied)))
    (hbody : ∀ state, possible .take (some state) →
      (body state).Finishes possible (fun result => post result.1) budget) :
    (lock.holding body).Finishes possible post budget := by
  unfold holding acquire?
  rw [Prog.bind_eq, Prog.bind_eq, Prog.bind_assoc]
  refine (Prog.finishes_request _).step fun previous _ => ?_
  rw [Prog.bind_eq, Prog.bind_assoc]
  refine (Prog.finishes_request _).step fun taken htaken => ?_
  cases taken with
  | none =>
      rw [Prog.bind_eq, Prog.bind_assoc]
      refine (Prog.finishes_log _).step fun _ _ => ?_
      rw [Prog.bind_eq, Prog.bind_assoc]
      exact (Prog.finishes_request _).step fun _ _ => refused htaken
  | some state =>
      refine (hbody state htaken).bind (Nat.le_refl _) fun result hpost => ?_
      unfold Guard.release
      rw [Prog.bind_eq, Prog.bind_eq, Prog.bind_assoc]
      refine (Prog.finishes_request _).step fun _ _ => ?_
      exact (Prog.finishes_request _).step fun _ _ => hpost

/-! ## Runs -/

section Runs

variable {machine : Machine ι}

/-- The microseconds that were stalled so far. -/
def System.stalled (system : System machine σ ρ) : Nat :=
  (Journal.stalls system.journal).2

/-- The microseconds that an event stalled. -/
def Event.stalls : Event ρ → Nat
  | .stalled _ microseconds _ => microseconds
  | _ => 0

theorem Journal.stalls_eq (journal : List (Event ρ)) :
    (stalls journal).2 = (journal.map Event.stalls).foldl (· + ·) 0 := by
  rw [List.foldl_map]
  exact (List.foldl_hom Prod.snd fun total event => by cases event <;> rfl).symm

theorem Journal.stalls_cons (event : Event ρ) (journal : List (Event ρ)) :
    (stalls (event :: journal)).2 = event.stalls + (stalls journal).2 := by
  rw [stalls_eq, stalls_eq, List.map_cons, List.foldl_cons, Nat.add_comm 0, List.foldl_assoc]

theorem answer_stalled (request : Request σ) (system : System machine σ ρ) :
    (system.answer request).2.2.stalled = request.stalls + system.stalled := by
  unfold System.stalled
  obtain ⟨shared, level, cell, verbosity, journal⟩ := system
  cases request with
  | store => exact (Nat.zero_add _).symm
  | patience => exact (Nat.zero_add _).symm
  | load => exact (Nat.zero_add _).symm
  | shows => exact (Nat.zero_add _).symm
  | _ => exact Journal.stalls_cons _ journal

/-- A run of a program that finishes within a budget ends and stalls no longer, where every reply it
gets is a possible one and every interruption returns without stalling. -/
theorem Prog.Finishes.run {handler : ι → Prog σ ρ} {depth : Nat} {post : α → Prop}
    {program : Prog σ α} {budget : Nat} (h : program.Finishes possible post budget)
    {system : System machine σ ρ}
    (answered : ∀ moment ∈ program.moments handler depth system,
      possible moment.request (moment.system.answer moment.request).1)
    (served : ∀ moment ∈ program.moments handler depth system, ∀ i after,
      (moment.system.answer moment.request).2 = (some i, after) →
        ∃ last, serveAt handler depth i after = .ok last ∧ last.stalled ≤ after.stalled) :
    ∃ value after, program.run handler depth system = .ok (value, after) ∧ post value
      ∧ after.stalled ≤ system.stalled + budget := by
  unfold moments at answered served
  unfold Prog.run
  induction program generalizing system budget with
  | done value => exact ⟨value, system, rfl, h, Nat.le_add_right _ _⟩
  | fault => exact h.elim
  | stuck => exact h.elim
  | ask request next ih =>
      obtain ⟨hstalls, hnext⟩ := h
      have hspent := answer_stalled request system
      simp only [momentsWith, List.forall_mem_cons] at answered served
      obtain ⟨hreply, hanswered⟩ := answered
      obtain ⟨hinterrupted, hserved⟩ := served
      simp only [runWith]
      rcases hanswer : system.answer request with ⟨reply, _ | call, asked⟩
      · rw [hanswer] at hspent hreply hanswered hserved
        dsimp only at hspent
        obtain ⟨value, after, hran, hpost, hle⟩ := ih reply (hnext reply hreply) hanswered hserved
        exact ⟨value, after, hran, hpost, by omega⟩
      · rw [hanswer] at hspent hreply hanswered hserved
        obtain ⟨last, hlast, hquiet⟩ := hinterrupted call asked (by rw [hanswer])
        dsimp only at hspent hanswered hserved ⊢
        rw [hlast] at hanswered hserved ⊢
        obtain ⟨value, after, hran, hpost, hle⟩ :=
          ih reply (hnext reply hreply) hanswered hserved
        exact ⟨value, after, hran, hpost, by omega⟩

end Runs

end CardHost
