import CardHost.Proofs.Bench.Phases
import CardHost.Proofs.Staging

/-!
# The host and the card as a byte array

A host on the bench refines a byte array with one latched command (`Disk`): `Disk.step` says what an
operation with its answer leaves of both, and `Stands` relates the array to a system.
`perform_stands` is the step lemma, for any operation, `performAll_stands` the run lemma, and
`refines_disk` starts from any state that earlier operations left behind the lock, on whatever
platform they ran (`Host.Reached`), and says what the next data phase in order does.  Pages come
from any allocator that keeps what is live apart (`Bench.Keeper`).
-/

namespace CardHost

open Bench (blockBytes overwrite)

/-! ## The byte array -/

/-- A byte array, and the data command that waits for its data phase. -/
structure Disk where
  bytes : List UInt8
  latch : Option Latch

namespace Disk

/-- What an operation leaves of the bytes: a write that succeeds puts the caller's bytes over the
range of the latched command. -/
def bytesAfter (disk : Disk) : Call → Answer → List UInt8
  | .writeData length source, .outcome (.ok ()) =>
    match disk.latch with
    | some latch =>
      overwrite disk.bytes (latch.argument.toNat * blockBytes) (source.take (length % UInt32.size))
    | none => disk.bytes
  | _, _ => disk.bytes

/-- What an operation leaves of the array and the latch. -/
def step (disk : Disk) (call : Call) (answer : Answer) : Disk where
  bytes := disk.bytesAfter call answer
  latch := (Attempt.mk call true).passOn disk.latch

/-- What operations leave one after another. -/
def after : Disk → List Call → List Answer → Disk
  | disk, call :: calls, answer :: answers => (disk.step call answer).after calls answers
  | disk, _, _ => disk

theorem bytesAfter_of_not_phase (disk : Disk) {call : Call} (h : call.phase? = none)
    (answer : Answer) : disk.bytesAfter call answer = disk.bytes := by
  cases call with
  | readData => cases h
  | writeData => cases h
  | _ => rfl

/-- A data phase that fails leaves the bytes. -/
theorem bytesAfter_error (disk : Disk) (call : Call) (error : HostError) :
    disk.bytesAfter call (call.phaseAnswer (.error error)) = disk.bytes := by
  cases call with
  | writeData => rfl
  | _ => rfl

/-- A data phase with a latched command leaves the bytes as the card moved them. -/
theorem bytesAfter_phase {disk : Disk} {call : Call} {length : Nat} {buffer : DataBuffer}
    (hphase : call.phase? = some (length, buffer)) {latch : Latch}
    (hlatch : disk.latch = some latch) (outcome : Except HostError (List UInt8)) :
    disk.bytesAfter call (call.phaseAnswer outcome) =
      Host.movedBy latch length buffer outcome disk.bytes := by
  cases call with
  | readData =>
      cases hphase
      rfl
  | writeData =>
      cases hphase
      cases outcome with
      | ok arrived => simp only [Host.movedBy, Call.phaseAnswer, bytesAfter, hlatch]
      | error error => rfl
  | _ => cases hphase

/-- What an operation latches is proper, and what it leaves latched stays so. -/
theorem proper_step {disk : Disk} (h : ∀ latch, disk.latch = some latch → latch.Proper)
    (call : Call) (answer : Answer) :
    ∀ latch, (disk.step call answer).latch = some latch → latch.Proper := by
  intro latch hlatch
  have hpass : (Attempt.mk call true).passOn disk.latch = some latch := hlatch
  unfold Attempt.passOn at hpass
  split at hpass
  · rename_i hdecides
    cases call with
    | sendCommand index argument =>
        cases hpass
        exact ⟨hdecides, index, rfl⟩
    | _ => cases hpass
  · exact h latch hpass

end Disk

/-- A system that stands for a byte array with a latch. -/
structure Stands {allocator : Bench.Allocator} (keeper : Bench.Keeper allocator) (ring : Ring)
    (disk : Disk) (system : System (Bench.machineWith allocator) HostState ρ) : Prop where
  cell : system.cell = some ⟨ring, disk.latch⟩
  serves : Bench.Platform.Serves keeper ring disk.bytes system.shared
  proper : ∀ latch, disk.latch = some latch → latch.Proper

/-! ## One operation -/

namespace Host

variable {allocator : Bench.Allocator} {keeper : Bench.Keeper allocator} {host : Host}
  {ring : Ring} {disk : Disk}

/-- Outside data phases an operation spares the card. -/
theorem Permits.onBoard {call : Call} (hphase : call.phase? = none) {request : Request HostState}
    (h : host.Permits call request) : request.OnBoard host.window Register.SparesCard := by
  have hquiet : request.OnRegisters host.window Register.WritesQuietly := by
    cases call with
    | readData => cases hphase
    | writeData => cases hphase
    | _ => exact h
  exact .inr (hquiet.mono fun _ _ => Register.WritesQuietly.sparesCard)

/-- A data phase takes the latch and leaves the byte array that its outcome tells. -/
theorem runPhase_ensures {platform : Bench.Platform} (hbench : host.OnBench)
    (hsized : ring.Sized host.config) (hserves : platform.Serves keeper ring disk.bytes)
    (hproper : ∀ latch, disk.latch = some latch → latch.Proper) {call : Call} {length : Nat}
    {buffer : DataBuffer} (hphase : call.phase? = some (length, buffer)) :
    (host.runPhase length buffer ⟨ring, disk.latch⟩ : Prog σ _).Ensures
      (Bench.machineWith allocator) platform fun result after => result.2 = ⟨ring, none⟩
        ∧ Bench.Platform.Serves keeper ring (disk.bytesAfter call (call.phaseAnswer result.1))
          after := by
  unfold runPhase
  cases hlatch : disk.latch with
  | none =>
      apply Prog.Ends.ensures
      apply Prog.Ends.step
      apply Prog.ends_log
      refine Prog.ends_done ⟨rfl, ?_⟩
      rw [disk.bytesAfter_error]
      exact hserves
  | some latch =>
      refine (runLatched_ensures hbench hserves hsized (hproper latch hlatch) length buffer).bind
        fun outcome after hafter => (Prog.ends_done ?_).ensures
      rw [← Disk.bytesAfter_phase hphase hlatch] at hafter
      exact ⟨rfl, hafter⟩

section Step

variable {handler : Call → Prog HostState ρ} {depth : Nat} {call : Call} {answer : Answer}
  {system after : System (Bench.machineWith allocator) HostState ρ}

/-- A data phase does to the byte array what its answer tells. -/
theorem phase_stands (hbench : host.OnBench) (hsized : ring.Sized host.config)
    (h : Stands keeper ring disk system) {length : Nat} {buffer : DataBuffer}
    (hphase : call.phase? = some (length, buffer))
    (ran : (host.perform call).run handler depth system = .ok (answer, after)) :
    Stands keeper ring (disk.step call answer) after := by
  rw [host.perform_phase hphase] at ran
  obtain ⟨outcome, middle, hheld, hdone⟩ := Prog.run_bind_ok ran
  cases hdone
  obtain ⟨left, hcell, hleft, hserves⟩ := Lock.holding_ensures h.cell
    (runPhase_ensures hbench hsized h.serves h.proper hphase) hheld
  refine ⟨?_, hserves, Disk.proper_step h.proper call _⟩
  rw [hcell, show left = _ from hleft]
  cases call with
  | readData => rfl
  | writeData => rfl
  | _ => cases hphase

/-- A dump only reads. -/
theorem dump_stands (hbench : host.OnBench) (h : Stands keeper ring disk system)
    (ran : (host.perform .dump).run handler depth system = .ok (answer, after)) :
    Stands keeper ring (disk.step .dump answer) after := by
  have hasks : (host.perform .dump).Asks (Request.OnBoard host.window Register.SparesCard) :=
    host.asks_perform_dump.mono fun request hrequest =>
      .inr (hrequest.mono fun _ _ hnever => hnever.elim)
  obtain ⟨⟨-, hserves⟩, hcell⟩ := h.serves.ensures hbench.window hasks ρ handler depth system
    after answer rfl ran
  exact ⟨hcell.trans h.cell, hserves, h.proper⟩

/-- An operation on a free lock does to the byte array what its answer tells. -/
theorem perform_stands (hbench : host.OnBench) (hsized : ring.Sized host.config)
    (h : Stands keeper ring disk system)
    (ran : (host.perform call).run handler depth system = .ok (answer, after)) :
    Stands keeper ring (disk.step call answer) after := by
  cases hphase : call.phase? with
  | some phase => exact phase_stands hbench hsized h hphase ran
  | none =>
      have hbytes := disk.bytesAfter_of_not_phase hphase answer
      have hproper := Disk.proper_step h.proper call answer
      have hsettle := call.settle_eq_passOn ⟨ring, disk.latch⟩
      by_cases hdump : call = .dump
      · subst hdump
        exact dump_stands hbench h ran
      have hform := host.perform_form hdump
      generalize hprogram : host.perform call = program at hform ran
      cases hform with
      | unlocked fixed remarks hunlocked =>
          rw [← hprogram, run_perform_of_unlocked host _ depth hdump hunlocked] at ran
          cases ran
          rw [Call.settle_of_unlocked hunlocked] at hsettle
          refine ⟨h.cell.trans (congrArg some hsettle), ?_, hproper⟩
          show Bench.Platform.Serves keeper ring (disk.bytesAfter call answer) _
          rw [hbytes]
          exact h.serves
      | locked body finish hlocked refuses settles =>
          obtain ⟨outcome, middle, hheld, hdone⟩ := Prog.run_bind_ok ran
          cases hdone
          have hobeys := (settles ⟨ring, disk.latch⟩).mono
            (fun _ => Permits.onBoard hphase) fun _ => id
          obtain ⟨left, hcell, hleft, hserves⟩ := Lock.holding_ensures h.cell
            (h.serves.ensures hbench.window hobeys) hheld
          refine ⟨?_, ?_, hproper⟩
          · rw [hcell, show left = _ from hleft, hsettle]
            rfl
          · show Bench.Platform.Serves keeper ring (disk.bytesAfter call _) _
            rw [hbytes]
            exact hserves

end Step

/-- Operations one after another do to the byte array what their answers tell. -/
theorem performAll_stands (hbench : host.OnBench) (hsized : ring.Sized host.config)
    {handler : Call → Prog HostState ρ} {depth : Nat} {calls : List Call} {answers : List Answer}
    {system now : System (Bench.machineWith allocator) HostState ρ}
    (h : Stands keeper ring disk system)
    (ran : (host.performAll calls).run handler depth system = .ok (answers, now)) :
    Stands keeper ring (disk.after calls answers) now := by
  induction calls generalizing disk answers system with
  | nil =>
      cases ran
      exact h
  | cons call calls ih =>
      obtain ⟨answer, middle, hfirst, hlater⟩ := Prog.run_bind_ok ran
      obtain ⟨rest, last, hrest, hdone⟩ := Prog.run_bind_ok hlater
      cases hdone
      exact ih (perform_stands hbench hsized h hfirst) hrest

/-! ## A data phase in order -/

/-- A system in which the data phase of a latched command is in order: the ring and the byte count
hold the length, and the bench has pages for it. -/
structure Ready (host : Host) (keeper : Bench.Keeper allocator) (ring : Ring) (disk : Disk)
    (latch : Latch) (length : Nat) (system : System (Bench.machineWith allocator) HostState ρ) :
    Prop where
  bench : host.OnBench
  sized : ring.Sized host.config
  stands : Stands keeper ring disk system
  latched : disk.latch = some latch
  lengthPos : 0 < length
  capacity : length ≤ host.config.descriptorCount.toNat * host.config.segmentSize.toNat
  width : length < UInt32.size
  granted : (allocator.allocate host.services (host.split length).stagingPages
    system.shared).1.status = .success

section Phase

variable {latch : Latch} {length : Nat} {system : System (Bench.machineWith allocator) HostState ρ}

/-- A data phase in order ends with what moving the data comes to, and takes the latch. -/
theorem Ready.holding_runPhase (handler : Call → Prog HostState ρ) (depth : Nat)
    (h : host.Ready keeper ring disk latch length system) {buffer : DataBuffer}
    (hdirection : latch.word.isWrite = buffer.isWrite)
    (hbuffer : length ≤ buffer.size) {result : Except HostError (List UInt8)} {now : List UInt8}
    (hmoves : ∀ (pages : Pages) (granted : Bench.Platform) (card : Bench.Card),
      card.contents = disk.bytes → host.Equipped ring pages length granted card →
        (host.moveThrough ring latch length buffer pages :
            Action HostState (List UInt8)).run.Ends (Bench.machineWith allocator) granted
          fun outcome after => outcome = result ∧ granted.Carried now after) :
    ∃ after, (host.lock.holding (host.runPhase length buffer)).run handler depth system =
        .ok (result, after)
      ∧ Stands keeper ring ⟨now, none⟩ after := by
  obtain ⟨⟨hsegment, -⟩, -⟩ := (HostConfig.usable_iff host.config).mp host.usable
  have hslice : length < sliceLimit := Nat.lt_trans h.width (by decide)
  have hroom : (host.split length).segments ≤ ring.count := by
    rw [h.sized.1]
    exact (ceilDiv_le_iff hsegment).mpr h.capacity
  have hlatched := ends_runLatched h.bench h.stands.serves h.sized hdirection h.lengthPos hbuffer
    hslice hroom rfl h.granted hmoves
  have hbody : (host.runPhase length buffer ⟨ring, disk.latch⟩ : Prog HostState _).Ends
      (Bench.machineWith allocator) system.shared
      fun outcome after => outcome = (result, ⟨ring, none⟩)
        ∧ Bench.Platform.Serves keeper ring now after := by
    unfold runPhase
    rw [h.latched]
    refine hlatched.bind fun outcome after hafter => ?_
    obtain ⟨rfl, hserves⟩ := hafter
    exact Prog.ends_done ⟨rfl, hserves⟩
  obtain ⟨outcome, left, after, hran, hcell, hpair, hserves⟩ :=
    Lock.holding_ends handler depth h.stands.cell hbody
  cases hpair
  exact ⟨after, hran, hcell, hserves, fun _ hnone => nomatch hnone⟩

/-- A range that reaches behind the array is refused, and nothing changes. -/
theorem Ready.holding_short (handler : Call → Prog HostState ρ) (depth : Nat)
    (h : host.Ready keeper ring disk latch length system) {buffer : DataBuffer}
    (hword : Bench.Moves latch.word buffer.isWrite)
    (hbuffer : length ≤ buffer.size)
    (hshort : disk.bytes.length < latch.argument.toNat * blockBytes + length) :
    ∃ after, (host.lock.holding (host.runPhase length buffer)).run handler depth system =
        .ok (.error .deviceError, after)
      ∧ Stands keeper ring ⟨disk.bytes, none⟩ after := by
  refine h.holding_runPhase handler depth hword.isWrite hbuffer
    fun pages granted card hcontents hequipped => ?_
  rw [← hcontents, card.length_contents, ← Nat.mod_eq_of_lt h.width] at hshort
  rw [← hcontents]
  exact hequipped.ends_short hword buffer hshort

section Outcome

variable {handler : Call → Prog HostState ρ} {depth length : Nat} {source buffer : List UInt8}
  {system after : System (Bench.machineWith allocator) HostState ρ}
  {outcome : Except HostError (List UInt8)}

theorem run_writeData
    (ran : (host.lock.holding (host.runPhase length (.outgoing source))).run handler depth system =
      .ok (outcome, after)) :
    (host.writeData length source).run handler depth system =
      .ok (outcome.map fun _ => (), after) := by
  unfold Host.writeData
  rw [Prog.bind_eq, Prog.run_bind, ran]
  cases outcome <;> rfl

/-- What arrived goes in front of the caller's buffer. -/
theorem run_readData
    (ran : (host.lock.holding (host.runPhase length (.incoming buffer.length))).run handler depth
      system = .ok (outcome, after)) :
    (host.readData length buffer).run handler depth system =
      .ok ((outcome.map fun _ => (),
        outcome.toOption.elim buffer (· ++ buffer.drop length)), after) := by
  unfold Host.readData
  rw [Prog.bind_eq, Prog.run_bind, ran]
  cases outcome <;> rfl

end Outcome

/-- A write in order succeeds and changes exactly the range of its argument. -/
theorem Ready.writeData (handler : Call → Prog HostState ρ) (depth : Nat)
    (h : host.Ready keeper ring disk latch length system) (hword : Bench.Moves latch.word true)
    {source : List UInt8} (hsource : length ≤ source.length)
    (hfits : latch.argument.toNat * blockBytes + length ≤ disk.bytes.length) :
    ∃ after, (host.writeData length source).run handler depth system = .ok (.ok (), after)
      ∧ Stands keeper ring
        ⟨overwrite disk.bytes (latch.argument.toNat * blockBytes) (source.take length), none⟩
        after := by
  have hmoves (pages : Pages) (granted : Bench.Platform) (card : Bench.Card)
      (hcontents : card.contents = disk.bytes)
      (hequipped : host.Equipped ring pages length granted card) :
      (host.moveThrough ring latch length (.outgoing source) pages :
          Action HostState (List UInt8)).run.Ends (Bench.machineWith allocator) granted
        fun outcome after => outcome = .ok [] ∧ granted.Carried (overwrite disk.bytes
          (latch.argument.toNat * blockBytes) (source.take length)) after := by
    have hcount := Nat.mod_eq_of_lt h.width
    rw [← hcontents, card.length_contents, ← hcount] at hfits
    rw [← hcontents]
    refine (hequipped.ends_write hword hsource hfits).mono fun outcome after hafter => ?_
    rw [hcount] at hafter
    exact hafter
  have hwrite : latch.word.isWrite = (DataBuffer.outgoing source).isWrite := hword.isWrite
  obtain ⟨after, hran, hafter⟩ := h.holding_runPhase handler depth hwrite hsource hmoves
  exact ⟨after, run_writeData hran, hafter⟩

/-- A read in order succeeds with exactly the range of its argument, and changes nothing. -/
theorem Ready.readData (handler : Call → Prog HostState ρ) (depth : Nat)
    (h : host.Ready keeper ring disk latch length system) (hword : Bench.Moves latch.word false)
    {buffer : List UInt8} (hbuffer : length ≤ buffer.length)
    (hfits : latch.argument.toNat * blockBytes + length ≤ disk.bytes.length) :
    ∃ after, (host.readData length buffer).run handler depth system =
        .ok ((.ok (), (disk.bytes.drop (latch.argument.toNat * blockBytes)).take length
          ++ buffer.drop length), after)
      ∧ Stands keeper ring ⟨disk.bytes, none⟩ after := by
  have hmoves (pages : Pages) (granted : Bench.Platform) (card : Bench.Card)
      (hcontents : card.contents = disk.bytes)
      (hequipped : host.Equipped ring pages length granted card) :
      (host.moveThrough ring latch length (.incoming buffer.length) pages :
          Action HostState (List UInt8)).run.Ends (Bench.machineWith allocator) granted
        fun outcome after =>
          outcome = .ok ((disk.bytes.drop (latch.argument.toNat * blockBytes)).take length)
            ∧ granted.Carried disk.bytes after := by
    rw [← hcontents, card.length_contents] at hfits
    rw [← hcontents]
    exact hequipped.ends_read hword buffer.length h.width hfits
  have hread : latch.word.isWrite = (DataBuffer.incoming buffer.length).isWrite := hword.isWrite
  obtain ⟨after, hran, hafter⟩ := h.holding_runPhase handler depth hread hbuffer hmoves
  exact ⟨after, run_readData hran, hafter⟩

theorem Ready.writeData_short (handler : Call → Prog HostState ρ) (depth : Nat)
    (h : host.Ready keeper ring disk latch length system) (hword : Bench.Moves latch.word true)
    {source : List UInt8} (hsource : length ≤ source.length)
    (hshort : disk.bytes.length < latch.argument.toNat * blockBytes + length) :
    ∃ after, (host.writeData length source).run handler depth system =
        .ok (.error .deviceError, after)
      ∧ Stands keeper ring ⟨disk.bytes, none⟩ after := by
  have hwrite : Bench.Moves latch.word (DataBuffer.outgoing source).isWrite := hword
  obtain ⟨after, hran, hafter⟩ := h.holding_short handler depth hwrite hsource hshort
  exact ⟨after, run_writeData hran, hafter⟩

theorem Ready.readData_short (handler : Call → Prog HostState ρ) (depth : Nat)
    (h : host.Ready keeper ring disk latch length system) (hword : Bench.Moves latch.word false)
    {buffer : List UInt8} (hbuffer : length ≤ buffer.length)
    (hshort : disk.bytes.length < latch.argument.toNat * blockBytes + length) :
    ∃ after, (host.readData length buffer).run handler depth system =
        .ok ((.error .deviceError, buffer), after)
      ∧ Stands keeper ring ⟨disk.bytes, none⟩ after := by
  have hread : Bench.Moves latch.word (DataBuffer.incoming buffer.length).isWrite := hword
  obtain ⟨after, hran, hafter⟩ := h.holding_short handler depth hread hbuffer hshort
  exact ⟨after, run_readData hran, hafter⟩

end Phase

/-! ## Any earlier operations -/

/-- States behind the lock of a host after a load and earlier operations, with any platform, any
operations interrupting them and any of them refused the lock. -/
inductive Reached (host : Host) (state : HostState) : Prop
  | intro {ι : Type} {machine : Machine ι} (calls : ι → List Call)
      {earlier : ι → Prog HostState (List Answer)} {loadDepth depth : Nat} {slot : Slot}
      {config : HostConfig} {services : Services}
      {before start now : System machine HostState (List Answer)} {history : List Attempt}
      (loaded : (slot.load config services).run earlier loadDepth before =
        .ok ((.ok (), ⟨some host⟩), start))
      (ran : host.After (fun i => host.performAll (calls i)) depth start history now)
      (left : now.cell = some state) : Reached host state

/-- The ring has its size and what is latched is proper, whatever happened. -/
theorem Reached.sized_proper {state : HostState} (h : host.Reached state) :
    state.ring.Sized host.config ∧ ∀ latch, state.latch = some latch → latch.Proper := by
  obtain @⟨ι, machine, calls, earlier, loadDepth, depth, slot, config, services, before, start,
    now, history, loaded, ran, left⟩ := h
  obtain ⟨made, fresh, hmade, hcell, hconfig, -, hsized, hlatch⟩ := Slot.load_run loaded
  cases hmade
  have hnow := After.cell_eq calls hcell ran
  rw [left, show fresh.latch = none from hlatch, ← latchAfter_eq_foldl] at hnow
  cases hnow
  have hconfig : host.config = config := hconfig
  rw [hconfig]
  refine ⟨hsized, fun latch hlast => ?_⟩
  exact isData_of_latchAfter hlast

/-- From any state that earlier operations left behind the lock, whatever they left in registers and
memory, further operations on a bench that serves, with any allocator that keeps live pages apart,
do to the card what they do to a byte array.  A data phase in order that gets its pages then ends.
If the range of its argument lies inside the array, it succeeds: a write changes exactly that range,
to the caller's bytes, and a read puts exactly that range in front of the caller's buffer and
changes nothing.  Otherwise it fails and changes nothing. -/
theorem refines_disk {host : Host} (hbench : host.OnBench) {state : HostState}
    (hreached : host.Reached state) {bytes : List UInt8} {handler : Call → Prog HostState ρ}
    {depth : Nat} {before now : System (Bench.machineWith allocator) HostState ρ}
    (hcell : before.cell = some state)
    (hserves : Bench.Platform.Serves keeper state.ring bytes before.shared) {calls : List Call}
    {answers : List Answer}
    (ran : (host.performAll calls).run handler depth before = .ok (answers, now)) {disk : Disk}
    (hdisk : disk = (Disk.mk bytes state.latch).after calls answers) :
    Stands keeper state.ring disk now
    ∧ ∀ (index argument : UInt32) (length : Nat),
      disk.latch = some ⟨.ofCommand index argument, argument⟩ →
      0 < length →
      length ≤ host.config.descriptorCount.toNat * host.config.segmentSize.toNat →
      length < UInt32.size →
      (allocator.allocate host.services (host.split length).stagingPages
        now.shared).1.status = .success →
      ((index = 24 ∨ index = 25) → ∀ source : List UInt8, length ≤ source.length →
        (argument.toNat * blockBytes + length ≤ disk.bytes.length →
          ∃ after, (host.writeData length source).run handler depth now = .ok (.ok (), after)
            ∧ Stands keeper state.ring
              ⟨overwrite disk.bytes (argument.toNat * blockBytes) (source.take length), none⟩ after)
        ∧ (disk.bytes.length < argument.toNat * blockBytes + length →
          ∃ after, (host.writeData length source).run handler depth now =
              .ok (.error .deviceError, after)
            ∧ Stands keeper state.ring ⟨disk.bytes, none⟩ after))
      ∧ ((index = 17 ∨ index = 18) → ∀ buffer : List UInt8, length ≤ buffer.length →
        (argument.toNat * blockBytes + length ≤ disk.bytes.length →
          ∃ after, (host.readData length buffer).run handler depth now =
              .ok ((.ok (), (disk.bytes.drop (argument.toNat * blockBytes)).take length
                ++ buffer.drop length), after)
            ∧ Stands keeper state.ring ⟨disk.bytes, none⟩ after)
        ∧ (disk.bytes.length < argument.toNat * blockBytes + length →
          ∃ after, (host.readData length buffer).run handler depth now =
              .ok ((.error .deviceError, buffer), after)
            ∧ Stands keeper state.ring ⟨disk.bytes, none⟩ after)) := by
  obtain ⟨hsized, hproper⟩ := hreached.sized_proper
  have hstands : Stands keeper state.ring disk now := by
    subst hdisk
    exact performAll_stands hbench hsized ⟨hcell, hserves, hproper⟩ ran
  refine ⟨hstands, ?_⟩
  intro index argument length hlatch hlength hcapacity hwidth hgranted
  have hready : host.Ready keeper state.ring disk ⟨.ofCommand index argument, argument⟩ length
      now := ⟨hbench, hsized, hstands, hlatch, hlength, hcapacity, hwidth, hgranted⟩
  constructor
  · intro hindex source hsource
    have hword := Bench.moves_write hindex argument
    constructor
    · intro hfits
      exact hready.writeData handler depth hword hsource hfits
    · intro hshort
      exact hready.writeData_short handler depth hword hsource hshort
  · intro hindex buffer hbuffer
    have hword := Bench.moves_read hindex argument
    constructor
    · intro hfits
      exact hready.readData handler depth hword hbuffer hfits
    · intro hshort
      exact hready.readData_short handler depth hword hbuffer hshort

/-! ### A card of four blocks -/

/-- The small host on a bench with pages at 1 GiB. -/
def lowBench : System Bench.machine HostState (List Answer) :=
  { smallBench with shared := ⟨.initial 0x40000000 16 0, .blank⟩ }

/-- What a load of the small host and a failed read leave behind the lock there. -/
def smallState : HostState := ⟨⟨0x40000000, 1, 1⟩, none⟩

/-- The small host on a bench with a card of four blocks, where only the ring is live. -/
def servingBench : System (Bench.machineWith .own) HostState (List Answer) :=
  { smallBench with
    shared := ⟨{ Bench.Device.initial 0x40000000 16 0 with
      card := some (.blank 4)
      pages := ⟨0x40000000, 16, 0, [(0x40000000, 1)], none, none⟩ }, .blank⟩
    cell := some smallState }

theorem smallHost_onBench : smallHost.OnBench where
  window := ⟨rfl, fun register => by cases register <;> decide⟩
  commandPolled := by decide
  dataPolled := by decide

theorem smallState_reached : smallHost.Reached smallState := by
  obtain ⟨start, loaded⟩ : ∃ start,
      (Slot.empty.load smallConfig .supplied).run (fun call => smallHost.performAll [call]) 1
        lowBench = .ok ((.ok (), ⟨some smallHost⟩), start) := ⟨_, rfl⟩
  obtain ⟨now, ran, left⟩ : ∃ now, smallHost.After (fun call => smallHost.performAll [call]) 1 start
      [⟨.sendCommand 17 5, true⟩, ⟨.readData 0 [], true⟩] now ∧ now.cell = some smallState := by
    cases loaded
    exact ⟨_, .next (.admitted rfl) (.next (.admitted rfl) .none), rfl⟩
  exact .intro (fun call => [call]) loaded ran left

theorem servingBench_serves : Bench.Platform.Serves Bench.Keeper.own smallState.ring
    (Bench.Card.blank 4).contents servingBench.shared where
  answers :=
    { registers := ⟨fun _ => rfl, fun _ => rfl, fun _ => rfl⟩
      cardReady := by decide
      dataReady := by decide
      completion := rfl
      timers := rfl
      armed := rfl }
  sound :=
    { hosted := ⟨by decide, rfl⟩
      spaced := ⟨by decide, by decide,
        show 0x40001000 ≤ servingBench.shared.device.pages.limit by decide⟩
      fails := fun _ hnone => nomatch hnone }
  live := List.mem_cons_self
  listed := by decide
  card := ⟨.blank 4, rfl, rfl⟩

/-- Three bytes are written over the second block of the card. -/
theorem second_block_overwritten :
    ∃ now after, (smallHost.performAll [.sendCommand 24 1]).run undisturbed 0 servingBench =
        .ok ([.outcome (.ok ())], now)
      ∧ (smallHost.writeData 3 [1, 2, 3]).run undisturbed 0 now = .ok (.ok (), after)
      ∧ Stands Bench.Keeper.own smallState.ring
        ⟨overwrite (Bench.Card.blank 4).contents 512 [1, 2, 3], none⟩ after := by
  obtain ⟨now, ran, hgranted⟩ : ∃ now,
      (smallHost.performAll [.sendCommand 24 1]).run undisturbed 0 servingBench =
        .ok ([.outcome (.ok ())], now)
      ∧ (Bench.Platform.allocate (smallHost.split 3).stagingPages now.shared).1.status =
        .success := ⟨_, rfl, by decide +kernel⟩
  have hserves := servingBench_serves
  have hlength := (Bench.Card.blank 4).length_contents
  generalize (Bench.Card.blank 4).contents = bytes at hserves hlength ⊢
  have hdisk : Disk.mk bytes (some ⟨.ofCommand 24 1, 1⟩) =
      (Disk.mk bytes smallState.latch).after [.sendCommand 24 1] [.outcome (.ok ())] := rfl
  obtain ⟨-, hphase⟩ := refines_disk smallHost_onBench smallState_reached rfl hserves ran hdisk
  have hfits : (1 : UInt32).toNat * blockBytes + 3 ≤ bytes.length := by
    rw [hlength]
    decide
  obtain ⟨after, hran, hafter⟩ := ((hphase 24 1 3 rfl (by decide) (by decide) (by decide)
    hgranted).1 (.inl rfl) [1, 2, 3] (Nat.le_refl 3)).1 hfits
  exact ⟨now, after, ran, hran, hafter⟩

end Host

end CardHost
