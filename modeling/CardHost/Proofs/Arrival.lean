import CardHost.Proofs.Staging
import CardHost.Proofs.Transfers

/-!
# What a read delivers

A read gives the caller the first bytes of its staging pages as they were when the last sample of
the raw interrupt status had been taken, and leaves the rest of the buffer alone.  Where it fails
the buffer is as it was, whatever had arrived by then (`read_delivers`).

The sample is the last request but for the copy itself: a wait for data writes no register, so
nothing interrupts between the two.
-/

namespace CardHost

section Arrival

variable {machine : Machine ι} {handler : ι → Prog σ ρ} {depth : Nat}

/-- A request that does not look at the raw interrupt status of a window. -/
def Request.Unsampled (window : Window) : Request σ → Prop
  | .read w offset => ¬ (w = window ∧ offset = Register.rawInterrupt.offset)
  | _ => True

theorem Request.Aside.unsampled {request : Request σ} (h : request.Aside) (window : Window) :
    request.Unsampled window := by
  cases request with
  | read => exact h.elim
  | _ => trivial

namespace Host

variable (host : Host)

/-- A transfer that waited in vain delivers nothing, and one that did not takes the bytes in the
staging pages right after the sample which showed that the data is there. -/
theorem conclude_arrived (latch : Latch) (length size : Nat) (pages : Pages) (geometry : Geometry)
    {system after : System machine σ ρ} {arrived : List UInt8}
    (ran : (host.conclude latch length (.incoming size) pages geometry).run.run handler depth
      system = .ok (.ok arrived, after)) :
    ∃ earlier sample later shared,
      (host.conclude latch length (.incoming size) pages geometry).run.trace handler depth system =
          earlier ++ sample :: later
        ∧ sample.Concludes host.window shared
        ∧ (∀ moment ∈ later, moment.request.Unsampled host.window)
        ∧ arrived = shared.memory.read pages.address.toNat length := by
  have hawait : (host.awaitData : Action σ Unit).run.Asks
      (Request.OnRegisters host.window fun _ _ => False) := asks_completion host _ _ _ _
  have hsilent := hawait.mono fun _ => Request.OnRegisters.silent
  unfold conclude at ran ⊢
  rw [Action.run_bind] at ran ⊢
  obtain ⟨waited, middle, hwait, hrest⟩ := Prog.run_bind_ok ran
  rw [Prog.trace_bind_of_run handler depth hwait, hsilent.trace_eq_moments]
  cases waited with
  | error error => cases hrest
  | ok =>
      obtain ⟨earlier, sample, hmoments, hconcludes⟩ := awaitData_ok host hwait
      rw [hmoments, List.append_assoc]
      refine ⟨earlier, sample, _, middle.shared, rfl, hconcludes, ?_, ?_⟩
      · intro moment hmem
        rcases List.mem_cons.mp hmem with rfl | hmem
        · trivial
        · rcases List.mem_cons.mp hmem with rfl | hmem
          · trivial
          · cases hmem
      · cases hrest
        rfl

/-- A read that succeeded: the pages it was granted, the last sample of the raw interrupt status in
its trace, and the bytes of the pages as that sample left them. -/
def Delivered (length : Nat) (trace : List (Moment machine σ ρ)) (bytes : List UInt8) : Prop :=
  ∃ pages front sample back shared,
    trace.filterMap Moment.granted? = [pages] ∧ length ≤ pages.size
      ∧ trace = front ++ sample :: back
      ∧ sample.Concludes host.window shared
      ∧ (∀ moment ∈ back, moment.request.Unsampled host.window)
      ∧ bytes = shared.memory.read pages.address.toNat length

/-- A transfer that succeeds has delivered. -/
theorem Phased.delivered (idles : Idles machine handler depth) {cell : Option HostState}
    {length size : Nat} {trace : List (Moment machine σ ρ)}
    {ends : Except HostError (List UInt8) → Prop}
    (h : host.Phased handler depth cell length (.incoming size) trace ends) {arrived : List UInt8}
    (succeeded : ends (.ok arrived)) : length ≤ size ∧ host.Delivered length trace arrived := by
  cases h with
  | failed quiet fails =>
      obtain ⟨error, herror⟩ := fails _ succeeded
      cases herror
  | @moved ring latch pages borrowed lead tail latched cleared held granted before after split
      moves =>
      obtain ⟨last, hmoved⟩ := moves _ succeeded
      have hgranted := moveThrough_granted host idles ring latch length (.incoming size) pages held
      refine ⟨cleared.supplied, pages, ?_⟩
      rw [moveThrough_eq, Action.run_bind] at hmoved split hgranted
      obtain ⟨launched, middle, hlaunch, hconclude⟩ := Prog.run_bind_ok hmoved
      cases launched with
      | error error => cases hconclude
      | ok geometry =>
          obtain ⟨earlier, sample, later, shared, htrace, hconcludes, hlater, harrived⟩ :=
            conclude_arrived host latch length size pages geometry hconclude
          rw [Prog.trace_bind_of_run handler depth hlaunch] at split hgranted
          refine ⟨lead ++ ((host.launch ring latch length (.incoming size) pages).run.trace handler
            depth borrowed ++ earlier), sample, later ++ tail, shared, ?_, cleared.length_le_size,
            ?_, hconcludes, ?_, harrived⟩
          · rw [split, List.filterMap_append, List.filterMap_append, granted, hgranted,
              filterMap_granted_of_not_allocates]
            · rfl
            · exact fun moment hmem => (after moment hmem).not_allocates
          · rw [split]
            dsimp only
            rw [htrace]
            simp only [List.append_assoc, List.cons_append]
          · intro moment hmem
            rcases List.mem_append.mp hmem with hmem | hmem
            · exact hlater moment hmem
            · exact (after moment hmem).unsampled host.window

end Host

end Arrival

namespace Host

variable (host : Host) {machine : Machine ι}

/-- A read touches the caller's buffer only if it succeeds, whatever the platform does and whatever
operations interrupt it.  Then the first bytes of the buffer are those which the staging pages held
right after the last sample of the raw interrupt status, and the others are as they were. -/
theorem read_delivers (calls : ι → List Call) (depth length : Nat) (buffer : List UInt8)
    {system after : System machine HostState (List Answer)} {answer : Answer}
    (ran : (host.perform (.readData length buffer)).run (fun i => host.performAll (calls i)) depth
      system = .ok (answer, after)) :
    ∃ outcome final, answer = .data outcome final
      ∧ (∀ error, outcome = .error error → final = buffer)
      ∧ (outcome = .ok () → length ≤ buffer.length ∧ final.drop length = buffer.drop length
        ∧ host.Delivered length ((host.perform (.readData length buffer)).trace
            (fun i => host.performAll (calls i)) depth system) (final.take length)) := by
  have hphase : (Call.readData length buffer).phase? = some (length, .incoming buffer.length) := rfl
  obtain ⟨outcome, hanswer, hran⟩ := run_phase hphase ran
  have hphased := host.perform_phased hphase (fun i => host.performAll (calls i)) depth system
  cases outcome with
  | error error =>
      refine ⟨.error error, buffer, hanswer, ?_, ?_⟩
      · intro _ _
        rfl
      · intro hok
        cases hok
  | ok arrived =>
      refine ⟨.ok (), arrived ++ buffer.drop length, hanswer, ?_, ?_⟩
      · intro error herror
        cases herror
      · intro _
        obtain ⟨hlength, hdelivered⟩ :=
          hphased.delivered host (host.idles_performAll calls depth) ⟨after, hran⟩
        have hcount : arrived.length = length := by
          obtain ⟨pages, front, sample, back, shared, -, -, -, -, -, hbytes⟩ := hdelivered
          rw [hbytes, Memory.length_read]
        refine ⟨hlength, ?_, ?_⟩
        · rw [List.drop_append_of_le_length (by omega), ← hcount, List.drop_length,
            List.nil_append]
        · rw [List.take_append_of_le_length (by omega), ← hcount, List.take_length, hcount]
          exact hdelivered

end Host

/-! ## A read on the bench -/

/-- A bench whose fresh pages hold sevens, with the hasty host loaded and a command sent. -/
@[irreducible]
def sevensBench (index : UInt32) : System Bench.machine HostState (List Answer) :=
  let bench : System Bench.machine HostState (List Answer) :=
    { smallBench with shared := ⟨.initial 0x1F0000000 16 7, .blank⟩ }
  match ((Slot.empty.load hastyHost.config .supplied).bind fun _ =>
      hastyHost.perform (.sendCommand index 0)).run undisturbed 0 bench with
  | .ok (_, latched) => latched
  | .error _ => bench

/-- The buffer that a read came back with, if it succeeded. -/
def readBytes? {machine : Machine ι} :
    Except Halt (Answer × System machine σ ρ) → Option (List UInt8)
  | .ok (.data (.ok ()) bytes, _) => some bytes
  | _ => none

theorem run_of_readBytes? {machine : Machine ι} {ran : Except Halt (Answer × System machine σ ρ)}
    {bytes : List UInt8} (h : readBytes? ran = some bytes) :
    ∃ after, ran = .ok (.data (.ok ()) bytes, after) := by
  unfold readBytes? at h
  split at h
  · cases h
    exact ⟨_, rfl⟩
  · cases h

namespace Host

/-- Two bytes of the staging page arrive in front of the third byte of the buffer. -/
theorem read_two_of_three :
    ∃ after, (hastyHost.perform (.readData 2 [1, 2, 9])).run
        (fun call => hastyHost.performAll [call]) 1 (sevensBench 17) =
          .ok (.data (.ok ()) [7, 7, 9], after)
      ∧ hastyHost.Delivered 2 ((hastyHost.perform (.readData 2 [1, 2, 9])).trace
          (fun call => hastyHost.performAll [call]) 1 (sevensBench 17)) [7, 7] := by
  have hbytes : readBytes? ((hastyHost.perform (.readData 2 [1, 2, 9])).run
      (fun call => hastyHost.performAll [call]) 1 (sevensBench 17)) = some [7, 7, 9] := by
    decide +kernel
  obtain ⟨after, hran⟩ := run_of_readBytes? hbytes
  obtain ⟨outcome, final, hanswer, -, hdelivers⟩ :=
    read_delivers hastyHost (fun call => [call]) 1 2 [1, 2, 9] hran
  cases hanswer
  exact ⟨after, hran, (hdelivers rfl).2.2⟩

end Host

end CardHost
