import CardHost.Proofs.Monitors
import CardHost.Proofs.Reads

/-!
# The accesses to some registers

A rule about a few registers looks at the reads and writes of those registers alone, in order and
with the values that came along.  `accesses` projects the moments of a run to them, and `recording`
is the monitor that remembers them, so that a rule can say what may be asked after what was read and
written so far.  What the monitor has seen in front of a moment is this projection
(`along_recording`).

A program that avoids the registers leaves the record as it is (`keeps_of_avoids`); it is put
together from what the program reads and what it writes.
-/

namespace CardHost

/-- An access to a register, with the value that was read or written. -/
inductive Access where
  | read (register : Register) (value : UInt32)
  | wrote (register : Register) (value : UInt32)
deriving DecidableEq

/-- The register of a list that lies at an offset. -/
def Register.at? (registers : List Register) (offset : Nat) : Option Register :=
  registers.find? fun register => register.offset == offset

theorem Register.at?_offset {registers : List Register} {register : Register}
    (h : register ∈ registers) : at? registers register.offset = some register := by
  unfold at?
  cases hfound : registers.find? fun other => other.offset == register.offset with
  | none =>
      have hnone := List.find?_eq_none.mp hfound register h
      simp at hnone
  | some other =>
      have hsame : other.offset = register.offset := by
        simpa using List.find?_some hfound
      rw [offset_injective hsame]

theorem Register.at?_eq_none {registers : List Register} {offset : Nat}
    (h : ∀ register ∈ registers, offset ≠ register.offset) : at? registers offset = none := by
  apply List.find?_eq_none.mpr
  intro register hmem
  simpa using (h register hmem).symm

/-- The access that a request with its reply makes to some registers of a window. -/
def Request.access? (window : Window) (registers : List Register) :
    (request : Request σ) → request.Reply → Option Access
  | .read w offset, value =>
    if w = window then (Register.at? registers offset).map (.read · value) else none
  | .write w offset value, _ =>
    if w = window then (Register.at? registers offset).map (.wrote · value) else none
  | _, _ => none

/-- A request that leaves some registers alone, in every window. -/
def Request.Avoids (registers : List Register) : Request σ → Prop
  | .read _ offset => ∀ register ∈ registers, offset ≠ register.offset
  | .write _ offset _ => ∀ register ∈ registers, offset ≠ register.offset
  | _ => True

section Requests

variable {window : Window} {registers : List Register} {register : Register}

theorem Request.access?_read (h : register ∈ registers) (value : UInt32) :
    (.read window register.offset : Request σ).access? window registers value =
      some (.read register value) := by
  simp only [access?, if_true, Register.at?_offset h, Option.map_some]

theorem Request.access?_write (h : register ∈ registers) (value : UInt32) :
    (.write window register.offset value : Request σ).access? window registers () =
      some (.wrote register value) := by
  simp only [access?, if_true, Register.at?_offset h, Option.map_some]

theorem Request.Avoids.access? {request : Request σ} (h : request.Avoids registers)
    (reply : request.Reply) : request.access? window registers reply = none := by
  cases request with
  | read w offset =>
      simp only [Request.access?, Register.at?_eq_none h, Option.map_none, ite_self]
  | write w offset value =>
      simp only [Request.access?, Register.at?_eq_none h, Option.map_none, ite_self]
  | _ => rfl

/-- A register outside the list has an offset of its own. -/
theorem Register.offset_ne_of_not_mem (h : register ∉ registers) :
    ∀ other ∈ registers, register.offset ≠ other.offset := by
  rintro other hmem hsame
  exact h (offset_injective hsame ▸ hmem)

theorem Request.avoids_write (h : register ∉ registers) (value : UInt32) :
    (.write window register.offset value : Request σ).Avoids registers :=
  Register.offset_ne_of_not_mem h

theorem Request.Avoids.mono {wider : List Register} {request : Request σ}
    (h : request.Avoids wider) (hsubset : registers ⊆ wider) : request.Avoids registers := by
  cases request with
  | read => exact fun register hmem => h register (hsubset hmem)
  | write => exact fun register hmem => h register (hsubset hmem)
  | _ => trivial

theorem Request.OnMemory.avoids {request : Request σ} (h : request.OnMemory) :
    request.Avoids registers := by
  cases request with
  | read => exact h.elim
  | write => exact h.elim
  | _ => trivial

/-- A request that a lock keeps for itself touches no register. -/
theorem Request.avoids_of_not_inner {request : Request σ} (h : ¬ request.Inner) :
    request.Avoids registers := by
  cases request with
  | read => exact (h trivial).elim
  | write => exact (h trivial).elim
  | _ => trivial

/-- What reads none of the registers and writes none of them avoids them. -/
theorem Request.avoids_of_reading {request : Request σ}
    (reads : request.Reading fun offset => ∀ register ∈ registers, offset ≠ register.offset)
    (writes : request.OnRegisters window fun register _ => register ∉ registers) :
    request.Avoids registers := by
  cases request with
  | read => exact reads
  | write w offset value =>
      obtain ⟨-, register, rfl, hregister⟩ := writes
      exact Register.offset_ne_of_not_mem hregister
  | _ => trivial

end Requests

/-- A program on the registers avoids those that it neither reads nor writes. -/
theorem Prog.Asks.avoids {window : Window} {registers : List Register} {program : Prog σ α}
    (reads : program.Asks
      (Request.Reading fun offset => ∀ register ∈ registers, offset ≠ register.offset))
    (writes : program.Asks (Request.OnRegisters window fun register _ => register ∉ registers)) :
    program.Asks (Request.Avoids registers) :=
  (reads.and writes).mono fun _ h => Request.avoids_of_reading h.1 h.2

/-! ## Recording -/

/-- The monitor that remembers the accesses to some registers of a window.  The rule says what may
be asked after them. -/
abbrev recording (window : Window) (registers : List Register)
    (rule : List Access → Request σ → Prop) : Monitor σ where
  State := List Access
  allows := rule
  next past request reply := past ++ (request.access? window registers reply).toList

section Programs

variable {window : Window} {registers : List Register} {rule : List Access → Request σ → Prop}
  {holds : List Access → Prop} {past : List Access}

/-- A request that avoids the registers leaves the record as it is. -/
theorem keeps_of_avoids {request : Request σ} (h : request.Avoids registers)
    (allowed : ∀ past, holds past → rule past request) :
    (recording window registers rule).Keeps holds request := by
  intro (past : List Access) hpast
  constructor
  · exact allowed past hpast
  · intro reply
    show holds (past ++ (request.access? window registers reply).toList)
    rw [h.access?, Option.toList_none, List.append_nil]
    exact hpast

theorem Window.records_read (offset : Nat) (h : rule past (.read window offset)) :
    (window.read offset : Prog σ UInt32).Heeds (recording window registers rule)
      (fun value later => later = past
        ++ ((.read window offset : Request σ).access? window registers value).toList) past := by
  unfold read
  split
  · exact ⟨h, fun _ => rfl⟩
  · trivial

theorem Window.records_write (offset : Nat) (value : UInt32)
    (logs : ∀ message, rule past (.log message)) (h : rule past (.write window offset value)) :
    (window.write offset value : Prog σ Unit).Heeds (recording window registers rule)
      (fun _ later => later = past
        ++ ((.write window offset value : Request σ).access? window registers ()).toList) past := by
  have hlog : (Prog.log (.registerWrite offset value) : Prog σ Unit).Heeds
      (recording window registers rule) (fun _ later => later = past) past :=
    ⟨logs _, fun _ => List.append_nil past⟩
  apply hlog.bind
  intro _ later hlater
  subst hlater
  split
  · exact ⟨h, fun _ => rfl⟩
  · trivial

/-- Setting bits of a register is a read and a write. -/
theorem Window.records_setBits {register : Register} (hmem : register ∈ registers)
    (bits : UInt32) (reads : rule past (.read window register.offset))
    (logs : ∀ value message, rule (past ++ [.read register value]) (.log message))
    (writes : ∀ value, rule (past ++ [.read register value])
      (.write window register.offset (value ||| bits))) :
    (window.setBits register.offset bits : Prog σ Unit).Heeds (recording window registers rule)
      (fun _ later => ∃ value, later = past
        ++ [.read register value, .wrote register (value ||| bits)]) past := by
  apply (window.records_read register.offset reads).bind
  intro value later hlater
  rw [Request.access?_read hmem, Option.toList_some] at hlater
  subst hlater
  apply (window.records_write register.offset (value ||| bits) (logs value) (writes value)).mono
  intro _ later hlater
  rw [Request.access?_write hmem, Option.toList_some, List.append_assoc] at hlater
  exact ⟨value, hlater⟩

end Programs

/-! ## Runs -/

section Runs

variable {machine : Machine ι}

/-- The accesses of a run to some registers of a window, in order. -/
def accesses (window : Window) (registers : List Register) (moments : List (Moment machine σ ρ)) :
    List Access :=
  moments.filterMap fun moment =>
    moment.request.access? window registers (moment.system.answer moment.request).1

theorem accesses_append (window : Window) (registers : List Register)
    (front back : List (Moment machine σ ρ)) :
    accesses window registers (front ++ back) =
      accesses window registers front ++ accesses window registers back :=
  List.filterMap_append

/-- The record of a run is its accesses. -/
theorem along_recording (window : Window) (registers : List Register)
    (rule : List Access → Request σ → Prop) (past : List Access)
    (moments : List (Moment machine σ ρ)) :
    (recording window registers rule).along past moments =
      past ++ accesses window registers moments := by
  induction moments generalizing past with
  | nil => exact (List.append_nil past).symm
  | cons moment rest ih =>
      show (recording window registers rule).along (past ++ (moment.request.access? window registers
        (moment.system.answer moment.request).1).toList) rest = _
      rw [ih, List.append_assoc]
      cases hone : moment.request.access? window registers
          (moment.system.answer moment.request).1 with
      | none => simp [accesses, hone]
      | some access => simp [accesses, hone]

/-- Each moment of a run follows the rule after the accesses in front of it. -/
theorem Prog.Heeds.rule_of_moments {handler : ι → Prog σ ρ} {depth : Nat} {window : Window}
    {registers : List Register} {rule : List Access → Request σ → Prop}
    {post : α → List Access → Prop} {program : Prog σ α}
    (h : program.Heeds (recording window registers rule) post [])
    {system : System machine σ ρ} {front back : List (Moment machine σ ρ)}
    {moment : Moment machine σ ρ}
    (hmoments : program.moments handler depth system = front ++ moment :: back) :
    rule (accesses window registers front) moment.request := by
  have hallowed := h.of_moments hmoments
  rw [along_recording, List.nil_append] at hallowed
  exact hallowed

end Runs

end CardHost
