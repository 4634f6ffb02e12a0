import CardHost.Proofs.Bench.Blocks
import CardHost.Proofs.Bench.Live
import CardHost.Proofs.Latch

/-!
# A bench that serves a host

Between operations little has to be known of the bench: it answers, its allocator is in order with
the pages of the ring live, and its card stands for some byte array (`Platform.Serves`).  Nothing is
said of registers or memory.

Every request but one keeps this, the start of a command with data to the card (`serves_answer`).
Requests for pages keep it too, granted or not, and so does giving back pages other than those of
the ring (`Serves.allocated`, `Serves.freed`).
-/

namespace CardHost

namespace Bench

/-- The bench between two operations: it answers, its allocator is in order, the pages of the ring
are live and not at the address that ends a chain, and the card stands for a byte array. -/
structure Platform.Serves {allocator : Allocator} (keeper : Keeper allocator) (ring : Ring)
    (bytes : List UInt8) (platform : Platform) : Prop where
  answers : platform.device.Answers
  sound : keeper.Sound platform.device.reach platform.device.pages
  live : keeper.Live platform.device.pages (ring.base.toNat, ring.pages)
  listed : ring.base ≠ 0
  card : ∃ card, platform.device.card = some card ∧ card.contents = bytes

end Bench

/-- A register write that leaves the card as it is: it does not touch the status register and starts
no command with data to the card. -/
def Register.SparesCard (register : Register) (value : UInt32) : Prop :=
  register ≠ .status ∧ (register = .command →
    hasAll value CommandFlags.dataExpected = false ∨ hasAll value CommandFlags.toCard = false)

theorem Register.WritesQuietly.sparesCard {register : Register} {value : UInt32}
    (h : register.WritesQuietly value) : register.SparesCard value :=
  ⟨h.1, fun hcommand => .inl (h.2.2 hcommand)⟩

/-! ## Requests -/

namespace Bench.Platform

variable {allocator : Allocator} {keeper : Keeper allocator} {ring : Ring} {bytes : List UInt8}
  {platform : Platform}

/-- Only the registers changed. -/
theorem Serves.withRegisters (h : platform.Serves keeper ring bytes) {register : Register}
    (hstatus : register ≠ .status) (value : UInt32) :
    (platform.mapRegisters (·.write register.offset value)).Serves keeper ring bytes :=
  ⟨h.answers.write hstatus value, h.sound, h.live, h.listed, h.card⟩

theorem Serves.writeRegister (h : platform.Serves keeper ring bytes) {register : Register}
    {value : UInt32} (hspares : register.SparesCard value) :
    ∃ after, Platform.writeRegister register.offset value platform = (none, after)
      ∧ after.Serves keeper ring bytes := by
  refine ⟨_, writeRegister_eq h.answers.armed register.offset value, ?_⟩
  have hwritten := h.withRegisters hspares.1 value
  split
  · rename_i hstarts
    have hcommand : register = .command := by
      by_cases hcommand : register = .command
      · exact hcommand
      · rw [starts_eq_false hcommand] at hstarts
        cases hstarts
    obtain ⟨card, hcard, hcontents⟩ := hwritten.card
    obtain ⟨hsame, hpages, hreach⟩ := start_card hwritten.answers hcard (hspares.2 hcommand)
    refine ⟨start_answers hwritten.answers hcard value, ?_, ?_, h.listed, card, hsame, hcontents⟩
    · rw [hpages, hreach]
      exact h.sound
    · rw [hpages]
      exact h.live
  · exact hwritten

theorem Serves.stall (h : platform.Serves keeper ring bytes) :
    platform.stall.Serves keeper ring bytes := by
  obtain ⟨device, memory⟩ := platform
  have htimers : device.timers = [] := h.answers.timers
  unfold Platform.stall
  simp only [htimers]
  exact ⟨⟨h.answers.registers, h.answers.cardReady, h.answers.dataReady, h.answers.completion,
    rfl, h.answers.armed⟩, h.sound, h.live, h.listed, h.card⟩

/-- A request that spares the card keeps the bench serving and is not interrupted. -/
theorem serves_answer {window : Window} (hwindow : window.OnBench) {request : Request σ}
    (hrequest : request.OnBoard window Register.SparesCard)
    {system : System (machineWith allocator) σ ρ} (h : Serves keeper ring bytes system.shared) :
    (system.answer request).2.1 = none
      ∧ Serves keeper ring bytes (system.answer request).2.2.shared
      ∧ (system.answer request).2.2.cell = system.cell := by
  have hcell := (answer_inner hrequest.unpaged.inner system).1
  obtain ⟨shared, level, cell, verbosity, journal⟩ := system
  cases request with
  | read w offset =>
      obtain rfl : w = window := hrequest.resolve_left id
      have hread : (machineWith allocator).read w offset shared =
          (shared.device.registers.value offset, shared) := by
        simp only [machineWith, hwindow.supplied, h.answers.registers.read]
        rfl
      simp only [System.answer, hread]
      exact ⟨trivial, h, trivial⟩
  | write w offset value =>
      obtain ⟨rfl, register, rfl, hspares⟩ := hrequest.resolve_left id
      obtain ⟨after, hwrite, hafter⟩ := Serves.writeRegister h hspares
      have hmachine : (machineWith allocator).write w register.offset value shared =
          (none, after) := by
        simp only [machineWith, hwindow.supplied, hwrite]
      simp only [System.answer, hmachine]
      exact ⟨trivial, hafter, trivial⟩
  | stall services microseconds =>
      refine ⟨rfl, ?_, hcell⟩
      cases services with
      | supplied => exact Serves.stall h
      | firmware => exact Serves.stall h
  | store address bytes => exact ⟨rfl, ⟨h.answers, h.sound, h.live, h.listed, h.card⟩, rfl⟩
  | patience => exact ⟨rfl, h, rfl⟩
  | load => exact ⟨rfl, h, rfl⟩
  | shows => exact ⟨rfl, h, rfl⟩
  | log => exact ⟨rfl, h, rfl⟩
  | allocate => exact (hrequest.resolve_left id).elim
  | free => exact (hrequest.resolve_left id).elim
  | raise => exact (hrequest.resolve_left id).elim
  | restore => exact (hrequest.resolve_left id).elim
  | take => exact (hrequest.resolve_left id).elim
  | put => exact (hrequest.resolve_left id).elim

/-- A program that spares the card keeps the bench serving. -/
theorem Serves.ensures {window : Window} (hwindow : window.OnBench) {post : α → Prop}
    {program : Prog σ α} (hobeys : program.Obeys (Request.OnBoard window Register.SparesCard) post)
    (h : platform.Serves keeper ring bytes) :
    program.Ensures (machineWith allocator) platform
      fun value after => post value ∧ Serves keeper ring bytes after := by
  intro ρ handler depth system after value hshared ran
  have hkept := hobeys.runWith_inv
    (fun later => Serves keeper ring bytes later.shared ∧ later.cell = system.cell) ?_
    ⟨hshared ▸ h, rfl⟩ ran
  · exact ⟨⟨hkept.1, hkept.2.1⟩, hkept.2.2⟩
  · intro request later hrequest hlater
    obtain ⟨hnone, hserves, hcell⟩ := serves_answer hwindow hrequest hlater.1
    rcases hanswer : (later.answer request).2 with ⟨_ | call, next⟩
    · rw [hanswer] at hserves hcell
      exact ⟨hserves, hcell.trans hlater.2⟩
    · rw [hanswer] at hnone
      cases hnone

/-! ## Pages -/

/-- Of the bench only what the allocator keeps changed. -/
theorem Serves.repaged {after : Platform} (h : platform.Serves keeper ring bytes)
    (hrepaged : platform.Repaged after)
    (hsound : keeper.Sound platform.device.reach after.device.pages)
    (hlive : keeper.Live after.device.pages (ring.base.toNat, ring.pages)) :
    after.Serves keeper ring bytes := by
  obtain ⟨device, memory⟩ := after
  obtain ⟨store, rfl⟩ := hrepaged
  exact ⟨⟨h.answers.registers, h.answers.cardReady, h.answers.dataReady, h.answers.completion,
    h.answers.timers, h.answers.armed⟩, hsound, hlive, h.listed, h.card⟩

/-- Granted or not, a request for pages leaves the ring its own. -/
theorem Serves.allocated (h : platform.Serves keeper ring bytes) (services : Services)
    (count : Nat) : (allocator.allocate services count platform).2.Serves keeper ring bytes :=
  h.repaged (keeper.allocate_repaged services count platform)
    (keeper.allocate_sound services count platform h.sound)
    (keeper.allocate_live services count platform _ h.sound h.live)

/-- Pages that were granted are none of the ring's and apart from them. -/
theorem Serves.granted (h : platform.Serves keeper ring bytes) {services : Services} {count : Nat}
    {grant : Grant} {granted : Platform}
    (allocates : allocator.allocate services count platform = (grant, granted))
    (success : grant.status = .success) :
    granted.Serves keeper ring bytes
      ∧ granted.device.reach.Hosts (grant.address.toNat, count)
      ∧ (ring.base.toNat, ring.pages) ≠ (grant.address.toNat, count)
      ∧ Apart (ring.base.toNat, ring.pages) (grant.address.toNat, count) := by
  have hgranted := h.allocated services count
  have hlive := keeper.granted services count platform h.sound (by rwa [allocates])
  rw [allocates] at hgranted hlive
  obtain ⟨hnow, hbefore⟩ := hlive
  have hother : (ring.base.toNat, ring.pages) ≠ (grant.address.toNat, count) :=
    fun hsame => hbefore (hsame ▸ h.live)
  exact ⟨hgranted, keeper.hosts hgranted.sound hnow, hother,
    keeper.apart hgranted.sound hgranted.live hnow hother⟩

theorem Serves.freed (h : platform.Serves keeper ring bytes) (services : Services)
    {address : UInt64} {count : Nat}
    (hother : (ring.base.toNat, ring.pages) ≠ (address.toNat, count)) :
    (allocator.free services address count platform).2.Serves keeper ring bytes :=
  h.repaged (keeper.free_repaged services address count platform)
    (keeper.free_sound services address count platform h.sound)
    (keeper.free_live services address count platform _ h.sound h.live hother)

end Bench.Platform

end CardHost
