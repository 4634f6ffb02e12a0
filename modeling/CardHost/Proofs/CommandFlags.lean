import CardHost.Proofs.Issuance

/-!
# The flags of a command word

A command word carries the low six bits of a command index, and the flags that the table has for
the index.  Below 64 the two belong together.  From 64 on they need not: the table is asked for the
whole index and answers with a checked response, whatever command the six bits name.

`Host.words_carry_own_flags` says when the flags of a word are those of the index it carries, and
that this is the word a host issues; `aliased_read_issued` is a read that goes out without data.
-/

namespace CardHost

/-- The flags of a word are those of the command index it carries. -/
def CommandWord.OwnFlags (word : CommandWord) (argument : UInt32) : Prop :=
  word.flags =
    commandFlags word.index argument ||| CommandFlags.useHold ||| CommandFlags.start

/-! ## The table -/

/-- The flag sets of the table. -/
def CommandFlags.table : List UInt32 :=
  [0, sendInit, responseExpect, responseExpect ||| longResponse ||| checkCrc ||| sendInit, checked,
    checked ||| sendInit, checked ||| longResponse, checked ||| stopAbort,
    checked ||| dataExpected, afterData, reading, writing]

theorem commandFlags_mem (index argument : UInt32) :
    commandFlags index argument ∈ CommandFlags.table := by
  unfold commandFlags
  split <;> first | decide | (split <;> decide)

/-- A check that the table passes is passed by the flags of every command. -/
theorem commandFlags_of_all (check : UInt32 → Bool) (h : CommandFlags.table.all check = true)
    (index argument : UInt32) : check (commandFlags index argument) = true :=
  List.all_eq_true.mp h _ (commandFlags_mem index argument)

/-- From 64 on every index has a checked response. -/
theorem commandFlags_of_le {index : UInt32} (h : 64 ≤ index.toNat) (argument : UInt32) :
    commandFlags index argument = CommandFlags.checked := by
  unfold commandFlags
  split <;> first | rfl | omega

/-- The hold and start bits are put beside the table's flags, over none of them. -/
theorem without_issued (index argument : UInt32) :
    without (commandFlags index argument ||| CommandFlags.useHold ||| CommandFlags.start)
      (CommandFlags.useHold ||| CommandFlags.start) = commandFlags index argument := by
  have hchecked := commandFlags_of_all
    (fun flags => without (flags ||| CommandFlags.useHold ||| CommandFlags.start)
      (CommandFlags.useHold ||| CommandFlags.start) == flags) (by decide) index argument
  exact beq_iff_eq.mp hchecked

theorem CommandIndex.and_mask (index : UInt32) : index &&& mask = index % 64 := by
  apply UInt32.toNat_inj.mp
  rw [UInt32.toNat_and, UInt32.toNat_mod]
  exact Nat.and_two_pow_sub_one_eq_mod index.toNat 6

namespace CommandWord

/-- A word carries the low six bits of its command index. -/
theorem index_ofCommand (index argument : UInt32) :
    (ofCommand index argument).index = index % 64 := by
  have hchecked := commandFlags_of_all
    (fun flags => (flags ||| CommandFlags.useHold ||| CommandFlags.start) &&& CommandIndex.mask
      == 0) (by decide) index argument
  unfold CommandWord.index ofCommand
  rw [or_and_distrib, beq_iff_eq.mp hchecked, UInt32.and_assoc, UInt32.and_self, UInt32.zero_or,
    CommandIndex.and_mask]

/-- The flags of a word are those of the table with the hold and start bits. -/
theorem flags_ofCommand (index argument : UInt32) :
    (ofCommand index argument).flags =
      commandFlags index argument ||| CommandFlags.useHold ||| CommandFlags.start := by
  have hchecked := commandFlags_of_all
    (fun flags => (flags ||| CommandFlags.useHold ||| CommandFlags.start)
      &&& CommandFlags.layout.known == flags ||| CommandFlags.useHold ||| CommandFlags.start)
    (by decide) index argument
  have hindex : index &&& CommandIndex.mask &&& CommandFlags.layout.known = 0 := by
    rw [UInt32.and_assoc, show CommandIndex.mask &&& CommandFlags.layout.known = 0 by decide,
      UInt32.and_zero]
  unfold flags ofCommand Layout.truncate
  rw [or_and_distrib, beq_iff_eq.mp hchecked, hindex, UInt32.or_zero]

/-- The flags of a word are its own where the table is asked for the index it carries, or answers
the same. -/
theorem ownFlags_iff (index argument : UInt32) :
    (ofCommand index argument).OwnFlags argument
      ↔ index < 64 ∨ commandFlags (index % 64) argument = CommandFlags.checked := by
  unfold OwnFlags
  rw [flags_ofCommand, index_ofCommand]
  by_cases hsmall : index < 64
  · have hindex : index % 64 = index := by
      apply UInt32.toNat_inj.mp
      rw [UInt32.toNat_mod]
      exact Nat.mod_eq_of_lt (UInt32.lt_iff_toNat_lt.mp hsmall)
    simp [hindex, hsmall]
  · have hlarge : 64 ≤ index.toNat := UInt32.le_iff_toNat_le.mp (UInt32.not_lt.mp hsmall)
    rw [commandFlags_of_le hlarge]
    constructor
    · intro heq
      have hsame := congrArg (without · (CommandFlags.useHold ||| CommandFlags.start)) heq
      rw [← commandFlags_of_le hlarge argument] at hsame ⊢
      rw [without_issued, without_issued] at hsame
      exact .inr hsame.symm
    · rintro (hlt | heq)
      · exact (hsmall hlt).elim
      · rw [heq]

/-- Two commands that share their low six bits share their word where they share their flags. -/
theorem ofCommand_eq_iff {index other : UInt32} (h : other % 64 = index % 64)
    (argument : UInt32) :
    ofCommand other argument = ofCommand index argument
      ↔ commandFlags other argument = commandFlags index argument := by
  constructor
  · intro heq
    rw [← without_issued other, ← flags_ofCommand, heq, flags_ofCommand, without_issued]
  · intro heq
    have hindex : other &&& CommandIndex.mask = index &&& CommandIndex.mask := by
      rw [CommandIndex.and_mask, CommandIndex.and_mask, h]
    unfold ofCommand
    rw [heq, hindex]

end CommandWord

/-! ## The command on its way -/

namespace Host

/-- A command is posted as its word, and only if it moves no data. -/
theorem asks_sendCommand (host : Host) (index argument : UInt32) :
    (host.sendCommand index argument).Asks fun request => request.Inner →
      request.OnRegisters host.window fun register value => register = .command →
        value = (CommandWord.ofCommand index argument).bits
          ∧ (CommandWord.ofCommand index argument).isData = false := by
  rw [sendCommand_eq]
  apply Lock.asks_holding
  · exact fun request outer inner => (outer inner).elim
  · exact fun message _ => trivial
  intro state
  cases hdata : (CommandWord.ofCommand index argument).isData with
  | true =>
      obtain ⟨remarks, hbody⟩ := host.commandBody_latching hdata state
      rw [hbody]
      exact (asks_logAll remarks fun _ _ => trivial).bind fun _ => Prog.asks_done _
  | false =>
      obtain ⟨remarks, hbody⟩ := host.commandBody_issuing hdata state
      rw [hbody]
      apply (asks_logAll remarks fun _ _ => trivial).bind
      intro _
      have hissue : (host.issue (.ofCommand index argument) argument : Action HostState Unit).Asks
          (Request.OnRegisters host.window fun register value => register = .command →
            value = (CommandWord.ofCommand index argument).bits ∧ false = false) := by
        apply asks_issue
        · exact fun h => by cases h
        · exact fun h => by cases h
        · exact fun _ => ⟨by rw [CommandWord.withStart_ofCommand], rfl⟩
        · exact fun h => by cases h
      exact Prog.Asks.bind (hissue.mono fun _ h _ => h) fun _ => Prog.asks_done _

variable {machine : Machine ι}

/-- A command carries the low six bits of its index and the flags of the whole index.  They are the
flags of the command it carries for an index below 64; from 64 on they are where that command has a
checked response.  Sending it writes this word to the controller, and only if it moves no data. -/
theorem words_carry_own_flags (host : Host) (handler : ι → Prog HostState ρ) (depth : Nat)
    (index argument : UInt32) (system : System machine HostState ρ) :
    (CommandWord.ofCommand index argument).index = index % 64
      ∧ (CommandWord.ofCommand index argument).flags =
        commandFlags index argument ||| CommandFlags.useHold ||| CommandFlags.start
      ∧ ((CommandWord.ofCommand index argument).OwnFlags argument
        ↔ index < 64 ∨ commandFlags (index % 64) argument = CommandFlags.checked)
      ∧ (∀ other : UInt32, other % 64 = index % 64 →
        (CommandWord.ofCommand other argument = CommandWord.ofCommand index argument
          ↔ commandFlags other argument = commandFlags index argument))
      ∧ ∀ moment ∈ (host.perform (.sendCommand index argument)).moments handler depth system,
        ∀ value, moment.request = .write host.window Register.command.offset value →
          value = (CommandWord.ofCommand index argument).bits
            ∧ (CommandWord.ofCommand index argument).isData = false := by
  refine ⟨CommandWord.index_ofCommand index argument, CommandWord.flags_ofCommand index argument,
    CommandWord.ownFlags_iff index argument, fun other h => CommandWord.ofCommand_eq_iff h argument,
    ?_⟩
  intro moment hmem value hrequest
  have hsend : moment ∈ (host.sendCommand index argument).moments handler depth system := by
    rwa [← Prog.moments_bind_done handler depth _ Answer.outcome]
  have hasked := (host.asks_sendCommand index argument).of_mem_moments handler depth system moment
    hsend
  rw [hrequest] at hasked
  obtain ⟨-, register, hoffset, hwrites⟩ := hasked trivial
  exact hwrites (Register.offset_injective hoffset.symm)

/-! ## A command with other flags -/

/-- Whether a request writes a command that has the index of a data command and no data. -/
def issuesDataless : Request σ → Bool
  | .write _ offset value =>
    offset == Register.command.offset
      && (CommandWord.ofCommand (value &&& CommandIndex.mask) 0).isData
      && !(CommandWord.mk value).isData
  | _ => false

/-- Index 81 is 17 in six bits, a read of one block.  Its word has the flags of a command without
data: nothing is latched, and the host sends the controller a read without data. -/
theorem aliased_read_issued :
    (CommandWord.ofCommand 81 0).index = 17
      ∧ ¬ (CommandWord.ofCommand 81 0).OwnFlags 0
      ∧ CommandWord.ofCommand 81 0 ≠ CommandWord.ofCommand 17 0
      ∧ ((hastyHost.perform (.sendCommand 81 0)).moments undisturbed 0 hastyStart).any
        (fun moment => issuesDataless moment.request) = true := by
  refine ⟨by decide, ?_, by decide, by decide +kernel⟩
  rw [CommandWord.ownFlags_iff]
  decide

end Host

end CardHost
