import CardHost.Proofs.Accesses

/-!
# Courses along a script

An operation goes through its registers in a fixed order: it writes some, changes bits of some, and
samples some until the value read decides.  A `Script` lists these steps as data.  What the
registers answer decides how far an operation gets and how often it samples, so one script has many
courses; `Script.Course` are the accesses of each, with the verdict it ends with.  There is no
verdict where the run halts, which it does at a register without an address, at a wait that never
ends, and at a write whose interruption halts.

Two things are read off a script.  Every access of a course belongs to a step, and the steps
before it are done (`Script.Course.at_access`); so what a script says about the steps in front of a
step, a course says about the accesses in front of an access.  And a course that reached the end of
a part of its script did so in one way (`Script.Course.unique`).
-/

namespace CardHost

/-- How an operation ended, without its value. -/
abbrev Verdict := Except HostError Unit

/-- The verdict of an outcome. -/
def verdict (outcome : Except HostError α) : Verdict :=
  outcome.map fun _ => ()

/-- Reads of one register, by the values read. -/
def Access.reads (register : Register) (values : List UInt32) : List Access :=
  values.map (.read register)

/-- The register that is accessed. -/
def Access.register : Access → Register
  | read register _ => register
  | wrote register _ => register

/-- A register of the window has an address. -/
def Window.Reaches (window : Window) (register : Register) : Prop :=
  window.base.toNat + register.offset < wordSpan

instance Window.decidableReaches (window : Window) (register : Register) :
    Decidable (window.Reaches register) :=
  inferInstanceAs (Decidable (window.base.toNat + register.offset < wordSpan))

/-! ## Scripts -/

/-- One step on the registers. -/
inductive Step where
  /-- Writes a value. -/
  | write (register : Register) (value : UInt32)
  /-- Reads a value and writes back what becomes of it. -/
  | change (register : Register) (update : UInt32 → UInt32)
  /-- Reads until a value decides; a bound limits how often, and the step fails if no value read
  within it does. -/
  | sample (register : Register) (judge : UInt32 → Option Verdict) (limit : Option Nat)
      (late : HostError)

namespace Step

/-- The register of a step. -/
def register : Step → Register
  | write register _ => register
  | change register _ => register
  | sample register .. => register

/-- The register that a step writes. -/
def writes? : Step → Option Register
  | write register _ => some register
  | change register _ => some register
  | sample .. => none

/-- The register that a step reads. -/
def reads? : Step → Option Register
  | write .. => none
  | change register _ => some register
  | sample register .. => some register

theorem register_of_writes {step : Step} {register : Register}
    (h : step.writes? = some register) : step.register = register := by
  cases step with
  | write => exact Option.some.inj h
  | change => exact Option.some.inj h
  | sample => cases h

/-- The accesses that a step makes in a window, with its verdict.  `halts` says whether a write may
halt. -/
inductive Course (window : Window) (halts : Prop) : Step → List Access → Option Verdict → Prop
  | unreached {step : Step} (h : ¬ window.Reaches step.register) : Course window halts step [] none
  | wrote {register : Register} {value : UInt32} :
      Course window halts (.write register value) [.wrote register value] (some (.ok ()))
  | cut {register : Register} {value : UInt32} (halting : halts) :
      Course window halts (.write register value) [.wrote register value] none
  | changed {register : Register} {update : UInt32 → UInt32} (old : UInt32) :
      Course window halts (.change register update)
        [.read register old, .wrote register (update old)] (some (.ok ()))
  | cutChange {register : Register} {update : UInt32 → UInt32} (old : UInt32) (halting : halts) :
      Course window halts (.change register update)
        [.read register old, .wrote register (update old)] none
  | decided {register : Register} {judge : UInt32 → Option Verdict} {limit : Option Nat}
      {late : HostError} (early : List UInt32) (last : UInt32) (ended : Verdict)
      (undecided : ∀ value ∈ early, judge value = none)
      (within : ∀ bound, limit = some bound → early.length < bound)
      (decides : judge last = some ended) :
      Course window halts (.sample register judge limit late)
        (Access.reads register early ++ [.read register last]) (some ended)
  | late {register : Register} {judge : UInt32 → Option Verdict} {limit : Option Nat}
      {late : HostError} (values : List UInt32) (undecided : ∀ value ∈ values, judge value = none)
      (exhausted : limit = some values.length) :
      Course window halts (.sample register judge limit late) (Access.reads register values)
        (some (.error late))
  | stuck {register : Register} {judge : UInt32 → Option Verdict} {limit : Option Nat}
      {late : HostError} (values : List UInt32) (undecided : ∀ value ∈ values, judge value = none)
      (unbounded : limit = none) :
      Course window halts (.sample register judge limit late) (Access.reads register values) none

variable {window : Window} {halts : Prop}

/-- One more value that does not decide. -/
theorem Course.again {register : Register} {judge : UInt32 → Option Verdict}
    {limit : Option Nat} {late : HostError} {taken : List Access} {ended : Option Verdict}
    (h : Course window halts (.sample register judge limit late) taken ended)
    (reached : window.Reaches register) {value : UInt32} (undecided : judge value = none) :
    Course window halts (.sample register judge (limit.map (· + 1)) late)
      (.read register value :: taken) ended := by
  have hcons {values : List UInt32} (hvalues : ∀ value ∈ values, judge value = none) :
      ∀ other ∈ value :: values, judge other = none :=
    List.forall_mem_cons.mpr ⟨undecided, hvalues⟩
  cases h with
  | unreached h => exact (h reached).elim
  | decided early last ended hearly within decides =>
      refine .decided (value :: early) last ended (hcons hearly) ?_ decides
      intro bound hbound
      obtain ⟨before, hbefore, rfl⟩ := Option.map_eq_some_iff.mp hbound
      exact Nat.succ_lt_succ (within before hbefore)
  | late values hvalues exhausted =>
      exact .late (value :: values) (hcons hvalues) (by rw [exhausted]; rfl)
  | stuck values hvalues unbounded =>
      exact .stuck (value :: values) (hcons hvalues) (by rw [unbounded]; rfl)

/-- A step makes an access after some accesses of its own. -/
inductive Makes : Step → List Access → Access → Prop
  | write {register : Register} {value : UInt32} :
      Makes (.write register value) [] (.wrote register value)
  | changeRead {register : Register} {update : UInt32 → UInt32} (old : UInt32) :
      Makes (.change register update) [] (.read register old)
  | changeWrite {register : Register} {update : UInt32 → UInt32} (old : UInt32) :
      Makes (.change register update) [.read register old] (.wrote register (update old))
  | sample {register : Register} {judge : UInt32 → Option Verdict} {limit : Option Nat}
      {late : HostError} (early : List UInt32) (value : UInt32)
      (undecided : ∀ value ∈ early, judge value = none) :
      Makes (.sample register judge limit late) (Access.reads register early)
        (.read register value)

theorem Makes.register {step : Step} {early : List Access} {access : Access}
    (h : step.Makes early access) : access.register = step.register := by
  cases h <;> rfl

/-- A step writes the register that it is a write of. -/
theorem Makes.writes {step : Step} {early : List Access} {register : Register} {value : UInt32}
    (h : step.Makes early (.wrote register value)) : step.writes? = some register := by
  cases h <;> rfl

theorem Makes.reads {step : Step} {early : List Access} {register : Register} {value : UInt32}
    (h : step.Makes early (.read register value)) : step.reads? = some register := by
  cases h <;> rfl

/-- What a step does before an access is on its register too. -/
theorem Makes.early_register {step : Step} {early : List Access} {access : Access}
    (h : step.Makes early access) : ∀ before ∈ early, before.register = step.register := by
  intro before hmem
  cases h with
  | write => cases hmem
  | changeRead => cases hmem
  | changeWrite old =>
      rw [List.mem_singleton] at hmem
      subst hmem
      rfl
  | sample early value undecided =>
      obtain ⟨sampled, -, rfl⟩ := List.mem_map.mp hmem
      rfl

/-- Every access of a step is one that it makes. -/
theorem Course.makes {step : Step} {taken front back : List Access} {access : Access}
    {ended : Option Verdict} (h : Course window halts step taken ended)
    (split : taken = front ++ access :: back) : step.Makes front access := by
  have hreads {register : Register} {judge : UInt32 → Option Verdict} {limit : Option Nat}
      {late : HostError} {values : List UInt32} (hvalues : ∀ value ∈ values, judge value = none)
      {rest : List Access} (hsplit : Access.reads register values = front ++ access :: rest) :
      (sample register judge limit late).Makes front access := by
    obtain ⟨before, others, rfl, hbefore, hrest⟩ := List.map_eq_append_iff.mp hsplit
    obtain ⟨value, after, rfl, hvalue, -⟩ := List.map_eq_cons_iff.mp hrest
    rw [← hbefore, ← hvalue]
    exact .sample before value fun other hmem => hvalues other (List.mem_append_left _ hmem)
  have hwrite {register : Register} {value : UInt32}
      (hsplit : [.wrote register value] = front ++ access :: back) :
      (write register value).Makes front access := by
    obtain ⟨rfl, hone⟩ | ⟨-, hnone⟩ := List.append_eq_singleton_iff.mp hsplit.symm
    · cases hone
      exact .write
    · cases hnone
  have hchange {register : Register} {update : UInt32 → UInt32} {old : UInt32}
      (hsplit : [.read register old, .wrote register (update old)] = front ++ access :: back) :
      (change register update).Makes front access := by
    cases front with
    | nil =>
        cases hsplit
        exact .changeRead old
    | cons first front =>
        obtain ⟨rfl, hrest⟩ := List.cons_eq_cons.mp hsplit
        obtain ⟨rfl, hone⟩ | ⟨-, hnone⟩ := List.append_eq_singleton_iff.mp hrest.symm
        · cases hone
          exact .changeWrite old
        · cases hnone
  cases h with
  | unreached => simp at split
  | wrote => exact hwrite split
  | cut => exact hwrite split
  | changed => exact hchange split
  | cutChange => exact hchange split
  | decided early last ended undecided within decides =>
      rcases split_append (split : Access.reads _ early ++ [_] = _) with
        ⟨between, rfl, hlast⟩ | ⟨between, hearly, -⟩
      · obtain ⟨rfl, hone⟩ | ⟨-, hnone⟩ := List.append_eq_singleton_iff.mp hlast.symm
        · cases hone
          rw [List.append_nil]
          exact .sample early last undecided
        · cases hnone
      · exact hreads undecided hearly
  | late values undecided => exact hreads undecided split
  | stuck values undecided => exact hreads undecided split

/-- What is read before a value that decides is all that is read without one. -/
theorem reads_lead {register : Register} {judge : UInt32 → Option Verdict}
    {early values : List UInt32} {last : UInt32} {back rest : List Access}
    (undecided : ∀ value ∈ values, judge value = none) (decides : judge last ≠ none)
    (same : Access.reads register early ++ .read register last :: back =
      Access.reads register values ++ rest) :
    Access.reads register values <+: Access.reads register early := by
  rcases List.append_eq_append_iff.mp same with ⟨between, hvalues, hback⟩ | ⟨between, hearly, -⟩
  · cases between with
    | nil =>
        exact ⟨[], by rw [List.append_nil, hvalues, List.append_nil]⟩
    | cons first between =>
        cases hback
        have hmem : .read register last ∈ Access.reads register values := by
          rw [hvalues]
          simp
        obtain ⟨value, hvalue, hsame⟩ := List.mem_map.mp hmem
        cases hsame
        exact (decides (undecided last hvalue)).elim
  · exact ⟨between, hearly.symm⟩

/-- A step that was passed makes the same accesses wherever it is passed, and a course that halts at
it makes the first of them. -/
theorem Course.unique {step : Step} {taken other back rest : List Access} {ended : Option Verdict}
    (h : Course window halts step taken (some (.ok ())))
    (h' : Course window halts step other ended) (same : taken ++ back = other ++ rest) :
    (other = taken ∧ ended = some (.ok ())) ∨ (ended ≠ some (.ok ()) ∧ other <+: taken) := by
  have hhalted {part : List Access} (hpart : part <+: taken) :
      (part = taken ∧ none = some (.ok () : Verdict))
        ∨ ((none : Option Verdict) ≠ some (.ok ()) ∧ part <+: taken) :=
    .inr ⟨by simp, hpart⟩
  cases h with
  | wrote =>
      cases h' with
      | unreached => exact hhalted List.nil_prefix
      | wrote => exact .inl ⟨rfl, rfl⟩
      | cut => exact hhalted List.prefix_rfl
  | changed old =>
      cases h' with
      | unreached => exact hhalted List.nil_prefix
      | changed old' =>
          cases same
          exact .inl ⟨rfl, rfl⟩
      | cutChange old' =>
          cases same
          exact hhalted List.prefix_rfl
  | decided early last _ undecided within decides =>
      rw [List.append_assoc, List.singleton_append] at same
      cases h' with
      | unreached => exact hhalted List.nil_prefix
      | decided early' last' ended' undecided' _ decides' =>
          rw [List.append_assoc, List.singleton_append] at same
          have hpart := reads_lead undecided' (by rw [decides]; simp) same
          have hless := reads_lead undecided (by rw [decides']; simp) same.symm
          have hearly := hpart.eq_of_length_le hless.length_le
          rw [hearly] at same ⊢
          cases List.append_cancel_left same
          rw [decides] at decides'
          cases decides'
          exact .inl ⟨rfl, rfl⟩
      | late values undecided' exhausted =>
          have hpart := (reads_lead undecided' (by rw [decides]; simp) same).length_le
          have hwithin := within _ exhausted
          simp only [Access.reads, List.length_map] at hpart
          omega
      | stuck values undecided' =>
          have hpart := reads_lead undecided' (by rw [decides]; simp) same
          exact hhalted (hpart.trans (List.prefix_append _ _))

/-- A write that was passed wrote. -/
theorem Course.of_write_passed {register : Register} {value : UInt32} {taken : List Access}
    (h : Course window halts (.write register value) taken (some (.ok ()))) :
    taken = [.wrote register value] := by
  cases h with
  | wrote => rfl

/-- A change that was passed read a value and wrote what became of it. -/
theorem Course.of_change_passed {register : Register} {update : UInt32 → UInt32}
    {taken : List Access}
    (h : Course window halts (.change register update) taken (some (.ok ()))) :
    ∃ old, taken = [.read register old, .wrote register (update old)] := by
  cases h with
  | changed old => exact ⟨old, rfl⟩

/-- Samples that are as many as the limit and do not decide are all that a step makes. -/
theorem Course.of_late {register : Register} {judge : UInt32 → Option Verdict} {late : HostError}
    {values : List UInt32} {taken back rest : List Access} {ended : Option Verdict}
    (h : Course window halts (.sample register judge (some values.length) late) taken ended)
    (undecided : ∀ value ∈ values, judge value = none)
    (same : taken ++ back = Access.reads register values ++ rest)
    (reached : ended = none → taken ≠ []) :
    taken = Access.reads register values ∧ ended = some (.error late) := by
  cases h with
  | unreached => exact (reached rfl rfl).elim
  | decided early last _ _ within decides =>
      rw [List.append_assoc, List.singleton_append] at same
      have hpart := (reads_lead undecided (by rw [decides]; simp) same).length_le
      have hwithin := within _ rfl
      simp only [Access.reads, List.length_map] at hpart
      omega
  | late others _ exhausted =>
      have hlength : (Access.reads register others).length =
          (Access.reads register values).length := by
        simpa [Access.reads] using (Option.some.inj exhausted).symm
      exact ⟨(List.append_inj same hlength).1, rfl⟩
  | stuck _ _ unbounded => cases unbounded

end Step

/-- The steps of an operation in order. -/
abbrev Script := List Step

namespace Script

/-- The accesses that an operation makes along a script, with its verdict: the steps before the last
were passed, and the last one failed, halted or ended the script. -/
inductive Course (window : Window) (halts : Prop) : Script → List Access → Option Verdict → Prop
  | done : Course window halts [] [] (some (.ok ()))
  | next {step : Step} {rest : Script} {first later : List Access} {ended : Option Verdict}
      (passed : step.Course window halts first (some (.ok ())))
      (further : Course window halts rest later ended) :
      Course window halts (step :: rest) (first ++ later) ended
  | stopped {step : Step} {rest : Script} {taken : List Access} {ended : Option Verdict}
      (last : step.Course window halts taken ended) (unpassed : ended ≠ some (.ok ())) :
      Course window halts (step :: rest) taken ended

variable {window : Window} {halts : Prop} {front back : Script} {taken later : List Access}
  {ended : Option Verdict}

namespace Course

theorem of_nil (h : Course window halts [] taken ended) : taken = [] ∧ ended = some (.ok ()) := by
  cases h
  exact ⟨rfl, rfl⟩

/-- A step as a script. -/
theorem of_step {step : Step} (h : step.Course window halts taken ended) :
    Course window halts [step] taken ended := by
  by_cases hpassed : ended = some (.ok ())
  · subst hpassed
    have hnext := Course.next h .done
    rwa [List.append_nil] at hnext
  · exact .stopped h hpassed

theorem of_cons_passed {step : Step}
    (h : Course window halts (step :: back) taken (some (.ok ()))) :
    ∃ first later, taken = first ++ later ∧ step.Course window halts first (some (.ok ()))
      ∧ Course window halts back later (some (.ok ())) := by
  cases h with
  | next passed further => exact ⟨_, _, rfl, passed, further⟩
  | stopped _ unpassed => exact (unpassed rfl).elim

/-- The courses of a script of one step are those of the step. -/
theorem of_singleton {step : Step} (h : Course window halts [step] taken ended) :
    step.Course window halts taken ended := by
  cases h with
  | next passed further =>
      cases further
      rwa [List.append_nil]
  | stopped last => exact last

/-- Courses of two scripts make one of both, where the first is passed. -/
theorem append (h : Course window halts front taken (some (.ok ())))
    (further : Course window halts back later ended) :
    Course window halts (front ++ back) (taken ++ later) ended := by
  induction front generalizing taken with
  | nil =>
      cases h
      exact further
  | cons step front ih =>
      obtain ⟨first, between, rfl, hpassed, hfront⟩ := of_cons_passed h
      rw [List.append_assoc]
      exact .next hpassed (ih hfront)

theorem append_unpassed (h : Course window halts front taken ended)
    (unpassed : ended ≠ some (.ok ())) : Course window halts (front ++ back) taken ended := by
  induction h with
  | done => exact (unpassed rfl).elim
  | next passed _ ih => exact .next passed (ih unpassed)
  | stopped last => exact .stopped last unpassed

/-- A course of two scripts one after the other stops in the first, or passes it and goes through
the second. -/
theorem of_append (h : Course window halts (front ++ back) taken ended) :
    (Course window halts front taken ended ∧ ended ≠ some (.ok ()))
      ∨ ∃ first later, taken = first ++ later ∧ Course window halts front first (some (.ok ()))
          ∧ Course window halts back later ended := by
  induction front generalizing taken with
  | nil => exact .inr ⟨[], taken, rfl, .done, h⟩
  | cons step front ih =>
      cases h with
      | next passed further =>
          rcases ih further with ⟨hstopped, hunpassed⟩ | ⟨first, later, rfl, hfront, hback⟩
          · exact .inl ⟨.next passed hstopped, hunpassed⟩
          · exact .inr ⟨_, later, (List.append_assoc _ _ _).symm, .next passed hfront, hback⟩
      | stopped last unpassed => exact .inl ⟨.stopped last unpassed, unpassed⟩

theorem of_append_passed (h : Course window halts (front ++ back) taken (some (.ok ()))) :
    ∃ first later, taken = first ++ later ∧ Course window halts front first (some (.ok ()))
      ∧ Course window halts back later (some (.ok ())) := by
  rcases of_append h with ⟨-, hunpassed⟩ | hpassed
  · exact (hunpassed rfl).elim
  · exact hpassed

/-- Every access is made by a step, and what came before it passed the steps before that one. -/
theorem at_access {script : Script} (h : Course window halts script taken ended)
    {before after : List Access} {access : Access} (split : taken = before ++ access :: after) :
    ∃ done step rest passed early, script = done ++ step :: rest
      ∧ Course window halts done passed (some (.ok ())) ∧ before = passed ++ early
      ∧ step.Makes early access := by
  induction h generalizing before with
  | done => simp at split
  | @next step rest _ _ _ passed further ih =>
      rcases split_append split with ⟨between, rfl, hlater⟩ | ⟨between, hfirst, -⟩
      · obtain ⟨done, step', rest', through, early, rfl, hdone, rfl, hmakes⟩ := ih hlater
        exact ⟨step :: done, step', rest', _, early, rfl, .next passed hdone,
          (List.append_assoc _ _ _).symm, hmakes⟩
      · exact ⟨[], step, rest, [], before, rfl, .done, rfl, passed.makes hfirst⟩
  | @stopped step rest _ _ last unpassed =>
      exact ⟨[], step, rest, [], before, rfl, .done, rfl, last.makes split⟩

/-- Every access belongs to a step. -/
theorem of_mem {script : Script} (h : Course window halts script taken ended) {access : Access}
    (hmem : access ∈ taken) :
    ∃ step ∈ script, ∃ early, step.Makes early access := by
  obtain ⟨before, after, hsplit⟩ := List.append_of_mem hmem
  obtain ⟨done, step, rest, passed, early, rfl, -, -, hmakes⟩ := h.at_access hsplit
  exact ⟨step, by simp, early, hmakes⟩

/-- A script that was passed was passed in one way: another course with accesses in common is the
same one, or halts on the way. -/
theorem unique {script : Script} {other back rest : List Access}
    (h : Course window halts script taken (some (.ok ())))
    (h' : Course window halts script other ended) (same : taken ++ back = other ++ rest) :
    (other = taken ∧ ended = some (.ok ())) ∨ (ended ≠ some (.ok ()) ∧ other <+: taken) := by
  induction script generalizing taken other with
  | nil =>
      cases h
      cases h'
      exact .inl ⟨rfl, rfl⟩
  | cons step script ih =>
      obtain ⟨first, later, rfl, hfirst, hlater⟩ := of_cons_passed h
      cases h' with
      | @next _ _ first' later' _ passed further =>
          rw [List.append_assoc, List.append_assoc] at same
          rcases hfirst.unique passed same with ⟨rfl, -⟩ | ⟨hunpassed, -⟩
          · rcases ih hlater further (List.append_cancel_left same) with
              ⟨rfl, hended⟩ | ⟨hunpassed, hpart⟩
            · exact .inl ⟨rfl, hended⟩
            · exact .inr ⟨hunpassed, (List.prefix_append_right_inj _).mpr hpart⟩
          · exact (hunpassed rfl).elim
      | stopped last unpassed =>
          rw [List.append_assoc] at same
          rcases hfirst.unique last same with ⟨-, hpassed⟩ | ⟨-, hpart⟩
          · exact (unpassed hpassed).elim
          · exact .inr ⟨unpassed, hpart.trans (List.prefix_append _ _)⟩

/-- Where a part of a script was passed, a course of all of it goes on behind that part. -/
theorem of_append_from {front back : Script} {first later : List Access}
    (h : Course window halts (front ++ back) taken ended)
    (passed : Course window halts front first (some (.ok ()))) (same : taken = first ++ later)
    (further : later ≠ []) : Course window halts back later ended := by
  rcases of_append h with ⟨hstopped, hunpassed⟩ | ⟨first', later', rfl, hfront, hback⟩
  · have hsame : first ++ later = taken ++ [] := by rw [List.append_nil, same]
    rcases passed.unique hstopped hsame with ⟨-, hpassed⟩ | ⟨-, hpart⟩
    · exact (hunpassed hpassed).elim
    · have hlength := hpart.length_le
      have hlonger := List.length_pos_iff.mpr further
      rw [same, List.length_append] at hlength
      omega
  · rcases passed.unique hfront same.symm with ⟨rfl, -⟩ | ⟨hunpassed, -⟩
    · rwa [List.append_cancel_left same] at hback
    · exact (hunpassed rfl).elim

/-- Where a step took as many samples as its limit and none decided, the course ends there. -/
theorem ends_late {register : Register} {judge : UInt32 → Option Verdict} {late : HostError}
    {values : List UInt32} {rest : Script}
    (h : Course window halts (.sample register judge (some values.length) late :: rest)
      (Access.reads register values ++ later) ended)
    (sampled : values ≠ []) (undecided : ∀ value ∈ values, judge value = none) :
    later = [] ∧ ended = some (.error late) := by
  generalize htaken : Access.reads register values ++ later = taken at h
  cases h with
  | next passed further =>
      obtain ⟨-, hended⟩ := passed.of_late undecided htaken.symm (by simp)
      cases hended
  | stopped last unpassed =>
      have hsame : taken ++ [] = Access.reads register values ++ later := by
        rw [List.append_nil, htaken]
      obtain ⟨hreads, hended⟩ := last.of_late undecided hsame fun _ hnone => by
        rw [hnone] at htaken
        exact sampled (List.map_eq_nil_iff.mp (List.append_eq_nil_iff.mp htaken).1)
      rw [hreads] at htaken
      exact ⟨List.append_right_eq_self.mp htaken, hended⟩

end Course

/-! ### What leads to a step -/

/-- Each step of a script, which goes on from another one, stands behind steps that a rule allows it
behind. -/
def Led (rule : Script → Step → Prop) : Script → Script → Prop
  | _, [] => True
  | past, step :: rest => rule past step ∧ Led rule (past ++ [step]) rest

variable {rule : Script → Step → Prop} {past : Script}

theorem Led.append (h : Led rule past front) (further : Led rule (past ++ front) back) :
    Led rule past (front ++ back) := by
  induction front generalizing past with
  | nil => rwa [List.append_nil] at further
  | cons step front ih =>
      obtain ⟨hstep, hfront⟩ := h
      rw [List.append_cons] at further
      exact ⟨hstep, ih hfront further⟩

theorem led_of_forall (h : ∀ step ∈ front, ∀ past, rule past step) : Led rule past front := by
  induction front generalizing past with
  | nil => trivial
  | cons step front ih =>
      obtain ⟨hstep, hfront⟩ := List.forall_mem_cons.mp h
      exact ⟨hstep past, ih hfront⟩

/-- The rule holds of every step and what stands in front of it. -/
theorem Led.at_step {script done rest : Script} {step : Step} (h : Led rule past script)
    (split : script = done ++ step :: rest) : rule (past ++ done) step := by
  induction done generalizing past script with
  | nil =>
      subst split
      rw [List.append_nil]
      exact h.1
  | cons first done ih =>
      subst split
      have hrest := ih h.2 rfl
      rwa [List.append_assoc] at hrest

/-- An operation fails before its script, without an access, or goes along it. -/
def Visit (window : Window) (halts : Prop) (script : Script) (taken : List Access)
    (ended : Option Verdict) : Prop :=
  (taken = [] ∧ ended ≠ some (.ok ())) ∨ script.Course window halts taken ended

end Script

end CardHost
