import CardHost.Proofs.Bench.Allocators
import CardHost.Proofs.Ownership

/-!
# A transfer stays in its memory

A transfer touches the descriptors of its ring and its staging pages (`Ring.Reserves`), and no
other memory: its stores go there (`Cleared.asks_within`), and so does all that the card touches
because of its command.

For the latter the engine has to point at the ring, and the chain of the transfer has to stand
there, when the command is written.  Both are read off the installation, the only effects before
the command (`moveThrough_installs`).  The card then follows descriptors of the chain only, and
their buffers end inside the staging pages (`Cleared.lends`).  Ring and pages need not be apart for
that, as the chain is stored last.
-/

namespace CardHost

/-- An address in some pages. -/
def Pages.Covers (pages : Pages) (address : Nat) : Prop :=
  pages.address.toNat ≤ address ∧ address < pages.address.toNat + pages.size

/-- An address in the descriptors of a ring. -/
def Ring.Covers (ring : Ring) (address : Nat) : Prop :=
  ring.base.toNat ≤ address ∧ address < ring.place ring.count

/-! ## What a transfer asks -/

/-- A request whose stores lie in a region and whose writes go to a window; it does not ask for
pages. -/
def Request.Within (window : Window) (region : Nat → Prop) : Request σ → Prop
  | .store start bytes => ∀ address, start ≤ address → address < start + bytes.length →
      region address
  | .write w _ _ => w = window
  | request => request.Unpaged

/-- A descriptor in the ring with a buffer in the pages. -/
def Ring.Lends (ring : Ring) (pages : Pages) (entry : Nat × Descriptor) : Prop :=
  (∃ index < ring.count, entry.1 = ring.place index)
    ∧ pages.address.toNat ≤ entry.2.buffer.toNat
    ∧ entry.2.buffer.toNat + entry.2.size.toNat ≤ pages.address.toNat + pages.size

/-- What the card touches because of such a descriptor is in the ring or in the pages. -/
theorem Ring.Lends.reserves {ring : Ring} {pages : Pages} {entry : Nat × Descriptor}
    (h : ring.Lends pages entry) {address : Nat} (htouches : Bench.Touches entry address) :
    ring.Reserves pages address := by
  obtain ⟨⟨index, hindex, hplace⟩, hbuffer, hend⟩ := h
  rcases htouches with ⟨hstart, hstop⟩ | ⟨hstart, hstop⟩
  · have hbase : ring.base.toNat ≤ ring.place index := Nat.le_add_right _ _
    have hbehind := ring.place_behind hindex
    exact .inl ⟨by omega, by omega⟩
  · exact .inr ⟨by omega, by omega⟩

section Transfers

variable {window : Window} {region : Nat → Prop}

theorem Request.Within.unpaged {request : Request σ} (h : request.Within window region) :
    request.Unpaged := by
  cases request with
  | store => trivial
  | write => trivial
  | _ => exact h

theorem Request.OnRegisters.within {writes : Register → UInt32 → Prop} {request : Request σ}
    (h : request.OnRegisters window writes) : request.Within window region := by
  cases request with
  | store => exact h.elim
  | write w offset value => exact h.1
  | _ => exact h.unpaged

/-- Arithmetic that fails ends a program, and what it gives is known to the rest. -/
theorem Action.asks_require_bind {value? : Option α} {next : α → Action σ β}
    {allowed : Request σ → Prop} (rest : ∀ value, value? = some value → (next value).Asks allowed) :
    ((Prog.require value?).lift >>= next : Action σ β).Asks allowed := by
  cases hvalue : value? with
  | none => trivial
  | some value => exact rest value hvalue

/-- A byte that such a request changes, or an idle one, is in the region or touched by the card. -/
theorem Moment.Changes.within {allocator : Bench.Allocator}
    {moment : Moment (Bench.machineWith allocator) σ ρ} {address : Nat}
    (h : moment.Changes address) (untimed : Bench.Untimed moment.system.shared)
    (supplied : window.services = .supplied)
    (asked : moment.request.Within window region ∨ moment.request.Idle) :
    region address ∨ ∃ entry ∈ moment.followed, Bench.Touches entry address := by
  have hreaches := h.reaches untimed
  unfold Reaches at hreaches
  cases hrequest : moment.request with
  | store start bytes =>
      rw [hrequest] at hreaches asked
      exact .inl (asked.elim (fun hwithin => hwithin address hreaches.1 hreaches.2) False.elim)
  | write w offset value =>
      rw [hrequest] at hreaches asked
      rcases asked with hwindow | hidle
      · have hw : w = window := hwindow
        exact .inr (hreaches (hw ▸ supplied))
      · exact hidle.elim
  | allocate =>
      rw [hrequest] at asked
      exact (asked.elim id id).elim
  | free =>
      rw [hrequest] at asked
      exact (asked.elim id id).elim
  | _ =>
      rw [hrequest] at hreaches
      exact hreaches.elim

namespace Ring

variable (ring : Ring)

theorem length_of_chain? {geometry : Geometry} {buffer : UInt64} {segment : Nat}
    {descriptors : List Descriptor}
    (h : ring.chain? geometry buffer segment = some descriptors) :
    descriptors.length = geometry.segments := by
  unfold chain? at h
  split at h
  · cases h
    exact ring.chain_length geometry buffer segment
  · cases h

theorem asks_putChain_within (index : Nat) (descriptors : List Descriptor)
    (hregion : ∀ address, ring.place index ≤ address →
      address < ring.place (index + descriptors.length) → region address) :
    (ring.putChain index descriptors : Prog σ Unit).Asks (Request.Within window region) := by
  induction descriptors generalizing index with
  | nil => trivial
  | cons descriptor rest ih =>
      rw [List.length_cons, show index + (rest.length + 1) = index + 1 + rest.length by omega]
        at hregion
      have hplace := ring.place_add index 1
      have hend := ring.place_add (index + 1) rest.length
      refine (asks_log _ trivial).bind fun _ => ?_
      refine (Prog.asks_request ?_).bind fun _ => ih (index + 1) ?_
      · intro address hstart hstop
        rw [DescriptorWords.length_toBytes] at hstop
        exact hregion address hstart (by omega)
      · intro address hstart hstop
        exact hregion address (by omega) hstop

/-- The descriptors of a transfer go into the ring, which has room for them. -/
theorem asks_prepare_within (length : Nat) (buffer : UInt64) (segment block : Nat)
    (hregion : ∀ address, ring.Covers address → region address) :
    (ring.prepare length buffer segment block : Action σ Geometry).Asks
      (Request.Within window region) := by
  unfold prepare
  split
  · exact Action.asks_throw _
  · refine (Action.asks_lift (Prog.asks_require _)).bind fun geometry => ?_
    split
    · exact (Action.asks_lift (asks_log _ trivial)).bind fun _ => Action.asks_throw _
    · rename_i hroom
      refine Action.asks_require_bind fun descriptors hchain => ?_
      have hlength : descriptors.length = geometry.segments := ring.length_of_chain? hchain
      have hplaces : ring.place geometry.segments ≤ ring.place ring.count :=
        Nat.add_le_add_left (Nat.mul_le_mul_right _ (Nat.not_lt.mp hroom)) _
      refine (Action.asks_lift (ring.asks_putChain_within 0 descriptors ?_)).bind fun _ =>
        Action.asks_pure _
      intro address hstart hstop
      rw [Nat.zero_add, hlength] at hstop
      rw [ring.place_zero] at hstart
      exact hregion address ⟨hstart, by omega⟩

end Ring

namespace Host

variable {host : Host} {ring : Ring} {latch : Latch} {length : Nat} {buffer : DataBuffer}
  {pages : Pages}

/-- The data to send and the zeros behind it fill the staging pages. -/
theorem asks_stage_within (hlength : length ≤ pages.size)
    (hregion : ∀ address, pages.Covers address → region address) :
    (stage pages length buffer : Prog σ Unit).Asks (Request.Within window region) := by
  cases buffer with
  | incoming size => trivial
  | outgoing bytes =>
      refine Prog.asks_request ?_
      intro address hstart hstop
      rw [List.length_append, List.length_take, List.length_replicate] at hstop
      exact hregion address ⟨hstart, by omega⟩

/-- A transfer stores into the ring and its staging pages, and writes to the controller. -/
theorem Cleared.asks_within (h : host.Cleared ring latch length buffer pages) :
    (host.moveThrough ring latch length buffer pages : Action σ (List UInt8)).Asks
      (Request.Within host.window (ring.Reserves pages)) := by
  have within {β : Type} {program : Prog σ β} (hasks : program.Asks
      (Request.OnRegisters host.window fun _ _ => True)) :
      program.Asks (Request.Within host.window (ring.Reserves pages)) :=
    hasks.mono fun _ => Request.OnRegisters.within
  have hprogram : (ring.program host.window : Prog σ Unit).Asks
      (Request.OnRegisters host.window fun _ _ => True) :=
    Ring.asks_program ring trivial trivial fun _ => trivial
  have hstart : (Ring.start host.window length host.config.blockSize.toNat : Prog σ Unit).Asks
      (Request.OnRegisters host.window fun _ _ => True) :=
    Ring.asks_start (fun _ => trivial) (fun _ => trivial) trivial trivial
  have hissue : (host.issue latch.word latch.argument : Action σ Unit).Asks
      (Request.OnRegisters host.window fun _ _ => True) :=
    asks_issue host trivial trivial trivial trivial
  have hcollect : (collect pages length buffer : Prog σ (List UInt8)).Asks
      (Request.Within host.window (ring.Reserves pages)) := by
    cases buffer with
    | incoming size => exact Prog.asks_request trivial
    | outgoing bytes => trivial
  have hstage : (stage pages length buffer : Prog σ Unit).Asks
      (Request.Within host.window (ring.Reserves pages)) :=
    asks_stage_within h.length_le_size fun _ => .inr
  refine (Action.asks_lift hstage).bind fun _ => ?_
  refine Action.Asks.bind (ring.asks_prepare_within _ _ _ _ fun _ => .inl) fun geometry => ?_
  refine (Action.asks_lift (within hprogram)).bind fun _ => ?_
  refine (Action.asks_lift (within hstart)).bind fun _ => ?_
  refine Action.Asks.bind (within hissue) fun _ => ?_
  refine Action.Asks.bind (within (asks_completion host _ _ _ _)) fun _ => ?_
  refine (Action.asks_lift hcollect).bind fun arrived => ?_
  exact (Action.asks_lift (asks_log _ trivial)).bind fun _ => Action.asks_pure _

/-! ## The installation at the command -/

theorem written_append (register : Register) (front back : List (Request σ)) (value : UInt32) :
    written register (front ++ back) value =
      written register back (written register front value) := by
  unfold written
  rw [List.foldl_append]

theorem written_stores (register : Register) (ring : Ring) (index : Nat)
    (descriptors : List Descriptor) (value : UInt32) :
    written register (ring.stores index descriptors : List (Request σ)) value = value := by
  induction descriptors generalizing index with
  | nil => rfl
  | cons descriptor rest ih => exact ih (index + 1)

/-- An installation leaves in a register what its settings write there. -/
theorem written_installation (host : Host) (register : Register) (ring : Ring) (argument : UInt32)
    (length : Nat) (buffer : DataBuffer) (pages : Pages) (mode control enable value : UInt32) :
    written register (host.installation ring argument length buffer pages mode control enable :
        List (Request σ)) value =
      written register (host.settings ring argument length mode control enable :
        List (Request σ)) value := by
  have hstage : written register (buffer.stores pages length : List (Request σ)) value = value := by
    cases buffer <;> rfl
  rw [installation, written_append, written_append, hstage, written_stores]

/-- An installation starts no command. -/
theorem calm_installation (supplied : host.services = .supplied) (argument mode control
    enable : UInt32) :
    ∀ request ∈ (host.installation ring argument length buffer pages mode control enable :
      List (Request σ)), request.Calm := by
  have hstored (index : Nat) (descriptors : List Descriptor) :
      ∀ request ∈ (ring.stores index descriptors : List (Request σ)), request.Calm := by
    induction descriptors generalizing index with
    | nil => simp [Ring.stores]
    | cons descriptor rest ih =>
        intro request hmem
        rcases List.mem_cons.mp hmem with rfl | hmem
        · trivial
        · exact ih (index + 1) request hmem
  have hset {register : Register} (h : register ≠ .command) (value : UInt32) :
      (.write host.window register.offset value : Request σ).Calm :=
    ⟨supplied, Bench.Platform.starts_eq_false h value⟩
  intro request hmem
  rcases List.mem_append.mp hmem with hmem | hmem
  · rcases List.mem_append.mp hmem with hmem | hmem
    · cases buffer with
      | incoming size => cases hmem
      | outgoing bytes =>
          rw [List.mem_singleton.mp hmem]
          trivial
    · exact hstored 0 _ request hmem
  · simp only [settings, List.mem_cons, List.not_mem_nil, or_false] at hmem
    rcases hmem with rfl | rfl | rfl | rfl | rfl | rfl | rfl | rfl | rfl
    all_goals exact hset (by decide) _

/-! ## What the card follows -/

/-- Of the chain of a transfer the card follows descriptors of the ring, and their buffers end
inside the staging pages: those in front are full segments, and the last one takes what is left of
the whole blocks. -/
theorem Cleared.lends (h : host.Cleared ring latch length buffer pages)
    (addressed : host.Addressed ring length pages) {memory : Memory}
    (hchained : Bench.Chained ring (host.split length) pages.address
      host.config.segmentSize.toNat 0 memory) {reach : Bench.Reach} {steps left : Nat} :
    ∀ entry ∈ (Bench.walk reach steps memory ring.base.toNat left).followed,
      ring.Lends pages entry := by
  have hcarriable := h.carriable
  have hsegments : 0 < (host.split length).segments :=
    Geometry.segments_pos h.positive hcarriable.segmentPos _
  have hbytes := Geometry.bytes_eq hcarriable.lengthPos hcarriable.segmentPos hcarriable.blockPos
  have hstaged : (host.split length).bytes ≤ pages.size := h.bytes_le_size
  intro entry hmem
  rw [← ring.place_zero] at hmem
  obtain ⟨j, hj, rfl⟩ := Bench.mem_followed_chained addressed.places hchained hsegments entry hmem
  have hbuffer := segmentEntry_buffer ring addressed.buffers hj
  have hsize := hcarriable.size_eq ring pages.address j
  refine ⟨⟨j, Nat.lt_of_lt_of_le hj h.room, rfl⟩, ?_⟩
  dsimp only
  rw [hbuffer, split, hsize]
  by_cases hlast : j + 1 = (Geometry.ofLength length host.config.segmentSize.toNat
      host.config.blockSize.toNat).segments
  · rw [if_pos hlast]
    rw [← hlast, Nat.add_sub_cancel] at hbytes
    unfold split at hstaged
    omega
  · rw [if_neg hlast]
    have hle : (j + 1) * host.config.segmentSize.toNat ≤
        ((Geometry.ofLength length host.config.segmentSize.toNat
          host.config.blockSize.toNat).segments - 1) * host.config.segmentSize.toNat := by
      refine Nat.mul_le_mul_right _ ?_
      unfold split at hj
      omega
    rw [Nat.succ_mul] at hle
    unfold split at hstaged
    omega

/-! ## Transfers -/

section Runs

variable {allocator : Bench.Allocator} {handler : Call → Prog σ ρ} {depth : Nat}
  {system : System (Bench.machineWith allocator) σ ρ}
  {front back : List (Moment (Bench.machineWith allocator) σ ρ)}
  {moment : Moment (Bench.machineWith allocator) σ ρ}

/-- Before its command a transfer is calm. -/
theorem Cleared.calm (h : host.Cleared ring latch length buffer pages)
    (idles : Idles (Bench.machineWith allocator) handler depth)
    (supplied : host.services = .supplied) (held : system.cell = none)
    (htrace : (host.moveThrough ring latch length buffer pages).run.trace handler depth system =
      front ++ moment :: back)
    (hcommand : moment.request.CommandsData) :
    ∀ other ∈ front, other.request.Calm := by
  obtain ⟨-, -, mode, control, enable, heffects⟩ :=
    host.moveThrough_installs idles h held htrace hcommand
  intro other hmem
  have hunpaged := moveThrough_unpaged idles held other (by
    rw [htrace]
    exact List.mem_append_left _ hmem)
  by_cases heffect : other.request.isEffect = true
  · have hinstalled : other.request ∈ effects front :=
      List.mem_filter.mpr ⟨List.mem_map_of_mem hmem, heffect⟩
    rw [heffects] at hinstalled
    exact calm_installation supplied _ _ _ _ _ hinstalled
  · cases hrequest : other.request with
    | write =>
        rw [hrequest] at heffect
        exact (heffect rfl).elim
    | allocate =>
        rw [hrequest] at hunpaged
        exact (hunpaged.elim id id).elim
    | free =>
        rw [hrequest] at hunpaged
        exact (hunpaged.elim id id).elim
    | _ => trivial

/-- What the card follows for a transfer is in the ring, with buffers in the staging pages. -/
theorem Cleared.followed_lends (h : host.Cleared ring latch length buffer pages)
    (idles : Idles (Bench.machineWith allocator) handler depth)
    (supplied : host.services = .supplied) (held : system.cell = none)
    (untimed : Bench.Untimed system.shared)
    (htrace : (host.moveThrough ring latch length buffer pages).run.trace handler depth system =
      front ++ moment :: back) :
    ∀ entry ∈ moment.followed, ring.Lends pages entry := by
  intro entry hmem
  obtain ⟨hcommand, reach, left, hfollow⟩ := Moment.mem_followed hmem
  obtain ⟨-, addressed, mode, control, enable, heffects⟩ :=
    host.moveThrough_installs idles h held htrace hcommand
  have hfront (other : Moment (Bench.machineWith allocator) σ ρ) (hbefore : other ∈ front) :
      other ∈ (host.moveThrough ring latch length buffer pages).run.trace handler depth system := by
    rw [htrace]
    exact List.mem_append_left _ hbefore
  have hcalm := h.calm idles supplied held htrace hcommand
  have huntimed (other : Moment (Bench.machineWith allocator) σ ρ) (hbefore : other ∈ front) :
      Bench.Untimed other.system.shared :=
    untimed_of_mem_trace untimed other (hfront other hbefore)
  have hlinked := Prog.linked_of_trace htrace
  -- The engine points at the ring.
  have hlow : Bench.Platform.held moment.system.shared .listLow = Bytes.lowHalf ring.base := by
    rw [linked_held (by decide) hcalm huntimed hlinked, heffects, written_installation]
    rfl
  have hhigh : Bench.Platform.held moment.system.shared .listHigh = Bytes.highHalf ring.base := by
    rw [linked_held (by decide) hcalm huntimed hlinked, heffects, written_installation]
    rfl
  rw [hlow, hhigh, Bytes.join_halves] at hfollow
  -- The chain stands there.
  have hmemory : (stored (effects front) system.shared.memory).SameOn (fun _ => True)
      moment.system.shared.memory :=
    linked_sameOn hlinked
      (fun other hbefore => Moment.spares_of_calm (hcalm other hbefore) (huntimed other hbefore) _)
      (fun other hbefore => moveThrough_unpaged idles held other (hfront other hbefore))
      (Memory.SameOn.refl _ _)
  rw [heffects, stored_installation] at hmemory
  have hchained : Bench.Chained ring (host.split length) pages.address
      host.config.segmentSize.toNat 0 moment.system.shared.memory := by
    intro j hstart hj
    rw [Bench.descriptorAt, hmemory.read_eq fun _ _ => trivial]
    exact h.carriable.chained_lay ring pages.address _ j hstart hj
  exact h.lends addressed hchained entry hfollow

/-- A transfer changes memory in the ring and in the staging pages. -/
theorem Cleared.changes_reserves (h : host.Cleared ring latch length buffer pages)
    (idles : Idles (Bench.machineWith allocator) handler depth)
    (supplied : host.services = .supplied) (held : system.cell = none)
    (untimed : Bench.Untimed system.shared)
    (htrace : (host.moveThrough ring latch length buffer pages).run.trace handler depth system =
      front ++ moment :: back) :
    ∀ address, moment.Changes address → ring.Reserves pages address := by
  intro address hchanges
  have hmem : moment ∈ (host.moveThrough ring latch length buffer pages).run.trace handler depth
      system := by
    rw [htrace]
    simp
  have hasks : (host.moveThrough ring latch length buffer pages : Action σ _).run.Asks
      (Request.Within host.window (ring.Reserves pages)) := h.asks_within
  have hasked := hasks.of_mem_trace idles (fun _ hwithin => hwithin.unpaged.inner) held moment hmem
  rcases hchanges.within (untimed_of_mem_trace untimed moment hmem) supplied hasked with
    hstored | ⟨entry, hentry, htouches⟩
  · exact hstored
  · exact (h.followed_lends idles supplied held untimed htrace entry hentry).reserves htouches

end Runs

end Host

end Transfers

end CardHost
