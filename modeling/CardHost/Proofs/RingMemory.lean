import CardHost.Proofs.Budgets
import CardHost.Proofs.Ownership

/-!
# The memory of a ring

Making a host allocates its ring: as many bytes as its descriptors take, in whole pages.  The size
is a product of two words.  The check of a configuration bounds the number of descriptors only from
below, so it lets numbers pass for which the product leaves the range of a word, and then the making
of the host does not end.

Short of that nothing overflows: where the pages that are granted do not wrap around, every
descriptor has an address, the making of a host ends, and the pages hold all its descriptors
(`Host.make_ends_where_ring_fits`).
-/

namespace CardHost

/-- The pages do not wrap around the end of the address space. -/
def Pages.Contiguous (pages : Pages) : Prop :=
  pages.address.toNat + pages.size ≤ wordSpan

/-- Replies in which pages that are granted do not wrap around. -/
def GrantsContiguous : Replies σ := fun request =>
  match request with
  | .allocate services count => fun grant =>
    grant.status = .success → (Pages.mk services grant.address count).Contiguous
  | _ => fun _ => True

variable {possible : Replies σ}

namespace Ring

/-- A ring whose descriptors lie in contiguous pages has an address for each of them. -/
theorem place_lt_of_contiguous (ring : Ring) (services : Services)
    (contiguous : (ring.owned services).Contiguous)
    (holds : ring.count * descriptorSize ≤ ring.pages * pageSize) {index : Nat}
    (h : index < ring.count) : ring.place index < wordSpan := by
  have hend : ring.base.toNat + ring.pages * pageSize ≤ wordSpan := contiguous
  have hbefore : (index + 1) * descriptorSize ≤ ring.count * descriptorSize :=
    Nat.mul_le_mul_right _ h
  have hplace : ring.place index + descriptorSize ≤ ring.base.toNat + ring.pages * pageSize := by
    unfold place
    rw [Nat.succ_mul] at hbefore
    omega
  have hsize : 0 < descriptorSize := by decide
  omega

theorem finishes_putFrom (ring : Ring) (index : Nat) (descriptors : List Descriptor) :
    (ring.putFrom index descriptors : Prog σ Unit).Finishes possible (fun _ => True) 0 := by
  induction descriptors generalizing index with
  | nil => exact trivial
  | cons descriptor rest ih => exact (Prog.finishes_request _).step fun _ _ => ih (index + 1)

/-- A ring is linked without leaving the address space where its last descriptor lies in it. -/
theorem finishes_reset {ring : Ring}
    (h : ∀ index, index < ring.count → ring.place index < wordSpan) :
    (ring.reset : Prog σ Unit).Finishes possible (fun _ => True) 0 := by
  have hlast : ring.count = 0 ∨ ring.place (ring.count - 1) < wordSpan := by
    rcases Nat.eq_zero_or_pos ring.count with hzero | hpositive
    · exact .inl hzero
    · exact .inr (h _ (Nat.sub_lt hpositive Nat.one_pos))
  unfold reset
  rw [if_pos hlast]
  exact finishes_putFrom ring 0 _

/-- A ring whose size is a word is allocated and linked, or the allocation fails. -/
theorem finishes_allocate (services : Services) {count : Nat}
    (size : count * descriptorSize < wordSpan) :
    (Ring.allocate services count : Action σ Ring).Finishes GrantsContiguous True
      (fun ring => ring.count = count ∧ count * descriptorSize ≤ ring.pages * pageSize) 0 := by
  have hgrants (services : Services) (count : Nat) (grant : Grant)
      (hgrant : (GrantsContiguous : Replies σ) (.allocate services count) grant) :
      if grant.status = .success then (Pages.mk services grant.address count).Contiguous
      else True := by
    split
    · rename_i hsuccess
      exact hgrant hsuccess
    · trivial
  unfold allocate
  split
  · exact Action.finishes_throw trivial _ _
  · rw [if_neg (Nat.not_le.mpr size)]
    refine ((Pages.finishes_allocate hgrants services _).onError _).step fun pages hpages => ?_
    obtain ⟨hcount, hcontiguous⟩ := hpages
    have hholds : count * descriptorSize ≤ pages.count * pageSize := by
      rw [hcount]
      exact le_pagesFor _
    have hplaces (index : Nat) (h : index < count) :
        (Ring.mk pages.address count pages.count).place index < wordSpan :=
      (Ring.mk pages.address count pages.count).place_lt_of_contiguous pages.services
        hcontiguous hholds h
    refine (Action.finishes_lift (finishes_reset hplaces)).step fun _ _ => ?_
    exact (Action.finishes_lift (Prog.finishes_log _)).step fun _ _ => ⟨rfl, hholds⟩

/-- A ring whose size is no word is not allocated. -/
theorem allocate_of_oversized (services : Services) {count : Nat}
    (size : wordSpan ≤ count * descriptorSize) :
    (Ring.allocate services count : Action σ Ring).run = .fault := by
  have hpositive : count ≠ 0 := by
    rintro rfl
    exact absurd size (by decide)
  unfold allocate
  rw [if_neg hpositive, if_pos size]
  rfl

end Ring

/-- Where the pages that a run was granted do not wrap around, neither do those of any reply. -/
theorem grantsContiguous_of_granted {machine : Machine ι} {moments : List (Moment machine σ ρ)}
    (grants : ∀ pages ∈ moments.filterMap Moment.granted?, pages.Contiguous) :
    ∀ moment ∈ moments,
      GrantsContiguous moment.request (moment.system.answer moment.request).1 := by
  intro moment hmem
  obtain ⟨request, asked⟩ := moment
  cases request with
  | allocate services count =>
      intro hsuccess
      exact grants _ (List.mem_filterMap.mpr ⟨_, hmem, if_pos hsuccess⟩)
  | _ => trivial

namespace Host

/-- A usable configuration passes its check. -/
theorem make_of_usable {config : HostConfig} (usable : config.Usable) (services : Services) :
    (Host.make config services : Action σ (Host × HostState)) =
      Ring.allocate services config.descriptorCount.toNat >>= fun ring =>
        pure (⟨config, services, usable⟩, ⟨ring, none⟩) := by
  unfold make
  split
  · rename_i defect hdefect
    rw [HostConfig.Usable, hdefect] at usable
    cases usable
  · rfl

/-- On a usable configuration and an allocator whose pages do not wrap around, the making of a host
ends exactly if the size of its ring is a word; else it stops at that product, with nothing
allocated.  A host that was made has all its descriptors inside the pages that were granted. -/
theorem make_ends_where_ring_fits {config : HostConfig} (usable : config.Usable)
    (services : Services) {machine : Machine ι} (handler : ι → Prog σ ρ) (depth : Nat)
    (system : System machine σ ρ)
    (grants : ∀ pages ∈ ((Host.make config services).run.moments handler depth
      system).filterMap Moment.granted?, pages.Contiguous) :
    (config.descriptorCount.toNat * descriptorSize < wordSpan →
      ∃ outcome after, (Host.make config services).run.run handler depth system =
          .ok (outcome, after)
        ∧ ∀ made, outcome = .ok made →
          Booked system after [(owned made).grantCall]
            ∧ made.2.ring.count = config.descriptorCount.toNat
            ∧ made.2.ring.count * descriptorSize ≤ (owned made).size)
      ∧ (wordSpan ≤ config.descriptorCount.toNat * descriptorSize →
        (Host.make config services).run.run handler depth system = .error .fault
          ∧ (Host.make config services).run.moments handler depth system = []) := by
  constructor
  · intro size
    have hfinishes : (Host.make config services : Action σ _).Finishes GrantsContiguous True
        (fun made => made.2.ring.count = config.descriptorCount.toNat
          ∧ config.descriptorCount.toNat * descriptorSize ≤ (owned made).size) 0 := by
      rw [make_of_usable usable]
      exact (Ring.finishes_allocate services size).step fun _ hring => hring
    have hserved : ∀ moment ∈ (Host.make config services).run.moments handler depth system,
        ∀ i after, (moment.system.answer moment.request).2 = (some i, after) →
          ∃ last, Prog.serveAt handler depth i after = .ok last ∧ last.stalled ≤ after.stalled :=
      fun moment hmem i after hinterrupted =>
        ((obeys_make config services).not_interrupted system moment hmem i after
          hinterrupted).elim
    obtain ⟨outcome, after, hran, hpost, -⟩ :=
      hfinishes.run (grantsContiguous_of_granted grants) hserved
    refine ⟨outcome, after, hran, ?_⟩
    rintro made rfl
    obtain ⟨-, ⟨error, calls, herror, -⟩ | ⟨value, hvalue, hbooked⟩⟩ := acquired_make hran
    · cases herror
    · cases hvalue
      obtain ⟨hcount, hholds⟩ := hpost
      exact ⟨hbooked, hcount, hcount ▸ hholds⟩
  · intro size
    have hfault : (Host.make config services : Action σ _).run = .fault := by
      rw [make_of_usable usable, Action.run_bind, Ring.allocate_of_oversized services size]
      rfl
    rw [hfault]
    exact ⟨rfl, rfl⟩

/-! ### Two rings on the bench -/

/-- The one descriptor of a small host lies in the page that the bench grants for it. -/
theorem small_ring_held :
    ∃ made after, (Host.make smallConfig .supplied).run.run (fun _ : Call => .done []) 0
        (smallBench : System Bench.machine HostState (List Answer)) = .ok (.ok made, after)
      ∧ made.2.ring.count * descriptorSize ≤ (owned made).size := by
  have hgranted : ((Host.make smallConfig .supplied).run.moments (fun _ : Call => .done []) 0
      (smallBench : System Bench.machine HostState (List Answer))).filterMap Moment.granted? =
        [⟨.supplied, 0x1F0000000, 1⟩] := by
    decide +kernel
  obtain ⟨hends, -⟩ := make_ends_where_ring_fits (show smallConfig.Usable by decide) .supplied
    (fun _ : Call => .done []) 0 (smallBench : System Bench.machine HostState (List Answer)) (by
      rw [hgranted]
      intro pages hmem
      rw [List.mem_singleton.mp hmem, Pages.Contiguous]
      decide)
  obtain ⟨outcome, after, hran, hheld⟩ := hends (by decide)
  have hmade : ((Host.make smallConfig .supplied).run.run (fun _ : Call => .done []) 0
      (smallBench : System Bench.machine HostState (List Answer))).toOption.map
        (fun ended => ended.1.isOk) = some true := by
    decide +kernel
  rw [hran] at hmade
  obtain error | made := outcome
  · cases hmade
  · exact ⟨made, after, hran, (hheld made rfl).2.2⟩

/-- A configuration with so many descriptors that their size in bytes is the size of the address
space. -/
def vastConfig : HostConfig :=
  { smallConfig with descriptorCount := 0x800000000000000 }

/-- It passes its check, and the making of its host stops at the size of the ring. -/
theorem vast_ring_faults :
    vastConfig.Usable
      ∧ (Host.make vastConfig .supplied).run.run (fun _ : Call => .done []) 0
          (smallBench : System Bench.machine HostState (List Answer)) = .error .fault := by
  have husable : vastConfig.Usable := by decide
  refine ⟨husable, ?_⟩
  rw [make_of_usable husable, Action.run_bind, Ring.allocate_of_oversized _ (by decide)]
  rfl

end Host

end CardHost
