import CardHost.Bench.Device

/-!
# Live pages

What a host counts on of an allocator is a `Keeper`: pages that are live lie apart where the DMA
engine reaches them, and they stay live until they are freed.  How the allocator does it is its own
business, and where it has its pages too.

The allocator of the bench is one such (`Keeper.own`).  It keeps its live pages sorted and apart
(`PageStore.Spaced`); a search for a gap follows the same list, so what it finds is apart from
everything live (`gap?_apart`) and fits in at its place (`spaced_insert`).
-/

namespace CardHost.Bench

/-! ## Allocators that keep pages -/

/-- Two ranges of pages, by address and count, without a byte in common. -/
def Apart (first second : Nat × Nat) : Prop :=
  first.1 + first.2 * pageSize ≤ second.1 ∨ second.1 + second.2 * pageSize ≤ first.1

/-- Pages that end inside the address space, where the DMA engine reaches all of them. -/
structure Reach.Hosts (reach : Reach) (pages : Nat × Nat) : Prop where
  ends : pages.1 + pages.2 * pageSize < wordSpan
  reached : reach.holds pages.1 (pages.2 * pageSize) = true

/-- Of the bench, memory and the allocator's own part changed at most. -/
def Platform.Repaged (before after : Platform) : Prop :=
  ∃ store, after.device = { before.device with pages := store }

/-- An allocator that keeps live pages apart.  What the bench keeps as `pages` is its own, to be read
as it likes: `Sound` says that it is in order, for an engine that reaches so far, and `Live` which
pages were granted and did not come back.  Requests may be refused at any time and do to memory what
they want. -/
structure Keeper (allocator : Allocator) where
  Sound : Reach → PageStore → Prop
  Live : PageStore → Nat × Nat → Prop
  hosts : ∀ {reach store pages}, Sound reach store → Live store pages → reach.Hosts pages
  apart : ∀ {reach store first second}, Sound reach store → Live store first →
    Live store second → first ≠ second → Apart first second
  allocate_repaged : ∀ services count (platform : Platform),
    platform.Repaged (allocator.allocate services count platform).2
  allocate_sound : ∀ services count (platform : Platform),
    Sound platform.device.reach platform.device.pages →
      Sound platform.device.reach (allocator.allocate services count platform).2.device.pages
  /-- What was live stays so. -/
  allocate_live : ∀ services count (platform : Platform) pages,
    Sound platform.device.reach platform.device.pages → Live platform.device.pages pages →
      Live (allocator.allocate services count platform).2.device.pages pages
  /-- What is granted is live from then on, and was not before. -/
  granted : ∀ services count (platform : Platform),
    Sound platform.device.reach platform.device.pages →
      (allocator.allocate services count platform).1.status = .success →
        let pages := ((allocator.allocate services count platform).1.address.toNat, count)
        Live (allocator.allocate services count platform).2.device.pages pages
          ∧ ¬ Live platform.device.pages pages
  free_repaged : ∀ services address count (platform : Platform),
    platform.Repaged (allocator.free services address count platform).2
  free_sound : ∀ services address count (platform : Platform),
    Sound platform.device.reach platform.device.pages →
      Sound platform.device.reach (allocator.free services address count platform).2.device.pages
  /-- Other pages stay live. -/
  free_live : ∀ services address count (platform : Platform) pages,
    Sound platform.device.reach platform.device.pages → Live platform.device.pages pages →
      pages ≠ (UInt64.toNat address, count) →
        Live (allocator.free services address count platform).2.device.pages pages

/-! ## The allocator of the bench -/

namespace PageStore

/-- Allocations sorted by address, none empty, each behind the one before, the first behind `start`
and the last before `limit`. -/
def Spaced (limit : Nat) : Nat → List (Nat × Nat) → Prop
  | start, [] => start ≤ limit
  | start, (address, count) :: rest =>
    start ≤ address ∧ 0 < count ∧ Spaced limit (address + count * pageSize) rest

/-- The range of the allocator ends inside the address space, where the DMA engine reaches it, its
allocations are apart in it, and a failure that was armed does not pass for a success. -/
structure Valid (reach : Reach) (store : PageStore) : Prop where
  hosted : reach.Hosts (store.base, store.capacity)
  spaced : Spaced store.limit store.base store.live
  fails : ∀ failure, store.allocateFailure = some failure → failure.status ≠ .success

variable {limit start address pages : Nat} {live : List (Nat × Nat)}

theorem Spaced.start_le (h : Spaced limit start live) : start ≤ limit := by
  induction live generalizing start with
  | nil => exact h
  | cons entry rest ih =>
      obtain ⟨first, count⟩ := entry
      obtain ⟨hstart, -, hrest⟩ := h
      have hend := ih hrest
      omega

theorem Spaced.mono {earlier : Nat} (h : Spaced limit start live) (hearlier : earlier ≤ start) :
    Spaced limit earlier live := by
  cases live with
  | nil => exact Nat.le_trans hearlier h
  | cons entry rest => exact ⟨Nat.le_trans hearlier h.1, h.2⟩

/-- An allocation lies inside the range. -/
theorem Spaced.mem_bounds (h : Spaced limit start live) {entry : Nat × Nat}
    (hmem : entry ∈ live) :
    start ≤ entry.1 ∧ 0 < entry.2 ∧ entry.1 + entry.2 * pageSize ≤ limit := by
  induction live generalizing start with
  | nil => cases hmem
  | cons first rest ih =>
      obtain ⟨hstart, hcount, hrest⟩ := h
      cases hmem with
      | head => exact ⟨hstart, hcount, hrest.start_le⟩
      | tail _ hmem =>
          obtain ⟨hbehind, hpos, hend⟩ := ih hrest hmem
          exact ⟨by omega, hpos, hend⟩

/-- A gap lies behind the start of the search and before the end of the range. -/
theorem gap?_range (h : Spaced limit start live)
    (hgap : gap? limit pages start live = some address) :
    start ≤ address ∧ address + pages * pageSize ≤ limit := by
  induction live generalizing start with
  | nil =>
      simp only [gap?] at hgap
      split at hgap
      · rename_i hfits
        cases hgap
        exact ⟨Nat.le_refl _, hfits⟩
      · cases hgap
  | cons entry rest ih =>
      obtain ⟨first, count⟩ := entry
      obtain ⟨hstart, hcount, hrest⟩ := h
      simp only [gap?] at hgap
      split at hgap
      · rename_i hfits
        cases hgap
        have hend := hrest.start_le
        exact ⟨Nat.le_refl _, by omega⟩
      · obtain ⟨hbehind, hend⟩ := ih hrest hgap
        exact ⟨by omega, hend⟩

/-- A gap is apart from everything live. -/
theorem gap?_apart (h : Spaced limit start live)
    (hgap : gap? limit pages start live = some address) {entry : Nat × Nat}
    (hmem : entry ∈ live) : Apart (address, pages) entry := by
  induction live generalizing start with
  | nil => cases hmem
  | cons first rest ih =>
      obtain ⟨hstart, hcount, hrest⟩ := h
      simp only [gap?] at hgap
      split at hgap
      · rename_i hfits
        cases hgap
        left
        cases hmem with
        | head => exact hfits
        | tail _ hmem =>
            have hbehind := (hrest.mem_bounds hmem).1
            show address + pages * pageSize ≤ entry.1
            omega
      · cases hmem with
        | head =>
            right
            exact (gap?_range hrest hgap).1
        | tail _ hmem => exact ih hrest hgap hmem

/-- Pages in a gap keep the list sorted and apart. -/
theorem spaced_insert (h : Spaced limit start live) (hpages : 0 < pages)
    (hgap : gap? limit pages start live = some address) :
    Spaced limit start (insert address pages live) := by
  induction live generalizing start with
  | nil =>
      have hrange := gap?_range h hgap
      exact ⟨hrange.1, hpages, hrange.2⟩
  | cons entry rest ih =>
      obtain ⟨first, count⟩ := entry
      obtain ⟨hstart, hcount, hrest⟩ := h
      simp only [gap?] at hgap
      split at hgap
      · rename_i hfits
        cases hgap
        have hbefore : address ≤ first := by omega
        simp only [insert, if_pos hbefore]
        exact ⟨Nat.le_refl _, hpages, hfits, hcount, hrest⟩
      · have hbehind := (gap?_range hrest hgap).1
        have hsize : 0 < count * pageSize := Nat.mul_pos hcount (by decide)
        have hafter : ¬ address ≤ first := by omega
        simp only [insert, if_neg hafter]
        exact ⟨hstart, hcount, ih hrest hgap⟩

theorem mem_insert (entry : Nat × Nat) :
    entry ∈ insert address pages live ↔ entry = (address, pages) ∨ entry ∈ live := by
  induction live with
  | nil => simp [insert]
  | cons first rest ih =>
      simp only [insert]
      split
      · simp
      · simp only [List.mem_cons, ih]
        constructor
        · rintro (h | h | h)
          · exact .inr (.inl h)
          · exact .inl h
          · exact .inr (.inr h)
        · rintro (h | h | h)
          · exact .inr (.inl h)
          · exact .inl h
          · exact .inr (.inr h)

theorem Spaced.erase (h : Spaced limit start live) (entry : Nat × Nat) :
    Spaced limit start (live.erase entry) := by
  induction live generalizing start with
  | nil => exact h
  | cons first rest ih =>
      obtain ⟨hstart, hcount, hrest⟩ := h
      rw [List.erase_cons]
      split
      · exact hrest.mono (by omega)
      · exact ⟨hstart, hcount, ih hrest⟩

/-- Two allocations are apart. -/
theorem Spaced.apart_of_mem (h : Spaced limit start live) {first second : Nat × Nat}
    (hfirst : first ∈ live) (hsecond : second ∈ live) (hne : first ≠ second) :
    Apart first second := by
  induction live generalizing start with
  | nil => cases hfirst
  | cons entry rest ih =>
      obtain ⟨-, -, hrest⟩ := h
      rcases List.mem_cons.mp hfirst with rfl | hlater
      · rcases List.mem_cons.mp hsecond with rfl | hbehind
        · exact (hne rfl).elim
        · exact .inl (hrest.mem_bounds hbehind).1
      · rcases List.mem_cons.mp hsecond with rfl | hbehind
        · exact .inr (hrest.mem_bounds hlater).1
        · exact ih hrest hlater hbehind

/-! ### Requests -/

variable {reach : Reach} {store after : PageStore}

theorem Valid.hosts (h : store.Valid reach) {entry : Nat × Nat} (hmem : entry ∈ store.live) :
    reach.Hosts entry := by
  obtain ⟨hbehind, -, hend⟩ := h.spaced.mem_bounds hmem
  have hlimit : store.limit < wordSpan := h.hosted.ends
  exact ⟨by omega, Reach.holds_of_part h.hosted.reached hbehind hend⟩

/-- Pages that were given are live from then on, and they were not before. -/
theorem allocate_ok (h : store.Valid reach) (hok : store.allocate pages = (.ok address, after)) :
    after.Valid reach ∧ (∀ entry ∈ store.live, entry ∈ after.live)
      ∧ (address, pages) ∈ after.live ∧ (address, pages) ∉ store.live := by
  unfold allocate at hok
  split at hok
  · cases hok
  · split at hok
    · cases hok
    · rename_i place hplace
      cases hok
      unfold place? at hplace
      split at hplace
      · cases hplace
      · rename_i hrequest
        have hpages : 0 < pages := by omega
        refine ⟨⟨h.hosted, spaced_insert h.spaced hpages hplace, h.fails⟩, fun entry hmem => ?_,
          (mem_insert _).mpr (.inl rfl), fun hmem => ?_⟩
        · exact (mem_insert entry).mpr (.inr hmem)
        · -- Pages have bytes, so they are not apart from themselves.
          have hsize : 0 < pages * pageSize := Nat.mul_pos hpages (by decide)
          have hapart := gap?_apart h.spaced hplace hmem
          simp only [Apart, or_self] at hapart
          omega

/-- A request that is refused leaves the live pages as they are. -/
theorem allocate_error {status : Status} (h : store.Valid reach)
    (herror : store.allocate pages = (.error status, after)) :
    status ≠ .success ∧ after.Valid reach ∧ after.live = store.live := by
  unfold allocate at herror
  split at herror
  · rename_i armed rest hnext
    cases herror
    unfold Failure.next? at hnext
    split at hnext
    · rename_i failed count harmed
      cases hnext
      have hfails : status ≠ .success := h.fails _ harmed
      refine ⟨hfails, ⟨h.hosted, h.spaced, fun failure hfailure => ?_⟩, rfl⟩
      cases hfailure
      exact hfails
    · cases hnext
  · split at herror
    · cases herror
      exact ⟨by decide, h, rfl⟩
    · cases herror

/-- Giving pages back keeps everything else live. -/
theorem free_live (h : store.Valid reach) (address pages : Nat) :
    (store.free address pages).2.Valid reach
      ∧ ∀ entry ∈ store.live, entry ≠ (address, pages) →
        entry ∈ (store.free address pages).2.live := by
  unfold free
  split
  · exact ⟨⟨h.hosted, h.spaced, h.fails⟩, fun entry hmem _ => hmem⟩
  · split
    · refine ⟨⟨h.hosted, h.spaced.erase _, h.fails⟩, fun entry hmem hne => ?_⟩
      exact (List.mem_erase_of_ne hne).mpr hmem
    · exact ⟨h, fun entry hmem _ => hmem⟩

end PageStore

/-- What the allocator of the bench does: it grants pages of its store, or fails and leaves
memory alone. -/
theorem Platform.allocate_forms (platform : Platform) (count : Nat) :
    (∃ address store, platform.device.pages.allocate count = (.ok address, store)
      ∧ platform.allocate count = (⟨.success, UInt64.ofNat address⟩,
        ⟨{ platform.device with pages := store },
          platform.memory.fill address (count * pageSize) platform.device.pages.fill⟩))
    ∨ ∃ status store, platform.device.pages.allocate count = (.error status, store)
      ∧ platform.allocate count =
        (⟨status, 0⟩, ⟨{ platform.device with pages := store }, platform.memory⟩) := by
  obtain ⟨device, memory⟩ := platform
  rcases hallocate : device.pages.allocate count with ⟨status | address, store⟩
  · refine .inr ⟨status, store, rfl, ?_⟩
    simp only [allocate, hallocate]
  · refine .inl ⟨address, store, rfl, ?_⟩
    simp only [allocate, hallocate]

namespace Keeper

variable {platform : Platform}

/-- What was live stays so, and what is granted is live from then on and was not before. -/
theorem own_allocate (h : platform.device.pages.Valid platform.device.reach) (count : Nat) :
    (platform.allocate count).2.device.pages.Valid platform.device.reach
      ∧ (∀ entry ∈ platform.device.pages.live,
        entry ∈ (platform.allocate count).2.device.pages.live)
      ∧ ((platform.allocate count).1.status = .success →
        ((platform.allocate count).1.address.toNat, count) ∈
            (platform.allocate count).2.device.pages.live
          ∧ ((platform.allocate count).1.address.toNat, count) ∉ platform.device.pages.live) := by
  rcases platform.allocate_forms count with
    ⟨address, store, hok, heq⟩ | ⟨status, store, herror, heq⟩
  · obtain ⟨hvalid, hkept, hlive, hfresh⟩ := PageStore.allocate_ok h hok
    have haddress : (UInt64.ofNat address).toNat = address := by
      have hends : address + count * pageSize < wordSpan := (hvalid.hosts hlive).ends
      exact UInt64.toNat_ofNat_of_lt' (Nat.lt_of_le_of_lt (Nat.le_add_right _ _) hends)
    rw [heq]
    dsimp only
    rw [haddress]
    exact ⟨hvalid, hkept, fun _ => ⟨hlive, hfresh⟩⟩
  · obtain ⟨hfails, hvalid, hlive⟩ := PageStore.allocate_error h herror
    rw [heq]
    exact ⟨hvalid, fun entry hmem => hlive ▸ hmem, fun hsuccess => (hfails hsuccess).elim⟩

/-- The allocator of the bench keeps its live pages apart. -/
def own : Keeper .own where
  Sound reach store := store.Valid reach
  Live store pages := pages ∈ store.live
  hosts hvalid hmem := hvalid.hosts hmem
  apart hvalid hfirst hsecond hne := hvalid.spaced.apart_of_mem hfirst hsecond hne
  allocate_repaged _ count platform := by
    rcases platform.allocate_forms count with ⟨_, store, -, heq⟩ | ⟨_, store, -, heq⟩
    · exact ⟨store, congrArg (·.2.device) heq⟩
    · exact ⟨store, congrArg (·.2.device) heq⟩
  allocate_sound _ count _ hvalid := (own_allocate hvalid count).1
  allocate_live _ count _ pages hvalid hmem := (own_allocate hvalid count).2.1 pages hmem
  granted _ count _ hvalid := (own_allocate hvalid count).2.2
  free_repaged _ _ _ _ := ⟨_, rfl⟩
  free_sound _ address count _ hvalid := (PageStore.free_live hvalid address.toNat count).1
  free_live _ address count _ pages hvalid hmem hne :=
    (PageStore.free_live hvalid address.toNat count).2 pages hmem hne

end Keeper

end CardHost.Bench
