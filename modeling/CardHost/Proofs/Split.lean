import CardHost.Host.Basic

/-!
# The split of a transfer

Where segments are whole numbers of blocks, the segments but the last end before the length, all
segments together cover the whole blocks, and the last segment takes what is left of them.  These
bounds are all that the descriptor chain of a transfer and its staging buffer depend on.
-/

namespace CardHost.Geometry

variable {length segment block : Nat}

theorem segments_pos (hlength : 0 < length) (hsegment : 0 < segment) (block : Nat) :
    0 < (ofLength length segment block).segments := by
  refine Nat.lt_of_not_le fun hzero => ?_
  have hle : length ≤ 0 * segment := (ceilDiv_le_iff hsegment).mp hzero
  omega

/-- The blocks hold the whole length. -/
theorem length_le_bytes (hblock : 0 < block) :
    length ≤ (ofLength length segment block).bytes :=
  (ceilDiv_le_iff hblock).mp (Nat.le_refl _)

/-- All segments but the last are needed. -/
theorem before_last_lt (hlength : 0 < length) (hsegment : 0 < segment) :
    ((ofLength length segment block).segments - 1) * segment < length := by
  refine Nat.lt_of_not_le fun hge => ?_
  have hle : ceilDiv length segment ≤ (ofLength length segment block).segments - 1 :=
    (ceilDiv_le_iff hsegment).mpr hge
  have hpos := segments_pos hlength hsegment block
  have hsame : (ofLength length segment block).segments = ceilDiv length segment := rfl
  omega

/-- The whole blocks fit the segments, since these are whole numbers of blocks. -/
theorem bytes_le_segments (hsegment : 0 < segment) (hblock : 0 < block)
    (hwhole : segment % block = 0) :
    (ofLength length segment block).bytes ≤
      (ofLength length segment block).segments * segment := by
  obtain ⟨blocks, hblocks⟩ := Nat.dvd_of_mod_eq_zero hwhole
  have hlength : length ≤ ceilDiv length segment * segment := (ceilDiv_le_iff hsegment).mp
    (Nat.le_refl _)
  have hcount : ceilDiv length block ≤ ceilDiv length segment * blocks := by
    rw [ceilDiv_le_iff hblock, Nat.mul_assoc, Nat.mul_comm blocks block, ← hblocks]
    exact hlength
  calc ceilDiv length block * block
      ≤ ceilDiv length segment * blocks * block := Nat.mul_le_mul_right block hcount
    _ = ceilDiv length segment * segment := by rw [Nat.mul_assoc, Nat.mul_comm blocks, ← hblocks]

/-- The last segment covers the rest of the length. -/
theorem rest_le_lastSegment (hblock : 0 < block) :
    length - ((ofLength length segment block).segments - 1) * segment ≤
      (ofLength length segment block).lastSegment := by
  have hle : length ≤ (ofLength length segment block).bytes := length_le_bytes hblock
  have hlast : (ofLength length segment block).lastSegment =
      (ofLength length segment block).bytes -
        ((ofLength length segment block).segments - 1) * segment := rfl
  rw [hlast]
  exact Nat.sub_le_sub_right hle _

/-- The last segment is no longer than the others. -/
theorem lastSegment_le (hlength : 0 < length) (hsegment : 0 < segment) (hblock : 0 < block)
    (hwhole : segment % block = 0) : (ofLength length segment block).lastSegment ≤ segment := by
  have hbytes : (ofLength length segment block).bytes ≤
      (ofLength length segment block).segments * segment :=
    bytes_le_segments hsegment hblock hwhole
  have hpos := segments_pos hlength hsegment block
  have hlast : (ofLength length segment block).lastSegment =
      (ofLength length segment block).bytes -
        ((ofLength length segment block).segments - 1) * segment := rfl
  generalize (ofLength length segment block).segments = segments at hbytes hpos hlast
  obtain ⟨before, rfl⟩ : ∃ before, segments = before + 1 := ⟨segments - 1, by omega⟩
  rw [Nat.add_sub_cancel] at hlast
  rw [Nat.succ_mul] at hbytes
  omega

/-- The whole blocks end with the last segment. -/
theorem bytes_eq (hlength : 0 < length) (hsegment : 0 < segment) (hblock : 0 < block) :
    ((ofLength length segment block).segments - 1) * segment
        + (ofLength length segment block).lastSegment =
      (ofLength length segment block).bytes := by
  have hbefore : ((ofLength length segment block).segments - 1) * segment < length :=
    before_last_lt hlength hsegment
  have hle : length ≤ (ofLength length segment block).bytes := length_le_bytes hblock
  have hlast : (ofLength length segment block).lastSegment =
      (ofLength length segment block).bytes -
        ((ofLength length segment block).segments - 1) * segment := rfl
  omega

end CardHost.Geometry

/-- The split of a transfer of this host. -/
def CardHost.Host.split (host : CardHost.Host) (length : Nat) : CardHost.Geometry :=
  .ofLength length host.config.segmentSize.toNat host.config.blockSize.toNat
