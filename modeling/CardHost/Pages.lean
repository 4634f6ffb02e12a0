import CardHost.Descriptor
import CardHost.Platform.Basic

/-!
# DMA pages

Pages come from the platform's allocator and go back to it.  A run of pages is freed exactly once:
`Pages.release` logs a failure and does not try again, and `Pages.borrow` frees on every outcome of
the work done with them.
-/

namespace CardHost

/-- Pages owned by the driver. -/
structure Pages where
  services : Services
  address : UInt64
  count : Nat
deriving DecidableEq

/-- Frees a range of pages. -/
def Services.free (services : Services) (address : UInt64) (pages : Nat) : Action σ Unit :=
  .ofProg do
    let status ← Prog.request (.free services address pages)
    pure (HostError.ofStatus status)

namespace Pages

/-- Allocates pages. -/
def allocate (services : Services) (count : Nat) : Action σ Pages :=
  .ofProg do
    let grant ← Prog.request (.allocate services count)
    match HostError.ofStatus grant.status with
    | .ok () => pure (.ok ⟨services, grant.address, count⟩)
    | .error error => pure (.error error)

/-- Gives pages back; a failure is only logged. -/
def release (pages : Pages) : Prog σ Unit := do
  match ← (pages.services.free pages.address pages.count).run with
  | .ok () => pure ()
  | .error error => Prog.log (.pagesNotFreed pages.count pages.address error)

/-- Works with freshly allocated pages and gives them back whatever comes of it. -/
def borrow (services : Services) (count : Nat) (refused : HostError → Message)
    (work : Pages → Action σ α) : Action σ α := do
  let pages ← (allocate services count).onError refused
  .ofProg do
    let outcome ← (work pages).run
    pages.release
    pure outcome

/-- The bytes of the pages. -/
def size (pages : Pages) : Nat :=
  pages.count * pageSize

def render (pages : Pages) : String :=
  Text.record "DmaPages"
    [("address", Text.hex pages.address.toNat), ("pages", toString pages.count)]

end Pages

end CardHost
