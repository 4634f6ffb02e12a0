import CardHost.Descriptor
import CardHost.Platform.Basic

/-!
# The page allocator of the bench

Live allocations lie in one range of memory, sorted by address.  A request gets the lowest gap that
holds it.  A failure can be armed for the next requests of either kind; an armed failure is used up
before anything else is looked at.
-/

namespace CardHost.Bench

/-- A failure that the next requests meet. -/
structure Failure where
  status : Status
  count : Nat

/-- The failure of the next request, with what is left of it. -/
def Failure.next? : Option Failure → Option (Status × Option Failure)
  | some ⟨status, count + 1⟩ => some (status, some ⟨status, count⟩)
  | _ => none

/-- The allocator: its range of memory, the byte new pages are filled with, and the live
allocations as addresses and page counts. -/
structure PageStore where
  base : Nat
  capacity : Nat
  fill : UInt8
  live : List (Nat × Nat)
  allocateFailure : Option Failure
  freeFailure : Option Failure

namespace PageStore

/-- The end of the range. -/
def limit (store : PageStore) : Nat :=
  store.base + store.capacity * pageSize

/-- The lowest gap from an address on that holds a number of pages, between allocations sorted by
address. -/
def gap? (limit pages : Nat) : Nat → List (Nat × Nat) → Option Nat
  | start, [] => if start + pages * pageSize ≤ limit then some start else none
  | start, (address, count) :: rest =>
    if start + pages * pageSize ≤ address then some start
    else gap? limit pages (address + count * pageSize) rest

/-- A sorted list of allocations with one more. -/
def insert (address pages : Nat) : List (Nat × Nat) → List (Nat × Nat)
  | [] => [(address, pages)]
  | entry :: rest =>
    if address ≤ entry.1 then (address, pages) :: entry :: rest
    else entry :: insert address pages rest

/-- Where a request would be placed. -/
def place? (store : PageStore) (pages : Nat) : Option Nat :=
  if pages = 0 ∨ store.capacity < pages then none
  else gap? store.limit pages store.base store.live

/-- Allocates pages: the address, or the status of the failure. -/
def allocate (store : PageStore) (pages : Nat) : Except Status Nat × PageStore :=
  match Failure.next? store.allocateFailure with
  | some (status, rest) => (.error status, { store with allocateFailure := rest })
  | none =>
    match store.place? pages with
    | none => (.error .outOfResources, store)
    | some address => (.ok address, { store with live := insert address pages store.live })

/-- Frees an allocation that matches a live one exactly. -/
def free (store : PageStore) (address pages : Nat) : Status × PageStore :=
  match Failure.next? store.freeFailure with
  | some (status, rest) => (status, { store with freeFailure := rest })
  | none =>
    if (address, pages) ∈ store.live then
      (.success, { store with live := store.live.erase (address, pages) })
    else
      (.notFound, store)

end PageStore

end CardHost.Bench
