import CardHost.Platform.Run

/-!
# Reading a journal

What an observer sees of a run: the accesses that happened in order, the time that was stalled, and
the log lines of the levels that show.  Equal reads in a row are one entry with a count, and
registers reached at physical addresses leave no entry.
-/

namespace CardHost

/-- The allocation type the firmware is asked for: pages at any address. -/
def anyPages : Nat := 0

/-- The memory type the firmware is asked for: boot services data. -/
def bootServicesData : Nat := 4

/-- One entry of a journal as it is shown. -/
inductive Entry (ρ : Type) where
  | read (offset : Nat) (value : UInt32) (times : Nat)
  | wrote (offset : Nat) (value : UInt32)
  | allocated (services : Services) (pages : Nat) (address : Option UInt64)
  | freed (address : UInt64) (pages : Nat) (status : Status)
  | raised (level : UInt64)
  | restored (level : UInt64)
  | entered
  | left (answer : ρ)

namespace Journal

/-- The address of a grant that succeeded. -/
def granted (grant : Grant) : Option UInt64 :=
  if grant.status = .success then some grant.address else none

/-- The shown entries with one event more, the latest first. -/
def extend (entries : List (Entry ρ)) : Event ρ → List (Entry ρ)
  | .read window offset value =>
    match window.services, entries with
    | .firmware, entries => entries
    | .supplied, .read lastOffset lastValue times :: rest =>
      if lastOffset = offset ∧ lastValue = value then
        .read offset value (times + 1) :: rest
      else
        .read offset value 1 :: .read lastOffset lastValue times :: rest
    | .supplied, entries => .read offset value 1 :: entries
  | .wrote window offset value =>
    match window.services with
    | .firmware => entries
    | .supplied => .wrote offset value :: entries
  | .allocated services pages grant => .allocated services pages (granted grant) :: entries
  | .freed _ address pages status => .freed address pages status :: entries
  | .raised level => .raised level :: entries
  | .restored level => .restored level :: entries
  | .entered => .entered :: entries
  | .left answer => .left answer :: entries
  | .stalled .. | .taken .. | .returned | .logged .. => entries

/-- The entries of a journal kept latest first, in the order they happened. -/
def entries (journal : List (Event ρ)) : List (Entry ρ) :=
  (journal.foldr (fun event shown => extend shown event) []).reverse

/-- How often the driver stalled, and for how long altogether. -/
def stalls (journal : List (Event ρ)) : Nat × Nat :=
  journal.foldl (fun total event =>
    match event with
    | .stalled _ microseconds _ => (total.1 + 1, total.2 + microseconds)
    | _ => total) (0, 0)

/-- The messages of a journal kept latest first, in the order they were logged. -/
def messages (journal : List (Event ρ)) : List Message :=
  journal.foldl (fun logged event =>
    match event with
    | .logged message => message :: logged
    | _ => logged) []

/-- The lines of the messages that show. -/
def lines (verbosity : Verbosity) (messages : List Message) : List String :=
  (messages.filter fun message => verbosity.shows message.level).map Message.line

end Journal

end CardHost
