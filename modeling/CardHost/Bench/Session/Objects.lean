import CardHost.Bench.Session.Basic

/-!
# Steps on the objects of a session

The loaded host, and a register window, a ring, pages and a lock that a script works on directly.
A step on an object that does not exist answers so and does nothing.
-/

namespace CardHost.Bench

/-! ## The loaded host -/

/-- Which services a host is loaded on; the firmware may lack its table. -/
inductive Source where
  | supplied | firmware | missing
deriving DecidableEq

/-- A step on the loaded host. -/
inductive HostStep where
  | load (config : HostConfig) (source : Source)
  | unload
  | loaded
  | call (call : Call)

/-- Loads a host from a source of services. -/
def Source.load (source : Source) (slot : Slot) (config : HostConfig) :
    Prog HostState (Except HostError Unit × Slot) :=
  match source with
  | supplied => slot.load config .supplied
  | firmware => slot.loadFirmware config true
  | missing => slot.loadFirmware config false

/-- Performs a step on the loaded host. -/
def Session.hostStep (session : Session) : HostStep → Except Halt (Reply × Session)
  | .load config source => do
    let ((outcome, slot), session) ← session.run (source.load session.slot config)
    pure (.outcome outcome, { session with slot := slot })
  | .unload => do
    let (slot, session) ← session.run session.slot.unload
    pure (.ok, { session with slot := slot })
  | .loaded => pure (.flag session.slot.host.isSome, session)
  | .call call => session.runFor (session.slot.perform call) .answer

/-! ## A register window -/

/-- A step on the register window. -/
inductive WindowStep where
  | make (base : UInt64)
  | base
  | render
  | read (offset : Nat)
  | write (offset : Nat) (value : UInt32)
  | setBits (offset : Nat) (bits : UInt32)
  | clearBits (offset : Nat) (bits : UInt32)
  | awaitClear (offset : Nat) (mask : UInt32) (bound : Option UInt32)
  | awaitSet (offset : Nat) (mask : UInt32) (bound : Option UInt32)
  | dump

/-- Performs a step on a window. -/
def Session.onWindow (session : Session) (window : Window) :
    WindowStep → Except Halt (Reply × Session)
  | .make _ => pure (.ok, session)
  | .base => pure (.number window.base.toNat, session)
  | .render => pure (.text window.render, session)
  | .read offset => session.runFor (window.read offset) fun value => .number value.toNat
  | .write offset value => session.runFor (window.write offset value) fun _ => .ok
  | .setBits offset bits => session.runFor (window.setBits offset bits) fun _ => .ok
  | .clearBits offset bits => session.runFor (window.clearBits offset bits) fun _ => .ok
  | .awaitClear offset mask bound =>
    session.runFor (window.awaitClear .supplied offset mask bound).run .outcome
  | .awaitSet offset mask bound =>
    session.runFor (window.awaitSet .supplied offset mask bound).run .outcome
  | .dump => session.runFor window.dump fun _ => .ok

/-- Performs a step on the window of the session. -/
def Session.windowStep (session : Session) (step : WindowStep) : Except Halt (Reply × Session) :=
  match step, session.window with
  | .make base, _ => pure (.ok, { session with window := some ⟨base, .supplied⟩ })
  | _, none => pure (.absent, session)
  | step, some window => session.onWindow window step

/-! ## A ring -/

/-- A step on the ring. -/
inductive RingStep where
  | make (count : Nat)
  | info
  | address (index : Nat)
  | get (index : Nat)
  | reset
  | free
  | prepare (length : Nat) (buffer : UInt64) (segment block : Nat)
  | program
  | start (length block : Nat)

/-- Performs a step on a ring. -/
def Session.onRing (session : Session) (ring : Ring) : RingStep → Except Halt (Reply × Session)
  | .make _ => pure (.ok, session)
  | .info => pure (.ring ring, session)
  | .address index =>
    session.runFor (Prog.require (ring.address? index)) fun address => .number address.toNat
  | .get index => session.runFor (ring.get? index) .descriptor
  | .reset => session.runFor ring.reset fun _ => .ok
  | .free => do
    let (outcome, session) ← session.run (ring.free .supplied).run
    pure (.outcome outcome, { session with ring := some .freed })
  | .prepare length buffer segment block =>
    session.runFor (ring.prepare length buffer segment block).run .geometry
  | .program =>
    match session.window with
    | none => pure (.absent, session)
    | some window => session.runFor (ring.program window) fun _ => .ok
  | .start length block =>
    match session.window with
    | none => pure (.absent, session)
    | some window => session.runFor (Ring.start window length block) fun _ => .ok

/-- Performs a step on the ring of the session. -/
def Session.ringStep (session : Session) (step : RingStep) : Except Halt (Reply × Session) :=
  match step, session.ring with
  | .make count, _ => do
    let (made, session) ← session.run (Ring.allocate .supplied count).run
    match made with
    | .ok ring => pure (.ok, { session with ring := some ring })
    | .error error => pure (.outcome (.error error), session)
  | _, none => pure (.absent, session)
  | step, some ring => session.onRing ring step

/-! ## Pages -/

/-- A step on numbered pages. -/
inductive PagesStep where
  | info
  | read
  | write (offset : Nat) (bytes : List UInt8)
  | release
  | disown

/-- Allocates pages and numbers them. -/
def Session.makePages (session : Session) (count : Nat) : Except Halt (Reply × Session) := do
  let (made, session) ← session.run (Pages.allocate .supplied count).run
  match made with
  | .error error => pure (.pagesNumber (.error error), session)
  | .ok pages =>
    let number := session.nextPages
    pure (.pagesNumber (.ok number),
      { session with pages := session.pages.set number pages, nextPages := number + 1 })

/-- Performs a step on some pages.  Bytes written have to lie inside them. -/
def Session.onPages (session : Session) (number : Nat) (pages : Pages) :
    PagesStep → Except Halt (Reply × Session)
  | .info => pure (.pages pages, session)
  | .read =>
    session.runFor (Prog.request (.load pages.address.toNat pages.size)) fun bytes =>
      .digest (.ofBytes bytes)
  | .write offset bytes =>
    if pages.size < offset + bytes.length then .error .fault
    else
      session.runFor (Prog.request (.store (pages.address.toNat + offset) bytes)) fun _ => .ok
  | .release => do
    let ((), session) ← session.run pages.release
    pure (.ok, { session with pages := session.pages.erase number })
  | .disown =>
    pure (.numbers [pages.address.toNat, pages.count],
      { session with pages := session.pages.erase number })

/-- Performs a step on the pages of a number. -/
def Session.pagesStep (session : Session) (number : Nat) (step : PagesStep) :
    Except Halt (Reply × Session) :=
  match session.pages.get? number with
  | none => pure (.absent, session)
  | some pages => session.onPages number pages step

/-! ## A lock -/

/-- A step on the lock. -/
inductive LockStep where
  | make (name : String) (level value : UInt64)
  | acquire
  | release
  | get
  | set (value : UInt64)
  | renderGuard
  | render
  | name
  | replace (value : UInt64)

/-- Runs a program on the lock of the session; the guarded cell is the lock's own. -/
def Session.runOnLock (session : Session) (held : HeldLock) (program : Prog UInt64 α) :
    Except Halt (α × Option UInt64 × Session) :=
  match session with
  | ⟨⟨shared, level, cell, verbosity, journal⟩, slot, window, ring, pages, next, lock⟩ =>
    let system : System machine UInt64 Answer := ⟨shared, level, held.cell, verbosity, journal⟩
    match program.run (fun _ => pure Answer.noHost) 0 system with
    | .ok (value, ⟨shared, level, lockCell, verbosity, journal⟩) =>
      .ok (value, lockCell,
        ⟨⟨shared, level, cell, verbosity, journal⟩, slot, window, ring, pages, next, lock⟩)
    | .error halt => .error halt

/-- Gives back the guard of a lock, if there is one. -/
def Session.releaseLock (session : Session) (held : HeldLock) : Except Halt (Session) :=
  match held.guard with
  | none => pure session
  | some guard => do
    let ((), cell, session) ← session.runOnLock held guard.release
    pure { session with lock := some ⟨held.lock, cell, none⟩ }

/-- A lock in writing. -/
def HeldLock.render (held : HeldLock) : String :=
  Text.record "TplMutex"
    [("name", Text.quoted held.lock.name), ("tpl", toString held.lock.level.toNat),
      ("locked", toString held.guard.isSome)]

/-- Performs a step on a lock. -/
def Session.onLock (session : Session) (held : HeldLock) :
    LockStep → Except Halt (Reply × Session)
  | .make .. => pure (.ok, session)
  | .acquire => do
    let (guard?, cell, session) ← session.runOnLock held held.lock.acquire?
    match guard? with
    | none => pure (.acquired false, session)
    | some guard =>
      pure (.acquired true, { session with lock := some ⟨held.lock, cell, some guard⟩ })
  | .release =>
    match held.guard with
    | none => pure (.absent, session)
    | some _ => do
      let session ← session.releaseLock held
      pure (.ok, session)
  | .get =>
    match held.guard with
    | none => pure (.absent, session)
    | some guard => pure (.number guard.state.toNat, session)
  | .set value =>
    match held.guard with
    | none => pure (.absent, session)
    | some guard =>
      pure (.ok,
        { session with lock := some { held with guard := some { guard with state := value } } })
  | .renderGuard =>
    match held.guard with
    | none => pure (.absent, session)
    | some guard => pure (.text (toString guard.state.toNat), session)
  | .render => pure (.text held.render, session)
  | .name => pure (.text held.lock.name, session)
  | .replace value =>
    match held.cell with
    | none => pure (.held, session)
    | some old =>
      pure (.number old.toNat, { session with lock := some { held with cell := some value } })

/-- Performs a step on the lock of the session.  A new lock first gives back the guard of the old
one. -/
def Session.lockStep (session : Session) (step : LockStep) : Except Halt (Reply × Session) :=
  match step, session.lock with
  | .make name level value, none =>
    pure (.ok, { session with lock := some ⟨⟨name, level⟩, some value, none⟩ })
  | .make name level value, some held => do
    let session ← session.releaseLock held
    pure (.ok, { session with lock := some ⟨⟨name, level⟩, some value, none⟩ })
  | _, none => pure (.absent, session)
  | step, some held => session.onLock held step

end CardHost.Bench
