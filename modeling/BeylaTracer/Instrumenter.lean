import BeylaTracer.World

/-!
# The instrumenter's attachment methods

`instrumenter.kprobes`, `tracepoints`, `sockfilters`, `goprobes` and `uprobes` are called by the
process tracer but are not among the sources; they are modelled from the spec (§4.2): every
successful attachment appends its release handle to `closables`, and on an error the batch stops
with the handles already appended left in place. Each attachment is one kernel call (`attach`).
The per-bundle `AlreadyInstrumentedLib` and `RecordInstrumentedLib` of the spec (§4.1) are left
out of `uprobes`: the Go tracer's record nothing and answer `false`, so for it the per-instrumenter
`modules` set is the whole deduplication.
-/

namespace BeylaTracer

section

variable (k : Kernel)

/-- Modelled from the spec: a probe descriptor attaches its start program at entry and its end
program at return, one attachment each. -/
def probe (fp : FunctionPrograms) : TracerM Unit := do
  (if fp.start.isSome then attach k else pure ())
  (if fp.«end».isSome then attach k else pure ())

/-- `instrumenter.kprobes`. Modelled from the spec: each kprobe descriptor is attached at its
kernel symbol; a symbol the kernel lacks is passed over (the spec logs it), any other failure
stops the batch. -/
def kprobes (p : Program) : TracerM Unit :=
  p.kProbes.forM fun e => if k.hasSymbol e.1 then probe k e.2 else pure ()

/-- `instrumenter.tracepoints`. Modelled from the spec: as `kprobes`, addressed by the
tracepoint's `category/name`. -/
def tracepoints (p : Program) : TracerM Unit :=
  p.tracepoints.forM fun e => if k.hasSymbol e.1 then probe k e.2 else pure ()

/-- `instrumenter.sockfilters`. Modelled from the spec: for each socket filter, an internally
created `AF_PACKET` socket whose close is registered as a closable, then the filter attached to
it. -/
def sockfilters (p : Program) : TracerM Unit :=
  p.socketFilters.forM fun _ => do
    attach k
    match ← kernelCall k with
    | none => pure ()
    | some err => throw err

/-- Modelled from the spec: a Go function gets an entry uprobe at its start for the start
program and, for the end program, one at every return instruction; an end program without return
offsets fails with `AttachFailed`. -/
def goprobe (sym : String) (offs : FuncOffsets) (fp : FunctionPrograms) : TracerM Unit := do
  (if fp.start.isSome then attach k else pure ())
  (if fp.«end».isSome then do
      (if offs.returns.isEmpty then throw s!"AttachFailed goprobe {sym}" else pure ())
      offs.returns.forM fun _ => attach k
    else pure ())

/-- `instrumenter.goprobes` for the program at position `idx`. Modelled from the spec: every entry
of the program's `GoProbes` table, read with its objects and the override flag as they are now,
whose function the offsets know. -/
def goprobes (idx : Nat) (p : Program) : TracerM Unit := do
  let s ← get
  (p.goProbes (s.1.assigned idx) s.1.integrityModeOverride).forM fun e =>
    match s.2.offsets.funcs e.1 with
    | some offs => goprobe k e.1 offs e.2
    | none => pure ()

/-- `instrumenter.uprobes` for the program at position `idx`. Modelled from the spec: for each
shared library of the program's uprobe table, read with its objects as they are now, that process
`pid` maps, from a module whose inode is not yet in `modules`, every descriptor is attached as an
ordinary uprobe (and uretprobe), and then the inode is added to `modules`. -/
def uprobes (pid idx : Nat) (p : Program) : TracerM Unit := do
  let s ← get
  (p.uProbes (s.1.assigned idx)).forM fun e =>
    match k.libInode pid e.1 with
    | none => pure ()
    | some ino => do
      if ino ∈ (← get).2.modules.keys then pure ()
      else
        e.2.forM fun d => probe k d.2
        modify fun s => (s.1, { s.2 with modules := s.2.modules.insert ino })

end

end BeylaTracer
