import BeylaTracer.Instrumenter
import Mathlib.Data.List.Infix

/-!
# `ProcessTracer`

`loadTracers` (which is `Init`), `Run`, `NewExecutable`, `NewExecutableInstance` and
`UnlinkExecutable` as `TracerM` programs over the kernel `k` and the fixed list `ps` of the
tracer's `Programs`. A program is named in the trace by its position in `ps`.

`step` runs one operation from a frame with nothing in scope and keeps the world it ends in,
whether the operation returned an error or not: that is all a caller of the Go method is left
with. A panic ends the process, so `run` issues no operation to a panicked world, and
`Reachable` closes the initial worlds under the steps that do not panic.
-/

namespace BeylaTracer

/-- `strings.Contains`. -/
def stringsContains (s substr : String) : Bool :=
  decide (substr.toList <:+: s.toList)

/-- The test `loadTracers` makes on the error of `LoadAndAssign` before its fallback. -/
def isMissingHelper (err : String) : Bool :=
  stringsContains err "unknown func bpf_probe_write_user"

/-- The warning `loadTracers` logs before its fallback. -/
def missingHelperWarning : String :=
  "Failed to enable distributed tracing context-propagation on a Linux Kernel without write " ++
    "memory support. To avoid seeing this message, please ensure you have correctly mounted " ++
    "/sys/kernel/security. and ensure beyla has the SYS_ADMIN linux capability" ++
    "For more details set BEYLA_LOG_LEVEL=DEBUG."

/-- `pt.Instrumentables[ino] = i`. -/
def World.store (w : World) (ino : Nat) (i : Instrumenter) : World :=
  { w with instrumentables := Function.update w.instrumentables ino (some i) }

section

variable (k : Kernel) (ps : List Program)

/-- `ProcessTracer.loadSpec`: `Load`, then `RewriteConstants`, whose outcome is the next answer of
the environment. The result is Go's `(spec, err)` pair. -/
def loadSpec (idx : Nat) (p : Program) : TracerM (Except String CollectionSpec) := do
  let override := (← get).1.integrityModeOverride
  emit (.load idx override)
  match p.load override with
  | .error err => pure (.error s!"loading eBPF program: {err}")
  | .ok spec =>
    match ← kernelCall k with
    | some err => pure (.error s!"rewriting BPF constants definition: {err}")
    | none => pure (.ok spec)

/-- `spec.LoadAndAssign(p.BpfObjects(), ...)`: a kernel call; when it succeeds the program's
objects are those of `spec`. -/
def loadAndAssign (idx : Nat) (spec : CollectionSpec) : TracerM (Option String) := do
  let r ← kernelCall k
  emit (.loadAndAssign idx r)
  (if r.isNone then
    modify fun s => ({ s.1 with assigned := Function.update s.1.assigned idx (some spec) }, s.2)
  else pure ())
  pure r

/-- The fallback of `loadTracers` once `LoadAndAssign` failed with `err`: on the missing
`bpf_probe_write_user` helper, set the override flag and load the program again. -/
def retryLoad (idx : Nat) (p : Program) (err : String) : TracerM (Option String) := do
  if isMissingHelper err then
    emit (.log .warn missingHelperWarning)
    setIntegrityModeOverride
    match ← loadSpec k idx p with
    | .ok spec => loadAndAssign k idx spec
    | .error err => pure (some err)
  else pure (some err)

/-- `LoadAndAssign` with its fallback: the `err` that `loadTracers` checks after them. -/
def loadAndAssignOrRetry (idx : Nat) (p : Program) (spec : CollectionSpec) :
    TracerM (Option String) := do
  match ← loadAndAssign k idx spec with
  | none => pure none
  | some err => retryLoad k idx p err

/-- One iteration of the loop of `loadTracers`, for the program at position `idx`. -/
def loadProgram (idx : Nat) (p : Program) : TracerM Unit := do
  match ← loadSpec k idx p with
  | .error err => throw err
  | .ok spec =>
    match ← loadAndAssignOrRetry k idx p spec with
    | some err => throw s!"loading and assigning BPF objects: {err}"
    | none =>
      emit (.setupTailCalls idx)
      emit (.setupTC idx)
      kprobes k p
      tracepoints k p
      sockfilters k p

/-- `ProcessTracer.loadTracers`, with `i` the instrumenter of the global probes. -/
def loadTracers : TracerM Unit := do
  modify fun s => (s.1, {})
  ps.enum.forM fun e => loadProgram k e.1 e.2

/-- The loop of `NewExecutable`: every program registers the offsets, then its Go probes and its
uprobes are attached; the first error is returned. -/
def newExecutableLoop (ie : Instrumentable) : TracerM Unit :=
  ps.enum.forM fun e => do
    emit (.registerOffsets e.1 ie.fileInfo.ino)
    goprobes k e.1 e.2
    uprobes k ie.fileInfo.pid e.1 e.2

/-- `ProcessTracer.NewExecutable`. The instrumenter `i` is stored only when the loop returns. -/
def newExecutable (ie : Instrumentable) : TracerM Unit := do
  modify fun s => (s.1, { offsets := ie.offsets })
  newExecutableLoop k ps ie
  modify fun s => (s.1.store ie.fileInfo.ino s.2, s.2)

/-- The loop of `NewExecutableInstance`: the uprobes of every program. -/
def newExecutableInstanceLoop (pid : Nat) : TracerM Unit :=
  ps.enum.forM fun e => uprobes k pid e.1 e.2

/-- `ProcessTracer.NewExecutableInstance`. The map holds a pointer to the instrumenter, so what
`uprobes` appended to it stays in the map also when it fails. -/
def newExecutableInstance (ie : Instrumentable) : TracerM Unit := fun s =>
  match s.1.instrumentables ie.fileInfo.ino with
  | some i =>
    match newExecutableInstanceLoop k ps ie.fileInfo.pid (s.1, i) with
    | .ok _ s' => .ok () (s'.1.store ie.fileInfo.ino s'.2, s.2)
    | .error err s' => .error err (s'.1.store ie.fileInfo.ino s'.2, s.2)
  | none => ptLog .warn "Attempted to update non-existent tracer" s

/-- The first loop of `UnlinkExecutable`: `Close` on every closable, a failure only logged. -/
def closeAll (cs : List Handle) : TracerM Unit :=
  cs.forM fun c => do
    if (← closeHandle k c).isSome then ptLog .debug "Unable to close on unlink"

/-- The second loop of `UnlinkExecutable`: every program is told to unlink every module. -/
def unlinkLibs (ms : List Nat) : TracerM Unit :=
  ms.forM fun m => ps.enum.forM fun e => emit (.unlinkInstrumentedLib e.1 m)

/-- `ProcessTracer.UnlinkExecutable`. -/
def unlinkExecutable (info : FileInfo) : TracerM Unit := do
  match (← get).1.instrumentables info.ino with
  | some i =>
    closeAll k i.closables
    unlinkLibs ps i.modules.keys
    modify fun s =>
      ({ s.1 with instrumentables := Function.update s.1.instrumentables info.ino none }, s.2)
  | none => ptLog .warn "Unable to find executable to unlink"

/-- `ProcessTracer.Run`: it sets `pt.log` and logs that the tracer starts. The goroutines it
starts, each program's `Run` and the watcher of `ctx`, are not modelled. -/
def ProcessTracer.run : TracerM Unit := do
  modify fun s => ({ s.1 with logger := true }, s.2)
  ptLog .debug "starting process tracer"

end

/-- The calls the process tracer receives. -/
inductive Op
  | init
  | run
  | newExecutable (ie : Instrumentable)
  | newExecutableInstance (ie : Instrumentable)
  | unlinkExecutable (info : FileInfo)

section

variable (k : Kernel) (ps : List Program)

/-- The method an operation calls. -/
def Op.call : Op → TracerM Unit
  | .init => loadTracers k ps
  | .run => ProcessTracer.run
  | .newExecutable ie => BeylaTracer.newExecutable k ps ie
  | .newExecutableInstance ie => BeylaTracer.newExecutableInstance k ps ie
  | .unlinkExecutable info => BeylaTracer.unlinkExecutable k ps info

/-- The world after one operation, returned or failed. -/
def step (w : World) (op : Op) : World :=
  (final (op.call k ps) (w, {})).1

/-- The world after an operation is issued: a process that panicked runs nothing. -/
def next (w : World) (op : Op) : World :=
  if w.panicked then w else step k ps w op

/-- The world after a sequence of operations. -/
def run (w : World) (ops : List Op) : World :=
  ops.foldl (next k ps) w

/-- Whether the operation returned no error. -/
def succeeds (w : World) (op : Op) : Bool :=
  match op.call k ps (w, {}) with
  | .ok _ _ => true
  | .error _ _ => false

/-- The worlds of a running process tracer from a fresh start: every step that does not panic. -/
inductive Reachable : World → Prop
  | initial (override : Bool) : Reachable (World.initial override)
  | step {w : World} (op : Op) : Reachable w → (step k ps w op).panicked = false →
      Reachable (step k ps w op)

end

end BeylaTracer
