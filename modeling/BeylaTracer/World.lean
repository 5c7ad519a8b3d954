import BeylaTracer.MonadTools
import Mathlib.Data.Finset.Basic
import Mathlib.Logic.Function.Basic

/-!
# The tracer's world

The state the code of `pkg/internal/ebpf` runs on. `World` holds the `Instrumentables` map of a
`ProcessTracer`, the process-wide `ebpfcommon.IntegrityModeOverride` flag, the objects each
program's `BpfObjects()` was assigned by `LoadAndAssign`, whether `Run` has set the tracer's
logger `pt.log`, and the kernel's side: the number of kernel calls made so far and the attachment
handles that are open. Calls to the programs and log lines go to `trace`, in order.

The kernel is a parameter: `Kernel.answer n` is the answer to the `n`-th kernel call, so every
pattern of failures over a run is some `Kernel`. An attachment handle is named by the number of
the call that opened it, which makes handles fresh by construction.

A Go function that mutates its receiver runs in `TracerM`, on the world and the instrumenter `i`
the Go code has in scope; an early `return err` is a `throw` that keeps the state reached. A call
on the nil `pt.log` of a tracer that `Run` has not started is a nil-pointer panic: it throws too,
and marks the world `panicked`, after which the process runs nothing more.
-/

namespace BeylaTracer

/-- An attachment handle, an `io.Closer` of `link`: the number of the kernel call that opened
it. -/
abbrev Handle := Nat

/-- The kernel as the tracer sees it. -/
structure Kernel where
  /-- The answer to kernel call number `n`: `none` when it succeeds, else the error text. -/
  answer : Nat → Option String
  /-- Whether the running kernel has a symbol (a kprobe or tracepoint target). -/
  hasSymbol : String → Bool
  /-- The inode of the module from which process `pid` maps shared library `lib`. -/
  libInode : Nat → String → Option Nat

/-- A kernel that grants every call and has every symbol. -/
def Kernel.granting : Kernel := ⟨fun _ => none, fun _ => true, fun _ _ => none⟩

/-- `ebpfcommon.FunctionPrograms`: the programs attached at the entry and at the return of a
function, each named by its field in the program's BPF objects (`nil` is `none`). -/
structure FunctionPrograms where
  start : Option String := none
  «end» : Option String := none
  deriving DecidableEq, Repr

/-- An `ebpf.CollectionSpec`, named by the compiled object it was read from. -/
abbrev CollectionSpec := String

/-- The methods of the `Tracer` interface that the process tracer calls. The ones that read the
process-wide `IntegrityModeOverride` flag take its value as an argument. The probe tables name
fields of `p.bpfObjects`, which are `nil` until `LoadAndAssign` fills them: `goProbes` and
`uProbes`, which `NewExecutable` may read before `Init`, take the objects assigned so far; the
others are read only after the program's `LoadAndAssign` succeeded. -/
structure Program where
  load : Bool → Except String CollectionSpec
  kProbes : List (String × FunctionPrograms)
  tracepoints : List (String × FunctionPrograms)
  socketFilters : List String
  goProbes : Option CollectionSpec → Bool → List (String × FunctionPrograms)
  uProbes : Option CollectionSpec → List (String × List (String × FunctionPrograms))

/-- Where a function's code starts and where it returns, from `goexec.Offsets.Funcs`. -/
structure FuncOffsets where
  start : Nat
  returns : List Nat
  deriving DecidableEq, Repr

/-- `goexec.Offsets`, the function offsets the instrumenter reads. -/
structure Offsets where
  funcs : String → Option FuncOffsets := fun _ => none

/-- `exec.FileInfo`: the executable's inode and the process running it. -/
structure FileInfo where
  ino : Nat
  pid : Nat
  cmdExePath : String := ""
  deriving DecidableEq, Repr

/-- `ebpf.Instrumentable`: a discovered executable and its offsets. -/
structure Instrumentable where
  fileInfo : FileInfo
  offsets : Offsets

/-- A Go `map[uint64]struct{}`: its keys, each once. -/
structure ModSet where
  keys : List Nat
  nodup : keys.Nodup

/-- `map[uint64]struct{}{}`. -/
def ModSet.empty : ModSet := ⟨[], List.nodup_nil⟩

/-- `s[m] = struct{}{}`. -/
def ModSet.insert (m : Nat) (s : ModSet) : ModSet :=
  if h : m ∈ s.keys then s else ⟨m :: s.keys, List.nodup_cons.mpr ⟨h, s.nodup⟩⟩

/-- `instrumenter`: the attachment handles of one executable, in the order they were opened,
and the shared-library modules already instrumented through it. -/
structure Instrumenter where
  offsets : Offsets := {}
  closables : List Handle := []
  modules : ModSet := .empty

/-- Severity of a log line. -/
inductive Level
  | debug
  | info
  | warn
  deriving DecidableEq, Repr

/-- What the tracer does that others can see: calls into a program (by its position in
`Programs`) and `LoadAndAssign` of its objects with the error it returned, `Close` calls on
handles, and log lines. -/
inductive Event
  | load (prog : Nat) (override : Bool)
  | loadAndAssign (prog : Nat) (err : Option String)
  | setupTailCalls (prog : Nat)
  | setupTC (prog : Nat)
  | registerOffsets (prog : Nat) (ino : Nat)
  | close (h : Handle)
  | unlinkInstrumentedLib (prog : Nat) (ino : Nat)
  | log (level : Level) (msg : String)
  deriving DecidableEq, Repr

/-- The `Load` call an event records: the program and the override flag it read. -/
def Event.loadCall? : Event → Option (Nat × Bool)
  | .load prog override => some (prog, override)
  | _ => none

/-- The program whose loading an event records: a `Load` or a `LoadAndAssign` call. -/
def Event.loading? : Event → Option Nat
  | .load prog _ => some prog
  | .loadAndAssign prog _ => some prog
  | _ => none

/-- The handle an event closes. -/
def Event.closed? : Event → Option Handle
  | .close h => some h
  | _ => none

/-- The `UnlinkInstrumentedLib` call an event records: the program and the module. -/
def Event.libUnlink? : Event → Option (Nat × Nat)
  | .unlinkInstrumentedLib prog ino => some (prog, ino)
  | _ => none

/-- The `Load` calls of a trace, in order. -/
def loadCalls (evs : List Event) : List (Nat × Bool) := evs.filterMap Event.loadCall?

/-- The `Load` and `LoadAndAssign` calls of a trace for the program at position `idx`, in
order. -/
def programCalls (idx : Nat) (evs : List Event) : List Event :=
  evs.filter fun e => e.loading? = some idx

/-- The `Close` calls of a trace, in order. -/
def closeCalls (evs : List Event) : List Handle := evs.filterMap Event.closed?

/-- The `UnlinkInstrumentedLib` calls of a trace, in order. -/
def libUnlinks (evs : List Event) : List (Nat × Nat) := evs.filterMap Event.libUnlink?

/-- The state of a process tracer, its process and its kernel. -/
structure World where
  /-- `pt.Instrumentables`. -/
  instrumentables : Nat → Option Instrumenter
  /-- `common.IntegrityModeOverride`. -/
  integrityModeOverride : Bool
  /-- The number of kernel calls made so far. -/
  tick : Nat
  /-- The attachment handles that are open. -/
  live : Finset Handle
  /-- The objects `LoadAndAssign` assigned to each program. -/
  assigned : Nat → Option CollectionSpec
  /-- `pt.log` is set: `Run` has run. -/
  logger : Bool
  /-- A call on a nil `pt.log` panicked, which ends the process. -/
  panicked : Bool
  /-- What others saw, in order. -/
  trace : List Event

/-- A world before any tracer operation, with the override flag at `override`. -/
def World.initial (override : Bool) : World where
  instrumentables _ := none
  integrityModeOverride := override
  tick := 0
  live := ∅
  assigned _ := none
  logger := false
  panicked := false
  trace := []

/-- The world and the instrumenter in scope. -/
abbrev Frame := World × Instrumenter

/-- A Go function of the tracer that returns an `error`. -/
abbrev TracerM := EStateM String Frame

section Primitives

variable (k : Kernel)

/-- A kernel call: it is numbered by `tick` and answered by `k`. -/
def kernelCall : TracerM (Option String) := fun s =>
  .ok (k.answer s.1.tick) ({ s.1 with tick := s.1.tick + 1 }, s.2)

/-- Something the tracer does that others see. -/
def emit (e : Event) : TracerM Unit := fun s =>
  .ok () ({ s.1 with trace := s.1.trace ++ [e] }, s.2)

/-- One attachment: a kernel call whose handle, if it succeeds, is open and appended to
`closables`. -/
def attach : TracerM Unit := fun s =>
  match k.answer s.1.tick with
  | none =>
    .ok () ({ s.1 with tick := s.1.tick + 1, live := insert s.1.tick s.1.live },
      { s.2 with closables := s.2.closables ++ [s.1.tick] })
  | some err => .error err ({ s.1 with tick := s.1.tick + 1 }, s.2)

/-- `c.Close()`: the handle is released and the kernel's answer returned. -/
def closeHandle (c : Handle) : TracerM (Option String) := fun s =>
  .ok (k.answer s.1.tick)
    ({ s.1 with tick := s.1.tick + 1, live := s.1.live.erase c, trace := s.1.trace ++ [.close c] },
      s.2)

/-- `common.IntegrityModeOverride = true`. -/
def setIntegrityModeOverride : TracerM Unit := fun s =>
  .ok () ({ s.1 with integrityModeOverride := true }, s.2)

end Primitives

/-- What the Go runtime reports when a method of a nil `*slog.Logger` is called. -/
def nilPointerPanic : String :=
  "runtime error: invalid memory address or nil pointer dereference"

/-- `pt.log.Debug(msg, ...)` or `pt.log.Warn(msg, ...)`: the line is logged once `Run` has set
`pt.log`; before, `pt.log` is nil and the call panics. -/
def ptLog (level : Level) (msg : String) : TracerM Unit := fun s =>
  if s.1.logger then .ok () ({ s.1 with trace := s.1.trace ++ [.log level msg] }, s.2)
  else .error nilPointerPanic ({ s.1 with panicked := true }, s.2)

end BeylaTracer
