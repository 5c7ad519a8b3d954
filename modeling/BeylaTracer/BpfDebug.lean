import Mathlib.Control.Basic

/-!
# The generated close helpers of `secexec` (`bpf_debug_bpfel_x86.go`)

`bpf2go` generates, for the `bpf_debug` object of the `secexec` tracer, a `Close` method on the
programs, on the maps and on the objects that hold both, each of which is `_Bpf_debugClose` over
its fields. A closer is either a kernel object (an `*ebpf.Program` or an `*ebpf.Map`), named by its
`ebpf` tag, or one of these structs, whose `Close` recurses into its members.

`Close` runs in `CloseM`, whose state is the list of kernel objects closed so far, in order; the
kernel's answer to closing object `n` is `answer n` (`none` for success).
-/

namespace BeylaTracer

/-- An `io.Closer` of the generated code. -/
inductive Closer
  /-- An `*ebpf.Program` or `*ebpf.Map`, by its `ebpf` tag. -/
  | object (name : String)
  /-- A struct whose `Close` is `_Bpf_debugClose` over its fields, in field order. -/
  | struct (members : List Closer)

/-- The objects closed so far. -/
abbrev CloseM := StateM (List String)

section

variable (answer : String → Option String)

/-- `Close` on a kernel object: it is released and the kernel's answer returned. -/
def closeObject (name : String) : CloseM (Option String) := fun closed =>
  (answer name, closed ++ [name])

mutual

/-- `closer.Close()`. -/
def Closer.close : Closer → CloseM (Option String)
  | .object name => closeObject answer name
  | .struct members => bpfDebugClose members

/-- `_Bpf_debugClose`: `Close` on each closer in turn, returning the first error. -/
def bpfDebugClose : List Closer → CloseM (Option String)
  | [] => pure none
  | c :: cs => do
    match ← c.close with
    | some err => pure (some err)
    | none => bpfDebugClose cs

end

end

/-- `bpf_debugPrograms`. -/
def bpfDebugPrograms : Closer :=
  .struct [.object "kprobe_do_task_dead", .object "syscall_enter_execve",
    .object "syscall_enter_execveat"]

/-- `bpf_debugMaps`. -/
def bpfDebugMaps : Closer :=
  .struct [.object "events"]

/-- `bpf_debugObjects`: its `Close` is `_Bpf_debugClose(&o.bpf_debugPrograms, &o.bpf_debugMaps)`. -/
def bpfDebugObjects : Closer :=
  .struct [bpfDebugPrograms, bpfDebugMaps]

mutual

/-- The kernel objects under a closer, in the order `Close` reaches them. -/
def Closer.objects : Closer → List String
  | .object name => [name]
  | .struct members => objectsOf members

/-- The kernel objects under a list of closers, in order. -/
def objectsOf : List Closer → List String
  | [] => []
  | c :: cs => c.objects ++ objectsOf cs

end

end BeylaTracer
