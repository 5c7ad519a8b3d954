import BeylaTracer.ProcessTracer
import BeylaTracer.Proofs.Primitives

/-!
# Attachment batches grow their instrumenter

The attachment methods of the instrumenter are built from `attach`, one more kernel call in
`sockfilters`, the `modules` update of `uprobes`, and (in the loop of `NewExecutable`) the
`RegisterOffsets` call. So a preorder on frames that these steps keep is kept by every batch and
loop: the lemmas `probe_stays` to `newExecutableLoop_stays` say so once, and each property of the
batches below and in later modules is one of their instances.

Every attachment method is a `Grows` step: the handles it opens are fresh, they are appended to
`closables` in the order they were opened, and nothing else of the world changes but the kernel's
call count. In particular a batch that fails half-way leaves the handles it attached both open and
in `closables`; whether they stay reachable is up to the caller.
-/

namespace BeylaTracer

variable (k : Kernel)

/-- The update of `modules` in `uprobes`. -/
abbrev addModule (ino : Nat) : TracerM Unit :=
  modify fun s : Frame => (s.1, { s.2 with modules := s.2.modules.insert ino })

/-! ## Any preorder the primitive steps keep -/

section Generic

variable {R : Frame → Frame → Prop} [IsPreorder Frame R] (hattach : Stays R (attach k))
include hattach

theorem probe_stays (fp : FunctionPrograms) : Stays R (probe k fp) :=
  (Stays.ite hattach (stays_pure _)).bind fun _ => Stays.ite hattach (stays_pure _)

theorem kprobes_stays (p : Program) : Stays R (kprobes k p) :=
  Stays.forM fun e _ => Stays.ite (probe_stays k hattach e.2) (stays_pure _)

theorem tracepoints_stays (p : Program) : Stays R (tracepoints k p) :=
  Stays.forM fun e _ => Stays.ite (probe_stays k hattach e.2) (stays_pure _)

theorem sockfilters_stays (hcall : Stays R (kernelCall k)) (p : Program) :
    Stays R (sockfilters k p) :=
  Stays.forM fun _ _ => hattach.bind fun _ => hcall.bind fun r => by
    cases r
    · exact stays_pure _
    · exact stays_throw _

theorem goprobe_stays (sym : String) (offs : FuncOffsets) (fp : FunctionPrograms) :
    Stays R (goprobe k sym offs fp) :=
  (Stays.ite hattach (stays_pure _)).bind fun _ =>
    Stays.ite ((Stays.ite (stays_throw _) (stays_pure _)).bind fun _ =>
      Stays.forM fun _ _ => hattach) (stays_pure _)

theorem goprobes_stays (idx : Nat) (p : Program) : Stays R (goprobes k idx p) :=
  stays_get.bind fun _ => Stays.forM fun _ _ => by
    split
    · exact goprobe_stays k hattach _ _ _
    · exact stays_pure _

theorem uprobes_stays (hmodule : ∀ ino, Stays R (addModule ino)) (pid idx : Nat) (p : Program) :
    Stays R (uprobes k pid idx p) :=
  stays_get.bind fun _ => Stays.forM fun _ _ => by
    split
    · exact stays_pure _
    · exact stays_get.bind fun _ => Stays.ite (stays_pure _)
        ((Stays.forM fun d _ => probe_stays k hattach d.2).bind fun _ => hmodule _)

/-- The loop of `NewExecutable`, program after program. -/
theorem newExecutableLoop_stays (hmodule : ∀ ino, Stays R (addModule ino))
    (hregister : ∀ j ino, Stays R (emit (.registerOffsets j ino))) (ps : List Program)
    (ie : Instrumentable) : Stays R (newExecutableLoop k ps ie) :=
  Stays.forM fun _ _ => (hregister _ _).bind fun _ =>
    (goprobes_stays k hattach _ _).bind fun _ => uprobes_stays k hattach hmodule _ _ _

/-- The loop of `NewExecutableInstance`. -/
theorem newExecutableInstanceLoop_stays (hmodule : ∀ ino, Stays R (addModule ino))
    (ps : List Program) (pid : Nat) : Stays R (newExecutableInstanceLoop k ps pid) :=
  Stays.forM fun _ _ => uprobes_stays k hattach hmodule _ _ _

end Generic

/-! ## `Grows` -/

theorem kprobes_grows (p : Program) : Stays Grows (kprobes k p) :=
  kprobes_stays k (attach_grows k) p

theorem tracepoints_grows (p : Program) : Stays Grows (tracepoints k p) :=
  tracepoints_stays k (attach_grows k) p

theorem sockfilters_grows (p : Program) : Stays Grows (sockfilters k p) :=
  sockfilters_stays k (attach_grows k) (kernelCall_grows k) p

/-- Recording a module only adds it to `modules`. -/
theorem addModule_grows (ino : Nat) : Stays Grows (addModule ino) :=
  stays_modify fun _ => ⟨rfl, rfl, rfl, ⟨rfl, rfl⟩, rfl, fun _ hm => ModSet.mem_insert.mpr (.inr hm),
    le_rfl,
    ⟨[], (List.append_nil _).symm, nofun⟩, [], (List.append_nil _).symm,
    (Finset.union_empty _).symm, List.nodup_nil, by simp⟩

/-- The loop of `NewExecutable`, program after program. -/
theorem newExecutableLoop_grows (ps : List Program) (ie : Instrumentable) :
    Stays Grows (newExecutableLoop k ps ie) :=
  newExecutableLoop_stays k (attach_grows k) addModule_grows (fun _ _ => emit_grows rfl) ps ie

/-- The loop of `NewExecutableInstance`. -/
theorem newExecutableInstanceLoop_grows (ps : List Program) (pid : Nat) :
    Stays Grows (newExecutableInstanceLoop k ps pid) :=
  newExecutableInstanceLoop_stays k (attach_grows k) addModule_grows ps pid

end BeylaTracer
