import BeylaTracer.Proofs.Ownership

/-!
# Context propagation in the Go tracer

`Tracer.Load` and `Tracer.GoProbes` each ask `supportsContextPropagation()`, which reads the
process-wide override flag at the time of the call. The object `Load` picks is a
context-propagation object exactly when the flag its `Load` read was unset (and the kernel
supports them), and the probe table that `NewExecutable` attaches has the context-propagation
probes exactly when the flag is unset now. In every reachable tracer the object assigned to the Go
tracer comes from a `Load` right before a `LoadAndAssign` that succeeded, and the table agrees with
that object exactly while the flag is still unset (`goProbes_match_loaded_object`). They disagree
when a later program of the same `Init` sets the flag through the missing-helper fallback after the
Go tracer was loaded with it unset (`goProbes_disagree_with_loaded_object`). The flag itself, once
set, stays set for the rest of any run (`run_override_stays_set`).
-/

namespace BeylaTracer

/-! ## The Go tracer -/

theorem loadObject_ok {parse : String → Option String} {name spec : String}
    (h : loadObject parse name = .ok spec) : spec = name := by
  unfold loadObject at h
  split at h <;> cases h
  rfl

/-- The object `Tracer.Load` returns is a context-propagation object exactly when
`supportsContextPropagation()` held. -/
theorem isContextPropagation_of_load {cfg : TracerConfig} {parse : String → Option String}
    {supports f : Bool} {spec : CollectionSpec} (h : Tracer.load cfg parse supports f = .ok spec) :
    IsContextPropagation spec ↔ supportsContextPropagation supports f = true := by
  rw [loadObject_ok h]
  cases supportsContextPropagation supports f <;> cases cfg.bpfDebug <;> decide

/-- Once the tracer's objects are assigned, `GoProbes` lists the context-propagation probes
exactly when `supportsContextPropagation()` holds. -/
theorem hasContextPropagationProbes_goProbes (spec : CollectionSpec) (supports f : Bool) :
    HasContextPropagationProbes (Tracer.goProbes (some spec) supports f) ↔
      supportsContextPropagation supports f = true := by
  have hobj : ∀ l : List (String × FunctionPrograms),
      (l.map fun e => (e.1, e.2.ofObjects (some spec))) = l := fun l => by
    simp [FunctionPrograms.ofObjects]
  unfold Tracer.goProbes
  split
  · exact iff_of_true (fun _ he => (hobj _).symm ▸ List.mem_append_right _ he) ‹_›
  · exact iff_of_false (by rw [hobj]; decide) ‹_›

/-! ## The invariant -/

/-- Every object assigned to a program came from that program's `Load`, at an override value that
is still set, and that `Load` was followed by a `LoadAndAssign` of the program that succeeded. -/
def AssignedFromLoad (ps : List Program) (w : World) : Prop :=
  ∀ j spec, w.assigned j = some spec → ∃ p f, ps[j]? = some p ∧ p.load f = .ok spec ∧
    (f = true → w.integrityModeOverride = true) ∧
    [.load j f, .loadAndAssign j none] <:+: programCalls j w.trace

/-- Calls into a program stay in a trace that grows. -/
theorem programCalls_infix_of_prefix {c t t' : List Event} {j : Nat} (hc : c <:+: programCalls j t)
    (ht : t <+: t') : c <:+: programCalls j t' := by
  obtain ⟨e, rfl⟩ := ht
  rw [programCalls_append]
  exact hc.trans (List.prefix_append _ _).isInfix

section

variable (k : Kernel) (ps : List Program)

theorem AssignedFromLoad.of_eq {w w' : World} (hw : AssignedFromLoad ps w)
    (ha : w'.assigned = w.assigned)
    (ho : w.integrityModeOverride = true → w'.integrityModeOverride = true)
    (ht : w.trace <+: w'.trace) : AssignedFromLoad ps w' := fun j spec hj =>
  let ⟨p, f, hp, hl, hf, hc⟩ := hw j spec (ha ▸ hj)
  ⟨p, f, hp, hl, ho ∘ hf, programCalls_infix_of_prefix hc ht⟩

/-- `Run`, `NewExecutable`, `NewExecutableInstance` and `UnlinkExecutable` leave the assigned
objects and the override flag alone. -/
theorem step_keeps_objects {w : World} {op : Op} (hop : op ≠ .init) :
    (step k ps w op).assigned = w.assigned ∧
      (step k ps w op).integrityModeOverride = w.integrityModeOverride := by
  cases op with
  | init => exact absurd rfl hop
  | run => rw [step_run]; exact ⟨rfl, rfl⟩
  | newExecutable ie =>
    obtain ⟨s, hg, ⟨-, hs⟩ | ⟨-, hs⟩⟩ := step_newExecutable k ps w ie <;> rw [hs] <;>
      exact ⟨hg.assigned, hg.override⟩
  | newExecutableInstance ie =>
    cases hi : w.instrumentables ie.fileInfo.ino with
    | none =>
      rw [step_newExecutableInstance_unknown k ps hi]
      exact ⟨rfl, rfl⟩
    | some i =>
      obtain ⟨s, hg, hs⟩ := step_newExecutableInstance_known k ps hi
      rw [hs]
      exact ⟨hg.assigned, hg.override⟩
  | unlinkExecutable info =>
    cases hi : w.instrumentables info.ino with
    | none =>
      rw [step_unlinkExecutable_unknown k ps hi]
      exact ⟨rfl, rfl⟩
    | some i =>
      obtain ⟨pre, evs, -, -, ⟨-, -, hs⟩ | ⟨-, -, hs⟩⟩ := step_unlinkExecutable_known k ps hi <;>
        rw [hs] <;> exact ⟨rfl, rfl⟩

/-- No operation resets the override flag. -/
theorem step_override_mono (w : World) (op : Op) (h : w.integrityModeOverride = true) :
    (step k ps w op).integrityModeOverride = true := by
  by_cases hop : op = .init
  · subst hop
    obtain ⟨L, hL, -⟩ := loadTracers_spec k ps (w, {})
    exact hL.mono.override h
  · rw [(step_keeps_objects k ps hop).2, h]

/-- Once set, `IntegrityModeOverride` stays set for the rest of any run. -/
theorem run_override_stays_set (w : World) (ops : List Op) (h : w.integrityModeOverride = true) :
    (run k ps w ops).integrityModeOverride = true :=
  run_keeps k ps h fun w _ op _ => step_override_mono k ps w op

end

theorem run_override_stays_set_newproc1 :
    (World.initial true).integrityModeOverride = true ∧
      (run Kernel.granting [plainGoTracer] (World.initial true)
        [.init, .newExecutable newproc1Executable]).integrityModeOverride = true :=
  ⟨rfl, run_override_stays_set _ _ _ _ rfl⟩

section

variable (k : Kernel) (ps : List Program)

/-- Every operation keeps `AssignedFromLoad`: `Init` assigns objects from `Load` right before a
`LoadAndAssign` that succeeded and never resets the flag, the others leave both alone, and every
operation only appends to the trace. -/
theorem assignedFromLoad_step {w : World} (hw : AssignedFromLoad ps w) (op : Op) :
    AssignedFromLoad ps (step k ps w op) := by
  have ht := (step_mono k ps w op).trace
  by_cases hop : op = .init
  · subst hop
    obtain ⟨L, h, -⟩ := loadTracers_spec k ps (w, {})
    intro j spec hj
    rcases h.assigned j with e | ⟨p, f, spec', hp, hj', hl, hf, hc⟩
    · obtain ⟨p, f, hp, hl, hf, hc⟩ := hw j spec (e ▸ hj)
      exact ⟨p, f, hp, hl, h.mono.override ∘ hf, programCalls_infix_of_prefix hc ht⟩
    · cases Option.some.inj (hj'.symm.trans hj)
      exact ⟨p, f, hp, hl, hf, hc⟩
  · exact hw.of_eq ps (step_keeps_objects k ps hop).1 (step_override_mono k ps w op) ht

theorem Reachable.assignedFromLoad {w : World} (h : Reachable k ps w) : AssignedFromLoad ps w := by
  induction h with
  | initial o => exact fun _ _ hj => Option.noConfusion hj
  | step op _ _ ih => exact assignedFromLoad_step k ps ih op

/-- In every reachable tracer, the object assigned to the Go tracer was returned by a `Load` right
before a `LoadAndAssign` of the tracer that succeeded; it is a context-propagation object exactly
when the flag that `Load` read was unset (and the kernel supports them); and the probe table the
tracer gives for the flag as it is, the one `NewExecutable` attaches, has the context-propagation
probes exactly when the object is a context-propagation object and the flag is still unset. -/
theorem goProbes_match_loaded_object {w : World} (hr : Reachable k ps w) {idx : Nat}
    {cfg : TracerConfig} {parse : String → Option String} {supports : Bool}
    {spec : CollectionSpec} (hg : ps[idx]? = some (goTracer cfg parse supports))
    (hspec : w.assigned idx = some spec) :
    ∃ f, [Event.load idx f, .loadAndAssign idx none] <:+: programCalls idx w.trace ∧
      Tracer.load cfg parse supports f = .ok spec ∧
      (IsContextPropagation spec ↔ supportsContextPropagation supports f = true) ∧
      (f = true → w.integrityModeOverride = true) ∧
      (HasContextPropagationProbes
          ((goTracer cfg parse supports).goProbes (w.assigned idx) w.integrityModeOverride) ↔
        IsContextPropagation spec ∧ w.integrityModeOverride = false) := by
  obtain ⟨p, f, hp, hl, hf, hc⟩ := hr.assignedFromLoad k ps idx spec hspec
  rw [hg, Option.some.injEq] at hp
  subst hp
  have hcp := isContextPropagation_of_load hl
  refine ⟨f, hc, hl, hcp, hf, ?_⟩
  rw [hspec]
  show HasContextPropagationProbes (Tracer.goProbes _ supports _) ↔ _
  rw [hasContextPropagationProbes_goProbes, hcp]
  cases hw : w.integrityModeOverride
  · rw [show f = false from Bool.eq_false_iff.mpr fun h => Bool.false_ne_true (hw ▸ hf h)]
    simp [supportsContextPropagation]
  · simp [supportsContextPropagation]

end

/-- The tracer after an `Init` of the plain Go tracer on a kernel that grants every call. -/
def loadedWorld : World :=
  step Kernel.granting [plainGoTracer] (World.initial false) .init

theorem goProbes_match_loaded_object_loadedWorld :
    Reachable Kernel.granting [plainGoTracer] loadedWorld ∧
      loadedWorld.assigned 0 = some "bpf_tp" ∧
      ∃ f, [Event.load 0 f, .loadAndAssign 0 none] <:+: programCalls 0 loadedWorld.trace ∧
        (IsContextPropagation "bpf_tp" ↔ supportsContextPropagation true f = true) ∧
        (HasContextPropagationProbes
            (plainGoTracer.goProbes (loadedWorld.assigned 0) loadedWorld.integrityModeOverride) ↔
          IsContextPropagation "bpf_tp" ∧ loadedWorld.integrityModeOverride = false) :=
  have hr : Reachable Kernel.granting [plainGoTracer] loadedWorld := .step .init (.initial false) rfl
  have hspec : loadedWorld.assigned 0 = some "bpf_tp" := rfl
  let ⟨f, hc, _, hcp, _, hprobes⟩ := goProbes_match_loaded_object Kernel.granting [plainGoTracer] hr
    (show [plainGoTracer][0]? = some (goTracer ⟨false, 0⟩ (fun _ => none) true) from rfl) hspec
  ⟨hr, hspec, f, hc, hcp, hprobes⟩

/-- A kernel whose only failing call is the fourth, on the missing helper: in an `Init` of two
plain Go tracers, the `LoadAndAssign` of the second. -/
def fourthCallMissingHelper : Kernel :=
  ⟨fun n => if n = 3 then some "unknown func bpf_probe_write_user" else none, fun _ => true,
    fun _ _ => none⟩

/-- An `Init` of two plain Go tracers on `fourthCallMissingHelper`. -/
def fallbackWorld : World :=
  step fourthCallMissingHelper [plainGoTracer, plainGoTracer] (World.initial false) .init

/-- In an `Init` of two plain Go tracers, the first is loaded with the flag unset, assigned the
context-propagation object, and its calls end there; the second's `LoadAndAssign` fails on the
missing helper, and its fallback sets the flag. From then on the probe table of the first tracer,
the one `NewExecutable` attaches, has no context-propagation probes although its object is a
context-propagation object. -/
theorem goProbes_disagree_with_loaded_object :
    Reachable fourthCallMissingHelper [plainGoTracer, plainGoTracer] fallbackWorld ∧
      programCalls 0 fallbackWorld.trace = [.load 0 false, .loadAndAssign 0 none] ∧
      fallbackWorld.assigned 0 = some "bpf_tp" ∧ IsContextPropagation "bpf_tp" ∧
      fallbackWorld.integrityModeOverride = true ∧
      ¬ HasContextPropagationProbes
        (plainGoTracer.goProbes (fallbackWorld.assigned 0) fallbackWorld.integrityModeOverride) := by
  obtain ⟨s₁, h₁, ha, ht, hf, hc⟩ : ∃ s₁, loadProgram fourthCallMissingHelper 0 plainGoTracer
      (World.initial false, {}) = .ok () s₁ ∧ s₁.1.assigned 0 = some "bpf_tp" ∧
      s₁.1.tick = 2 ∧ s₁.1.integrityModeOverride = false ∧
      programCalls 0 s₁.1.trace = [.load 0 false, .loadAndAssign 0 none] :=
    ⟨_, rfl, rfl, rfl, rfl, rfl⟩
  obtain ⟨evs, hL, rest, hcalls⟩ := loadProgram_retries fourthCallMissingHelper
    [plainGoTracer, plainGoTracer]
    (show [plainGoTracer, plainGoTracer][1]? = some plainGoTracer from rfl) s₁
    (by rw [hf]; rfl) (by rw [ht]; rfl)
    (show fourthCallMissingHelper.answer (s₁.1.tick + 1) = some "unknown func bpf_probe_write_user"
      by rw [ht]; rfl) rfl
  have hw : fallbackWorld = (final (loadProgram fourthCallMissingHelper 1 plainGoTracer) s₁).1 :=
    step_init_pair _ h₁
  have hflag : fallbackWorld.integrityModeOverride = true := by
    rw [hw]
    exact (hL.bounded (1, true) ((loadCalls_programCalls_sublist 1 evs).subset
      (by simp [hcalls, loadCalls, Event.loadCall?]))).2 rfl
  have hassigned : fallbackWorld.assigned 0 = some "bpf_tp" := by
    rw [hw]
    exact (loadProgram_keepsAssigned fourthCallMissingHelper (by decide) plainGoTracer s₁).trans ha
  refine ⟨.step .init (.initial false) (step_init_quiet _ _ _).2, ?_, hassigned, by decide, hflag, ?_⟩
  · obtain ⟨evs', hL', hother, -⟩ := loadProgram_spec fourthCallMissingHelper
      [plainGoTracer, plainGoTracer] (show [plainGoTracer, plainGoTracer][1]? = some plainGoTracer
        from rfl) s₁
    rw [hw, hL'.trace, programCalls_append, hother 0 (by decide), hc, List.append_nil]
  · rw [hassigned, hflag]
    decide

end BeylaTracer
