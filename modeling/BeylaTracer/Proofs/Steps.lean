import BeylaTracer.Proofs.Attach
import BeylaTracer.Proofs.Load

/-!
# What one operation does to the world

`NewExecutable` and `NewExecutableInstance` as attachment batches (`Grows`) on the instrumenter
they work on, followed by what they write back to the map: `NewExecutable` stores its fresh
instrumenter only when its loop returned, while `NewExecutableInstance` writes the instrumenter of
the entry back whether or not its loop failed. `RunUtilityTracer` is a batch on a dummy
instrumenter. Later modules read every operation through these lemmas, `loadTracers_spec` and the
lemmas of `UnlinkExecutable`.

A run issues its operations one after the other until one panics, and nothing after that: every
property that each operation keeps holds after every run (`run_keeps`).
-/

namespace BeylaTracer

variable (k : Kernel) (ps : List Program)

/-- `NewExecutable`: an attachment batch on a fresh instrumenter with the executable's offsets,
stored under the inode exactly when the loop returns. -/
theorem step_newExecutable (w : World) (ie : Instrumentable) :
    ∃ s : Frame, Grows (w, { offsets := ie.offsets }) s ∧
      (succeeds k ps w (.newExecutable ie) = true ∧
          step k ps w (.newExecutable ie) = s.1.store ie.fileInfo.ino s.2 ∨
        succeeds k ps w (.newExecutable ie) = false ∧ step k ps w (.newExecutable ie) = s.1) := by
  simp only [step, succeeds, Op.call]
  unfold newExecutable
  rw [bind_ok (x := modify _) rfl, final_bind_ok (x := modify _) rfl]
  dsimp only
  cases h : newExecutableLoop k ps ie (w, { offsets := ie.offsets }) with
  | ok _ s =>
    refine ⟨s, (newExecutableLoop_grows k ps ie).of_ok h, .inl ⟨?_, ?_⟩⟩
    · rw [bind_ok h]; rfl
    · rw [final_bind_ok h]; rfl
  | error e s =>
    refine ⟨s, (newExecutableLoop_grows k ps ie).of_error h, .inr ⟨?_, ?_⟩⟩
    · rw [bind_error h]
    · rw [final_bind_error h]

/-- `NewExecutableInstance` on a known inode: an attachment batch on the entry's instrumenter,
written back also when it fails. -/
theorem step_newExecutableInstance_known {w : World} {ie : Instrumentable} {i : Instrumenter}
    (h : w.instrumentables ie.fileInfo.ino = some i) :
    ∃ s : Frame, Grows (w, i) s ∧
      step k ps w (.newExecutableInstance ie) = s.1.store ie.fileInfo.ino s.2 := by
  simp only [step, Op.call]
  unfold newExecutableInstance
  simp only [final, h]
  cases hr : newExecutableInstanceLoop k ps ie.fileInfo.pid (w, i) with
  | ok _ s => exact ⟨s, (newExecutableInstanceLoop_grows k ps _).of_ok hr, rfl⟩
  | error e s => exact ⟨s, (newExecutableInstanceLoop_grows k ps _).of_error hr, rfl⟩

/-- `NewExecutableInstance` on an unknown inode logs a warning, or panics when `Run` has not set
`pt.log`. -/
theorem step_newExecutableInstance_unknown {w : World} {ie : Instrumentable}
    (h : w.instrumentables ie.fileInfo.ino = none) :
    step k ps w (.newExecutableInstance ie) = { w with
      trace := w.trace ++ if w.logger then [.log .warn "Attempted to update non-existent tracer"]
        else []
      panicked := w.panicked || !w.logger } := by
  have e : final (newExecutableInstance k ps ie) (w, {}) =
      final (ptLog .warn "Attempted to update non-existent tracer") (w, {}) := by
    simp only [final, newExecutableInstance, h]
  rw [step, Op.call, e, final_ptLog]

/-- `Run` sets `pt.log` and logs that the tracer starts. -/
theorem step_run (w : World) :
    step k ps w .run = { w with
      logger := true
      trace := w.trace ++ [.log .debug "starting process tracer"] } := by
  rw [step, Op.call, ProcessTracer.run, final_bind_ok (x := modify _) rfl, final_ptLog]
  simp

/-- Writing back the instrumenter of a batch that started from `w` updates the map of `w` at one
inode. -/
theorem Grows.store_instrumentables {w : World} {i : Instrumenter} {s : Frame}
    (hg : Grows (w, i) s) (ino : Nat) :
    (s.1.store ino s.2).instrumentables = Function.update w.instrumentables ino (some s.2) := by
  rw [World.store, hg.instrumentables]

/-! ## Runs -/

theorem next_of_not_panicked {w : World} (h : w.panicked = false) (op : Op) :
    next k ps w op = step k ps w op := by
  simp [next, h]

@[simp] theorem run_nil (w : World) : run k ps w [] = w := rfl

theorem run_cons (w : World) (op : Op) (ops : List Op) :
    run k ps w (op :: ops) = run k ps (next k ps w op) ops := rfl

theorem run_append (w : World) (pre post : List Op) :
    run k ps w (pre ++ post) = run k ps (run k ps w pre) post :=
  List.foldl_append _ _ _ _

/-- A panicked process runs nothing more. -/
theorem run_panicked {w : World} (h : w.panicked = true) (ops : List Op) :
    run k ps w ops = w := by
  induction ops with
  | nil => rfl
  | cons op ops ih => rw [run_cons, next, if_pos h, ih]

/-- A property that every operation of a run keeps, from a world that has not panicked, holds
after the run. -/
theorem run_keeps {P : World → Prop} {w : World} {ops : List Op} (hw : P w)
    (hstep : ∀ w, w.panicked = false → ∀ op ∈ ops, P w → P (step k ps w op)) :
    P (run k ps w ops) := by
  induction ops generalizing w with
  | nil => exact hw
  | cons op ops ih =>
    refine ih ?_ fun w' hp o ho => hstep w' hp o (List.mem_cons_of_mem _ ho)
    unfold next
    split
    · exact hw
    · rename_i hp
      exact hstep w (Bool.eq_false_iff.mpr hp) op (List.mem_cons_self _ _) hw

end BeylaTracer
