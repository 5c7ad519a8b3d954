import BeylaTracer.Proofs.Ownership

/-!
# The life of an entry of `Instrumentables`

`NewExecutable` creates the entry of an inode, `NewExecutableInstance` extends it, and
`UnlinkExecutable` removes it. In between, no operation shrinks it: every call that neither
registers nor unlinks that inode keeps the entry, its offsets, its closables as a prefix and its
modules, and every handle it lists stays open (`entry_extends_run`).

When `NewExecutable` returns, its instrumenter holds exactly the handles it opened, so on a
tracer that `Run` has started the `UnlinkExecutable` of the same inode closes all of them and puts
the map back: the pair leaves the tracer's handles and map as it found them. When `NewExecutable`
fails part-way, the instrumenter was never stored, and the unlink finds nothing to release. Before
`Run`, a failing `Close` of the unlink panics part-way, leaving the rest of the entry open.
-/

namespace BeylaTracer

section

variable (k : Kernel) (ps : List Program)

/-- On a started tracer, `NewExecutable` of an inode without an entry that returns no error,
followed by `UnlinkExecutable` of that inode, leaves the open handles and the map as they were, and
tells every program to unlink every module the registration recorded, once each. -/
theorem newExecutable_unlink_restores {w : World} {ie : Instrumentable} (hw : Inv w)
    (hp : w.panicked = false) (hlog : w.logger = true)
    (hfresh : w.instrumentables ie.fileInfo.ino = none)
    (hsucc : succeeds k ps w (.newExecutable ie) = true) :
    (run k ps w [.newExecutable ie, .unlinkExecutable ie.fileInfo]).live = w.live ∧
      (run k ps w [.newExecutable ie, .unlinkExecutable ie.fileInfo]).instrumentables =
        w.instrumentables ∧
      ∃ i evs, (step k ps w (.newExecutable ie)).instrumentables ie.fileInfo.ino = some i ∧
        (run k ps w [.newExecutable ie, .unlinkExecutable ie.fileInfo]).trace =
          (step k ps w (.newExecutable ie)).trace ++ evs ∧
        (libUnlinks evs).Nodup ∧
        ∀ j m, (j, m) ∈ libUnlinks evs ↔ j < ps.length ∧ m ∈ i.modules.keys := by
  obtain ⟨s, hg, ⟨-, hs⟩ | ⟨hf, -⟩⟩ := step_newExecutable k ps w ie
  swap
  · exact absurd (hf.symm.trans hsucc) Bool.false_ne_true
  obtain ⟨hs', hc, hl, -, hb⟩ := hg.opened
  have hi : (step k ps w (.newExecutable ie)).instrumentables ie.fileInfo.ino = some s.2 := by
    rw [hs]
    exact Function.update_same _ _ _
  obtain ⟨hp', hlog'⟩ := step_started k ps hp hlog (.newExecutable ie)
  obtain ⟨evs, hu, -, hlu⟩ := step_unlinkExecutable_logged k ps hlog' hi
  rw [run_cons, run_cons, next_of_not_panicked k ps hp, next_of_not_panicked k ps hp', run_nil, hu]
  refine ⟨?_, ?_, s.2, evs, hi, rfl, hlu ▸ nodup_signals ps s.2.modules.nodup,
    fun j m => hlu ▸ mem_signals ps⟩
  · have fresh : Disjoint w.live hs'.toFinset := Finset.disjoint_left.mpr fun h hh hh' =>
      absurd (hw.live_lt h hh) (Nat.not_lt.mpr (hb h (List.mem_toFinset.mp hh')).1)
    show (step k ps w (.newExecutable ie)).live \ s.2.closables.toFinset = w.live
    rw [hs, World.store]
    dsimp only
    rw [hl, hc, List.nil_append, Finset.union_sdiff_right, Finset.sdiff_eq_self_of_disjoint fresh]
  · show Function.update (step k ps w (.newExecutable ie)).instrumentables ie.fileInfo.ino none =
      w.instrumentables
    rw [hs, hg.store_instrumentables, Function.update_idem, ← hfresh, Function.update_eq_self]

end

/-- The Go tracer after `Init` and `Run` on a kernel that grants every call. -/
def startedWorld : World :=
  run Kernel.granting [plainGoTracer] (World.initial false) [.init, .run]

theorem newExecutable_unlink_restores_newproc1 :
    Inv startedWorld ∧ startedWorld.panicked = false ∧ startedWorld.logger = true ∧
      startedWorld.instrumentables newproc1Executable.fileInfo.ino = none ∧
      succeeds Kernel.granting [plainGoTracer] startedWorld
        (.newExecutable newproc1Executable) = true ∧
      (run Kernel.granting [plainGoTracer] startedWorld
        [.newExecutable newproc1Executable, .unlinkExecutable newproc1Executable.fileInfo]).live =
        startedWorld.live :=
  have hw : Inv startedWorld :=
    ((Reachable.initial false).run Kernel.granting [plainGoTracer] [.init, .run] rfl).inv
  have hfresh : startedWorld.instrumentables newproc1Executable.fileInfo.ino = none := rfl
  ⟨hw, rfl, rfl, hfresh, rfl,
    (newExecutable_unlink_restores Kernel.granting [plainGoTracer] hw rfl rfl hfresh rfl).1⟩

/-! ## An entry only grows until it is replaced or removed -/

/-- The operation stores a fresh instrumenter at inode `ino` or removes its entry. -/
def Op.Replaces (ino : Nat) : Op → Prop
  | .newExecutable ie => ie.fileInfo.ino = ino
  | .unlinkExecutable info => info.ino = ino
  | _ => False

/-- `i'` extends `i`: the same offsets, the closables of `i` followed by more, and at least the
modules of `i`. -/
structure Extends (i i' : Instrumenter) : Prop where
  offsets : i'.offsets = i.offsets
  closables : i.closables <+: i'.closables
  modules : ∀ m ∈ i.modules.keys, m ∈ i'.modules.keys

theorem Extends.refl (i : Instrumenter) : Extends i i :=
  ⟨rfl, List.prefix_refl _, fun _ h => h⟩

theorem Extends.trans {i₁ i₂ i₃ : Instrumenter} (h₁ : Extends i₁ i₂) (h₂ : Extends i₂ i₃) :
    Extends i₁ i₃ :=
  ⟨h₂.offsets.trans h₁.offsets, h₁.closables.trans h₂.closables,
    fun m hm => h₂.modules m (h₁.modules m hm)⟩

/-- The instrumenter a batch ends with extends the one it started with. -/
theorem Grows.toExtends {w : World} {i : Instrumenter} {s : Frame} (hg : Grows (w, i) s) :
    Extends i s.2 :=
  let ⟨_, hc, _⟩ := hg.opened
  ⟨hg.offsets, hc ▸ List.prefix_append _ _, hg.modules⟩

section

variable (k : Kernel) (ps : List Program)

/-- `UnlinkExecutable` keeps the entry of every other inode, whether it returns or panics. -/
theorem step_unlinkExecutable_other (w : World) (info : FileInfo) {y : Nat} (hy : y ≠ info.ino) :
    (step k ps w (.unlinkExecutable info)).instrumentables y = w.instrumentables y := by
  cases hi : w.instrumentables info.ino with
  | none => rw [step_unlinkExecutable_unknown k ps hi]
  | some i =>
    obtain ⟨pre, evs, -, -, ⟨-, -, hs⟩ | ⟨-, -, hs⟩⟩ := step_unlinkExecutable_known k ps hi <;>
      simp only [hs, World.released, Function.update_noteq hy]

/-- On a started tracer, `UnlinkExecutable` removes the entry of its inode, whether there was one
or not, and keeps every other. -/
theorem step_unlinkExecutable_instrumentables {w : World} (hlog : w.logger = true)
    (info : FileInfo) :
    (step k ps w (.unlinkExecutable info)).instrumentables =
      Function.update w.instrumentables info.ino none := by
  cases hi : w.instrumentables info.ino with
  | none => rw [step_unlinkExecutable_unknown k ps hi, ← hi, Function.update_eq_self]
  | some i =>
    obtain ⟨evs, hs, -⟩ := step_unlinkExecutable_logged k ps hlog hi
    rw [hs]

/-- One operation that neither registers nor unlinks inode `y` keeps the entry of `y`, extended,
and every handle it lists open: only an unlink of the inode that owns a handle releases it. -/
theorem entry_step {w : World} (hw : Inv w) {y : Nat} {i : Instrumenter}
    (hi : w.instrumentables y = some i) {op : Op} (hop : ¬ op.Replaces y) :
    ∃ i', (step k ps w op).instrumentables y = some i' ∧ Extends i i' ∧
      ∀ h ∈ i.closables, h ∈ (step k ps w op).live := by
  have open_ : ∀ h ∈ i.closables, h ∈ (step k ps w op).live := fun h hh => by_contra fun hr => by
    obtain ⟨info, rfl, ho⟩ := released_step k ps op (hw.owned_live h y ⟨i, hi, hh⟩) hr
    exact hop (hw.unique h _ _ ho ⟨i, hi, hh⟩)
  have kept : ∀ w' : World, w'.instrumentables y = w.instrumentables y →
      ∃ i', w'.instrumentables y = some i' ∧ Extends i i' := fun _ e =>
    ⟨i, e.trans hi, Extends.refl i⟩
  suffices ∃ i', (step k ps w op).instrumentables y = some i' ∧ Extends i i' from
    this.imp fun _ ⟨hi', he⟩ => ⟨hi', he, open_⟩
  cases op with
  | init =>
    obtain ⟨L, h, -⟩ := loadTracers_spec k ps (w, {})
    exact kept _ (congrFun h.instrumentables y)
  | run => exact kept _ (by rw [step_run])
  | newExecutable ie =>
    obtain ⟨s, hg, ⟨-, hs⟩ | ⟨-, hs⟩⟩ := step_newExecutable k ps w ie <;> rw [hs]
    · exact kept _ (by rw [hg.store_instrumentables, Function.update_noteq (Ne.symm hop)])
    · exact kept _ (congrFun hg.instrumentables y)
  | newExecutableInstance ie =>
    cases hj : w.instrumentables ie.fileInfo.ino with
    | none =>
      rw [step_newExecutableInstance_unknown k ps hj]
      exact kept _ rfl
    | some j =>
      obtain ⟨s, hg, hs⟩ := step_newExecutableInstance_known k ps hj
      rw [hs]
      by_cases e : y = ie.fileInfo.ino
      · subst e
        rw [hi, Option.some.injEq] at hj
        subst hj
        exact ⟨s.2, by rw [hg.store_instrumentables, Function.update_same], hg.toExtends⟩
      · exact kept _ (by rw [hg.store_instrumentables, Function.update_noteq e])
  | unlinkExecutable info => exact kept _ (step_unlinkExecutable_other k ps w info (Ne.symm hop))

/-- Over any run from a state with the bookkeeping of `Inv` in which no call registers or unlinks
inode `y`, the entry of `y` stays, with the same offsets, its closables extended at the end and its
modules kept, and every handle it listed stays open: operations on other executables, `Init` and
`NewExecutableInstance` never close or drop its handles. -/
theorem entry_extends_run {w : World} (hw : Inv w) {y : Nat} {i : Instrumenter}
    (hi : w.instrumentables y = some i) (ops : List Op) (hops : ∀ op ∈ ops, ¬ op.Replaces y) :
    ∃ i', (run k ps w ops).instrumentables y = some i' ∧ Extends i i' ∧
      ∀ h ∈ i.closables, h ∈ (run k ps w ops).live :=
  hw.run_keeps k ps
    (P := fun w => ∃ i', w.instrumentables y = some i' ∧ Extends i i' ∧ ∀ h ∈ i.closables, h ∈ w.live)
    ⟨i, hi, Extends.refl i, fun h hh => hw.owned_live h y ⟨i, hi, hh⟩⟩
    fun _ hw op hop ⟨_, hi₁, e₁, _⟩ =>
      let ⟨i₂, hi₂, e₂, hl⟩ := entry_step k ps hw hi₁ (hops op hop)
      ⟨i₂, hi₂, e₁.trans e₂, fun h hh => hl h (e₁.closables.subset hh)⟩

end

theorem entry_extends_run_registeredWorld :
    Inv registeredWorld ∧
      registeredWorld.instrumentables 7 =
        some { offsets := newproc1Executable.offsets, closables := [2, 3], modules := .empty } ∧
      (∀ op ∈ [Op.newExecutableInstance newproc1Executable, .init], ¬ op.Replaces 7) ∧
      ∀ h ∈ [2, 3], h ∈ (run Kernel.granting [plainGoTracer] registeredWorld
        [.newExecutableInstance newproc1Executable, .init]).live :=
  have hw : Inv registeredWorld := reachable_inv_registeredWorld.2
  have hi : registeredWorld.instrumentables 7 =
      some { offsets := newproc1Executable.offsets, closables := [2, 3], modules := .empty } := rfl
  have hops : ∀ op ∈ [Op.newExecutableInstance newproc1Executable, .init], ¬ op.Replaces 7 := by
    simp [Op.Replaces]
  let ⟨_, _, _, hl⟩ := entry_extends_run Kernel.granting [plainGoTracer] hw hi _ hops
  ⟨hw, hi, hops, hl⟩

/-- After `Init` and `Run`, the registration of `newproc1Executable` fails at its return probe
(the kernel refuses call 3), so it stores no entry for inode 7 and leaves the entry probe, handle 2,
open; the unlink of inode 7 then finds no entry and only logs a warning. The pair leaves handle 2
open where no handle was open before it. -/
theorem newExecutable_failure_unlink_leaks :
    Reachable returnProbeFails [plainGoTracer]
        (run returnProbeFails [plainGoTracer] (World.initial false) [.init, .run]) ∧
      (run returnProbeFails [plainGoTracer] (World.initial false) [.init, .run]).instrumentables
        newproc1Executable.fileInfo.ino = none ∧
      (run returnProbeFails [plainGoTracer] (World.initial false) [.init, .run]).live = ∅ ∧
      (run returnProbeFails [plainGoTracer] (World.initial false)
        [.init, .run, .newExecutable newproc1Executable,
          .unlinkExecutable newproc1Executable.fileInfo]).live = {2} :=
  ⟨(Reachable.initial false).run _ _ [.init, .run] rfl, rfl, by decide, by decide⟩

/-- Before `Run`, `pt.log` is nil. After `Init` and the registration of `newproc1Executable`
(handles 2 and 3), unlinking inode 7 on a kernel that refuses the first `Close` closes handle 2 and
panics at the log line of the failing `Close`: handle 3 is never closed and inode 7 keeps its entry.
Unlinking an inode without an entry panics at its warning. -/
theorem unlinkExecutable_panics_before_run :
    (run firstCloseFails [plainGoTracer] (World.initial false)
        [.init, .newExecutable newproc1Executable,
          .unlinkExecutable newproc1Executable.fileInfo]).panicked = true ∧
      closeCalls (run firstCloseFails [plainGoTracer] (World.initial false)
        [.init, .newExecutable newproc1Executable,
          .unlinkExecutable newproc1Executable.fileInfo]).trace = [2] ∧
      3 ∈ (run firstCloseFails [plainGoTracer] (World.initial false)
        [.init, .newExecutable newproc1Executable,
          .unlinkExecutable newproc1Executable.fileInfo]).live ∧
      ((run firstCloseFails [plainGoTracer] (World.initial false)
        [.init, .newExecutable newproc1Executable,
          .unlinkExecutable newproc1Executable.fileInfo]).instrumentables 7).isSome = true ∧
      (step Kernel.granting [plainGoTracer] (World.initial false)
        (.unlinkExecutable newproc1Executable.fileInfo)).panicked = true :=
  ⟨rfl, rfl, by decide, rfl, rfl⟩

/-! ## Unlinking every executable -/

section

variable (k : Kernel) (ps : List Program)

/-- `UnlinkExecutable` releases exactly the handles its inode owned, so the open handles that no
inode owns are the same after it as before. -/
theorem unlink_step_orphan {w : World} (hw : Inv w) (info : FileInfo) (h : Handle) :
    (h ∈ (step k ps w (.unlinkExecutable info)).live ∧
        ∀ ino, ¬ OwnedBy (step k ps w (.unlinkExecutable info)) h ino) ↔
      h ∈ w.live ∧ ∀ ino, ¬ OwnedBy w h ino := by
  refine ⟨fun ⟨hl, hu⟩ => ?_, fun ⟨hl, hu⟩ => orphan_step k ps hw _ hl hu⟩
  -- an unlink is none of the ways to leave a handle without an owner
  rcases orphan_origin_step k ps _ hl hu with hold | ⟨-, -, he | ⟨_, he, -⟩⟩ | ⟨_, _, he, -⟩
  · exact hold
  all_goals cases he

/-- On a started tracer, unlinking a list of inodes that covers every entry, in any order and with
repeats or inodes without an entry among them, empties `Instrumentables` and leaves open exactly
the handles that were open and owned by no inode: every handle an entry owned is released, and no
other. -/
theorem unlink_all_leaves_orphans {w : World} (hw : Inv w) (hp : w.panicked = false)
    (hlog : w.logger = true) (infos : List FileInfo)
    (hcover : ∀ ino, w.instrumentables ino ≠ none → ∃ info ∈ infos, info.ino = ino) :
    (∀ ino, (run k ps w (infos.map Op.unlinkExecutable)).instrumentables ino = none) ∧
      ∀ h, h ∈ (run k ps w (infos.map Op.unlinkExecutable)).live ↔
        h ∈ w.live ∧ ∀ ino, ¬ OwnedBy w h ino := by
  induction infos generalizing w with
  | nil =>
    have empty : ∀ ino, w.instrumentables ino = none := fun ino => by
      by_contra hne
      obtain ⟨_, hmem, -⟩ := hcover ino hne
      exact List.not_mem_nil _ hmem
    exact ⟨empty, fun h => ⟨fun hl => ⟨hl, fun ino ⟨_, hi, _⟩ => by rw [empty] at hi; cases hi⟩,
      And.left⟩⟩
  | cons info infos ih =>
    have hm := step_unlinkExecutable_instrumentables k ps hlog info
    obtain ⟨hp', hlog'⟩ := step_started k ps hp hlog (.unlinkExecutable info)
    -- the inodes that keep an entry are covered by the rest of the list
    obtain ⟨hnone, hlive⟩ := ih (inv_step k ps hw _ hp') hp' hlog' fun ino hne => by
      have e : ino ≠ info.ino := fun e => hne (by rw [hm, e, Function.update_same])
      rw [hm, Function.update_noteq e] at hne
      obtain ⟨info', hmem, rfl⟩ := hcover ino hne
      exact ⟨info', (List.mem_cons.mp hmem).resolve_left fun e' => e (congrArg FileInfo.ino e'),
        rfl⟩
    rw [List.map_cons, run_cons, next_of_not_panicked k ps hp]
    exact ⟨hnone, fun h => (hlive h).trans (unlink_step_orphan k ps hw info h)⟩

end

/-- `failedWorld` after a second registration of `newproc1Executable`, which returns: handle 2 is
the orphan of the failed registration, handles 4 and 5 are the entry's. -/
def reregisteredWorld : World :=
  step returnProbeFails [plainGoTracer] failedWorld (.newExecutable newproc1Executable)

theorem unlink_all_leaves_orphans_reregisteredWorld :
    Inv reregisteredWorld ∧ reregisteredWorld.panicked = false ∧ reregisteredWorld.logger = true ∧
      (∀ ino, reregisteredWorld.instrumentables ino ≠ none →
        ∃ info ∈ [newproc1Executable.fileInfo, newproc1Executable.fileInfo], info.ino = ino) ∧
      (∀ ino, (run returnProbeFails [plainGoTracer] reregisteredWorld
          [.unlinkExecutable newproc1Executable.fileInfo,
            .unlinkExecutable newproc1Executable.fileInfo]).instrumentables ino = none) ∧
      ∀ h, h ∈ (run returnProbeFails [plainGoTracer] reregisteredWorld
          [.unlinkExecutable newproc1Executable.fileInfo,
            .unlinkExecutable newproc1Executable.fileInfo]).live ↔
        h ∈ reregisteredWorld.live ∧ ∀ ino, ¬ OwnedBy reregisteredWorld h ino :=
  have hw : Inv reregisteredWorld := ((Reachable.initial false).run returnProbeFails [plainGoTracer]
    [.init, .run, .newExecutable newproc1Executable, .newExecutable newproc1Executable] rfl).inv
  have hcover : ∀ ino, reregisteredWorld.instrumentables ino ≠ none →
      ∃ info ∈ [newproc1Executable.fileInfo, newproc1Executable.fileInfo], info.ino = ino :=
    fun ino hne => ⟨_, List.mem_cons_self _ _, by
      by_contra e
      obtain ⟨s, hg, ⟨-, hs⟩ | ⟨-, hs⟩⟩ :=
        step_newExecutable returnProbeFails [plainGoTracer] failedWorld newproc1Executable
      · exact hne (by
          rw [reregisteredWorld, hs, hg.store_instrumentables, Function.update_noteq (Ne.symm e)]
          rfl)
      · exact hne (by rw [reregisteredWorld, hs, hg.instrumentables]; rfl)⟩
  ⟨hw, rfl, rfl, hcover,
    unlink_all_leaves_orphans returnProbeFails [plainGoTracer] hw rfl rfl
      [newproc1Executable.fileInfo, newproc1Executable.fileInfo] hcover⟩

end BeylaTracer
