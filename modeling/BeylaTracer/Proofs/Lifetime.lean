import BeylaTracer.Proofs.Ownership

/-!
# What a tracer does over its lifetime

Each operation adds to the trace only events of its own kinds (`Emits`): only `Init` calls `Load`,
and only `UnlinkExecutable` calls `Close`. Two statements over whole runs follow.

* Over the life of a tracer whose one `Init` comes anywhere in its sequence of calls, each
  program's calls are those of one iteration of `loadTracers`, with a second `Load` only after a
  `LoadAndAssign` that failed on the missing helper (`lifetime_loads_per_program`).
* From any state with the bookkeeping of `Inv`, no run calls `Close` twice on a handle, nor on a
  handle that was closed before it: every handle it closes was open when the run started or was
  opened during it, is closed by an `UnlinkExecutable` of the inode that owns it, and is not open
  when the run ends (`run_closes_each_once`). A second `Close`
  on a link would release a file descriptor the process may have reused.
-/

namespace BeylaTracer

/-- The trace grows by events that all satisfy `P`. -/
def Emits (P : Event → Prop) (s s' : Frame) : Prop :=
  ∃ evs, s'.1.trace = s.1.trace ++ evs ∧ ∀ e ∈ evs, P e

instance (P : Event → Prop) : IsPreorder Frame (Emits P) where
  refl _ := ⟨[], (List.append_nil _).symm, nofun⟩
  trans _ _ _ := fun ⟨e₁, h₁, p₁⟩ ⟨e₂, h₂, p₂⟩ =>
    ⟨e₁ ++ e₂, by rw [h₂, h₁, List.append_assoc],
      fun e he => (List.mem_append.mp he).elim (p₁ e) (p₂ e)⟩

theorem closeCalls_append (e₁ e₂ : List Event) :
    closeCalls (e₁ ++ e₂) = closeCalls e₁ ++ closeCalls e₂ :=
  List.filterMap_append _ _ _

theorem closeCalls_eq_nil {evs : List Event} (h : ∀ e ∈ evs, e.closed? = none) :
    closeCalls evs = [] :=
  List.filterMap_eq_nil_iff.mpr h

/-! ## The events of each operation -/

section

variable {P : Event → Prop} (k : Kernel) (ps : List Program)

theorem Emits.of_trace_eq {s s' : Frame} (h : s'.1.trace = s.1.trace) : Emits P s s' :=
  ⟨[], h.trans (List.append_nil _).symm, nofun⟩

theorem stays_emits_modify {f : Frame → Frame} (h : ∀ s, (f s).1.trace = s.1.trace) :
    Stays (Emits P) (modify f : TracerM PUnit) :=
  stays_modify fun s => Emits.of_trace_eq (h s)

theorem emit_emits {e : Event} (he : P e) : Stays (Emits P) (emit e) := fun _ =>
  ⟨[e], rfl, fun _ h => (List.mem_singleton.mp h) ▸ he⟩

theorem kernelCall_emits : Stays (Emits P) (kernelCall k) := fun _ => Emits.of_trace_eq rfl

theorem attach_emits : Stays (Emits P) (attach k) := fun s => Emits.of_trace_eq (by
  unfold final attach
  cases k.answer s.1.tick <;> rfl)

theorem closeHandle_emits {c : Handle} (hc : P (.close c)) : Stays (Emits P) (closeHandle k c) :=
  fun _ => ⟨[.close c], rfl, fun _ h => (List.mem_singleton.mp h) ▸ hc⟩

/-- A log line on a nil logger adds nothing: the process panics instead. -/
theorem ptLog_emits {l : Level} {m : String} (hlog : P (.log l m)) : Stays (Emits P) (ptLog l m) :=
  fun s => ⟨if s.1.logger then [.log l m] else [], by rw [final_ptLog], fun e he => by
    split at he
    · exact (List.mem_singleton.mp he) ▸ hlog
    · cases he⟩

/-- `Init` adds `Load` calls, `SetupTailCalls` and `SetupTC` calls and the fallback's warning,
never a `Close` call. -/
theorem loadTracers_noCloses : Stays (Emits (·.closed? = none)) (loadTracers k ps) :=
  loadTracers_stays k ps (kernelCall_emits k) (fun _ he => emit_emits he)
    (fun _ => Emits.of_trace_eq rfl) (fun _ _ => stays_emits_modify fun _ => rfl) (attach_emits k)
    (stays_emits_modify fun _ => rfl)

/-- `NewExecutable` adds only its `RegisterOffsets` calls. -/
theorem newExecutable_emits (hregister : ∀ j ino, P (.registerOffsets j ino))
    (ie : Instrumentable) : Stays (Emits P) (newExecutable k ps ie) := by
  unfold newExecutable
  exact (stays_emits_modify fun _ => by rfl).bind fun _ =>
    (newExecutableLoop_stays k (attach_emits k) (fun _ => stays_emits_modify fun _ => rfl)
      (fun _ _ => emit_emits (hregister _ _)) ps ie).bind fun _ =>
    stays_emits_modify fun _ => by rfl

/-- `NewExecutableInstance` adds nothing but its warning on an unknown inode. -/
theorem newExecutableInstance_emits (hwarn : P (.log .warn "Attempted to update non-existent tracer"))
    (ie : Instrumentable) : Stays (Emits P) (newExecutableInstance k ps ie) := by
  intro s
  have hloop := newExecutableInstanceLoop_stays (R := Emits P) k (attach_emits k)
    (fun _ => stays_emits_modify fun _ => rfl) ps ie.fileInfo.pid
  simp only [final, newExecutableInstance]
  cases hi : s.1.instrumentables ie.fileInfo.ino with
  | none => simpa only [final] using ptLog_emits hwarn s
  | some i =>
    have h := hloop (s.1, i)
    simp only [final] at h
    cases hr : newExecutableInstanceLoop k ps ie.fileInfo.pid (s.1, i) <;>
      simp only [hr] at h ⊢ <;> exact h

/-- `UnlinkExecutable` adds `Close` calls, `UnlinkInstrumentedLib` calls and log lines. -/
theorem unlinkExecutable_emits (hclose : ∀ c, P (.close c))
    (hunlink : ∀ j m, P (.unlinkInstrumentedLib j m)) (hlog : ∀ l m, P (.log l m))
    (info : FileInfo) : Stays (Emits P) (unlinkExecutable k ps info) :=
  stays_get.bind fun _ => by
    split
    · exact ((Stays.forM fun _ _ => (closeHandle_emits k (hclose _)).bind fun _ =>
        Stays.ite (ptLog_emits (hlog _ _)) (stays_pure _)).bind fun _ =>
        (Stays.forM fun _ _ => Stays.forM fun _ _ => emit_emits (hunlink _ _)).bind fun _ =>
        stays_emits_modify fun _ => rfl)
    · exact ptLog_emits (hlog _ _)

/-- `Run` adds its log line. -/
theorem step_run_emits (w : World) (hlog : ∀ l m, P (.log l m)) :
    Emits P (w, {}) (step k ps w .run, {}) :=
  ⟨[.log .debug "starting process tracer"], by rw [step_run],
    fun _ he => (List.mem_singleton.mp he) ▸ hlog _ _⟩

/-- Every operation but `Init` adds no `Load` or `LoadAndAssign` call. -/
theorem step_noLoads (w : World) {op : Op} (hop : op ≠ .init) :
    Emits (·.loading? = none) (w, {}) (step k ps w op, {}) := by
  cases op with
  | init => exact absurd rfl hop
  | run => exact step_run_emits k ps w fun _ _ => rfl
  | newExecutable ie =>
    exact newExecutable_emits (P := (·.loading? = none)) k ps (fun _ _ => rfl) ie _
  | newExecutableInstance ie =>
    exact newExecutableInstance_emits (P := (·.loading? = none)) k ps rfl ie _
  | unlinkExecutable info =>
    exact unlinkExecutable_emits (P := (·.loading? = none)) k ps (fun _ => rfl) (fun _ _ => rfl)
      (fun _ _ => rfl) info _

/-- Every operation but `UnlinkExecutable` adds no `Close` call. -/
theorem step_noCloses (w : World) {op : Op} (hop : ∀ info, op ≠ .unlinkExecutable info) :
    Emits (·.closed? = none) (w, {}) (step k ps w op, {}) := by
  cases op with
  | init => exact loadTracers_noCloses k ps (w, {})
  | run => exact step_run_emits k ps w fun _ _ => rfl
  | newExecutable ie =>
    exact newExecutable_emits (P := (·.closed? = none)) k ps (fun _ _ => rfl) ie _
  | newExecutableInstance ie =>
    exact newExecutableInstance_emits (P := (·.closed? = none)) k ps rfl ie _
  | unlinkExecutable info => exact absurd rfl (hop info)

end

/-! ## `Load` calls over a lifetime -/

section

variable (k : Kernel) (ps : List Program)

/-- A run without `Init` adds no `Load` or `LoadAndAssign` call to the trace. -/
theorem run_noLoads (w : World) {ops : List Op} (hops : ∀ op ∈ ops, op ≠ .init) :
    Emits (·.loading? = none) (w, {}) (run k ps w ops, {}) :=
  run_keeps k ps (P := fun w' => Emits (·.loading? = none) (w, {}) (w', {})) (refl_of (Emits _) _)
    fun w' _ op hop h => trans_of (Emits _) h (step_noLoads k ps w' (hops op hop))

/-- Over the life of a tracer whose only `Init` comes after the calls `pre` and before the calls
`post`, the calls into the programs are those of that `Init`: the `Load` calls are ordered with
the flag unset before set and have the flag set when it was set at the time of `Init`, and each
program's calls are those of one iteration of `loadTracers`, a second `Load` only after a
`LoadAndAssign` that failed on the missing helper. A panic before `Init` leaves no call at all. -/
theorem lifetime_loads_per_program (w : World) (pre post : List Op)
    (hpre : ∀ op ∈ pre, op ≠ .init) (hpost : ∀ op ∈ post, op ≠ .init) :
    ∃ evs, (run k ps w (pre ++ .init :: post)).trace = w.trace ++ evs ∧
      (loadCalls evs).Pairwise (fun a b => a.2 = true → b.2 = true) ∧
      (∀ c ∈ loadCalls evs, (run k ps w pre).integrityModeOverride = true → c.2 = true) ∧
      ∀ idx, ProgramLoads idx (programCalls idx evs) := by
  obtain ⟨e₁, h₁, l₁⟩ := run_noLoads k ps w hpre
  dsimp only at h₁
  rw [run_append, run_cons]
  cases hp : (run k ps w pre).panicked
  · rw [next_of_not_panicked k ps hp]
    obtain ⟨L, h, hL⟩ := loadTracers_spec k ps (run k ps w pre, {})
    obtain ⟨e₃, h₃, l₃⟩ := run_noLoads k ps (step k ps (run k ps w pre) .init) hpost
    dsimp only at h₃
    have hinit : (step k ps (run k ps w pre) .init).trace = (run k ps w pre).trace ++ L := h.trace
    have hcalls : loadCalls (e₁ ++ L ++ e₃) = loadCalls L := by
      rw [loadCalls_append, loadCalls_append, loadCalls_eq_nil l₁, loadCalls_eq_nil l₃,
        List.nil_append, List.append_nil]
    refine ⟨e₁ ++ L ++ e₃, by simp only [h₃, hinit, h₁, List.append_assoc],
      hcalls ▸ h.sorted, hcalls ▸ fun c hc => (h.bounded c hc).1, fun idx => ?_⟩
    rw [programCalls_append, programCalls_append, programCalls_eq_nil l₁, programCalls_eq_nil l₃,
      List.nil_append, List.append_nil]
    exact hL idx
  · rw [next, if_pos hp, run_panicked k ps hp]
    refine ⟨e₁, h₁, ?_, ?_, fun idx => .inl (programCalls_eq_nil l₁ idx)⟩ <;>
      rw [loadCalls_eq_nil l₁]
    · exact List.Pairwise.nil
    · exact nofun

end

theorem lifetime_loads_per_program_newproc1 :
    (∀ op ∈ ([] : List Op), op ≠ .init) ∧
      (∀ op ∈ [Op.run, .newExecutable newproc1Executable], op ≠ .init) ∧
      ∃ evs, (run Kernel.granting [plainGoTracer] (World.initial false)
          ([] ++ .init :: [.run, .newExecutable newproc1Executable])).trace =
          (World.initial false).trace ++ evs ∧
        ∀ idx, ProgramLoads idx (programCalls idx evs) :=
  have hpre : ∀ op ∈ ([] : List Op), op ≠ .init := fun _ h => absurd h (List.not_mem_nil _)
  have hpost : ∀ op ∈ [Op.run, .newExecutable newproc1Executable], op ≠ .init := by simp
  let ⟨evs, he, _, _, hL⟩ := lifetime_loads_per_program Kernel.granting [plainGoTracer]
    (World.initial false) [] [.run, .newExecutable newproc1Executable] hpre hpost
  ⟨hpre, hpost, evs, he, hL⟩

/-! ## `Close` calls over a run -/

section

variable (k : Kernel) (ps : List Program)

/-- One operation calls `Close` only if it is `UnlinkExecutable`, only on open handles that the
inode it unlinks owns, at most once each, and they are not open after it. -/
theorem step_closes {w : World} (hw : Inv w) (op : Op) :
    ∃ evs, (step k ps w op).trace = w.trace ++ evs ∧ (closeCalls evs).Nodup ∧
      ∀ h ∈ closeCalls evs, h ∉ (step k ps w op).live ∧
        ∃ info, op = .unlinkExecutable info ∧ OwnedBy w h info.ino := by
  by_cases hop : ∃ info, op = .unlinkExecutable info
  · obtain ⟨info, rfl⟩ := hop
    cases hi : w.instrumentables info.ino with
    | none =>
      rw [step_unlinkExecutable_unknown k ps hi]
      cases w.logger <;> exact ⟨_, rfl, List.nodup_nil, nofun⟩
    | some i =>
      obtain ⟨pre, evs, hpre, hc, ⟨-, -, hs⟩ | ⟨-, -, hs⟩⟩ := step_unlinkExecutable_known k ps hi <;>
        rw [hs] <;>
        exact ⟨evs, rfl, hc ▸ hpre.sublist.nodup (hw.nodup _ i hi), fun h hh =>
          ⟨fun hl => (Finset.mem_sdiff.mp hl).2 (List.mem_toFinset.mpr (hc ▸ hh)),
            info, rfl, i, hi, hpre.subset (hc ▸ hh)⟩⟩
  · obtain ⟨evs, he, hq⟩ := step_noCloses k ps w fun info e => hop ⟨info, e⟩
    have hnil := closeCalls_eq_nil hq
    exact ⟨evs, he, hnil ▸ List.nodup_nil, fun h hh => absurd (hnil ▸ hh) (List.not_mem_nil h)⟩

/-- From any state with the bookkeeping of `Inv`, a run calls `Close` at most once on each handle;
each handle it closes was open when the run started or was attached during it, is closed by an
`UnlinkExecutable` of the run while open and owned by the inode it unlinks, and is not open when
the run ends. -/
theorem run_closes_each_once {w : World} (hw : Inv w) (ops : List Op) :
    ∃ evs, (run k ps w ops).trace = w.trace ++ evs ∧ (closeCalls evs).Nodup ∧
      ∀ h ∈ closeCalls evs, (h ∈ w.live ∨ w.tick ≤ h ∧ h < (run k ps w ops).tick) ∧
        h ∉ (run k ps w ops).live ∧
        ∃ pre info post, ops = pre ++ .unlinkExecutable info :: post ∧
          h ∈ (run k ps w pre).live ∧ OwnedBy (run k ps w pre) h info.ino := by
  -- a panic stops the run, so the bookkeeping is needed only where no panic happened
  replace hw : w.panicked = false → Inv w := fun _ => hw
  induction ops generalizing w with
  | nil => exact ⟨[], (List.append_nil _).symm, List.nodup_nil, nofun⟩
  | cons op ops ih =>
    cases hpw : w.panicked
    swap
    · rw [run_panicked k ps hpw]
      exact ⟨[], (List.append_nil _).symm, List.nodup_nil, nofun⟩
    replace hw := hw hpw
    rw [run_cons, next_of_not_panicked k ps hpw]
    obtain ⟨e₁, h₁, n₁, c₁⟩ := step_closes k ps hw op
    obtain ⟨e₂, h₂, n₂, c₂⟩ := ih fun hp => inv_step k ps hw op hp
    have hm := step_mono k ps w op
    have hrun := run_mono k ps (step k ps w op) ops
    -- a handle the first operation closed is neither open nor fresh in any later state
    have gone : ∀ h ∈ closeCalls e₁, ¬ (h ∈ (step k ps w op).live ∨ (step k ps w op).tick ≤ h) :=
      fun h hh => by
        obtain ⟨info, -, ho⟩ := (c₁ h hh).2
        rintro (hl | ht)
        · exact (c₁ h hh).1 hl
        · exact absurd (lt_of_lt_of_le (hw.live_lt h (hw.owned_live h _ ho)) hm.tick_le)
            (Nat.not_lt.mpr ht)
    refine ⟨e₁ ++ e₂, by rw [h₂, h₁, List.append_assoc],
      closeCalls_append e₁ e₂ ▸ List.nodup_append.mpr ⟨n₁, n₂, fun h ha hb =>
        gone h ha ((c₂ h hb).1.imp_right And.left)⟩, fun h hh => ?_⟩
    rcases List.mem_append.mp (closeCalls_append e₁ e₂ ▸ hh) with ha | hb
    · obtain ⟨info, rfl, ho⟩ := (c₁ h ha).2
      exact ⟨.inl (hw.owned_live h _ ho), fun hl => gone h ha ((hrun.live h hl).imp_right And.left),
        [], info, ops, rfl, hw.owned_live h _ ho, ho⟩
    · obtain ⟨hfrom, hr, pre, info, post, rfl, hl, ho⟩ := c₂ h hb
      refine ⟨?_, hr, op :: pre, info, post, rfl, ?_⟩
      · rcases hfrom with hl' | ⟨ht, ht'⟩
        · exact (hm.live h hl').imp_right fun ⟨h₁, h₂⟩ => ⟨h₁, lt_of_lt_of_le h₂ hrun.tick_le⟩
        · exact .inr ⟨hm.tick_le.trans ht, ht'⟩
      · rw [run_cons, next_of_not_panicked k ps hpw]
        exact ⟨hl, ho⟩

end

theorem run_closes_each_once_registeredWorld :
    Inv registeredWorld ∧
      ∃ evs, (run Kernel.granting [plainGoTracer] registeredWorld
          [.unlinkExecutable newproc1Executable.fileInfo,
            .unlinkExecutable newproc1Executable.fileInfo]).trace = registeredWorld.trace ++ evs ∧
        (closeCalls evs).Nodup :=
  have hw : Inv registeredWorld := reachable_inv_registeredWorld.2
  let ⟨evs, he, hn, _⟩ := run_closes_each_once Kernel.granting [plainGoTracer] hw _
  ⟨hw, evs, he, hn⟩

end BeylaTracer
