import BeylaTracer.Proofs.Steps
import BeylaTracer.Proofs.Unlink

/-!
# Who owns an open attachment handle

A handle is owned by an inode when it is a closable of that inode's entry in `Instrumentables`:
that is the only way `UnlinkExecutable` ever releases it. `Inv` is the bookkeeping every reachable
tracer keeps: handles are numbered by the kernel call that opened them, an entry lists each of its
handles once, every listed handle is open, and no handle is listed by two entries. Each operation
keeps it unless it panics (`inv_step`), and a panic ends the process, so every reachable world
has it (`Reachable.inv`).

`Inv` does not say that every open handle is owned. The global probes of `Init` are attached
through a dummy instrumenter that is dropped, and two paths of `NewExecutable` drop handles
the same way: an error in its loop returns before the local instrumenter is stored, and storing
over an inode that already has an entry loses the old entry's closables (`OrphanCause`). These
are the only ones: from a fresh tracer every handle without an owner comes from one of them
(`orphans_have_cause`), and a run that avoids them keeps every open handle owned
(`noOrphans_run`). A handle once left without an owner is never released: no later operation
closes or adopts it (`orphan_stays_open`).
-/

namespace BeylaTracer

/-- Handle `h` is a closable of the entry for inode `ino`. -/
def OwnedBy (w : World) (h : Handle) (ino : Nat) : Prop :=
  ∃ i, w.instrumentables ino = some i ∧ h ∈ i.closables

/-- The bookkeeping of attachment handles in a tracer. -/
structure Inv (w : World) : Prop where
  live_lt : ∀ h ∈ w.live, h < w.tick
  nodup : ∀ ino i, w.instrumentables ino = some i → i.closables.Nodup
  owned_live : ∀ h ino, OwnedBy w h ino → h ∈ w.live
  unique : ∀ h ino ino', OwnedBy w h ino → OwnedBy w h ino' → ino = ino'

section

variable {w w' : World}

theorem ownedBy_of_map_eq (hm : w'.instrumentables = w.instrumentables) {h : Handle} {ino : Nat} :
    OwnedBy w' h ino ↔ OwnedBy w h ino := by
  simp only [OwnedBy, hm]

theorem ownedBy_update {ino ino' : Nat} {o : Option Instrumenter} {h : Handle}
    (hm : w'.instrumentables = Function.update w.instrumentables ino o) :
    OwnedBy w' h ino' ↔ if ino' = ino then ∃ i, o = some i ∧ h ∈ i.closables
      else OwnedBy w h ino' := by
  by_cases e : ino' = ino
  · subst e
    simp [OwnedBy, hm]
  · simp [OwnedBy, hm, e]

/-- Who owns a handle after a step that stores `i'` at `ino`. -/
theorem ownedBy_update_some {ino c : Nat} {i' : Instrumenter} {h : Handle}
    (hm : w'.instrumentables = Function.update w.instrumentables ino (some i'))
    (ho : OwnedBy w' h c) : c = ino ∧ h ∈ i'.closables ∨ c ≠ ino ∧ OwnedBy w h c := by
  rw [ownedBy_update hm] at ho
  split at ho
  · obtain ⟨_, ⟨⟩, hh⟩ := ho
    exact .inl ⟨‹_›, hh⟩
  · exact .inr ⟨‹_›, ho⟩

/-- Who owns a handle after a step that removes the entry at `ino`. -/
theorem ownedBy_update_none {ino c : Nat} {h : Handle}
    (hm : w'.instrumentables = Function.update w.instrumentables ino none)
    (ho : OwnedBy w' h c) : c ≠ ino ∧ OwnedBy w h c := by
  rw [ownedBy_update hm] at ho
  split at ho
  · obtain ⟨_, ⟨⟩, -⟩ := ho
  · exact ⟨‹_›, ho⟩

theorem Inv.owned_lt (hw : Inv w) {h : Handle} {ino : Nat} (ho : OwnedBy w h ino) : h < w.tick :=
  hw.live_lt h (hw.owned_live h ino ho)

theorem inv_initial (o : Bool) : Inv (World.initial o) where
  live_lt _ hh := absurd hh (Finset.not_mem_empty _)
  nodup _ _ hi := Option.noConfusion hi
  owned_live _ _ := fun ⟨_, hi, _⟩ => Option.noConfusion hi
  unique _ _ _ := fun ⟨_, hi, _⟩ => Option.noConfusion hi

/-- A step that keeps the map, keeps the open handles and opens only fresh ones keeps `Inv`. -/
theorem Inv.of_map_eq (hw : Inv w) (hm : w'.instrumentables = w.instrumentables)
    (ht : w.tick ≤ w'.tick) (hl : ∀ h : Nat, h ∈ w'.live → h ∈ w.live ∨ w.tick ≤ h ∧ h < w'.tick)
    (hsub : w.live ⊆ w'.live) : Inv w' where
  live_lt h hh := (hl h hh).elim (fun h' => lt_of_lt_of_le (hw.live_lt h h') ht) And.right
  nodup ino i hi := hw.nodup ino i (hm ▸ hi)
  owned_live h ino ho := hsub (hw.owned_live h ino ((ownedBy_of_map_eq hm).mp ho))
  unique h a b ha hb := hw.unique h a b ((ownedBy_of_map_eq hm).mp ha) ((ownedBy_of_map_eq hm).mp hb)

/-- A step that stores at `ino` an instrumenter whose closables are `base` followed by fresh
handles it opened, `base` being nothing or what the entry held before, keeps `Inv`. -/
theorem Inv.install {ino : Nat} {i' : Instrumenter} {base hs : List Handle} (hw : Inv w)
    (hm : w'.instrumentables = Function.update w.instrumentables ino (some i'))
    (hc : i'.closables = base ++ hs)
    (hbase : base = [] ∨ ∃ i, w.instrumentables ino = some i ∧ i.closables = base)
    (ht : w.tick ≤ w'.tick) (hl : w'.live = w.live ∪ hs.toFinset) (hn : hs.Nodup)
    (hb : ∀ h ∈ hs, w.tick ≤ h ∧ h < w'.tick) : Inv w' := by
  have hsub : w.live ⊆ w'.live := hl ▸ Finset.subset_union_left
  have fresh : ∀ h ∈ hs, ∀ ino', ¬ OwnedBy w h ino' := fun h hh ino' ho =>
    absurd (hw.owned_lt ho) (Nat.not_lt.mpr (hb h hh).1)
  have base_owned : ∀ h ∈ base, OwnedBy w h ino := fun h hh => by
    rcases hbase with rfl | ⟨i, hi, rfl⟩
    · exact absurd hh (List.not_mem_nil _)
    · exact ⟨i, hi, hh⟩
  have to_ino : ∀ h c, OwnedBy w h c → h ∈ i'.closables → c = ino := fun h c ho hh => by
    rcases List.mem_append.mp (hc ▸ hh) with hh | hh
    · exact hw.unique h c ino ho (base_owned h hh)
    · exact absurd ho (fresh h hh c)
  refine ⟨fun h hh => ?_, fun ino' i hi => ?_, fun h c ho => ?_, fun h a b ha hb => ?_⟩
  · rw [hl, Finset.mem_union, List.mem_toFinset] at hh
    exact hh.elim (fun h' => lt_of_lt_of_le (hw.live_lt h h') ht) fun h' => (hb h h').2
  · by_cases e : ino' = ino
    · rw [e, hm, Function.update_same, Option.some.injEq] at hi
      subst hi
      rw [hc]
      refine List.nodup_append.mpr ⟨?_, hn, fun h hb' hh => fresh h hh ino (base_owned h hb')⟩
      rcases hbase with rfl | ⟨i, hi, rfl⟩
      · exact List.nodup_nil
      · exact hw.nodup ino i hi
    · rw [hm, Function.update_noteq e] at hi
      exact hw.nodup ino' i hi
  · rcases ownedBy_update_some hm ho with ⟨-, hh⟩ | ⟨-, ho⟩
    · rcases List.mem_append.mp (hc ▸ hh) with hh | hh
      · exact hsub (hw.owned_live h ino (base_owned h hh))
      · exact hl ▸ Finset.mem_union_right _ (List.mem_toFinset.mpr hh)
    · exact hsub (hw.owned_live h c ho)
  · rcases ownedBy_update_some hm ha with ⟨ea, hha⟩ | ⟨-, ha⟩ <;>
      rcases ownedBy_update_some hm hb with ⟨eb, hhb⟩ | ⟨-, hb⟩
    · exact ea.trans eb.symm
    · exact ea.trans (to_ino h b hb hha).symm
    · exact (to_ino h a ha hhb).trans eb.symm
    · exact hw.unique h a b ha hb

/-- Removing an entry and closing exactly its handles keeps `Inv`. -/
theorem Inv.unlink {ino : Nat} {i : Instrumenter} (hw : Inv w)
    (hi : w.instrumentables ino = some i)
    (hm : w'.instrumentables = Function.update w.instrumentables ino none)
    (ht : w.tick ≤ w'.tick) (hl : w'.live = w.live \ i.closables.toFinset) : Inv w' := by
  refine ⟨fun h hh => ?_, fun c j hj => ?_, fun h c ho => ?_, fun h a b ha hb =>
    hw.unique h a b (ownedBy_update_none hm ha).2 (ownedBy_update_none hm hb).2⟩
  · rw [hl] at hh
    exact lt_of_lt_of_le (hw.live_lt h (Finset.mem_sdiff.mp hh).1) ht
  · by_cases e : c = ino
    · rw [e, hm, Function.update_same] at hj
      cases hj
    · rw [hm, Function.update_noteq e] at hj
      exact hw.nodup c j hj
  · obtain ⟨hne, hoc⟩ := ownedBy_update_none hm ho
    rw [hl, Finset.mem_sdiff, List.mem_toFinset]
    exact ⟨hw.owned_live h c hoc, fun hh => hne (hw.unique h c ino hoc ⟨i, hi, hh⟩)⟩

/-- After a step that writes `o` at `ino`, what another inode owned it still owns. -/
theorem ownedBy_update_of_ne {ino c : Nat} {o : Option Instrumenter} {h : Handle}
    (hm : w'.instrumentables = Function.update w.instrumentables ino o) (hne : c ≠ ino)
    (ho : OwnedBy w h c) : OwnedBy w' h c :=
  (ownedBy_update hm).mpr (by rw [if_neg hne]; exact ho)

end

/-! ## Example tracers -/

/-- A kernel that refuses only call 3: after the two calls of an `Init` of the Go tracer, the
return probe of `runtime.newproc1`. -/
def returnProbeFails : Kernel :=
  ⟨fun n => if n = 3 then some "permission denied" else none, fun _ => true, fun _ _ => none⟩

/-- A kernel that refuses only call 4: after an `Init` of the Go tracer and the two attachments of
`newproc1Executable`, the first `Close` of an unlink. -/
def firstCloseFails : Kernel :=
  ⟨fun n => if n = 4 then some "bad file descriptor" else none, fun _ => true, fun _ _ => none⟩

/-- The Go tracer without debug output, on a kernel that supports context propagation, whose
objects all parse. -/
def plainGoTracer : Program := goTracer ⟨false, 0⟩ (fun _ => none) true

/-- A Go executable whose only known function is `runtime.newproc1`, returning at one offset. -/
def newproc1Executable : Instrumentable where
  fileInfo := { ino := 7, pid := 42 }
  offsets := { funcs := fun s => if s = "runtime.newproc1" then some ⟨100, [120]⟩ else none }

/-- A started tracer that registered `newproc1Executable` once: `Init` made calls 0 and 1, and
inode 7 owns handles 2 and 3. -/
def registeredWorld : World :=
  run Kernel.granting [plainGoTracer] (World.initial false)
    [.init, .run, .newExecutable newproc1Executable]

/-- A started tracer whose registration of `newproc1Executable` failed at its return probe:
handle 2 is open and owned by no inode. -/
def failedWorld : World :=
  run returnProbeFails [plainGoTracer] (World.initial false)
    [.init, .run, .newExecutable newproc1Executable]

section

variable (k : Kernel) (ps : List Program)

/-- Every operation that does not panic keeps `Inv`. -/
theorem inv_step {w : World} (hw : Inv w) (op : Op) (hp : (step k ps w op).panicked = false) :
    Inv (step k ps w op) := by
  have same := fun (w' : World) (hm : w'.instrumentables = w.instrumentables)
    (ht : w'.tick = w.tick) (hl : w'.live = w.live) =>
    hw.of_map_eq hm ht.ge (fun _ hh => .inl (hl ▸ hh)) hl.ge
  cases op with
  | init =>
    obtain ⟨evs, h, -⟩ := loadTracers_spec k ps (w, {})
    exact hw.of_map_eq h.instrumentables h.mono.tick_le h.mono.live h.live
  | run => rw [step_run]; exact same _ rfl rfl rfl
  | newExecutable ie =>
    obtain ⟨s, hg, hs⟩ := step_newExecutable k ps w ie
    obtain ⟨_, hc, hl, hn, hb⟩ := hg.opened
    rcases hs with ⟨-, hs⟩ | ⟨-, hs⟩ <;> rw [hs]
    · exact hw.install (hg.store_instrumentables _) hc (.inl rfl) hg.tick_le hl hn hb
    · exact hw.of_map_eq hg.instrumentables hg.tick_le hg.mono.live (hl ▸ Finset.subset_union_left)
  | newExecutableInstance ie =>
    cases hi : w.instrumentables ie.fileInfo.ino with
    | none => rw [step_newExecutableInstance_unknown k ps hi]; exact same _ rfl rfl rfl
    | some i =>
      obtain ⟨s, hg, hs⟩ := step_newExecutableInstance_known k ps hi
      obtain ⟨_, hc, hl, hn, hb⟩ := hg.opened
      rw [hs]
      exact hw.install (hg.store_instrumentables _) hc (.inr ⟨i, hi, rfl⟩) hg.tick_le hl hn hb
  | unlinkExecutable info =>
    cases hi : w.instrumentables info.ino with
    | none => rw [step_unlinkExecutable_unknown k ps hi]; exact same _ rfl rfl rfl
    | some i =>
      obtain ⟨pre, evs, -, -, ⟨rfl, -, hs⟩ | ⟨-, -, hs⟩⟩ := step_unlinkExecutable_known k ps hi <;>
        rw [hs] at hp ⊢
      · exact hw.unlink hi rfl (Nat.le_add_right _ _) rfl
      · cases hp

/-- `Init` neither sets the logger nor panics: its warning goes to a logger of its own. -/
theorem step_init_quiet (w : World) :
    (step k ps w .init).logger = w.logger ∧ (step k ps w .init).panicked = w.panicked :=
  let ⟨_, h, _⟩ := loadTracers_spec k ps (w, {})
  h.quiet

/-- An operation panics only on a nil `pt.log`, and the panic leaves the map as it was. -/
theorem step_panics {w : World} (hw : w.panicked = false) {op : Op}
    (hp : (step k ps w op).panicked = true) :
    w.logger = false ∧ (step k ps w op).instrumentables = w.instrumentables := by
  have quiet : ∀ w' : World, w'.panicked = w.panicked → w'.panicked = true → False :=
    fun _ e h => absurd (h.symm.trans (e.trans hw)) Bool.noConfusion
  have logged : ∀ w' : World, w'.panicked = (w.panicked || !w.logger) → w'.panicked = true →
      w.logger = false := fun _ e h => by simpa [e, hw] using h
  cases op with
  | init => exact (quiet _ (step_init_quiet k ps w).2 hp).elim
  | run => rw [step_run] at hp; exact (quiet _ rfl hp).elim
  | newExecutable ie =>
    obtain ⟨s, hg, ⟨-, hs⟩ | ⟨-, hs⟩⟩ := step_newExecutable k ps w ie <;> rw [hs] at hp <;>
      exact (quiet _ hg.quiet.2 hp).elim
  | newExecutableInstance ie =>
    cases hi : w.instrumentables ie.fileInfo.ino with
    | none =>
      rw [step_newExecutableInstance_unknown k ps hi] at hp ⊢
      exact ⟨logged _ rfl hp, rfl⟩
    | some i =>
      obtain ⟨s, hg, hs⟩ := step_newExecutableInstance_known k ps hi
      rw [hs] at hp
      exact (quiet _ hg.quiet.2 hp).elim
  | unlinkExecutable info =>
    cases hi : w.instrumentables info.ino with
    | none =>
      rw [step_unlinkExecutable_unknown k ps hi] at hp ⊢
      exact ⟨logged _ rfl hp, rfl⟩
    | some i =>
      obtain ⟨pre, evs, -, -, ⟨-, -, hs⟩ | ⟨hlog, -, hs⟩⟩ := step_unlinkExecutable_known k ps hi <;>
        rw [hs] at hp ⊢
      · exact (quiet _ rfl hp).elim
      · exact ⟨hlog, rfl⟩

/-- `Run` sets the logger, and no operation clears it. -/
theorem step_logger {w : World} (hlog : w.logger = true) (op : Op) :
    (step k ps w op).logger = true := by
  cases op with
  | init => exact (step_init_quiet k ps w).1.trans hlog
  | run => rw [step_run]
  | newExecutable ie =>
    obtain ⟨s, hg, ⟨-, hs⟩ | ⟨-, hs⟩⟩ := step_newExecutable k ps w ie <;> rw [hs] <;>
      exact hg.quiet.1.trans hlog
  | newExecutableInstance ie =>
    cases hi : w.instrumentables ie.fileInfo.ino with
    | none => rw [step_newExecutableInstance_unknown k ps hi]; exact hlog
    | some i =>
      obtain ⟨s, hg, hs⟩ := step_newExecutableInstance_known k ps hi
      rw [hs]
      exact hg.quiet.1.trans hlog
  | unlinkExecutable info =>
    cases hi : w.instrumentables info.ino with
    | none => rw [step_unlinkExecutable_unknown k ps hi]; exact hlog
    | some i =>
      obtain ⟨pre, evs, -, -, ⟨-, -, hs⟩ | ⟨-, -, hs⟩⟩ := step_unlinkExecutable_known k ps hi <;>
        rw [hs] <;> exact hlog

/-- A started tracer that has not panicked does not panic at its next operation, and stays
started. -/
theorem step_started {w : World} (hp : w.panicked = false) (hlog : w.logger = true) (op : Op) :
    (step k ps w op).panicked = false ∧ (step k ps w op).logger = true :=
  ⟨Bool.eq_false_iff.mpr fun h => Bool.noConfusion (hlog.symm.trans (step_panics k ps hp h).1),
    step_logger k ps hlog op⟩

/-- Every operation keeps the kernel side of the world `Mono`: handles are numbered in call
order, the flag is never reset and the trace only grows. -/
theorem step_mono (w : World) (op : Op) : Mono (w, {}) (step k ps w op, {}) := by
  have same : ∀ w' : World, w'.tick = w.tick → w'.live = w.live →
      w'.integrityModeOverride = w.integrityModeOverride → w.trace <+: w'.trace →
      Mono (w, {}) (w', {}) := fun _ ht hl ho hp =>
    ⟨ht.ge, fun _ h => .inl (hl ▸ h), fun h => ho ▸ h, hp⟩
  cases op with
  | init =>
    obtain ⟨L, h, -⟩ := loadTracers_spec k ps (w, {})
    exact ⟨h.mono.tick_le, h.mono.live, h.mono.override, h.mono.trace⟩
  | run => rw [step_run]; exact same _ rfl rfl rfl (List.prefix_append _ _)
  | newExecutable ie =>
    obtain ⟨s, hg, ⟨-, hs⟩ | ⟨-, hs⟩⟩ := step_newExecutable k ps w ie <;> rw [hs] <;>
      exact ⟨hg.mono.tick_le, hg.mono.live, hg.mono.override, hg.mono.trace⟩
  | newExecutableInstance ie =>
    cases hi : w.instrumentables ie.fileInfo.ino with
    | none =>
      rw [step_newExecutableInstance_unknown k ps hi]
      exact same _ rfl rfl rfl (List.prefix_append _ _)
    | some i =>
      obtain ⟨s, hg, hs⟩ := step_newExecutableInstance_known k ps hi
      rw [hs]
      exact ⟨hg.mono.tick_le, hg.mono.live, hg.mono.override, hg.mono.trace⟩
  | unlinkExecutable info =>
    cases hi : w.instrumentables info.ino with
    | none =>
      rw [step_unlinkExecutable_unknown k ps hi]
      exact same _ rfl rfl rfl (List.prefix_append _ _)
    | some i =>
      obtain ⟨pre, evs, -, -, ⟨-, -, hs⟩ | ⟨-, -, hs⟩⟩ := step_unlinkExecutable_known k ps hi <;>
        rw [hs] <;>
        exact ⟨Nat.le_add_right _ _, fun _ hh => .inl (Finset.mem_sdiff.mp hh).1, id,
          List.prefix_append _ _⟩

theorem run_mono (w : World) (ops : List Op) : Mono (w, {}) (run k ps w ops, {}) :=
  run_keeps k ps (P := fun w' => Mono (w, {}) (w', {})) (refl_of Mono _)
    fun w' _ op _ h => h.trans (step_mono k ps w' op)

/-- Only `UnlinkExecutable` releases an open handle, and only one owned by the inode it
unlinks. -/
theorem released_step {w : World} (op : Op) {h : Handle} (hl : h ∈ w.live)
    (hr : h ∉ (step k ps w op).live) : ∃ info, op = .unlinkExecutable info ∧ OwnedBy w h info.ino := by
  cases op with
  | init =>
    obtain ⟨evs, hL, -⟩ := loadTracers_spec k ps (w, {})
    exact absurd (hL.live hl) hr
  | run => rw [step_run] at hr; exact absurd hl hr
  | newExecutable ie =>
    obtain ⟨s, hg, hs⟩ := step_newExecutable k ps w ie
    obtain ⟨_, -, hlive, -⟩ := hg.opened
    rcases hs with ⟨-, hs⟩ | ⟨-, hs⟩ <;> rw [hs] at hr <;>
      exact absurd (hlive ▸ Finset.mem_union_left _ hl) hr
  | newExecutableInstance ie =>
    cases hi : w.instrumentables ie.fileInfo.ino with
    | none => rw [step_newExecutableInstance_unknown k ps hi] at hr; exact absurd hl hr
    | some i =>
      obtain ⟨s, hg, hs⟩ := step_newExecutableInstance_known k ps hi
      obtain ⟨_, -, hlive, -⟩ := hg.opened
      rw [hs] at hr
      exact absurd (hlive ▸ Finset.mem_union_left _ hl) hr
  | unlinkExecutable info =>
    refine ⟨info, rfl, ?_⟩
    cases hi : w.instrumentables info.ino with
    | none => rw [step_unlinkExecutable_unknown k ps hi] at hr; exact absurd hl hr
    | some i =>
      obtain ⟨pre, evs, hpre, -, ⟨-, -, hs⟩ | ⟨-, -, hs⟩⟩ := step_unlinkExecutable_known k ps hi <;>
        rw [hs] at hr <;>
        exact ⟨i, hi, hpre.subset (by simpa [World.released, hl] using hr)⟩

/-- A reachable tracer has not panicked. -/
theorem Reachable.not_panicked {w : World} (h : Reachable k ps w) : w.panicked = false := by
  cases h with
  | initial o => rfl
  | step op _ hp => exact hp

/-- A run from a reachable tracer that has not panicked at its end reaches a reachable tracer. -/
theorem Reachable.run {w : World} (h : Reachable k ps w) (ops : List Op)
    (hp : (run k ps w ops).panicked = false) : Reachable k ps (run k ps w ops) := by
  induction ops generalizing w with
  | nil => exact h
  | cons op ops ih =>
    rw [run_cons, next_of_not_panicked k ps h.not_panicked] at hp ⊢
    cases hs : (BeylaTracer.step k ps w op).panicked
    · exact ih (h.step op hs) hp
    · rw [run_panicked k ps hs] at hp
      exact absurd (hs.symm.trans hp) Bool.noConfusion

/-- Every reachable tracer keeps the bookkeeping of its attachment handles. -/
theorem Reachable.inv {w : World} (h : Reachable k ps w) : Inv w := by
  induction h with
  | initial o => exact inv_initial o
  | step op _ hp ih => exact inv_step k ps ih op hp

/-- A property that every operation keeps from a tracer with `Inv` holds after every run from such
a tracer: each operation before a panic starts from a tracer with `Inv`. -/
theorem Inv.run_keeps {P : World → Prop} {w : World} {ops : List Op} (hw : Inv w) (hP : P w)
    (hstep : ∀ w, Inv w → ∀ op ∈ ops, P w → P (step k ps w op)) : P (run k ps w ops) :=
  (BeylaTracer.run_keeps k ps (P := fun w => (w.panicked = false → Inv w) ∧ P w) ⟨fun _ => hw, hP⟩
    fun w hp op hop ⟨hi, hw'⟩ =>
      ⟨inv_step k ps (hi hp) op, hstep w (hi hp) op hop hw'⟩).2

end

theorem reachable_inv_registeredWorld :
    Reachable Kernel.granting [plainGoTracer] registeredWorld ∧ Inv registeredWorld :=
  have hr : Reachable Kernel.granting [plainGoTracer] registeredWorld :=
    (Reachable.initial false).run _ _ _ rfl
  ⟨hr, hr.inv⟩

/-! ## Orphaned handles -/

/-- Every open handle is owned by exactly one inode: none is orphaned, none is shared. -/
def NoOrphans (w : World) : Prop :=
  ∀ h ∈ w.live, ∃! ino, OwnedBy w h ino

theorem Inv.noOrphans {w : World} (hw : Inv w) (hown : ∀ h ∈ w.live, ∃ ino, OwnedBy w h ino) :
    NoOrphans w := fun h hh =>
  (hown h hh).elim fun ino ho => ⟨ino, ho, fun ino' ho' => hw.unique h ino' ino ho' ho⟩

section

variable (k : Kernel) (ps : List Program)

/-- The operations that leave no open handle without an owner: `Run`, every
`NewExecutableInstance` and `UnlinkExecutable`, a `NewExecutable` for an inode without an entry
that returns no error, and an `Init` that attaches no global probe, since those belong to no
inode. -/
def KeepsOwnership (w : World) : Op → Prop
  | .init => (step k ps w .init).live ⊆ w.live
  | .run => True
  | .newExecutable ie =>
    w.instrumentables ie.fileInfo.ino = none ∧ succeeds k ps w (.newExecutable ie) = true
  | .newExecutableInstance _ => True
  | .unlinkExecutable _ => True

/-- The three ways an operation leaves an open handle `h` owned by no inode: `h` is opened by
`Init`, whose dummy instrumenter is dropped, or by a `NewExecutable` that returns an error before
storing its instrumenter; or `h` is a closable of the entry that a returning `NewExecutable`
replaces. -/
def OrphanCause (w : World) (op : Op) (h : Handle) : Prop :=
  (h ∉ w.live ∧ h ∈ (step k ps w op).live ∧
      (op = .init ∨ ∃ ie, op = .newExecutable ie ∧ succeeds k ps w op = false)) ∨
    ∃ ie i, op = .newExecutable ie ∧ succeeds k ps w op = true ∧
      w.instrumentables ie.fileInfo.ino = some i ∧ h ∈ i.closables

/-- After a step that writes `o` at `ino`, a handle that no inode owns was owned by no inode other
than `ino` before. -/
theorem owner_of_update {w w' : World} {ino c : Nat} {o : Option Instrumenter} {h : Handle}
    (hm : w'.instrumentables = Function.update w.instrumentables ino o)
    (hu : ∀ c, ¬ OwnedBy w' h c) (hc : OwnedBy w h c) : c = ino :=
  by_contra fun e => hu c (ownedBy_update_of_ne hm e hc)

/-- An open handle that no inode owns after an operation was already open with no owner, or the
operation left it so in one of the ways of `OrphanCause`. -/
theorem orphan_origin_step {w : World} (op : Op) {h : Handle} (hl : h ∈ (step k ps w op).live)
    (hu : ∀ ino, ¬ OwnedBy (step k ps w op) h ino) :
    (h ∈ w.live ∧ ∀ ino, ¬ OwnedBy w h ino) ∨ OrphanCause k ps w op h := by
  by_cases hold : h ∈ w.live ∧ ∀ ino, ¬ OwnedBy w h ino
  · exact .inl hold
  refine .inr ?_
  -- otherwise `h` is new, or some inode owned it
  have owned : h ∈ w.live → ∃ c, OwnedBy w h c := fun hw' =>
    by_contra fun hn => hold ⟨hw', fun c hc => hn ⟨c, hc⟩⟩
  -- an operation that keeps the map and releases only handles leaves no new orphan
  have kept : (step k ps w op).instrumentables = w.instrumentables →
      (step k ps w op).live ⊆ w.live → False := fun hm hsub =>
    hold ⟨hsub hl, fun c hc => hu c ((ownedBy_of_map_eq hm).mpr hc)⟩
  cases op with
  | init =>
    obtain ⟨evs, hL, -⟩ := loadTracers_spec k ps (w, {})
    refine .inl ⟨fun hw' => ?_, hl, .inl rfl⟩
    obtain ⟨c, hc⟩ := owned hw'
    exact hu c ((ownedBy_of_map_eq hL.instrumentables).mpr hc)
  | run => exact (kept (by rw [step_run]) (by rw [step_run])).elim
  | newExecutable ie =>
    obtain ⟨s, hg, ⟨hs, hst⟩ | ⟨hs, hst⟩⟩ := step_newExecutable k ps w ie
    · obtain ⟨_, hc, hlive, -, -⟩ := hg.opened
      have hm := hg.store_instrumentables ie.fileInfo.ino
      rw [hst] at hl hu
      -- the handles it opened belong to the new entry, so `h` is an old one
      have hold' : h ∈ w.live := (Finset.mem_union.mp (hlive ▸ hl)).resolve_right fun hh =>
        hu _ ⟨s.2, by rw [hm, Function.update_same], by
          rw [hc]; exact List.mem_append_right _ (List.mem_toFinset.mp hh)⟩
      obtain ⟨c, i, hi, hh⟩ := owned hold'
      have e := owner_of_update hm hu ⟨i, hi, hh⟩
      exact .inr ⟨ie, i, rfl, hs, e ▸ hi, hh⟩
    · refine .inl ⟨fun hw' => ?_, hl, .inr ⟨ie, rfl, hs⟩⟩
      obtain ⟨c, hc⟩ := owned hw'
      rw [hst] at hu
      exact hu c ((ownedBy_of_map_eq hg.instrumentables).mpr hc)
  | newExecutableInstance ie =>
    exfalso
    cases hi : w.instrumentables ie.fileInfo.ino with
    | none =>
      exact kept (by rw [step_newExecutableInstance_unknown k ps hi])
        (by rw [step_newExecutableInstance_unknown k ps hi])
    | some i =>
      obtain ⟨s, hg, hst⟩ := step_newExecutableInstance_known k ps hi
      obtain ⟨_, hc, hlive, -, -⟩ := hg.opened
      have hm := hg.store_instrumentables ie.fileInfo.ino
      rw [hst] at hl hu
      -- the entry keeps its handles and adds the new ones, so `h` is in none of them
      have hnot : h ∉ s.2.closables := fun hh => hu _ ⟨s.2, by rw [hm, Function.update_same], hh⟩
      rw [hc] at hnot
      obtain ⟨c, j, hj, hh⟩ := owned ((Finset.mem_union.mp (hlive ▸ hl)).resolve_right fun hh =>
        hnot (List.mem_append_right _ (List.mem_toFinset.mp hh)))
      have e := owner_of_update hm hu ⟨j, hj, hh⟩
      rw [e, hi, Option.some.injEq] at hj
      exact hnot (List.mem_append_left _ (hj ▸ hh))
  | unlinkExecutable info =>
    exfalso
    cases hi : w.instrumentables info.ino with
    | none =>
      exact kept (by rw [step_unlinkExecutable_unknown k ps hi])
        (by rw [step_unlinkExecutable_unknown k ps hi])
    | some i =>
      obtain ⟨pre, evs, -, -, ⟨rfl, -, hst⟩ | ⟨-, -, hst⟩⟩ := step_unlinkExecutable_known k ps hi
      · rw [hst] at hl hu
        obtain ⟨hl, hni⟩ := Finset.mem_sdiff.mp hl
        obtain ⟨c, j, hj, hh⟩ := owned hl
        have e := owner_of_update rfl hu ⟨j, hj, hh⟩
        rw [e, hi, Option.some.injEq] at hj
        exact hni (List.mem_toFinset.mpr (hj ▸ hh))
      · exact kept (by rw [hst]; rfl) (by rw [hst]; exact Finset.sdiff_subset)

/-- One operation that keeps ownership leaves every open handle owned. -/
theorem owned_step {w : World} (hown : ∀ h ∈ w.live, ∃ ino, OwnedBy w h ino) (op : Op)
    (hop : KeepsOwnership k ps w op) :
    ∀ h ∈ (step k ps w op).live, ∃ ino, OwnedBy (step k ps w op) h ino := fun h hl =>
  by_contra fun hn => by
    rcases orphan_origin_step k ps op hl fun c hc => hn ⟨c, hc⟩ with
      ⟨hl', hu'⟩ | ⟨hnew, hin, rfl | ⟨ie, rfl, hf⟩⟩ | ⟨ie, i, rfl, -, hi, -⟩
    · obtain ⟨c, hc⟩ := hown h hl'
      exact hu' c hc
    · exact hnew (hop hin)
    · exact Bool.false_ne_true (hf.symm.trans hop.2)
    · rw [hop.1] at hi
      cases hi

/-- A run of operations each of which keeps ownership in the world it is applied to. -/
inductive OwnedRun : World → List Op → Prop
  | nil (w : World) : OwnedRun w []
  | cons {w : World} {op : Op} {ops : List Op} :
    KeepsOwnership k ps w op → OwnedRun (step k ps w op) ops → OwnedRun w (op :: ops)

/-- A run of operations that keep ownership keeps every open handle owned by exactly one inode;
a panic on the way stops the run and leaves the map as it was. -/
theorem owned_run {w : World} {ops : List Op} (hr : OwnedRun k ps w ops) (hw : Inv w)
    (hown : ∀ h ∈ w.live, ∃ ino, OwnedBy w h ino) : NoOrphans (run k ps w ops) := by
  induction hr with
  | nil w => exact hw.noOrphans hown
  | @cons w op ops hop _ ih =>
    cases hpw : w.panicked
    · rw [run_cons, next_of_not_panicked k ps hpw]
      have hown' := owned_step k ps hown op hop
      cases hps : (step k ps w op).panicked
      · exact ih (inv_step k ps hw op hps) hown'
      · rw [run_panicked k ps hps]
        obtain ⟨-, hm⟩ := step_panics k ps hpw hps
        exact fun h hh => (hown' h hh).elim fun ino ho => ⟨ino, ho, fun ino' ho' =>
          hw.unique h ino' ino ((ownedBy_of_map_eq hm).mp ho') ((ownedBy_of_map_eq hm).mp ho)⟩
    · rw [run_panicked k ps hpw]
      exact hw.noOrphans hown

/-- From a fresh tracer, a run of `Run`, `NewExecutableInstance` and `UnlinkExecutable` calls, of
`NewExecutable` calls for inodes without an entry that return no error, and of `Init` calls that
attach no global probe leaves every open handle owned by exactly one inode. -/
theorem noOrphans_run (o : Bool) (ops : List Op) (hr : OwnedRun k ps (World.initial o) ops) :
    NoOrphans (run k ps (World.initial o) ops) :=
  owned_run k ps hr (inv_initial o) fun _ hh => absurd hh (Finset.not_mem_empty _)

end

theorem noOrphans_run_newproc1 :
    OwnedRun Kernel.granting [plainGoTracer] (World.initial false)
        [.init, .newExecutable newproc1Executable] ∧
      NoOrphans (run Kernel.granting [plainGoTracer] (World.initial false)
        [.init, .newExecutable newproc1Executable]) :=
  have hr : OwnedRun Kernel.granting [plainGoTracer] (World.initial false)
      [.init, .newExecutable newproc1Executable] :=
    .cons (fun _ hh => by simpa using hh) (.cons ⟨rfl, rfl⟩ (.nil _))
  ⟨hr, noOrphans_run Kernel.granting _ false _ hr⟩

section

variable (k : Kernel) (ps : List Program)

/-- One operation neither releases nor adopts an open handle that no inode owns. -/
theorem orphan_step {w : World} (hw : Inv w) (op : Op) {h : Handle} (hl : h ∈ w.live)
    (hu : ∀ ino, ¬ OwnedBy w h ino) :
    h ∈ (step k ps w op).live ∧ ∀ ino, ¬ OwnedBy (step k ps w op) h ino := by
  have stale : h < w.tick := hw.live_lt h hl
  refine ⟨by_contra fun hr => ?_, ?_⟩
  · obtain ⟨info, -, ho⟩ := released_step k ps op hl hr
    exact hu _ ho
  cases op with
  | init =>
    obtain ⟨evs, hL, -⟩ := loadTracers_spec k ps (w, {})
    exact fun ino ho => hu ino ((ownedBy_of_map_eq hL.instrumentables).mp ho)
  | run => rw [step_run]; exact hu
  | newExecutable ie =>
    obtain ⟨s, hg, hs⟩ := step_newExecutable k ps w ie
    obtain ⟨_, hc, -, -, hb⟩ := hg.opened
    rcases hs with ⟨-, hs⟩ | ⟨-, hs⟩ <;> rw [hs]
    · intro ino ho
      rcases ownedBy_update_some (hg.store_instrumentables _) ho with ⟨-, hh⟩ | ⟨-, ho⟩
      · rw [hc, List.nil_append] at hh
        exact absurd stale (Nat.not_lt.mpr (hb h hh).1)
      · exact hu ino ho
    · exact fun ino ho => hu ino ((ownedBy_of_map_eq hg.instrumentables).mp ho)
  | newExecutableInstance ie =>
    cases hi : w.instrumentables ie.fileInfo.ino with
    | none => rw [step_newExecutableInstance_unknown k ps hi]; exact hu
    | some i =>
      obtain ⟨s, hg, hs⟩ := step_newExecutableInstance_known k ps hi
      obtain ⟨_, hc, -, -, hb⟩ := hg.opened
      rw [hs]
      intro ino ho
      rcases ownedBy_update_some (hg.store_instrumentables _) ho with ⟨-, hh⟩ | ⟨-, ho⟩
      · rcases List.mem_append.mp (hc ▸ hh) with hh | hh
        · exact hu _ ⟨i, hi, hh⟩
        · exact absurd stale (Nat.not_lt.mpr (hb h hh).1)
      · exact hu ino ho
  | unlinkExecutable info =>
    cases hi : w.instrumentables info.ino with
    | none => rw [step_unlinkExecutable_unknown k ps hi]; exact hu
    | some i =>
      obtain ⟨pre, evs, -, -, ⟨rfl, -, hs⟩ | ⟨-, -, hs⟩⟩ := step_unlinkExecutable_known k ps hi <;>
        rw [hs]
      · exact fun ino ho => hu ino (ownedBy_update_none rfl ho).2
      · exact hu

/-- An open handle that no inode owns is never released: it stays open, and owned by none, through
every later sequence of operations. -/
theorem orphan_stays_open {w : World} (hw : Inv w) (ops : List Op) {h : Handle} (hl : h ∈ w.live)
    (hu : ∀ ino, ¬ OwnedBy w h ino) :
    h ∈ (run k ps w ops).live ∧ ∀ ino, ¬ OwnedBy (run k ps w ops) h ino :=
  hw.run_keeps k ps (P := fun w => h ∈ w.live ∧ ∀ ino, ¬ OwnedBy w h ino) ⟨hl, hu⟩
    fun _ hw op _ ⟨hl, hu⟩ => orphan_step k ps hw op hl hu

end

/-- In `failedWorld`, handle 2 is open and owned by no inode. -/
theorem failedWorld_orphan : 2 ∈ failedWorld.live ∧ ∀ ino, ¬ OwnedBy failedWorld 2 ino :=
  ⟨by decide, fun _ ⟨_, hi, _⟩ => nomatch hi⟩

theorem orphan_stays_open_failedWorld :
    Inv failedWorld ∧ 2 ∈ failedWorld.live ∧ (∀ ino, ¬ OwnedBy failedWorld 2 ino) ∧
      2 ∈ (run returnProbeFails [plainGoTracer] failedWorld
        [.newExecutable newproc1Executable, .unlinkExecutable newproc1Executable.fileInfo]).live :=
  have hw : Inv failedWorld := ((Reachable.initial false).run returnProbeFails [plainGoTracer]
    [.init, .run, .newExecutable newproc1Executable] rfl).inv
  ⟨hw, failedWorld_orphan.1, failedWorld_orphan.2,
    (orphan_stays_open returnProbeFails [plainGoTracer] hw _ failedWorld_orphan.1
      failedWorld_orphan.2).1⟩

section

variable (k : Kernel) (ps : List Program)

end

/-- After `Init`, the Go tracer attaches the entry probe of `runtime.newproc1` (handle 2) and then
fails to attach its return probe: `NewExecutable` returns before storing its instrumenter, and
handle 2 is left open with no owner. -/
theorem newExecutable_failure_orphans_handle :
    Reachable returnProbeFails [plainGoTracer] (run returnProbeFails [plainGoTracer]
        (World.initial false) [.init, .newExecutable newproc1Executable]) ∧
      2 ∈ (run returnProbeFails [plainGoTracer] (World.initial false)
        [.init, .newExecutable newproc1Executable]).live ∧
      ∀ ino, ¬ OwnedBy (run returnProbeFails [plainGoTracer]
        (World.initial false) [.init, .newExecutable newproc1Executable]) 2 ino :=
  ⟨(Reachable.initial false).run _ _ [.init, .newExecutable newproc1Executable] rfl, by decide,
    fun _ ⟨_, hi, _⟩ => nomatch hi⟩

section

variable (k : Kernel) (ps : List Program)

end

section

variable (k : Kernel) (ps : List Program)

/-- A `NewExecutable` over an inode that has an entry replaces it: when it returns, every handle
of the old entry is still open and owned by no inode. -/
theorem newExecutable_overwrite_orphans {w : World} {ie : Instrumentable} {i : Instrumenter}
    (hw : Inv w) (hi : w.instrumentables ie.fileInfo.ino = some i)
    (hsucc : succeeds k ps w (.newExecutable ie) = true) :
    ∀ h ∈ i.closables, h ∈ (step k ps w (.newExecutable ie)).live ∧
      ∀ ino, ¬ OwnedBy (step k ps w (.newExecutable ie)) h ino := by
  obtain ⟨s, hg, ⟨-, hs⟩ | ⟨hf, -⟩⟩ := step_newExecutable k ps w ie
  · obtain ⟨_, hc, hl, -, hb⟩ := hg.opened
    rw [hs]
    intro h hh
    have ho : OwnedBy w h ie.fileInfo.ino := ⟨i, hi, hh⟩
    refine ⟨hl ▸ Finset.mem_union_left _ (hw.owned_live h _ ho), fun ino ho' => ?_⟩
    rcases ownedBy_update_some (hg.store_instrumentables _) ho' with ⟨-, hmem⟩ | ⟨hne, ho'⟩
    · rw [hc, List.nil_append] at hmem
      exact absurd (hw.owned_lt ho) (Nat.not_lt.mpr (hb h hmem).1)
    · exact hne (hw.unique h ino _ ho' ho)
  · exact absurd (hf.symm.trans hsucc) Bool.false_ne_true

end

theorem newExecutable_overwrite_orphans_newproc1 :
    Inv registeredWorld ∧
      registeredWorld.instrumentables 7 =
        some { offsets := newproc1Executable.offsets, closables := [2, 3], modules := .empty } ∧
      succeeds Kernel.granting [plainGoTracer] registeredWorld
        (.newExecutable newproc1Executable) = true ∧
      ∀ h ∈ [2, 3], h ∈ (step Kernel.granting [plainGoTracer] registeredWorld
          (.newExecutable newproc1Executable)).live ∧
        ∀ ino, ¬ OwnedBy (step Kernel.granting [plainGoTracer] registeredWorld
          (.newExecutable newproc1Executable)) h ino :=
  have hw := reachable_inv_registeredWorld.2
  have hi : registeredWorld.instrumentables newproc1Executable.fileInfo.ino =
      some { offsets := newproc1Executable.offsets, closables := [2, 3], modules := .empty } := rfl
  ⟨hw, hi, rfl, newExecutable_overwrite_orphans Kernel.granting [plainGoTracer] hw hi rfl⟩

/-! ## Where orphaned handles come from -/

section

variable (k : Kernel) (ps : List Program)

/-- Over a run, an open handle that no inode owns at the end had no owner at the start, or some
operation of the run left it so in one of the ways of `OrphanCause`. -/
theorem orphan_origin_run {w : World} (ops : List Op) {h : Handle}
    (hl : h ∈ (run k ps w ops).live) (hu : ∀ ino, ¬ OwnedBy (run k ps w ops) h ino) :
    (h ∈ w.live ∧ ∀ ino, ¬ OwnedBy w h ino) ∨
      ∃ pre op post, ops = pre ++ op :: post ∧ OrphanCause k ps (run k ps w pre) op h := by
  induction ops generalizing w with
  | nil => exact .inl ⟨hl, hu⟩
  | cons op ops ih =>
    rcases ih (w := next k ps w op) hl hu with ⟨hl', hu'⟩ | ⟨pre, op', post, rfl, hc⟩
    · cases hpw : w.panicked
      · rw [next_of_not_panicked k ps hpw] at hl' hu'
        exact (orphan_origin_step k ps op hl' hu').imp_right fun hc => ⟨[], op, ops, rfl, hc⟩
      · rw [next, if_pos hpw] at hl' hu'
        exact .inl ⟨hl', hu'⟩
    · exact .inr ⟨op :: pre, op', post, rfl, hc⟩

/-- From a fresh tracer, every open handle that no inode owns was left so by one operation of the
run: it is a global probe of an `Init`, a handle of a `NewExecutable` that returned an error, or a
closable of an entry that a returning `NewExecutable` replaced. No other path leaks a handle. -/
theorem orphans_have_cause (o : Bool) (ops : List Op) {h : Handle}
    (hl : h ∈ (run k ps (World.initial o) ops).live)
    (hu : ∀ ino, ¬ OwnedBy (run k ps (World.initial o) ops) h ino) :
    ∃ pre op post, ops = pre ++ op :: post ∧
      OrphanCause k ps (run k ps (World.initial o) pre) op h :=
  (orphan_origin_run k ps ops hl hu).resolve_left fun ⟨h₀, _⟩ => Finset.not_mem_empty h h₀

end

theorem orphans_have_cause_failedWorld :
    2 ∈ (run returnProbeFails [plainGoTracer] (World.initial false)
        [.init, .run, .newExecutable newproc1Executable]).live ∧
      (∀ ino, ¬ OwnedBy (run returnProbeFails [plainGoTracer] (World.initial false)
        [.init, .run, .newExecutable newproc1Executable]) 2 ino) ∧
      ∃ pre op post, [Op.init, .run, .newExecutable newproc1Executable] = pre ++ op :: post ∧
        OrphanCause returnProbeFails [plainGoTracer]
          (run returnProbeFails [plainGoTracer] (World.initial false) pre) op 2 :=
  ⟨failedWorld_orphan.1, failedWorld_orphan.2,
    orphans_have_cause returnProbeFails [plainGoTracer] false _ failedWorld_orphan.1
      failedWorld_orphan.2⟩

end BeylaTracer
