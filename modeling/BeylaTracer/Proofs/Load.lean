import BeylaTracer.GoTracer
import BeylaTracer.ProcessTracer
import BeylaTracer.Proofs.Attach
import Mathlib.Data.List.Pairwise

/-!
# `loadTracers`

What one `Init` does, program after program. `Loads ps calls` relates the frame before a part of
`loadTracers` to the frame after it, `calls` being the `Load` calls the part makes: the map and the
open handles stay, every object assigned to a program is one its `Load` returned at an override
value that is still in force, and the flag values the `Load` calls read never go back from `true`
to `false`. The relation composes (`Loads.trans`), so each helper of `loadTracers` gets one spec
lemma and the loop one induction.

Each program is loaded once, or, when its `LoadAndAssign` fails on the missing
`bpf_probe_write_user` helper, a second time with the flag set (`ProgramLoads`). So a program is
never loaded twice with the flag unset, but one whose first `Load` already saw the flag set is
loaded twice with the flag set (`init_loads_twice_with_same_flag`).
-/

namespace BeylaTracer

theorem final_bind_ok {ε σ α β : Type} {x : EStateM ε σ α} {f : α → EStateM ε σ β} {s s' : σ}
    {a : α} (h : x s = .ok a s') : final (x >>= f) s = final (f a) s' := by
  simp only [final, bind_ok h]

theorem final_bind_error {ε σ α β : Type} {x : EStateM ε σ α} {f : α → EStateM ε σ β}
    {s s' : σ} {e : ε} (h : x s = .error e s') : final (x >>= f) s = s' := by
  simp only [final, bind_error h]

theorem final_bind_pure {ε σ α : Type} (x : EStateM ε σ α) (s : σ) :
    final (x >>= fun _ => pure ()) s = final x s := by
  cases h : x s with
  | ok a s' =>
    rw [final_bind_ok h]
    simp only [final, h]
    rfl
  | error e s' => rw [final_bind_error h, final, h]

/-! ## The calls into a program -/

theorem programCalls_append (idx : Nat) (e₁ e₂ : List Event) :
    programCalls idx (e₁ ++ e₂) = programCalls idx e₁ ++ programCalls idx e₂ :=
  List.filter_append _ _

theorem loadCalls_append (e₁ e₂ : List Event) :
    loadCalls (e₁ ++ e₂) = loadCalls e₁ ++ loadCalls e₂ :=
  List.filterMap_append _ _ _

theorem programCalls_nil (idx : Nat) : programCalls idx [] = [] := rfl

theorem programCalls_cons (idx : Nat) (e : Event) (evs : List Event) :
    programCalls idx (e :: evs) =
      if e.loading? = some idx then e :: programCalls idx evs else programCalls idx evs := by
  simp [programCalls, List.filter_cons]

/-- Events that load no program are calls into no program. -/
theorem programCalls_eq_nil {evs : List Event} (h : ∀ e ∈ evs, e.loading? = none) (idx : Nat) :
    programCalls idx evs = [] :=
  List.filter_eq_nil_iff.mpr fun e he => by simp [h e he]

theorem loadCalls_eq_nil {evs : List Event} (h : ∀ e ∈ evs, e.loading? = none) :
    loadCalls evs = [] :=
  List.filterMap_eq_nil_iff.mpr fun e he => by
    have := h e he
    cases e <;> first | rfl | cases this

/-- The `Load` calls of one program are among the `Load` calls of the trace. -/
theorem loadCalls_programCalls_sublist (idx : Nat) (evs : List Event) :
    (loadCalls (programCalls idx evs)).Sublist (loadCalls evs) :=
  (List.filter_sublist evs).filterMap _

/-- After a `Load` call of program `idx`, it is the last call into `idx`. -/
theorem load_last {t t' : List Event} {idx : Nat} {f : Bool} (h : t' = t ++ [.load idx f]) :
    [Event.load idx f] <:+ programCalls idx t' :=
  ⟨programCalls idx t, by rw [h, programCalls_append]; simp [programCalls, Event.loading?]⟩

/-! ## The relation -/

/-- What a part of `loadTracers` does to a frame, `evs` being what it adds to the trace. -/
structure Loads (ps : List Program) (evs : List Event) (s s' : Frame) : Prop where
  mono : Mono s s'
  instrumentables : s'.1.instrumentables = s.1.instrumentables
  live : s.1.live ⊆ s'.1.live
  /-- Loading neither sets the logger nor panics: its warning goes to a logger of its own. -/
  quiet : s'.1.logger = s.1.logger ∧ s'.1.panicked = s.1.panicked
  /-- An object assigned on the way came from the program's `Load` at a flag value still set,
  the call right before a `LoadAndAssign` of the program that succeeded. -/
  assigned : ∀ j, s'.1.assigned j = s.1.assigned j ∨ ∃ p f spec, ps[j]? = some p ∧
    s'.1.assigned j = some spec ∧ p.load f = .ok spec ∧
    (f = true → s'.1.integrityModeOverride = true) ∧
    [.load j f, .loadAndAssign j none] <:+: programCalls j s'.1.trace
  trace : s'.1.trace = s.1.trace ++ evs
  /-- The flag the `Load` calls read is never reset. -/
  sorted : (loadCalls evs).Pairwise fun a b => a.2 = true → b.2 = true
  bounded : ∀ c ∈ loadCalls evs, (s.1.integrityModeOverride = true → c.2 = true) ∧
    (c.2 = true → s'.1.integrityModeOverride = true)

section

variable {ps : List Program}

theorem Loads.trans {e₁ e₂ : List Event} {a b c : Frame} (h₁ : Loads ps e₁ a b)
    (h₂ : Loads ps e₂ b c) : Loads ps (e₁ ++ e₂) a c := by
  refine ⟨h₁.mono.trans h₂.mono, h₂.instrumentables.trans h₁.instrumentables,
    h₁.live.trans h₂.live, ⟨h₂.quiet.1.trans h₁.quiet.1, h₂.quiet.2.trans h₁.quiet.2⟩, fun j => ?_, by rw [h₂.trace, h₁.trace, List.append_assoc], ?_, ?_⟩
  · rcases h₂.assigned j with e₂ | h
    · rcases h₁.assigned j with e₁ | ⟨p, f, spec, hp, hj, hl, hf, hc⟩
      · exact .inl (e₂.trans e₁)
      · refine .inr ⟨p, f, spec, hp, e₂.trans hj, hl, h₂.mono.override ∘ hf, hc.trans ?_⟩
        rw [h₂.trace, programCalls_append]
        exact (List.prefix_append _ _).isInfix
    · exact .inr h
  · rw [loadCalls_append]
    exact List.pairwise_append.mpr ⟨h₁.sorted, h₂.sorted,
      fun x hx y hy hxy => (h₂.bounded y hy).1 ((h₁.bounded x hx).2 hxy)⟩
  · intro x hx
    rw [loadCalls_append] at hx
    rcases List.mem_append.mp hx with hx | hx
    · exact ⟨(h₁.bounded x hx).1, h₂.mono.override ∘ (h₁.bounded x hx).2⟩
    · exact ⟨(h₂.bounded x hx).1 ∘ h₁.mono.override, (h₂.bounded x hx).2⟩

/-- Changing only the instrumenter in scope. -/
theorem loads_scope (s : Frame) (i : Instrumenter) : Loads ps [] s (s.1, i) :=
  ⟨⟨le_rfl, fun _ hh => .inl hh, id, List.prefix_refl _⟩, rfl, subset_rfl, ⟨rfl, rfl⟩,
    fun _ => .inl rfl, (List.append_nil _).symm, List.Pairwise.nil, nofun⟩

/-- An attachment batch loads no program. -/
theorem Grows.loads {s s' : Frame} (h : Grows s s') :
    ∃ evs, Loads ps evs s s' ∧ ∀ e ∈ evs, e.loading? = none := by
  obtain ⟨hs, -, hl, -⟩ := h.opened
  obtain ⟨evs, he, hn⟩ := h.trace
  refine ⟨evs, ⟨h.mono, h.instrumentables, hl ▸ Finset.subset_union_left, h.quiet,
    fun j => .inl (congrFun h.assigned j), he, ?_, ?_⟩, hn⟩ <;> rw [loadCalls_eq_nil hn]
  · exact List.Pairwise.nil
  · exact nofun

theorem loads_setIntegrityModeOverride (s : Frame) :
    Loads ps [] s (final setIntegrityModeOverride s) :=
  ⟨setIntegrityModeOverride_mono s, rfl, subset_rfl, ⟨rfl, rfl⟩, fun _ => .inl rfl,
    (List.append_nil _).symm, List.Pairwise.nil, nofun⟩

/-- The `Load` call of `loadSpec`, and its kernel calls. -/
theorem loads_load (idx n : Nat) (s : Frame) :
    Loads ps [.load idx s.1.integrityModeOverride] s ({ s.1 with
      tick := s.1.tick + n
      trace := s.1.trace ++ [.load idx s.1.integrityModeOverride] }, s.2) :=
  ⟨⟨Nat.le_add_right _ _, fun _ hh => .inl hh, id, List.prefix_append _ _⟩, rfl, subset_rfl,
    ⟨rfl, rfl⟩, fun _ => .inl rfl, rfl, List.pairwise_singleton _ _,
    fun _ hc => by rw [List.mem_singleton.mp hc]; exact ⟨id, id⟩⟩

/-- `LoadAndAssign` of a spec that the program's last `Load` returned at the current flag,
assigning it when the kernel's answer `r` is no error. -/
theorem loads_assign {idx : Nat} {p : Program} {spec : CollectionSpec} (hp : ps[idx]? = some p)
    (s : Frame) (hspec : p.load s.1.integrityModeOverride = .ok spec)
    (hlast : [Event.load idx s.1.integrityModeOverride] <:+ programCalls idx s.1.trace)
    (r : Option String) :
    Loads ps [.loadAndAssign idx r] s ({ s.1 with
      tick := s.1.tick + 1
      assigned := if r.isNone then Function.update s.1.assigned idx (some spec) else s.1.assigned
      trace := s.1.trace ++ [.loadAndAssign idx r] }, s.2) := by
  refine ⟨⟨Nat.le_succ _, fun _ hh => .inl hh, id, List.prefix_append _ _⟩, rfl, subset_rfl,
    ⟨rfl, rfl⟩, fun j => ?_, rfl, List.Pairwise.nil, nofun⟩
  by_cases hj : r = none ∧ j = idx
  · obtain ⟨rfl, rfl⟩ := hj
    obtain ⟨pre, hpre⟩ := hlast
    refine .inr ⟨p, _, spec, hp, by simp, hspec, id, pre, [], ?_⟩
    rw [programCalls_append, ← hpre]
    simp [programCalls, Event.loading?]
  · refine .inl ?_
    cases r
    · exact Function.update_noteq (by simpa using hj) _ _
    · rfl

end

/-- The objects assigned to program `j` are left alone. -/
def KeepsAssigned (j : Nat) (s s' : Frame) : Prop :=
  s'.1.assigned j = s.1.assigned j

instance (j : Nat) : IsPreorder Frame (KeepsAssigned j) where
  refl _ := rfl
  trans _ _ _ h₁ h₂ := h₂.trans h₁

theorem Grows.keepsAssigned {j : Nat} {s s' : Frame} (h : Grows s s') : KeepsAssigned j s s' :=
  congrFun h.assigned j

/-! ## The calls into one program in one `Init` -/

/-- An error that names the missing `bpf_probe_write_user` helper. -/
def NamesMissingHelper (err : String) : Prop :=
  stringsContains err "unknown func bpf_probe_write_user" = true

instance : DecidablePred NamesMissingHelper := fun _ => inferInstanceAs (Decidable (_ = true))

/-- The calls into program `idx` after its first `Load`, when that `Load` and `RewriteConstants`
succeeded: `LoadAndAssign`, and when it failed on the missing helper, a second `Load` with the flag
set and, if that one succeeds too, a second `LoadAndAssign`. -/
def AssignCalls (idx : Nat) (calls : List Event) : Prop :=
  (∃ r, calls = [.loadAndAssign idx r] ∧ ∀ err, r = some err → ¬ NamesMissingHelper err) ∨
    ∃ err, NamesMissingHelper err ∧ (calls = [.loadAndAssign idx (some err), .load idx true] ∨
      ∃ r, calls = [.loadAndAssign idx (some err), .load idx true, .loadAndAssign idx r])

/-- The calls into program `idx` in one `Init`: none, its `Load` with the flag as it was alone
(when that `Load` or `RewriteConstants` failed), or that `Load` followed by `AssignCalls`. -/
def ProgramLoads (idx : Nat) (calls : List Event) : Prop :=
  calls = [] ∨ ∃ f, calls = [.load idx f] ∨ ∃ rest, calls = .load idx f :: rest ∧
    AssignCalls idx rest

section

variable (k : Kernel) (ps : List Program)

/-- `loadSpec` calls `Load` once, with the flag as it is, and returns what `Load` returned. -/
theorem loadSpec_spec (idx : Nat) (p : Program) (s : Frame) :
    ∃ r s', loadSpec k idx p s = .ok r s' ∧ Loads ps [.load idx s.1.integrityModeOverride] s s' ∧
      s'.1.integrityModeOverride = s.1.integrityModeOverride ∧
      ∀ spec, r = .ok spec → p.load s.1.integrityModeOverride = .ok spec := by
  unfold loadSpec
  rw [bind_ok (x := get) rfl, bind_ok (x := emit _) rfl]
  cases h : p.load s.1.integrityModeOverride with
  | error e => exact ⟨_, _, rfl, loads_load idx 0 s, rfl, nofun⟩
  | ok spec =>
    dsimp only
    rw [bind_ok (x := kernelCall k) rfl]
    cases k.answer s.1.tick with
    | some e => exact ⟨_, _, rfl, loads_load idx 1 s, rfl, nofun⟩
    | none => exact ⟨_, _, rfl, loads_load idx 1 s, rfl, fun _ h => by cases h; rfl⟩

/-- `loadSpec` when `Load` and `RewriteConstants` succeed. -/
theorem loadSpec_ok {idx : Nat} {p : Program} {spec : CollectionSpec} {s : Frame}
    (hspec : p.load s.1.integrityModeOverride = .ok spec) (hrw : k.answer s.1.tick = none) :
    loadSpec k idx p s = .ok (.ok spec) ({ s.1 with
      tick := s.1.tick + 1
      trace := s.1.trace ++ [.load idx s.1.integrityModeOverride] }, s.2) := by
  unfold loadSpec
  rw [bind_ok (x := get) rfl, bind_ok (x := emit _) rfl]
  simp only [hspec]
  rw [bind_ok (x := kernelCall k) rfl]
  simp only [hrw]
  rfl

theorem loadAndAssign_run (idx : Nat) (spec : CollectionSpec) (s : Frame) :
    loadAndAssign k idx spec s = .ok (k.answer s.1.tick) ({ s.1 with
      tick := s.1.tick + 1
      assigned := if (k.answer s.1.tick).isNone then Function.update s.1.assigned idx (some spec)
        else s.1.assigned
      trace := s.1.trace ++ [.loadAndAssign idx (k.answer s.1.tick)] }, s.2) := by
  unfold loadAndAssign
  rw [bind_ok (x := kernelCall k) rfl, bind_ok (x := emit _) rfl]
  cases k.answer s.1.tick <;> rfl

/-- The fallback: on the missing-helper error the program is loaded once more, with the flag set,
and assigned if that `Load` and its `RewriteConstants` succeed; on any other error it does
nothing. -/
theorem retryLoad_spec {idx : Nat} {p : Program} (hp : ps[idx]? = some p) (err : String)
    (s : Frame) : ∃ r s' evs, retryLoad k idx p err s = .ok r s' ∧ Loads ps evs s s' ∧
      (∀ j, j ≠ idx → programCalls j evs = []) ∧
      (NamesMissingHelper err → programCalls idx evs = [.load idx true] ∨
        ∃ r', programCalls idx evs = [.load idx true, .loadAndAssign idx r']) ∧
      (¬ NamesMissingHelper err → evs = []) := by
  unfold retryLoad
  by_cases hm : isMissingHelper err
  · rw [if_pos hm]
    obtain ⟨e₀, h₀, n₀⟩ := @Grows.loads ps _ _ (emit_grows (e := .log .warn missingHelperWarning) rfl s)
    have h₁ := h₀.trans (loads_setIntegrityModeOverride _)
    obtain ⟨r, s₂, hr, h₂, hf, hspec⟩ := loadSpec_spec k ps idx p
      (final setIntegrityModeOverride (final (emit (.log .warn missingHelperWarning)) s))
    -- the warning and the flag are calls into no program
    have n₀' := programCalls_eq_nil n₀
    have htrue : (final setIntegrityModeOverride
      (final (emit (.log .warn missingHelperWarning)) s)).1.integrityModeOverride = true := rfl
    cases r with
    | error e =>
      exact ⟨_, _, _, (bind_ok rfl).trans ((bind_ok rfl).trans (bind_ok hr)), h₁.trans h₂,
        fun j hj => by simp [programCalls_append, n₀', programCalls_cons, programCalls_nil, Event.loading?, htrue,
          Ne.symm hj],
        fun _ => .inl (by simp [programCalls_append, n₀', programCalls_cons, programCalls_nil, Event.loading?, htrue]),
        fun h => absurd hm h⟩
    | ok spec =>
      have h₃ := loads_assign hp s₂ (hf ▸ hspec spec rfl)
        (by rw [hf]; exact load_last h₂.trace) (k.answer s₂.1.tick)
      exact ⟨_, _, _, (bind_ok rfl).trans ((bind_ok rfl).trans ((bind_ok hr).trans
        (loadAndAssign_run k idx spec s₂))), (h₁.trans h₂).trans h₃,
        fun j hj => by simp [programCalls_append, n₀', programCalls_cons, programCalls_nil, Event.loading?, htrue,
          Ne.symm hj],
        fun _ => .inr ⟨k.answer s₂.1.tick,
          by simp [programCalls_append, n₀', programCalls_cons, programCalls_nil, Event.loading?, htrue]⟩,
        fun h => absurd hm h⟩
  · rw [if_neg hm]
    exact ⟨_, _, _, rfl, loads_scope s s.2, fun _ _ => rfl, fun h => absurd h hm, fun _ => rfl⟩

/-- `LoadAndAssign` and its fallback never throw: they make the calls of `AssignCalls`, the first
answered by the kernel's next answer. -/
theorem loadAndAssignOrRetry_spec {idx : Nat} {p : Program} {spec : CollectionSpec}
    (hp : ps[idx]? = some p) (s : Frame) (hspec : p.load s.1.integrityModeOverride = .ok spec)
    (hlast : [Event.load idx s.1.integrityModeOverride] <:+ programCalls idx s.1.trace) :
    ∃ r s' evs, loadAndAssignOrRetry k idx p spec s = .ok r s' ∧ Loads ps evs s s' ∧
      (∀ j, j ≠ idx → programCalls j evs = []) ∧ AssignCalls idx (programCalls idx evs) ∧
      (programCalls idx evs).head? = some (.loadAndAssign idx (k.answer s.1.tick)) := by
  have h₁ := loads_assign hp s hspec hlast (k.answer s.1.tick)
  unfold loadAndAssignOrRetry
  rw [bind_ok (loadAndAssign_run k idx spec s)]
  have other : ∀ j, j ≠ idx → programCalls j [.loadAndAssign idx (k.answer s.1.tick)] = [] :=
    fun j hj => by simp [programCalls, Event.loading?, Ne.symm hj]
  have mine : programCalls idx [.loadAndAssign idx (k.answer s.1.tick)] =
      [.loadAndAssign idx (k.answer s.1.tick)] := by simp [programCalls, Event.loading?]
  revert h₁ other mine
  cases k.answer s.1.tick with
  | none =>
    intro h₁ other mine
    exact ⟨_, _, _, rfl, h₁, other, .inl ⟨none, mine, nofun⟩, by rw [mine]; rfl⟩
  | some err =>
    intro h₁ other mine
    obtain ⟨r, s₂, evs, hr₂, h₂, o₂, hmiss, hnot⟩ := retryLoad_spec k ps hp err _
    refine ⟨r, s₂, [.loadAndAssign idx (some err)] ++ evs, hr₂, h₁.trans h₂, fun j hj => by
      rw [programCalls_append, other j hj, o₂ j hj]; rfl, ?_, by rw [programCalls_append, mine]; rfl⟩
    rw [programCalls_append, mine]
    by_cases hm : NamesMissingHelper err
    · rcases hmiss hm with e | ⟨r', e⟩ <;> rw [e]
      · exact .inr ⟨err, hm, .inl rfl⟩
      · exact .inr ⟨err, hm, .inr ⟨r', rfl⟩⟩
    · rw [hnot hm]
      exact .inl ⟨some err, rfl, fun _ e => by cases e; exact hm⟩

/-- What follows a successful `LoadAndAssign` is an attachment batch. -/
theorem loadProgram_tail_grows (idx : Nat) (p : Program) :
    Stays Grows (do
      emit (.setupTailCalls idx)
      emit (.setupTC idx)
      kprobes k p
      tracepoints k p
      sockfilters k p : TracerM Unit) :=
  (emit_grows (e := .setupTailCalls idx) rfl).bind fun _ =>
    (emit_grows (e := .setupTC idx) rfl).bind fun _ => (kprobes_grows k p).bind fun _ =>
    (tracepoints_grows k p).bind fun _ => sockfilters_grows k p

/-- One iteration of `loadTracers` makes the calls of `ProgramLoads` into its own program and no
call into any other. -/
theorem loadProgram_spec {idx : Nat} {p : Program} (hp : ps[idx]? = some p) (s : Frame) :
    ∃ evs, Loads ps evs s (final (loadProgram k idx p) s) ∧
      (∀ j, j ≠ idx → programCalls j evs = []) ∧ ProgramLoads idx (programCalls idx evs) := by
  obtain ⟨r, s₁, hr, h₁, hf, hspec⟩ := loadSpec_spec k ps idx p s
  have other : ∀ j, j ≠ idx → programCalls j [.load idx s.1.integrityModeOverride] = [] :=
    fun j hj => by simp [programCalls, Event.loading?, Ne.symm hj]
  have mine : programCalls idx [.load idx s.1.integrityModeOverride] =
      [.load idx s.1.integrityModeOverride] := by simp [programCalls, Event.loading?]
  unfold loadProgram
  rw [final_bind_ok hr]
  cases r with
  | error e => exact ⟨_, h₁, other, .inr ⟨_, .inl mine⟩⟩
  | ok spec =>
    obtain ⟨r, s₂, evs, hr₂, h₂, o₂, ha₂, -⟩ :=
      loadAndAssignOrRetry_spec k ps hp s₁ (hf ▸ hspec spec rfl) (hf ▸ load_last h₁.trace)
    have o₁₂ : ∀ j, j ≠ idx → programCalls j ([.load idx s.1.integrityModeOverride] ++ evs) = [] :=
      fun j hj => by rw [programCalls_append, other j hj, o₂ j hj]; rfl
    have m₁₂ : programCalls idx ([.load idx s.1.integrityModeOverride] ++ evs) =
        .load idx s.1.integrityModeOverride :: programCalls idx evs := by
      rw [programCalls_append, mine]; rfl
    dsimp only
    rw [final_bind_ok hr₂]
    cases r with
    | some err => exact ⟨_, h₁.trans h₂, o₁₂, .inr ⟨_, .inr ⟨_, m₁₂, ha₂⟩⟩⟩
    | none =>
      obtain ⟨e₃, h₃, n₃⟩ := @Grows.loads ps _ _ ((loadProgram_tail_grows k idx p) s₂)
      refine ⟨_, (h₁.trans h₂).trans h₃, fun j hj => ?_,
        .inr ⟨s.1.integrityModeOverride, .inr ⟨_, ?_, ha₂⟩⟩⟩
      · rw [programCalls_append, o₁₂ j hj, programCalls_eq_nil n₃]; rfl
      · rw [programCalls_append, m₁₂, programCalls_eq_nil n₃, List.append_nil]

/-- When the first `LoadAndAssign` of a program fails on the missing helper, the program is
loaded a second time, with the flag set, whatever follows. -/
theorem loadProgram_retries {idx : Nat} {p : Program} {spec : CollectionSpec} {err : String}
    (hp : ps[idx]? = some p) (s : Frame) (hspec : p.load s.1.integrityModeOverride = .ok spec)
    (hrw : k.answer s.1.tick = none) (hla : k.answer (s.1.tick + 1) = some err)
    (herr : NamesMissingHelper err) :
    ∃ evs, Loads ps evs s (final (loadProgram k idx p) s) ∧
      ∃ rest, programCalls idx evs = .load idx s.1.integrityModeOverride ::
        .loadAndAssign idx (some err) :: .load idx true :: rest := by
  let s₁ : Frame := ({ s.1 with
    tick := s.1.tick + 1
    trace := s.1.trace ++ [.load idx s.1.integrityModeOverride] }, s.2)
  obtain ⟨r, s₂, evs, hr₂, h₂, -, ha₂, hhead⟩ :=
    loadAndAssignOrRetry_spec k ps hp s₁ hspec (load_last rfl)
  have h₁ := (loads_load idx 1 s).trans h₂
  -- the first `LoadAndAssign` failed on the missing helper, so the fallback loaded again
  obtain ⟨rest, hrest⟩ : ∃ rest, programCalls idx evs =
      .loadAndAssign idx (some err) :: .load idx true :: rest := by
    rw [show s₁.1.tick = s.1.tick + 1 from rfl, hla] at hhead
    rcases ha₂ with ⟨r', e, hr'⟩ | ⟨err', -, e | ⟨r', e⟩⟩ <;> rw [e] at hhead ⊢ <;>
      simp only [List.head?_cons, Option.some.injEq, Event.loadAndAssign.injEq, true_and] at hhead
    · exact absurd herr (hr' err hhead)
    · exact ⟨[], by rw [hhead]⟩
    · exact ⟨[.loadAndAssign idx r'], by rw [hhead]⟩
  have hcalls : programCalls idx ([.load idx s.1.integrityModeOverride] ++ evs) =
      .load idx s.1.integrityModeOverride :: .loadAndAssign idx (some err) :: .load idx true ::
        rest := by
    rw [programCalls_append, hrest]; simp [programCalls, Event.loading?]
  unfold loadProgram
  rw [final_bind_ok (loadSpec_ok k hspec hrw)]
  dsimp only
  rw [final_bind_ok hr₂]
  cases r with
  | some err' => exact ⟨_, h₁, rest, hcalls⟩
  | none =>
    obtain ⟨e₃, h₃, n₃⟩ := @Grows.loads ps _ _ ((loadProgram_tail_grows k idx p) s₂)
    exact ⟨_, h₁.trans h₃, rest, by rw [programCalls_append, hcalls, programCalls_eq_nil n₃,
      List.append_nil]⟩

/-! ## Any preorder the steps of an iteration keep -/

/-- The assignment of `LoadAndAssign`'s objects to program `idx`. -/
abbrev assignObjects (idx : Nat) (spec : CollectionSpec) : TracerM Unit :=
  modify fun s : Frame => ({ s.1 with assigned := Function.update s.1.assigned idx (some spec) }, s.2)

section Generic

variable {R : Frame → Frame → Prop} [IsPreorder Frame R] (hcall : Stays R (kernelCall k))
include hcall

theorem loadSpec_stays (hemit : ∀ e : Event, e.closed? = none → Stays R (emit e)) (idx : Nat)
    (p : Program) : Stays R (loadSpec k idx p) :=
  stays_get.bind fun _ => (hemit _ (by rfl)).bind fun _ => by
    split
    · exact stays_pure _
    · exact hcall.bind fun r => by split <;> exact stays_pure _

theorem loadAndAssign_stays (hemit : ∀ e : Event, e.closed? = none → Stays R (emit e))
    {idx : Nat} (hassign : ∀ spec, Stays R (assignObjects idx spec)) (spec : CollectionSpec) :
    Stays R (loadAndAssign k idx spec) :=
  hcall.bind fun _ => (hemit _ (by rfl)).bind fun _ =>
    (Stays.ite (hassign spec) (stays_pure _)).bind fun _ => stays_pure _

theorem loadAndAssignOrRetry_stays (hemit : ∀ e : Event, e.closed? = none → Stays R (emit e))
    (hset : Stays R setIntegrityModeOverride) {idx : Nat}
    (hassign : ∀ spec, Stays R (assignObjects idx spec)) (p : Program) (spec : CollectionSpec) :
    Stays R (loadAndAssignOrRetry k idx p spec) :=
  (loadAndAssign_stays k hcall hemit hassign spec).bind fun r => by
    split
    · exact stays_pure _
    · exact Stays.ite ((hemit _ (by rfl)).bind fun _ => hset.bind fun _ =>
        (loadSpec_stays k hcall hemit idx p).bind fun r => by
          split
          · exact loadAndAssign_stays k hcall hemit hassign _
          · exact stays_pure _) (stays_pure _)

/-- One iteration of `loadTracers`. -/
theorem loadProgram_stays (hemit : ∀ e : Event, e.closed? = none → Stays R (emit e))
    (hset : Stays R setIntegrityModeOverride) {idx : Nat}
    (hassign : ∀ spec, Stays R (assignObjects idx spec)) (hattach : Stays R (attach k))
    (p : Program) : Stays R (loadProgram k idx p) :=
  (loadSpec_stays k hcall hemit idx p).bind fun r => by
    split
    · exact stays_throw _
    · exact (loadAndAssignOrRetry_stays k hcall hemit hset hassign p _).bind fun r => by
        split
        · exact stays_throw _
        · exact (hemit _ (by rfl)).bind fun _ => (hemit _ (by rfl)).bind fun _ =>
            (kprobes_stays k hattach p).bind fun _ => (tracepoints_stays k hattach p).bind
              fun _ => sockfilters_stays k hattach hcall p

/-- `loadTracers`, the dummy instrumenter first. -/
theorem loadTracers_stays (hemit : ∀ e : Event, e.closed? = none → Stays R (emit e))
    (hset : Stays R setIntegrityModeOverride)
    (hassign : ∀ idx spec, Stays R (assignObjects idx spec)) (hattach : Stays R (attach k))
    (hscope : Stays R (modify fun s : Frame => (s.1, {}) : TracerM Unit)) :
    Stays R (loadTracers k ps) :=
  hscope.bind fun _ => Stays.forM fun _ _ =>
    loadProgram_stays k hcall hemit hset (hassign _) hattach _

end Generic

/-- An iteration of `loadTracers` assigns the objects of its own program only. -/
theorem loadProgram_keepsAssigned {j idx : Nat} (hne : j ≠ idx) (p : Program) :
    Stays (KeepsAssigned j) (loadProgram k idx p) :=
  loadProgram_stays (R := KeepsAssigned j) k (fun _ => rfl) (fun _ _ _ => rfl) (fun _ => rfl)
    (fun _ => stays_modify fun _ => by exact Function.update_noteq hne _ _)
    ((attach_grows k).imp fun _ _ => Grows.keepsAssigned) p

/-- The loop of `loadTracers` from position `n` on: it calls no program before `n`, and each
program's calls are those of one iteration. -/
theorem loadProgram_loop (l : List Program) (n : Nat)
    (hl : ∀ e ∈ l.enumFrom n, ps[e.1]? = some e.2) (s : Frame) :
    ∃ evs, Loads ps evs s (final ((l.enumFrom n).forM fun e => loadProgram k e.1 e.2) s) ∧
      (∀ j, j < n → programCalls j evs = []) ∧ ∀ idx, ProgramLoads idx (programCalls idx evs) := by
  induction l generalizing n s with
  | nil => exact ⟨[], loads_scope s s.2, fun _ _ => rfl, fun _ => .inl rfl⟩
  | cons p l ih =>
    obtain ⟨e₁, h₁, o₁, m₁⟩ := loadProgram_spec k ps (hl _ (List.mem_cons_self _ _)) s
    rw [List.enumFrom_cons, List.forM_cons']
    cases h : loadProgram k n p s with
    | error e s₁ =>
      rw [final_bind_error h]
      rw [final, h] at h₁
      refine ⟨e₁, h₁, fun j hj => o₁ j (Nat.ne_of_lt hj), fun idx => ?_⟩
      by_cases hi : idx = n
      · exact hi ▸ m₁
      · exact .inl (o₁ idx hi)
    | ok _ s₁ =>
      rw [final_bind_ok h]
      rw [final, h] at h₁
      obtain ⟨e₂, h₂, o₂, m₂⟩ := ih (n + 1) (fun e he => hl e (List.mem_cons_of_mem _ he)) s₁
      refine ⟨e₁ ++ e₂, h₁.trans h₂, fun j hj => ?_, fun idx => ?_⟩
      · rw [programCalls_append, o₁ j (Nat.ne_of_lt hj), o₂ j (Nat.lt_succ_of_lt hj)]; rfl
      · rw [programCalls_append]
        by_cases hi : idx = n
        · rw [o₂ idx (hi ▸ Nat.lt_succ_self n), List.append_nil]
          exact hi ▸ m₁
        · rw [o₁ idx hi, List.nil_append]
          exact m₂ idx

/-- `loadTracers`: every program is loaded as one iteration loads it. -/
theorem loadTracers_spec (s : Frame) :
    ∃ evs, Loads ps evs s (final (loadTracers k ps) s) ∧
      ∀ idx, ProgramLoads idx (programCalls idx evs) := by
  unfold loadTracers
  rw [final_bind_ok (x := modify _) rfl]
  obtain ⟨evs, h, -, hL⟩ := loadProgram_loop k ps ps 0
    (fun _ he => List.mem_enum_iff_getElem?.mp he) (s.1, {})
  exact ⟨evs, (loads_scope s {}).trans h, hL⟩

end

section

variable (k : Kernel) (ps : List Program)

/-- One `Init`, from any world: the override flag is never reset, and every program's calls are
those of `ProgramLoads`, so it is loaded at most twice and at most once with the flag unset, the
second time only after its `LoadAndAssign` failed on the missing helper. -/
theorem init_loads_once_unset (w : World) :
    (w.integrityModeOverride = true → (step k ps w .init).integrityModeOverride = true) ∧
    ∃ evs, (step k ps w .init).trace = w.trace ++ evs ∧
      (loadCalls evs).Pairwise (fun a b => a.2 = true → b.2 = true) ∧
      (∀ c ∈ loadCalls evs, (w.integrityModeOverride = true → c.2 = true) ∧
        (c.2 = true → (step k ps w .init).integrityModeOverride = true)) ∧
      ∀ idx, ProgramLoads idx (programCalls idx evs) := by
  obtain ⟨evs, h, hL⟩ := loadTracers_spec k ps (w, {})
  exact ⟨h.mono.override, evs, h.trace, h.sorted, h.bounded, hL⟩

/-- `Init` over a single program is one iteration of its loop. -/
theorem step_init_singleton (p : Program) (w : World) :
    step k [p] w .init = (final (loadProgram k 0 p) (w, {})).1 := by
  unfold step Op.call loadTracers
  rw [final_bind_ok (x := modify _) rfl]
  exact congrArg Prod.fst (final_bind_pure (loadProgram k 0 p) (w, {}))

/-- `Init` over two programs, the first of which loads and attaches without an error. -/
theorem step_init_pair {p₀ p₁ : Program} {w : World} {s₁ : Frame}
    (h₀ : loadProgram k 0 p₀ (w, {}) = .ok () s₁) :
    step k [p₀, p₁] w .init = (final (loadProgram k 1 p₁) s₁).1 := by
  unfold step Op.call loadTracers
  rw [final_bind_ok (x := modify _) rfl]
  show (final (loadProgram k 0 p₀ >>= fun _ => loadProgram k 1 p₁ >>= fun _ => pure ()) _).1 = _
  rw [final_bind_ok h₀, final_bind_pure]

end

/-- A kernel whose only failing call is the first `LoadAndAssign`, on the missing helper. -/
def missingHelperKernel : Kernel :=
  ⟨fun n => if n = 1 then some "unknown func bpf_probe_write_user" else none, fun _ => true,
    fun _ _ => none⟩

/-- With the flag already set, a Go tracer whose `LoadAndAssign` fails on the missing helper is
loaded twice with the same flag value. -/
theorem init_loads_twice_with_same_flag :
    ¬ ∀ (k : Kernel) (ps : List Program) (w : World), ∃ evs,
      (step k ps w .init).trace = w.trace ++ evs ∧ (loadCalls evs).Nodup := by
  intro h
  let g := goTracer ⟨false, 0⟩ (fun _ => none) true
  obtain ⟨evs, htr, hnd⟩ := h missingHelperKernel [g] (World.initial true)
  obtain ⟨evs', h', rest, hc⟩ := loadProgram_retries missingHelperKernel [g]
    (show [g][0]? = some g from rfl) (World.initial true, {}) rfl rfl rfl (by decide)
  rw [step_init_singleton, h'.trace] at htr
  rw [← List.append_cancel_left htr] at hnd
  have hsub := loadCalls_programCalls_sublist 0 evs'
  rw [hc] at hsub
  exact absurd (hnd.sublist hsub) (by simp [loadCalls, Event.loadCall?, World.initial])

end BeylaTracer
