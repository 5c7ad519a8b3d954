import BeylaTracer.Proofs.Ownership

/-!
# When `Init` returns

`loadTracers` returns an error only when a `Load`, a `RewriteConstants`, a `LoadAndAssign` or an
attachment fails. On a kernel that accepts every call, and with programs whose `Load` succeeds at
the flag as it is, `Init` returns: every program is loaded exactly once, in the order of
`Programs`, with the flag as it was; the missing-helper fallback never runs, so the flag is left
as it was; and every program is assigned the object its `Load` returned
(`init_succeeds_granted`).

Conversely, whatever the kernel answers, an `Init` that returns has left every program with the
object that its last `Load` returned, and the last two calls into the program are that `Load` and a
`LoadAndAssign` that succeeded, so a program the fallback reloaded holds the objects of the reload
(`init_succeeds_assigns_all`): an iteration returns only after a `LoadAndAssign` succeeded, and
the later iterations make no call into it, assign other programs' objects and only ever set the
flag.
-/

namespace BeylaTracer

theorem emit_returns (e : Event) : Returns (emit e) := fun _ => ⟨(), _, rfl⟩

section

variable (k : Kernel) (hk : ∀ n, k.answer n = none)
include hk

theorem attach_returns : Returns (attach k) := fun s => ⟨(), _, by unfold attach; rw [hk]⟩

theorem probe_returns (fp : FunctionPrograms) : Returns (probe k fp) :=
  (Returns.ite (attach_returns k hk) (returns_pure _)).bind fun _ =>
    Returns.ite (attach_returns k hk) (returns_pure _)

theorem kprobes_returns (p : Program) : Returns (kprobes k p) :=
  Returns.forM fun e _ => Returns.ite (probe_returns k hk e.2) (returns_pure _)

theorem tracepoints_returns (p : Program) : Returns (tracepoints k p) :=
  Returns.forM fun e _ => Returns.ite (probe_returns k hk e.2) (returns_pure _)

theorem sockfilters_returns (p : Program) : Returns (sockfilters k p) :=
  Returns.forM fun _ _ => (attach_returns k hk).bind fun _ s =>
    ⟨(), _, by rw [bind_ok (x := kernelCall k) rfl, hk]; rfl⟩

/-- One iteration of `loadTracers`, when the program's `Load` returns `spec`: it returns, loads the
program once with the flag as it is, leaves the flag, and assigns `spec` to the program. -/
theorem loadProgram_granted {ps : List Program} {idx : Nat} {p : Program} {spec : CollectionSpec}
    (hp : ps[idx]? = some p) (s : Frame) (hspec : p.load s.1.integrityModeOverride = .ok spec) :
    ∃ s', loadProgram k idx p s = .ok () s' ∧
      (∃ evs, Loads ps evs s s' ∧ loadCalls evs = [(idx, s.1.integrityModeOverride)]) ∧
      s'.1.integrityModeOverride = s.1.integrityModeOverride ∧ s'.1.assigned idx = some spec := by
  -- the frames after `Load` and `RewriteConstants`, and after `LoadAndAssign`
  let s₁ : Frame := ({ s.1 with
    tick := s.1.tick + 1
    trace := s.1.trace ++ [.load idx s.1.integrityModeOverride] }, s.2)
  let s₂ : Frame := ({ s₁.1 with
    tick := s₁.1.tick + 1
    assigned := Function.update s₁.1.assigned idx (some spec)
    trace := s₁.1.trace ++ [.loadAndAssign idx none] }, s₁.2)
  have h₁ : loadSpec k idx p s = .ok (.ok spec) s₁ := loadSpec_ok k hspec (hk _)
  have h₂ : loadAndAssignOrRetry k idx p spec s₁ = .ok none s₂ := by
    unfold loadAndAssignOrRetry
    rw [bind_ok (loadAndAssign_run k idx spec s₁), hk]
    rfl
  have htail : Returns (do
      emit (.setupTailCalls idx)
      emit (.setupTC idx)
      kprobes k p
      tracepoints k p
      sockfilters k p : TracerM Unit) :=
    (emit_returns _).bind fun _ => (emit_returns _).bind fun _ =>
      (kprobes_returns k hk p).bind fun _ => (tracepoints_returns k hk p).bind fun _ =>
      sockfilters_returns k hk p
  obtain ⟨_, s', h₃⟩ := htail s₂
  have hg := (loadProgram_tail_grows k idx p).of_ok h₃
  obtain ⟨e₃, L₃, n₃⟩ := @Grows.loads ps _ _ hg
  have hl := ((loads_load idx 1 s).trans
    (loads_assign hp s₁ hspec (load_last rfl) none)).trans L₃
  refine ⟨s', ?_, ⟨_, hl, by rw [loadCalls_append, loadCalls_eq_nil n₃, List.append_nil]; rfl⟩,
    hg.override, by rw [hg.assigned]; exact Function.update_same _ _ _⟩
  unfold loadProgram
  rw [bind_ok h₁]
  dsimp only
  rw [bind_ok h₂]
  exact h₃

/-- The loop of `loadTracers` from position `n` on, when every program's `Load` succeeds. -/
theorem loadProgram_loop_granted {ps : List Program} (l : List Program) (n : Nat)
    (hl : ∀ e ∈ l.enumFrom n, ps[e.1]? = some e.2) (s : Frame)
    (hload : ∀ p ∈ l, ∃ spec, p.load s.1.integrityModeOverride = .ok spec) :
    ∃ s', ((l.enumFrom n).forM fun e => loadProgram k e.1 e.2) s = .ok () s' ∧
      (∃ evs, Loads ps evs s s' ∧
        loadCalls evs = (l.enumFrom n).map fun e => (e.1, s.1.integrityModeOverride)) ∧
      s'.1.integrityModeOverride = s.1.integrityModeOverride ∧
      ∀ e ∈ l.enumFrom n, ∀ spec, e.2.load s.1.integrityModeOverride = .ok spec →
        s'.1.assigned e.1 = some spec := by
  induction l generalizing n s with
  | nil => exact ⟨s, rfl, ⟨[], loads_scope s s.2, rfl⟩, rfl, nofun⟩
  | cons p l ih =>
    obtain ⟨spec, hspec⟩ := hload p (List.mem_cons_self _ _)
    rw [List.enumFrom_cons] at hl ⊢
    obtain ⟨s₁, h₁, ⟨e₁, L₁, c₁⟩, f₁, a₁⟩ :=
      loadProgram_granted k hk (hl _ (List.mem_cons_self _ _)) s hspec
    obtain ⟨s', h', ⟨e', L', c'⟩, f', a'⟩ := ih (n + 1)
      (fun e he => hl e (List.mem_cons_of_mem _ he)) s₁
      fun q hq => f₁ ▸ hload q (List.mem_cons_of_mem _ hq)
    -- the later iterations load other programs, so they keep the object of program `n`
    have keep : KeepsAssigned n s₁ s' := (Stays.forM fun e he => loadProgram_keepsAssigned k
      (Nat.ne_of_lt (List.mem_enumFrom (x := e.2) (i := e.1) he).1) e.2).of_ok h'
    rw [f₁] at c' a'
    refine ⟨s', by rw [List.forM_cons', bind_ok h₁, h'], ⟨e₁ ++ e', L₁.trans L',
      by rw [loadCalls_append, c₁, c']; rfl⟩, f'.trans f₁, ?_⟩
    intro e he spec' hspec'
    rcases List.mem_cons.mp he with rfl | he
    · rw [keep, a₁, Except.ok.inj (hspec.symm.trans hspec')]
    · exact a' e he spec' hspec'

end

/-- On a kernel that accepts every call, and when every program's `Load` succeeds at the flag as
it is, `Init` returns no error; it calls `Load` once per program, in the order of `Programs`, with
the flag as it was, which it leaves unchanged; and it assigns every program the object its `Load`
returned. -/
theorem init_succeeds_granted (k : Kernel) (hk : ∀ n, k.answer n = none) (ps : List Program)
    (w : World) (hload : ∀ p ∈ ps, ∃ spec, p.load w.integrityModeOverride = .ok spec) :
    succeeds k ps w .init = true ∧
      (step k ps w .init).integrityModeOverride = w.integrityModeOverride ∧
      (∃ evs, (step k ps w .init).trace = w.trace ++ evs ∧
        loadCalls evs = ps.enum.map fun e => (e.1, w.integrityModeOverride)) ∧
      ∀ j p spec, ps[j]? = some p → p.load w.integrityModeOverride = .ok spec →
        (step k ps w .init).assigned j = some spec := by
  obtain ⟨s', h, ⟨evs, L, hc⟩, f, a⟩ := loadProgram_loop_granted k hk ps 0
    (fun _ he => List.mem_enum_iff_getElem?.mp he) (w, {}) hload
  have hrun : loadTracers k ps (w, {}) = .ok () s' := by
    unfold loadTracers
    rw [bind_ok (x := modify _) rfl]
    exact h
  have hstep : step k ps w .init = s'.1 := by simp only [step, Op.call, final, hrun]
  refine ⟨by simp only [succeeds, Op.call, hrun], hstep ▸ f, ⟨evs, hstep ▸ L.trace, hc⟩,
    fun j p spec hj hs => hstep ▸ a (j, p) (List.mem_enum_iff_getElem?.mpr hj) spec hs⟩

theorem init_succeeds_granted_twoGoTracers :
    (∀ n, Kernel.granting.answer n = none) ∧
      (∀ p ∈ [plainGoTracer, plainGoTracer],
        ∃ spec, p.load (World.initial false).integrityModeOverride = .ok spec) ∧
      succeeds Kernel.granting [plainGoTracer, plainGoTracer] (World.initial false) .init = true ∧
      ∃ evs, (step Kernel.granting [plainGoTracer, plainGoTracer] (World.initial false)
          .init).trace = (World.initial false).trace ++ evs ∧
        loadCalls evs = [(0, false), (1, false)] :=
  have hk : ∀ n, Kernel.granting.answer n = none := fun _ => rfl
  have hload : ∀ p ∈ [plainGoTracer, plainGoTracer],
      ∃ spec, p.load (World.initial false).integrityModeOverride = .ok spec := fun p hp =>
    ⟨"bpf_tp", by rcases List.mem_cons.mp hp with rfl | hp <;>
      [rfl; (rw [List.mem_singleton.mp hp]; rfl)]⟩
  let ⟨hs, _, hevs, _⟩ := init_succeeds_granted Kernel.granting hk [plainGoTracer, plainGoTracer] _ hload
  ⟨hk, hload, hs, hevs⟩

/-! ## What an `Init` that returns guarantees -/

/-- Program `p`, at position `j` of `Programs`, holds the object that a `Load` of it returned, at an
override value that is still set, and the last two calls into it are that `Load` and a
`LoadAndAssign` that succeeded. -/
def LastLoadAssigned (p : Program) (j : Nat) (w : World) : Prop :=
  ∃ spec f, w.assigned j = some spec ∧ p.load f = .ok spec ∧
    (f = true → w.integrityModeOverride = true) ∧
    [.load j f, .loadAndAssign j none] <:+ programCalls j w.trace

/-- Calls into other programs keep what program `j` holds. -/
theorem LastLoadAssigned.keep {p : Program} {j : Nat} {w w' : World} (h : LastLoadAssigned p j w)
    (ha : w'.assigned j = w.assigned j)
    (ho : w.integrityModeOverride = true → w'.integrityModeOverride = true) {evs : List Event}
    (ht : w'.trace = w.trace ++ evs) (hc : programCalls j evs = []) : LastLoadAssigned p j w' :=
  let ⟨spec, f, hs, hl, hf, hsuf⟩ := h
  ⟨spec, f, ha.trans hs, hl, ho ∘ hf, by rw [ht, programCalls_append, hc, List.append_nil]; exact hsuf⟩

/-- A `Load` of program `j` at flag `f` that returned `spec`, followed right away by a
`LoadAndAssign` of `j` that succeeded, leaves `j` holding `spec`. -/
theorem lastLoadAssigned_pair {p : Program} {j : Nat} {spec : CollectionSpec} {f : Bool}
    {w : World} (t : List Event) (hl : p.load f = .ok spec) (hs : w.assigned j = some spec)
    (hf : f = true → w.integrityModeOverride = true)
    (ht : w.trace = t ++ [.load j f] ++ [.loadAndAssign j none]) : LastLoadAssigned p j w :=
  ⟨spec, f, hs, hl, hf, programCalls j t, by
    simp [ht, programCalls_append, programCalls, Event.loading?]⟩

section

variable (k : Kernel)

/-- A `loadSpec` that returns a spec read it from `Load` at the flag as it is, left the flag, and
added that `Load` call to the trace. -/
theorem loadSpec_ok_inv {idx : Nat} {p : Program} {spec : CollectionSpec} {s s' : Frame}
    (h : loadSpec k idx p s = .ok (.ok spec) s') :
    p.load s.1.integrityModeOverride = .ok spec ∧
      s'.1.integrityModeOverride = s.1.integrityModeOverride ∧
      s'.1.trace = s.1.trace ++ [.load idx s.1.integrityModeOverride] := by
  -- the list of programs only matters to the `Load` calls, which are not read here
  obtain ⟨r, s'', hr, hL, hf, hspec⟩ := loadSpec_spec k [] idx p s
  rw [hr] at h
  injection h with hr' hs
  subst hr' hs
  exact ⟨hspec spec rfl, hf, hL.trace⟩

/-- A `LoadAndAssign` that succeeds assigns its spec, leaves the flag, and adds its call to the
trace. -/
theorem loadAndAssign_none {idx : Nat} {spec : CollectionSpec} {s s' : Frame}
    (h : loadAndAssign k idx spec s = .ok none s') :
    s'.1.assigned idx = some spec ∧ s'.1.integrityModeOverride = s.1.integrityModeOverride ∧
      s'.1.trace = s.1.trace ++ [.loadAndAssign idx none] := by
  rw [loadAndAssign_run] at h
  injection h with hr hs
  subst hs
  simp [hr]

/-- A fallback that ends without an error loaded the program again, with the flag set, and
assigned what that `Load` returned. -/
theorem retryLoad_none {idx : Nat} {p : Program} {err : String} {s s' : Frame}
    (h : retryLoad k idx p err s = .ok none s') : LastLoadAssigned p idx s'.1 := by
  unfold retryLoad at h
  split at h
  · obtain ⟨⟨⟩, s₁, -, h⟩ := bind_eq_ok h
    obtain ⟨⟨⟩, s₂, h₂, h⟩ := bind_eq_ok h
    obtain ⟨r, s₃, h₃, h⟩ := bind_eq_ok h
    cases h₂
    cases r with
    | error e => cases h
    | ok spec =>
      obtain ⟨hl, hf₃, ht₃⟩ := loadSpec_ok_inv k h₃
      obtain ⟨ha, hf, ht⟩ := loadAndAssign_none k h
      exact lastLoadAssigned_pair _ hl ha (fun _ => hf.trans hf₃) (by rw [ht, ht₃])
  · cases h

/-- `LoadAndAssign` and its fallback, right after a `Load` at the flag as it is that returned
`spec`: when they end without an error, the program holds the objects of the last `Load`. -/
theorem loadAndAssignOrRetry_none {idx : Nat} {p : Program} {spec : CollectionSpec} {s s' : Frame}
    (t : List Event) (hspec : p.load s.1.integrityModeOverride = .ok spec)
    (ht : s.1.trace = t ++ [.load idx s.1.integrityModeOverride])
    (h : loadAndAssignOrRetry k idx p spec s = .ok none s') : LastLoadAssigned p idx s'.1 := by
  unfold loadAndAssignOrRetry at h
  obtain ⟨r, s₁, h₁, h⟩ := bind_eq_ok h
  cases r with
  | none =>
    cases h
    obtain ⟨ha, hf, ht₁⟩ := loadAndAssign_none k h₁
    exact lastLoadAssigned_pair t hspec ha hf.trans (by rw [ht₁, ht])
  | some err => exact retryLoad_none k h

/-- An iteration of `loadTracers` that returns leaves its program holding the objects of its last
`Load`. -/
theorem loadProgram_ok {idx : Nat} {p : Program} {s s' : Frame}
    (h : loadProgram k idx p s = .ok () s') : LastLoadAssigned p idx s'.1 := by
  unfold loadProgram at h
  obtain ⟨r, s₁, h₁, h⟩ := bind_eq_ok h
  cases r with
  | error e => cases h
  | ok spec =>
    obtain ⟨r, s₂, h₂, h⟩ := bind_eq_ok h
    cases r with
    | some err => cases h
    | none =>
      obtain ⟨hl, hf, ht⟩ := loadSpec_ok_inv k h₁
      have hg := (loadProgram_tail_grows k idx p).of_ok h
      obtain ⟨evs, he, hn⟩ := hg.trace
      exact (loadAndAssignOrRetry_none k s.1.trace (by rw [hf]; exact hl) (by rw [ht, hf]) h₂).keep
        (congrFun hg.assigned idx) hg.override.trans he (programCalls_eq_nil hn idx)

/-- The loop of `loadTracers` from position `n` on: when it returns, every program it went through
holds the objects of its last `Load`. -/
theorem loadProgram_loop_ok (ps : List Program) (l : List Program) (n : Nat)
    (hl : ∀ e ∈ l.enumFrom n, ps[e.1]? = some e.2) {s s' : Frame}
    (h : ((l.enumFrom n).forM fun e => loadProgram k e.1 e.2) s = .ok () s') :
    ∀ e ∈ l.enumFrom n, LastLoadAssigned e.2 e.1 s'.1 := by
  induction l generalizing n s with
  | nil => exact nofun
  | cons p l ih =>
    rw [List.enumFrom_cons] at h hl ⊢
    rw [List.forM_cons'] at h
    obtain ⟨⟨⟩, s₁, h₁, h⟩ := bind_eq_ok h
    have hl' : ∀ e ∈ l.enumFrom (n + 1), ps[e.1]? = some e.2 :=
      fun e he => hl e (List.mem_cons_of_mem _ he)
    intro e he
    rcases List.mem_cons.mp he with rfl | he
    · -- the later iterations make no call into program `n` and keep its objects
      obtain ⟨evs, hL, hother, -⟩ := loadProgram_loop k ps l (n + 1) hl' s₁
      rw [final, h] at hL
      exact (loadProgram_ok k h₁).keep ((Stays.forM fun e he => loadProgram_keepsAssigned k
        (Nat.ne_of_lt (List.mem_enumFrom (x := e.2) (i := e.1) he).1) e.2).of_ok h)
        hL.mono.override hL.trace (hother n (Nat.lt_succ_self n))
    · exact ih (n + 1) hl' h e he

end

/-- Whatever the kernel answers, when `Init` returns no error every program of `Programs` holds the
object that its last `Load` returned, at an override value that is still set: the last two calls
into the program are that `Load` and a `LoadAndAssign` that succeeded, so a program that the
fallback reloaded holds the objects of the reload. -/
theorem init_succeeds_assigns_all (k : Kernel) (ps : List Program) (w : World)
    (hsucc : succeeds k ps w .init = true) {j : Nat} {p : Program} (hj : ps[j]? = some p) :
    ∃ spec f, (step k ps w .init).assigned j = some spec ∧ p.load f = .ok spec ∧
      (f = true → (step k ps w .init).integrityModeOverride = true) ∧
      [.load j f, .loadAndAssign j none] <:+ programCalls j (step k ps w .init).trace := by
  cases h : loadTracers k ps (w, {}) with
  | error e s => simp only [succeeds, Op.call, h, Bool.false_eq_true] at hsucc
  | ok _ s =>
    have hstep : step k ps w .init = s.1 := by simp only [step, Op.call, final, h]
    unfold loadTracers at h
    obtain ⟨⟨⟩, s₀, -, h⟩ := bind_eq_ok h
    rw [hstep]
    exact loadProgram_loop_ok k ps ps 0 (fun _ he => List.mem_enum_iff_getElem?.mp he) h (j, p)
      (List.mem_enum_iff_getElem?.mpr hj)

theorem init_succeeds_assigns_all_plainGoTracer :
    succeeds Kernel.granting [plainGoTracer] (World.initial false) .init = true ∧
      [plainGoTracer][0]? = some plainGoTracer ∧
      ∃ spec f, (step Kernel.granting [plainGoTracer] (World.initial false) .init).assigned 0 =
          some spec ∧ plainGoTracer.load f = .ok spec ∧
        (f = true → (step Kernel.granting [plainGoTracer] (World.initial false)
          .init).integrityModeOverride = true) ∧
        [.load 0 f, .loadAndAssign 0 none] <:+
          programCalls 0 (step Kernel.granting [plainGoTracer] (World.initial false) .init).trace :=
  have hs : succeeds Kernel.granting [plainGoTracer] (World.initial false) .init = true := rfl
  ⟨hs, rfl, init_succeeds_assigns_all Kernel.granting [plainGoTracer] _ hs rfl⟩

end BeylaTracer
