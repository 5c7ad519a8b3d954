import BeylaTracer.World
import Mathlib.Data.Finset.Basic

/-!
# What the primitive steps do

Two relations between the frame before and after a program. `Mono` is what every tracer operation
does to the kernel side of the world: kernel calls are only added, an open handle was open before
or comes from a new call, the override flag is only ever set, and the trace only grows. `Grows` is
what an attachment batch does on top of that: it opens fresh handles and appends exactly those to
`closables`, only adds modules, loads no program, and leaves the map, the flag and the assigned
objects alone.

Both are preorders, so by `Stays.bind` and `Stays.forM` they hold of every program built from the
primitives that have them.
-/

namespace BeylaTracer

/-- What every tracer operation does to the kernel side of the world. -/
structure Mono (s s' : Frame) : Prop where
  tick_le : s.1.tick ≤ s'.1.tick
  live : ∀ h : Nat, h ∈ s'.1.live → h ∈ s.1.live ∨ s.1.tick ≤ h ∧ h < s'.1.tick
  override : s.1.integrityModeOverride = true → s'.1.integrityModeOverride = true
  trace : s.1.trace <+: s'.1.trace

theorem Mono.trans {a b c : Frame} (h₁ : Mono a b) (h₂ : Mono b c) : Mono a c where
  tick_le := h₁.tick_le.trans h₂.tick_le
  live h hh := by
    have := h₁.tick_le
    have := h₂.tick_le
    rcases h₂.live h hh with hb | hb
    · rcases h₁.live h hb with ha | ha
      · exact .inl ha
      · exact .inr ⟨ha.1, by omega⟩
    · exact .inr ⟨by omega, hb.2⟩
  override := h₂.override ∘ h₁.override
  trace := h₁.trace.trans h₂.trace

instance : IsPreorder Frame Mono where
  refl _ := ⟨le_rfl, fun _ hh => .inl hh, id, List.prefix_refl _⟩
  trans _ _ _ := Mono.trans

/-- A step that leaves the kernel side and the trace alone is `Mono`. -/
theorem Mono.of_eq {s s' : Frame} (ht : s'.1.tick = s.1.tick) (hl : s'.1.live = s.1.live)
    (ho : s'.1.integrityModeOverride = s.1.integrityModeOverride)
    (htr : s'.1.trace = s.1.trace) : Mono s s' :=
  ⟨ht.ge, fun _ hh => .inl (hl ▸ hh), fun h => ho ▸ h, htr ▸ List.prefix_refl _⟩

/-- What an attachment batch does. -/
structure Grows (s s' : Frame) : Prop where
  instrumentables : s'.1.instrumentables = s.1.instrumentables
  override : s'.1.integrityModeOverride = s.1.integrityModeOverride
  assigned : s'.1.assigned = s.1.assigned
  /-- A batch neither sets the logger nor panics. -/
  quiet : s'.1.logger = s.1.logger ∧ s'.1.panicked = s.1.panicked
  offsets : s'.2.offsets = s.2.offsets
  modules : ∀ m ∈ s.2.modules.keys, m ∈ s'.2.modules.keys
  tick_le : s.1.tick ≤ s'.1.tick
  trace : ∃ evs, s'.1.trace = s.1.trace ++ evs ∧ ∀ e ∈ evs, e.loading? = none
  opened : ∃ hs : List Nat, s'.2.closables = s.2.closables ++ hs ∧
    s'.1.live = s.1.live ∪ hs.toFinset ∧ hs.Nodup ∧ ∀ h ∈ hs, s.1.tick ≤ h ∧ h < s'.1.tick

theorem Grows.trans {a b c : Frame} (h₁ : Grows a b) (h₂ : Grows b c) : Grows a c := by
  obtain ⟨hs₁, hc₁, hl₁, hn₁, hb₁⟩ := h₁.opened
  obtain ⟨hs₂, hc₂, hl₂, hn₂, hb₂⟩ := h₂.opened
  have t₁ := h₁.tick_le
  have t₂ := h₂.tick_le
  refine ⟨h₂.instrumentables.trans h₁.instrumentables, h₂.override.trans h₁.override,
    h₂.assigned.trans h₁.assigned, ⟨h₂.quiet.1.trans h₁.quiet.1, h₂.quiet.2.trans h₁.quiet.2⟩,
    h₂.offsets.trans h₁.offsets,
    fun m hm => h₂.modules m (h₁.modules m hm), t₁.trans t₂, ?_,
    hs₁ ++ hs₂, by rw [hc₂, hc₁, List.append_assoc], ?_, ?_, ?_⟩
  · obtain ⟨e₁, he₁, hl₁⟩ := h₁.trace
    obtain ⟨e₂, he₂, hl₂⟩ := h₂.trace
    exact ⟨e₁ ++ e₂, by rw [he₂, he₁, List.append_assoc],
      fun e he => (List.mem_append.mp he).elim (hl₁ e) (hl₂ e)⟩
  · rw [hl₂, hl₁, List.toFinset_append, Finset.union_assoc]
  · refine List.nodup_append.mpr ⟨hn₁, hn₂, fun x hx hy => ?_⟩
    have := (hb₁ x hx).2
    have := (hb₂ x hy).1
    omega
  · intro h hh
    rcases List.mem_append.mp hh with hh | hh
    · have := hb₁ h hh
      constructor <;> omega
    · have := hb₂ h hh
      constructor <;> omega

instance : IsPreorder Frame Grows where
  refl s := ⟨rfl, rfl, rfl, ⟨rfl, rfl⟩, rfl, fun _ hm => hm, le_rfl, ⟨[], by simp, nofun⟩, [],
    by simp, by simp, List.nodup_nil, by simp⟩
  trans _ _ _ := Grows.trans

theorem Grows.mono {s s' : Frame} (h : Grows s s') : Mono s s' := by
  obtain ⟨hs, -, hl, -, hb⟩ := h.opened
  obtain ⟨evs, he, -⟩ := h.trace
  refine ⟨h.tick_le, fun x hx => ?_, fun ho => h.override ▸ ho, ⟨evs, he.symm⟩⟩
  rw [hl, Finset.mem_union, List.mem_toFinset] at hx
  exact hx.imp_right (hb x)

/-! ## `ModSet` -/

theorem ModSet.mem_insert {m a : Nat} {s : ModSet} : a ∈ (s.insert m).keys ↔ a = m ∨ a ∈ s.keys := by
  unfold ModSet.insert
  split
  · exact ⟨.inr, fun h => h.elim (· ▸ ‹_›) id⟩
  · exact List.mem_cons

/-! ## The primitives -/

section

variable (k : Kernel)

theorem kernelCall_grows : Stays Grows (kernelCall k) := fun _ =>
  ⟨rfl, rfl, rfl, ⟨rfl, rfl⟩, rfl, fun _ hm => hm, Nat.le_succ _, ⟨[], (List.append_nil _).symm, nofun⟩, [],
    (List.append_nil _).symm, (Finset.union_empty _).symm, List.nodup_nil, by simp⟩

/-- Emitting anything but a `Load` or `LoadAndAssign` call is part of a batch. -/
theorem emit_grows {e : Event} (he : e.loading? = none) : Stays Grows (emit e) := fun _ =>
  ⟨rfl, rfl, rfl, ⟨rfl, rfl⟩, rfl, fun _ hm => hm, le_rfl, ⟨[e], rfl, fun _ h => List.mem_singleton.mp h ▸ he⟩, [],
    (List.append_nil _).symm, (Finset.union_empty _).symm, List.nodup_nil, by simp⟩

theorem attach_grows : Stays Grows (attach k) := by
  intro s
  cases h : k.answer s.1.tick with
  | none =>
    simp only [final, attach, h]
    exact ⟨rfl, rfl, rfl, ⟨rfl, rfl⟩, rfl, fun _ hm => hm, Nat.le_succ _,
      ⟨[], (List.append_nil _).symm, nofun⟩, [s.1.tick],
      rfl, by simp [Finset.insert_eq, Finset.union_comm], List.nodup_singleton _, by simp⟩
  | some e =>
    simp only [final, attach, h]
    exact (kernelCall_grows k) s

theorem setIntegrityModeOverride_mono : Stays Mono (setIntegrityModeOverride) := fun _ =>
  ⟨le_rfl, fun _ hh => .inl hh, fun _ => rfl, List.prefix_refl _⟩

end

/-- A call on `pt.log` logs its line, or panics and logs nothing: it changes only the trace and the
panic flag. -/
theorem final_ptLog (l : Level) (m : String) (s : Frame) :
    final (ptLog l m) s = ({ s.1 with
      trace := s.1.trace ++ if s.1.logger then [.log l m] else []
      panicked := s.1.panicked || !s.1.logger }, s.2) := by
  unfold final ptLog
  cases h : s.1.logger <;> simp [h]

end BeylaTracer
