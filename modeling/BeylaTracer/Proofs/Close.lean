import BeylaTracer.BpfDebug
import Mathlib.Data.List.Basic

/-!
# `_Bpf_debugClose` stops at the first failure

`_Bpf_debugClose` returns as soon as one `Close` fails, so the objects it releases are those under
its closers up to and including the first whose `Close` fails, and it returns that error. For
`bpf_debugObjects.Close` this means that the `events` map is released exactly when all three
programs close without an error (`bpfDebugClose_stops_at_first_failure`); it is not released when
closing a program fails (`bpfDebugClose_skips_after_failure`).
-/

namespace BeylaTracer

section

variable (answer : String → Option String)

/-- Closing kernel objects one after another and stopping after the first failure: the error,
and the objects closed. -/
def closeInOrder : List String → Option String × List String
  | [] => (none, [])
  | n :: ns =>
    match answer n with
    | some err => (some err, [n])
    | none => ((closeInOrder ns).1, n :: (closeInOrder ns).2)

theorem closeInOrder_append (l₁ l₂ : List String) :
    closeInOrder answer (l₁ ++ l₂) =
      match (closeInOrder answer l₁).1 with
      | some err => (some err, (closeInOrder answer l₁).2)
      | none => ((closeInOrder answer l₂).1, l₁ ++ (closeInOrder answer l₂).2) := by
  induction l₁ with
  | nil => rfl
  | cons n ns ih =>
    show closeInOrder answer (n :: (ns ++ l₂)) = _
    simp only [closeInOrder]
    cases answer n with
    | some err => rfl
    | none =>
      rw [ih]
      cases (closeInOrder answer ns).1 <;> rfl

/-- When no `Close` fails, every object is closed. -/
theorem closeInOrder_snd_of_none {l : List String} (h : (closeInOrder answer l).1 = none) :
    (closeInOrder answer l).2 = l := by
  induction l with
  | nil => rfl
  | cons n ns ih =>
    simp only [closeInOrder] at h ⊢
    cases hn : answer n with
    | some err => simp [hn] at h
    | none =>
      simp only [hn] at h ⊢
      rw [ih h]

/-- The objects closed are the objects up to and including the first failing one, and the error
is the first failure. -/
theorem closeInOrder_eq (l : List String) :
    closeInOrder answer l = (l.findSome? answer,
      l.take ((l.takeWhile fun n => (answer n).isNone).length + 1)) := by
  induction l with
  | nil => rfl
  | cons n ns ih =>
    simp only [closeInOrder, List.findSome?_cons, List.takeWhile_cons]
    cases answer n with
    | some err => rfl
    | none => simp [ih]

theorem bpfDebugClose_cons_run (c : Closer) (cs : List Closer) (s : List String) :
    (bpfDebugClose answer (c :: cs)).run s =
      match (c.close answer).run s with
      | (some err, s') => (some err, s')
      | (none, s') => (bpfDebugClose answer cs).run s' := by
  simp only [bpfDebugClose, StateT.run_bind]
  cases StateT.run (Closer.close answer c) s with
  | mk r s' => cases r <;> rfl

mutual

theorem Closer.close_run (c : Closer) (s : List String) :
    (c.close answer).run s =
      ((closeInOrder answer c.objects).1, s ++ (closeInOrder answer c.objects).2) :=
  match c with
  | .object name => by
    show (answer name, s ++ [name]) = _
    cases h : answer name <;> simp [Closer.objects, closeInOrder, h]
  | .struct members => bpfDebugClose_run members s

theorem bpfDebugClose_run (cs : List Closer) (s : List String) :
    (bpfDebugClose answer cs).run s =
      ((closeInOrder answer (objectsOf cs)).1, s ++ (closeInOrder answer (objectsOf cs)).2) :=
  match cs with
  | [] => by
    show (none, s) = (none, s ++ [])
    rw [List.append_nil]
  | c :: cs => by
    rw [bpfDebugClose_cons_run, Closer.close_run c s, objectsOf, closeInOrder_append]
    cases h : (closeInOrder answer c.objects).1 with
    | some err => rfl
    | none =>
      dsimp only
      rw [bpfDebugClose_run cs, closeInOrder_snd_of_none answer h, List.append_assoc]

end

/-- `_Bpf_debugClose` releases the kernel objects under its closers in order, up to and including
the first whose `Close` fails, and returns that error; so `bpf_debugObjects.Close` releases the
`events` map exactly when all three programs close without an error. -/
theorem bpfDebugClose_stops_at_first_failure (cs : List Closer) :
    (bpfDebugClose answer cs).run [] = ((objectsOf cs).findSome? answer,
      (objectsOf cs).take (((objectsOf cs).takeWhile fun n => (answer n).isNone).length + 1)) ∧
    ("events" ∈ ((bpfDebugObjects.close answer).run []).2 ↔
      answer "kprobe_do_task_dead" = none ∧ answer "syscall_enter_execve" = none ∧
        answer "syscall_enter_execveat" = none) := by
  refine ⟨by rw [bpfDebugClose_run, closeInOrder_eq, List.nil_append], ?_⟩
  rw [Closer.close_run, List.nil_append]
  show "events" ∈ (closeInOrder answer ["kprobe_do_task_dead", "syscall_enter_execve",
    "syscall_enter_execveat", "events"]).2 ↔ _
  simp only [closeInOrder]
  cases answer "kprobe_do_task_dead" <;> cases answer "syscall_enter_execve" <;>
    cases answer "syscall_enter_execveat" <;> cases answer "events" <;> simp

end

/-- When closing the first program fails, `bpf_debugObjects.Close` never reaches the `events`
map. -/
theorem bpfDebugClose_skips_after_failure :
    ¬ ∀ (answer : String → Option String) (cs : List Closer), ∀ n ∈ objectsOf cs,
      n ∈ ((bpfDebugClose answer cs).run []).2 := fun h =>
  absurd (h (fun n => if n = "kprobe_do_task_dead" then some "bad file descriptor" else none)
    [bpfDebugPrograms, bpfDebugMaps] "events" (by decide)) (by decide)

end BeylaTracer
