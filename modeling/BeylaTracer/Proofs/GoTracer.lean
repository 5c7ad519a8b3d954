import BeylaTracer.GoTracer
import Mathlib.Data.List.Basic

/-!
# The Go tracer's log strings

`readString` decodes the elements of a debug-log `int8` array up to its first zero, each as the
byte with the same bits.
-/

namespace BeylaTracer

/-! ## `readString` -/

theorem take_set_succ {α : Type} (l : List α) (i : Nat) (a : α) (h : i < l.length) :
    (l.set i a).take (i + 1) = l.take i ++ [a] := by
  rw [List.take_succ, List.set_take, List.set_eq_of_length_le (by simp)]
  simp [h]

/-- The loop at index `i`, with `bytes` as long as `i` plus what is left: the first `i` bytes,
then the bytes of the remaining elements before the first zero. -/
theorem readStringLoop_eq (vs : List Int8) (i : Nat) (bytes : List UInt8)
    (h : bytes.length = i + vs.length) :
    readStringLoop vs i bytes = bytes.take i ++ (vs.takeWhile (· ≠ 0)).map Int8.toUInt8 := by
  induction vs generalizing i bytes with
  | nil =>
    simp [readStringLoop, List.take_of_length_le (Nat.le_of_eq (h.trans (Nat.add_zero i)))]
  | cons v vs ih =>
    unfold readStringLoop
    by_cases hv : v = 0
    · simp [hv]
    · rw [if_neg hv, ih (i + 1) _ (by simp [h]; omega), take_set_succ _ _ _ (by simp [h])]
      simp [hv]

theorem toUInt8_ne_zero {v : Int8} (hv : v ≠ 0) : v.toUInt8 ≠ 0 := fun h =>
  hv (by cases v; cases h; rfl)

/-- `readString` is the longest prefix of `data` without a zero, each element read as the byte with
the same bits; so it has no zero byte and is no longer than `data`. -/
theorem readString_eq_takeWhile (data : List Int8) :
    readString data = (data.takeWhile (· ≠ 0)).map Int8.toUInt8 ∧ 0 ∉ readString data ∧
      (readString data).length ≤ data.length := by
  have e : readString data = (data.takeWhile (· ≠ 0)).map Int8.toUInt8 := by
    rw [readString, readStringLoop_eq _ _ _ (by simp)]
    simp
  refine ⟨e, fun hmem => ?_, ?_⟩
  · rw [e] at hmem
    obtain ⟨v, hv, h0⟩ := List.mem_map.mp hmem
    exact toUInt8_ne_zero (by simpa using List.mem_takeWhile_imp hv) h0
  · rw [e, List.length_map]
    exact (List.takeWhile_sublist _).length_le

end BeylaTracer
