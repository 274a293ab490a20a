import Mathlib.Data.List.TakeWhile
import Mathlib.Data.UInt
import Mathlib.Tactic.IntervalCases

/-!
# Types that the VST3 wrappers share

Results, class ids and strings of `serialization/vst3/base.{h,cpp}`. A `TUID` of a plugin under
Wine has the byte order of COM, a native one does not.
-/

set_option autoImplicit false

namespace Vst3

inductive TResult
  | kResultOk
  | kResultFalse
  | kInvalidArgument
  | kNotInitialized
  deriving DecidableEq

/-! ## Strings -/

section Strings
variable {α : Type} [DecidableEq α] [Zero α]

/-- What a reader of a zero-terminated string finds. -/
def terminated (s : List α) : List α := s.takeWhile (· ≠ 0)

theorem zero_notMem_terminated (s : List α) : 0 ∉ terminated s := by
  intro h
  have hall := List.all_takeWhile (p := (· ≠ 0)) (l := s)
  simpa using List.all_eq_true.mp hall 0 h

theorem terminated_eq_self {s : List α} (h : 0 ∉ s) : terminated s = s :=
  List.takeWhile_eq_self_iff.mpr fun _ hc => decide_eq_true fun hzero => h (hzero ▸ hc)

theorem terminated_terminated (s : List α) : terminated (terminated s) = terminated s :=
  terminated_eq_self (zero_notMem_terminated s)

theorem terminated_append_zero (s t : List α) : terminated (s ++ 0 :: t) = terminated s := by
  unfold terminated
  induction s with
  | nil => simp
  | cons c s ih =>
    rw [List.cons_append, List.takeWhile_cons, List.takeWhile_cons, ih]

theorem terminated_length_le (s : List α) : (terminated s).length ≤ s.length :=
  (List.takeWhile_prefix _).length_le

end Strings

/-! ## Class ids -/

abbrev TUID := Vector UInt8 16

abbrev ArrayUID := Vector UInt8 16

structure WineUID where
  uid_ : ArrayUID

structure NativeUID where
  uid_ : ArrayUID

/-- The first eight bytes, as the words of a GUID, change their order. -/
def WineUID.get_native_uid (uid : WineUID) : ArrayUID :=
  ((((((((uid.uid_.set 0 uid.uid_[3]).set 1 uid.uid_[2]).set 2 uid.uid_[1]).set 3 uid.uid_[0]).set 4
    uid.uid_[5]).set 5 uid.uid_[4]).set 6 uid.uid_[7]).set 7 uid.uid_[6])

/-- The transformation is the same one. -/
def NativeUID.get_wine_uid (uid : NativeUID) : ArrayUID :=
  ((((((((uid.uid_.set 0 uid.uid_[3]).set 1 uid.uid_[2]).set 2 uid.uid_[1]).set 3 uid.uid_[0]).set 4
    uid.uid_[5]).set 5 uid.uid_[4]).set 6 uid.uid_[7]).set 7 uid.uid_[6])

/-- Where the byte at a position comes from. -/
def swapped : Nat → Nat
  | 0 => 3
  | 1 => 2
  | 2 => 1
  | 3 => 0
  | 4 => 5
  | 5 => 4
  | 6 => 7
  | 7 => 6
  | i => i

theorem swapped_lt {i : Nat} (hi : i < 16) : swapped i < 16 := by
  interval_cases i <;> decide

theorem swapped_swapped {i : Nat} (hi : i < 16) : swapped (swapped i) = i := by
  interval_cases i <;> rfl

theorem get_native_uid_getElem (uid : ArrayUID) {i : Nat} (hi : i < 16)
    (hs : swapped i < 16) : (WineUID.mk uid).get_native_uid[i] = uid[swapped i] := by
  unfold WineUID.get_native_uid
  interval_cases i <;> simp [swapped]

theorem get_wine_uid_get_native_uid (uid : TUID) :
    (NativeUID.mk (WineUID.mk uid).get_native_uid).get_wine_uid = uid := by
  have hsame : ∀ u, (NativeUID.mk u).get_wine_uid = (WineUID.mk u).get_native_uid := fun _ => rfl
  apply Vector.ext
  intro i hi
  have hs := swapped_lt hi
  rw [hsame, get_native_uid_getElem _ hi hs, get_native_uid_getElem _ hs (swapped_lt hs)]
  simp only [swapped_swapped hi]

end Vst3
