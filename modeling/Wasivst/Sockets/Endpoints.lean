import Mathlib.Data.Nat.Digits.Defs
import Wasivst.Sockets

/-!
# The endpoints of `ClapSockets`

Two sockets for the main thread and two for the audio thread of each instance, all of them files
in one directory. A socket is named after the side that listens on it.
-/

set_option autoImplicit false

namespace Sockets
open LexicalPath Component

/-- `std::to_string` of a `size_t`. -/
def to_string (n : Nat) : List UInt8 :=
  if n = 0 then [48] else (Nat.digits 10 n).reverse.map fun d => UInt8.ofNat (48 + d)

def of_string (s : List UInt8) : Nat := Nat.ofDigits 10 (s.map fun b => b.toNat - 48).reverse

theorem digit_toNat {d : Nat} (h : d < 10) : (UInt8.ofNat (48 + d)).toNat = 48 + d := by
  rw [UInt8.toNat_ofNat']
  omega

theorem of_string_to_string (n : Nat) : of_string (to_string n) = n := by
  unfold to_string
  split
  · rename_i h
    rw [h]
    rfl
  · have hdigits : (Nat.digits 10 n).reverse.map
        ((fun b : UInt8 => b.toNat - 48) ∘ fun d => UInt8.ofNat (48 + d)) =
          (Nat.digits 10 n).reverse.map id := by
      apply List.map_congr_left
      intro d hd
      have hlt : d < 10 := Nat.digits_lt_base (by omega) (List.mem_reverse.mp hd)
      rw [Function.comp_apply, digit_toNat hlt, Nat.add_sub_cancel_left]
      rfl
    rw [of_string, List.map_map, hdigits, List.map_id, List.reverse_reverse, Nat.ofDigits_digits]

theorem slash_notMem_to_string (n : Nat) : slash ∉ to_string n := by
  unfold to_string
  split
  · decide
  · intro h
    obtain ⟨d, hd, heq⟩ := List.mem_map.mp h
    have hlt : d < 10 := Nat.digits_lt_base (by omega) (List.mem_reverse.mp hd)
    have hnat := congrArg UInt8.toNat heq
    rw [digit_toNat hlt] at hnat
    have hslash : slash.toNat = 47 := rfl
    omega

/-! ## Names -/

inductive Side where
  | wine
  | native
  deriving DecidableEq

def Side.other : Side → Side
  | .wine => .native
  | .native => .wine

/-- The socket of an instance that this side listens on. -/
abbrev Key := Side × UInt64

/-- Who can be behind an endpoint. -/
inductive Owner where
  | main (side : Side)
  | audio (key : Key)
  deriving DecidableEq

def file_name : Owner → List UInt8
  | .main .wine => bytes "host_plugin_main_thread_control.sock"
  | .main .native => bytes "plugin_host_main_thread_callback.sock"
  | .audio (.wine, instance_id) =>
    bytes "host_plugin_audio_thread_control_" ++ to_string instance_id.toNat ++ bytes ".sock"
  | .audio (.native, instance_id) =>
    bytes "plugin_host_audio_thread_callback_" ++ to_string instance_id.toNat ++ bytes ".sock"

def Owner.sideLetter : Owner → UInt8
  | .main .wine => 104
  | .main .native => 112
  | .audio (.wine, _) => 104
  | .audio (.native, _) => 112

def Owner.threadLetter : Owner → UInt8
  | .main _ => 109
  | .audio _ => 97

def endpoint (base_dir : Path) (owner : Owner) : Path := append base_dir (file_name owner)

theorem to_string_injective {i j : UInt64} (h : to_string i.toNat = to_string j.toNat) : i = j := by
  have hnat := congrArg of_string h
  rw [of_string_to_string, of_string_to_string] at hnat
  exact UInt64.toNat_inj.mp hnat

theorem append_injective {directory : Path} {m n : List UInt8}
    (h : append directory m = append directory n) : m = n := by
  unfold append at h
  split at h
  · exact List.append_cancel_left h
  · exact (List.cons.inj (List.append_cancel_left h)).2

/-- The letters that tell the sides and the threads apart. -/
theorem file_name_letters (owner : Owner) : (file_name owner)[0]? = some owner.sideLetter ∧
    (file_name owner)[12]? = some owner.threadLetter := by
  rcases owner with side | ⟨side, instance_id⟩
  · cases side <;> exact ⟨rfl, rfl⟩
  · cases side <;> exact ⟨rfl, rfl⟩

theorem file_name_injective {a b : Owner} (h : file_name a = file_name b) : a = b := by
  have hside : some a.sideLetter = some b.sideLetter := by
    rw [← (file_name_letters a).1, ← (file_name_letters b).1, h]
  have hthread : some a.threadLetter = some b.threadLetter := by
    rw [← (file_name_letters a).2, ← (file_name_letters b).2, h]
  rcases a with s | ⟨s, i⟩
  · rcases b with r | ⟨r, j⟩
    · cases s <;> cases r <;> simp_all [Owner.sideLetter]
    · simp [Owner.threadLetter] at hthread
  · rcases b with r | ⟨r, j⟩
    · simp [Owner.threadLetter] at hthread
    · have hsame : s = r := by
        cases s <;> cases r <;> simp_all [Owner.sideLetter]
      subst hsame
      have hid : to_string i.toNat = to_string j.toNat := by
        cases s
        · exact List.append_cancel_left (List.append_cancel_right h)
        · exact List.append_cancel_left (List.append_cancel_right h)
      rw [to_string_injective hid]

theorem endpoint_injective {base_dir : Path} {a b : Owner}
    (h : endpoint base_dir a = endpoint base_dir b) : a = b :=
  file_name_injective (append_injective h)

theorem slash_notMem_file_name (owner : Owner) : slash ∉ file_name owner := by
  have hsock : slash ∉ bytes ".sock" := by decide
  rcases owner with side | ⟨side, instance_id⟩
  · cases side <;> decide
  · have hid := slash_notMem_to_string instance_id.toNat
    cases side with
    | wine =>
      have hstart : slash ∉ bytes "host_plugin_audio_thread_control_" := by decide
      simp [file_name, hstart, hid, hsock]
    | native =>
      have hstart : slash ∉ bytes "plugin_host_audio_thread_callback_" := by decide
      simp [file_name, hstart, hid, hsock]

theorem components_file_name (owner : Owner) :
    components (file_name owner) = [down (file_name owner)] := by
  rw [components, List.splitOn_eq_singleton (slash_notMem_file_name owner)]
  rcases owner with side | ⟨side, instance_id⟩
  · cases side <;> rfl
  · cases side <;> rfl

/-- Every endpoint goes with the directory when that is removed. -/
theorem endpoint_below (base_dir : Path) (owner : Owner) :
    StrictlyBelow (endpoint base_dir owner) base_dir := by
  apply strictlyBelow_iff.mpr
  apply enters_append
  · have hfirst := (file_name_letters owner).1
    rw [← List.head?_eq_getElem?] at hfirst
    rw [hfirst]
    rcases owner with side | ⟨side, instance_id⟩
    · cases side <;> simp [Owner.sideLetter, slash]
    · cases side <;> simp [Owner.sideLetter, slash]
  · exact components_file_name owner

end Sockets
