import Wasivst.Vst3.BStream

/-!
# Strings in buffers of the caller

`YaAttributeList::getString` and `YaBStream::getFileName` store a string and its terminator in a
buffer of the caller. Both can store one unit too many.
-/

set_option autoImplicit false

namespace Vst3
open InPlace

/-- The buffer of `sizeInBytes` bytes is kept, and gets a terminator if it has room for it. -/
def StringStaysIn (l : YaAttributeList) (id : AttrID) (sizeInBytes : UInt32) : Prop :=
  ∀ written, l.getString id true sizeInBytes = .ok written →
    2 * written.length ≤ sizeInBytes.toNat ∧ (2 ≤ sizeInBytes.toNat → written.getLast? = some 0)

def FileNameStaysIn (s : YaBStream) : Prop :=
  ∀ written, s.getFileName true = .ok written →
    written.length ≤ 128 ∧ written.getLast? = some 0

/-- A buffer without room for a unit gets one nevertheless. -/
theorem stringStaysIn_iff (l : YaAttributeList) (id : AttrID) (sizeInBytes : UInt32) :
    StringStaysIn l id sizeInBytes ↔
      l.attrs_string_.lookup (terminated id) = none ∨ 2 ≤ sizeInBytes.toNat := by
  unfold StringStaysIn YaAttributeList.getString
  cases l.attrs_string_.lookup (terminated id) with
  | none => exact iff_of_true (fun _ h => absurd h nofun) (.inl rfl)
  | some s =>
    constructor
    · intro h
      have hin := (h _ rfl).1
      rw [List.length_append, List.length_singleton] at hin
      exact .inr (by omega)
    · rintro (h | h)
      · exact absurd h nofun
      · rintro _ ⟨⟩
        refine ⟨?_, fun _ => by simp⟩
        change 2 * (s.take (YaAttributeList.copy_characters sizeInBytes s.length) ++ [0]).length ≤ _
        rw [YaAttributeList.copy_characters_of_le h, List.length_append, List.length_take,
          List.length_singleton]
        omega

theorem fileNameStaysIn_iff (s : YaBStream) :
    FileNameStaysIn s ↔ ∀ name, s.file_name_ = some name → name.length < 128 := by
  unfold FileNameStaysIn YaBStream.getFileName
  cases s.file_name_ with
  | none => exact iff_of_true (fun _ h => absurd h nofun) nofun
  | some name =>
    constructor
    · rintro h _ ⟨⟩
      have hin := (h _ rfl).1
      rw [List.length_append, List.length_singleton] at hin
      omega
    · intro h
      rintro _ ⟨⟩
      have hshort := h name rfl
      refine ⟨?_, by simp⟩
      rw [List.length_append, List.length_singleton]
      omega

/-- The buffers are kept unless one has no room for a unit or a file name fills its own. -/
theorem caller_buffers_kept_iff (l : YaAttributeList) (id : AttrID) (sizeInBytes : UInt32)
    (s : YaBStream) : StringStaysIn l id sizeInBytes ∧ FileNameStaysIn s ↔
      (l.attrs_string_.lookup (terminated id) = none ∨ 2 ≤ sizeInBytes.toNat) ∧
        ∀ name, s.file_name_ = some name → name.length < 128 := by
  rw [stringStaysIn_iff, fileNameStaysIn_iff]

/-- A stream with a file name of a given length. -/
def named (n : Nat) : YaBStream := { YaBStream.fresh with file_name_ := some (List.replicate n 65) }

/-- A list with an empty string. -/
def oneString : YaAttributeList :=
  { YaAttributeList.empty with attrs_string_ := AList.singleton [97] [] }

theorem decode_named {n : Nat} (hn : n ≤ 128) : (YaBStream.serialize .default).decode .fresh
    ((YaBStream.serialize .default).write (named n)) = some (named n) := by
  have htext : ∀ s, (Bitsery.default.text2b 128).fits s = decide (s.length ≤ 128) :=
    Bitsery.default.text2b_fits (by decide)
  have hbuffer : ∀ s, (Bitsery.default.text1b 52428800).fits s = decide (s.length ≤ 52428800) :=
    Bitsery.default.text1b_fits (by decide)
  have hfits : (YaBStream.serialize .default).fits (named n) = true := by
    simp [YaBStream.serialize, htext, hbuffer, named, YaBStream.fresh, hn]
  rw [Codec.decode_write _ _ hfits]
  simp [YaBStream.serialize, named, YaBStream.fresh]

/-- A buffer of one byte, and a name of 128 units that was decoded. -/
theorem terminators_outside : ¬ StringStaysIn oneString [97] 1 ∧
    (YaBStream.serialize .default).decode .fresh
      ((YaBStream.serialize .default).write (named 128)) = some (named 128) ∧
    ¬ FileNameStaysIn (named 128) := by
  refine ⟨?_, decode_named (by decide), ?_⟩
  · rw [stringStaysIn_iff]
    decide
  · rw [fileNameStaysIn_iff]
    intro h
    have hlt := h _ rfl
    rw [List.length_replicate] at hlt
    omega

end Vst3
