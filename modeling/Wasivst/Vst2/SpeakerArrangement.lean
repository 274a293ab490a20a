import Wasivst.Lib.Regions
import Wasivst.Lib.SeekableFile
import Wasivst.Lib.Transition
import Wasivst.Vst2.Passthrough

/-!
# The bytes of speaker arrangements

`DynamicSpeakerArrangement` of `serialization/vst2.{h,cpp}`: a struct with an array of any length
at its end is taken apart, sent, and built again in a buffer of bytes. A store outside the buffer
has no result.
-/

set_option autoImplicit false

namespace Vst2
open InPlace LittleEndian Regions SeekableFile

def speakerBytes (speakers : List VstSpeaker) : List UInt8 := speakers.flatMap (·.data.toList)

/-- The bytes of the struct and of the speakers behind it. -/
def VstSpeakerArrangement.image (a : VstSpeakerArrangement) : List UInt8 :=
  ofU32 a.flags ++ ofU32 a.num_speakers ++ speakerBytes a.speakers

namespace DynamicSpeakerArrangement

/-- The constructor. A vector refuses a count that is negative as an `int`. -/
def ofStruct (a : VstSpeakerArrangement) : Option DynamicSpeakerArrangement :=
  if a.num_speakers.toNat < 2 ^ 31 ∧ a.num_speakers.toNat ≤ a.speakers.length then
    some ⟨a.flags, a.speakers.take a.num_speakers.toNat⟩
  else none

/-- What `as_c_speaker_arrangement` does to the buffer. The speakers are at offset 8. -/
def populate (d : DynamicSpeakerArrangement) (speaker_arrangement_buffer_ : List UInt8) :
    Option (List UInt8) := do
  let count := UInt64.ofNat d.speakers_.length
  let buffer := resized 0 speaker_arrangement_buffer_ (bufferSize count).toNat
  let buffer ← store buffer 0 (ofU32 d.flags_)
  let buffer ← store buffer 4 (ofU32 (UInt32.ofNat d.speakers_.length))
  store buffer 8 (speakerBytes d.speakers_)

/-- The buffer after that is what it returns. -/
def as_raw_data (d : DynamicSpeakerArrangement) (speaker_arrangement_buffer_ : List UInt8) :
    Option (List UInt8) := d.populate speaker_arrangement_buffer_

inductive Call
  | as_c_speaker_arrangement
  | as_raw_data

def call (d : DynamicSpeakerArrangement) (buffer : List UInt8) : Call → Option (List UInt8)
  | .as_c_speaker_arrangement => d.populate buffer
  | .as_raw_data => d.as_raw_data buffer

end DynamicSpeakerArrangement

/-! ## Bytes of speakers -/

theorem speakerBytes_length (speakers : List VstSpeaker) :
    (speakerBytes speakers).length = speakers.length * 112 := by
  unfold speakerBytes
  induction speakers with
  | nil => rfl
  | cons s speakers ih =>
    rw [List.flatMap_cons, List.length_append, ih, Vector.length_toList, List.length_cons]
    omega

theorem take_speakerBytes (speakers : List VstSpeaker) {n : Nat} (h : n ≤ speakers.length) :
    (speakerBytes speakers).take (n * 112) = speakerBytes (speakers.take n) := by
  have hlen : (speakerBytes (speakers.take n)).length = n * 112 := by
    rw [speakerBytes_length, List.length_take_of_le h]
  have hsplit : speakerBytes speakers =
      speakerBytes (speakers.take n) ++ speakerBytes (speakers.drop n) := by
    unfold speakerBytes
    rw [← List.flatMap_append, List.take_append_drop]
  rw [hsplit, List.take_left' hlen]

theorem VstSpeakerArrangement.take_image (a : VstSpeakerArrangement) {n : Nat}
    (h : n ≤ a.speakers.length) :
    a.image.take (8 + n * 112) = image ⟨a.flags, a.num_speakers, a.speakers.take n⟩ := by
  have hhead : (ofU32 a.flags ++ ofU32 a.num_speakers).length = 8 := by
    rw [List.length_append, ofU32_length, ofU32_length]
  unfold image
  rw [List.take_append, hhead, List.take_of_length_le (by omega), Nat.add_sub_cancel_left,
    take_speakerBytes _ h]

/-! ## The rebuilt struct -/

namespace DynamicSpeakerArrangement
variable {d : DynamicSpeakerArrangement}

/-- The buffer has room for the head of the struct and for the speakers, however many they are. -/
theorem bufferSize_toNat {n : Nat} (h : n < 2 ^ 31) :
    (bufferSize (UInt64.ofNat n)).toNat = 8 + n * 112 := by
  have hn : (UInt64.ofNat n).toNat = n := UInt64.toNat_ofNat_of_lt' (by rw [UInt64.size]; omega)
  rw [bufferSize_eq, UInt64.toNat_add, UInt64.toNat_mul, hn]
  change (8 + n * 112 % 2 ^ 64) % 2 ^ 64 = 8 + n * 112
  omega

/-- Whatever the buffer held, every store is inside it and nothing of what it held is left. -/
theorem populate_eq (h : d.speakers_.length < 2 ^ 31) (buffer : List UInt8) :
    d.populate buffer = some d.as_c_speaker_arrangement.image := by
  obtain ⟨m, hm⟩ : ∃ m, m = resized 0 buffer (8 + d.speakers_.length * 112) := ⟨_, rfl⟩
  have hlen : m.length = 8 + d.speakers_.length * 112 := by rw [hm, resized_length]
  have hflags : store m 0 (ofU32 d.flags_) = some (ofU32 d.flags_ ++ m.drop 4) := by
    have hstore := @store_append UInt8 [] m (ofU32 d.flags_) (by rw [ofU32_length]; omega)
    rwa [ofU32_length] at hstore
  have hcount : store (ofU32 d.flags_ ++ m.drop 4) 4 (ofU32 (UInt32.ofNat d.speakers_.length)) =
      some (ofU32 d.flags_ ++ ofU32 (UInt32.ofNat d.speakers_.length) ++ m.drop 8) := by
    have hstore := @store_append UInt8 (ofU32 d.flags_) (m.drop 4)
      (ofU32 (UInt32.ofNat d.speakers_.length)) (by rw [ofU32_length, List.length_drop]; omega)
    rwa [ofU32_length, ofU32_length, List.drop_drop] at hstore
  have hspeakers : store (ofU32 d.flags_ ++ ofU32 (UInt32.ofNat d.speakers_.length) ++ m.drop 8) 8
      (speakerBytes d.speakers_) = some d.as_c_speaker_arrangement.image := by
    have hroom : (speakerBytes d.speakers_).length = (m.drop 8).length := by
      rw [speakerBytes_length, List.length_drop, hlen, Nat.add_sub_cancel_left]
    have hstore := @store_append UInt8
      (ofU32 d.flags_ ++ ofU32 (UInt32.ofNat d.speakers_.length)) (m.drop 8)
      (speakerBytes d.speakers_) (Nat.le_of_eq hroom)
    rwa [List.length_append, ofU32_length, ofU32_length, hroom, List.drop_length,
      List.append_nil] at hstore
  simp only [populate, bufferSize_toNat h, ← hm, hflags, hcount, hspeakers, Option.bind_eq_bind,
    Option.bind_some]

theorem run_call (h : d.speakers_.length < 2 ^ 31) (buffer : List UInt8) {calls : List Call}
    (hcalls : calls ≠ []) :
    Transition.run d.call buffer calls = some d.as_c_speaker_arrangement.image := by
  induction calls generalizing buffer with
  | nil => exact absurd rfl hcalls
  | cons c calls ih =>
    have hcall : d.call buffer c = some d.as_c_speaker_arrangement.image := by
      cases c <;> exact populate_eq h buffer
    rw [Transition.run, hcall, Option.bind_some]
    cases calls with
    | nil => rfl
    | cons c' calls => exact ih _ (List.cons_ne_nil _ _)

end DynamicSpeakerArrangement

/-! ## Round trips -/

/-- What arrives is the struct with the speakers that it counts, and any calls build it again. -/
structure RoundTrips (B : Bitsery) (old : DynamicSpeakerArrangement) (a : VstSpeakerArrangement)
    (d : DynamicSpeakerArrangement) : Prop where
  received : (DynamicSpeakerArrangement.ofStruct a).bind
    ((DynamicSpeakerArrangement.serialize B).transfer old) = some d
  struct : d.as_c_speaker_arrangement =
    ⟨a.flags, a.num_speakers, a.speakers.take a.num_speakers.toNat⟩
  raw_data : ∀ buffer calls, calls ≠ [] →
    Transition.run d.call buffer calls = some (a.image.take (8 + a.num_speakers.toNat * 112))
  size : (a.image.take (8 + a.num_speakers.toNat * 112)).length =
    8 + a.num_speakers.toNat * 112

section
variable (B : Bitsery) (old : DynamicSpeakerArrangement) {a : VstSpeakerArrangement}

theorem ofStruct_eq_some {d : DynamicSpeakerArrangement} :
    DynamicSpeakerArrangement.ofStruct a = some d ↔
      (a.num_speakers.toNat < 2 ^ 31 ∧ a.num_speakers.toNat ≤ a.speakers.length) ∧
        d = ⟨a.flags, a.speakers.take a.num_speakers.toNat⟩ := by
  unfold DynamicSpeakerArrangement.ofStruct
  split_ifs with h
  · rw [Option.some.injEq, and_iff_right h, eq_comm]
  · exact iff_of_false nofun fun hd => h hd.1

/-- A struct with more speakers than the declared maximum is not sent. -/
theorem RoundTrips.count_le {d : DynamicSpeakerArrangement} (h : RoundTrips B old a d)
    (hroom : a.num_speakers.toNat ≤ a.speakers.length) :
    a.num_speakers.toNat ≤ max_audio_channels := by
  rcases Option.bind_eq_some_iff.mp h.received with ⟨d₀, hmade, hsent⟩
  rcases ofStruct_eq_some.mp hmade with ⟨_, rfl⟩
  have hbounded := (DynamicSpeakerArrangement.serialize_fits B _).mp
    (Codec.transfer_eq_some.mp hsent).1
  have hlen : (a.speakers.take a.num_speakers.toNat).length = a.num_speakers.toNat :=
    List.length_take_of_le hroom
  exact hlen ▸ hbounded

theorem received_eq {d : DynamicSpeakerArrangement}
    (hd : d = ⟨a.flags, a.speakers.take a.num_speakers.toNat⟩)
    (hroom : a.num_speakers.toNat ≤ a.speakers.length)
    (h : a.num_speakers.toNat ≤ max_audio_channels) :
    (DynamicSpeakerArrangement.ofStruct a).bind
      ((DynamicSpeakerArrangement.serialize B).transfer old) = some d := by
  have hmax : max_audio_channels = 16384 := rfl
  have hint : a.num_speakers.toNat < 2 ^ 31 := by omega
  have hfits : (DynamicSpeakerArrangement.serialize B).fits d := by
    rw [DynamicSpeakerArrangement.serialize_fits, hd]
    change (a.speakers.take a.num_speakers.toNat).length ≤ max_audio_channels
    rwa [List.length_take_of_le hroom]
  rw [ofStruct_eq_some.mpr ⟨⟨hint, hroom⟩, hd⟩, Option.bind_some]
  exact Codec.transfer_eq_some.mpr
    ⟨hfits, (DynamicSpeakerArrangement.serialize_put B old d).symm⟩

theorem speakers_roundtrip_iff (hroom : a.num_speakers.toNat ≤ a.speakers.length) :
    (∃ d, RoundTrips B old a d) ↔ a.num_speakers.toNat ≤ max_audio_channels := by
  constructor
  · intro h
    rcases h with ⟨d, h⟩
    exact h.count_le B old hroom
  · intro h
    have hmax : max_audio_channels = 16384 := rfl
    obtain ⟨d, hd⟩ : ∃ d : DynamicSpeakerArrangement,
      d = ⟨a.flags, a.speakers.take a.num_speakers.toNat⟩ := ⟨_, rfl⟩
    have hcount : d.speakers_.length = a.num_speakers.toNat := by
      rw [hd]
      exact List.length_take_of_le hroom
    have hstruct : d.as_c_speaker_arrangement =
        ⟨a.flags, a.num_speakers, a.speakers.take a.num_speakers.toNat⟩ := by
      rw [DynamicSpeakerArrangement.as_c_speaker_arrangement, hcount, UInt32.ofNat_toNat, hd]
    refine ⟨d, received_eq B old hd hroom h, hstruct, ?_, ?_⟩
    · intro buffer calls hcalls
      rw [DynamicSpeakerArrangement.run_call (by omega) buffer hcalls, hstruct,
        a.take_image hroom]
    · rw [a.take_image hroom, VstSpeakerArrangement.image, List.length_append, List.length_append,
        ofU32_length, ofU32_length, speakerBytes_length, List.length_take_of_le hroom]

end

/-- One speaker, and room for two as in the declared struct. -/
def oneSpeaker : VstSpeakerArrangement := ⟨5, 1, [default, default]⟩

theorem one_speaker_roundtrip : oneSpeaker.num_speakers.toNat ≤ oneSpeaker.speakers.length ∧
    ((∃ d, RoundTrips .default ⟨0, []⟩ oneSpeaker d) ↔
      oneSpeaker.num_speakers.toNat ≤ max_audio_channels) := by
  have hroom : oneSpeaker.num_speakers.toNat ≤ oneSpeaker.speakers.length := by decide
  exact ⟨hroom, speakers_roundtrip_iff .default ⟨0, []⟩ hroom⟩

/-- One speaker more than the declared maximum. -/
def manySpeakers : VstSpeakerArrangement := ⟨0, 16385, List.replicate 16385 default⟩

theorem many_speakers_not_sent : manySpeakers.num_speakers.toNat ≤ manySpeakers.speakers.length ∧
    ¬ ∃ d, RoundTrips .default ⟨0, []⟩ manySpeakers d := by
  have hroom : manySpeakers.num_speakers.toNat ≤ manySpeakers.speakers.length := by
    rw [manySpeakers, List.length_replicate]
    decide
  constructor
  · exact hroom
  · intro h
    rcases h with ⟨d, h⟩
    have hle := h.count_le .default ⟨0, []⟩ hroom
    change 16385 ≤ 16384 at hle
    omega

end Vst2
