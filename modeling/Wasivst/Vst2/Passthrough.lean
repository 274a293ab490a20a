import Wasivst.Vst2.Messages

/-!
# `passthrough_event`

The receiving side of a VST2 event, from `communication/vst2.h`: the payloads of the event become
the `data` and `value` arguments of a callback, and what the callback leaves there becomes the
payloads of the result. A pointer argument is what it points at.
-/

set_option autoImplicit false

namespace Vst2

/-- `speakers` are those that the memory behind the struct has room for. -/
structure VstSpeakerArrangement where
  flags : UInt32
  num_speakers : UInt32
  speakers : List VstSpeaker
  deriving DecidableEq

namespace DynamicSpeakerArrangement

/-- `sizeof(VstSpeakerArrangement)` counts two speakers of 112 bytes. -/
def bufferSize (speakers : UInt64) : UInt64 := 232 + (speakers - 2) * 112

/-- The struct in the object's own buffer. -/
def as_c_speaker_arrangement (d : DynamicSpeakerArrangement) : VstSpeakerArrangement where
  flags := d.flags_
  num_speakers := UInt32.ofNat d.speakers_.length
  speakers := d.speakers_

/-- The difference that wraps for fewer than two speakers does no harm. -/
theorem bufferSize_eq (speakers : UInt64) : bufferSize speakers = 8 + speakers * 112 := by
  unfold bufferSize
  grind

end DynamicSpeakerArrangement

/-! ## Arguments -/

inductive Argument
  | integer (value : UInt64)
  | string (string : List UInt8)
  | chunk (buffer : List UInt8)
  | events (events : DynamicVstEvents)
  | speakerArrangement (arrangement : VstSpeakerArrangement)
  | stringBuffer
  | ioProperties (props : VstIOProperties)
  | midiKeyName (key_name : VstMidiKeyName)
  | parameterProperties (props : VstParameterProperties)
  | patchChunkInfo (info : VstPatchChunkInfo)

/-- The second is what the first can be overwritten with in its place. -/
def Argument.SameSize : Argument → Argument → Prop
  | .integer a, .integer b => a = b
  | .string s, .string t => s.length = t.length
  | .chunk s, .chunk t => s.length = t.length
  | .events d, .events e => d.events_.length = e.events_.length
  | .speakerArrangement a, .speakerArrangement b => a.speakers.length = b.speakers.length
  | .stringBuffer, .stringBuffer => True
  | .ioProperties _, .ioProperties _ => True
  | .midiKeyName _, .midiKeyName _ => True
  | .parameterProperties _, .parameterProperties _ => True
  | .patchChunkInfo _, .patchChunkInfo _ => True
  | _, _ => False

theorem Argument.sameSize_refl (a : Argument) : a.SameSize a := by
  cases a <;> simp [SameSize]

/-- What there is when the callback has returned. `chunk` and `rect` are behind the pointer that
`data` points at, `text` is the C string at `data`, and `time_info` is behind the return value. -/
structure Outcome where
  return_value : UInt64
  plugin : AEffect
  value : Argument
  data : Argument
  chunk : List UInt8
  rect : Option VstRect
  text : List UInt8
  time_info : Option VstTimeInfo

/-- `AEffect::dispatcher()` or `audioMaster()`. It may overwrite what its pointers point at. -/
structure Callback where
  call (plugin : AEffect) (opcode index : UInt32) (value data : Argument) (option : UInt32) :
    Outcome
  value_sameSize : ∀ (plugin : AEffect) (opcode index : UInt32) (value data : Argument)
    (option : UInt32), value.SameSize (call plugin opcode index value data option).value
  data_sameSize : ∀ (plugin : AEffect) (opcode index : UInt32) (value data : Argument)
    (option : UInt32), data.SameSize (call plugin opcode index value data option).data

def read_payload_fn : Vst2Event.Payload → Argument
  | .nullptr => .integer 0
  | .string s => .string s
  | .chunkData d => .chunk d.buffer
  | .native_size_t window_handle => .integer window_handle
  | .aeffect _ => .integer 0
  | .events d => .events d
  | .speakerArrangement d => .speakerArrangement d.as_c_speaker_arrangement
  | .wantsAEffectUpdate => .integer 0
  | .wantsAudioShmBufferConfig => .integer 0
  | .wantsChunkBuffer => .stringBuffer
  | .ioProperties props => .ioProperties props
  | .midiKeyName key_name => .midiKeyName key_name
  | .parameterProperties props => .parameterProperties props
  | .patchChunkInfo info => .patchChunkInfo info
  | .wantsVstRect => .stringBuffer
  | .wantsVstTimeInfo => .integer 0
  | .wantsString => .stringBuffer

/-- The payload of the event when what its argument points at has been overwritten: only some of
the arguments are pointers into the event itself. -/
def Vst2Event.Payload.overwritten : Vst2Event.Payload → Argument → Vst2Event.Payload
  | .string _, .string s => .string s
  | .chunkData _, .chunk buffer => .chunkData ⟨buffer⟩
  | .ioProperties _, .ioProperties props => .ioProperties props
  | .midiKeyName _, .midiKeyName key_name => .midiKeyName key_name
  | .parameterProperties _, .parameterProperties props => .parameterProperties props
  | .patchChunkInfo _, .patchChunkInfo info => .patchChunkInfo info
  -- the C structs of events and speakers are in buffers that are not read again
  | payload, _ => payload

/-- The payload of the result, and `*plugin`. -/
def write_payload_fn (o : Outcome) (plugin : AEffect) :
    Vst2Event.Payload → Vst2EventResult.Payload × AEffect
  | .aeffect updated_plugin => (.nullptr, update_aeffect plugin updated_plugin)
  | .speakerArrangement d => (.speakerArrangement d, plugin)
  | .wantsAEffectUpdate => (.aeffect plugin, plugin)
  | .wantsChunkBuffer => (.chunkData ⟨o.chunk⟩, plugin)
  | .wantsVstRect => (o.rect.elim .nullptr .rect, plugin)
  | .wantsVstTimeInfo => (o.time_info.elim .nullptr .timeInfo, plugin)
  | .wantsString => (.string o.text, plugin)
  | .ioProperties props => (.ioProperties props, plugin)
  | .midiKeyName key_name => (.midiKeyName key_name, plugin)
  | .parameterProperties props => (.parameterProperties props, plugin)
  | _ => (.nullptr, plugin)

section Passthrough
variable (callback : Callback) (plugin : AEffect) (event : Vst2Event)

def outcome : Outcome :=
  callback.call plugin event.opcode event.index
    (event.value_payload.elim (.integer event.value) read_payload_fn)
    (read_payload_fn event.payload) event.option

/-- The result, and the plugin's `AEffect` afterwards. -/
def passthrough_event : Vst2EventResult × AEffect :=
  let o := outcome callback plugin event
  let response := write_payload_fn o o.plugin (event.payload.overwritten o.data)
  let value_response := event.value_payload.map fun payload =>
    write_payload_fn o response.2 (payload.overwritten o.value)
  (⟨o.return_value, response.1, value_response.map Prod.fst⟩,
    value_response.elim response.2 Prod.snd)

/-- The payload holds the contents that were written, where it is one of the four types. -/
def Contents (payload : Vst2EventResult.Payload) : Argument → Prop
  | .ioProperties props => payload = .ioProperties props
  | .midiKeyName key_name => payload = .midiKeyName key_name
  | .parameterProperties props => payload = .parameterProperties props
  | .speakerArrangement a =>
    ∃ d, payload = .speakerArrangement d ∧ d.as_c_speaker_arrangement = a
  | _ => True

structure ReturnsWritten : Prop where
  payload : Contents (passthrough_event callback plugin event).1.payload
    (outcome callback plugin event).data
  value_payload : event.value_payload.isSome →
    ∃ payload, (passthrough_event callback plugin event).1.value_payload = some payload ∧
      Contents payload (outcome callback plugin event).value

end Passthrough

section Payloads
variable (o : Outcome) (plugin : AEffect)

/-- The object that the callback wrote to is the one that is read back. -/
theorem contents_in_place {payload : Vst2Event.Payload} {written : Argument}
    (hp : ∀ d, payload ≠ .speakerArrangement d)
    (h : (read_payload_fn payload).SameSize written) :
    Contents (write_payload_fn o plugin (payload.overwritten written)).1 written := by
  cases payload with
  | speakerArrangement d => exact absurd rfl (hp d)
  | ioProperties props => cases written <;> first | rfl | exact absurd h not_false
  | midiKeyName key_name => cases written <;> first | rfl | exact absurd h not_false
  | parameterProperties props => cases written <;> first | rfl | exact absurd h not_false
  | _ => cases written <;> trivial

/-- What the callback wrote is in the struct; the two vectors still hold what was sent. -/
theorem contents_speakerArrangement (d : DynamicSpeakerArrangement) {written : Argument}
    (h : (read_payload_fn (.speakerArrangement d)).SameSize written) :
    Contents (write_payload_fn o plugin
      (Vst2Event.Payload.overwritten (.speakerArrangement d) written)).1 written ↔
      written = .speakerArrangement d.as_c_speaker_arrangement := by
  cases written with
  | speakerArrangement a =>
    constructor
    · rintro ⟨d', hd, ha⟩
      obtain rfl : d = d' := Vst2EventResult.Payload.speakerArrangement.inj hd
      rw [ha]
    · intro ha
      exact ⟨d, rfl, (Argument.speakerArrangement.inj ha).symm⟩
  | _ => exact absurd h not_false

theorem contents_iff {payload : Vst2Event.Payload} {written : Argument}
    (h : (read_payload_fn payload).SameSize written) :
    Contents (write_payload_fn o plugin (payload.overwritten written)).1 written ↔
      ∀ d, payload = .speakerArrangement d →
        written = .speakerArrangement d.as_c_speaker_arrangement := by
  by_cases hp : ∃ d, payload = .speakerArrangement d
  · obtain ⟨d, rfl⟩ := hp
    rw [contents_speakerArrangement o plugin d h]
    constructor
    · intro hw d' hd
      rw [← Vst2Event.Payload.speakerArrangement.inj hd]
      exact hw
    · intro hw
      exact hw d rfl
  · have hne : ∀ d, payload ≠ .speakerArrangement d := fun d hd => hp ⟨d, hd⟩
    constructor
    · intro _ d hd
      exact absurd hd (hne d)
    · intro _
      exact contents_in_place o plugin hne h

end Payloads

section Result
variable (callback : Callback) (plugin : AEffect) (event : Vst2Event)

/-- The callback leaves the C structs of speakers as they were. -/
structure KeepsSpeakers : Prop where
  payload : ∀ d, event.payload = .speakerArrangement d →
    (outcome callback plugin event).data = .speakerArrangement d.as_c_speaker_arrangement
  value_payload : ∀ d, event.value_payload = some (.speakerArrangement d) →
    (outcome callback plugin event).value = .speakerArrangement d.as_c_speaker_arrangement

theorem payload_contents_iff :
    Contents (passthrough_event callback plugin event).1.payload
        (outcome callback plugin event).data ↔
      ∀ d, event.payload = .speakerArrangement d →
        (outcome callback plugin event).data = .speakerArrangement d.as_c_speaker_arrangement := by
  apply contents_iff
  apply callback.data_sameSize

theorem value_payload_contents_iff {payload : Vst2Event.Payload}
    (hv : event.value_payload = some payload) :
    (∃ p, (passthrough_event callback plugin event).1.value_payload = some p ∧
        Contents p (outcome callback plugin event).value) ↔
      ∀ d, payload = .speakerArrangement d →
        (outcome callback plugin event).value = .speakerArrangement d.as_c_speaker_arrangement := by
  let o := outcome callback plugin event
  have hsize : (read_payload_fn payload).SameSize o.value := by
    have h := callback.value_sameSize plugin event.opcode event.index
      (event.value_payload.elim (.integer event.value) read_payload_fn)
      (read_payload_fn event.payload) event.option
    rw [hv] at h
    simpa [o, outcome, hv] using h
  have hresult : (passthrough_event callback plugin event).1.value_payload =
      some (write_payload_fn o (write_payload_fn o o.plugin
        (event.payload.overwritten o.data)).2 (payload.overwritten o.value)).1 := by
    simp [passthrough_event, hv, o]
  rw [hresult]
  constructor
  · rintro ⟨p, hp, hc⟩
    obtain rfl := Option.some.inj hp
    exact (contents_iff _ _ hsize).mp hc
  · intro h
    exact ⟨_, rfl, (contents_iff _ _ hsize).mpr h⟩

theorem passthrough_returnsWritten_iff :
    ReturnsWritten callback plugin event ↔ KeepsSpeakers callback plugin event := by
  constructor
  · intro h
    refine ⟨(payload_contents_iff callback plugin event).mp h.payload, ?_⟩
    intro d hd
    have hvalue := h.value_payload (Option.isSome_iff_exists.mpr ⟨_, hd⟩)
    exact (value_payload_contents_iff callback plugin event hd).mp hvalue d rfl
  · intro h
    refine ⟨(payload_contents_iff callback plugin event).mpr h.payload, ?_⟩
    intro hsome
    obtain ⟨payload, hv⟩ := Option.isSome_iff_exists.mp hsome
    apply (value_payload_contents_iff callback plugin event hv).mpr
    rintro d rfl
    exact h.value_payload d hv

end Result

/-! ## `effGetSpeakerArrangement` -/

/-- A plugin that sets the flags of the speaker arrangement at `data`. -/
def setsFlags : Callback where
  call plugin _ _ value data _ :=
    { return_value := 1
      plugin := plugin
      value := value
      data := match data with
        | .speakerArrangement a => .speakerArrangement { a with flags := 1 }
        | data => data
      chunk := []
      rect := none
      text := []
      time_info := none }
  value_sameSize := by
    intro plugin opcode index value data option
    exact value.sameSize_refl
  data_sameSize := by
    intro plugin opcode index value data option
    cases data with
    | speakerArrangement a => rfl
    | _ => exact Argument.sameSize_refl _

def getsSpeakerArrangement : Vst2Event where
  opcode := 69
  index := 0
  value := 0
  option := 0
  payload := .speakerArrangement ⟨0, [default]⟩
  value_payload := some (.speakerArrangement ⟨0, [default]⟩)

theorem speakerArrangement_not_returned :
    ¬ ∀ (callback : Callback) (plugin : AEffect) (event : Vst2Event),
      ReturnsWritten callback plugin event := by
  intro h
  obtain ⟨d, hd, ha⟩ := (h setsFlags default getsSpeakerArrangement).payload
  obtain rfl : ⟨0, [default]⟩ = d := Vst2EventResult.Payload.speakerArrangement.inj hd
  exact absurd (congrArg VstSpeakerArrangement.flags ha) (by decide)

end Vst2
