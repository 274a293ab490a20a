import Wasivst.Vst2.Events
import Wasivst.AudioShm

/-!
# VST2 dispatch messages

`Vst2Event` and `Vst2EventResult` of `serialization/vst2.h` with everything they can carry, and
the two ways of copying an `AEffect`. Integers and floating point numbers are kept as words,
pointers as addresses.
-/

set_option autoImplicit false

namespace Vst2
open InPlace

/-! ## `AEffect` -/

structure AEffect where
  magic : UInt32
  dispatcher : UInt64
  process : UInt64
  setParameter : UInt64
  getParameter : UInt64
  numPrograms : UInt32
  numParams : UInt32
  numInputs : UInt32
  numOutputs : UInt32
  flags : UInt32
  ptr1 : UInt64
  ptr2 : UInt64
  initialDelay : UInt32
  empty3a : UInt32
  empty3b : UInt32
  unkown_float : UInt32
  ptr3 : UInt64
  user : UInt64
  uniqueID : UInt32
  version : UInt32
  processReplacing : UInt64
  processDoubleReplacing : UInt64
  deriving DecidableEq, Inhabited

namespace AEffect

def serialize (B : Bitsery) : Codec AEffect :=
  .record
    [.field (·.magic) (fun p v => { p with magic := v }) B.value4b,
     .field (·.numPrograms) (fun p v => { p with numPrograms := v }) B.value4b,
     .field (·.numParams) (fun p v => { p with numParams := v }) B.value4b,
     .field (·.numInputs) (fun p v => { p with numInputs := v }) B.value4b,
     .field (·.numOutputs) (fun p v => { p with numOutputs := v }) B.value4b,
     .field (·.flags) (fun p v => { p with flags := v }) B.value4b,
     .field (·.initialDelay) (fun p v => { p with initialDelay := v }) B.value4b,
     .field (·.empty3a) (fun p v => { p with empty3a := v }) B.value4b,
     .field (·.empty3b) (fun p v => { p with empty3b := v }) B.value4b,
     .field (·.unkown_float) (fun p v => { p with unkown_float := v }) B.value4b,
     .field (·.uniqueID) (fun p v => { p with uniqueID := v }) B.value4b,
     .field (·.version) (fun p v => { p with version := v }) B.value4b]

/-- The fields that are sent. -/
def values (p : AEffect) : List UInt32 :=
  [p.magic, p.numPrograms, p.numParams, p.numInputs, p.numOutputs, p.flags, p.initialDelay,
    p.empty3a, p.empty3b, p.unkown_float, p.uniqueID, p.version]

def pointers (p : AEffect) : List UInt64 :=
  [p.dispatcher, p.process, p.setParameter, p.getParameter, p.ptr1, p.ptr2, p.ptr3, p.user,
    p.processReplacing, p.processDoubleReplacing]

end AEffect

def update_aeffect (plugin updated_plugin : AEffect) : AEffect :=
  { plugin with
    magic := updated_plugin.magic
    numPrograms := updated_plugin.numPrograms
    numParams := updated_plugin.numParams
    numInputs := updated_plugin.numInputs
    numOutputs := updated_plugin.numOutputs
    flags := updated_plugin.flags
    initialDelay := updated_plugin.initialDelay
    empty3a := updated_plugin.empty3a
    empty3b := updated_plugin.empty3b
    unkown_float := updated_plugin.unkown_float
    uniqueID := updated_plugin.uniqueID
    version := updated_plugin.version }

/-- The two hand-written lists of fields are the same. -/
theorem AEffect.serialize_put (B : Bitsery) (old p : AEffect) :
    (serialize B).put old p = update_aeffect old p := by
  cases old
  cases p
  rfl

@[simp] theorem AEffect.serialize_fits (B : Bitsery) (p : AEffect) :
    (serialize B).fits p = true := by
  simp [serialize]

@[simp] theorem values_update_aeffect (a b : AEffect) :
    (update_aeffect a b).values = b.values := rfl

@[simp] theorem pointers_update_aeffect (a b : AEffect) :
    (update_aeffect a b).pointers = a.pointers := rfl

/-! ## The other structs of the VST2 headers -/

structure VstIOProperties where
  data : Vector UInt8 128
  deriving DecidableEq, Inhabited

structure VstMidiKeyName where
  data : Vector UInt8 80
  deriving DecidableEq, Inhabited

structure VstParameterProperties where
  stepFloat : UInt32
  smallStepFloat : UInt32
  largeStepFloat : UInt32
  label : Vector UInt8 64
  flags : UInt32
  minInteger : UInt32
  maxInteger : UInt32
  stepInteger : UInt32
  largeStepInteger : UInt32
  shortLabel : Vector UInt8 8
  displayIndex : UInt16
  category : UInt16
  numParametersInCategory : UInt16
  reserved : UInt16
  categoryLabel : Vector UInt8 24
  future : Vector UInt8 16
  deriving DecidableEq, Inhabited

structure VstPatchChunkInfo where
  version : UInt32
  pluginUniqueID : UInt32
  pluginVersion : UInt32
  numElements : UInt32
  future : Vector UInt8 48
  deriving DecidableEq, Inhabited

structure VstRect where
  top : UInt16
  left : UInt16
  right : UInt16
  bottom : UInt16
  deriving DecidableEq, Inhabited

structure VstTimeInfo where
  samplePos : UInt64
  sampleRate : UInt64
  nanoSeconds : UInt64
  ppqPos : UInt64
  tempo : UInt64
  barStartPos : UInt64
  cycleStartPos : UInt64
  cycleEndPos : UInt64
  timeSigNumerator : UInt32
  timeSigDenominator : UInt32
  empty3 : Vector UInt8 12
  flags : UInt32
  deriving DecidableEq, Inhabited

section Structs
variable (B : Bitsery)

def VstIOProperties.serialize : Codec VstIOProperties :=
  .record [.field (·.data) (fun p v => { p with data := v }) (B.array1b 128)]

@[simp] theorem VstIOProperties.serialize_put (old p : VstIOProperties) :
    (serialize B).put old p = p := rfl

@[simp] theorem VstIOProperties.serialize_fits (p : VstIOProperties) :
    (serialize B).fits p = true := by
  simp [serialize]

def VstMidiKeyName.serialize : Codec VstMidiKeyName :=
  .record [.field (·.data) (fun p v => { p with data := v }) (B.array1b 80)]

@[simp] theorem VstMidiKeyName.serialize_put (old p : VstMidiKeyName) :
    (serialize B).put old p = p := rfl

@[simp] theorem VstMidiKeyName.serialize_fits (p : VstMidiKeyName) :
    (serialize B).fits p = true := by
  simp [serialize]

def VstParameterProperties.serialize : Codec VstParameterProperties :=
  .record
    [.field (·.stepFloat) (fun p v => { p with stepFloat := v }) B.value4b,
     .field (·.smallStepFloat) (fun p v => { p with smallStepFloat := v }) B.value4b,
     .field (·.largeStepFloat) (fun p v => { p with largeStepFloat := v }) B.value4b,
     .field (·.label) (fun p v => { p with label := v }) (B.array1b 64),
     .field (·.flags) (fun p v => { p with flags := v }) B.value4b,
     .field (·.minInteger) (fun p v => { p with minInteger := v }) B.value4b,
     .field (·.maxInteger) (fun p v => { p with maxInteger := v }) B.value4b,
     .field (·.stepInteger) (fun p v => { p with stepInteger := v }) B.value4b,
     .field (·.largeStepInteger) (fun p v => { p with largeStepInteger := v }) B.value4b,
     .field (·.shortLabel) (fun p v => { p with shortLabel := v }) (B.array1b 8),
     .field (·.displayIndex) (fun p v => { p with displayIndex := v }) B.value2b,
     .field (·.category) (fun p v => { p with category := v }) B.value2b,
     .field (·.numParametersInCategory) (fun p v => { p with numParametersInCategory := v })
       B.value2b,
     .field (·.reserved) (fun p v => { p with reserved := v }) B.value2b,
     .field (·.categoryLabel) (fun p v => { p with categoryLabel := v }) (B.array1b 24),
     .field (·.future) (fun p v => { p with future := v }) (B.array1b 16)]

@[simp] theorem VstParameterProperties.serialize_put (old p : VstParameterProperties) :
    (serialize B).put old p = p := by
  cases p
  rfl

@[simp] theorem VstParameterProperties.serialize_fits (p : VstParameterProperties) :
    (serialize B).fits p = true := by
  simp [serialize]

def VstPatchChunkInfo.serialize : Codec VstPatchChunkInfo :=
  .record
    [.field (·.version) (fun p v => { p with version := v }) B.value4b,
     .field (·.pluginUniqueID) (fun p v => { p with pluginUniqueID := v }) B.value4b,
     .field (·.pluginVersion) (fun p v => { p with pluginVersion := v }) B.value4b,
     .field (·.numElements) (fun p v => { p with numElements := v }) B.value4b,
     .field (·.future) (fun p v => { p with future := v }) (B.array1b 48)]

@[simp] theorem VstPatchChunkInfo.serialize_put (old p : VstPatchChunkInfo) :
    (serialize B).put old p = p := by
  cases p
  rfl

@[simp] theorem VstPatchChunkInfo.serialize_fits (p : VstPatchChunkInfo) :
    (serialize B).fits p = true := by
  simp [serialize]

def VstRect.serialize : Codec VstRect :=
  .record
    [.field (·.top) (fun p v => { p with top := v }) B.value2b,
     .field (·.left) (fun p v => { p with left := v }) B.value2b,
     .field (·.right) (fun p v => { p with right := v }) B.value2b,
     .field (·.bottom) (fun p v => { p with bottom := v }) B.value2b]

@[simp] theorem VstRect.serialize_put (old p : VstRect) : (serialize B).put old p = p := by
  cases p
  rfl

@[simp] theorem VstRect.serialize_fits (p : VstRect) : (serialize B).fits p = true := by
  simp [serialize]

def VstTimeInfo.serialize : Codec VstTimeInfo :=
  .record
    [.field (·.samplePos) (fun p v => { p with samplePos := v }) B.value8b,
     .field (·.sampleRate) (fun p v => { p with sampleRate := v }) B.value8b,
     .field (·.nanoSeconds) (fun p v => { p with nanoSeconds := v }) B.value8b,
     .field (·.ppqPos) (fun p v => { p with ppqPos := v }) B.value8b,
     .field (·.tempo) (fun p v => { p with tempo := v }) B.value8b,
     .field (·.barStartPos) (fun p v => { p with barStartPos := v }) B.value8b,
     .field (·.cycleStartPos) (fun p v => { p with cycleStartPos := v }) B.value8b,
     .field (·.cycleEndPos) (fun p v => { p with cycleEndPos := v }) B.value8b,
     .field (·.timeSigNumerator) (fun p v => { p with timeSigNumerator := v }) B.value4b,
     .field (·.timeSigDenominator) (fun p v => { p with timeSigDenominator := v }) B.value4b,
     .field (·.empty3) (fun p v => { p with empty3 := v }) (B.array1b 12),
     .field (·.flags) (fun p v => { p with flags := v }) B.value4b]

@[simp] theorem VstTimeInfo.serialize_put (old p : VstTimeInfo) :
    (serialize B).put old p = p := by
  cases p
  rfl

@[simp] theorem VstTimeInfo.serialize_fits (p : VstTimeInfo) : (serialize B).fits p = true := by
  simp [serialize]

/-! ## Wrappers with a variable length -/

def max_audio_channels : Nat := 16384

def max_string_length : Nat := 64

def binary_buffer_size : Nat := 50 * 2 ^ 20

structure ChunkData where
  buffer : List UInt8
  deriving DecidableEq

def ChunkData.serialize : Codec ChunkData :=
  .record [.field (·.buffer) (fun d v => { d with buffer := v })
    (B.container binary_buffer_size 0 B.value1b)]

@[simp] theorem ChunkData.serialize_put (old d : ChunkData) : (serialize B).put old d = d := by
  have hvalue : B.value1b.Overwrites := B.value1b_put
  simp only [serialize, Codec.record_cons_put, Codec.record_nil_put, Codec.field_put,
    Bitsery.container_put, Codec.putList_eq _ _ hvalue]

def ChunkData.Bounded (d : ChunkData) : Prop := d.buffer.length ≤ binary_buffer_size

theorem ChunkData.serialize_fits (d : ChunkData) : (serialize B).fits d ↔ d.Bounded := by
  have hmax : binary_buffer_size < 2 ^ 30 := by decide
  simp [serialize, B.container_fits _ _ hmax, Bounded]

structure VstSpeaker where
  data : Vector UInt8 112
  deriving DecidableEq, Inhabited

def VstSpeaker.serialize : Codec VstSpeaker :=
  .record [.field (·.data) (fun p v => { p with data := v }) (B.array1b 112)]

structure DynamicSpeakerArrangement where
  flags_ : UInt32
  speakers_ : List VstSpeaker
  deriving DecidableEq

def DynamicSpeakerArrangement.serialize : Codec DynamicSpeakerArrangement :=
  .record
    [.field (·.flags_) (fun d v => { d with flags_ := v }) B.value4b,
     .field (·.speakers_) (fun d v => { d with speakers_ := v })
       (B.container max_audio_channels default (VstSpeaker.serialize B))]

@[simp] theorem DynamicSpeakerArrangement.serialize_put (old d : DynamicSpeakerArrangement) :
    (serialize B).put old d = d := by
  have hspeaker : (VstSpeaker.serialize B).Overwrites := fun _ _ => rfl
  simp only [serialize, Codec.record_cons_put, Codec.record_nil_put, Codec.field_put,
    Bitsery.container_put, Codec.putList_eq _ _ hspeaker, Bitsery.value4b_put]

def DynamicSpeakerArrangement.Bounded (d : DynamicSpeakerArrangement) : Prop :=
  d.speakers_.length ≤ max_audio_channels

theorem DynamicSpeakerArrangement.serialize_fits (d : DynamicSpeakerArrangement) :
    (serialize B).fits d ↔ d.Bounded := by
  have hmax : max_audio_channels < 2 ^ 30 := by decide
  simp [serialize, B.container_fits _ _ hmax, Bounded, VstSpeaker.serialize]

structure DynamicVstEvents.Bounded (d : DynamicVstEvents) : Prop where
  events : d.events_.length ≤ max_midi_events
  sysex : d.sysex_data_.length ≤ max_midi_events
  data : ∀ p ∈ d.sysex_data_, p.2.length ≤ max_buffer_size

/-! ## `Vst2EventResult` -/

inductive Vst2EventResult.Payload
  | nullptr
  | string (string : List UInt8)
  | aeffect (plugin : AEffect)
  | audioShmBufferConfig (config : AudioShmBufferConfig)
  | chunkData (data : ChunkData)
  | speakerArrangement (arrangement : DynamicSpeakerArrangement)
  | ioProperties (props : VstIOProperties)
  | midiKeyName (key_name : VstMidiKeyName)
  | parameterProperties (props : VstParameterProperties)
  | rect (rect : VstRect)
  | timeInfo (time_info : VstTimeInfo)

structure Vst2EventResult where
  return_value : UInt64
  payload : Vst2EventResult.Payload
  value_payload : Option Vst2EventResult.Payload

namespace Vst2EventResult

def Payload.alternatives : List (Alt Payload) :=
  [Bitsery.alternative (fun | .nullptr => some () | _ => none) (fun _ => .nullptr) () true .nil,
   Bitsery.alternative (fun | .string s => some s | _ => none) .string [] false
     (B.text1b max_string_length),
   Bitsery.alternative (fun | .aeffect p => some p | _ => none) .aeffect default true
     (AEffect.serialize B),
   Bitsery.alternative (fun | .audioShmBufferConfig c => some c | _ => none)
     .audioShmBufferConfig ⟨[], 0, [], []⟩ false (AudioShmBufferConfig.serialize B),
   Bitsery.alternative (fun | .chunkData d => some d | _ => none) .chunkData ⟨[]⟩ false
     (ChunkData.serialize B),
   Bitsery.alternative (fun | .speakerArrangement d => some d | _ => none)
     .speakerArrangement ⟨0, []⟩ false (DynamicSpeakerArrangement.serialize B),
   Bitsery.alternative (fun | .ioProperties p => some p | _ => none) .ioProperties default true
     (VstIOProperties.serialize B),
   Bitsery.alternative (fun | .midiKeyName p => some p | _ => none) .midiKeyName default true
     (VstMidiKeyName.serialize B),
   Bitsery.alternative (fun | .parameterProperties p => some p | _ => none)
     .parameterProperties default true (VstParameterProperties.serialize B),
   Bitsery.alternative (fun | .rect r => some r | _ => none) .rect default true
     (VstRect.serialize B),
   Bitsery.alternative (fun | .timeInfo t => some t | _ => none) .timeInfo default true
     (VstTimeInfo.serialize B)]

def serialize : Codec Vst2EventResult :=
  .record
    [.field (·.return_value) (fun r v => { r with return_value := v }) B.value8b,
     .field (·.payload) (fun r v => { r with payload := v })
       (B.inPlaceVariant (Payload.alternatives B)),
     .field (·.value_payload) (fun r v => { r with value_payload := v })
       (B.inPlaceOptional .nullptr false (B.inPlaceVariant (Payload.alternatives B)))]

/-- What a payload becomes: the pointers of an `AEffect` are those of a new object. -/
def Payload.sent : Payload → Payload
  | .aeffect p => .aeffect (update_aeffect default p)
  | p => p

theorem Payload.alternatives_put (old p : Payload) :
    Codec.putAlts (Payload.alternatives B) old p = p.sent := by
  cases p <;>
    simp [Payload.alternatives, Codec.putAlts, Bitsery.alternative, Alt.put, Codec.start,
      Payload.sent, Codec.nil, AEffect.serialize_put]

/-- The declared maxima of the wrappers with a variable length. -/
def Payload.Bounded : Payload → Prop
  | .string s => s.length ≤ max_string_length
  | .audioShmBufferConfig c => c.Bounded
  | .chunkData d => d.Bounded
  | .speakerArrangement d => d.Bounded
  | _ => True

theorem Payload.alternatives_fits {p : Payload} (h : p.Bounded) :
    Codec.fitsAlts B.primSize 0 (Payload.alternatives B) p := by
  have hstring : max_string_length < 2 ^ 30 := by decide
  cases p with
  | string s =>
    have hs : s.length ≤ max_string_length := h
    simp [Payload.alternatives, Codec.fitsAlts, Bitsery.alternative, B.fitsSize,
      B.text1b_fits hstring, hs]
  | audioShmBufferConfig c =>
    have hc := AudioShmBufferConfig.serialize_fits B h
    simp [Payload.alternatives, Codec.fitsAlts, Bitsery.alternative, B.fitsSize, hc]
  | chunkData d =>
    have hd := (ChunkData.serialize_fits B d).mpr h
    simp [Payload.alternatives, Codec.fitsAlts, Bitsery.alternative, B.fitsSize, hd]
  | speakerArrangement d =>
    have hd := (DynamicSpeakerArrangement.serialize_fits B d).mpr h
    simp [Payload.alternatives, Codec.fitsAlts, Bitsery.alternative, B.fitsSize, hd]
  | _ =>
    simp [Payload.alternatives, Codec.fitsAlts, Bitsery.alternative, B.fitsSize, Codec.nil]

/-- The same alternative with the same values in everything that is sent. -/
def Payload.SameContent : Payload → Payload → Prop
  | .aeffect p, .aeffect q => p.values = q.values
  | p, q => p = q

theorem Payload.sent_sameContent (p : Payload) : p.sent.SameContent p := by
  cases p with
  | aeffect p => exact values_update_aeffect default p
  | _ => rfl

structure SameContent (y r : Vst2EventResult) : Prop where
  return_value : y.return_value = r.return_value
  payload : y.payload.SameContent r.payload
  value_payload : Option.Rel Payload.SameContent y.value_payload r.value_payload

structure Bounded (r : Vst2EventResult) : Prop where
  payload : r.payload.Bounded
  value_payload : ∀ p ∈ r.value_payload, p.Bounded

theorem serialize_put (old r : Vst2EventResult) : (serialize B).put old r =
    { r with payload := r.payload.sent, value_payload := r.value_payload.map Payload.sent } := by
  have hput : ∀ q, (B.inPlaceVariant (Payload.alternatives B)).put q = Payload.sent := fun q =>
    funext (Payload.alternatives_put B q)
  simp [serialize, hput, Payload.alternatives_put]

theorem serialize_fits {r : Vst2EventResult} (h : r.Bounded) : (serialize B).fits r := by
  have hvalue := fun p hp => Payload.alternatives_fits B (h.value_payload p hp)
  simpa [serialize, Payload.alternatives_fits B h.payload, Option.all_eq_true] using hvalue

theorem put_sameContent (old r : Vst2EventResult) :
    ((serialize B).put old r).SameContent r := by
  rw [serialize_put]
  refine ⟨rfl, r.payload.sent_sameContent, ?_⟩
  cases r.value_payload with
  | none => exact .none
  | some p => exact .some p.sent_sameContent

end Vst2EventResult

/-! ## `Vst2Event` -/

inductive Vst2Event.Payload
  | nullptr
  | string (string : List UInt8)
  | native_size_t (window_handle : UInt64)
  | aeffect (plugin : AEffect)
  | chunkData (data : ChunkData)
  | events (events : DynamicVstEvents)
  | speakerArrangement (arrangement : DynamicSpeakerArrangement)
  | wantsAEffectUpdate
  | wantsAudioShmBufferConfig
  | wantsChunkBuffer
  | ioProperties (props : VstIOProperties)
  | midiKeyName (key_name : VstMidiKeyName)
  | parameterProperties (props : VstParameterProperties)
  | patchChunkInfo (info : VstPatchChunkInfo)
  | wantsVstRect
  | wantsVstTimeInfo
  | wantsString

structure Vst2Event where
  opcode : UInt32
  index : UInt32
  value : UInt64
  option : UInt32
  payload : Vst2Event.Payload
  value_payload : Option Vst2Event.Payload

namespace Vst2Event

def Payload.alternatives : List (Alt Payload) :=
  [Bitsery.alternative (fun | .nullptr => some () | _ => none) (fun _ => .nullptr) () true .nil,
   Bitsery.alternative (fun | .string s => some s | _ => none) .string [] false
     (B.text1b max_string_length),
   Bitsery.alternative (fun | .native_size_t w => some w | _ => none) .native_size_t 0 true
     B.value8b,
   Bitsery.alternative (fun | .aeffect p => some p | _ => none) .aeffect default true
     (AEffect.serialize B),
   Bitsery.alternative (fun | .chunkData d => some d | _ => none) .chunkData ⟨[]⟩ false
     (ChunkData.serialize B),
   Bitsery.alternative (fun | .events d => some d | _ => none) .events ⟨[], []⟩ false
     (DynamicVstEvents.serialize B),
   Bitsery.alternative (fun | .speakerArrangement d => some d | _ => none)
     .speakerArrangement ⟨0, []⟩ false (DynamicSpeakerArrangement.serialize B),
   Bitsery.alternative (fun | .wantsAEffectUpdate => some () | _ => none)
     (fun _ => .wantsAEffectUpdate) () true .nil,
   Bitsery.alternative (fun | .wantsAudioShmBufferConfig => some () | _ => none)
     (fun _ => .wantsAudioShmBufferConfig) () true .nil,
   Bitsery.alternative (fun | .wantsChunkBuffer => some () | _ => none)
     (fun _ => .wantsChunkBuffer) () true .nil,
   Bitsery.alternative (fun | .ioProperties p => some p | _ => none) .ioProperties default true
     (VstIOProperties.serialize B),
   Bitsery.alternative (fun | .midiKeyName p => some p | _ => none) .midiKeyName default true
     (VstMidiKeyName.serialize B),
   Bitsery.alternative (fun | .parameterProperties p => some p | _ => none)
     .parameterProperties default true (VstParameterProperties.serialize B),
   Bitsery.alternative (fun | .patchChunkInfo p => some p | _ => none) .patchChunkInfo default true
     (VstPatchChunkInfo.serialize B),
   Bitsery.alternative (fun | .wantsVstRect => some () | _ => none)
     (fun _ => .wantsVstRect) () true .nil,
   Bitsery.alternative (fun | .wantsVstTimeInfo => some () | _ => none)
     (fun _ => .wantsVstTimeInfo) () true .nil,
   Bitsery.alternative (fun | .wantsString => some () | _ => none)
     (fun _ => .wantsString) () true .nil]

def serialize : Codec Vst2Event :=
  .record
    [.field (·.opcode) (fun e v => { e with opcode := v }) B.value4b,
     .field (·.index) (fun e v => { e with index := v }) B.value4b,
     .field (·.value) (fun e v => { e with value := v }) B.value8b,
     .field (·.option) (fun e v => { e with option := v }) B.value4b,
     .field (·.payload) (fun e v => { e with payload := v })
       (B.inPlaceVariant (Payload.alternatives B)),
     .field (·.value_payload) (fun e v => { e with value_payload := v })
       (B.inPlaceOptional .nullptr false (B.inPlaceVariant (Payload.alternatives B)))]

/-- What a payload becomes: the pointers of an `AEffect` are those of a new object. -/
def Payload.sent : Payload → Payload
  | .aeffect p => .aeffect (update_aeffect default p)
  | p => p

theorem Payload.alternatives_put (old p : Payload) :
    Codec.putAlts (Payload.alternatives B) old p = p.sent := by
  cases p <;>
    simp [Payload.alternatives, Codec.putAlts, Bitsery.alternative, Alt.put, Codec.start,
      Payload.sent, Codec.nil, AEffect.serialize_put, DynamicVstEvents.serialize_put]

/-- The declared maxima of the wrappers with a variable length. -/
def Payload.Bounded : Payload → Prop
  | .string s => s.length ≤ max_string_length
  | .chunkData d => d.Bounded
  | .events d => d.Bounded
  | .speakerArrangement d => d.Bounded
  | _ => True

theorem Payload.alternatives_fits {p : Payload} (h : p.Bounded) :
    Codec.fitsAlts B.primSize 0 (Payload.alternatives B) p := by
  have hstring : max_string_length < 2 ^ 30 := by decide
  cases p with
  | string s =>
    have hs : s.length ≤ max_string_length := h
    simp [Payload.alternatives, Codec.fitsAlts, Bitsery.alternative, B.fitsSize,
      B.text1b_fits hstring, hs]
  | chunkData d =>
    have hd := (ChunkData.serialize_fits B d).mpr h
    simp [Payload.alternatives, Codec.fitsAlts, Bitsery.alternative, B.fitsSize, hd]
  | events d =>
    have hd := (DynamicVstEvents.serialize_fits B d).mpr ⟨h.events, h.sysex, h.data⟩
    simp [Payload.alternatives, Codec.fitsAlts, Bitsery.alternative, B.fitsSize, hd]
  | speakerArrangement d =>
    have hd := (DynamicSpeakerArrangement.serialize_fits B d).mpr h
    simp [Payload.alternatives, Codec.fitsAlts, Bitsery.alternative, B.fitsSize, hd]
  | _ =>
    simp [Payload.alternatives, Codec.fitsAlts, Bitsery.alternative, B.fitsSize, Codec.nil]

/-- The same alternative with the same values in everything that is sent. -/
def Payload.SameContent : Payload → Payload → Prop
  | .aeffect p, .aeffect q => p.values = q.values
  | p, q => p = q

theorem Payload.sent_sameContent (p : Payload) : p.sent.SameContent p := by
  cases p with
  | aeffect p => exact values_update_aeffect default p
  | _ => rfl

structure SameContent (y e : Vst2Event) : Prop where
  opcode : y.opcode = e.opcode
  index : y.index = e.index
  value : y.value = e.value
  option : y.option = e.option
  payload : y.payload.SameContent e.payload
  value_payload : Option.Rel Payload.SameContent y.value_payload e.value_payload

structure Bounded (e : Vst2Event) : Prop where
  payload : e.payload.Bounded
  value_payload : ∀ p ∈ e.value_payload, p.Bounded

theorem serialize_put (old e : Vst2Event) : (serialize B).put old e =
    { e with payload := e.payload.sent, value_payload := e.value_payload.map Payload.sent } := by
  have hput : ∀ q, (B.inPlaceVariant (Payload.alternatives B)).put q = Payload.sent := fun q =>
    funext (Payload.alternatives_put B q)
  simp [serialize, hput, Payload.alternatives_put]

theorem serialize_fits {e : Vst2Event} (h : e.Bounded) : (serialize B).fits e := by
  have hvalue := fun p hp => Payload.alternatives_fits B (h.value_payload p hp)
  simpa [serialize, Payload.alternatives_fits B h.payload, Option.all_eq_true] using hvalue

theorem put_sameContent (old e : Vst2Event) : ((serialize B).put old e).SameContent e := by
  rw [serialize_put]
  refine ⟨rfl, rfl, rfl, rfl, e.payload.sent_sameContent, ?_⟩
  cases e.value_payload with
  | none => exact .none
  | some p => exact .some p.sent_sameContent

end Vst2Event
end Structs

/-- Whatever the object held before, it ends up with the content of the message. -/
theorem dispatch_messages_roundtrip (B : Bitsery) :
    (∀ old e : Vst2Event, e.Bounded →
      ∃ y, (Vst2Event.serialize B).decode old ((Vst2Event.serialize B).write e) = some y ∧
        y.SameContent e) ∧
    (∀ old r : Vst2EventResult, r.Bounded →
      ∃ y, (Vst2EventResult.serialize B).decode old ((Vst2EventResult.serialize B).write r) =
          some y ∧ y.SameContent r) ∧
    ∀ a b : AEffect,
      (AEffect.serialize B).decode a ((AEffect.serialize B).write b) =
          some (update_aeffect a b) ∧
        (update_aeffect a b).values = b.values ∧
        (update_aeffect a b).pointers = a.pointers := by
  refine ⟨?_, ?_, ?_⟩
  · intro old e he
    have hfits := Vst2Event.serialize_fits B he
    exact ⟨_, Codec.decode_write _ old hfits, Vst2Event.put_sameContent B old e⟩
  · intro old r hr
    have hfits := Vst2EventResult.serialize_fits B hr
    exact ⟨_, Codec.decode_write _ old hfits, Vst2EventResult.put_sameContent B old r⟩
  · intro a b
    refine ⟨?_, rfl, rfl⟩
    rw [Codec.decode_write _ a (AEffect.serialize_fits B b), AEffect.serialize_put]

theorem dispatch_messages_roundtrip_string :
    ∃ y, (Vst2Event.serialize .default).decode ⟨0, 0, 0, 0, .aeffect default, none⟩
        ((Vst2Event.serialize .default).write ⟨24, 0, 0, 0, .string [0x41], some .wantsString⟩) =
          some y ∧ y.SameContent ⟨24, 0, 0, 0, .string [0x41], some .wantsString⟩ := by
  apply (dispatch_messages_roundtrip .default).1
  refine ⟨Nat.le_of_ble_eq_true rfl, ?_⟩
  intro p hp
  obtain rfl := Option.mem_some.mp hp
  trivial

end Vst2
