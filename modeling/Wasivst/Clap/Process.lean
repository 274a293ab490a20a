import Wasivst.AudioShm
import Wasivst.Clap.Events

/-!
# CLAP process data

`clap::process::Process` of `serialization/clap/process.{h,cpp}` with `audio-buffer.h`. A port has
one of two pointers, and which one is sent in a list of its own; the pointers themselves are
cleared whenever a buffer is written or read. The audio itself is not part of these objects.
-/

set_option autoImplicit false

namespace Clap
open InPlace

/-- A null pointer is `none`; a pointer shows the pointers of the channels. -/
structure AudioBuffer where
  data32 : Option (List UInt64)
  data64 : Option (List UInt64)
  channel_count : UInt32
  latency : UInt32
  constant_mask : UInt64
  deriving DecidableEq, Inhabited

namespace AudioBufferType

def Float32 : UInt8 := 0

def Double64 : UInt8 := 1

end AudioBufferType

/-- `clap_process_t` of a host. `out_events` are the events that it has accepted so far. -/
structure ClapProcess where
  steady_time : UInt64
  frames_count : UInt32
  transport : Option EventTransport
  audio_inputs : List AudioBuffer
  audio_outputs : Option (List AudioBuffer)
  in_events : List GenericEvent
  out_events : List Seen

/-- The count of a null pointer has to be zero. -/
def ClapProcess.outputs (p : ClapProcess) : List AudioBuffer := p.audio_outputs.getD []

/-- `clap_process_t` as the plugin gets it. -/
structure Reconstructed where
  steady_time : UInt64
  frames_count : UInt32
  transport : Option EventTransport
  audio_inputs : List AudioBuffer
  audio_outputs : List AudioBuffer
  in_events : List Seen
  out_events : List Seen

structure Process where
  steady_time_ : UInt64
  frames_count_ : UInt32
  transport_ : Option EventTransport
  audio_inputs_ : List AudioBuffer
  audio_inputs_type_ : List UInt8
  audio_outputs_ : List AudioBuffer
  audio_outputs_type_ : List UInt8
  in_events_ : EventList
  out_events_ : EventList

/-! ## Serialization -/

section Serialize
variable (B : Bitsery)

/-- Both pointers are set to null before anything is written or read. -/
def AudioBuffer.cleared (b : AudioBuffer) : AudioBuffer := { b with data32 := none, data64 := none }

def AudioBuffer.serialize : Codec AudioBuffer :=
  .record
    [.field (·.data32) (fun b v => { b with data32 := v }) (.const none),
     .field (·.data64) (fun b v => { b with data64 := v }) (.const none),
     .field (·.channel_count) (fun b v => { b with channel_count := v }) B.value4b,
     .field (·.latency) (fun b v => { b with latency := v }) B.value4b,
     .field (·.constant_mask) (fun b v => { b with constant_mask := v }) B.value8b]

@[simp] theorem AudioBuffer.serialize_put (old b : AudioBuffer) :
    (serialize B).put old b = b.cleared := rfl

@[simp] theorem AudioBuffer.serialize_fits (b : AudioBuffer) : (serialize B).fits b = true := by
  simp [serialize]

def ports : Codec (List AudioBuffer) := B.container (2 ^ 14) default (AudioBuffer.serialize B)

def types : Codec (List UInt8) := B.container (2 ^ 14) 0 B.value1b

@[simp] theorem ports_put (olds bs : List AudioBuffer) :
    (ports B).put olds bs = bs.map AudioBuffer.cleared := by
  change Codec.putList default (AudioBuffer.serialize B) olds bs = _
  induction bs generalizing olds with
  | nil => rfl
  | cons b bs ih => simp [Codec.putList, ih]

@[simp] theorem types_put (olds ts : List UInt8) : (types B).put olds ts = ts :=
  Codec.putList_eq _ _ B.value1b_put olds ts

theorem ports_fits (bs : List AudioBuffer) : (ports B).fits bs ↔ bs.length ≤ 2 ^ 14 := by
  have hmax : 16384 < 2 ^ 30 := by decide
  simp [ports, B.container_fits _ _ hmax]

theorem types_fits (ts : List UInt8) : (types B).fits ts ↔ ts.length ≤ 2 ^ 14 := by
  have hmax : 16384 < 2 ^ 30 := by decide
  simp [types, B.container_fits _ _ hmax]

namespace Process

/-- The output events are not sent. -/
def serialize : Codec Process :=
  .record
    [.field (·.steady_time_) (fun p v => { p with steady_time_ := v }) B.value8b,
     .field (·.frames_count_) (fun p v => { p with frames_count_ := v }) B.value4b,
     .field (·.transport_) (fun p v => { p with transport_ := v })
       (B.inPlaceOptional default true (EventTransport.serialize B)),
     .field (·.audio_inputs_) (fun p v => { p with audio_inputs_ := v }) (ports B),
     .field (·.audio_inputs_type_) (fun p v => { p with audio_inputs_type_ := v }) (types B),
     .field (·.audio_outputs_) (fun p v => { p with audio_outputs_ := v }) (ports B),
     .field (·.audio_outputs_type_) (fun p v => { p with audio_outputs_type_ := v }) (types B),
     .field (·.in_events_) (fun p v => { p with in_events_ := v }) (EventList.serialize B)]

/-- What serializing does to the sender's own buffers. -/
def written (p : Process) : Process :=
  { p with
    audio_inputs_ := p.audio_inputs_.map AudioBuffer.cleared
    audio_outputs_ := p.audio_outputs_.map AudioBuffer.cleared }

/-- `Process::Response` only has pointers to two fields of the object it belongs to, so it is read
from and written into that object. -/
def Response.serialize : Codec Process :=
  .record
    [.field (·.audio_outputs_) (fun p v => { p with audio_outputs_ := v }) (ports B),
     .field (·.out_events_) (fun p v => { p with out_events_ := v }) (EventList.serialize B)]

def Response.written (p : Process) : Process :=
  { p with audio_outputs_ := p.audio_outputs_.map AudioBuffer.cleared }

theorem serialize_put (old p : Process) : (serialize B).put old p =
    { p.written with
      in_events_ := (EventList.serialize B).put old.in_events_ p.in_events_
      out_events_ := old.out_events_ } := by
  have htransport :=
    B.inPlaceOptional_put_of_overwrites default true (EventTransport.serialize_put B)
  simp only [serialize, Codec.record_cons_put, Codec.record_nil_put, Codec.field_put,
    htransport, Bitsery.value8b_put, Bitsery.value4b_put, ports_put, types_put, written]

theorem serialize_fits (p : Process) : (serialize B).fits p ↔
    p.audio_inputs_.length ≤ 2 ^ 14 ∧ p.audio_inputs_type_.length ≤ 2 ^ 14 ∧
      p.audio_outputs_.length ≤ 2 ^ 14 ∧ p.audio_outputs_type_.length ≤ 2 ^ 14 ∧
      (EventList.serialize B).fits p.in_events_ := by
  have htransport : p.transport_.all (EventTransport.serialize B).fits = true := by
    simp [Option.all_eq_true]
  simp only [serialize, Codec.record_cons_fits, Codec.record_nil_fits, Codec.field_fits,
    Bitsery.value8b_fits, Bitsery.value4b_fits, Bitsery.inPlaceOptional_fits, htransport,
    Bool.true_and, Bool.and_true, Bool.and_eq_true, ports_fits, types_fits]

theorem Response.serialize_put (old p : Process) : (Response.serialize B).put old p =
    { old with
      audio_outputs_ := p.audio_outputs_.map AudioBuffer.cleared
      out_events_ := (EventList.serialize B).put old.out_events_ p.out_events_ } := by
  simp [Response.serialize]

theorem Response.serialize_fits (p : Process) : (Response.serialize B).fits p ↔
    p.audio_outputs_.length ≤ 2 ^ 14 ∧ (EventList.serialize B).fits p.out_events_ := by
  simp only [Response.serialize, Codec.record_cons_fits, Codec.record_nil_fits,
    Codec.field_fits, Bool.and_true, Bool.and_eq_true, ports_fits]

end Process
end Serialize

/-! ## Reading the host's data and rebuilding it -/

def AudioBuffer.hasData (h : AudioBuffer) : Bool := h.data32.isSome || h.data64.isSome

/-- `std::min` of two unsigned numbers. -/
def minUInt32 (a b : UInt32) : UInt32 := if b < a then b else a

/-- The metadata of the host's ports, with no more channels than the shared buffers have. -/
def portMetadata (olds : List AudioBuffer) (offsets : List (List UInt32))
    (host : List AudioBuffer) : List AudioBuffer :=
  host.mapIdx fun port h =>
    { olds.getD port default with
      channel_count := minUInt32 (UInt32.ofNat (offsets.getD port []).length) h.channel_count
      latency := h.latency
      constant_mask := h.constant_mask }

/-- A port without either pointer keeps the type that its place in the list had. -/
def portType (old : UInt8) (h : AudioBuffer) : UInt8 :=
  if h.data32.isSome then AudioBufferType.Float32
  else if h.data64.isSome then AudioBufferType.Double64
  else old

def portTypes (olds : List UInt8) (host : List AudioBuffer) : List UInt8 :=
  host.mapIdx fun port h => portType (olds.getD port AudioBufferType.Float32) h

/-- `data()` of a vector of pointers. -/
def dataPointer (pointers : List UInt64) : Option (List UInt64) :=
  if pointers.isEmpty then none else some pointers

/-- One of the two pointers is set, the other one stays what it is. -/
def setPointer (b : AudioBuffer) (type : UInt8) (pointer : Option (List UInt64)) : AudioBuffer :=
  if type = AudioBufferType.Double64 then { b with data64 := pointer }
  else { b with data32 := pointer }

def setPointers (bs : List AudioBuffer) (ts : List UInt8) (pointers : List (List UInt64)) :
    List AudioBuffer :=
  bs.mapIdx fun port b => setPointer b (ts.getD port AudioBufferType.Float32)
    (dataPointer (pointers.getD port []))

namespace Process

def fresh : Process := ⟨0, 0, none, [], [], [], [], ⟨[]⟩, ⟨[]⟩⟩

/-- The assertions of `repopulate`, and what it may index: a port without pointers has no
channels, and every port and every input channel is one of the shared buffers. -/
def Accepts (process : ClapProcess) (shared_audio_buffers : AudioShmBufferConfig) : Prop :=
  process.audio_inputs.length ≤ shared_audio_buffers.input_offsets.length ∧
    process.outputs.length ≤ shared_audio_buffers.output_offsets.length ∧
    (∀ h ∈ process.audio_inputs ++ process.outputs, h.hasData ∨ h.channel_count = 0) ∧
    ∀ p ∈ process.audio_inputs.zip shared_audio_buffers.input_offsets,
      p.1.hasData → p.1.channel_count.toNat ≤ p.2.length

instance (process : ClapProcess) (shared_audio_buffers : AudioShmBufferConfig) :
    Decidable (Accepts process shared_audio_buffers) := by
  unfold Accepts
  infer_instance

def repopulate (p : Process) (process : ClapProcess)
    (shared_audio_buffers : AudioShmBufferConfig) : Option Process :=
  if Accepts process shared_audio_buffers then
    some
      { steady_time_ := process.steady_time
        frames_count_ := process.frames_count
        transport_ := process.transport
        audio_inputs_ := portMetadata p.audio_inputs_ shared_audio_buffers.input_offsets
          process.audio_inputs
        audio_inputs_type_ := portTypes p.audio_inputs_type_ process.audio_inputs
        audio_outputs_ := portMetadata p.audio_outputs_ shared_audio_buffers.output_offsets
          process.outputs
        audio_outputs_type_ := portTypes p.audio_outputs_type_ process.outputs
        in_events_ := p.in_events_.repopulate process.in_events
        out_events_ := p.out_events_ }
  else none

/-- The object after the call and the data for the plugin, whose pointers lead into it. -/
def reconstruct (p : Process) (input_pointers output_pointers : List (List UInt64)) :
    Option (Process × Reconstructed) :=
  if p.audio_inputs_.length ≤ input_pointers.length ∧
      p.audio_outputs_.length ≤ output_pointers.length ∧
      p.audio_inputs_type_.length = p.audio_inputs_.length ∧
      p.audio_outputs_type_.length = p.audio_outputs_.length then
    let p : Process :=
      { p with
        audio_inputs_ := setPointers p.audio_inputs_ p.audio_inputs_type_ input_pointers
        audio_outputs_ := setPointers p.audio_outputs_ p.audio_outputs_type_ output_pointers
        out_events_ := p.out_events_.clear }
    some (p,
      { steady_time := p.steady_time_
        frames_count := p.frames_count_
        transport := p.transport_
        audio_inputs := p.audio_inputs_
        audio_outputs := p.audio_outputs_
        in_events := p.in_events_.events_.map Event.get
        out_events := p.out_events_.events_.map Event.get })
  else none

/-- The host's data with the outputs written to it. The pointer to the output ports is asserted
not to be null, whatever their number. -/
def write_back_outputs (p : Process) (process : ClapProcess) : Option ClapProcess :=
  match process.audio_outputs with
  | none => none
  | some audio_outputs =>
    if p.audio_outputs_.length = audio_outputs.length then
      some
        { process with
          audio_outputs := some (List.zipWith
            (fun h b => { h with constant_mask := b.constant_mask, latency := b.latency })
            audio_outputs p.audio_outputs_)
          out_events := process.out_events ++ p.out_events_.write_back_outputs }
    else none

theorem repopulate_eq_some {p p' : Process} {host : ClapProcess}
    {shared : AudioShmBufferConfig} : p.repopulate host shared = some p' ↔
      Accepts host shared ∧ p' =
        { steady_time_ := host.steady_time
          frames_count_ := host.frames_count
          transport_ := host.transport
          audio_inputs_ := portMetadata p.audio_inputs_ shared.input_offsets host.audio_inputs
          audio_inputs_type_ := portTypes p.audio_inputs_type_ host.audio_inputs
          audio_outputs_ := portMetadata p.audio_outputs_ shared.output_offsets host.outputs
          audio_outputs_type_ := portTypes p.audio_outputs_type_ host.outputs
          in_events_ := ⟨host.in_events.filterMap Event.parse⟩
          out_events_ := p.out_events_ } := by
  unfold repopulate
  split_ifs with h
  · simp only [EventList.repopulate_eq, Option.some.injEq, h, true_and, eq_comm]
  · simp only [h, false_and]

theorem reconstruct_eq_some {p : Process} {input_pointers output_pointers : List (List UInt64)}
    {r : Process × Reconstructed} :
    p.reconstruct input_pointers output_pointers = some r ↔
      (p.audio_inputs_.length ≤ input_pointers.length ∧
        p.audio_outputs_.length ≤ output_pointers.length ∧
        p.audio_inputs_type_.length = p.audio_inputs_.length ∧
        p.audio_outputs_type_.length = p.audio_outputs_.length) ∧
      r =
        ({ p with
            audio_inputs_ := setPointers p.audio_inputs_ p.audio_inputs_type_ input_pointers
            audio_outputs_ := setPointers p.audio_outputs_ p.audio_outputs_type_ output_pointers
            out_events_ := ⟨[]⟩ },
          { steady_time := p.steady_time_
            frames_count := p.frames_count_
            transport := p.transport_
            audio_inputs := setPointers p.audio_inputs_ p.audio_inputs_type_ input_pointers
            audio_outputs := setPointers p.audio_outputs_ p.audio_outputs_type_ output_pointers
            in_events := p.in_events_.events_.map Event.get
            out_events := [] }) := by
  unfold reconstruct
  split_ifs with h
  · simp only [EventList.clear, List.map_nil, Option.some.injEq, h, true_and, eq_comm]
  · simp only [h, false_and]

/-- The cycle ends here if the host has passed a null pointer for its output ports. -/
theorem write_back_outputs_eq_some {p : Process} {host host' : ClapProcess} :
    p.write_back_outputs host = some host' ↔ host.audio_outputs.isSome ∧
      p.audio_outputs_.length = host.outputs.length ∧
      host' =
        { host with
          audio_outputs := some (List.zipWith
            (fun h b => { h with constant_mask := b.constant_mask, latency := b.latency })
            host.outputs p.audio_outputs_)
          out_events := host.out_events ++ p.out_events_.write_back_outputs } := by
  unfold write_back_outputs ClapProcess.outputs
  cases host.audio_outputs with
  | none => simp
  | some outs =>
    simp only [Option.getD_some, Option.isSome_some, true_and]
    split_ifs with h
    · simp only [Option.some.injEq, h, true_and, eq_comm]
    · simp only [h, false_and]

end Process
end Clap
