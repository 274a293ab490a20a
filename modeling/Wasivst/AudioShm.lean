import Wasivst.Bitsery

/-!
# Shared audio buffers

The configuration of an `AudioShmBuffer` of `audio-shm.h`, as it is sent to the other side.
-/

set_option autoImplicit false

open InPlace

/-- `AudioShmBuffer::Config`: the name, the size in bytes, and the offsets of the channels. -/
structure AudioShmBufferConfig where
  name : List UInt8
  size : UInt32
  input_offsets : List (List UInt32)
  output_offsets : List (List UInt32)
  deriving DecidableEq

namespace AudioShmBufferConfig
variable (B : Bitsery)

/-- Offsets by bus and channel. -/
def offsets : Codec (List (List UInt32)) :=
  B.container 8192 [] (B.container 8192 0 B.value4b)

theorem offsets_put (old os : List (List UInt32)) : (offsets B).put old os = os := by
  have hvalue : B.value4b.Overwrites := B.value4b_put
  have hbus : (B.container 8192 0 B.value4b).Overwrites := Codec.putList_eq _ _ hvalue
  exact Codec.putList_eq _ _ hbus old os

theorem offsets_fits (os : List (List UInt32)) :
    (offsets B).fits os ↔ os.length ≤ 8192 ∧ ∀ bus ∈ os, bus.length ≤ 8192 := by
  have hmax : 8192 < 2 ^ 30 := by decide
  simp [offsets, B.container_fits _ _ hmax]

def serialize : Codec AudioShmBufferConfig :=
  .record
    [.field (·.name) (fun c v => { c with name := v }) (B.text1b 1024),
     .field (·.size) (fun c v => { c with size := v }) B.value4b,
     .field (·.input_offsets) (fun c v => { c with input_offsets := v }) (offsets B),
     .field (·.output_offsets) (fun c v => { c with output_offsets := v }) (offsets B)]

@[simp] theorem serialize_put (old c : AudioShmBufferConfig) :
    (serialize B).put old c = c := by
  simp [serialize, offsets_put]

structure Bounded (c : AudioShmBufferConfig) : Prop where
  name : c.name.length ≤ 1024
  inputs : c.input_offsets.length ≤ 8192
  input : ∀ bus ∈ c.input_offsets, bus.length ≤ 8192
  outputs : c.output_offsets.length ≤ 8192
  output : ∀ bus ∈ c.output_offsets, bus.length ≤ 8192

theorem serialize_fits {c : AudioShmBufferConfig} (h : c.Bounded) : (serialize B).fits c := by
  have hname : 1024 < 2 ^ 30 := by decide
  have hin := (offsets_fits B c.input_offsets).mpr ⟨h.inputs, h.input⟩
  have hout := (offsets_fits B c.output_offsets).mpr ⟨h.outputs, h.output⟩
  simp [serialize, B.text1b_fits hname, h.name, hin, hout]

end AudioShmBufferConfig
