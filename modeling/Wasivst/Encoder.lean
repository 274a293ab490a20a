import Wasivst.Js
import Wasivst.Wire

/-!
# `WasiVST`: the frames the main thread encodes

`#encodeLoad`, `#encodeProcess`, `#encodeSetParam` and `#encodeGetParam`. A block may have no
channels or channels of unequal length; its frame is the one of the block in which every
channel is padded with silence, or cut, to the length of the first, and a NaN is what the engine
stores for it.
-/

set_option autoImplicit false

namespace Wasivst
open LittleEndian Js

namespace WasiVST

def setUint32 (n : Nat) : List UInt8 := ofU32 (UInt32.ofNat n)

def encodeLoad (path : JsString) : List UInt8 :=
  let pathBytes := textEncode path
  FrameTag.load.code :: (setUint32 pathBytes.length ++ pathBytes)

/-- `channels[0]?.length ?? 128` -/
def sampleCount (channels : List (List UInt32)) : Nat :=
  match channels[0]? with
  | some ch => ch.length
  | none => 128

/-- `dv.setFloat32` of the sample `i` of channel `c`. -/
def setFloat32 (e : Engine) (c i : Nat) (x : UInt32) : List UInt8 := ofU32 (e.float32 c i x)

def encodeProcess (e : Engine) (channels : List (List UInt32)) : List UInt8 :=
  let chCount := channels.length
  let n := sampleCount channels
  let audioSize := chCount * n * 4
  FrameTag.process.code :: (setUint32 n ++ (setUint32 chCount ++ (setUint32 audioSize ++
    (channels.mapIdx fun c ch =>
      (List.range n).flatMap fun i => setFloat32 e c i (ch[i]?.getD 0)).flatten)))

def encodeSetParam (id : JsValue) (value : UInt64) : List UInt8 :=
  FrameTag.setParam.code :: (ofU32 id.toUint32 ++ ofU64 value)

def encodeGetParam (id : JsValue) : List UInt8 :=
  FrameTag.getParam.code :: ofU32 id.toUint32

end WasiVST

/-- The channels of an audio-block message whose length fields fit in 32 bits, and the words that
the engine stores the NaNs among its samples as. -/
structure AudioBlock where
  channels : List (List UInt32)
  engine : Engine
  channels_lt : channels.length < 2 ^ 32
  count_lt : WasiVST.sampleCount channels < 2 ^ 32
  audio_lt : channels.length * WasiVST.sampleCount channels * 4 < 2 ^ 32

namespace AudioBlock

def sampleCount (b : AudioBlock) : Nat := WasiVST.sampleCount b.channels

theorem sampleCount_mod (b : AudioBlock) : b.sampleCount % 2 ^ 32 = b.sampleCount :=
  Nat.mod_eq_of_lt b.count_lt

/-- Channel `c` with `n` samples: missing ones are `?? 0`, surplus ones are not looked at. -/
def fit (e : Engine) (n c : Nat) (ch : List UInt32) : List UInt32 :=
  (List.range n).map fun i => e.float32 c i (ch[i]?.getD 0)

@[simp] theorem fit_length (e : Engine) (n c : Nat) (ch : List UInt32) :
    (fit e n c ch).length = n := by
  simp [fit]

def planar (b : AudioBlock) : PlanarBlock where
  sampleCount := UInt32.ofNat b.sampleCount
  channels := b.channels.mapIdx (fit b.engine b.sampleCount)
  planar ch hch := by
    obtain ⟨c, _, rfl⟩ := List.mem_mapIdx.mp hch
    rw [fit_length, UInt32.toNat_ofNat', b.sampleCount_mod]
  channels_lt := by simpa using b.channels_lt
  audio_lt := by
    rw [List.length_mapIdx, UInt32.toNat_ofNat', b.sampleCount_mod]
    exact b.audio_lt

@[simp] theorem planar_sampleCount (b : AudioBlock) :
    b.planar.sampleCount.toNat = b.sampleCount := by
  unfold planar
  rw [UInt32.toNat_ofNat', b.sampleCount_mod]

@[simp] theorem planar_length (b : AudioBlock) : b.planar.channels.length = b.channels.length := by
  simp [planar]

end AudioBlock

inductive Message where
  | setParam (id : JsValue) (value : UInt64)
  | getParam (id : JsValue)
  | process (b : AudioBlock)

namespace Message

def encode : Message → List UInt8
  | setParam id value => WasiVST.encodeSetParam id value
  | getParam id => WasiVST.encodeGetParam id
  | process b => WasiVST.encodeProcess b.engine b.channels

def encodeAll (ms : List Message) : List UInt8 := ms.flatMap encode

def frame : Message → WorkletFrame
  | setParam id value => .setParam id.toUint32 value
  | getParam id => .getParam id.toUint32
  | process b => .process b.planar

theorem ofWords_flatten (chs : List (List UInt32)) :
    ofWords chs.flatten = (chs.map ofWords).flatten := by
  induction chs with
  | nil => rfl
  | cons ch chs ih => rw [List.flatten_cons, ofWords_append, ih, List.map_cons, List.flatten_cons]

theorem flatten_fit (e : Engine) (n : Nat) (channels : List (List UInt32)) :
    (channels.mapIdx fun c ch =>
        (List.range n).flatMap fun i => WasiVST.setFloat32 e c i (ch[i]?.getD 0)).flatten =
      ofWords (channels.mapIdx (AudioBlock.fit e n)).flatten := by
  have hch : ∀ (c : Nat) (ch : List UInt32), ofWords (AudioBlock.fit e n c ch) =
      (List.range n).flatMap fun i => WasiVST.setFloat32 e c i (ch[i]?.getD 0) := by
    intro c ch
    simp only [ofWords, AudioBlock.fit, List.flatMap_map]
    rfl
  rw [ofWords_flatten, List.mapIdx_eq_zipIdx_map, List.mapIdx_eq_zipIdx_map, List.map_map]
  simp only [Function.comp_def, hch]

theorem encode_eq (m : Message) : m.encode = m.frame.bytes := by
  cases m with
  | setParam id value => rfl
  | getParam id => rfl
  | process b =>
    have haudio : WasiVST.setUint32 (b.channels.length * WasiVST.sampleCount b.channels * 4) =
        ofU32 b.planar.audioBytes := by
      unfold WasiVST.setUint32 PlanarBlock.audioBytes
      rw [b.planar_length, b.planar_sampleCount]
      rfl
    have hcount : WasiVST.setUint32 b.channels.length = ofU32 b.planar.channelCount := by
      unfold WasiVST.setUint32 Planes.channelCount
      rw [b.planar_length]
    simp only [encode, WasiVST.encodeProcess, haudio, hcount, flatten_fit]
    rfl

theorem encodeAll_eq (ms : List Message) :
    encodeAll ms = WorkletFrame.stream (ms.map frame) := by
  unfold encodeAll WorkletFrame.stream
  rw [List.flatMap_map]
  exact List.flatMap_congr fun m _ => m.encode_eq

end Message

theorem encodeLoad_eq (path : JsString) : WasiVST.encodeLoad path = loadFrame (textEncode path) :=
  rfl

end Wasivst
