import Wasivst.Lib.LittleEndian

/-!
# Frames on the serial line

The tags of `serial-channel.h`, the layout of every frame, and the frames the worklet side
sends once a plugin is loaded. Samples stand channel by channel. A PROCESS frame repeats their
size in a third length field; `PlanarBlock` says that all three fit into 32 bits.
-/

set_option autoImplicit false

namespace Wasivst
open LittleEndian

inductive FrameTag where
  | load | process | processResp | setParam | getParam | getParamResp | log
  deriving DecidableEq, Repr

def FrameTag.code : FrameTag → UInt8
  | load => 0x01
  | process => 0x02
  | processResp => 0x03
  | setParam => 0x04
  | getParam => 0x05
  | getParamResp => 0x06
  | log => 0x07

/-- `static_cast<FrameTag>` is defined on every byte; `none` is a value without an enumerator. -/
def FrameTag.ofByte (b : UInt8) : Option FrameTag :=
  if b = 0x01 then some load
  else if b = 0x02 then some process
  else if b = 0x03 then some processResp
  else if b = 0x04 then some setParam
  else if b = 0x05 then some getParam
  else if b = 0x06 then some getParamResp
  else if b = 0x07 then some log
  else none

@[simp] theorem FrameTag.ofByte_code (t : FrameTag) : FrameTag.ofByte t.code = some t := by
  cases t <;> rfl

theorem FrameTag.ofByte_eq_some {b : UInt8} {t : FrameTag} (h : FrameTag.ofByte b = some t) :
    b = t.code := by
  unfold FrameTag.ofByte at h
  split_ifs at h with h1 h2 h3 h4 h5 h6 h7 <;> cases h <;> assumption

/-- Planes of one length, as many as a 32-bit count can announce. -/
structure Planes where
  sampleCount : UInt32
  channels : List (List UInt32)
  planar : ∀ ch ∈ channels, ch.length = sampleCount.toNat
  channels_lt : channels.length < 2 ^ 32

/-- Planes whose size in bytes fits the third length field of a PROCESS frame. -/
structure PlanarBlock extends Planes where
  audio_lt : channels.length * sampleCount.toNat * 4 < 2 ^ 32

def Planes.channelCount (p : Planes) : UInt32 := UInt32.ofNat p.channels.length

def Planes.samples (p : Planes) : List UInt32 := p.channels.flatten

@[simp] theorem Planes.channelCount_toNat (p : Planes) :
    p.channelCount.toNat = p.channels.length := by
  unfold channelCount
  rw [UInt32.toNat_ofNat', Nat.mod_eq_of_lt p.channels_lt]

def PlanarBlock.audioBytes (b : PlanarBlock) : UInt32 :=
  UInt32.ofNat (b.channels.length * b.sampleCount.toNat * 4)

@[simp] theorem PlanarBlock.audioBytes_toNat (b : PlanarBlock) :
    b.audioBytes.toNat = b.channels.length * b.sampleCount.toNat * 4 := by
  unfold audioBytes
  rw [UInt32.toNat_ofNat', Nat.mod_eq_of_lt b.audio_lt]

theorem length_flatten_of_planar {α : Type} {n : Nat} {chs : List (List α)}
    (h : ∀ ch ∈ chs, ch.length = n) : chs.flatten.length = chs.length * n := by
  induction chs with
  | nil => simp
  | cons ch chs ih =>
    have hc := h ch List.mem_cons_self
    have ht := ih fun x hx => h x (List.mem_cons_of_mem ch hx)
    rw [List.flatten_cons, List.length_append, hc, ht, List.length_cons, Nat.add_mul, Nat.one_mul,
      Nat.add_comm]

/-- Sample `s` of plane `c` stands at index `c * n + s` of the channel-major array. -/
theorem getElem?_flatten_of_planar {α : Type} {n : Nat} {chs : List (List α)}
    (h : ∀ ch ∈ chs, ch.length = n) {c s : Nat} (hs : s < n) {ch : List α} (hc : chs[c]? = some ch) :
    chs.flatten[c * n + s]? = ch[s]? := by
  induction chs generalizing c with
  | nil => simp at hc
  | cons d chs ih =>
    have hd := h d List.mem_cons_self
    cases c with
    | zero =>
      obtain rfl : d = ch := by simpa using hc
      rw [List.flatten_cons, List.getElem?_append_left (by omega)]
      simp
    | succ c =>
      have ht := ih (fun x hx => h x (List.mem_cons_of_mem d hx)) (c := c) (by simpa using hc)
      rw [List.flatten_cons, List.getElem?_append_right (by rw [hd, Nat.add_mul]; omega), hd,
        ← ht]
      congr 1
      rw [Nat.add_mul]
      omega

theorem Planes.samples_length (p : Planes) :
    p.samples.length = p.channels.length * p.sampleCount.toNat :=
  length_flatten_of_planar p.planar

/-! ## Layouts -/

def loadFrame (path : List UInt8) : List UInt8 :=
  FrameTag.load.code :: (ofU32 (UInt32.ofNat path.length) ++ path)

def processRespFrame (p : Planes) : List UInt8 :=
  FrameTag.processResp.code :: (ofU32 p.sampleCount ++ (ofU32 p.channelCount ++ ofWords p.samples))

def getParamRespFrame (id : UInt32) (value : UInt64) : List UInt8 :=
  FrameTag.getParamResp.code :: (ofU32 id ++ ofU64 value)

def logFrame (level : UInt8) (subsystem message : List UInt8) : List UInt8 :=
  FrameTag.log.code :: level :: (ofU32 (UInt32.ofNat subsystem.length) ++ (subsystem ++
    (ofU32 (UInt32.ofNat message.length) ++ message)))

inductive WorkletFrame where
  | process (b : PlanarBlock)
  | setParam (id : UInt32) (value : UInt64)
  | getParam (id : UInt32)

namespace WorkletFrame

def tag : WorkletFrame → FrameTag
  | process _ => .process
  | setParam _ _ => .setParam
  | getParam _ => .getParam

def body : WorkletFrame → List UInt8
  | process b =>
    ofU32 b.sampleCount ++ (ofU32 b.channelCount ++ (ofU32 b.audioBytes ++ ofWords b.samples))
  | setParam id value => ofU32 id ++ ofU64 value
  | getParam id => ofU32 id

def bytes (f : WorkletFrame) : List UInt8 := f.tag.code :: f.body

def stream (fs : List WorkletFrame) : List UInt8 := fs.flatMap bytes

end WorkletFrame

end Wasivst
