import Wasivst.Lib.Reader
import Wasivst.Wire

/-!
# `SerialChannel`

Reading takes bytes from `stdin`; a stream that ends early makes `read_bytes` throw. Storing
past the end of the `samples` vector is undefined and is a fault of its own here. Writing is
modelled by the bytes that reach `stdout`.
-/

set_option autoImplicit false

namespace Wasivst
open LittleEndian StreamReader

/-- How a run of the host ends: by an exception, or by an access outside a buffer. -/
inductive HostFault where
  | eof
  | expectedLoad
  | outOfBounds
  deriving DecidableEq, Repr

abbrev Input := Reader UInt8 HostFault

structure ProcessFrame where
  sampleCount : UInt32
  channelCount : UInt32
  samples : List UInt32

structure ParamFrame where
  id : UInt32
  value : UInt64

/-- A NUL-terminated string without its terminator. -/
structure CString where
  bytes : List UInt8
  noNul : 0 ∉ bytes

def CString.ofBytes (bs : List UInt8) : CString where
  bytes := bs.takeWhile (· ≠ 0)
  noNul h := by simpa using List.all_eq_true.mp (List.all_takeWhile (p := (· ≠ 0)) (l := bs)) 0 h

def CString.literal (s : String) : CString := CString.ofBytes s.toUTF8.data.toList

namespace SerialChannel

def readBytes (len : Nat) : Input (List UInt8) := take .eof len

/-- `read_bytes` into a vector of `capacity` bytes. -/
def readInto (capacity len : Nat) : Input (List UInt8) := fun stdin =>
  if capacity < len ∧ capacity < stdin.length then .error .outOfBounds
  else readBytes len stdin

def readTag : Input UInt8 := (fun bs => bs.headD 0) <$> readBytes 1

def readNextTag : Input (Option FrameTag) := FrameTag.ofByte <$> readTag

def readU32 : Input UInt32 := toU32 <$> readBytes 4

def readF64 : Input UInt64 := toU64 <$> readBytes 8

def readLoadFrameBody : Input (List UInt8) := do
  let len ← readU32
  readBytes len.toNat

def readProcessFrameBody : Input ProcessFrame := do
  let sampleCount ← readU32
  let channelCount ← readU32
  let audioBytes ← readU32
  let bytes ← readInto (audioBytes.toNat / 4 * 4) audioBytes.toNat
  pure ⟨sampleCount, channelCount, toWords bytes⟩

def readSetParamFrameBody : Input ParamFrame := do
  let id ← readU32
  let value ← readF64
  pure ⟨id, value⟩

def readGetParamFrameBody : Input UInt32 := readU32

/-- The first `ch_count` pointers are followed, and `sample_count` floats are read behind each. -/
def writeProcessResp (sampleCount chCount : UInt32) (channels : List (List UInt32)) : List UInt8 :=
  FrameTag.processResp.code :: (ofU32 sampleCount ++ (ofU32 chCount ++
    (channels.take chCount.toNat).flatMap fun ch => ofWords (ch.take sampleCount.toNat)))

def writeGetParamResp (id : UInt32) (value : UInt64) : List UInt8 :=
  FrameTag.getParamResp.code :: (ofU32 id ++ ofU64 value)

/-- `strlen` is narrowed to 32 bits before it is written and used. -/
def writeLog (level : UInt8) (subsystem message : CString) : List UInt8 :=
  let subLen := UInt32.ofNat subsystem.bytes.length
  let msgLen := UInt32.ofNat message.bytes.length
  FrameTag.log.code :: level :: (ofU32 subLen ++ (subsystem.bytes.take subLen.toNat ++
    (ofU32 msgLen ++ message.bytes.take msgLen.toNat)))

/-! ## What each read consumes -/

theorem consumes_bytes {bs : List UInt8} {n : Nat} (h : bs.length = n) :
    Consumes (readBytes n) bs bs := consumes_take HostFault.eof h

theorem consumes_readInto {bs : List UInt8} {capacity n : Nat} (hcap : n ≤ capacity)
    (h : bs.length = n) : Consumes (readInto capacity n) bs bs := by
  intro rest
  have hn : ¬ (capacity < n ∧ capacity < (bs ++ rest).length) := by omega
  simp only [StateT.run, readInto, if_neg hn]
  exact consumes_bytes h rest

theorem consumes_tag (b : UInt8) : Consumes readTag [b] b := by
  have h : Consumes (readBytes 1) [b] [b] := consumes_bytes rfl
  exact h.map _

theorem consumes_nextTag (b : UInt8) : Consumes readNextTag [b] (FrameTag.ofByte b) :=
  (consumes_tag b).map _

theorem consumes_u32 (v : UInt32) : Consumes readU32 (ofU32 v) v := by
  have h := (consumes_bytes (ofU32_length v)).map toU32
  rwa [toU32_ofU32] at h

theorem consumes_f64 (v : UInt64) : Consumes readF64 (ofU64 v) v := by
  have h := (consumes_bytes (ofU64_length v)).map toU64
  rwa [toU64_ofU64] at h

theorem consumes_loadBody {path : List UInt8} (hlen : path.length < 2 ^ 32) :
    Consumes readLoadFrameBody (loadFrame path).tail path := by
  apply (consumes_u32 _).bind
  apply consumes_bytes
  rw [UInt32.toNat_ofNat', Nat.mod_eq_of_lt hlen]

theorem consumes_processBody (b : PlanarBlock) :
    Consumes readProcessFrameBody (WorkletFrame.process b).body
      ⟨b.sampleCount, b.channelCount, b.samples⟩ := by
  have haudio : (ofWords b.samples).length = b.audioBytes.toNat := by
    rw [ofWords_length, b.samples_length, b.audioBytes_toNat]
    omega
  have hcap : b.audioBytes.toNat ≤ b.audioBytes.toNat / 4 * 4 := by
    rw [b.audioBytes_toNat]
    omega
  have hread := (consumes_readInto hcap haudio).map fun bytes =>
    (⟨b.sampleCount, b.channelCount, toWords bytes⟩ : ProcessFrame)
  rw [toWords_ofWords] at hread
  apply (consumes_u32 _).bind
  apply (consumes_u32 _).bind
  apply (consumes_u32 _).bind
  simpa using hread

theorem consumes_setParamBody (id : UInt32) (value : UInt64) :
    Consumes readSetParamFrameBody (WorkletFrame.setParam id value).body ⟨id, value⟩ :=
  (consumes_u32 id).bind (by simpa using (consumes_f64 value).map fun v => (⟨id, v⟩ : ParamFrame))

theorem consumes_getParamBody (id : UInt32) :
    Consumes readGetParamFrameBody (WorkletFrame.getParam id).body id := consumes_u32 id

/-! ## What each call writes -/

theorem writeProcessResp_planes (p : Planes) :
    writeProcessResp p.sampleCount p.channelCount p.channels = processRespFrame p := by
  have hall : ∀ chs : List (List UInt32), (∀ ch ∈ chs, ch.length = p.sampleCount.toNat) →
      chs.flatMap (fun ch => ofWords (ch.take p.sampleCount.toNat)) = ofWords chs.flatten := by
    intro chs
    induction chs with
    | nil => intro _; rfl
    | cons ch chs ih =>
      intro h
      rw [List.flatMap_cons, List.flatten_cons, ofWords_append,
        ih fun x hx => h x (List.mem_cons_of_mem ch hx),
        List.take_of_length_le (Nat.le_of_eq (h ch List.mem_cons_self))]
  unfold writeProcessResp
  rw [p.channelCount_toNat, List.take_length, hall p.channels p.planar]
  rfl

/-- What `write_log` puts on the wire of a string whose length it has narrowed. -/
def narrowed (s : CString) : List UInt8 := s.bytes.take (UInt32.ofNat s.bytes.length).toNat

theorem narrowed_length (s : CString) :
    (narrowed s).length = (UInt32.ofNat s.bytes.length).toNat := by
  unfold narrowed
  rw [List.length_take, UInt32.toNat_ofNat']
  exact Nat.min_eq_left (Nat.mod_le _ _)

theorem narrowed_eq {s : CString} (h : s.bytes.length < 2 ^ 32) : narrowed s = s.bytes := by
  unfold narrowed
  rw [UInt32.toNat_ofNat', Nat.mod_eq_of_lt h, List.take_length]

theorem writeLog_eq (level : UInt8) (subsystem message : CString) :
    writeLog level subsystem message = logFrame level (narrowed subsystem) (narrowed message) := by
  simp only [writeLog, logFrame, narrowed_length, UInt32.ofNat_toNat]
  rfl

/-! ## What each read takes -/

theorem takes_bytes (n : Nat) : Takes n (readBytes n) := Takes.take HostFault.eof n

theorem takes_readInto (capacity n : Nat) : Takes 0 (readInto capacity n) := by
  intro s bs rest h
  simp only [StateT.run, readInto] at h
  split_ifs at h
  exact (takes_bytes n).mono (Nat.zero_le n) s bs rest h

theorem takes_u32 : Takes 4 readU32 := (takes_bytes 4).map _

theorem takes_processBody : Takes 12 readProcessFrameBody :=
  takes_u32.bind fun _ => takes_u32.bind fun _ => takes_u32.bind fun _ =>
    (takes_readInto _ _).bind fun _ => Takes.pure _

theorem takes_setParamBody : Takes 12 readSetParamFrameBody :=
  takes_u32.bind fun _ => ((takes_bytes 8).map _).bind fun _ => Takes.pure _

theorem takes_getParamBody : Takes 4 readGetParamFrameBody := takes_u32

theorem takes_nextTag : Takes 1 readNextTag := ((takes_bytes 1).map _).map _

end SerialChannel
end Wasivst
