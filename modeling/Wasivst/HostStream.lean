import Wasivst.Receiver

/-!
# The host's stream at the receiver

Every frame that a `write_*` call puts on the wire is a chunk of the receiver's scan: no proper
part of it is taken for a frame. So a stream of frames, with noise between them, is received
frame by frame. A part of a LOG frame may make the scan throw, when it ends before the second
length field; the first one decides whether there is such a part.
-/

set_option autoImplicit false

namespace Wasivst
open LittleEndian Framing Js

/-- The same fields, and samples that are the same Numbers. -/
def Dispatched.Same : Dispatched → Dispatched → Prop
  | .processResp xs, .processResp ys => SameBlock xs ys
  | d, d' => d = d'

inductive HostWrite where
  | processResp (p : Planes)
  | getParamResp (id : UInt32) (value : UInt64)
  | log (level : UInt8) (subsystem message : CString)

namespace HostWrite
open SerialChannel WasiVST

def bytes : HostWrite → List UInt8
  | processResp p => writeProcessResp p.sampleCount p.channelCount p.channels
  | getParamResp id value => writeGetParamResp id value
  | log level subsystem message => writeLog level subsystem message

/-- The length of the frame with both strings of a LOG in full. -/
def size : HostWrite → Nat
  | processResp p => 9 + p.channels.length * p.sampleCount.toNat * 4
  | getParamResp _ _ => 13
  | log _ subsystem message => 10 + subsystem.bytes.length + message.bytes.length

/-- What the receiver makes of the bytes of the frame. -/
def received : HostWrite → Dispatched
  | processResp p => .processResp (readBlock p.channels)
  | getParamResp id value => .getParamResp id value
  | log level subsystem message => .log level (narrowed subsystem) (narrowed message)

/-- What was meant: ids, values, samples and whole strings. -/
def meant : HostWrite → Dispatched
  | processResp p => .processResp p.channels
  | getParamResp id value => .getParamResp id value
  | log level subsystem message => .log level subsystem.bytes message.bytes

theorem received_same {w : HostWrite} (h : w.size < arrayCap) : w.received.Same w.meant := by
  cases w with
  | processResp p => exact sameBlock_readBlock p.channels
  | getParamResp id value => rfl
  | log level subsystem message =>
    simp only [size, arrayCap] at h
    rw [received, meant, narrowed_eq (by omega), narrowed_eq (by omega)]
    rfl

theorem bytes_length_le (w : HostWrite) : w.bytes.length ≤ w.size := by
  cases w with
  | processResp p =>
    rw [bytes, writeProcessResp_planes]
    simp only [processRespFrame, List.length_cons, List.length_append, ofU32_length, ofWords_length,
      p.samples_length, size]
    omega
  | getParamResp id value => exact Nat.le_refl 13
  | log level subsystem message =>
    have hs : (narrowed subsystem).length ≤ subsystem.bytes.length := by
      unfold narrowed
      rw [List.length_take]
      exact Nat.min_le_right _ _
    have hm : (narrowed message).length ≤ message.bytes.length := by
      unfold narrowed
      rw [List.length_take]
      exact Nat.min_le_right _ _
    rw [bytes, writeLog_eq]
    simp only [logFrame, List.length_cons, List.length_append, ofU32_length, size]
    omega

/-! ## Parts of frames -/

theorem scan_cons {p : List UInt8} {t : UInt8} {body : List UInt8} (hp : p <+: t :: body)
    (h0 : p ≠ []) : ∃ q, p = t :: q ∧ q <+: body := by
  cases p with
  | nil => exact absurd rfl h0
  | cons b q =>
    obtain ⟨rfl, hq⟩ := List.cons_prefix_cons.mp hp
    exact ⟨q, rfl, hq⟩

theorem length_lt_of_part {p c : List UInt8} (hp : p <+: c) (hne : p ≠ c) : p.length < c.length := by
  have hle := hp.length_le
  rcases Nat.lt_or_ge p.length c.length with h | h
  · exact h
  · exact absurd (hp.eq_of_length_le h) hne

theorem scan_processResp (q : List UInt8) :
    scan (FrameTag.processResp.code :: q) = scanProcessResp (FrameTag.processResp.code :: q) := by
  rw [scan, if_pos rfl]

theorem scan_getParamResp (q : List UInt8) :
    scan (FrameTag.getParamResp.code :: q) = scanGetParamResp (FrameTag.getParamResp.code :: q) := by
  rw [scan, if_neg (by decide), if_pos rfl]

theorem scan_log (q : List UInt8) :
    scan (FrameTag.log.code :: q) = scanLog (FrameTag.log.code :: q) := by
  rw [scan, if_neg (by decide), if_neg (by decide), if_pos rfl]

/-! ### PROCESS_RESP -/

theorem processRespFrame_length (p : Planes) :
    (processRespFrame p).length = 9 + p.sampleCount.toNat * p.channelCount.toNat * 4 := by
  simp only [processRespFrame, List.length_cons, List.length_append, ofU32_length, ofWords_length,
    p.samples_length, p.channelCount_toNat, Nat.mul_comm p.channels.length]
  omega

theorem getUint32_sampleCount (p : Planes) :
    getUint32 (processRespFrame p) 1 = some p.sampleCount :=
  getUint32_at [FrameTag.processResp.code] _ _ rfl

theorem getUint32_channelCount (p : Planes) :
    getUint32 (processRespFrame p) 5 = some p.channelCount := by
  have h : getUint32 _ 5 = _ := getUint32_at (FrameTag.processResp.code :: ofU32 p.sampleCount)
    p.channelCount (ofWords p.samples) (by simp)
  simpa [processRespFrame] using h

theorem counts_of_part {p : Planes} {q : List UInt8} (hq : q <+: processRespFrame p)
    (h9 : ¬ q.length < 9) :
    getUint32 (q.take 9) 1 = some p.sampleCount ∧ getUint32 (q.take 9) 5 = some p.channelCount := by
  have hpre : q.take 9 <+: processRespFrame p := (List.take_prefix 9 q).trans hq
  have hlen : (q.take 9).length = 9 := by
    rw [List.length_take]
    omega
  rw [getUint32_of_part hpre (by omega), getUint32_of_part hpre (by omega)]
  exact ⟨getUint32_sampleCount p, getUint32_channelCount p⟩

theorem clean_processResp (p : Planes) : Clean scan (processRespFrame p) := by
  intro q hq h0 hne
  have hlt := length_lt_of_part hq hne
  have hlen := processRespFrame_length p
  obtain ⟨r, rfl, _⟩ := scan_cons hq h0
  rw [scan_processResp]
  unfold scanProcessResp
  split
  · rfl
  · rename_i h9
    obtain ⟨h1, h5⟩ := counts_of_part hq h9
    simp only [h1, h5]
    rw [if_pos (by omega)]

theorem decode_processResp (p : Planes) :
    decodeProcessResp (processRespFrame p) = some (readBlock p.channels) := by
  have h := decodeChannels_at p.channels p.planar
    (FrameTag.processResp.code :: (ofU32 p.sampleCount ++ ofU32 p.channelCount))
  unfold decodeProcessResp
  rw [getUint32_sampleCount, getUint32_channelCount]
  simpa [processRespFrame, Planes.samples] using h

theorem scan_processRespFrame (p : Planes) :
    scan (processRespFrame p) = .take (.processResp (readBlock p.channels)) [] := by
  have hscan : scan (processRespFrame p) = scanProcessResp (processRespFrame p) := scan_processResp _
  have hlen := processRespFrame_length p
  have h9 : ¬ (processRespFrame p).length < 9 := by omega
  obtain ⟨h1, h5⟩ := counts_of_part (List.prefix_refl (processRespFrame p)) h9
  rw [hscan, scanProcessResp, if_neg h9]
  simp only [h1, h5]
  rw [if_neg (by omega), splice, ← hlen, List.take_length, decode_processResp, List.drop_length]
  rfl

theorem chunk_processResp (p : Planes) :
    Chunk scan (processRespFrame p) (some (.processResp (readBlock p.channels))) where
  nonempty := by simp [processRespFrame]
  nil := rfl
  part q hq h0 hne := .inl (clean_processResp p q hq h0 hne)
  whole := scan_processRespFrame p

/-! ### GET_PARAM_RESP -/

theorem clean_getParamResp (id : UInt32) (value : UInt64) :
    Clean scan (getParamRespFrame id value) := by
  intro q hq h0 hne
  have hlt := length_lt_of_part hq hne
  have hlen : (getParamRespFrame id value).length = 13 := by simp [getParamRespFrame]
  obtain ⟨r, rfl, _⟩ := scan_cons hq h0
  rw [scan_getParamResp, scanGetParamResp, if_pos (by omega)]

theorem decode_getParamResp (id : UInt32) (value : UInt64) :
    decodeGetParamResp (getParamRespFrame id value) = some (.getParamResp id value) := by
  have hid : getUint32 (getParamRespFrame id value) 1 = some id :=
    getUint32_at [FrameTag.getParamResp.code] _ _ rfl
  have hvalue : getFloat64 (getParamRespFrame id value) 5 = some value := by
    have h : getFloat64 _ 5 = _ :=
      getFloat64_at (FrameTag.getParamResp.code :: ofU32 id) value [] (by simp)
    simpa [getParamRespFrame] using h
  unfold decodeGetParamResp
  rw [hid, hvalue]
  rfl

theorem scan_getParamRespFrame (id : UInt32) (value : UInt64) :
    scan (getParamRespFrame id value) = .take (.getParamResp id value) [] := by
  have hlen : (getParamRespFrame id value).length = 13 := by simp [getParamRespFrame]
  have hscan : scan (getParamRespFrame id value) = scanGetParamResp (getParamRespFrame id value) :=
    scan_getParamResp _
  rw [hscan, scanGetParamResp, if_neg (by omega), splice, ← hlen, List.take_length,
    decode_getParamResp, List.drop_length]

theorem chunk_getParamResp (id : UInt32) (value : UInt64) :
    Chunk scan (getParamRespFrame id value) (some (.getParamResp id value)) where
  nonempty := by simp [getParamRespFrame]
  nil := rfl
  part q hq h0 hne := .inl (clean_getParamResp id value q hq h0 hne)
  whole := scan_getParamRespFrame id value

/-! ### LOG -/

section Log
variable (level : UInt8) {sub msg : List UInt8}

theorem logFrame_length (sub msg : List UInt8) :
    (logFrame level sub msg).length = 10 + sub.length + msg.length := by
  simp only [logFrame, List.length_cons, List.length_append, ofU32_length]
  omega

theorem toNat_length {bs : List UInt8} (h : bs.length < 2 ^ 32) :
    (UInt32.ofNat bs.length).toNat = bs.length := by
  rw [UInt32.toNat_ofNat', Nat.mod_eq_of_lt h]

theorem getUint32_subLen (sub msg : List UInt8) :
    getUint32 (logFrame level sub msg) 2 = some (UInt32.ofNat sub.length) :=
  getUint32_at [FrameTag.log.code, level] _ _ rfl

theorem getUint32_msgLen (sub msg : List UInt8) :
    getUint32 (logFrame level sub msg) (6 + sub.length) = some (UInt32.ofNat msg.length) := by
  have hpre : (FrameTag.log.code :: level :: (ofU32 (UInt32.ofNat sub.length) ++ sub)).length =
      6 + sub.length := by
    simp only [List.length_cons, List.length_append, ofU32_length]
    omega
  have h := getUint32_at _ (UInt32.ofNat msg.length) msg hpre
  simpa [logFrame] using h

/-- A part of a LOG frame that reaches beyond the first length field but not beyond the second
makes the second `getUint32` throw. -/
theorem scan_log_part (hsub : sub.length < 2 ^ 32) (hmsg : msg.length < 2 ^ 32) {p : List UInt8}
    (hp : p <+: logFrame level sub msg) (h0 : p ≠ []) (hne : p ≠ logFrame level sub msg) :
    scan p = if 10 ≤ p.length ∧ p.length < 10 + sub.length then .fail p else .wait := by
  have hlt := length_lt_of_part hp hne
  have hlen := logFrame_length level sub msg
  obtain ⟨r, rfl, _⟩ := scan_cons hp h0
  rw [scan_log, scanLog]
  rcases Nat.lt_or_ge (FrameTag.log.code :: r).length 10 with h10 | h10
  · rw [if_pos h10, if_neg (by omega)]
  · rw [if_neg (by omega), getUint32_of_part hp (by omega), getUint32_subLen]
    simp only [toNat_length hsub]
    rcases Nat.lt_or_ge (FrameTag.log.code :: r).length (10 + sub.length) with hshort | hshort
    · rw [getUint32_short (by omega), if_pos (by omega)]
    · rw [getUint32_of_part hp (by omega), getUint32_msgLen, if_neg (by omega)]
      simp only [toNat_length hmsg]
      rw [if_pos (by omega)]

theorem decode_log (sub msg : List UInt8) :
    decodeLog sub.length msg.length (logFrame level sub msg) = some (.log level sub msg) := by
  have hsub : (logFrame level sub msg).drop 6 = sub ++ (ofU32 (UInt32.ofNat msg.length) ++ msg) := by
    have h : logFrame level sub msg = (FrameTag.log.code :: level ::
        ofU32 (UInt32.ofNat sub.length)) ++ (sub ++ (ofU32 (UInt32.ofNat msg.length) ++ msg)) := by
      simp [logFrame]
    rw [h, List.drop_left' (by simp)]
  have hmsg : (logFrame level sub msg).drop (10 + sub.length) = msg := by
    have h : 10 + sub.length = 6 + (sub.length + 4) := by omega
    rw [h, ← List.drop_drop, hsub, ← List.append_assoc, List.drop_left' (by simp)]
  unfold decodeLog
  rw [hsub, hmsg, List.take_left, List.take_length]
  rfl

theorem scan_logFrame (hsub : sub.length < 2 ^ 32) (hmsg : msg.length < 2 ^ 32) :
    scan (logFrame level sub msg) = .take (.log level sub msg) [] := by
  have hscan : scan (logFrame level sub msg) = scanLog (logFrame level sub msg) := scan_log _
  have hlen := logFrame_length level sub msg
  rw [hscan, scanLog, if_neg (by omega), getUint32_subLen]
  simp only [toNat_length hsub, getUint32_msgLen, toNat_length hmsg]
  rw [if_neg (by omega), splice, ← hlen, List.take_length, List.drop_length, decode_log]

theorem chunk_log (hsub : sub.length < 2 ^ 32) (hmsg : msg.length < 2 ^ 32) :
    Chunk scan (logFrame level sub msg) (some (.log level sub msg)) where
  nonempty := by simp [logFrame]
  nil := rfl
  part p hp h0 hne := by
    rw [scan_log_part level hsub hmsg hp h0 hne]
    split
    · exact .inr rfl
    · exact .inl rfl
  whole := scan_logFrame level hsub hmsg

end Log

theorem narrowed_lt (s : CString) : (narrowed s).length < 2 ^ 32 := by
  rw [narrowed_length]
  exact UInt32.toNat_lt _

theorem chunk (w : HostWrite) : Chunk scan w.bytes (some w.received) := by
  cases w with
  | processResp p =>
    rw [bytes, writeProcessResp_planes]
    exact chunk_processResp p
  | getParamResp id value => exact chunk_getParamResp id value
  | log level subsystem message =>
    rw [bytes, writeLog_eq]
    exact chunk_log level (narrowed_lt _) (narrowed_lt _)

def subLen : HostWrite → UInt32
  | log _ subsystem _ => UInt32.ofNat subsystem.bytes.length
  | _ => 0

theorem clean {w : HostWrite} (h : w.subLen = 0) : Clean scan w.bytes := by
  cases w with
  | processResp p =>
    rw [bytes, writeProcessResp_planes]
    exact clean_processResp p
  | getParamResp id value => exact clean_getParamResp id value
  | log level subsystem message =>
    have hempty : (narrowed subsystem).length = 0 := by
      rw [narrowed_length]
      exact congrArg UInt32.toNat h
    intro p hp h0 hne
    rw [bytes, writeLog_eq] at hp hne
    rw [scan_log_part level (narrowed_lt _) (narrowed_lt _) hp h0 hne, if_neg (by omega)]

/-- The first ten bytes of a LOG frame with a subsystem make the receiver throw. -/
theorem failed_of_subLen {w : HostWrite} (h : w.subLen ≠ 0) :
    (receiveAll [] (w.bytes.take 10)).failed = true := by
  cases w with
  | processResp p => exact absurd rfl h
  | getParamResp id value => exact absurd rfl h
  | log level subsystem message =>
    have hpos : 0 < (narrowed subsystem).length := by
      rw [narrowed_length]
      apply Nat.pos_of_ne_zero
      intro h0
      exact h (UInt32.toNat_inj.mp h0)
    have hlen := logFrame_length level (narrowed subsystem) (narrowed message)
    rw [bytes, writeLog_eq]
    generalize hc : logFrame level (narrowed subsystem) (narrowed message) = c at hlen
    have hten : (c.take 10).length = 10 := by
      rw [List.length_take]
      omega
    have h0 : c.take 10 ≠ [] := by
      intro heq
      rw [heq] at hten
      cases hten
    have hne : c.take 10 ≠ c := by
      intro heq
      rw [heq] at hten
      omega
    have hfail : scan (c.take 10) = .fail (c.take 10) := by
      subst hc
      rw [scan_log_part level (narrowed_lt _) (narrowed_lt _) (List.take_prefix _ _) h0 hne,
        if_pos (by omega)]
    have hchunk := chunk_log level (narrowed_lt subsystem) (narrowed_lt message)
    rw [hc] at hchunk
    have hcap : (c.take 10).length < arrayCap := by
      rw [hten]
      decide
    exact hchunk.failed_of_fail hcap (List.take_prefix _ _) hne h0 hfail

end HostWrite

/-! ## Streams -/

namespace HostStream
open WasiVST

/-- A piece of the host's output: a frame, or a byte that starts none. -/
inductive Segment where
  | noise (b : UInt8) (h : b ≠ 0x03 ∧ b ≠ 0x06 ∧ b ≠ 0x07)
  | frame (w : HostWrite) (h : w.size < 2 ^ 32)

namespace Segment

def bytes : Segment → List UInt8
  | noise b _ => [b]
  | frame w _ => w.bytes

def received : Segment → Option Dispatched
  | noise _ _ => none
  | frame w _ => some w.received

def meant : Segment → Option Dispatched
  | noise _ _ => none
  | frame w _ => some w.meant

theorem chunk (s : Segment) : Chunk scan s.bytes s.received := by
  cases s with
  | frame w h => exact w.chunk
  | noise b h =>
    obtain ⟨h3, h6, h7⟩ := h
    refine ⟨by simp [bytes], rfl, ?_, ?_⟩
    · intro p hp h0 hne
      exact absurd (hp.eq_of_length_le (List.length_pos_iff.mpr h0)) hne
    · simp [bytes, received, scan, FrameTag.code, h3, h6, h7]

theorem bytes_lt (s : Segment) : s.bytes.length < arrayCap := by
  cases s with
  | noise b h => exact (by decide : 1 < arrayCap)
  | frame w h => exact Nat.lt_of_le_of_lt w.bytes_length_le h

end Segment

def stream (segs : List Segment) : List UInt8 := segs.flatMap Segment.bytes

/-- Delivered byte by byte, the stream is taken for its frames. -/
theorem frames_received (segs : List Segment) :
    (receiveAll [] (stream segs)).frames = segs.filterMap Segment.received ∧
      (receiveAll [] (stream segs)).rest = [] :=
  feedAll_stream Segment.bytes Segment.received (fun s (_ : s ∈ segs) => s.chunk)
    (fun s _ => s.bytes_lt)

theorem same_received (segs : List Segment) :
    List.Forall₂ Dispatched.Same (segs.filterMap Segment.received)
      (segs.filterMap Segment.meant) := by
  induction segs with
  | nil => exact .nil
  | cons s segs ih =>
    cases s with
    | noise b h => exact ih
    | frame w h => exact .cons (HostWrite.received_same h) ih

/-- What is left in the buffer in the middle of the stream is a part of one segment. -/
theorem rest_length_lt {segs : List Segment} {p : List UInt8} (hp : p <+: stream segs) :
    (receiveAll [] p).rest.length + 1 < arrayCap := by
  have hne : ∀ k ∈ segs, Segment.bytes k ≠ [] := by
    intro k _
    exact k.chunk.nonempty
  obtain ⟨pre, post, rfl, hcase⟩ := prefix_flatMap Segment.bytes hne hp
  rcases hcase with rfl | ⟨k, rest, q, rfl, rfl, hq, _, hqk⟩
  · have hrest : (receiveAll [] (stream pre)).rest = [] := (frames_received pre).2
    unfold stream at hrest
    rw [hrest]
    decide
  · have hlt := HostWrite.length_lt_of_part hq hqk
    have hk := k.bytes_lt
    have hrest := (feedAll_stream_part Segment.bytes Segment.received
      (fun x (_ : x ∈ pre) => x.chunk) (fun x _ => x.bytes_lt) k.chunk (by omega) hq hqk).2
    unfold receiveAll
    rw [hrest]
    omega

/-- Delivered byte by byte, the stream is dispatched frame by frame, each with the fields it was
written with, and nothing is left in the buffer. The loop of each call ends. -/
theorem stream_received (segs : List Segment) :
    List.Forall₂ Dispatched.Same (receiveAll [] (stream segs)).frames
        (segs.filterMap Segment.meant) ∧
      (receiveAll [] (stream segs)).rest = [] ∧
      ∀ p b, p ++ [b] <+: stream segs →
        (receive (receiveAll [] p).rest b).failed = true ∨
          scan (receive (receiveAll [] p).rest b).rest = .wait := by
  obtain ⟨hframes, hrest⟩ := frames_received segs
  refine ⟨?_, hrest, ?_⟩
  · rw [hframes]
    exact same_received segs
  · intro p b hpb
    have hp : p <+: stream segs := (List.prefix_append p [b]).trans hpb
    exact receive_settles (rest_length_lt hp)

/-- A block with one sample, a NaN that is not the usual one. -/
def signalling : Segment :=
  .frame (.processResp ⟨1, [[0x7F800001]], by decide, by decide⟩) (by decide)

theorem nan_not_received : ¬ ∀ segs,
    (receiveAll [] (stream segs)).frames = segs.filterMap Segment.meant := by
  intro h
  have hframes := h [signalling]
  rw [(frames_received _).1] at hframes
  exact absurd hframes (by decide)

/-! ## Exceptions -/

def writes (ws : List HostWrite) : List UInt8 := ws.flatMap HostWrite.bytes

/-- No delivery of a part of the stream makes the listener throw. -/
def NeverThrows (ws : List HostWrite) : Prop :=
  ∀ p, p <+: writes ws → (receiveAll [] p).failed = false

/-- The frame fits into `#rxBuf`, and if it is a LOG frame its subsystem is empty. -/
def Tolerated (w : HostWrite) : Prop := w.bytes.length < 2 ^ 32 ∧ w.subLen = 0

theorem neverThrows_of_tolerated {ws : List HostWrite} (h : ∀ w ∈ ws, Tolerated w) :
    NeverThrows ws := by
  intro p hp
  have hall : (receiveAll [] (writes ws)).failed = false :=
    feedAll_stream_clean HostWrite.bytes (fun w => some w.received)
      (fun w _ => w.chunk) (fun w hw => (h w hw).1) (fun w hw => HostWrite.clean (h w hw).2)
  cases hf : (receiveAll [] p).failed with
  | false => rfl
  | true => exact (failed_of_extension hp hf).symm.trans hall

theorem throws_of_not_tolerated {w : HostWrite} (h : ¬ Tolerated w) :
    ∃ p, p <+: w.bytes ∧ (receiveAll [] p).failed = true := by
  rcases eq_or_ne w.subLen 0 with hsub | hsub
  · have hlong : arrayCap ≤ w.bytes.length := Nat.le_of_not_lt fun hlt => h ⟨hlt, hsub⟩
    exact ⟨_, List.prefix_refl _, w.chunk.failed_of_overflow (by decide) hlong⟩
  · exact ⟨_, List.take_prefix 10 _, HostWrite.failed_of_subLen hsub⟩

theorem exists_throw {ws : List HostWrite} {w : HostWrite} (hw : w ∈ ws) (hbad : ¬ Tolerated w) :
    ∃ p, p <+: writes ws ∧ (receiveAll [] p).failed = true := by
  induction ws with
  | nil => cases hw
  | cons x ws ih =>
    have hcons : writes (x :: ws) = x.bytes ++ writes ws := List.flatMap_cons
    rw [hcons]
    by_cases hx : Tolerated x
    · have hmem : w ∈ ws := (List.mem_cons.mp hw).resolve_left fun he => hbad (he ▸ hx)
      obtain ⟨p, hp, hfail⟩ := ih hmem
      refine ⟨x.bytes ++ p, (List.prefix_append_right_inj _).mpr hp, ?_⟩
      have hstream : (receiveAll [] ([x].flatMap HostWrite.bytes ++ p)).failed = true :=
        failed_of_stream HostWrite.bytes (fun w => some w.received) (fun y _ => y.chunk)
          (fun y hy => List.mem_singleton.mp hy ▸ hx.1) hfail
      simpa using hstream
    · obtain ⟨p, hp, hfail⟩ := throws_of_not_tolerated hx
      exact ⟨p, hp.trans (List.prefix_append _ _), hfail⟩

/-- Parts of frames are tolerated exactly when every LOG frame has an empty subsystem. -/
theorem neverThrows_iff (ws : List HostWrite) : NeverThrows ws ↔ ∀ w ∈ ws, Tolerated w := by
  constructor
  · intro hnever w hw
    by_contra hbad
    obtain ⟨p, hp, hfail⟩ := exists_throw hw hbad
    exact absurd (hnever p hp) (by simp [hfail])
  · exact neverThrows_of_tolerated

/-- What the constructor of `Vst2Host` writes when the plugin is up. -/
def startupLog : HostWrite := .log 1 (.literal "vst2-host") (.literal "plugin loaded and activated")

theorem startupLog_throws : ¬ NeverThrows [startupLog] := by
  intro hnever
  obtain ⟨p, hp, hfail⟩ := exists_throw (w := startupLog) List.mem_cons_self
    fun h => absurd h.2 (by decide)
  exact absurd (hnever p hp) (by simp [hfail])

end HostStream
end Wasivst
