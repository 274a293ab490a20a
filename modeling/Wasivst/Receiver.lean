import Wasivst.Js
import Wasivst.Lib.Framing
import Wasivst.SerialChannel

/-!
# `WasiVST`: the listener on `serial0-output-byte`

`scan` is one pass of the loop in `#drainAndDispatch`. Every `DataView` read is partial: it
throws a RangeError when it reaches past the bytes it was given, and what has been spliced out
of `#rxBuf` by then stays out. Frame lengths are exact here; in the browser they are doubles,
which only differ from 2^53 on, where both exceed every length an array can have.
-/

set_option autoImplicit false

namespace Wasivst
open LittleEndian Framing Js

/-- What is dispatched: samples as the Numbers that they are read as, LOG texts as the byte slices
that are handed to `TextDecoder`. -/
inductive Dispatched where
  | processResp (channels : List (List UInt32))
  | getParamResp (id : UInt32) (value : UInt64)
  | log (level : UInt8) (subsystem message : List UInt8)
  deriving DecidableEq

namespace WasiVST

def getBytes (buf : List UInt8) (offset len : Nat) : Option (List UInt8) :=
  if offset + len ≤ buf.length then some ((buf.drop offset).take len) else none

def getUint32 (buf : List UInt8) (offset : Nat) : Option UInt32 := (getBytes buf offset 4).map toU32

def getFloat64 (buf : List UInt8) (offset : Nat) : Option UInt64 := (getBytes buf offset 8).map toU64

def getFloat32 (buf : List UInt8) (offset : Nat) : Option UInt32 :=
  (getUint32 buf offset).map readFloat32

/-- The inner loop of `#decodeProcessResp`, with the offset it leaves. -/
def decodeChannel (frame : List UInt8) : Nat → Nat → Option (List UInt32 × Nat)
  | 0, offset => some ([], offset)
  | n + 1, offset => do
    let x ← getFloat32 frame offset
    let (xs, offset) ← decodeChannel frame n (offset + 4)
    some (x :: xs, offset)

def decodeChannels (frame : List UInt8) (sampleCount : Nat) : Nat → Nat → Option (List (List UInt32))
  | 0, _ => some []
  | c + 1, offset => do
    let (ch, offset) ← decodeChannel frame sampleCount offset
    let chs ← decodeChannels frame sampleCount c offset
    some (ch :: chs)

def decodeProcessResp (frame : List UInt8) : Option (List (List UInt32)) := do
  let sampleCount ← getUint32 frame 1
  let chCount ← getUint32 frame 5
  decodeChannels frame sampleCount.toNat chCount.toNat 9

/-- `splice` takes the frame out before it is looked at. -/
def splice (rxBuf : List UInt8) (total : Nat) (decode : List UInt8 → Option Dispatched) :
    Scan UInt8 Dispatched :=
  match decode (rxBuf.take total) with
  | some d => .take d (rxBuf.drop total)
  | none => .fail (rxBuf.drop total)

def scanProcessResp (rxBuf : List UInt8) : Scan UInt8 Dispatched :=
  if rxBuf.length < 9 then .wait
  else
    match getUint32 (rxBuf.take 9) 1, getUint32 (rxBuf.take 9) 5 with
    | some sampleCount, some chCount =>
      let total := 9 + sampleCount.toNat * chCount.toNat * 4
      if rxBuf.length < total then .wait
      else splice rxBuf total fun frame => (decodeProcessResp frame).map .processResp
    | _, _ => .fail rxBuf

def decodeGetParamResp (frame : List UInt8) : Option Dispatched := do
  let id ← getUint32 frame 1
  let value ← getFloat64 frame 5
  some (.getParamResp id value)

def scanGetParamResp (rxBuf : List UInt8) : Scan UInt8 Dispatched :=
  if rxBuf.length < 13 then .wait else splice rxBuf 13 decodeGetParamResp

def decodeLog (subLen msgLen : Nat) (frame : List UInt8) : Option Dispatched :=
  some (.log (frame.getD 1 0) ((frame.drop 6).take subLen) ((frame.drop (10 + subLen)).take msgLen))

def scanLog (rxBuf : List UInt8) : Scan UInt8 Dispatched :=
  if rxBuf.length < 10 then .wait
  else
    match getUint32 rxBuf 2 with
    | none => .fail rxBuf
    | some subLen =>
      match getUint32 rxBuf (6 + subLen.toNat) with
      | none => .fail rxBuf
      | some msgLen =>
        let total := 10 + subLen.toNat + msgLen.toNat
        if rxBuf.length < total then .wait
        else splice rxBuf total (decodeLog subLen.toNat msgLen.toNat)

/-- One pass of the `while` loop; `wait` is the loop condition failing or a `break`. -/
def scan (rxBuf : List UInt8) : Scan UInt8 Dispatched :=
  match rxBuf with
  | [] => .wait
  | tag :: tail =>
    if tag = FrameTag.processResp.code then scanProcessResp rxBuf
    else if tag = FrameTag.getParamResp.code then scanGetParamResp rxBuf
    else if tag = FrameTag.log.code then scanLog rxBuf
    else .skip tail

/-- An array holds fewer than `2 ^ 32` elements; a `push` beyond that throws. -/
def arrayCap : Nat := 2 ^ 32

/-- The listener: push one byte, then `#drainAndDispatch`. -/
def receive (rxBuf : List UInt8) (byte : UInt8) : Drained UInt8 Dispatched :=
  feed scan arrayCap rxBuf byte

def receiveAll (rxBuf bytes : List UInt8) : Drained UInt8 Dispatched :=
  feedAll scan arrayCap rxBuf bytes

/-! ## `DataView` reads -/

theorem getBytes_at (pre bs post : List UInt8) {offset len : Nat} (hpre : pre.length = offset)
    (hbs : bs.length = len) : getBytes (pre ++ (bs ++ post)) offset len = some bs := by
  subst hpre hbs
  unfold getBytes
  rw [if_pos (by simp only [List.length_append]; omega), List.drop_left, List.take_left]

theorem getBytes_of_part {p c : List UInt8} (hp : p <+: c) {offset len : Nat}
    (h : offset + len ≤ p.length) : getBytes p offset len = getBytes c offset len := by
  obtain ⟨q, rfl⟩ := hp
  rw [getBytes, getBytes, if_pos h, if_pos (by rw [List.length_append]; omega),
    List.drop_append_of_le_length (by omega),
    List.take_append_of_le_length (by rw [List.length_drop]; omega)]

theorem getUint32_at (pre : List UInt8) (v : UInt32) (post : List UInt8) {offset : Nat}
    (hpre : pre.length = offset) : getUint32 (pre ++ (ofU32 v ++ post)) offset = some v := by
  unfold getUint32
  rw [getBytes_at _ _ _ hpre (ofU32_length v), Option.map_some, toU32_ofU32]

theorem getFloat64_at (pre : List UInt8) (v : UInt64) (post : List UInt8) {offset : Nat}
    (hpre : pre.length = offset) : getFloat64 (pre ++ (ofU64 v ++ post)) offset = some v := by
  unfold getFloat64
  rw [getBytes_at _ _ _ hpre (ofU64_length v), Option.map_some, toU64_ofU64]

theorem getUint32_of_part {p c : List UInt8} (hp : p <+: c) {offset : Nat}
    (h : offset + 4 ≤ p.length) : getUint32 p offset = getUint32 c offset := by
  unfold getUint32
  rw [getBytes_of_part hp h]

theorem getUint32_short {p : List UInt8} {offset : Nat} (h : p.length < offset + 4) :
    getUint32 p offset = none := by
  unfold getUint32 getBytes
  rw [if_neg (by omega), Option.map_none]

theorem decodeChannel_at (ws : List UInt32) (pre post : List UInt8) :
    decodeChannel (pre ++ (ofWords ws ++ post)) ws.length pre.length =
      some (ws.map readFloat32, pre.length + 4 * ws.length) := by
  induction ws generalizing pre with
  | nil => rfl
  | cons w ws ih =>
    have hrest := ih (pre ++ ofU32 w)
    rw [List.length_append, ofU32_length, List.append_assoc] at hrest
    rw [ofWords_cons, List.append_assoc, List.length_cons, decodeChannel, getFloat32,
      getUint32_at _ _ _ rfl]
    simp only [hrest, bind, Option.bind, Option.map_some, List.map_cons]
    congr 2
    omega

theorem decodeChannels_at {n : Nat} (chs : List (List UInt32)) (h : ∀ ch ∈ chs, ch.length = n)
    (pre : List UInt8) :
    decodeChannels (pre ++ ofWords chs.flatten) n chs.length pre.length =
      some (readBlock chs) := by
  induction chs generalizing pre with
  | nil => rfl
  | cons ch chs ih =>
    have hn := h ch List.mem_cons_self
    have hrest := ih (fun x hx => h x (List.mem_cons_of_mem ch hx)) (pre ++ ofWords ch)
    have hch := decodeChannel_at ch pre (ofWords chs.flatten)
    rw [hn] at hch
    rw [List.length_append, ofWords_length, List.append_assoc, hn] at hrest
    rw [List.flatten_cons, ofWords_append, List.length_cons, decodeChannels]
    simp only [hch, hrest, bind, Option.bind, readBlock, List.map_cons]

/-! ## The loop ends -/

theorem splice_shrinks {rxBuf rest : List UInt8} {total : Nat}
    {decode : List UInt8 → Option Dispatched} {d : Dispatched} (hpos : 0 < total)
    (hlen : ¬ rxBuf.length < total) (h : splice rxBuf total decode = .take d rest) :
    rest.length < rxBuf.length := by
  unfold splice at h
  split at h
  · cases h
    rw [List.length_drop]
    omega
  · cases h

theorem scan_shrinks : Shrinks scan where
  skip buf rest h := by
    cases buf with
    | nil => cases h
    | cons tag tail =>
      simp only [scan] at h
      split_ifs at h with h3 h6 h7
      · simp only [scanProcessResp, splice] at h
        repeat' split at h
        all_goals cases h
      · simp only [scanGetParamResp, splice] at h
        repeat' split at h
        all_goals cases h
      · simp only [scanLog, splice] at h
        repeat' split at h
        all_goals cases h
      · cases h
        exact Nat.lt_succ_self _
  take buf d rest h := by
    cases buf with
    | nil => cases h
    | cons tag tail =>
      simp only [scan] at h
      split_ifs at h with h3 h6 h7
      · simp only [scanProcessResp] at h
        repeat' split at h
        all_goals first | exact splice_shrinks (by omega) (by assumption) h | cases h
      · simp only [scanGetParamResp] at h
        split at h
        · cases h
        · exact splice_shrinks (by omega) (by assumption) h
      · simp only [scanLog] at h
        repeat' split at h
        all_goals first | exact splice_shrinks (by omega) (by assumption) h | cases h

/-- A drain that does not throw goes on until a pass has to wait. -/
theorem receive_settles {rxBuf : List UInt8} {byte : UInt8} (hroom : rxBuf.length + 1 < arrayCap) :
    (receive rxBuf byte).failed = true ∨ scan (receive rxBuf byte).rest = .wait := by
  unfold receive feed
  rw [if_pos hroom]
  exact drain_ends scan_shrinks _ _ (by simp)

end WasiVST
end Wasivst
