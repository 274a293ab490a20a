import Wasivst.Lib.SeekableFile
import Wasivst.Lib.Transition
import Wasivst.Vst3.AttributeList

/-!
# VST3 streams

`YaBStream` of `serialization/vst3/bstream.{h,cpp}`: a buffer with a position, and the attributes
of the stream that it was read from. The position is an `int64` whose arithmetic wraps; an access
outside the buffer has no result. The out parameters of a call are its reply.
-/

set_option autoImplicit false

namespace Vst3
open SeekableFile

structure YaBStream where
  supports_stream_attributes_ : Bool
  file_name_ : Option (List UInt16)
  attributes_ : Option YaAttributeList
  buffer_ : List UInt8
  seek_position_ : Int64

inductive Reply
  | read (numBytesRead : Int) (buffer : List UInt8)
  | written (numBytesWritten : Int)
  | position (pos : Int)
  | size (size : Int)
  | nothing
  deriving DecidableEq

def kIBSeekSet : Int32 := 0

def kIBSeekCur : Int32 := 1

def kIBSeekEnd : Int32 := 2

namespace YaBStream

def fresh : YaBStream := ⟨false, none, none, [], 0⟩

def size64 (s : YaBStream) : Int64 := Int64.ofNat s.buffer_.length

/-- The bytes from the position on lie in the buffer. -/
def Spans (s : YaBStream) (n : Int64) : Prop :=
  0 ≤ s.seek_position_ ∧
    s.seek_position_.toNatClampNeg + n.toNatClampNeg ≤ s.buffer_.length

instance (s : YaBStream) (n : Int64) : Decidable (s.Spans n) := instDecidableAnd

/-- `buffer_[seek_position_]` is there: `&buffer_[..]` is evaluated for any number of bytes. -/
def Indexes (s : YaBStream) : Prop :=
  0 ≤ s.seek_position_ ∧ s.seek_position_.toNatClampNeg < s.buffer_.length

instance (s : YaBStream) : Decidable s.Indexes := instDecidableAnd

/-- `buffer` tells whether the caller's buffer is there. -/
def read (s : YaBStream) (buffer : Bool) (numBytes : Int32) :
    Option (TResult × Reply × YaBStream) :=
  if buffer = false ∨ numBytes < 0 then some (.kInvalidArgument, .nothing, s)
  else
    let remaining := s.size64 - s.seek_position_
    let bytes_to_read := if remaining < numBytes.toInt64 then remaining else numBytes.toInt64
    if 0 < bytes_to_read then
      if s.Spans bytes_to_read then
        let bytes := (s.buffer_.drop s.seek_position_.toNatClampNeg).take
          bytes_to_read.toNatClampNeg
        some (.kResultOk, .read bytes_to_read.toInt32.toInt bytes,
          { s with seek_position_ := s.seek_position_ + bytes_to_read })
      else none
    else some (.kResultFalse, .read bytes_to_read.toInt32.toInt [], s)

def write (s : YaBStream) (buffer : Option (List UInt8)) (numBytes : Int32) :
    Option (TResult × Reply × YaBStream) :=
  match buffer with
  | none => some (.kInvalidArgument, .nothing, s)
  | some bytes =>
    if numBytes < 0 then some (.kInvalidArgument, .nothing, s)
    else
      let position := s.seek_position_ + numBytes.toInt64
      let s := if s.size64 < position then
          { s with buffer_ := resized 0 s.buffer_ position.toNatClampNeg }
        else s
      if s.Indexes ∧ s.Spans numBytes.toInt64 then
        some (.kResultOk, .written numBytes.toInt,
          { s with
            buffer_ := overwritten s.buffer_ s.seek_position_.toNatClampNeg
              (bytes.take numBytes.toNatClampNeg)
            seek_position_ := position })
      else none

def seek (s : YaBStream) (pos : Int64) (mode : Int32) : TResult × Reply × YaBStream :=
  let target :=
    if mode = kIBSeekSet then some pos
    else if mode = kIBSeekCur then some (s.seek_position_ + pos)
    else if mode = kIBSeekEnd then some (s.size64 + pos)
    else none
  match target with
  | none => (.kInvalidArgument, .nothing, s)
  | some target =>
    let clamped := if target < 0 then 0 else if s.size64 < target then s.size64 else target
    (.kResultOk, .position clamped.toInt, { s with seek_position_ := clamped })

/-- `pos` tells whether there is a place for the position. -/
def tell (s : YaBStream) (pos : Bool) : TResult × Reply :=
  if pos then (.kResultOk, .position s.seek_position_.toInt) else (.kInvalidArgument, .nothing)

def getStreamSize (s : YaBStream) : TResult × Reply := (.kResultOk, .size s.size64.toInt)

/-- A negative size is a size that no vector can have. -/
def setStreamSize (s : YaBStream) (size : Int64) : Option (TResult × YaBStream) :=
  if size < 0 then none
  else some (.kResultOk, { s with buffer_ := resized 0 s.buffer_ size.toNatClampNeg })

/-- The units that are stored from the start of the caller's `String128` on, if there is one. -/
def getFileName (s : YaBStream) (name : Bool) : Except TResult (List UInt16) :=
  match name, s.file_name_ with
  | true, some file_name => .ok (file_name ++ [0])
  | _, _ => .error .kResultFalse

/-- The position is not sent. -/
def serialize (B : Bitsery) : InPlace.Codec YaBStream :=
  .record
    [.field (·.buffer_) (fun s v => { s with buffer_ := v }) (B.text1b (50 * 2 ^ 20)),
     .field (·.supports_stream_attributes_) (fun s v => { s with supports_stream_attributes_ := v })
       B.bool1b,
     .field (·.file_name_) (fun s v => { s with file_name_ := v })
       (B.inPlaceOptional [] false (B.text2b 128)),
     .field (·.attributes_) (fun s v => { s with attributes_ := v })
       (B.inPlaceOptional .empty false (YaAttributeList.serialize B))]

end YaBStream

/-! ## Calls -/

/-- The calls of a user of the stream, with arguments that are not negative where they count. -/
inductive StreamCall
  | read (numBytes : Int32) (nonneg : 0 ≤ numBytes)
  | write (buffer : List UInt8) (numBytes : Int32) (nonneg : 0 ≤ numBytes)
      (filled : numBytes.toNatClampNeg ≤ buffer.length)
  | seek (pos : Int64) (mode : Int32)
  | tell
  | getStreamSize
  | setStreamSize (size : Int64) (nonneg : 0 ≤ size)

def YaBStream.call (s : YaBStream) : StreamCall → Option (Reply × YaBStream)
  | .read numBytes _ => (s.read true numBytes).map (·.2)
  | .write buffer numBytes _ _ => (s.write (some buffer) numBytes).map (·.2)
  | .seek pos mode => some (s.seek pos mode).2
  | .tell => some ((s.tell true).2, s)
  | .getStreamSize => some (s.getStreamSize.2, s)
  | .setStreamSize size _ => (s.setStreamSize size).map fun r => (.nothing, r.2)

/-- Where a seek in a file leads to, before the limits of the file. -/
def seekTarget (f : SeekableFile UInt8) (pos : Int64) (mode : Int32) : Option Int :=
  if mode = kIBSeekSet then some pos.toInt
  else if mode = kIBSeekCur then some (f.position + pos.toInt)
  else if mode = kIBSeekEnd then some (f.size + pos.toInt)
  else none

/-- The reference: what the call does to a file. -/
def fileCall (f : SeekableFile UInt8) : StreamCall → Reply × SeekableFile UInt8
  | .read numBytes _ =>
    let (bytes, f') := f.read numBytes.toNatClampNeg
    (.read bytes.length bytes, f')
  | .write buffer numBytes _ _ =>
    (.written numBytes.toInt, f.write (buffer.take numBytes.toNatClampNeg))
  | .seek pos mode =>
    match seekTarget f pos mode with
    | none => (.nothing, f)
    | some target => (.position (f.clamp target), f.seek target)
  | .tell => (.position f.position, f)
  | .getStreamSize => (.size f.size, f)
  | .setStreamSize size _ => (.nothing, f.resize 0 size.toNatClampNeg)

/-- A stream and a file with the replies to the last call; `none` after an access outside the
buffer. -/
structure Beside where
  stream : Option (Reply × YaBStream)
  file : Reply × SeekableFile UInt8

def Beside.step (t : Beside) (c : StreamCall) : Option Beside :=
  some ⟨t.stream.bind fun r => r.2.call c, fileCall t.file.2 c⟩

/-- The stream has the content of the file and the same position, which lies in it. -/
structure Agrees (s : YaBStream) (f : SeekableFile UInt8) : Prop where
  content : s.buffer_ = f.content
  position : s.seek_position_.toInt = f.position

/-- The replies are the same, and so is what the next calls see. -/
def InStep (t : Beside) : Prop := ∃ s, t.stream = some (t.file.1, s) ∧ Agrees s t.file.2

/-- The arithmetic of the call does not wrap, a write at the end of the stream is of a byte at least,
and the content is not cut off before the position. -/
def InRange (f : SeekableFile UInt8) : StreamCall → Prop
  | .write _ numBytes _ _ =>
    f.position + numBytes.toInt < 2 ^ 63 ∧ (0 < numBytes ∨ f.position < f.size)
  | .seek pos mode => (mode = kIBSeekCur → f.position + pos.toInt < 2 ^ 63) ∧
      (mode = kIBSeekEnd → f.size + pos.toInt < 2 ^ 63)
  | .setStreamSize size _ => f.position ≤ size.toInt
  | _ => True

/-! ## Sums of 64 bits -/

theorem toInt_add_of_lt {a b : Int64} (hlow : -2 ^ 63 ≤ a.toInt + b.toInt)
    (hhigh : a.toInt + b.toInt < 2 ^ 63) : (a + b).toInt = a.toInt + b.toInt := by
  rw [Int64.toInt_add]
  exact Int.bmod_eq_of_le (by omega) (by omega)

theorem toInt_add_wraps {a b : Int64} (hhigh : 2 ^ 63 ≤ a.toInt + b.toInt) :
    (a + b).toInt = a.toInt + b.toInt - 2 ^ 64 := by
  have ha := Int64.toInt_lt a
  have hb := Int64.toInt_lt b
  have hshift : (a.toInt + b.toInt).bmod (2 ^ 64) = (a.toInt + b.toInt - 2 ^ 64).bmod (2 ^ 64) := by
    rw [show ((2 : Int) ^ 64) = ((2 ^ 64 : Nat) : Int) from rfl, Int.sub_bmod_right]
  rw [Int64.toInt_add, hshift]
  exact Int.bmod_eq_of_le (by omega) (by omega)

theorem toInt_sub_of_le {a b : Int64} (hlow : -2 ^ 63 ≤ a.toInt - b.toInt)
    (hhigh : a.toInt - b.toInt < 2 ^ 63) : (a - b).toInt = a.toInt - b.toInt := by
  rw [Int64.toInt_sub]
  exact Int.bmod_eq_of_le (by omega) (by omega)

/-! ## One call -/

section OneCall
variable {s : YaBStream} {f : SeekableFile UInt8}

theorem Agrees.size64 (h : Agrees s f) (hsize : f.size < 2 ^ 63) : s.size64.toInt = f.size := by
  have hlen : s.buffer_.length = f.size := congrArg List.length h.content
  rw [YaBStream.size64, hlen, Int64.toInt_ofNat_of_lt hsize]

theorem Agrees.position_toNat (h : Agrees s f) : s.seek_position_.toNatClampNeg = f.position := by
  rw [Int64.toNatClampNeg, h.position, Int.toNat_natCast]

theorem Agrees.nonneg (h : Agrees s f) : 0 ≤ s.seek_position_ := by
  rw [Int64.le_iff_toInt_le, h.position]
  exact Int.natCast_nonneg _

/-- The bytes lie in the buffer of a stream whose position is that of the file. -/
theorem Agrees.spans_iff (h : Agrees s f) {n : Int64} (hn : 0 ≤ n.toInt) :
    s.Spans n ↔ f.position + n.toInt ≤ f.size := by
  have hcast : (n.toNatClampNeg : Int) = n.toInt := Int.toNat_of_nonneg hn
  have hlen : s.buffer_.length = f.size := congrArg List.length h.content
  unfold YaBStream.Spans
  rw [h.position_toNat, hlen, and_iff_right h.nonneg]
  omega

theorem toInt_smaller (a b : Int64) : (if a < b then a else b).toInt = min a.toInt b.toInt := by
  split_ifs with h
  · rw [Int64.lt_iff_toInt_lt] at h
    omega
  · rw [Int64.lt_iff_toInt_lt] at h
    omega

/-- Where the position is after some bytes. -/
theorem Agrees.toInt_advance (h : Agrees s f) {b : Int64} {n : Nat} (hb : b.toInt = n)
    (hin : f.position + n < 2 ^ 63) :
    (s.seek_position_ + b).toInt = ((f.position + n : Nat) : Int) := by
  rw [toInt_add_of_lt, h.position, hb, Int.natCast_add] <;> rw [h.position, hb] <;> omega

/-- A read is as long as the smaller one of the two counts. -/
theorem Agrees.bytes_to_read (h : Agrees s f) (hsize : f.size < 2 ^ 63) {numBytes : Int32}
    (hn : 0 ≤ numBytes) :
    (if s.size64 - s.seek_position_ < numBytes.toInt64 then s.size64 - s.seek_position_
      else numBytes.toInt64).toInt =
        ((min numBytes.toNatClampNeg (f.size - f.position) : Nat) : Int) := by
  have hcount := Int32.cast_toNatClampNeg numBytes hn
  have hin : f.position ≤ f.size := f.inside
  have hremaining : (s.size64 - s.seek_position_).toInt = f.size - f.position := by
    rw [toInt_sub_of_le, h.size64 hsize, h.position] <;> rw [h.size64 hsize, h.position] <;> omega
  rw [toInt_smaller, hremaining, Int32.toInt_toInt64]
  omega

theorem Agrees.read (h : Agrees s f) (hsize : f.size < 2 ^ 63) {numBytes : Int32}
    (hn : 0 ≤ numBytes) :
    ∃ result s', s.read true numBytes = some (result, (fileCall f (.read numBytes hn)).1, s') ∧
      Agrees s' (fileCall f (.read numBytes hn)).2 := by
  have hcount31 := Int32.toNatClampNeg_lt numBytes
  have hin : f.position ≤ f.size := f.inside
  have hargs : ¬ (true = false ∨ numBytes < 0) := by simpa using hn
  have hbytesToRead := h.bytes_to_read hsize hn
  obtain ⟨n, hmin⟩ : ∃ n, n = min numBytes.toNatClampNeg (f.size - f.position) := ⟨_, rfl⟩
  have hbytes : ((f.content.drop f.position).take numBytes.toNatClampNeg).length = n := by
    rw [List.length_take, List.length_drop, hmin]
    rfl
  obtain ⟨b, hb⟩ : ∃ b, b = if s.size64 - s.seek_position_ < numBytes.toInt64 then
    s.size64 - s.seek_position_ else numBytes.toInt64 := ⟨_, rfl⟩
  have hbn : b.toInt = n := by rw [hb, hbytesToRead, hmin]
  have hb32 : b.toInt32.toInt = n := by
    rw [Int64.toInt_toInt32, hbn]
    exact Int.bmod_eq_of_le (by omega) (by omega)
  have htake : (f.content.drop f.position).take n =
      (f.content.drop f.position).take numBytes.toNatClampNeg := by
    rw [List.take_eq_take_iff, List.length_drop, hmin]
    change min _ (f.size - f.position) = min _ (f.size - f.position)
    omega
  unfold YaBStream.read
  rw [if_neg hargs]
  simp only [← hb, hb32]
  by_cases hpos : 0 < b
  · have hspans : s.Spans b := by
      rw [h.spans_iff (by omega), hbn]
      omega
    have hnat : b.toNatClampNeg = n := by rw [Int64.toNatClampNeg, hbn, Int.toNat_natCast]
    rw [if_pos hpos, if_pos hspans, hnat, h.position_toNat, h.content, htake]
    refine ⟨_, _, congrArg some (Prod.ext rfl (Prod.ext ?_ rfl)), rfl, ?_⟩
    · change Reply.read n _ = Reply.read _ _
      rw [hbytes]
    · change (s.seek_position_ + b).toInt = ((f.position + _ : Nat) : Int)
      rw [hbytes]
      exact h.toInt_advance hbn (by omega)
  · have hzero : n = 0 := by
      rw [Int64.lt_iff_toInt_lt, hbn] at hpos
      have h0 : (0 : Int64).toInt = 0 := rfl
      omega
    have hnil : (f.content.drop f.position).take numBytes.toNatClampNeg = [] :=
      List.eq_nil_of_length_eq_zero (hbytes.trans hzero)
    rw [if_neg hpos]
    refine ⟨_, _, congrArg some (Prod.ext rfl (Prod.ext ?_ rfl)), h.content, ?_⟩
    · change Reply.read n [] = Reply.read _ _
      rw [hbytes, hnil]
    · change s.seek_position_.toInt = ((f.position + _ : Nat) : Int)
      rw [hbytes, hzero, Nat.add_zero]
      exact h.position

theorem Agrees.indexes_iff (h : Agrees s f) : s.Indexes ↔ f.position < f.size := by
  have hlen : s.buffer_.length = f.size := congrArg List.length h.content
  unfold YaBStream.Indexes
  rw [h.position_toNat, hlen, and_iff_right h.nonneg]

/-- The bytes are written where they belong, unless their end has no position or there are none of
them and no byte behind the position. -/
theorem Agrees.write (h : Agrees s f) (hsize : f.size < 2 ^ 63) {buffer : List UInt8}
    {numBytes : Int32} (hn : 0 ≤ numBytes) (hfilled : numBytes.toNatClampNeg ≤ buffer.length)
    (hin : InRange f (.write buffer numBytes hn hfilled)) :
    ∃ result s', s.write (some buffer) numBytes =
        some (result, (fileCall f (.write buffer numBytes hn hfilled)).1, s') ∧
      Agrees s' (fileCall f (.write buffer numBytes hn hfilled)).2 := by
  obtain ⟨hin, hsome⟩ := hin
  have hcount := Int32.cast_toNatClampNeg numBytes hn
  have hle : f.position ≤ f.content.length := f.inside
  have hsz : f.size = f.content.length := rfl
  obtain ⟨xs, hxs⟩ : ∃ xs, xs = buffer.take numBytes.toNatClampNeg := ⟨_, rfl⟩
  have hlen : xs.length = numBytes.toNatClampNeg := by
    rw [hxs, List.length_take, Nat.min_eq_left hfilled]
  have hnumBytes : numBytes.toInt64.toInt = xs.length := by
    rw [Int32.toInt_toInt64, hlen, hcount]
  have hend : (s.seek_position_ + numBytes.toInt64).toInt = ((f.position + xs.length : Nat) : Int) :=
    h.toInt_advance hnumBytes (by omega)
  have hendNat : (s.seek_position_ + numBytes.toInt64).toNatClampNeg = f.position + xs.length := by
    rw [Int64.toNatClampNeg, hend, Int.toNat_natCast]
  have hneg : ¬ numBytes < 0 := Int32.not_lt.mpr hn
  have hplace : 0 < xs.length ∨ f.position < f.size := by
    refine hsome.imp_left ?_
    intro hpos
    rw [Int32.lt_iff_toInt_lt, hcount.symm] at hpos
    have h0 : (0 : Int32).toInt = 0 := rfl
    omega
  have hcall : fileCall f (.write buffer numBytes hn hfilled) =
      (.written numBytes.toInt, f.write xs) := by rw [hxs]; rfl
  rw [hcall]
  unfold YaBStream.write
  simp only [if_neg hneg, hendNat, ← hxs]
  by_cases hgrow : s.size64 < s.seek_position_ + numBytes.toInt64
  · rw [if_pos hgrow]
    have hspans : ({ s with buffer_ := resized 0 s.buffer_ (f.position + xs.length) } :
        YaBStream).Spans numBytes.toInt64 := by
      refine ⟨h.nonneg, ?_⟩
      change s.seek_position_.toNatClampNeg + _ ≤ (resized 0 s.buffer_ _).length
      rw [resized_length, h.position_toNat, Int32.toNatClampNeg_toInt64, hlen]
    rw [Int64.lt_iff_toInt_lt, h.size64 hsize, hend] at hgrow
    have hindexes : ({ s with buffer_ := resized 0 s.buffer_ (f.position + xs.length) } :
        YaBStream).Indexes := by
      refine ⟨h.nonneg, ?_⟩
      change s.seek_position_.toNatClampNeg < (resized 0 s.buffer_ _).length
      rw [resized_length, h.position_toNat]
      omega
    rw [if_pos ⟨hindexes, hspans⟩]
    refine ⟨_, _, rfl, ?_, hend⟩
    have hmax : f.position + xs.length = max f.content.length (f.position + xs.length) := by
      omega
    -- what was filled up is overwritten
    change overwritten (resized 0 s.buffer_ _) s.seek_position_.toNatClampNeg xs =
      overwritten f.content f.position xs
    rw [h.position_toNat, h.content, hmax, overwritten_resized 0 hle]
  · rw [if_neg hgrow]
    rw [Int64.lt_iff_toInt_lt, h.size64 hsize, hend] at hgrow
    have hspans : s.Spans numBytes.toInt64 := by
      rw [h.spans_iff (by omega), hnumBytes]
      omega
    have hindexes : s.Indexes := by
      rw [h.indexes_iff]
      omega
    rw [if_pos ⟨hindexes, hspans⟩]
    refine ⟨_, _, rfl, ?_, hend⟩
    change overwritten s.buffer_ s.seek_position_.toNatClampNeg xs =
      overwritten f.content f.position xs
    rw [h.position_toNat, h.content]

/-- A sum that wraps is no reason to grow, and the bytes are written behind the buffer. -/
theorem Agrees.write_wraps (h : Agrees s f) (hsize : f.size < 2 ^ 63) {buffer : List UInt8}
    {numBytes : Int32} (hn : 0 ≤ numBytes) (hout : 2 ^ 63 ≤ f.position + numBytes.toInt) :
    s.write (some buffer) numBytes = none := by
  have hneg : ¬ numBytes < 0 := Int32.not_lt.mpr hn
  have hlt := Int32.toInt_lt numBytes
  have hle : f.position ≤ f.size := f.inside
  have hend : (s.seek_position_ + numBytes.toInt64).toInt =
      f.position + numBytes.toInt - 2 ^ 64 := by
    rw [toInt_add_wraps, h.position, Int32.toInt_toInt64]
    rw [h.position, Int32.toInt_toInt64]
    exact hout
  have hgrow : ¬ s.size64 < s.seek_position_ + numBytes.toInt64 := by
    rw [Int64.lt_iff_toInt_lt, h.size64 hsize, hend]
    omega
  have hspans : ¬ (s.Indexes ∧ s.Spans numBytes.toInt64) := by
    rw [h.spans_iff (by rw [Int32.toInt_toInt64]; omega), Int32.toInt_toInt64]
    omega
  unfold YaBStream.write
  simp only [if_neg hneg, if_neg hgrow, if_neg hspans]

/-- The place behind the last byte is looked up for no byte. -/
theorem Agrees.write_nothing (h : Agrees s f) (hsize : f.size < 2 ^ 63) {buffer : List UInt8}
    (hend : f.size ≤ f.position) : s.write (some buffer) 0 = none := by
  have hzero : (0 : Int32).toInt64 = 0 := rfl
  have hneg : ¬ (0 : Int32) < 0 := by decide
  have hgrow : ¬ s.size64 < s.seek_position_ + (0 : Int32).toInt64 := by
    rw [hzero, Int64.add_zero, Int64.lt_iff_toInt_lt, h.size64 hsize, h.position]
    have hin : f.position ≤ f.size := f.inside
    omega
  have hindexes : ¬ (s.Indexes ∧ s.Spans (0 : Int32).toInt64) := by
    rw [h.indexes_iff]
    omega
  unfold YaBStream.write
  simp only [if_neg hneg, if_neg hgrow, if_neg hindexes]

/-! ### Seeks -/

/-- The position after a seek to a target that did not wrap. -/
theorem clamped_toInt (hsize : f.size < 2 ^ 63) {size target : Int64} (hs : size.toInt = f.size) :
    (if target < 0 then 0 else if size < target then size else target : Int64).toInt =
      f.clamp target.toInt := by
  have h0 : (0 : Int64).toInt = 0 := rfl
  unfold SeekableFile.clamp
  simp only [Int64.lt_iff_toInt_lt, h0, hs]
  split_ifs
  · omega
  · omega
  · omega

theorem Agrees.seek (h : Agrees s f) (hsize : f.size < 2 ^ 63) {pos : Int64} {mode : Int32}
    (hin : InRange f (.seek pos mode)) :
    ∃ s', (s.seek pos mode).2 = ((fileCall f (.seek pos mode)).1, s') ∧
      Agrees s' (fileCall f (.seek pos mode)).2 := by
  have hle : f.position ≤ f.size := f.inside
  have hlow := Int64.le_toInt pos
  have hs := h.size64 hsize
  unfold YaBStream.seek
  simp only [fileCall, seekTarget]
  split_ifs with hset hcur hend
  · refine ⟨_, Prod.ext (congrArg Reply.position (clamped_toInt hsize hs)) rfl, h.content, ?_⟩
    exact clamped_toInt hsize hs
  · have hsum : (s.seek_position_ + pos).toInt = f.position + pos.toInt := by
      have hhigh := hin.1 hcur
      rw [toInt_add_of_lt, h.position] <;> rw [h.position] <;> omega
    have hclamped := @clamped_toInt f hsize _ (s.seek_position_ + pos) hs
    rw [hsum] at hclamped
    exact ⟨_, Prod.ext (congrArg Reply.position hclamped) rfl, h.content, hclamped⟩
  · have hsum : (s.size64 + pos).toInt = f.size + pos.toInt := by
      have hhigh := hin.2 hend
      rw [toInt_add_of_lt, hs] <;> rw [hs] <;> omega
    have hclamped := @clamped_toInt f hsize _ (s.size64 + pos) hs
    rw [hsum] at hclamped
    exact ⟨_, Prod.ext (congrArg Reply.position hclamped) rfl, h.content, hclamped⟩
  · exact ⟨s, rfl, h⟩

/-- A target that wraps is negative, so it becomes the start of the stream in place of its end. -/
theorem clamped_ne_of_wrapped (hsize : f.size < 2 ^ 63) {a b size : Int64} (ha : a.toInt ≤ f.size)
    (hout : 2 ^ 63 ≤ a.toInt + b.toInt) :
    (if a + b < 0 then 0 else if size < a + b then size else a + b : Int64).toInt ≠
      f.clamp (a.toInt + b.toInt) := by
  have halt := Int64.toInt_lt a
  have hb := Int64.toInt_lt b
  have h0 : (0 : Int64).toInt = 0 := rfl
  have hneg : a + b < 0 := by
    rw [Int64.lt_iff_toInt_lt, toInt_add_wraps hout]
    omega
  have hclamp : f.clamp (a.toInt + b.toInt) = f.size := by
    unfold SeekableFile.clamp
    omega
  rw [if_pos hneg, hclamp]
  omega

theorem Agrees.seek_wraps (h : Agrees s f) (hsize : f.size < 2 ^ 63) {pos : Int64} {mode : Int32}
    (hout : ¬ InRange f (.seek pos mode)) :
    ¬ Agrees (s.seek pos mode).2.2 (fileCall f (.seek pos mode)).2 := by
  have hle : f.position ≤ f.size := f.inside
  have hhigh := Int64.toInt_lt pos
  have hs := h.size64 hsize
  -- the two modes that add, and what they add up to
  have hcases : mode = kIBSeekCur ∧ 2 ^ 63 ≤ s.seek_position_.toInt + pos.toInt ∨
      mode = kIBSeekEnd ∧ 2 ^ 63 ≤ s.size64.toInt + pos.toInt := by
    rw [h.position, hs]
    by_contra hno
    refine hout ⟨?_, ?_⟩
    · intro hcur
      by_contra hbig
      exact hno (.inl ⟨hcur, by omega⟩)
    · intro hend
      by_contra hbig
      exact hno (.inr ⟨hend, by omega⟩)
  intro hagrees
  have hposition := hagrees.position
  rcases hcases with ⟨rfl, hbig⟩ | ⟨rfl, hbig⟩
  · have hapart := @clamped_ne_of_wrapped f hsize s.seek_position_ pos s.size64
      (by rw [h.position]; omega) hbig
    rw [h.position] at hapart
    exact hapart hposition
  · have hapart := @clamped_ne_of_wrapped f hsize s.size64 pos s.size64 (by rw [hs]) hbig
    rw [hs] at hapart
    exact hapart hposition

/-! ### All calls -/

theorem size_lt_of_step (hsize : f.size < 2 ^ 63) {c : StreamCall} (hin : InRange f c) :
    (fileCall f c).2.size < 2 ^ 63 := by
  have hle : f.position ≤ f.content.length := f.inside
  have hsz : f.size = f.content.length := rfl
  cases c with
  | read numBytes hn => exact hsize
  | write buffer numBytes hn hfilled =>
    have hcount := Int32.cast_toNatClampNeg numBytes hn
    change (overwritten f.content f.position _).length < 2 ^ 63
    rw [overwritten_length hle, List.length_take, Nat.min_eq_left hfilled]
    have hin' : f.position + numBytes.toInt < 2 ^ 63 := hin.1
    omega
  | seek pos mode =>
    simp only [fileCall]
    cases seekTarget f pos mode with
    | none => exact hsize
    | some target => exact hsize
  | tell => exact hsize
  | getStreamSize => exact hsize
  | setStreamSize size hn =>
    have hlt := Int64.toInt_lt size
    change (resized 0 f.content size.toNatClampNeg).length < 2 ^ 63
    rw [resized_length, Int64.toNatClampNeg]
    omega

theorem Agrees.call (h : Agrees s f) (hsize : f.size < 2 ^ 63) {c : StreamCall}
    (hin : InRange f c) :
    ∃ s', s.call c = some ((fileCall f c).1, s') ∧ Agrees s' (fileCall f c).2 := by
  cases c with
  | read numBytes hn =>
    obtain ⟨result, s', hread, hagrees⟩ := h.read hsize hn
    exact ⟨s', by simp only [YaBStream.call, hread, Option.map_some], hagrees⟩
  | write buffer numBytes hn hfilled =>
    obtain ⟨result, s', hwrite, hagrees⟩ := h.write hsize hn hfilled hin
    exact ⟨s', by simp only [YaBStream.call, hwrite, Option.map_some], hagrees⟩
  | seek pos mode =>
    obtain ⟨s', hseek, hagrees⟩ := h.seek hsize hin
    exact ⟨s', congrArg some hseek, hagrees⟩
  | tell =>
    refine ⟨s, ?_, h⟩
    simp [YaBStream.call, YaBStream.tell, fileCall, h.position]
  | getStreamSize =>
    refine ⟨s, ?_, h⟩
    simp [YaBStream.call, YaBStream.getStreamSize, fileCall, h.size64 hsize]
  | setStreamSize size hn =>
    have hneg : ¬ size < 0 := Int64.not_lt.mpr hn
    change f.position ≤ size.toInt at hin
    have hkeep : min f.position size.toNatClampNeg = f.position := by
      rw [Int64.toNatClampNeg]
      omega
    refine ⟨_, by simp only [YaBStream.call, YaBStream.setStreamSize, if_neg hneg]; rfl, ?_, ?_⟩
    · exact congrArg (fun content => resized 0 content size.toNatClampNeg) h.content
    · change s.seek_position_.toInt = ((min f.position size.toNatClampNeg : Nat) : Int)
      rw [hkeep]
      exact h.position

/-- A call that is not in range leaves the stream and the file apart. -/
theorem Agrees.call_out (h : Agrees s f) (hsize : f.size < 2 ^ 63) {c : StreamCall}
    (hout : ¬ InRange f c) {r : Reply} {s' : YaBStream} (hcall : s.call c = some (r, s')) :
    ¬ Agrees s' (fileCall f c).2 := by
  cases c with
  | read numBytes hn => exact absurd trivial hout
  | write buffer numBytes hn hfilled =>
    have hnone : s.write (some buffer) numBytes = none := by
      rcases not_and_or.mp hout with hwraps | hnothing
      · exact h.write_wraps hsize hn (Int.not_lt.mp hwraps)
      · obtain ⟨hcount, hend⟩ := not_or.mp hnothing
        obtain rfl := Int32.le_antisymm (Int32.not_lt.mp hcount) hn
        exact h.write_nothing hsize (Nat.not_lt.mp hend)
    simp only [YaBStream.call, hnone] at hcall
    exact absurd hcall nofun
  | seek pos mode =>
    have hapart := h.seek_wraps hsize hout
    have heq : (s.seek pos mode).2 = (r, s') := Option.some.inj hcall
    rwa [heq] at hapart
  | tell => exact absurd trivial hout
  | getStreamSize => exact absurd trivial hout
  | setStreamSize size hn =>
    have hneg : ¬ size < 0 := Int64.not_lt.mpr hn
    simp only [YaBStream.call, YaBStream.setStreamSize, if_neg hneg, Option.map_some] at hcall
    obtain ⟨_, rfl⟩ := Prod.mk.inj (Option.some.inj hcall)
    intro hagrees
    have hposition := hagrees.position
    change s.seek_position_.toInt = ((min f.position size.toNatClampNeg : Nat) : Int) at hposition
    change ¬ f.position ≤ size.toInt at hout
    have hmin := Nat.min_le_right f.position size.toNatClampNeg
    have hcast : (size.toNatClampNeg : Int) = size.toInt :=
      Int.toNat_of_nonneg (Int64.le_iff_toInt_le.mp hn)
    rw [h.position] at hposition
    omega

end OneCall

/-! ## Runs -/

/-- A stream beside the file that has its content, before any call. -/
def YaBStream.beside (s : YaBStream) : Beside :=
  ⟨some (.nothing, s), .nothing, s.buffer_, 0, Nat.zero_le _⟩

theorem InStep.step {t u : Beside} {c : StreamCall} (h : InStep t)
    (hsize : t.file.2.size < 2 ^ 63) (hin : InRange t.file.2 c) (hstep : t.step c = some u) :
    InStep u ∧ u.file.2.size < 2 ^ 63 := by
  obtain ⟨s, hs, hagrees⟩ := h
  obtain rfl := Option.some.inj hstep
  obtain ⟨r, hr, hnext⟩ := hagrees.call hsize hin
  refine ⟨⟨r, ?_, hnext⟩, size_lt_of_step hsize hin⟩
  simp only [hs, Option.bind_some, hr]

theorem InStep.step_out {t u : Beside} {c : StreamCall} (h : InStep t)
    (hsize : t.file.2.size < 2 ^ 63) (hout : ¬ InRange t.file.2 c) (hstep : t.step c = some u) :
    ¬ InStep u := by
  obtain ⟨s, hs, hagrees⟩ := h
  obtain rfl := Option.some.inj hstep
  rintro ⟨r, hr, hnext⟩
  simp only [hs, Option.bind_some] at hr
  exact hagrees.call_out hsize hout hr hnext

/-- A stream is a file in exactly the runs whose calls are all in range. -/
theorem stream_is_file_iff (s : YaBStream) (hsize : s.buffer_.length < 2 ^ 63)
    (hstart : s.seek_position_ = 0) (calls : List StreamCall) :
    Transition.Throughout Beside.step InStep s.beside calls ↔
      Transition.Meets Beside.step (fun t c => InRange t.file.2 c) s.beside calls := by
  obtain ⟨u, hrun⟩ := Transition.run_of_total (fun _ _ => ⟨_, rfl⟩) s.beside calls
  have hinit : InStep s.beside ∧ s.beside.file.2.size < 2 ^ 63 := by
    refine ⟨⟨s, rfl, rfl, ?_⟩, hsize⟩
    rw [hstart]
    rfl
  refine @Transition.throughout_iff_meets _ _ Beside.step _ (fun _ => True)
    (fun t => InStep t ∧ t.file.2.size < 2 ^ 63) _ (fun _ _ _ _ _ => trivial) ?_
    (fun _ _ h => h.1) ?_ _ _ _ trivial hinit hrun
  · intro t c v _ hsafe hin hstep
    exact hsafe.1.step hsafe.2 hin hstep
  · intro t c v _ hsafe hout hstep
    exact hsafe.1.step_out hsafe.2 hout hstep

theorem empty_stream_is_file : YaBStream.fresh.buffer_.length < 2 ^ 63 ∧
    (Transition.Throughout Beside.step InStep YaBStream.fresh.beside [.write [1, 2] 2 (by decide)
        (by decide), .seek 0 kIBSeekSet, .read 1 (by decide)] ↔
      Transition.Meets Beside.step (fun t c => InRange t.file.2 c) YaBStream.fresh.beside
        [.write [1, 2] 2 (by decide) (by decide), .seek 0 kIBSeekSet, .read 1 (by decide)]) := by
  have hsize : YaBStream.fresh.buffer_.length < 2 ^ 63 := by decide
  exact ⟨hsize, stream_is_file_iff YaBStream.fresh hsize rfl _⟩

/-- One byte is written and then cut off. -/
def cutOff : List StreamCall :=
  [.write [1] 1 (by decide) (by decide), .setStreamSize 0 (by decide)]

theorem position_beyond_size :
    ¬ Transition.Throughout Beside.step InStep YaBStream.fresh.beside cutOff := by
  intro h
  obtain ⟨hwritten, hcut⟩ := h.2 _ rfl
  have hout : ¬ InRange (fileCall YaBStream.fresh.beside.file.2
      (.write [1] 1 (by decide) (by decide))).2 (.setStreamSize 0 (by decide)) := by
    change ¬ ((1 : Nat) : Int) ≤ (0 : Int64).toInt
    decide
  exact hwritten.step_out (by decide) hout rfl (hcut _ rfl)

end Vst3
