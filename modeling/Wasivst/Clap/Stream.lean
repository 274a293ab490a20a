import Mathlib.Data.UInt
import Wasivst.Bitsery
import Wasivst.Lib.SeekableFile
import Wasivst.Lib.Transition

/-!
# CLAP streams

`clap::stream::Stream` of `serialization/clap/stream.{h,cpp}`. Its buffer is read from a host's
stream or written by a plugin, and it is read by a plugin or written to a host's stream. A host
returns as little at a time as it likes.
-/

set_option autoImplicit false

namespace Clap
open InPlace SeekableFile

/-- What a call stores at the pointer that it gets, and the count that it returns. -/
structure ReadResult where
  num_bytes_read : Int64
  stored : List UInt8

/-- A `clap_istream_t` to read from. -/
structure HostIStream (σ : Type) where
  read : σ → Nat → ReadResult × σ
  stored_le : ∀ host size, (read host size).1.stored.length ≤ size
  num_bytes_read_le : ∀ host size,
    (read host size).1.num_bytes_read.toInt ≤ (read host size).1.stored.length

/-- A `clap_ostream_t` to write to. The count is how many of the bytes it takes. -/
structure HostOStream (τ : Type) where
  write : τ → List UInt8 → Int64 × τ

structure Stream where
  buffer_ : List UInt8
  read_pos_ : UInt64

def read_chunk_size : Nat := 2 ^ 20

namespace Stream
variable {σ τ : Type}

def fresh : Stream := ⟨[], 0⟩

/-! ## From a host -/

structure Filling (σ : Type) where
  buffer_ : List UInt8
  stream_length : Nat
  host : σ

/-- One pass of the loop. The error is the `break`. -/
def fill (original : HostIStream σ) (f : Filling σ) : Except (Filling σ) (Filling σ) :=
  let reserved := resized 0 f.buffer_ (f.stream_length + read_chunk_size)
  let (result, host) := original.read f.host read_chunk_size
  let buffer_ := overwritten reserved f.stream_length result.stored
  if result.num_bytes_read ≤ 0 then .error ⟨buffer_, f.stream_length, host⟩
  else .ok ⟨buffer_, f.stream_length + result.num_bytes_read.toNatClampNeg, host⟩

/-- The constructor that reads a host's stream, with at most `n` calls. -/
def ofHost (original : HostIStream σ) (host : σ) (n : Nat) : Option Stream :=
  (Transition.loop (fill original) n ⟨[], 0, host⟩).2.map fun f =>
    ⟨resized 0 f.buffer_ f.stream_length, 0⟩

/-! ## The two vtables -/

def ostream_write (s : Stream) (buffer : List UInt8) : Int64 × Stream :=
  let start_pos := s.buffer_.length
  let reserved := resized 0 s.buffer_ (start_pos + buffer.length)
  (Int64.ofNat buffer.length, { s with buffer_ := overwritten reserved start_pos buffer })

/-- The count, and the bytes that are stored at the caller's pointer. A copy of bytes that the
buffer does not have has no result. -/
def istream_read (s : Stream) (size : UInt64) : Option ((Int × List UInt8) × Stream) :=
  let remaining := UInt64.ofNat s.buffer_.length - s.read_pos_
  let num_bytes_read := min size remaining
  if s.read_pos_.toNat + num_bytes_read.toNat ≤ s.buffer_.length then
    some ((num_bytes_read.toInt64.toInt,
        (s.buffer_.drop s.read_pos_.toNat).take num_bytes_read.toNat),
      { s with read_pos_ := s.read_pos_ + num_bytes_read })
  else none

/-- The position is not sent. -/
def serialize (B : Bitsery) : Codec Stream :=
  .record [.field (·.buffer_) (fun s v => { s with buffer_ := v }) (B.text1b (50 * 2 ^ 20))]

/-! ## To a host -/

/-- `accepted` are the bytes that the host took in each call. -/
structure Draining (τ : Type) where
  num_bytes_written : Nat
  host : τ
  accepted : List (List UInt8)

inductive Stop
  | finished
  | assertion

def drain (buffer_ : List UInt8) (original : HostOStream τ) (d : Draining τ) :
    Except Stop (Draining τ) :=
  if d.num_bytes_written < buffer_.length then
    let offer := buffer_.drop d.num_bytes_written
    let (actual_written_bytes, host) := original.write d.host offer
    let actual := actual_written_bytes.toNatClampNeg
    if 0 < actual_written_bytes then
      .ok ⟨d.num_bytes_written + actual, host, d.accepted ++ [offer.take actual]⟩
    else .error .assertion
  else .error .finished

/-- At most `n` passes of the loop. -/
def write_to_stream (s : Stream) (original : HostOStream τ) (host : τ) (n : Nat) :
    Draining τ × Option Stop :=
  Transition.loop (drain s.buffer_ original) n ⟨0, host, []⟩

/-! ## Series of calls -/

def writes (buffers : List (List UInt8)) : Stream :=
  buffers.foldl (fun s buffer => (s.ostream_write buffer).2) fresh

def reads : Stream → List UInt64 → Option (List (Int × List UInt8) × Stream)
  | s, [] => some ([], s)
  | s, size :: sizes => do
    let (reply, s) ← s.istream_read size
    let (replies, s) ← reads s sizes
    some (reply :: replies, s)

end Stream

/-! ## What a host delivers and takes -/

def ReadResult.chunk (r : ReadResult) : List UInt8 := r.stored.take r.num_bytes_read.toNatClampNeg

/-- The host returns these chunks one by one, and then the end of the file. -/
inductive HostIStream.Delivers {σ : Type} (original : HostIStream σ) : σ → List (List UInt8) → Prop
  | eof {host : σ} (h : (original.read host read_chunk_size).1.num_bytes_read ≤ 0) :
    Delivers original host []
  | chunk {host : σ} {chunks : List (List UInt8)}
    (h : ¬ (original.read host read_chunk_size).1.num_bytes_read ≤ 0)
    (rest : Delivers original (original.read host read_chunk_size).2 chunks) :
    Delivers original host ((original.read host read_chunk_size).1.chunk :: chunks)

/-- The host takes some of the bytes of every offer. -/
def HostOStream.AcceptsSome {τ : Type} (original : HostOStream τ) : Prop :=
  ∀ host offer, offer ≠ [] →
    0 < (original.write host offer).1 ∧ (original.write host offer).1.toInt ≤ offer.length

section Filling
variable {σ : Type} {original : HostIStream σ} {f : Stream.Filling σ} {xs : List UInt8}

/-- The bytes that have been read stand at the start of the buffer. -/
structure Filled (f : Stream.Filling σ) (xs : List UInt8) : Prop where
  length : f.stream_length = xs.length
  buffer : f.buffer_.take f.stream_length = xs

theorem Filled.length_le (h : Filled f xs) : f.stream_length ≤ f.buffer_.length := by
  have hlen := congrArg List.length h.buffer
  rw [List.length_take] at hlen
  have hxs := h.length
  omega

/-- Bytes that are stored behind them, of which some count. -/
theorem Filled.stored (h : Filled f xs) (host : σ) (stored : List UInt8) {n : Nat}
    (hn : n ≤ stored.length) :
    Filled ⟨overwritten (resized 0 f.buffer_ (f.stream_length + read_chunk_size)) f.stream_length
      stored, f.stream_length + n, host⟩ (xs ++ stored.take n) := by
  have hroom : f.stream_length ≤
      (resized 0 f.buffer_ (f.stream_length + read_chunk_size)).length := by
    rw [resized_length]
    exact Nat.le_add_right _ _
  constructor
  · rw [List.length_append, List.length_take_of_le hn, h.length]
  · rw [take_overwritten hroom hn, take_resized 0 h.length_le (Nat.le_add_right _ _), h.buffer]

theorem HostIStream.count_le (original : HostIStream σ) (host : σ) (size : Nat) :
    (original.read host size).1.num_bytes_read.toNatClampNeg ≤
      (original.read host size).1.stored.length :=
  Int.toNat_le.mpr (original.num_bytes_read_le host size)

/-- The loop ends after the end of the file, with all the chunks. -/
theorem HostIStream.Delivers.filled {chunks : List (List UInt8)}
    (h : original.Delivers f.host chunks) (hf : Filled f xs) {n : Nat} (hn : chunks.length < n) :
    ∃ f', (Transition.loop (Stream.fill original) n f).2 = some f' ∧
      Filled f' (xs ++ chunks.flatten) := by
  obtain ⟨m, rfl⟩ : ∃ m, n = m + 1 := ⟨n - 1, by omega⟩
  generalize hhost : f.host = host at h
  induction h generalizing f xs m with
  | eof heof =>
    subst hhost
    have hstored := hf.stored (original.read f.host read_chunk_size).2
      (original.read f.host read_chunk_size).1.stored (Nat.zero_le _)
    refine ⟨_, ?_, hstored⟩
    simp only [Transition.loop, Stream.fill, if_pos heof]
    rfl
  | @chunk _ chunks hpos _ ih =>
    subst hhost
    have hlt : chunks.length < m := Nat.lt_of_succ_lt_succ hn
    obtain ⟨k, rfl⟩ : ∃ k, m = k + 1 := ⟨m - 1, by omega⟩
    have hstored := hf.stored (original.read f.host read_chunk_size).2 _
      (original.count_le f.host read_chunk_size)
    obtain ⟨f', hloop, hf'⟩ := ih hstored k hlt rfl
    refine ⟨f', ?_, ?_⟩
    · rw [Transition.loop]
      simp only [Stream.fill, if_neg hpos]
      exact hloop
    · rw [List.flatten_cons, ← List.append_assoc]
      exact hf'

theorem ofHost_eq {host : σ} {chunks : List (List UInt8)} (h : original.Delivers host chunks)
    {n : Nat} (hn : chunks.length < n) :
    Stream.ofHost original host n = some ⟨chunks.flatten, 0⟩ := by
  have hempty : Filled (⟨[], 0, host⟩ : Stream.Filling σ) [] := ⟨rfl, rfl⟩
  obtain ⟨f', hloop, hf'⟩ := h.filled hempty hn
  rw [Stream.ofHost, hloop, Option.map_some, resized_of_le 0 hf'.length_le, hf'.buffer,
    List.nil_append]

end Filling

/-! ## Writes and reads of a plugin -/

@[simp] theorem Stream.ostream_write_buffer_ (s : Stream) (buffer : List UInt8) :
    (s.ostream_write buffer).2.buffer_ = s.buffer_ ++ buffer := by
  have hgrow := overwritten_resized (0 : UInt8) (Nat.le_refl s.buffer_.length) buffer
  rw [Nat.max_eq_right (Nat.le_add_right _ _), overwritten_end] at hgrow
  exact hgrow

theorem Stream.foldl_ostream_write (s : Stream) (buffers : List (List UInt8)) :
    (buffers.foldl (fun s buffer => (s.ostream_write buffer).2) s).buffer_ =
      s.buffer_ ++ buffers.flatten := by
  induction buffers generalizing s with
  | nil => exact (List.append_nil _).symm
  | cons buffer buffers ih =>
    rw [List.foldl_cons, ih, ostream_write_buffer_, List.flatten_cons, List.append_assoc]

theorem Stream.writes_buffer_ (buffers : List (List UInt8)) :
    (writes buffers).buffer_ = buffers.flatten := foldl_ostream_write fresh buffers

/-- The reference: every read returns as many of the remaining bytes as it asks for, if there are
as many. -/
def fetched : List UInt8 → List UInt64 → List (Int × List UInt8)
  | _, [] => []
  | remaining, size :: sizes =>
    ((min size.toNat remaining.length : Nat), remaining.take size.toNat) ::
      fetched (remaining.drop size.toNat) sizes

theorem flatMap_fetched (remaining : List UInt8) (sizes : List UInt64) :
    (fetched remaining sizes).flatMap Prod.snd =
      remaining.take (sizes.map UInt64.toNat).sum := by
  induction sizes generalizing remaining with
  | nil => rw [List.map_nil, List.sum_nil, List.take_zero]; rfl
  | cons size sizes ih =>
    rw [fetched, List.flatMap_cons, ih, List.map_cons, List.sum_cons, List.take_add]

theorem toInt_toInt64 {n : UInt64} (h : n.toNat < 2 ^ 63) : n.toInt64.toInt = n.toNat := by
  have hbits : 2 * n.toBitVec.toNat < 2 ^ 64 := by
    change 2 * n.toNat < 2 ^ 64
    omega
  exact BitVec.toInt_eq_toNat_of_lt hbits

namespace Stream
variable {s : Stream}

/-- The position is in the buffer, whose size has an `int64`. -/
structure Readable (s : Stream) : Prop where
  size_lt : s.buffer_.length < 2 ^ 63
  inside : s.read_pos_.toNat ≤ s.buffer_.length

def remaining (s : Stream) : List UInt8 := s.buffer_.drop s.read_pos_.toNat

/-- One read takes the bytes that it returns off the front. -/
theorem Readable.istream_read (h : s.Readable) (size : UInt64) :
    ∃ s' : Stream, s.istream_read size = some
        ((((min size.toNat s.remaining.length : Nat) : Int), s.remaining.take size.toNat), s') ∧
      s'.Readable ∧ s'.remaining = s.remaining.drop size.toNat := by
  have hsize := h.size_lt
  have hin := h.inside
  have hlen : s.remaining.length = s.buffer_.length - s.read_pos_.toNat := List.length_drop
  have hbuffer : (UInt64.ofNat s.buffer_.length).toNat = s.buffer_.length :=
    UInt64.toNat_ofNat_of_lt' (by rw [UInt64.size]; omega)
  obtain ⟨k, hk⟩ : ∃ k, k = min size (UInt64.ofNat s.buffer_.length - s.read_pos_) := ⟨_, rfl⟩
  have hkn : k.toNat = min size.toNat s.remaining.length := by
    rw [hk, UInt64.toNat_min, UInt64.toNat_sub_of_le, hbuffer, hlen]
    rw [UInt64.le_iff_toNat_le, hbuffer]
    exact hin
  have hki : k.toInt64.toInt = (min size.toNat s.remaining.length : Nat) := by
    rw [← hkn]
    exact toInt_toInt64 (by omega)
  have htake : s.remaining.take k.toNat = s.remaining.take size.toNat := by
    rw [hkn, List.take_eq_take_iff]
    omega
  have hpos : (s.read_pos_ + k).toNat = s.read_pos_.toNat + k.toNat := by
    rw [UInt64.toNat_add]
    omega
  unfold Stream.istream_read
  simp only [← hk, if_pos (show s.read_pos_.toNat + k.toNat ≤ s.buffer_.length by omega), hki]
  refine ⟨_, congrArg some (Prod.ext (Prod.ext rfl htake) rfl), ⟨hsize, ?_⟩, ?_⟩
  · change (s.read_pos_ + k).toNat ≤ s.buffer_.length
    omega
  · change s.buffer_.drop (s.read_pos_ + k).toNat = s.remaining.drop size.toNat
    rw [remaining, List.drop_drop, List.drop_eq_drop_iff]
    omega

theorem Readable.reads (h : s.Readable) (sizes : List UInt64) :
    ∃ s', s.reads sizes = some (fetched s.remaining sizes, s') ∧ s'.Readable := by
  induction sizes generalizing s with
  | nil => exact ⟨s, rfl, h⟩
  | cons size sizes ih =>
    obtain ⟨s₁, hread, h₁, hremaining⟩ := h.istream_read size
    obtain ⟨s', hreads, h'⟩ := ih h₁
    refine ⟨s', ?_, h'⟩
    rw [hremaining] at hreads
    simp only [Stream.reads, hread, hreads, fetched, Option.bind_eq_bind, Option.bind_some]

/-! ## Writes to a host -/

section Drain
variable {τ : Type} {buffer_ : List UInt8} {original : HostOStream τ} {d d' : Draining τ}

/-- The bytes that the next call offers. -/
def offer (buffer_ : List UInt8) (d : Draining τ) : List UInt8 := buffer_.drop d.num_bytes_written

theorem drain_cases (h : drain buffer_ original d = .ok d') :
    d.num_bytes_written < buffer_.length ∧ 0 < (original.write d.host (offer buffer_ d)).1 ∧
      d'.num_bytes_written = d.num_bytes_written +
        (original.write d.host (offer buffer_ d)).1.toNatClampNeg ∧
      d'.accepted = d.accepted ++ [(offer buffer_ d).take
        (original.write d.host (offer buffer_ d)).1.toNatClampNeg] := by
  simp only [drain] at h
  split_ifs at h with hlt hpos
  obtain rfl := Except.ok.inj h
  exact ⟨hlt, hpos, rfl, rfl⟩

/-- The host has the bytes of the buffer up to the count. -/
structure Drained (buffer_ : List UInt8) (d : Draining τ) : Prop where
  inside : d.num_bytes_written ≤ buffer_.length
  accepted : d.accepted.flatten = buffer_.take d.num_bytes_written

theorem drain_decreases (h : drain buffer_ original d = .ok d') :
    buffer_.length - d'.num_bytes_written < buffer_.length - d.num_bytes_written := by
  obtain ⟨hlt, hpos, hwritten, _⟩ := drain_cases h
  have hactual : 0 < (original.write d.host (offer buffer_ d)).1.toNatClampNeg := by
    have h0 : (0 : Int64).toInt = 0 := rfl
    rw [Int64.lt_iff_toInt_lt, h0] at hpos
    exact Int.lt_toNat.mpr hpos
  omega

theorem offer_ne_nil (h : d.num_bytes_written < buffer_.length) : offer buffer_ d ≠ [] := by
  rw [Ne, offer, List.drop_eq_nil_iff]
  omega

theorem Drained.step (hd : Drained buffer_ d) (ho : original.AcceptsSome)
    (h : drain buffer_ original d = .ok d') : Drained buffer_ d' := by
  obtain ⟨hlt, _, hwritten, haccepted⟩ := drain_cases h
  have hactual : (original.write d.host (offer buffer_ d)).1.toNatClampNeg ≤
      buffer_.length - d.num_bytes_written := by
    rw [← List.length_drop]
    exact Int.toNat_le.mpr (ho d.host _ (offer_ne_nil hlt)).2
  constructor
  · omega
  · rw [haccepted, hwritten, List.flatten_append, hd.accepted, List.flatten_singleton, offer,
      ← List.take_add]

theorem Drained.iterates (hd : Drained buffer_ d) (ho : original.AcceptsSome)
    (h : Transition.Iterates (drain buffer_ original) d d') : Drained buffer_ d' := by
  induction h with
  | refl => exact hd
  | tail _ hstep ih => exact ih.step ho hstep

/-- The loop does not stop before the host has everything. -/
theorem Drained.stop (hd : Drained buffer_ d) (ho : original.AcceptsSome) {e : Stop}
    (h : drain buffer_ original d = .error e) : e = .finished ∧ d.accepted.flatten = buffer_ := by
  by_cases hlt : d.num_bytes_written < buffer_.length
  · have hpos := (ho d.host _ (offer_ne_nil hlt)).1
    rw [offer] at hpos
    simp only [drain, if_pos hlt, if_pos hpos] at h
    exact absurd h nofun
  · unfold drain at h
    rw [if_neg hlt] at h
    refine ⟨(Except.error.inj h).symm, ?_⟩
    rw [hd.accepted, List.take_of_length_le (Nat.le_of_not_lt hlt)]

end Drain

/-- The loop ends, and the host has every byte once and in order. -/
theorem write_to_stream_ends {τ : Type} {original : HostOStream τ} (ho : original.AcceptsSome)
    (s : Stream) (host : τ) {n : Nat} (hn : s.buffer_.length < n) :
    ∃ d, s.write_to_stream original host n = (d, some .finished) ∧
      d.accepted.flatten = s.buffer_ := by
  have hstart : Drained s.buffer_ (⟨0, host, []⟩ : Draining τ) := ⟨Nat.zero_le _, rfl⟩
  obtain ⟨d, e, hiterates, hstop, hloop⟩ := Transition.loop_ends
    (fun _ _ => drain_decreases) (⟨0, host, []⟩ : Draining τ) n hn
  obtain ⟨rfl, hall⟩ := (hstart.iterates ho hiterates).stop ho hstop
  exact ⟨d, hloop, hall⟩

end Stream

/-! ## Carried state -/

/-- What was written arrives in an object that has not been read, and reads of these sizes return
it in order. -/
structure ReadsBack (B : Bitsery) (old : List UInt8) (buffers : List (List UInt8))
    (sizes : List UInt64) (replies : List (Int × List UInt8)) (s : Stream) : Prop where
  received : ((Stream.serialize B).transfer ⟨old, 0⟩ (.writes buffers)).bind (·.reads sizes) =
    some (replies, s)
  each : replies = fetched buffers.flatten sizes
  in_order : replies.flatMap Prod.snd = buffers.flatten.take (sizes.map UInt64.toNat).sum
  inside : s.read_pos_.toNat ≤ s.buffer_.length

theorem Stream.serialize_fits (B : Bitsery) (s : Stream) :
    (serialize B).fits s ↔ s.buffer_.length ≤ 50 * 2 ^ 20 := by
  have hmax : 50 * 2 ^ 20 < 2 ^ 30 := by decide
  simp only [serialize, Codec.record_cons_fits, Codec.record_nil_fits, Codec.field_fits,
    B.text1b_fits hmax, Bool.and_true, decide_eq_true_iff]

theorem Stream.serialize_put (B : Bitsery) (old s : Stream) :
    (serialize B).put old s = { old with buffer_ := s.buffer_ } := by
  simp [serialize]

theorem readsBack_iff (B : Bitsery) (old : List UInt8) (buffers : List (List UInt8))
    (sizes : List UInt64) : (∃ replies s, ReadsBack B old buffers sizes replies s) ↔
      buffers.flatten.length ≤ 50 * 2 ^ 20 := by
  have hfits := Stream.serialize_fits B (.writes buffers)
  rw [Stream.writes_buffer_] at hfits
  rw [← hfits]
  constructor
  · intro h
    rcases h with ⟨replies, s, h⟩
    rcases Option.bind_eq_some_iff.mp h.received with ⟨sent, hsent, _⟩
    exact (Codec.transfer_eq_some.mp hsent).1
  · intro h
    have hsent := Codec.transfer_eq_some.mpr ⟨h, (Stream.serialize_put B ⟨old, 0⟩ _).symm⟩
    rw [Stream.writes_buffer_] at hsent
    have hreadable : Stream.Readable ⟨buffers.flatten, 0⟩ :=
      ⟨Nat.lt_of_le_of_lt (hfits.mp h) (by decide), Nat.zero_le _⟩
    obtain ⟨s, hreads, hs⟩ := hreadable.reads sizes
    have hremaining : Stream.remaining ⟨buffers.flatten, 0⟩ = buffers.flatten := List.drop_zero
    rw [hremaining] at hreads
    refine ⟨_, s, ?_, rfl, flatMap_fetched _ _, hs.inside⟩
    rw [hsent, Option.bind_some, hreads]

theorem state_carried {σ τ : Type} (i : HostIStream σ) {host : σ} {chunks : List (List UInt8)}
    (hi : i.Delivers host chunks) (o : HostOStream τ) (ho : o.AcceptsSome) (target : τ)
    (B : Bitsery) (old : List UInt8) (buffers : List (List UInt8)) (sizes : List UInt64)
    (s : Stream) :
    (∀ n, chunks.length < n → Stream.ofHost i host n = some ⟨chunks.flatten, 0⟩) ∧
    ((∃ replies s', ReadsBack B old buffers sizes replies s') ↔
      buffers.flatten.length ≤ 50 * 2 ^ 20) ∧
    ∀ n, s.buffer_.length < n → ∃ d, s.write_to_stream o target n = (d, some .finished) ∧
      d.accepted.flatten = s.buffer_ :=
  ⟨fun _ => ofHost_eq hi, readsBack_iff B old buffers sizes,
    fun _ => Stream.write_to_stream_ends ho s target⟩

def nextByte : List UInt8 → Nat → ReadResult × List UInt8
  | byte :: bytes, _ + 1 => (⟨1, [byte]⟩, bytes)
  | bytes, _ => (⟨0, []⟩, bytes)

/-- Every read returns one byte. -/
def byteByByte : HostIStream (List UInt8) where
  read := nextByte
  stored_le := by
    intro host size
    cases host <;> cases size <;> simp [nextByte]
  num_bytes_read_le := by
    intro host size
    cases host <;> cases size <;> simp [nextByte]

def oneByte : HostOStream Unit where
  write _ _ := (1, ())

theorem two_bytes_carried : byteByByte.Delivers [7, 8] [[7], [8]] ∧ oneByte.AcceptsSome ∧
    Stream.ofHost byteByByte [7, 8] 3 = some ⟨[7, 8], 0⟩ ∧
    (∃ replies s', ReadsBack .default [9] [[7], [8]] [1, 5] replies s') ∧
    ∃ d, (⟨[7, 8], 0⟩ : Stream).write_to_stream oneByte () 3 = (d, some .finished) ∧
      d.accepted.flatten = [7, 8] := by
  have hi : byteByByte.Delivers [7, 8] [[7], [8]] :=
    .chunk (by decide) (.chunk (by decide) (.eof (by decide)))
  have ho : oneByte.AcceptsSome := by
    intro _ offer hoffer
    have hlen := List.length_pos_iff.mpr hoffer
    refine ⟨show (0 : Int64) < 1 by decide, ?_⟩
    change (1 : Int) ≤ offer.length
    omega
  obtain ⟨hfrom, hreads, hto⟩ :=
    state_carried byteByByte hi oneByte ho () .default [9] [[7], [8]] [1, 5] ⟨[7, 8], 0⟩
  exact ⟨hi, ho, hfrom 3 (by decide), hreads.mpr (by decide), hto 3 (by decide)⟩

/-- One byte more than the declared maximum. -/
theorem long_state_not_sent : ¬ ∀ (B : Bitsery) (old : List UInt8) (buffers : List (List UInt8))
    (sizes : List UInt64), ∃ replies s, ReadsBack B old buffers sizes replies s := by
  intro h
  have hlen := (readsBack_iff .default [] [List.replicate 52428801 0] []).mp (h _ _ _ _)
  rw [List.flatten_singleton, List.length_replicate] at hlen
  omega

end Clap
