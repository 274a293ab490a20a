import Wasivst.Vst3.BStream

/-!
# Copies of a host's stream

The constructor of `YaBStream` that reads a host's stream, and `write_back`. The buffer gets the
size that two seeks tell, and a single read fills it.
-/

set_option autoImplicit false

namespace Vst3
open SeekableFile

/-! ## Streams of a host -/

/-- `IStreamAttributes`: the file name and the list, where the stream has them. -/
structure StreamMetaData where
  getFileName : Option (List UInt16)
  getAttributes : Option YaAttributeList

/-- A stream to read from. A read delivers some of the requested bytes, from the position on. -/
structure HostIBStream where
  file : SeekableFile UInt8
  size_lt : file.size < 2 ^ 63
  seeksToEnd : Bool
  read : Int32 → Nat
  read_le : ∀ numBytes, (read numBytes : Int) ≤ max numBytes.toInt 0
  attributes : Option StreamMetaData

/-- A stream to write to, and its attribute list if there is one. -/
structure TargetIBStream where
  file : SeekableFile UInt8
  attributes : Option YaAttributeList

namespace YaBStream

/-- The bytes that are read into the new buffer, and the file after that; `none` is the failed
assertion. -/
def readContents (stream : HostIBStream) : Option (List UInt8 × SeekableFile UInt8) :=
  let old_position := Int64.ofNat stream.file.position
  if stream.seeksToEnd then
    let atEnd := stream.file.seek stream.file.size
    let size := Int64.ofNat atEnd.position - old_position
    if 0 < size then
      let buffer_ := resized 0 [] size.toNatClampNeg
      let num_bytes_read := stream.read size.toInt32
      let (bytes, file) := (atEnd.seek old_position.toInt).read num_bytes_read
      if num_bytes_read = 0 ∨ (num_bytes_read : Int) = size.toInt then
        some (overwritten buffer_ 0 bytes, file)
      else none
    else some ([], atEnd)
  else some ([], stream.file)

/-- The meta data of the host's stream. -/
def readMetaData (stream_meta_data_string_keys : List AttrID) (s : YaBStream)
    (attributes : Option StreamMetaData) : YaBStream :=
  match attributes with
  | none => s
  | some stream_attributes =>
    { s with
      supports_stream_attributes_ := true
      file_name_ := stream_attributes.getFileName.map terminated
      attributes_ := some (match stream_attributes.getAttributes with
        | some list => YaAttributeList.read_stream_attributes stream_meta_data_string_keys list
        | none => .empty) }

/-- The copy of a stream, and the stream's file when it has been made. -/
def ofStream (stream_meta_data_string_keys : List AttrID) (stream : HostIBStream) :
    Option (YaBStream × SeekableFile UInt8) :=
  (readContents stream).map fun r =>
    (readMetaData stream_meta_data_string_keys { fresh with buffer_ := r.1 } stream.attributes,
      r.2.seek (Int64.ofNat stream.file.position).toInt)

/-- A null pointer is refused. The assertion compares what the target took with the buffer. -/
def write_back (s : YaBStream) (stream : Option TargetIBStream) :
    Option (TResult × Option TargetIBStream) :=
  match stream with
  | none => some (.kInvalidArgument, none)
  | some target =>
    let bytes := s.buffer_.take (Int32.ofNat s.buffer_.length).toNatClampNeg
    if bytes.length = 0 ∨ bytes.length = s.buffer_.length then
      let attributes := match s.attributes_, target.attributes with
        | some list, some stream_attributes_list => (list.write_back stream_attributes_list).2
        | _, attributes => attributes
      some (.kResultOk, some ⟨target.file.write bytes, attributes⟩)
    else none

end YaBStream

/-! ## Exact copies -/

/-- The number of bytes from the position on. -/
def HostIBStream.remaining (h : HostIBStream) : Nat := h.file.size - h.file.position

/-- What the host's read delivers, when it is called. -/
def HostIBStream.delivered (h : HostIBStream) : List UInt8 :=
  if h.seeksToEnd ∧ 0 < h.remaining then
    (h.file.content.drop h.file.position).take (h.read (Int64.ofNat h.remaining).toInt32)
  else []

/-- The copy holds what was delivered, which is what the content has at the position, the position
is where it was, and another stream gets these bytes. -/
structure CopiedExactly (keys : List AttrID) (h : HostIBStream) (s : YaBStream)
    (file : SeekableFile UInt8) : Prop where
  made : YaBStream.ofStream keys h = some (s, file)
  buffer : s.buffer_ = h.delivered
  content : h.delivered.IsPrefix (h.file.content.drop h.file.position)
  restored : file = h.file
  written_back : ∀ target, ∃ target', s.write_back (some target) = some (.kResultOk, some target') ∧
    target'.file = target.file.write h.delivered

/-- The read delivers all that there is to read. -/
def HostIBStream.DeliversAll (h : HostIBStream) : Prop :=
  h.seeksToEnd = false ∨ h.remaining = 0 ∨
    h.read (Int64.ofNat h.remaining).toInt32 = h.remaining

variable {h : HostIBStream}

theorem HostIBStream.delivered_prefix (h : HostIBStream) :
    h.delivered.IsPrefix (h.file.content.drop h.file.position) := by
  unfold delivered
  split_ifs
  · exact List.take_prefix _ _
  · exact List.nil_prefix

theorem HostIBStream.read_lt (h : HostIBStream) (numBytes : Int32) : h.read numBytes < 2 ^ 31 := by
  have hle := h.read_le numBytes
  have hlt := Int32.toInt_lt numBytes
  omega

/-- The size that the two seeks tell. -/
theorem size_eq (h : HostIBStream) : Int64.ofNat (h.file.seek h.file.size).position -
    Int64.ofNat h.file.position = Int64.ofNat h.remaining := by
  have hin : h.file.position ≤ h.file.size := h.file.inside
  have hlt := h.size_lt
  have hend : (h.file.seek h.file.size).position = h.file.size := by
    change min (h.file.size : Int).toNat h.file.size = h.file.size
    rw [Int.toNat_natCast, Nat.min_self]
  have hsize := Int64.toInt_ofNat_of_lt hlt
  have hposition := Int64.toInt_ofNat_of_lt (Nat.lt_of_le_of_lt hin hlt)
  have hremaining : (Int64.ofNat h.remaining).toInt = h.file.size - h.file.position := by
    unfold HostIBStream.remaining
    rw [Int64.toInt_ofNat_of_lt (by omega)]
    omega
  rw [hend]
  apply Int64.toInt.inj
  rw [hremaining, toInt_sub_of_le, hsize, hposition] <;> rw [hsize, hposition] <;> omega

theorem remaining_lt (h : HostIBStream) : h.remaining < 2 ^ 63 :=
  Nat.lt_of_le_of_lt (Nat.sub_le _ _) h.size_lt

theorem position_toInt (h : HostIBStream) :
    (Int64.ofNat h.file.position).toInt = h.file.position :=
  Int64.toInt_ofNat_of_lt (Nat.lt_of_le_of_lt h.file.inside h.size_lt)

/-- What the constructor reads when there is something to read. -/
theorem readContents_of_pos (hseek : h.seeksToEnd = true) (hpos : 0 < h.remaining) :
    YaBStream.readContents h =
      if h.read (Int64.ofNat h.remaining).toInt32 = 0 ∨
        h.read (Int64.ofNat h.remaining).toInt32 = h.remaining then
        some (overwritten (resized 0 [] h.remaining) 0 h.delivered,
          (h.file.read (h.read (Int64.ofNat h.remaining).toInt32)).2)
      else none := by
  have hsize := Int64.toInt_ofNat_of_lt (remaining_lt h)
  have hnat : (Int64.ofNat h.remaining).toNatClampNeg = h.remaining := by
    rw [Int64.toNatClampNeg, hsize, Int.toNat_natCast]
  have hback : (h.file.seek h.file.size).seek h.file.position = h.file := seek_back rfl
  have hlt : 0 < Int64.ofNat h.remaining := by
    have h0 : (0 : Int64).toInt = 0 := rfl
    rw [Int64.lt_iff_toInt_lt, hsize, h0]
    omega
  have hdelivered : (h.file.read (h.read (Int64.ofNat h.remaining).toInt32)).1 = h.delivered := by
    unfold HostIBStream.delivered
    rw [if_pos ⟨hseek, hpos⟩]
    rfl
  unfold YaBStream.readContents
  simp only [hseek, if_true, size_eq, if_pos hlt, hnat, hsize, position_toInt, hback, hdelivered,
    Int.natCast_inj]

theorem readContents_of_nothing (hno : ¬ (h.seeksToEnd = true ∧ 0 < h.remaining)) :
    ∃ file, YaBStream.readContents h = some ([], file) ∧ file.content = h.file.content := by
  unfold YaBStream.readContents
  by_cases hseek : h.seeksToEnd = true
  · have hzero : h.remaining = 0 := by
      by_contra hne
      exact hno ⟨hseek, Nat.pos_of_ne_zero hne⟩
    refine ⟨h.file.seek h.file.size, ?_, rfl⟩
    simp only [hseek, if_true, size_eq, hzero]
    rfl
  · exact ⟨h.file, by rw [if_neg hseek], rfl⟩

@[simp] theorem readMetaData_buffer_ (keys : List AttrID) (s : YaBStream)
    (attributes : Option StreamMetaData) :
    (YaBStream.readMetaData keys s attributes).buffer_ = s.buffer_ := by
  cases attributes <;> rfl

/-- A buffer whose size an `int32` can tell is written whole. -/
theorem write_back_eq {s : YaBStream} (hlen : s.buffer_.length < 2 ^ 31) (target : TargetIBStream) :
    ∃ target', s.write_back (some target) = some (.kResultOk, some target') ∧
      target'.file = target.file.write s.buffer_ := by
  have htake : s.buffer_.take (Int32.ofNat s.buffer_.length).toNatClampNeg = s.buffer_ := by
    rw [Int32.toNatClampNeg_ofNat_of_lt hlen, List.take_length]
  simp only [YaBStream.write_back, htake, or_true, if_true]
  exact ⟨_, rfl, rfl⟩

/-- A copy whose buffer has what was delivered is exact. -/
theorem copiedExactly {keys : List AttrID} {file : SeekableFile UInt8}
    (hread : YaBStream.readContents h = some (h.delivered, file))
    (hcontent : file.content = h.file.content) :
    ∃ s file', CopiedExactly keys h s file' := by
  have hlen : h.delivered.length < 2 ^ 31 := by
    unfold HostIBStream.delivered
    split_ifs
    · exact Nat.lt_of_le_of_lt (List.length_take_le _ _) (h.read_lt _)
    · exact Nat.two_pow_pos 31
  have hbuffer : (YaBStream.readMetaData keys { YaBStream.fresh with buffer_ := h.delivered }
      h.attributes).buffer_ = h.delivered := readMetaData_buffer_ _ _ _
  refine ⟨_, h.file, ?_, hbuffer, h.delivered_prefix, rfl, ?_⟩
  · rw [YaBStream.ofStream, hread, Option.map_some, position_toInt, seek_back hcontent]
  · intro target
    have hback := write_back_eq (hbuffer.symm ▸ hlen) target
    rwa [hbuffer] at hback

theorem delivered_length (hseek : h.seeksToEnd = true) (hpos : 0 < h.remaining) :
    h.delivered.length = min (h.read (Int64.ofNat h.remaining).toInt32) h.remaining := by
  unfold HostIBStream.delivered
  rw [if_pos ⟨hseek, hpos⟩, List.length_take, List.length_drop]
  rfl

/-- A read that delivers less leaves zeros in the buffer, or fails the assertion. -/
theorem not_copied_of_less {keys : List AttrID} (hseek : h.seeksToEnd = true)
    (hpos : 0 < h.remaining) (hless : h.read (Int64.ofNat h.remaining).toInt32 ≠ h.remaining) :
    ¬ ∃ s file, CopiedExactly keys h s file := by
  rintro ⟨s, file, hcopied⟩
  have hmade := hcopied.made
  have hbuffer := hcopied.buffer
  rw [YaBStream.ofStream, readContents_of_pos hseek hpos] at hmade
  split_ifs at hmade with hassert
  · have hnil : h.delivered = [] := by
      apply List.eq_nil_of_length_eq_zero
      rw [delivered_length hseek hpos, hassert.resolve_right hless, Nat.zero_min]
    obtain ⟨rfl, _⟩ := Prod.mk.inj (Option.some.inj hmade)
    rw [readMetaData_buffer_, hnil, overwritten_nil] at hbuffer
    have hzeros := congrArg List.length hbuffer
    rw [resized_length, List.length_nil] at hzeros
    omega
  · exact absurd hmade nofun

theorem stream_copied_iff (keys : List AttrID) (h : HostIBStream) :
    (∃ s file, CopiedExactly keys h s file) ↔ h.DeliversAll := by
  by_cases hsome : h.seeksToEnd = true ∧ 0 < h.remaining
  · obtain ⟨hseek, hpos⟩ := hsome
    have hall : h.DeliversAll ↔ h.read (Int64.ofNat h.remaining).toInt32 = h.remaining := by
      unfold HostIBStream.DeliversAll
      simp [hseek, Nat.pos_iff_ne_zero.mp hpos]
    rw [hall]
    constructor
    · intro hcopied
      by_contra hless
      exact not_copied_of_less hseek hpos hless hcopied
    · intro hwhole
      have hread := readContents_of_pos hseek hpos
      rw [if_pos (.inr hwhole), overwritten_whole] at hread
      · exact copiedExactly hread rfl
      · rw [resized_length, delivered_length hseek hpos, hwhole, Nat.min_self]
  · obtain ⟨file, hread, hcontent⟩ := readContents_of_nothing hsome
    have hnil : h.delivered = [] := by
      unfold HostIBStream.delivered
      rw [if_neg hsome]
    have hall : h.DeliversAll := by
      unfold HostIBStream.DeliversAll
      by_cases hseek : h.seeksToEnd = true
      · exact .inr (.inl (Nat.eq_zero_of_not_pos fun hpos => hsome ⟨hseek, hpos⟩))
      · exact .inl (Bool.eq_false_iff.mpr hseek)
    exact iff_of_true (copiedExactly (hnil.symm ▸ hread) hcontent) hall

/-- A stream of one byte whose read delivers nothing. -/
def silentStream : HostIBStream where
  file := ⟨[7], 0, Nat.zero_le _⟩
  size_lt := by decide
  seeksToEnd := true
  read _ := 0
  read_le _ := Int.le_max_right _ _
  attributes := none

theorem zero_invented : ¬ ∃ s file, CopiedExactly [] silentStream s file :=
  not_copied_of_less rfl (by decide) (by decide)

end Vst3
