import Wasivst.Bitsery
import Wasivst.Lib.Replay
import Wasivst.Vst3.Base

/-!
# VST3 attribute lists

`YaAttributeList` of `serialization/vst3/attribute-list.{h,cpp}`: four hash maps, which are sent one
after another and set again one by one in another list. Integers and floating point numbers are
kept as words, and an `AttrID` is what its pointer shows. The keys of the preset meta data are
constants of the SDK and a parameter here.
-/

set_option autoImplicit false

namespace Vst3
open InPlace Replay

abbrev AttrID := List UInt8

structure YaAttributeList where
  attrs_int_ : Map AttrID UInt64
  attrs_float_ : Map AttrID UInt64
  attrs_string_ : Map AttrID (List UInt16)
  attrs_binary_ : Map AttrID (List UInt8)

/-- What a getter returns for what it found. -/
def found {α : Type} : Option α → Except TResult α
  | some value => .ok value
  | none => .error .kResultFalse

/-- `data()` of an empty vector is a null pointer. -/
def dataPointer (v : List UInt8) : Option (List UInt8) := if v = [] then none else some v

namespace YaAttributeList

def empty : YaAttributeList := ⟨∅, ∅, ∅, ∅⟩

def setInt (l : YaAttributeList) (id : AttrID) (value : UInt64) : TResult × YaAttributeList :=
  (.kResultOk, { l with attrs_int_ := l.attrs_int_.insert (terminated id) value })

def getInt (l : YaAttributeList) (id : AttrID) : Except TResult UInt64 :=
  found (l.attrs_int_.lookup (terminated id))

def setFloat (l : YaAttributeList) (id : AttrID) (value : UInt64) : TResult × YaAttributeList :=
  (.kResultOk, { l with attrs_float_ := l.attrs_float_.insert (terminated id) value })

def getFloat (l : YaAttributeList) (id : AttrID) : Except TResult UInt64 :=
  found (l.attrs_float_.lookup (terminated id))

def setString (l : YaAttributeList) (id : AttrID) (string : Option (List UInt16)) :
    TResult × YaAttributeList :=
  match string with
  | none => (.kInvalidArgument, l)
  | some s =>
    (.kResultOk,
      { l with attrs_string_ := l.attrs_string_.insert (terminated id) (terminated s) })

/-- `min(sizeInBytes / 2 - 1, size)` as `size_t`. -/
def copy_characters (sizeInBytes : UInt32) (size : Nat) : Nat :=
  min (sizeInBytes.toUInt64 / 2 - 1).toNat size

theorem copy_characters_of_le {sizeInBytes : UInt32} (h : 2 ≤ sizeInBytes.toNat) (size : Nat) :
    copy_characters sizeInBytes size = min (sizeInBytes.toNat / 2 - 1) size := by
  have hdiv : (sizeInBytes.toUInt64 / 2).toNat = sizeInBytes.toNat / 2 := by
    rw [UInt64.toNat_div, UInt32.toNat_toUInt64]
    rfl
  have hle : (1 : UInt64) ≤ sizeInBytes.toUInt64 / 2 := by
    rw [UInt64.le_iff_toNat_le, hdiv]
    change 1 ≤ _
    omega
  have hsub : (sizeInBytes.toUInt64 / 2 - 1).toNat = sizeInBytes.toNat / 2 - 1 := by
    rw [UInt64.toNat_sub_of_le _ _ hle, hdiv]
    rfl
  rw [copy_characters, hsub]

/-- The units that are stored from the start of the caller's buffer on, if there is one. -/
def getString (l : YaAttributeList) (id : AttrID) (string : Bool) (sizeInBytes : UInt32) :
    Except TResult (List UInt16) :=
  if !string then .error .kInvalidArgument
  else
    (found (l.attrs_string_.lookup (terminated id))).map fun s =>
      s.take (copy_characters sizeInBytes s.length) ++ [0]

def setBinary (l : YaAttributeList) (id : AttrID) (data : Option (List UInt8))
    (sizeInBytes : UInt32) : TResult × YaAttributeList :=
  match data with
  | none => (.kInvalidArgument, l)
  | some bytes =>
    (.kResultOk, { l with
      attrs_binary_ := l.attrs_binary_.insert (terminated id) (bytes.take sizeInBytes.toNat) })

/-- The bytes behind the pointer, as many as the `uint32` size says. -/
def getBinary (l : YaAttributeList) (id : AttrID) : Except TResult (List UInt8) :=
  (found (l.attrs_binary_.lookup (terminated id))).map fun v => v.take (UInt32.ofNat v.length).toNat

/-- The four loops of `write_back`. The setters' results are not looked at. -/
def replay (l stream : YaAttributeList) : YaAttributeList :=
  let ints := l.attrs_int_.entries.foldl (fun s e => (s.setInt e.1 e.2).2) stream
  let floats := l.attrs_float_.entries.foldl (fun s e => (s.setFloat e.1 e.2).2) ints
  let strings := l.attrs_string_.entries.foldl (fun s e => (s.setString e.1 (some e.2)).2) floats
  l.attrs_binary_.entries.foldl
    (fun s e => (s.setBinary e.1 (dataPointer e.2) (UInt32.ofNat e.2.length)).2) strings

def write_back (l : YaAttributeList) (stream : Option YaAttributeList) :
    TResult × Option YaAttributeList :=
  match stream with
  | none => (.kInvalidArgument, none)
  | some s => (.kResultOk, some (l.replay s))

/-- A string read into the scratch buffer that all keys share, and set from there. -/
def readStreamAttribute (stream_attributes : YaAttributeList)
    (s : YaAttributeList × List UInt16) (key : AttrID) : YaAttributeList × List UInt16 :=
  let vst_string := s.2.set 0 0
  match stream_attributes.getString key true 256 with
  | .ok written =>
    let vst_string := written ++ vst_string.drop written.length
    ((s.1.setString key (some vst_string)).2, vst_string)
  | .error _ => (s.1, vst_string)

def read_stream_attributes (stream_meta_data_string_keys : List AttrID)
    (stream_attributes : YaAttributeList) : YaAttributeList :=
  (stream_meta_data_string_keys.foldl (readStreamAttribute stream_attributes)
    (empty, List.replicate 128 0)).1

/-! ## Serialization -/

def mapEntry {α : Type} (B : Bitsery) (c : Codec α) : Codec (Entry AttrID α) :=
  .record
    [.field (·.1) (fun e k => ⟨k, e.2⟩) (B.text1b 1024),
     .field (·.2) (fun e v => ⟨e.1, v⟩) c]

theorem mapEntry_put {α : Type} (B : Bitsery) {c : Codec α} (hc : c.Overwrites) :
    (mapEntry B c).Overwrites := by
  intro old e
  simp only [mapEntry, Codec.record_cons_put, Codec.record_nil_put, Codec.field_put,
    Bitsery.text1b_put, hc old.2 e.2]

/-- The extension `StdMap`: a decoded map has the decoded entries and no others. -/
def stdMap {α : Type} (B : Bitsery) (fresh : α) (c : Codec α) (hc : c.Overwrites) :
    Codec (Map AttrID α) where
  write m := (B.container (2 ^ 20) ⟨[], fresh⟩ (mapEntry B c)).write m.entries
  read _ bs := ((B.container (2 ^ 20) ⟨[], fresh⟩ (mapEntry B c)).read [] bs).map fun r =>
    (r.1.toAList, r.2)
  fits m := (B.container (2 ^ 20) ⟨[], fresh⟩ (mapEntry B c)).fits m.entries
  put _ m := m
  read_write _ m rest h := by
    rw [Codec.read_write _ _ _ _ h, Bitsery.container_put,
      Codec.putList_eq _ _ (mapEntry_put B hc), Option.map_some, toAList_entries]

/-- A map is sent if it has at most `2 ^ 20` keys and all its entries are within their maxima. -/
theorem stdMap_fits {α : Type} (B : Bitsery) (fresh : α) {c : Codec α} (hc : c.Overwrites)
    (m : Map AttrID α) : (stdMap B fresh c hc).fits m ↔ m.entries.length ≤ 2 ^ 20 ∧
      ∀ e ∈ m.entries, e.1.length ≤ 1024 ∧ c.fits e.2 := by
  have hfits : (stdMap B fresh c hc).fits m =
      (B.container (2 ^ 20) ⟨[], fresh⟩ (mapEntry B c)).fits m.entries := rfl
  have hmax : 2 ^ 20 < 2 ^ 30 := by decide
  have hkey : ∀ k, (B.text1b 1024).fits k = decide (k.length ≤ 1024) := B.text1b_fits (by decide)
  rw [hfits, B.container_fits _ _ hmax]
  simp [mapEntry, hkey]

def serialize (B : Bitsery) : Codec YaAttributeList :=
  .record
    [.field (·.attrs_int_) (fun l v => { l with attrs_int_ := v })
       (stdMap B 0 B.value8b fun _ _ => rfl),
     .field (·.attrs_float_) (fun l v => { l with attrs_float_ := v })
       (stdMap B 0 B.value8b fun _ _ => rfl),
     .field (·.attrs_string_) (fun l v => { l with attrs_string_ := v })
       (stdMap B [] (B.text2b (2 ^ 20)) (B.text2b_put _)),
     .field (·.attrs_binary_) (fun l v => { l with attrs_binary_ := v })
       (stdMap B [] (B.text1b (2 ^ 20)) (B.text1b_put _))]

theorem serialize_put (B : Bitsery) : (serialize B).Overwrites := fun _ _ => rfl

/-- The declared maxima. -/
structure Bounded (l : YaAttributeList) : Prop where
  ints : l.attrs_int_.entries.length ≤ 2 ^ 20 ∧ ∀ e ∈ l.attrs_int_.entries, e.1.length ≤ 1024
  floats : l.attrs_float_.entries.length ≤ 2 ^ 20 ∧
    ∀ e ∈ l.attrs_float_.entries, e.1.length ≤ 1024
  strings : l.attrs_string_.entries.length ≤ 2 ^ 20 ∧
    ∀ e ∈ l.attrs_string_.entries, e.1.length ≤ 1024 ∧ e.2.length ≤ 2 ^ 20
  binaries : l.attrs_binary_.entries.length ≤ 2 ^ 20 ∧
    ∀ e ∈ l.attrs_binary_.entries, e.1.length ≤ 1024 ∧ e.2.length ≤ 2 ^ 20

theorem serialize_fits (B : Bitsery) (l : YaAttributeList) :
    (serialize B).fits l ↔ l.Bounded := by
  have hmax : 2 ^ 20 < 2 ^ 30 := by decide
  have hints := stdMap_fits B 0 (c := B.value8b) (fun _ _ => rfl) l.attrs_int_
  have hfloats := stdMap_fits B 0 (c := B.value8b) (fun _ _ => rfl) l.attrs_float_
  have hstrings := stdMap_fits B [] (B.text2b_put (2 ^ 20)) l.attrs_string_
  have hbinaries := stdMap_fits B [] (B.text1b_put (2 ^ 20)) l.attrs_binary_
  simp only [Bitsery.value8b_fits, and_true, B.text1b_fits hmax, B.text2b_fits hmax,
    decide_eq_true_eq] at hints hfloats hstrings hbinaries
  simp only [serialize, Codec.record_cons_fits, Codec.record_nil_fits, Codec.field_fits,
    Bool.and_true, Bool.and_eq_true]
  constructor
  · rintro ⟨hi, hf, hs, hb⟩
    exact ⟨hints.mp hi, hfloats.mp hf, hstrings.mp hs, hbinaries.mp hb⟩
  · rintro ⟨hi, hf, hs, hb⟩
    exact ⟨hints.mpr hi, hfloats.mpr hf, hstrings.mpr hs, hbinaries.mpr hb⟩

/-! ## What is set again -/

/-- The entries of an iteration, as the setters of the other list get them. -/
def resent {α β : Type} (f : α → Option β) (es : List (Entry AttrID α)) : List (Entry AttrID β) :=
  es.filterMap fun e => (f e.2).map fun v => ⟨terminated e.1, v⟩

theorem foldl_setInt (es : List (Entry AttrID UInt64)) (s : YaAttributeList) :
    es.foldl (fun s e => (s.setInt e.1 e.2).2) s =
      { s with attrs_int_ := insertAll s.attrs_int_ (resent some es) } := by
  induction es generalizing s with
  | nil => rfl
  | cons e es ih =>
    rw [List.foldl_cons, ih]
    rfl

theorem foldl_setFloat (es : List (Entry AttrID UInt64)) (s : YaAttributeList) :
    es.foldl (fun s e => (s.setFloat e.1 e.2).2) s =
      { s with attrs_float_ := insertAll s.attrs_float_ (resent some es) } := by
  induction es generalizing s with
  | nil => rfl
  | cons e es ih =>
    rw [List.foldl_cons, ih]
    rfl

theorem foldl_setString (es : List (Entry AttrID (List UInt16))) (s : YaAttributeList) :
    es.foldl (fun s e => (s.setString e.1 (some e.2)).2) s =
      { s with attrs_string_ :=
          insertAll s.attrs_string_ (resent (fun v => some (terminated v)) es) } := by
  induction es generalizing s with
  | nil => rfl
  | cons e es ih =>
    rw [List.foldl_cons, ih]
    rfl

/-- The bytes of a binary that arrive at the other list, if any do. -/
def resentBinary (v : List UInt8) : Option (List UInt8) :=
  (dataPointer v).map fun bytes => bytes.take (UInt32.ofNat v.length).toNat

theorem foldl_setBinary (es : List (Entry AttrID (List UInt8))) (s : YaAttributeList) :
    es.foldl (fun s e => (s.setBinary e.1 (dataPointer e.2) (UInt32.ofNat e.2.length)).2) s =
      { s with attrs_binary_ := insertAll s.attrs_binary_ (resent resentBinary es) } := by
  induction es generalizing s with
  | nil => rfl
  | cons e es ih =>
    rw [List.foldl_cons, ih]
    unfold setBinary resent resentBinary dataPointer
    split_ifs with h
    · simp [h]
    · simp [h]
      rfl

theorem replay_eq (l s : YaAttributeList) : l.replay s =
    { attrs_int_ := insertAll s.attrs_int_ (resent some l.attrs_int_.entries)
      attrs_float_ := insertAll s.attrs_float_ (resent some l.attrs_float_.entries)
      attrs_string_ := insertAll s.attrs_string_
        (resent (fun v => some (terminated v)) l.attrs_string_.entries)
      attrs_binary_ := insertAll s.attrs_binary_ (resent resentBinary l.attrs_binary_.entries) } := by
  simp only [replay, foldl_setInt, foldl_setFloat, foldl_setString, foldl_setBinary]

end YaAttributeList
end Vst3
