import Wasivst.Lib.LittleEndian
import Wasivst.Lib.Codec

/-!
# Bitsery and the extensions of `src/common/bitsery`

Bitsery itself is a parameter: a `Bitsery` is any set of primitive codecs that read back what
they wrote. Sizes are written for containers of fewer than `2 ^ 30` elements only. The in-place
extensions are the repository's own and are built on the parameter.
-/

set_option autoImplicit false

open InPlace

structure Bitsery where
  prim1b : Prim UInt8
  prim2b : Prim UInt16
  prim4b : Prim UInt32
  prim8b : Prim UInt64
  primBool : Prim Bool
  primSize : Prim Nat
  fits1b : ∀ v, prim1b.fits v
  fits2b : ∀ v, prim2b.fits v
  fits4b : ∀ v, prim4b.fits v
  fits8b : ∀ v, prim8b.fits v
  fitsBool : ∀ v, primBool.fits v
  fitsSize : ∀ n, primSize.fits n = decide (n < 2 ^ 30)

namespace Bitsery
variable {α σ : Type} (B : Bitsery)

attribute [simp] fits1b fits2b fits4b fits8b fitsBool

def value1b : Codec UInt8 := B.prim1b.codec

def value2b : Codec UInt16 := B.prim2b.codec

def value4b : Codec UInt32 := B.prim4b.codec

def value8b : Codec UInt64 := B.prim8b.codec

def boolValue : Codec Bool := B.primBool.codec

/-- `value1b` on a `bool`. -/
def bool1b : Codec Bool :=
  Prim.codec
    { write := fun b => B.prim1b.write b.toUInt8
      read := fun bs => (B.prim1b.read bs).map fun r => (r.1 != 0, r.2)
      fits := fun _ => true
      read_write := by
        intro b rest _
        rw [B.prim1b.read_write b.toUInt8 rest (B.fits1b _), Option.map_some]
        cases b <;> rfl }

@[simp] theorem bool1b_put (old v : Bool) : B.bool1b.put old v = v := rfl

@[simp] theorem bool1b_fits (v : Bool) : B.bool1b.fits v = true := rfl

@[simp] theorem value1b_put (old v : UInt8) : B.value1b.put old v = v := rfl

@[simp] theorem value2b_put (old v : UInt16) : B.value2b.put old v = v := rfl

@[simp] theorem value4b_put (old v : UInt32) : B.value4b.put old v = v := rfl

@[simp] theorem value8b_put (old v : UInt64) : B.value8b.put old v = v := rfl

@[simp] theorem boolValue_put (old v : Bool) : B.boolValue.put old v = v := rfl

@[simp] theorem value1b_fits (v : UInt8) : B.value1b.fits v = true := B.fits1b v

@[simp] theorem value2b_fits (v : UInt16) : B.value2b.fits v = true := B.fits2b v

@[simp] theorem value4b_fits (v : UInt32) : B.value4b.fits v = true := B.fits4b v

@[simp] theorem value8b_fits (v : UInt64) : B.value8b.fits v = true := B.fits8b v

@[simp] theorem boolValue_fits (v : Bool) : B.boolValue.fits v = true := B.fitsBool v

/-! ## Containers -/

/-- A container of fixed extent, `container1b` of a C array. -/
def array1b (n : Nat) : Codec (Vector UInt8 n) := (Codec.array n B.prim1b).codec

@[simp] theorem array1b_put (n : Nat) (old v : Vector UInt8 n) : (B.array1b n).put old v = v := rfl

@[simp] theorem array1b_fits (n : Nat) (v : Vector UInt8 n) : (B.array1b n).fits v = true := by
  simp [array1b]

def array2b (n : Nat) : Codec (Vector UInt16 n) := (Codec.array n B.prim2b).codec

@[simp] theorem array2b_put (n : Nat) (old v : Vector UInt16 n) : (B.array2b n).put old v = v := rfl

@[simp] theorem array2b_fits (n : Nat) (v : Vector UInt16 n) : (B.array2b n).fits v = true := by
  simp [array2b]

def array4b (n : Nat) : Codec (Vector UInt32 n) := (Codec.array n B.prim4b).codec

@[simp] theorem array4b_put (n : Nat) (old v : Vector UInt32 n) : (B.array4b n).put old v = v := rfl

@[simp] theorem array4b_fits (n : Nat) (v : Vector UInt32 n) : (B.array4b n).fits v = true := by
  simp [array4b]

def container (max : Nat) (fresh : α) (c : Codec α) : Codec (List α) :=
  Codec.list B.primSize max fresh c

@[simp] theorem container_put (max : Nat) (fresh : α) (c : Codec α) (olds xs : List α) :
    (B.container max fresh c).put olds xs = Codec.putList fresh c olds xs := rfl

theorem container_fits {max : Nat} (fresh : α) (c : Codec α) (hmax : max < 2 ^ 30)
    (xs : List α) :
    (B.container max fresh c).fits xs = (decide (xs.length ≤ max) && xs.all c.fits) := by
  have hlen : xs.length ≤ max → xs.length < 2 ^ 30 := fun h => Nat.lt_of_le_of_lt h hmax
  simp only [container, Codec.list_fits, B.fitsSize]
  by_cases h : xs.length ≤ max
  · rw [decide_eq_true (hlen h), Bool.true_and]
  · rw [decide_eq_false h, Bool.and_false, Bool.false_and]

def text1b (max : Nat) : Codec (List UInt8) := B.container max 0 B.value1b

def text2b (max : Nat) : Codec (List UInt16) := B.container max 0 B.value2b

@[simp] theorem text1b_put (max : Nat) (olds s : List UInt8) : (B.text1b max).put olds s = s :=
  Codec.putList_eq 0 B.value1b (fun _ _ => rfl) olds s

@[simp] theorem text2b_put (max : Nat) (olds s : List UInt16) : (B.text2b max).put olds s = s :=
  Codec.putList_eq 0 B.value2b (fun _ _ => rfl) olds s

theorem text1b_fits {max : Nat} (hmax : max < 2 ^ 30) (s : List UInt8) :
    (B.text1b max).fits s = decide (s.length ≤ max) := by
  simp [text1b, B.container_fits 0 B.value1b hmax]

theorem text2b_fits {max : Nat} (hmax : max < 2 ^ 30) (s : List UInt16) :
    (B.text2b max).fits s = decide (s.length ≤ max) := by
  simp [text2b, B.container_fits 0 B.value2b hmax]

/-! ## `InPlaceOptional` and `InPlaceVariant` -/

/-- A value that is there already is decoded into, unless its type is trivial. -/
def inPlaceOptional (fresh : α) (trivial : Bool) (c : Codec α) : Codec (Option α) :=
  Codec.option B.primBool B.fitsBool fresh (!trivial) c

@[simp] theorem inPlaceOptional_put (fresh : α) (trivial : Bool) (c : Codec α)
    (old x : Option α) : (B.inPlaceOptional fresh trivial c).put old x =
      x.map (c.put (Codec.start fresh (!trivial) old)) := rfl

@[simp] theorem inPlaceOptional_fits (fresh : α) (trivial : Bool) (c : Codec α)
    (x : Option α) : (B.inPlaceOptional fresh trivial c).fits x = x.all c.fits := rfl

theorem inPlaceOptional_put_of_overwrites (fresh : α) (trivial : Bool) {c : Codec α}
    (h : c.Overwrites) (old x : Option α) :
    (B.inPlaceOptional fresh trivial c).put old x = x := by
  rw [inPlaceOptional_put, funext (h _)]
  exact Option.map_id'

/-- One alternative of a `std::variant`. -/
def alternative {T : Type} (proj : σ → Option T) (inj : T → σ) (fresh : T) (trivial : Bool)
    (c : Codec T) : Alt σ where
  T := T
  proj := proj
  start old := Codec.start fresh (!trivial) (proj old)
  inj _ := inj
  codec := c

def inPlaceVariant (as : List (Alt σ)) : Codec σ := Codec.variant B.primSize as

@[simp] theorem inPlaceVariant_put (as : List (Alt σ)) (old x : σ) :
    (B.inPlaceVariant as).put old x = Codec.putAlts as old x := rfl

@[simp] theorem inPlaceVariant_fits (as : List (Alt σ)) (x : σ) :
    (B.inPlaceVariant as).fits x = Codec.fitsAlts B.primSize 0 as x := rfl

/-! ## A format with these laws -/

section Format
open LittleEndian

/-- `k` bytes, least significant first. -/
def word (k : Nat) (toNat : α → Nat) (ofNat : Nat → α)
    (hlt : ∀ v, toNat v < 256 ^ k) (hinv : ∀ v, ofNat (toNat v) = v) : Prim α where
  write v := encode k (toNat v)
  read bs := if bs.length < k then none else some (ofNat (decode (bs.take k)), bs.drop k)
  fits _ := true
  read_write v rest _ := by
    have hlen : ¬ (encode k (toNat v) ++ rest).length < k := by
      rw [List.length_append, encode_length]
      omega
    have htake : (encode k (toNat v) ++ rest).take k = encode k (toNat v) := by
      rw [List.take_append_of_le_length (by rw [encode_length]),
        List.take_of_length_le (by rw [encode_length])]
    have hdrop : (encode k (toNat v) ++ rest).drop k = rest := by
      rw [List.drop_append_of_le_length (by rw [encode_length]),
        List.drop_of_length_le (by rw [encode_length]), List.nil_append]
    rw [if_neg hlen, htake, hdrop, decode_encode, Nat.mod_eq_of_lt (hlt v), hinv]

/-- One byte below `0x80`, two below `0x4000`, else four. -/
def writeSize (n : Nat) : List UInt8 :=
  if n < 0x80 then [UInt8.ofNat n]
  else if n < 0x4000 then [UInt8.ofNat (n / 256 + 0x80), UInt8.ofNat n]
  else [UInt8.ofNat (n / 2 ^ 24 + 0xC0), UInt8.ofNat (n / 2 ^ 16), UInt8.ofNat n,
    UInt8.ofNat (n / 256)]

def readSize : List UInt8 → Option (Nat × List UInt8)
  | hb :: bs =>
    if hb.toNat < 0x80 then some (hb.toNat, bs)
    else match bs with
      | lb :: bs =>
        if hb.toNat < 0xC0 then some ((hb.toNat - 0x80) * 256 + lb.toNat, bs)
        else match bs with
          | w₀ :: w₁ :: bs =>
            some (((hb.toNat - 0xC0) * 256 + lb.toNat) * 2 ^ 16 + w₁.toNat * 256 + w₀.toNat, bs)
          | _ => none
      | [] => none
  | [] => none

theorem readSize_writeSize {n : Nat} (hn : n < 2 ^ 30) (rest : List UInt8) :
    readSize (writeSize n ++ rest) = some (n, rest) := by
  unfold writeSize
  split_ifs with h1 h2
  · have hb : (UInt8.ofNat n).toNat = n := by
      rw [UInt8.toNat_ofNat']
      omega
    simp [readSize, hb, h1]
  · have hb : (UInt8.ofNat (n / 256 + 0x80)).toNat = n / 256 + 0x80 := by
      rw [UInt8.toNat_ofNat']
      omega
    have hlb : (UInt8.ofNat n).toNat = n % 256 := by rw [UInt8.toNat_ofNat']
    have hsum : n / 256 * 256 + n % 256 = n := by omega
    have hlt : n / 256 + 0x80 < 0xC0 := by omega
    simp only [List.cons_append, List.nil_append, readSize, hb, hlb, if_pos hlt,
      Nat.add_sub_cancel, hsum]
    rw [if_neg (by omega)]
  · have hb : (UInt8.ofNat (n / 2 ^ 24 + 0xC0)).toNat = n / 2 ^ 24 + 0xC0 := by
      rw [UInt8.toNat_ofNat']
      omega
    have hlb : (UInt8.ofNat (n / 2 ^ 16)).toNat = n / 2 ^ 16 % 256 := by rw [UInt8.toNat_ofNat']
    have hw₀ : (UInt8.ofNat n).toNat = n % 256 := by rw [UInt8.toNat_ofNat']
    have hw₁ : (UInt8.ofNat (n / 256)).toNat = n / 256 % 256 := by rw [UInt8.toNat_ofNat']
    have hsum : (n / 2 ^ 24 * 256 + n / 2 ^ 16 % 256) * 2 ^ 16 + n / 256 % 256 * 256 + n % 256 =
        n := by omega
    simp only [List.cons_append, List.nil_append, readSize, hb, hlb, hw₀, hw₁,
      Nat.add_sub_cancel, hsum]
    rw [if_neg (by omega), if_neg (by omega)]

def readBool : List UInt8 → Option (Bool × List UInt8)
  | 0 :: bs => some (false, bs)
  | 1 :: bs => some (true, bs)
  | _ => none

/-- Little-endian values and the compact size, as the messages are written. -/
def default : Bitsery where
  prim1b := word 1 UInt8.toNat UInt8.ofNat UInt8.toNat_lt fun _ => UInt8.ofNat_toNat
  prim2b := word 2 UInt16.toNat UInt16.ofNat UInt16.toNat_lt fun _ => UInt16.ofNat_toNat
  prim4b := word 4 UInt32.toNat UInt32.ofNat UInt32.toNat_lt fun _ => UInt32.ofNat_toNat
  prim8b := word 8 UInt64.toNat UInt64.ofNat UInt64.toNat_lt fun _ => UInt64.ofNat_toNat
  primBool :=
    { write := fun b => [if b then 1 else 0]
      read := readBool
      fits := fun _ => true
      read_write := by
        intro b rest _
        cases b <;> rfl }
  primSize :=
    { write := writeSize
      read := readSize
      fits := fun n => decide (n < 2 ^ 30)
      read_write := fun _ rest hn => readSize_writeSize (of_decide_eq_true hn) rest }
  fits1b _ := rfl
  fits2b _ := rfl
  fits4b _ := rfl
  fits8b _ := rfl
  fitsBool _ := rfl
  fitsSize _ := rfl

end Format
end Bitsery
