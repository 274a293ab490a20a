import Mathlib.Data.Nat.Basic
import Mathlib.Tactic.Ring
import Mathlib.Data.List.Basic

/-!
# Little-endian words

`encode k n` is the `k`-byte little-endian image of `n` modulo `256 ^ k`, the form in which
x86 stores an integer and in which `DataView` writes it when it is told so.
Nothing here mentions a message format.
-/

set_option autoImplicit false

namespace LittleEndian

def encode : Nat → Nat → List UInt8
  | 0, _ => []
  | k + 1, n => UInt8.ofNat n :: encode k (n / 256)

def decode : List UInt8 → Nat
  | [] => 0
  | b :: bs => b.toNat + 256 * decode bs

@[simp] theorem encode_length (k n : Nat) : (encode k n).length = k := by
  induction k generalizing n with
  | zero => rfl
  | succ k ih => simp [encode, ih]

theorem decode_encode (k n : Nat) : decode (encode k n) = n % 256 ^ k := by
  induction k generalizing n with
  | zero => simp [encode, decode, Nat.mod_one]
  | succ k ih =>
    have hb : (UInt8.ofNat n).toNat = n % 256 := by simp
    unfold encode decode
    rw [ih, hb, Nat.pow_succ', Nat.mod_mul]

def ofU32 (v : UInt32) : List UInt8 := encode 4 v.toNat

def ofU64 (v : UInt64) : List UInt8 := encode 8 v.toNat

def toU32 (bs : List UInt8) : UInt32 := UInt32.ofNat (decode bs)

def toU64 (bs : List UInt8) : UInt64 := UInt64.ofNat (decode bs)

@[simp] theorem ofU32_length (v : UInt32) : (ofU32 v).length = 4 := encode_length 4 _

@[simp] theorem ofU64_length (v : UInt64) : (ofU64 v).length = 8 := encode_length 8 _

@[simp] theorem toU32_ofU32 (v : UInt32) : toU32 (ofU32 v) = v := by
  have hv := v.toNat_lt
  unfold toU32 ofU32
  rw [decode_encode, Nat.mod_eq_of_lt (by omega)]
  exact UInt32.ofNat_toNat

@[simp] theorem toU64_ofU64 (v : UInt64) : toU64 (ofU64 v) = v := by
  have hv := v.toNat_lt
  unfold toU64 ofU64
  rw [decode_encode, Nat.mod_eq_of_lt (by omega)]
  exact UInt64.ofNat_toNat

/-! ## Arrays of 32-bit words -/

def ofWords (ws : List UInt32) : List UInt8 := ws.flatMap ofU32

/-- A trailing group of fewer than four bytes is dropped. -/
def toWords : List UInt8 → List UInt32
  | b₀ :: b₁ :: b₂ :: b₃ :: bs => toU32 [b₀, b₁, b₂, b₃] :: toWords bs
  | _ => []

@[simp] theorem ofWords_nil : ofWords [] = [] := rfl

@[simp] theorem ofWords_cons (w : UInt32) (ws : List UInt32) :
    ofWords (w :: ws) = ofU32 w ++ ofWords ws := rfl

@[simp] theorem ofWords_append (vs ws : List UInt32) :
    ofWords (vs ++ ws) = ofWords vs ++ ofWords ws := List.flatMap_append

@[simp] theorem ofWords_length (ws : List UInt32) : (ofWords ws).length = 4 * ws.length := by
  induction ws with
  | nil => rfl
  | cons w ws ih => simp only [ofWords_cons, List.length_append, ofU32_length, ih, List.length_cons]; omega

theorem toWords_ofU32_append (w : UInt32) (bs : List UInt8) :
    toWords (ofU32 w ++ bs) = w :: toWords bs := by
  conv_rhs => rw [← toU32_ofU32 w]
  rfl

@[simp] theorem toWords_ofWords (ws : List UInt32) : toWords (ofWords ws) = ws := by
  induction ws with
  | nil => rfl
  | cons w ws ih => rw [ofWords_cons, toWords_ofU32_append, ih]

theorem toWords_length : ∀ bs : List UInt8, (toWords bs).length = bs.length / 4
  | [] | [_] | [_, _] | [_, _, _] => by simp [toWords]
  | _ :: _ :: _ :: _ :: bs => by
    have ih := toWords_length bs
    simp only [toWords, List.length_cons, ih]
    omega

end LittleEndian
