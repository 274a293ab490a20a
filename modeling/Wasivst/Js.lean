import Mathlib.Data.List.Forall2
import Mathlib.Data.Rat.Cast.Defs
import Wasivst.Lib.Ieee754

/-!
# The JavaScript values that reach the wire

A parameter id is any value a caller may pass: it is a key of a `Map`, compared by
SameValueZero, and it is written with `setUint32`, which applies ToUint32. A parameter value is a
double and stays the word that it is written as or was read from. A sample is a `float` that becomes
a Number when it is read: a word that is no NaN comes back as it was, a NaN as any other.
-/

set_option autoImplicit false

namespace Wasivst.Js
open Ieee754

/-- A Number up to SameValueZero: one NaN, one zero. -/
inductive JsNumber where
  | finite (q : Rat)
  | nan
  | infinity (negative : Bool)
  deriving DecidableEq

/-- A value with its ToNumber; `name` tells values that are not Numbers apart as `Map` keys.
Symbols and BigInts are absent: `setUint32` throws on them and no frame is written. -/
inductive JsValue where
  | number (x : JsNumber)
  | other (name : String) (asNumber : JsNumber)
  deriving DecidableEq

def JsNumber.toUint32 : JsNumber → UInt32
  | .finite q => UInt32.ofNat (q.num.tdiv q.den % 2 ^ 32).toNat
  | .nan => 0
  | .infinity _ => 0

def JsValue.toUint32 : JsValue → UInt32
  | .number x => x.toUint32
  | .other _ x => x.toUint32

def JsValue.ofUint32 (w : UInt32) : JsValue := .number (.finite (w.toNat : Rat))

def JsValue.ofInt (i : Int) : JsValue := .number (.finite (i : Rat))

theorem JsValue.toUint32_ofInt (i : Int) :
    (JsValue.ofInt i).toUint32.toNat = (i % 2 ^ 32).toNat := by
  have hlo : 0 ≤ i % 2 ^ 32 := Int.emod_nonneg i (by decide)
  have hhi : i % 2 ^ 32 < 2 ^ 32 := Int.emod_lt_of_pos i (by decide)
  have hden : (i : Rat).num.tdiv (i : Rat).den = i := by simp
  rw [JsValue.ofInt, JsValue.toUint32, JsNumber.toUint32, hden, UInt32.toNat_ofNat']
  exact Nat.mod_eq_of_lt (by omega)

@[simp] theorem JsValue.toUint32_ofUint32 (w : UInt32) : (JsValue.ofUint32 w).toUint32 = w := by
  have h := JsValue.toUint32_ofInt (w.toNat : Int)
  have hw := w.toNat_lt
  apply UInt32.toNat_inj.mp
  have hcast : JsValue.ofInt (w.toNat : Int) = JsValue.ofUint32 w := by
    simp [JsValue.ofInt, JsValue.ofUint32]
  rw [← hcast, h]
  omega

/-! ## Samples -/

/-- The Number that a 32-bit word is read as, by its word. There is one NaN, which stands here as
its usual word. -/
def readFloat32 (w : UInt32) : UInt32 := if IsNaN w then 0x7FC00000 else w

theorem sameNumber_readFloat32 (w : UInt32) : SameNumber (readFloat32 w) w := by
  unfold readFloat32
  split
  · rename_i h
    exact .inr ⟨by decide, h⟩
  · exact .refl w

/-- Channel by channel. -/
def readBlock (channels : List (List UInt32)) : List (List UInt32) :=
  channels.map (List.map readFloat32)

/-- As many samples in as many channels, and they are the same Numbers. -/
def SameBlock (xs ys : List (List UInt32)) : Prop := List.Forall₂ (List.Forall₂ SameNumber) xs ys

theorem sameBlock_readBlock (channels : List (List UInt32)) :
    SameBlock (readBlock channels) channels := by
  unfold SameBlock readBlock
  rw [List.forall₂_map_left_iff, List.forall₂_same]
  intro ch _
  rw [List.forall₂_map_left_iff, List.forall₂_same]
  intro w _
  exact sameNumber_readFloat32 w

/-- Which word a NaN is stored as is left to the engine, sample by sample: those that it takes for
a block, by channel and index. -/
structure Engine where
  nan : Nat → Nat → UInt32
  isNaN_nan : ∀ c i, IsNaN (nan c i)

namespace Engine

/-- The word that a Number is stored as. -/
def float32 (e : Engine) (c i : Nat) (x : UInt32) : UInt32 := if IsNaN x then e.nan c i else x

theorem sameNumber_float32 (e : Engine) (c i : Nat) (x : UInt32) :
    SameNumber (e.float32 c i x) x := by
  unfold float32
  split
  · rename_i h
    exact .inr ⟨e.isNaN_nan c i, h⟩
  · exact .refl x

/-- An engine that stores one word. -/
def canonical : Engine := ⟨fun _ _ => 0x7FC00000, fun _ _ => by decide⟩

end Engine

/-! ## `TextEncoder.encode` -/

/-- A string is a sequence of UTF-16 code units. -/
abbrev JsString := List UInt16

def isLead (u : UInt16) : Bool := 0xD800 ≤ u && u ≤ 0xDBFF

def isTrail (u : UInt16) : Bool := 0xDC00 ≤ u && u ≤ 0xDFFF

/-- The scalar values of a string; a lone surrogate becomes U+FFFD. -/
def scalarValues : JsString → List Char
  | [] => []
  | [u] => [if isLead u || isTrail u then Char.ofNat 0xFFFD else Char.ofNat u.toNat]
  | u :: v :: us =>
    if isLead u && isTrail v then
      Char.ofNat (0x10000 + (u.toNat - 0xD800) * 0x400 + (v.toNat - 0xDC00)) :: scalarValues us
    else if isLead u || isTrail u then Char.ofNat 0xFFFD :: scalarValues (v :: us)
    else Char.ofNat u.toNat :: scalarValues (v :: us)

def textEncode (s : JsString) : List UInt8 := (scalarValues s).flatMap String.utf8EncodeChar

/-- `é` followed by a lone lead surrogate. -/
example : textEncode [0x00E9, 0xD83D] = [0xC3, 0xA9, 0xEF, 0xBF, 0xBD] := by decide

end Wasivst.Js
