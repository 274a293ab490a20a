import Wasivst.Vst3.AttributeList

/-!
# VST3 attribute lists on the other side

What the getters of a list return that was filled by setters, sent, and perhaps written back into
another list. The maps may be iterated in any order.
-/

set_option autoImplicit false

namespace Vst3
open InPlace Replay

/-! ## Calls of setters -/

/-- A string or bytes are there, that is, no pointer is null. -/
inductive SetCall
  | setInt (id : AttrID) (value : UInt64)
  | setFloat (id : AttrID) (value : UInt64)
  | setString (id : AttrID) (string : List UInt16)
  | setBinary (id : AttrID) (data : List UInt8)
  deriving DecidableEq

namespace SetCall

def apply (l : YaAttributeList) : SetCall → YaAttributeList
  | setInt id value => (l.setInt id value).2
  | setFloat id value => (l.setFloat id value).2
  | setString id string => (l.setString id (some string)).2
  | setBinary id data => (l.setBinary id (some data) (UInt32.ofNat data.length)).2

/-- The key and the value are within their declared maxima. -/
def Declared : SetCall → Prop
  | setInt id _ => (terminated id).length ≤ 1024
  | setFloat id _ => (terminated id).length ≤ 1024
  | setString id string => (terminated id).length ≤ 1024 ∧ (terminated string).length ≤ 2 ^ 20
  | setBinary id data => (terminated id).length ≤ 1024 ∧ data.length ≤ 2 ^ 20

def int : SetCall → Option (Entry AttrID UInt64)
  | setInt id value => some ⟨terminated id, value⟩
  | _ => none

def float : SetCall → Option (Entry AttrID UInt64)
  | setFloat id value => some ⟨terminated id, value⟩
  | _ => none

def string : SetCall → Option (Entry AttrID (List UInt16))
  | setString id string => some ⟨terminated id, terminated string⟩
  | _ => none

def binary : SetCall → Option (Entry AttrID (List UInt8))
  | setBinary id data => some ⟨terminated id, data⟩
  | _ => none

end SetCall

/-- The list that the calls make. -/
def made (calls : List SetCall) : YaAttributeList := calls.foldl SetCall.apply .empty

theorem take_size {v : List UInt8} (h : v.length ≤ 2 ^ 20) :
    v.take (UInt32.ofNat v.length).toNat = v := by
  have hsize : (UInt32.ofNat v.length).toNat = v.length := by
    rw [UInt32.toNat_ofNat']
    omega
  rw [hsize, List.take_length]

/-- Each type of value has its own writers. -/
theorem foldl_apply (calls : List SetCall) (hcalls : ∀ c ∈ calls, c.Declared)
    (l : YaAttributeList) : calls.foldl SetCall.apply l =
      { attrs_int_ := insertAll l.attrs_int_ (calls.filterMap SetCall.int)
        attrs_float_ := insertAll l.attrs_float_ (calls.filterMap SetCall.float)
        attrs_string_ := insertAll l.attrs_string_ (calls.filterMap SetCall.string)
        attrs_binary_ := insertAll l.attrs_binary_ (calls.filterMap SetCall.binary) } := by
  induction calls generalizing l with
  | nil => rfl
  | cons c calls ih =>
    have hc := hcalls c List.mem_cons_self
    rw [List.foldl_cons, ih fun d hd => hcalls d (List.mem_cons_of_mem c hd)]
    cases c with
    | setInt id value => rfl
    | setFloat id value => rfl
    | setString id string => rfl
    | setBinary id data =>
      simp only [SetCall.apply, YaAttributeList.setBinary, take_size hc.2]
      rfl

theorem made_eq {calls : List SetCall} (hcalls : ∀ c ∈ calls, c.Declared) : made calls =
    { attrs_int_ := insertAll ∅ (calls.filterMap SetCall.int)
      attrs_float_ := insertAll ∅ (calls.filterMap SetCall.float)
      attrs_string_ := insertAll ∅ (calls.filterMap SetCall.string)
      attrs_binary_ := insertAll ∅ (calls.filterMap SetCall.binary) } :=
  foldl_apply calls hcalls .empty

/-- What the setters set. -/
structure IsSet (calls : List SetCall) : Prop where
  ints : ∀ e ∈ calls.filterMap SetCall.int, terminated e.1 = e.1 ∧ e.1.length ≤ 1024
  floats : ∀ e ∈ calls.filterMap SetCall.float, terminated e.1 = e.1 ∧ e.1.length ≤ 1024
  strings : ∀ e ∈ calls.filterMap SetCall.string, terminated e.1 = e.1 ∧ e.1.length ≤ 1024 ∧
    terminated e.2 = e.2 ∧ e.2.length ≤ 2 ^ 20
  binaries : ∀ e ∈ calls.filterMap SetCall.binary, terminated e.1 = e.1 ∧ e.1.length ≤ 1024 ∧
    e.2.length ≤ 2 ^ 20

/-- What holds of each entry that a declared call sets. -/
theorem forall_mem_set {α : Type} {entry : SetCall → Option (Entry AttrID α)}
    {P : Entry AttrID α → Prop} {calls : List SetCall} (hcalls : ∀ c ∈ calls, c.Declared)
    (h : ∀ c e, entry c = some e → c.Declared → P e) : ∀ e ∈ calls.filterMap entry, P e := by
  intro e he
  obtain ⟨c, hc, hce⟩ := List.mem_filterMap.mp he
  exact h c e hce (hcalls c hc)

theorem isSet {calls : List SetCall} (hcalls : ∀ c ∈ calls, c.Declared) : IsSet calls := by
  constructor <;> refine forall_mem_set hcalls ?_ <;> intro c e hce hdeclared
  · cases c with
    | setInt id value =>
      obtain rfl := Option.some.inj hce
      exact ⟨terminated_terminated id, hdeclared⟩
    | _ => exact absurd hce nofun
  · cases c with
    | setFloat id value =>
      obtain rfl := Option.some.inj hce
      exact ⟨terminated_terminated id, hdeclared⟩
    | _ => exact absurd hce nofun
  · cases c with
    | setString id string =>
      obtain rfl := Option.some.inj hce
      exact ⟨terminated_terminated id, hdeclared.1, terminated_terminated string, hdeclared.2⟩
    | _ => exact absurd hce nofun
  · cases c with
    | setBinary id data =>
      obtain rfl := Option.some.inj hce
      exact ⟨terminated_terminated id, hdeclared⟩
    | _ => exact absurd hce nofun

/-! ## Answers -/

/-- The same entries, each map in an order of its own. -/
structure SameAttributes (l l' : YaAttributeList) : Prop where
  ints : Same l.attrs_int_ l'.attrs_int_
  floats : Same l.attrs_float_ l'.attrs_float_
  strings : Same l.attrs_string_ l'.attrs_string_
  binaries : Same l.attrs_binary_ l'.attrs_binary_

theorem SameAttributes.refl (l : YaAttributeList) : SameAttributes l l :=
  ⟨.refl _, .refl _, .refl _, .refl _⟩

/-- What was last set with a key, as a getter returns it. A string is returned whole in a buffer
that has room for it. -/
structure Answers (calls : List SetCall) (l : YaAttributeList) : Prop where
  int : ∀ id, l.getInt id = found (last (calls.filterMap SetCall.int) (terminated id))
  float : ∀ id, l.getFloat id = found (last (calls.filterMap SetCall.float) (terminated id))
  string : ∀ id s, last (calls.filterMap SetCall.string) (terminated id) = some s →
    ∀ sizeInBytes : UInt32, 2 * (s.length + 1) ≤ sizeInBytes.toNat →
      l.getString id true sizeInBytes = .ok (s ++ [0])
  no_string : ∀ id, last (calls.filterMap SetCall.string) (terminated id) = none →
    ∀ sizeInBytes, l.getString id true sizeInBytes = .error .kResultFalse
  binary : ∀ id, l.getBinary id = found (last (calls.filterMap SetCall.binary) (terminated id))

/-- The list is sent, and the getters of the one that arrives, and of one that it is written back
into, answer as its own getters would. -/
def KeepsAnswers (B : Bitsery) (calls : List SetCall) : Prop :=
  ∀ l, SameAttributes (made calls) l → ∀ old, ∃ l',
    (YaAttributeList.serialize B).transfer old l = some l' ∧
    ∀ r, SameAttributes l' r → Answers calls r ∧
      ∃ out, r.write_back (some .empty) = (.kResultOk, some out) ∧ Answers calls out

/-- No map has more keys than are declared, and no key has no bytes. -/
structure Sendable (calls : List SetCall) : Prop where
  ints : ((calls.filterMap SetCall.int).map Sigma.fst).toFinset.card ≤ 2 ^ 20
  floats : ((calls.filterMap SetCall.float).map Sigma.fst).toFinset.card ≤ 2 ^ 20
  strings : ((calls.filterMap SetCall.string).map Sigma.fst).toFinset.card ≤ 2 ^ 20
  binaries : ((calls.filterMap SetCall.binary).map Sigma.fst).toFinset.card ≤ 2 ^ 20
  nonempty : ∀ key, last (calls.filterMap SetCall.binary) key ≠ some []

/-- The maps hold what was last set. -/
structure Holding (calls : List SetCall) (l : YaAttributeList) : Prop where
  ints : ∀ k, l.attrs_int_.lookup k = last (calls.filterMap SetCall.int) k
  floats : ∀ k, l.attrs_float_.lookup k = last (calls.filterMap SetCall.float) k
  strings : ∀ k, l.attrs_string_.lookup k = last (calls.filterMap SetCall.string) k
  binaries : ∀ k, l.attrs_binary_.lookup k = last (calls.filterMap SetCall.binary) k

variable {calls : List SetCall} {l l' : YaAttributeList}

theorem holding_made (hcalls : ∀ c ∈ calls, c.Declared) : Holding calls (made calls) := by
  rw [made_eq hcalls]
  constructor <;> intro k <;> rw [lookup_insertAll, AList.lookup_empty, Option.or_none]

theorem Holding.same (h : Holding calls l) (hsame : SameAttributes l l') : Holding calls l' where
  ints k := (hsame.ints.lookup k).symm.trans (h.ints k)
  floats k := (hsame.floats.lookup k).symm.trans (h.floats k)
  strings k := (hsame.strings.lookup k).symm.trans (h.strings k)
  binaries k := (hsame.binaries.lookup k).symm.trans (h.binaries k)

theorem Holding.answers (h : Holding calls l) (hset : IsSet calls) : Answers calls l where
  int id := congrArg found (h.ints _)
  float id := congrArg found (h.floats _)
  string := by
    intro id s hs sizeInBytes hroom
    have hcopy : YaAttributeList.copy_characters sizeInBytes s.length = s.length := by
      rw [YaAttributeList.copy_characters_of_le (by omega)]
      omega
    simp only [YaAttributeList.getString, h.strings, hs]
    change Except.ok (s.take (YaAttributeList.copy_characters sizeInBytes s.length) ++ [0]) = _
    rw [hcopy, List.take_length]
  no_string := by
    intro id hs sizeInBytes
    simp only [YaAttributeList.getString, h.strings, hs]
    rfl
  binary := by
    intro id
    unfold YaAttributeList.getBinary
    rw [h.binaries]
    cases hv : last (calls.filterMap SetCall.binary) (terminated id) with
    | none => rfl
    | some v =>
      have hlen := (hset.binaries _ (mem_of_last hv)).2.2
      exact congrArg Except.ok (take_size hlen)

/-! ## Sending and writing back -/

section Resent
variable {α : Type}

/-- An entry of the map was set. -/
theorem mem_of_lookup {m : Map AttrID α} {es : List (Entry AttrID α)}
    (h : ∀ k, m.lookup k = last es k) {e : Entry AttrID α} (he : e ∈ m.entries) : e ∈ es := by
  have hlookup : m.lookup e.1 = some e.2 := AList.mem_lookup_iff.mpr he
  exact mem_of_last ((h e.1).symm.trans hlookup)

/-- Entries that are resent as they are. -/
theorem resent_eq {f : α → Option α} {es : List (Entry AttrID α)}
    (h : ∀ e ∈ es, terminated e.1 = e.1 ∧ f e.2 = some e.2) :
    YaAttributeList.resent f es = es := by
  unfold YaAttributeList.resent
  have hself : es.filterMap some = es := List.filterMap_some
  rw [← hself]
  nth_rewrite 1 [hself]
  apply List.filterMap_congr
  intro e he
  rw [(h e he).1, (h e he).2]
  rfl

theorem lookup_resent {f : α → Option α} {m : Map AttrID α}
    (h : ∀ e ∈ m.entries, terminated e.1 = e.1 ∧ f e.2 = some e.2) (k : AttrID) :
    (insertAll ∅ (YaAttributeList.resent f m.entries)).lookup k = m.lookup k := by
  rw [resent_eq h, lookup_insertAll, last_entries, AList.lookup_empty, Option.or_none]

end Resent

theorem resentBinary_eq {v : List UInt8} (hlen : v.length ≤ 2 ^ 20) (hne : v ≠ []) :
    YaAttributeList.resentBinary v = some v := by
  unfold YaAttributeList.resentBinary dataPointer
  rw [if_neg hne, Option.map_some, take_size hlen]

/-- A list with no empty bytes is written back whole. -/
theorem Holding.replay (h : Holding calls l) (hset : IsSet calls)
    (hne : ∀ key, last (calls.filterMap SetCall.binary) key ≠ some []) :
    Holding calls (l.replay .empty) := by
  rw [YaAttributeList.replay_eq]
  constructor
  · intro k
    refine (lookup_resent ?_ k).trans (h.ints k)
    intro e he
    exact ⟨(hset.ints e (mem_of_lookup h.ints he)).1, rfl⟩
  · intro k
    refine (lookup_resent ?_ k).trans (h.floats k)
    intro e he
    exact ⟨(hset.floats e (mem_of_lookup h.floats he)).1, rfl⟩
  · intro k
    refine (lookup_resent ?_ k).trans (h.strings k)
    intro e he
    have hes := hset.strings e (mem_of_lookup h.strings he)
    exact ⟨hes.1, congrArg some hes.2.2.1⟩
  · intro k
    refine (lookup_resent ?_ k).trans (h.binaries k)
    intro e he
    have hes := hset.binaries e (mem_of_lookup h.binaries he)
    refine ⟨hes.1, resentBinary_eq hes.2.2 ?_⟩
    intro hempty
    have hlookup : l.attrs_binary_.lookup e.1 = some e.2 := AList.mem_lookup_iff.mpr he
    exact hne e.1 (hempty ▸ (h.binaries e.1).symm.trans hlookup)

/-- Empty bytes are not written back. -/
theorem replay_drops_empty (h : Holding calls l) (hset : IsSet calls) {key : AttrID}
    (hempty : last (calls.filterMap SetCall.binary) key = some []) :
    (l.replay .empty).attrs_binary_.lookup key = none := by
  rw [YaAttributeList.replay_eq]
  change (insertAll ∅ _).lookup key = none
  rw [lookup_insertAll, AList.lookup_empty, Option.or_none]
  apply last_eq_none
  intro e he hkey
  obtain ⟨e₀, he₀, hresent⟩ := List.mem_filterMap.mp he
  obtain ⟨v, hv, rfl⟩ := Option.map_eq_some_iff.mp hresent
  have hes := hset.binaries e₀ (mem_of_lookup h.binaries he₀)
  have hlookup : l.attrs_binary_.lookup e₀.1 = some e₀.2 := AList.mem_lookup_iff.mpr he₀
  have hkey₀ : e₀.1 = key := hes.1.symm.trans hkey
  have hvalue : e₀.2 = [] := by
    rw [hkey₀, h.binaries, hempty] at hlookup
    exact (Option.some.inj hlookup).symm
  rw [hvalue] at hv
  exact absurd hv nofun

theorem bounded_iff (hcalls : ∀ c ∈ calls, c.Declared) (hset : IsSet calls)
    (h : SameAttributes (made calls) l) : l.Bounded ↔
      ((calls.filterMap SetCall.int).map Sigma.fst).toFinset.card ≤ 2 ^ 20 ∧
      ((calls.filterMap SetCall.float).map Sigma.fst).toFinset.card ≤ 2 ^ 20 ∧
      ((calls.filterMap SetCall.string).map Sigma.fst).toFinset.card ≤ 2 ^ 20 ∧
      ((calls.filterMap SetCall.binary).map Sigma.fst).toFinset.card ≤ 2 ^ 20 := by
  have hholding := (holding_made hcalls).same h
  rw [made_eq hcalls] at h
  have hints := h.ints.length_eq.symm.trans (insertAll_empty_length _)
  have hfloats := h.floats.length_eq.symm.trans (insertAll_empty_length _)
  have hstrings := h.strings.length_eq.symm.trans (insertAll_empty_length _)
  have hbinaries := h.binaries.length_eq.symm.trans (insertAll_empty_length _)
  constructor
  · intro hb
    exact ⟨hints ▸ hb.ints.1, hfloats ▸ hb.floats.1, hstrings ▸ hb.strings.1,
      hbinaries ▸ hb.binaries.1⟩
  · rintro ⟨hi, hf, hs, hb⟩
    refine ⟨⟨hints ▸ hi, ?_⟩, ⟨hfloats ▸ hf, ?_⟩, ⟨hstrings ▸ hs, ?_⟩, ⟨hbinaries ▸ hb, ?_⟩⟩
    · intro e he
      exact (hset.ints e (mem_of_lookup hholding.ints he)).2
    · intro e he
      exact (hset.floats e (mem_of_lookup hholding.floats he)).2
    · intro e he
      have hes := hset.strings e (mem_of_lookup hholding.strings he)
      exact ⟨hes.2.1, hes.2.2.2⟩
    · intro e he
      exact (hset.binaries e (mem_of_lookup hholding.binaries he)).2

theorem KeepsAnswers.nonempty {B : Bitsery} (h : KeepsAnswers B calls)
    (hcalls : ∀ c ∈ calls, c.Declared) (key : AttrID) :
    last (calls.filterMap SetCall.binary) key ≠ some [] := by
  intro hempty
  have hset := isSet hcalls
  obtain ⟨l', hl', hanswers⟩ := h (made calls) (.refl _) .empty
  obtain ⟨_, rfl⟩ := Codec.transfer_eq_some.mp hl'
  rw [YaAttributeList.serialize_put] at hanswers
  obtain ⟨_, out, hout, hback⟩ := hanswers (made calls) (.refl _)
  obtain rfl := Option.some.inj (congrArg Prod.snd hout)
  have hkey := (hset.binaries _ (mem_of_last hempty)).1
  have hget := hback.binary key
  unfold YaAttributeList.getBinary at hget
  rw [hkey, hempty, replay_drops_empty (holding_made hcalls) hset hempty] at hget
  exact absurd hget nofun

/-- The last values survive, unless there are too many keys or one that has no bytes. -/
theorem attributes_kept_iff (B : Bitsery) (calls : List SetCall)
    (hcalls : ∀ c ∈ calls, c.Declared) : KeepsAnswers B calls ↔ Sendable calls := by
  have hset := isSet hcalls
  constructor
  · intro h
    obtain ⟨l', hl', _⟩ := h (made calls) (.refl _) .empty
    obtain ⟨hfits, _⟩ := Codec.transfer_eq_some.mp hl'
    obtain ⟨hi, hf, hs, hb⟩ := (bounded_iff hcalls hset (.refl _)).mp
      ((YaAttributeList.serialize_fits B (made calls)).mp hfits)
    exact ⟨hi, hf, hs, hb, h.nonempty hcalls⟩
  · intro h l hl old
    have hbounded := (bounded_iff hcalls hset hl).mpr ⟨h.ints, h.floats, h.strings, h.binaries⟩
    have hfits := (YaAttributeList.serialize_fits B l).mpr hbounded
    have hput := YaAttributeList.serialize_put B old l
    refine ⟨l, Codec.transfer_eq_some.mpr ⟨hfits, hput.symm⟩, ?_⟩
    intro r hr
    have hholding := ((holding_made hcalls).same hl).same hr
    exact ⟨hholding.answers hset, _, rfl, (hholding.replay hset h.nonempty).answers hset⟩

/-- One key with an integer and with bytes. -/
def someCalls : List SetCall := [.setInt [97] 1, .setBinary [97] [1], .setBinary [97] [2]]

theorem some_calls_kept : (∀ c ∈ someCalls, c.Declared) ∧
    (KeepsAnswers .default someCalls ↔ Sendable someCalls) := by
  have hcalls : ∀ c ∈ someCalls, c.Declared := by
    simp [someCalls, SetCall.Declared, terminated]
  exact ⟨hcalls, attributes_kept_iff .default someCalls hcalls⟩

theorem empty_binary_lost : (∀ c ∈ [SetCall.setBinary [97] []], c.Declared) ∧
    ¬ KeepsAnswers .default [.setBinary [97] []] := by
  have hcalls : ∀ c ∈ [SetCall.setBinary [97] []], c.Declared := by
    simp [SetCall.Declared, terminated]
  exact ⟨hcalls, fun h => h.nonempty hcalls [97] rfl⟩

end Vst3
