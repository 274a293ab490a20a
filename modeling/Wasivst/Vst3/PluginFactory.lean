import Wasivst.Bitsery
import Wasivst.Lib.SignedIndex
import Wasivst.Vst3.Base

/-!
# VST3 plugin factories

`YaPluginFactory3` of `serialization/vst3/plugin-factory`: everything that a plugin's factory
reports is read once, sent, and reported again on the other side. Integers are kept as words, and a
`char8` array is the text that stands before its terminator, or all of it if it has none. The SDK
fills its arrays without regard to a terminator.
-/

set_option autoImplicit false

namespace Vst3
open InPlace SignedIndex

/-! ## The records -/

/-- A `char8[n]`, which has a terminator if its text is shorter. -/
structure Text (n : Nat) where
  chars : List UInt8
  noNul : 0 ∉ chars
  fitting : chars.length ≤ n
  deriving DecidableEq

namespace Text
variable {n : Nat}

def Terminated (t : Text n) : Prop := t.chars.length < n

instance (t : Text n) : Decidable t.Terminated := inferInstanceAs (Decidable (_ < _))

/-- The text of an array that holds `cs` and a terminator. -/
def ofChars [NeZero n] (cs : List UInt8) : Text n where
  chars := terminated (cs.take (n - 1))
  noNul := zero_notMem_terminated _
  fitting := by
    have hlen := terminated_length_le (cs.take (n - 1))
    have htake := List.length_take_le (n - 1) cs
    omega

instance [NeZero n] : Inhabited (Text n) := ⟨ofChars []⟩

theorem ext_chars {s t : Text n} (h : s.chars = t.chars) : s = t := by
  cases s
  cases t
  simpa using h

theorem ofChars_chars [NeZero n] {t : Text n} (h : t.Terminated) : ofChars t.chars = t := by
  apply ext_chars
  unfold Terminated at h
  have htake : t.chars.take (n - 1) = t.chars := List.take_of_length_le (by omega)
  have hchars : (ofChars t.chars : Text n).chars = terminated (t.chars.take (n - 1)) := rfl
  rw [hchars, htake]
  exact terminated_eq_self t.noNul

/-- `text1b` of an array. It looks for the terminator, in what comes after the array if need be. -/
def text1b (B : Bitsery) (n : Nat) [NeZero n] : Codec (Text n) where
  write t := (B.text1b (n - 1)).write t.chars
  read old bs := ((B.text1b (n - 1)).read old.chars bs).map fun r => (ofChars r.1, r.2)
  fits t := decide t.Terminated && (B.text1b (n - 1)).fits t.chars
  put _ t := t
  read_write old t rest h := by
    obtain ⟨hterminated, hfits⟩ := Bool.and_eq_true_iff.mp h
    rw [(B.text1b (n - 1)).read_write old.chars t.chars rest hfits, Bitsery.text1b_put,
      Option.map_some, ofChars_chars (of_decide_eq_true hterminated)]

@[simp] theorem text1b_put (B : Bitsery) [NeZero n] (old t : Text n) :
    (text1b B n).put old t = t := rfl

theorem text1b_fits (B : Bitsery) [NeZero n] (hn : n < 2 ^ 30) (t : Text n) :
    (text1b B n).fits t = decide t.Terminated := by
  have hmax : n - 1 < 2 ^ 30 := by omega
  change (decide t.Terminated && (B.text1b (n - 1)).fits t.chars) = decide t.Terminated
  rw [B.text1b_fits hmax]
  rw [Bool.and_eq_left_iff_imp, decide_eq_true_eq, decide_eq_true_eq]
  exact Nat.le_sub_one_of_lt

end Text

structure PFactoryInfo where
  vendor : Text 64
  url : Text 256
  email : Text 128
  flags : UInt32
  deriving DecidableEq, Inhabited

structure PClassInfo where
  cid : TUID
  cardinality : UInt32
  category : Text 32
  name : Text 64
  deriving DecidableEq, Inhabited

structure PClassInfo2 where
  cid : TUID
  cardinality : UInt32
  category : Text 32
  name : Text 64
  classFlags : UInt32
  subCategories : Text 128
  vendor : Text 64
  version : Text 64
  sdkVersion : Text 64
  deriving DecidableEq, Inhabited

structure PClassInfoW where
  cid : TUID
  cardinality : UInt32
  category : Text 32
  name : Vector UInt16 64
  classFlags : UInt32
  subCategories : Text 128
  vendor : Vector UInt16 64
  version : Vector UInt16 64
  sdkVersion : Vector UInt16 64
  deriving DecidableEq, Inhabited

def PFactoryInfo.serialize (B : Bitsery) : Codec PFactoryInfo :=
  .record
    [.field (·.vendor) (fun i v => { i with vendor := v }) (Text.text1b B 64),
     .field (·.url) (fun i v => { i with url := v }) (Text.text1b B 256),
     .field (·.email) (fun i v => { i with email := v }) (Text.text1b B 128),
     .field (·.flags) (fun i v => { i with flags := v }) B.value4b]

def PClassInfo.serialize (B : Bitsery) : Codec PClassInfo :=
  .record
    [.field (·.cid) (fun i v => { i with cid := v }) (B.array1b 16),
     .field (·.cardinality) (fun i v => { i with cardinality := v }) B.value4b,
     .field (·.category) (fun i v => { i with category := v }) (Text.text1b B 32),
     .field (·.name) (fun i v => { i with name := v }) (Text.text1b B 64)]

def PClassInfo2.serialize (B : Bitsery) : Codec PClassInfo2 :=
  .record
    [.field (·.cid) (fun i v => { i with cid := v }) (B.array1b 16),
     .field (·.cardinality) (fun i v => { i with cardinality := v }) B.value4b,
     .field (·.category) (fun i v => { i with category := v }) (Text.text1b B 32),
     .field (·.name) (fun i v => { i with name := v }) (Text.text1b B 64),
     .field (·.classFlags) (fun i v => { i with classFlags := v }) B.value4b,
     .field (·.subCategories) (fun i v => { i with subCategories := v }) (Text.text1b B 128),
     .field (·.vendor) (fun i v => { i with vendor := v }) (Text.text1b B 64),
     .field (·.version) (fun i v => { i with version := v }) (Text.text1b B 64),
     .field (·.sdkVersion) (fun i v => { i with sdkVersion := v }) (Text.text1b B 64)]

/-- The wide texts are sent as whole arrays. -/
def PClassInfoW.serialize (B : Bitsery) : Codec PClassInfoW :=
  .record
    [.field (·.cid) (fun i v => { i with cid := v }) (B.array1b 16),
     .field (·.cardinality) (fun i v => { i with cardinality := v }) B.value4b,
     .field (·.category) (fun i v => { i with category := v }) (Text.text1b B 32),
     .field (·.name) (fun i v => { i with name := v }) (B.array2b 64),
     .field (·.classFlags) (fun i v => { i with classFlags := v }) B.value4b,
     .field (·.subCategories) (fun i v => { i with subCategories := v }) (Text.text1b B 128),
     .field (·.vendor) (fun i v => { i with vendor := v }) (B.array2b 64),
     .field (·.version) (fun i v => { i with version := v }) (B.array2b 64),
     .field (·.sdkVersion) (fun i v => { i with sdkVersion := v }) (B.array2b 64)]

theorem PFactoryInfo.serialize_put (B : Bitsery) : (serialize B).Overwrites := by
  intro old i
  simp only [serialize, Codec.record_cons_put, Codec.record_nil_put, Codec.field_put,
    Text.text1b_put, Bitsery.value4b_put]

theorem PClassInfo.serialize_put (B : Bitsery) : (serialize B).Overwrites := by
  intro old i
  simp only [serialize, Codec.record_cons_put, Codec.record_nil_put, Codec.field_put,
    Text.text1b_put, Bitsery.value4b_put, Bitsery.array1b_put]

theorem PClassInfo2.serialize_put (B : Bitsery) : (serialize B).Overwrites := by
  intro old i
  simp only [serialize, Codec.record_cons_put, Codec.record_nil_put, Codec.field_put,
    Text.text1b_put, Bitsery.value4b_put, Bitsery.array1b_put]

theorem PClassInfoW.serialize_put (B : Bitsery) : (serialize B).Overwrites := by
  intro old i
  simp only [serialize, Codec.record_cons_put, Codec.record_nil_put, Codec.field_put,
    Text.text1b_put, Bitsery.value4b_put, Bitsery.array1b_put,
    Bitsery.array2b_put]

/-- All its texts have terminators. -/
def PFactoryInfo.Terminated (i : PFactoryInfo) : Prop :=
  i.vendor.Terminated ∧ i.url.Terminated ∧ i.email.Terminated

def PClassInfo.Terminated (i : PClassInfo) : Prop := i.category.Terminated ∧ i.name.Terminated

def PClassInfo2.Terminated (i : PClassInfo2) : Prop :=
  i.category.Terminated ∧ i.name.Terminated ∧ i.subCategories.Terminated ∧ i.vendor.Terminated ∧
    i.version.Terminated ∧ i.sdkVersion.Terminated

def PClassInfoW.Terminated (i : PClassInfoW) : Prop :=
  i.category.Terminated ∧ i.subCategories.Terminated

theorem PFactoryInfo.serialize_fits (B : Bitsery) (i : PFactoryInfo) :
    (serialize B).fits i = true ↔ i.Terminated := by
  simp [serialize, Text.text1b_fits, Terminated]

theorem PClassInfo.serialize_fits (B : Bitsery) (i : PClassInfo) :
    (serialize B).fits i = true ↔ i.Terminated := by
  simp [serialize, Text.text1b_fits, Terminated]

theorem PClassInfo2.serialize_fits (B : Bitsery) (i : PClassInfo2) :
    (serialize B).fits i = true ↔ i.Terminated := by
  simp [serialize, Text.text1b_fits, Terminated]

theorem PClassInfoW.serialize_fits (B : Bitsery) (i : PClassInfoW) :
    (serialize B).fits i = true ↔ i.Terminated := by
  simp [serialize, Text.text1b_fits, Terminated]

/-! ## Factories -/

/-- What a factory answers to an index. Only the classes that it counts have an info. -/
structure ClassInfos (count : Int32) (α : Type) where
  get : Int32 → Option α
  counted : ∀ {index : Int32}, (get index).isSome → 0 ≤ index ∧ index < count

/-- The queries of a plugin's factory, any of which may fail. Each version of the interface extends
the one before it. -/
structure IPluginFactory where
  getFactoryInfo : Option PFactoryInfo
  countClasses : Int32
  getClassInfo : ClassInfos countClasses PClassInfo
  getClassInfo2 : Option (ClassInfos countClasses PClassInfo2)
  getClassInfoUnicode : Option (ClassInfos countClasses PClassInfoW)
  inherits : getClassInfoUnicode.isSome → getClassInfo2.isSome

/-- All texts that the factory reports have terminators. -/
structure IPluginFactory.Terminated (f : IPluginFactory) : Prop where
  factory_info : ∀ info ∈ f.getFactoryInfo, info.Terminated
  infos_1 : ∀ index, ∀ info ∈ f.getClassInfo.get index, info.Terminated
  infos_2 : ∀ f2 ∈ f.getClassInfo2, ∀ index, ∀ info ∈ f2.get index, info.Terminated
  infos_unicode : ∀ f3 ∈ f.getClassInfoUnicode, ∀ index, ∀ info ∈ f3.get index, info.Terminated

/-- The class id of a record. -/
structure CidField (α : Type) where
  cid : α → TUID
  setCid : TUID → α → α
  cid_setCid : ∀ u info, cid (setCid u info) = u
  setCid_setCid : ∀ u v info, setCid u (setCid v info) = setCid u info
  setCid_cid : ∀ info, setCid (cid info) info = info

def PClassInfo.cidField : CidField PClassInfo where
  cid := (·.cid)
  setCid u info := { info with cid := u }
  cid_setCid _ _ := rfl
  setCid_setCid _ _ _ := rfl
  setCid_cid _ := rfl

def PClassInfo2.cidField : CidField PClassInfo2 where
  cid := (·.cid)
  setCid u info := { info with cid := u }
  cid_setCid _ _ := rfl
  setCid_setCid _ _ _ := rfl
  setCid_cid _ := rfl

def PClassInfoW.cidField : CidField PClassInfoW where
  cid := (·.cid)
  setCid u info := { info with cid := u }
  cid_setCid _ _ := rfl
  setCid_setCid _ _ _ := rfl
  setCid_cid _ := rfl

section Infos
variable {α : Type} (C : CidField α)

/-- The record with its native class id. -/
def CidField.native (info : α) : α := C.setCid (WineUID.mk (C.cid info)).get_native_uid info

/-- The loop over the classes. -/
def readInfos (num_classes : Int32) (get : Int32 → Option α) : List (Option α) :=
  (List.range num_classes.toNatClampNeg).map fun i => (get (Int32.ofNat i)).map C.native

/-- The proxy's reply to a query that the original answers by `original`. -/
def Mirrored (reply : Access TResult α) (original : Option α) : Prop :=
  match original with
  | some info => ∃ info', reply = .element info' ∧ C.setCid (C.cid info) info' = info ∧
      (NativeUID.mk (C.cid info')).get_wine_uid = C.cid info
  | none => ∃ e, reply = .failure e

theorem native_same (info : α) : C.setCid (C.cid info) (C.native info) = info := by
  rw [CidField.native, C.setCid_setCid, C.setCid_cid]

theorem get_wine_uid_native (info : α) :
    (NativeUID.mk (C.cid (C.native info))).get_wine_uid = C.cid info := by
  rw [CidField.native, C.cid_setCid, get_wine_uid_get_native_uid]

@[simp] theorem readInfos_length (num_classes : Int32) (get : Int32 → Option α) :
    (readInfos C num_classes get).length = num_classes.toNatClampNeg := by
  rw [readInfos, List.length_map, List.length_range]

/-- The list answers every index as the original does. -/
theorem elementAt_readInfos {count : Int32} (infos : ClassInfos count α) (index : Int32) :
    (elementAt (readInfos C count infos.get) index).join = (infos.get index).map C.native := by
  by_cases hin : 0 ≤ index ∧ index < count
  · have hneg : ¬ index < 0 := Int32.not_lt.mpr hin.1
    have hlt := toNatClampNeg_lt_of_lt hneg hin.2
    unfold elementAt readInfos
    rw [if_neg hneg, List.getElem?_map, List.getElem?_range hlt, Option.map_some, Option.join_some,
      Int32.ofNat_toNatClampNeg index hin.1]
  · have hnone : infos.get index = none := by
      by_contra hsome
      exact hin (infos.counted (Option.isSome_iff_ne_none.mpr hsome))
    rw [hnone, Option.map_none]
    by_cases hneg : index < 0
    · rw [elementAt_of_neg hneg, Option.join_none]
    · have hge : count ≤ index := by
        by_contra hlt
        exact hin ⟨Int32.not_lt.mp hneg, Int32.not_le.mp hlt⟩
      have hout := Int32.toNatClampNeg_le hge
      rw [elementAt_eq_none (by rwa [readInfos_length]), Option.join_none]

/-- What a class id has no part in holds of the list as it holds of the answers. -/
theorem forall_readInfos {count : Int32} (infos : ClassInfos count α) {P : α → Prop}
    (hP : ∀ info, P (C.native info) ↔ P info) :
    (∀ x ∈ readInfos C count infos.get, ∀ info ∈ x, P info) ↔
      ∀ index, ∀ info ∈ infos.get index, P info := by
  constructor
  · intro h index info hinfo
    have hsome : (infos.get index).isSome := Option.isSome_iff_exists.mpr ⟨info, hinfo⟩
    obtain ⟨hlow, hhigh⟩ := infos.counted hsome
    have hlt := toNatClampNeg_lt_of_lt (Int32.not_lt.mpr hlow) hhigh
    have hmem : some (C.native info) ∈ readInfos C count infos.get := by
      refine List.mem_map.mpr ⟨index.toNatClampNeg, List.mem_range.mpr hlt, ?_⟩
      rw [Int32.ofNat_toNatClampNeg index hlow, Option.mem_def.mp hinfo, Option.map_some]
    exact (hP info).mp (h _ hmem _ rfl)
  · intro h x hx info hinfo
    obtain ⟨i, _, rfl⟩ := List.mem_map.mp hx
    obtain ⟨original, horiginal, rfl⟩ := Option.map_eq_some_iff.mp hinfo
    exact (hP original).mpr (h _ _ horiginal)

theorem recorded_mirrored {count : Int32} (infos : ClassInfos count α) (e e' : TResult)
    (index : Int32) :
    Mirrored C (recorded e e' (readInfos C count infos.get) index) (infos.get index) := by
  have hlen : (readInfos C count infos.get).length < 2 ^ 31 := by
    rw [readInfos_length]
    exact Int32.toNatClampNeg_lt count
  have hfinds := (recorded_finds_iff e e' (readInfos C count infos.get) index).mpr
    (.inr (.inl (.inl hlen)))
  rw [elementAt_readInfos] at hfinds
  cases hget : infos.get index with
  | none =>
    rw [hget] at hfinds
    exact hfinds
  | some info =>
    rw [hget] at hfinds
    exact ⟨C.native info, hfinds, native_same C info, get_wine_uid_native C info⟩

end Infos

/-! ## `ConstructArgs` -/

structure YaPluginFactory3.ConstructArgs where
  supports_plugin_factory : Bool
  supports_plugin_factory_2 : Bool
  supports_plugin_factory_3 : Bool
  factory_info : Option PFactoryInfo
  num_classes : UInt32
  class_infos_1 : List (Option PClassInfo)
  class_infos_2 : List (Option PClassInfo2)
  class_infos_unicode : List (Option PClassInfoW)

namespace YaPluginFactory3.ConstructArgs

/-- The number of classes of a new object is not initialized. -/
def fresh : ConstructArgs := ⟨false, false, false, none, 0, [], [], []⟩

/-- Everything that the factory reports; `none` is the exception of `resize()`. -/
def ofFactory (factory : IPluginFactory) : Option ConstructArgs :=
  let n := factory.countClasses
  if n < 0 then none
  else
    let args := { fresh with
      supports_plugin_factory := true
      factory_info := factory.getFactoryInfo
      num_classes := n.toUInt32
      class_infos_1 := readInfos PClassInfo.cidField n factory.getClassInfo.get }
    match factory.getClassInfo2 with
    | none => some args
    | some factory2 =>
      let args := { args with
        supports_plugin_factory_2 := true
        class_infos_2 := readInfos PClassInfo2.cidField n factory2.get }
      match factory.getClassInfoUnicode with
      | none => some args
      | some factory3 => some { args with
          supports_plugin_factory_3 := true
          class_infos_unicode := readInfos PClassInfoW.cidField n factory3.get }

/-- The object need not be a factory. -/
def ofObject (object : Option IPluginFactory) : Option ConstructArgs :=
  match object with
  | none => some fresh
  | some factory => ofFactory factory

def infos {α : Type} [Inhabited α] (B : Bitsery) (c : Codec α) : Codec (List (Option α)) :=
  B.container 2048 none (B.inPlaceOptional default false c)

def serialize (B : Bitsery) : Codec ConstructArgs :=
  .record
    [.field (·.supports_plugin_factory) (fun a v => { a with supports_plugin_factory := v })
       B.bool1b,
     .field (·.supports_plugin_factory_2) (fun a v => { a with supports_plugin_factory_2 := v })
       B.bool1b,
     .field (·.supports_plugin_factory_3) (fun a v => { a with supports_plugin_factory_3 := v })
       B.bool1b,
     .field (·.factory_info) (fun a v => { a with factory_info := v })
       (B.inPlaceOptional default false (PFactoryInfo.serialize B)),
     .field (·.num_classes) (fun a v => { a with num_classes := v }) B.value4b,
     .field (·.class_infos_1) (fun a v => { a with class_infos_1 := v })
       (infos B (PClassInfo.serialize B)),
     .field (·.class_infos_2) (fun a v => { a with class_infos_2 := v })
       (infos B (PClassInfo2.serialize B)),
     .field (·.class_infos_unicode) (fun a v => { a with class_infos_unicode := v })
       (infos B (PClassInfoW.serialize B))]

theorem infos_put {α : Type} [Inhabited α] (B : Bitsery) {c : Codec α} (h : c.Overwrites) :
    (infos B c).Overwrites := by
  have hopt : (B.inPlaceOptional default false c).Overwrites :=
    B.inPlaceOptional_put_of_overwrites default false h
  exact fun olds xs => Codec.putList_eq none _ hopt olds xs

theorem infos_fits {α : Type} [Inhabited α] (B : Bitsery) {c : Codec α} {P : α → Prop}
    (h : ∀ x, c.fits x = true ↔ P x) (xs : List (Option α)) :
    (infos B c).fits xs = true ↔ xs.length ≤ 2048 ∧ ∀ x ∈ xs, ∀ info ∈ x, P info := by
  have hmax : 2048 < 2 ^ 30 := by decide
  simp [infos, B.container_fits _ _ hmax, Option.all_eq_true, h]

structure Terminated (args : ConstructArgs) : Prop where
  factory_info : ∀ info ∈ args.factory_info, info.Terminated
  infos_1 : ∀ x ∈ args.class_infos_1, ∀ info ∈ x, info.Terminated
  infos_2 : ∀ x ∈ args.class_infos_2, ∀ info ∈ x, info.Terminated
  infos_unicode : ∀ x ∈ args.class_infos_unicode, ∀ info ∈ x, info.Terminated

theorem serialize_put (B : Bitsery) : (serialize B).Overwrites := by
  intro old args
  have hfactory := B.inPlaceOptional_put_of_overwrites default false (PFactoryInfo.serialize_put B)
  simp only [serialize, Codec.record_cons_put, Codec.record_nil_put, Codec.field_put,
    Bitsery.bool1b_put, Bitsery.value4b_put, hfactory, infos_put B (PClassInfo.serialize_put B) _ _,
    infos_put B (PClassInfo2.serialize_put B) _ _, infos_put B (PClassInfoW.serialize_put B) _ _]

theorem serialize_fits (B : Bitsery) (args : ConstructArgs) :
    (serialize B).fits args ↔ (args.class_infos_1.length ≤ 2048 ∧
      args.class_infos_2.length ≤ 2048 ∧ args.class_infos_unicode.length ≤ 2048) ∧
      args.Terminated := by
  have hfactory : args.factory_info.all (PFactoryInfo.serialize B).fits = true ↔
      ∀ info ∈ args.factory_info, info.Terminated := by
    simp [Option.all_eq_true, PFactoryInfo.serialize_fits]
  simp only [serialize, Codec.record_cons_fits, Codec.record_nil_fits, Codec.field_fits,
    Bitsery.bool1b_fits, Bitsery.value4b_fits, Bitsery.inPlaceOptional_fits, Bool.and_eq_true,
    Bool.true_and, Bool.and_true, hfactory, infos_fits B (PClassInfo.serialize_fits B),
    infos_fits B (PClassInfo2.serialize_fits B), infos_fits B (PClassInfoW.serialize_fits B)]
  constructor
  · rintro ⟨hinfo, ⟨hlen1, h1⟩, ⟨hlen2, h2⟩, hlen3, h3⟩
    exact ⟨⟨hlen1, hlen2, hlen3⟩, hinfo, h1, h2, h3⟩
  · rintro ⟨⟨hlen1, hlen2, hlen3⟩, hinfo, h1, h2, h3⟩
    exact ⟨hinfo, ⟨hlen1, h1⟩, ⟨hlen2, h2⟩, hlen3, h3⟩

theorem ofFactory_lists {f : IPluginFactory} {args : ConstructArgs} (h : ofFactory f = some args) :
    args.factory_info = f.getFactoryInfo ∧
      args.class_infos_1 = readInfos PClassInfo.cidField f.countClasses f.getClassInfo.get ∧
      args.class_infos_2 = f.getClassInfo2.elim []
        (fun f2 => readInfos PClassInfo2.cidField f.countClasses f2.get) ∧
      args.class_infos_unicode = f.getClassInfoUnicode.elim []
        (fun f3 => readInfos PClassInfoW.cidField f.countClasses f3.get) := by
  obtain ⟨info, count, infos, infos2, infos3, inherits⟩ := f
  unfold ofFactory at h
  by_cases hneg : count < 0
  · simp only [hneg, if_true] at h
    cases h
  · simp only [hneg, if_false] at h
    cases infos2 with
    | none =>
      cases infos3 with
      | some f3 => exact absurd (inherits rfl) Bool.false_ne_true
      | none =>
        obtain rfl := Option.some.inj h
        exact ⟨rfl, rfl, rfl, rfl⟩
    | some f2 =>
      cases infos3 with
      | none =>
        obtain rfl := Option.some.inj h
        exact ⟨rfl, rfl, rfl, rfl⟩
      | some f3 =>
        obtain rfl := Option.some.inj h
        exact ⟨rfl, rfl, rfl, rfl⟩

/-- A list that is empty for a version that there is not. -/
theorem forall_elim {α : Type} (C : CidField α) {count : Int32}
    (versions : Option (ClassInfos count α)) {P : α → Prop}
    (hP : ∀ info, P (C.native info) ↔ P info) :
    (∀ x ∈ versions.elim [] fun infos => readInfos C count infos.get, ∀ info ∈ x, P info) ↔
      ∀ infos ∈ versions, ∀ index, ∀ info ∈ infos.get index, P info := by
  cases versions with
  | none => simp
  | some infos => simpa using forall_readInfos C infos hP

/-- The constructor keeps the texts as they are. -/
theorem ofFactory_terminated {f : IPluginFactory} {args : ConstructArgs}
    (h : ofFactory f = some args) : args.Terminated ↔ f.Terminated := by
  obtain ⟨hinfo, hinfos, hinfos2, hinfos3⟩ := ofFactory_lists h
  have h1 := forall_readInfos PClassInfo.cidField f.getClassInfo
    fun info => show PClassInfo.Terminated _ ↔ PClassInfo.Terminated info from Iff.rfl
  have h2 := forall_elim PClassInfo2.cidField f.getClassInfo2
    fun info => show PClassInfo2.Terminated _ ↔ PClassInfo2.Terminated info from Iff.rfl
  have h3 := forall_elim PClassInfoW.cidField f.getClassInfoUnicode
    fun info => show PClassInfoW.Terminated _ ↔ PClassInfoW.Terminated info from Iff.rfl
  rw [← hinfos] at h1
  rw [← hinfos2] at h2
  rw [← hinfos3] at h3
  constructor
  · intro ht
    exact ⟨hinfo ▸ ht.factory_info, h1.mp ht.infos_1, h2.mp ht.infos_2, h3.mp ht.infos_unicode⟩
  · intro ht
    exact ⟨hinfo ▸ ht.factory_info, h1.mpr ht.infos_1, h2.mpr ht.infos_2, h3.mpr ht.infos_unicode⟩

end YaPluginFactory3.ConstructArgs

/-! ## `YaPluginFactory3` -/

structure YaPluginFactory3 where
  arguments_ : YaPluginFactory3.ConstructArgs

namespace YaPluginFactory3

def getFactoryInfo (p : YaPluginFactory3) : Access TResult PFactoryInfo :=
  match p.arguments_.factory_info with
  | some info => .element info
  | none => .failure .kNotInitialized

def countClasses (p : YaPluginFactory3) : Int32 := p.arguments_.num_classes.toInt32

def getClassInfo (p : YaPluginFactory3) (index : Int32) : Access TResult PClassInfo :=
  recorded .kInvalidArgument .kResultFalse p.arguments_.class_infos_1 index

def getClassInfo2 (p : YaPluginFactory3) (index : Int32) : Access TResult PClassInfo2 :=
  recorded .kInvalidArgument .kResultFalse p.arguments_.class_infos_2 index

def getClassInfoUnicode (p : YaPluginFactory3) (index : Int32) : Access TResult PClassInfoW :=
  recorded .kInvalidArgument .kResultFalse p.arguments_.class_infos_unicode index

end YaPluginFactory3

/-- The proxy supports what the original supports and answers every query as it does. -/
structure Mirrors (p : YaPluginFactory3) (f : IPluginFactory) : Prop where
  count : p.countClasses = f.countClasses
  supported : p.arguments_.supports_plugin_factory = true
  supported_2 : p.arguments_.supports_plugin_factory_2 = f.getClassInfo2.isSome
  supported_3 : p.arguments_.supports_plugin_factory_3 = f.getClassInfoUnicode.isSome
  factory_info : p.getFactoryInfo.Finds f.getFactoryInfo
  infos_1 : ∀ index, Mirrored PClassInfo.cidField (p.getClassInfo index) (f.getClassInfo.get index)
  infos_2 : ∀ f2, f.getClassInfo2 = some f2 → ∀ index,
    Mirrored PClassInfo2.cidField (p.getClassInfo2 index) (f2.get index)
  infos_unicode : ∀ f3, f.getClassInfoUnicode = some f3 → ∀ index,
    Mirrored PClassInfoW.cidField (p.getClassInfoUnicode index) (f3.get index)

/-- A proxy whose lists are those that the loops read. -/
theorem mirrors_of_read {f : IPluginFactory} {args : YaPluginFactory3.ConstructArgs}
    (hcount : args.num_classes.toInt32 = f.countClasses)
    (h1 : args.supports_plugin_factory = true)
    (h2 : args.supports_plugin_factory_2 = f.getClassInfo2.isSome)
    (h3 : args.supports_plugin_factory_3 = f.getClassInfoUnicode.isSome)
    (hinfo : args.factory_info = f.getFactoryInfo)
    (hinfos : args.class_infos_1 = readInfos PClassInfo.cidField f.countClasses f.getClassInfo.get)
    (hinfos2 : ∀ f2, f.getClassInfo2 = some f2 →
      args.class_infos_2 = readInfos PClassInfo2.cidField f.countClasses f2.get)
    (hinfos3 : ∀ f3, f.getClassInfoUnicode = some f3 →
      args.class_infos_unicode = readInfos PClassInfoW.cidField f.countClasses f3.get) :
    Mirrors ⟨args⟩ f where
  count := hcount
  supported := h1
  supported_2 := h2
  supported_3 := h3
  factory_info := by
    unfold YaPluginFactory3.getFactoryInfo
    rw [← hinfo]
    cases args.factory_info with
    | none => exact ⟨_, rfl⟩
    | some i => rfl
  infos_1 := by
    intro index
    rw [YaPluginFactory3.getClassInfo, hinfos]
    exact recorded_mirrored _ f.getClassInfo _ _ index
  infos_2 := by
    intro f2 hf2 index
    rw [YaPluginFactory3.getClassInfo2, hinfos2 f2 hf2]
    exact recorded_mirrored _ f2 _ _ index
  infos_unicode := by
    intro f3 hf3 index
    rw [YaPluginFactory3.getClassInfoUnicode, hinfos3 f3 hf3]
    exact recorded_mirrored _ f3 _ _ index

/-- What the constructor returns for a factory that counts its classes. -/
theorem YaPluginFactory3.ConstructArgs.ofFactory_mirrors {f : IPluginFactory}
    (hpos : 0 ≤ f.countClasses) :
    ∃ args, ofFactory f = some args ∧ Mirrors ⟨args⟩ f ∧
      args.class_infos_1.length ≤ f.countClasses.toNatClampNeg ∧
      args.class_infos_2.length ≤ f.countClasses.toNatClampNeg ∧
      args.class_infos_unicode.length ≤ f.countClasses.toNatClampNeg := by
  obtain ⟨info, count, infos, infos2, infos3, inherits⟩ := f
  have hneg : ¬ count < 0 := Int32.not_lt.mpr hpos
  unfold ofFactory
  simp only [hneg, if_false]
  cases infos2 with
  | none =>
    cases infos3 with
    | some f3 => exact absurd (inherits rfl) Bool.false_ne_true
    | none =>
      refine ⟨_, rfl, ?_, by simp, Nat.zero_le _, Nat.zero_le _⟩
      exact mirrors_of_read rfl rfl rfl rfl rfl rfl nofun nofun
  | some f2 =>
    have hf2 : ∀ f, some f2 = some f →
        readInfos PClassInfo2.cidField count f2.get = readInfos PClassInfo2.cidField count f.get := by
      rintro f ⟨⟩
      rfl
    cases infos3 with
    | none =>
      refine ⟨_, rfl, ?_, by simp, by simp, Nat.zero_le _⟩
      exact mirrors_of_read rfl rfl rfl rfl rfl rfl hf2 nofun
    | some f3 =>
      have hf3 : ∀ f, some f3 = some f →
          readInfos PClassInfoW.cidField count f3.get =
            readInfos PClassInfoW.cidField count f.get := by
        rintro f ⟨⟩
        rfl
      refine ⟨_, rfl, ?_, by simp, by simp, by simp⟩
      exact mirrors_of_read rfl rfl rfl rfl rfl rfl hf2 hf3

/-- What the constructor read is sent and given to a proxy. -/
def YaPluginFactory3.ofObject (B : Bitsery) (old : YaPluginFactory3.ConstructArgs)
    (object : Option IPluginFactory) : Option YaPluginFactory3 :=
  (YaPluginFactory3.ConstructArgs.ofObject object).bind fun args =>
    ((YaPluginFactory3.ConstructArgs.serialize B).transfer old args).map YaPluginFactory3.mk

/-- A factory gets across as it is if all its texts have terminators, and not at all otherwise. -/
theorem ofObject_cases (B : Bitsery) (old : YaPluginFactory3.ConstructArgs) {f : IPluginFactory}
    (hpos : 0 ≤ f.countClasses) (hmax : f.countClasses ≤ 2048) :
    (f.Terminated → ∃ p, YaPluginFactory3.ofObject B old (some f) = some p ∧ Mirrors p f) ∧
      (¬ f.Terminated → YaPluginFactory3.ofObject B old (some f) = none) := by
  obtain ⟨args, hargs, hmirrors, h1, h2, h3⟩ :=
    YaPluginFactory3.ConstructArgs.ofFactory_mirrors hpos
  have hcount : f.countClasses.toNatClampNeg ≤ 2048 := Int32.toNatClampNeg_le hmax
  have hterminated := YaPluginFactory3.ConstructArgs.ofFactory_terminated hargs
  have hput := YaPluginFactory3.ConstructArgs.serialize_put B old args
  have hobject : YaPluginFactory3.ofObject B old (some f) =
      ((YaPluginFactory3.ConstructArgs.serialize B).transfer old args).map YaPluginFactory3.mk := by
    rw [YaPluginFactory3.ofObject, YaPluginFactory3.ConstructArgs.ofObject, hargs, Option.bind_some]
  rw [hobject]
  constructor
  · intro hf
    have hfits := (YaPluginFactory3.ConstructArgs.serialize_fits B args).mpr
      ⟨⟨h1.trans hcount, h2.trans hcount, h3.trans hcount⟩, hterminated.mpr hf⟩
    have hsent := Codec.transfer_eq_some.mpr ⟨hfits, hput.symm⟩
    exact ⟨⟨args⟩, by rw [hsent, Option.map_some], hmirrors⟩
  · intro hf
    rw [Option.map_eq_none_iff, Option.eq_none_iff_forall_ne_some]
    intro args' hsent
    have hfits := (Codec.transfer_eq_some.mp hsent).1
    exact hf (hterminated.mp ((YaPluginFactory3.ConstructArgs.serialize_fits B args).mp hfits).2)

theorem factory_mirrored (B : Bitsery) (old : YaPluginFactory3.ConstructArgs) (f : IPluginFactory)
    (hpos : 0 ≤ f.countClasses) (hmax : f.countClasses ≤ 2048) :
    (∃ p, YaPluginFactory3.ofObject B old (some f) = some p ∧ Mirrors p f) ↔ f.Terminated := by
  obtain ⟨hgood, hbad⟩ := ofObject_cases B old hpos hmax
  constructor
  · rintro ⟨p, hp, _⟩
    by_contra hf
    rw [hbad hf] at hp
    cases hp
  · exact hgood

/-- A factory of the third version whose second class has no info. -/
def twoClasses : IPluginFactory where
  getFactoryInfo := some ⟨.ofChars [0x76], .ofChars [], .ofChars [], 0⟩
  countClasses := 2
  getClassInfo := ⟨fun i => if i = 0 then some default else none, by
    intro index h
    split_ifs at h with hi
    · subst hi
      decide
    · exact absurd h Bool.false_ne_true⟩
  getClassInfo2 := some ⟨fun _ => none, fun h => absurd h Bool.false_ne_true⟩
  getClassInfoUnicode := some ⟨fun _ => none, fun h => absurd h Bool.false_ne_true⟩
  inherits _ := rfl

theorem twoClasses_terminated : twoClasses.Terminated := by
  refine ⟨?_, ?_, ?_, ?_⟩
  · rintro _ ⟨⟩
    exact ⟨by decide, by decide, by decide⟩
  · intro index info hinfo
    change (if index = 0 then some default else none) = some info at hinfo
    split_ifs at hinfo
    obtain rfl := Option.some.inj hinfo
    exact ⟨by decide, by decide⟩
  · rintro _ ⟨⟩ _ _ ⟨⟩
  · rintro _ ⟨⟩ _ _ ⟨⟩

theorem two_classes_mirrored :
    ∃ p, YaPluginFactory3.ofObject .default .fresh (some twoClasses) = some p ∧
      Mirrors p twoClasses :=
  (factory_mirrored .default .fresh twoClasses (by decide) (by decide)).mpr twoClasses_terminated

/-- A class whose name fills its array. -/
def filledName : IPluginFactory where
  getFactoryInfo := none
  countClasses := 1
  getClassInfo := ⟨fun i => if i = 0 then some { (default : PClassInfo) with
      name := ⟨List.replicate 64 0x61, by decide, by decide⟩ } else none, by
    intro index h
    split_ifs at h with hi
    · subst hi
      decide
    · exact absurd h Bool.false_ne_true⟩
  getClassInfo2 := none
  getClassInfoUnicode := none
  inherits := id

theorem filled_name_lost : ¬ ∀ (B : Bitsery) (old : YaPluginFactory3.ConstructArgs)
    (f : IPluginFactory), 0 ≤ f.countClasses → f.countClasses ≤ 2048 →
      ∃ p, YaPluginFactory3.ofObject B old (some f) = some p ∧ Mirrors p f := by
  intro h
  obtain ⟨p, hp, _⟩ := h .default .fresh filledName (by decide) (by decide)
  have hfilled : ¬ filledName.Terminated := by
    intro hf
    have hname := (hf.infos_1 0 _ rfl).2
    exact absurd hname (by decide)
  rw [(ofObject_cases .default .fresh (by decide) (by decide)).2 hfilled] at hp
  cases hp

end Vst3
