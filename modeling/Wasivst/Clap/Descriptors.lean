import Mathlib.Data.Prod.Lex
import Mathlib.Data.UInt
import Wasivst.Lib.CString
import Wasivst.Mirror

/-!
# CLAP plugin descriptors

`Descriptor` of `serialization/clap/plugin.{h,cpp}` and the `ListResponse` of the plugin factory,
with the clamped version of `version.h`. Strings are behind pointers that may be null, and the
features are an array of pointers up to a null one.
-/

set_option autoImplicit false

namespace Clap
open InPlace CString

structure ClapVersion where
  major : UInt32
  minor : UInt32
  revision : UInt32
  deriving DecidableEq

namespace ClapVersion

def serialize (B : Bitsery) : Codec ClapVersion :=
  .record
    [.field (·.major) (fun v x => { v with major := x }) B.value4b,
     .field (·.minor) (fun v x => { v with minor := x }) B.value4b,
     .field (·.revision) (fun v x => { v with revision := x }) B.value4b]

/-- Versions in their order. -/
def rank (v : ClapVersion) : ℕ ×ₗ ℕ ×ₗ ℕ :=
  toLex (v.major.toNat, toLex (v.minor.toNat, v.revision.toNat))

end ClapVersion

def clamp_clap_version (CLAP_VERSION version : ClapVersion) : ClapVersion :=
  if CLAP_VERSION.major < version.major ∨
      (version.major = CLAP_VERSION.major ∧
        (CLAP_VERSION.minor < version.minor ∨
          (version.minor = CLAP_VERSION.minor ∧ CLAP_VERSION.revision < version.revision))) then
    CLAP_VERSION
  else version

theorem rank_lt_rank (v w : ClapVersion) : v.rank < w.rank ↔
    v.major < w.major ∨ (w.major = v.major ∧
      (v.minor < w.minor ∨ (w.minor = v.minor ∧ v.revision < w.revision))) := by
  unfold ClapVersion.rank
  rw [Prod.Lex.toLex_lt_toLex, Prod.Lex.toLex_lt_toLex, UInt32.toNat_inj, UInt32.toNat_inj,
    eq_comm (a := v.major), eq_comm (a := v.minor)]
  rfl

/-- The lower one of the two versions. -/
theorem rank_clamp (CLAP_VERSION version : ClapVersion) :
    (clamp_clap_version CLAP_VERSION version).rank = min version.rank CLAP_VERSION.rank := by
  have hiff := rank_lt_rank CLAP_VERSION version
  unfold clamp_clap_version
  by_cases h : CLAP_VERSION.rank < version.rank
  · rw [if_pos (hiff.mp h), min_eq_right_of_lt h]
  · rw [if_neg (mt hiff.mpr h), min_eq_left (not_lt.mp h)]

theorem clamp_clamp (CLAP_VERSION version : ClapVersion) :
    clamp_clap_version CLAP_VERSION (clamp_clap_version CLAP_VERSION version) =
      clamp_clap_version CLAP_VERSION version := by
  have hnot : ¬ CLAP_VERSION.rank < (clamp_clap_version CLAP_VERSION version).rank := by
    rw [rank_clamp, not_lt]
    exact min_le_right _ _
  rw [rank_lt_rank] at hnot
  exact if_neg hnot

/-! ## Descriptors -/

/-- `clap_plugin_descriptor_t`. A pointer in the array of the features may be null. -/
structure ClapPluginDescriptor where
  clap_version : ClapVersion
  id : Option (Chars UInt8)
  name : Option (Chars UInt8)
  vendor : Option (Chars UInt8)
  url : Option (Chars UInt8)
  manual_url : Option (Chars UInt8)
  support_url : Option (Chars UInt8)
  version : Option (Chars UInt8)
  description : Option (Chars UInt8)
  features : Option (List (Option (Chars UInt8)))

structure Descriptor where
  clap_version : ClapVersion
  id : List UInt8
  name : List UInt8
  vendor : Option (List UInt8)
  url : Option (List UInt8)
  manual_url : Option (List UInt8)
  support_url : Option (List UInt8)
  version : Option (List UInt8)
  description : Option (List UInt8)
  features : List (List UInt8)

/-- `while (*orig_features)`, which leaves an array without a null pointer. -/
def readFeatures : List (Option (Chars UInt8)) → Option (List (Chars UInt8))
  | [] => none
  | none :: _ => some []
  | some feature :: rest => (readFeatures rest).map (feature :: ·)

/-- Without an array there are no features. -/
def ClapPluginDescriptor.featureList (d : ClapPluginDescriptor) : Option (List (Chars UInt8)) :=
  match d.features with
  | none => some []
  | some features => readFeatures features

namespace Descriptor

/-- There are asserts on the identifier and the name. -/
def ofNative (original : ClapPluginDescriptor) : Option Descriptor := do
  let id ← original.id
  let name ← original.name
  let features ← original.featureList
  some
    { clap_version := original.clap_version
      id := id.1
      name := name.1
      vendor := original.vendor.map (·.1)
      url := original.url.map (·.1)
      manual_url := original.manual_url.map (·.1)
      support_url := original.support_url.map (·.1)
      version := original.version.map (·.1)
      description := original.description.map (·.1)
      features := features.map (·.1) }

section Serialize
variable (B : Bitsery)

def optionalText : Codec (Option (List UInt8)) := B.inPlaceOptional [] false (B.text1b 4096)

def serialize : Codec Descriptor :=
  .record
    [.field (·.clap_version) (fun d v => { d with clap_version := v }) (ClapVersion.serialize B),
     .field (·.id) (fun d v => { d with id := v }) (B.text1b 4096),
     .field (·.name) (fun d v => { d with name := v }) (B.text1b 4096),
     .field (·.vendor) (fun d v => { d with vendor := v }) (optionalText B),
     .field (·.url) (fun d v => { d with url := v }) (optionalText B),
     .field (·.manual_url) (fun d v => { d with manual_url := v }) (optionalText B),
     .field (·.support_url) (fun d v => { d with support_url := v }) (optionalText B),
     .field (·.version) (fun d v => { d with version := v }) (optionalText B),
     .field (·.description) (fun d v => { d with description := v }) (optionalText B),
     .field (·.features) (fun d v => { d with features := v })
       (B.container 4096 [] (B.text1b 4096))]

end Serialize

/-- The pointers are to the fields of the descriptor itself. -/
def get (CLAP_VERSION : ClapVersion) (d : Descriptor) : ClapPluginDescriptor :=
  let features_ptrs := d.features.map (fun feature => some (c_str feature)) ++ [none]
  { clap_version := clamp_clap_version CLAP_VERSION d.clap_version
    id := some (c_str d.id)
    name := some (c_str d.name)
    vendor := d.vendor.map c_str
    url := d.url.map c_str
    manual_url := d.manual_url.map c_str
    support_url := d.support_url.map c_str
    version := d.version.map c_str
    description := d.description.map c_str
    features := some features_ptrs }

end Descriptor

/-! ## Descriptors across the bridge -/

namespace ClapPluginDescriptor

def strings (d : ClapPluginDescriptor) : List (Option (Chars UInt8)) :=
  [d.id, d.name, d.vendor, d.url, d.manual_url, d.support_url, d.version, d.description]

/-- What a plugin has to give, and what the declared maxima allow. -/
structure Sendable (d : ClapPluginDescriptor) : Prop where
  id : d.id ≠ none
  name : d.name ≠ none
  strings : ∀ p ∈ d.strings, ∀ s, p = some s → s.1.length ≤ 4096
  features : ∃ features, d.featureList = some features ∧ features.length ≤ 4096 ∧
    ∀ feature ∈ features, feature.1.length ≤ 4096

/-- The host is told of no version later than that of the bridge, and always gets an array. -/
def restored (CLAP_VERSION : ClapVersion) (d : ClapPluginDescriptor) : ClapPluginDescriptor :=
  { d with
    clap_version := clamp_clap_version CLAP_VERSION d.clap_version
    features := d.featureList.map fun features => features.map some ++ [none] }

end ClapPluginDescriptor

section Bridge
variable (B : Bitsery) (CLAP_VERSION : ClapVersion)

theorem readFeatures_append (features : List (Chars UInt8)) :
    readFeatures (features.map some ++ [none]) = some features := by
  induction features with
  | nil => rfl
  | cons feature features ih => simp [readFeatures, ih]

theorem ClapVersion.serialize_put (old v : ClapVersion) : (serialize B).put old v = v := rfl

theorem ClapVersion.serialize_fits (v : ClapVersion) : (serialize B).fits v = true := by
  simp [serialize]

namespace ClapPluginDescriptor

theorem Sendable.featureList_restored {d : ClapPluginDescriptor} (h : d.Sendable) :
    (d.restored CLAP_VERSION).featureList = d.featureList := by
  obtain ⟨features, hfeatures, _⟩ := h.features
  unfold restored
  rw [hfeatures]
  exact readFeatures_append features

theorem Sendable.restored {d : ClapPluginDescriptor} (h : d.Sendable) :
    (d.restored CLAP_VERSION).Sendable := by
  have hfeatures := h.features
  rw [← h.featureList_restored CLAP_VERSION] at hfeatures
  exact ⟨h.id, h.name, h.strings, hfeatures⟩

theorem Sendable.restored_restored {d : ClapPluginDescriptor} (h : d.Sendable) :
    (d.restored CLAP_VERSION).restored CLAP_VERSION = d.restored CLAP_VERSION := by
  have hfeatures := h.featureList_restored CLAP_VERSION
  unfold ClapPluginDescriptor.restored at hfeatures ⊢
  rw [hfeatures]
  simp only [clamp_clamp]

end ClapPluginDescriptor

namespace Descriptor

theorem ofNative_eq_some {original : ClapPluginDescriptor} {d : Descriptor} :
    ofNative original = some d ↔ ∃ id name features, original.id = some id ∧
      original.name = some name ∧ original.featureList = some features ∧
      d = ⟨original.clap_version, id.1, name.1, original.vendor.map (·.1), original.url.map (·.1),
        original.manual_url.map (·.1), original.support_url.map (·.1), original.version.map (·.1),
        original.description.map (·.1), features.map (·.1)⟩ := by
  constructor
  · intro h
    obtain ⟨id, hid, h⟩ := Option.bind_eq_some_iff.mp h
    obtain ⟨name, hname, h⟩ := Option.bind_eq_some_iff.mp h
    obtain ⟨features, hfeatures, h⟩ := Option.bind_eq_some_iff.mp h
    exact ⟨id, name, features, hid, hname, hfeatures, (Option.some.inj h).symm⟩
  · intro h
    obtain ⟨id, name, features, hid, hname, hfeatures, rfl⟩ := h
    rw [ofNative, hid, hname, hfeatures]
    rfl

theorem optionalText_overwrites : (optionalText B).Overwrites :=
  B.inPlaceOptional_put_of_overwrites [] false (B.text1b_put 4096)

theorem serialize_overwrites : (serialize B).Overwrites := by
  intro old d
  have hfeatures : (B.container 4096 [] (B.text1b 4096)).put old.features d.features = d.features :=
    Codec.putList_eq [] (B.text1b 4096) (B.text1b_put 4096) _ _
  simp only [serialize, Codec.record_cons_put, Codec.record_nil_put, Codec.field_put,
    optionalText_overwrites B _ _, B.text1b_put, ClapVersion.serialize_put, hfeatures]

theorem optionalText_fits (s : Option (Chars UInt8)) :
    (optionalText B).fits (s.map (·.1)) = true ↔ ∀ x, s = some x → x.1.length ≤ 4096 := by
  have hmax : 4096 < 2 ^ 30 := by omega
  cases s with
  | none => simp [optionalText]
  | some x => simp [optionalText, B.text1b_fits hmax]

theorem serialize_fits (d : Descriptor) : (serialize B).fits d = true ↔
    d.id.length ≤ 4096 ∧ d.name.length ≤ 4096 ∧ (optionalText B).fits d.vendor ∧
      (optionalText B).fits d.url ∧ (optionalText B).fits d.manual_url ∧
      (optionalText B).fits d.support_url ∧ (optionalText B).fits d.version ∧
      (optionalText B).fits d.description ∧ d.features.length ≤ 4096 ∧
      ∀ feature ∈ d.features, feature.length ≤ 4096 := by
  have hmax : 4096 < 2 ^ 30 := by omega
  simp [serialize, ClapVersion.serialize_fits, B.text1b_fits hmax, B.container_fits _ _ hmax]

def mirror : Mirror ClapPluginDescriptor Descriptor where
  ofNative := ofNative
  serialize := serialize B
  reconstruct := get CLAP_VERSION

theorem strings_iff {original : ClapPluginDescriptor} {id name : Chars UInt8}
    (hid : original.id = some id) (hname : original.name = some name) :
    (∀ p ∈ original.strings, ∀ s, p = some s → s.1.length ≤ 4096) ↔
      id.1.length ≤ 4096 ∧ name.1.length ≤ 4096 ∧
        (optionalText B).fits (original.vendor.map (·.1)) ∧
        (optionalText B).fits (original.url.map (·.1)) ∧
        (optionalText B).fits (original.manual_url.map (·.1)) ∧
        (optionalText B).fits (original.support_url.map (·.1)) ∧
        (optionalText B).fits (original.version.map (·.1)) ∧
        (optionalText B).fits (original.description.map (·.1)) := by
  have hsome (s : Chars UInt8) :
      (∀ x, some s = some x → x.1.length ≤ 4096) ↔ s.1.length ≤ 4096 := by
    constructor
    · intro h
      exact h s rfl
    · intro h x hx
      exact Option.some.inj hx ▸ h
  simp only [ClapPluginDescriptor.strings, List.forall_mem_cons, List.not_mem_nil, false_implies,
    implies_true, and_true, hid, hname, hsome, optionalText_fits]

theorem sendable_iff (original : ClapPluginDescriptor) :
    original.Sendable ↔ ∃ d, ofNative original = some d ∧ (serialize B).fits d := by
  constructor
  · intro h
    obtain ⟨id, hid⟩ := Option.ne_none_iff_exists'.mp h.id
    obtain ⟨name, hname⟩ := Option.ne_none_iff_exists'.mp h.name
    obtain ⟨features, hfeatures, hlen, hall⟩ := h.features
    obtain ⟨h1, h2, h3, h4, h5, h6, h7, h8⟩ := (strings_iff B hid hname).mp h.strings
    refine ⟨_, ofNative_eq_some.mpr ⟨id, name, features, hid, hname, hfeatures, rfl⟩, ?_⟩
    rw [serialize_fits, List.length_map]
    refine ⟨h1, h2, h3, h4, h5, h6, h7, h8, hlen, ?_⟩
    intro feature hfeature
    obtain ⟨x, hx, rfl⟩ := List.mem_map.mp hfeature
    exact hall x hx
  · intro h
    obtain ⟨d, hd, hfits⟩ := h
    obtain ⟨id, name, features, hid, hname, hfeatures, rfl⟩ := ofNative_eq_some.mp hd
    obtain ⟨h1, h2, h3, h4, h5, h6, h7, h8, hlen, hall⟩ := (serialize_fits B _).mp hfits
    rw [List.length_map] at hlen
    constructor
    case id => exact Option.ne_none_iff_exists'.mpr ⟨id, hid⟩
    case name => exact Option.ne_none_iff_exists'.mpr ⟨name, hname⟩
    case strings => exact (strings_iff B hid hname).mpr ⟨h1, h2, h3, h4, h5, h6, h7, h8⟩
    case features =>
      refine ⟨features, hfeatures, hlen, ?_⟩
      intro feature hfeature
      exact hall _ (List.mem_map_of_mem hfeature)

theorem restores : (mirror B CLAP_VERSION).Restores ClapPluginDescriptor.Sendable
    (ClapPluginDescriptor.restored CLAP_VERSION) := by
  constructor
  case overwrites => exact serialize_overwrites B
  case sendable_iff => exact sendable_iff B
  case reconstruct =>
    intro original d hd
    obtain ⟨id, name, features, hid, hname, hfeatures, rfl⟩ := ofNative_eq_some.mp hd
    have hopt (s : Option (Chars UInt8)) : (s.map (·.1)).map c_str = s := by
      cases s with
      | none => rfl
      | some s => exact congrArg some (c_str_val s)
    simp only [mirror, get, ClapPluginDescriptor.restored, c_str_val, hid, hname, hfeatures, hopt,
      List.map_map, Option.map_some, Function.comp_def]

end Descriptor
/-- `ListResponse` -/
def listResponse (fresh : Descriptor) :
    Mirror (Option (List ClapPluginDescriptor)) (Option (List Descriptor)) :=
  ((Descriptor.mirror B CLAP_VERSION).list B 8192 fresh).optional B []

/-- The host finds the plugins of the factory under the same indices, each as its plugin describes
it but for the version, which is the lower one of the plugin's and the bridge's. A second bridge
changes nothing. -/
theorem descriptors_bridged (fresh : Descriptor) (old : Option (List Descriptor))
    (factory : Option (List ClapPluginDescriptor)) :
    (∀ result, (listResponse B CLAP_VERSION fresh).bridge old factory = some result ↔
      (∀ plugins ∈ factory, plugins.length ≤ 8192 ∧ ∀ plugin ∈ plugins, plugin.Sendable) ∧
        result = factory.map (List.map (ClapPluginDescriptor.restored CLAP_VERSION))) ∧
      ∀ plugin : ClapPluginDescriptor,
        (plugin.restored CLAP_VERSION).clap_version.rank =
            min plugin.clap_version.rank CLAP_VERSION.rank ∧
          (plugin.Sendable → (plugin.restored CLAP_VERSION).Sendable ∧
            (plugin.restored CLAP_VERSION).restored CLAP_VERSION =
              plugin.restored CLAP_VERSION) := by
  have hmax : 8192 < 2 ^ 30 := by omega
  have h := ((Descriptor.restores B CLAP_VERSION).list B fresh hmax).optional B []
  refine ⟨fun _ => h.bridge_iff, ?_⟩
  intro plugin
  refine ⟨rank_clamp CLAP_VERSION plugin.clap_version, ?_⟩
  intro hplugin
  exact ⟨hplugin.restored CLAP_VERSION, hplugin.restored_restored CLAP_VERSION⟩

end Bridge
end Clap
