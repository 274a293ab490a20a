import Mathlib
import Wasivst.Bitsery
import Wasivst.Configuration

/-!
# The configuration on the Wine side

The Wine plugin host is sent the configuration that the native side has read, with
`Configuration::serialize`. Texts, paths and the lists of keys are bounded there and nowhere else.
-/

set_option autoImplicit false

open InPlace

namespace Bitsery
variable (B : Bitsery)

/-- `value4b` on a `float`. -/
def float4b : Codec Float32 :=
  Prim.codec
    { write := fun x => B.prim4b.write x.toBits
      read := fun bs => (B.prim4b.read bs).map fun r => (Float32.ofBits r.1, r.2)
      fits := fun _ => true
      read_write := by
        intro x rest _
        rw [B.prim4b.read_write x.toBits rest (B.fits4b _), Option.map_some,
          Float32.ofBits_toBits] }

@[simp] theorem float4b_fits (x : Float32) : B.float4b.fits x = true := rfl

/-- `GhcPath` -/
def ghcPath : Codec Sockets.Path := B.text1b 4096

end Bitsery

namespace Configuration
open Sockets

section Serialize
variable (B : Bitsery)

def optionalText : Codec (Option Text) := B.inPlaceOptional [] false (B.text1b 4096)

def optionalPath : Codec (Option Path) := B.inPlaceOptional [] false B.ghcPath

def keys : Codec (List Text) := B.container 1024 [] (B.text1b 4096)

def serialize : Codec Configuration :=
  .record
    [.field (·.group) (fun c v => { c with group := v }) (optionalText B),
     .field (·.disable_pipes) (fun c v => { c with disable_pipes := v }) (optionalPath B),
     .field (·.editor_coordinate_hack) (fun c v => { c with editor_coordinate_hack := v }) B.bool1b,
     .field (·.editor_force_dnd) (fun c v => { c with editor_force_dnd := v }) B.bool1b,
     .field (·.editor_xembed) (fun c v => { c with editor_xembed := v }) B.bool1b,
     .field (·.frame_rate) (fun c v => { c with frame_rate := v })
       (B.inPlaceOptional 0 true B.float4b),
     .field (·.hide_daw) (fun c v => { c with hide_daw := v }) B.bool1b,
     .field (·.editor_disable_host_scaling)
       (fun c v => { c with editor_disable_host_scaling := v }) B.bool1b,
     .field (·.vst3_prefer_32bit) (fun c v => { c with vst3_prefer_32bit := v }) B.bool1b,
     .field (·.matched_file) (fun c v => { c with matched_file := v }) (optionalPath B),
     .field (·.matched_pattern) (fun c v => { c with matched_pattern := v }) (optionalText B),
     .field (·.invalid_options) (fun c v => { c with invalid_options := v }) (keys B),
     .field (·.unknown_options) (fun c v => { c with unknown_options := v }) (keys B)]

/-- What the Wine side gets, in an object that held `old`. -/
def told (system : System) (config_path yabridge_path : Path) (document : Document)
    (old : Configuration) : Option Configuration := do
  let c ← load system config_path yabridge_path document
  (serialize B).transfer old c

theorem optionalText_overwrites : (optionalText B).Overwrites :=
  B.inPlaceOptional_put_of_overwrites [] false (B.text1b_put 4096)

theorem optionalPath_overwrites : (optionalPath B).Overwrites :=
  B.inPlaceOptional_put_of_overwrites [] false (B.text1b_put 4096)

theorem keys_overwrites : (keys B).Overwrites := Codec.putList_eq [] _ (B.text1b_put 4096)

theorem frameRate_overwrites : (B.inPlaceOptional (0 : Float32) true B.float4b).Overwrites :=
  B.inPlaceOptional_put_of_overwrites 0 true fun _ _ => rfl

/-- Nothing of the old object is left. -/
theorem serialize_overwrites : (serialize B).Overwrites := by
  intro old c
  simp only [serialize, Codec.record_cons_put, Codec.record_nil_put, Codec.field_put,
    optionalText_overwrites B _ _, optionalPath_overwrites B _ _, keys_overwrites B _ _,
    frameRate_overwrites B _ _, B.bool1b_put]

end Serialize

/-! ## What can be sent -/

/-- The bounds of `serialize`. -/
structure Bounded (c : Configuration) : Prop where
  texts : ∀ text, text ∈ c.group ∨ text ∈ c.disable_pipes ∨ text ∈ c.matched_file ∨
    text ∈ c.matched_pattern → text.length ≤ 4096
  invalid : c.invalid_options.length ≤ 1024
  unknown : c.unknown_options.length ≤ 1024
  key : ∀ key ∈ c.invalid_options ++ c.unknown_options, key.length ≤ 4096

theorem serialize_fits (B : Bitsery) (c : Configuration) :
    (serialize B).fits c = true ↔ c.Bounded := by
  have hmax : 4096 < 2 ^ 30 := by decide
  have hcount : 1024 < 2 ^ 30 := by decide
  have htext : ∀ text : Option (List UInt8),
      (B.inPlaceOptional [] false (B.text1b 4096)).fits text ↔ ∀ s ∈ text, s.length ≤ 4096 := by
    intro text
    cases text <;> simp [B.text1b_fits hmax]
  have hkeys : ∀ ks : List Text, (keys B).fits ks ↔
      ks.length ≤ 1024 ∧ ∀ key ∈ ks, key.length ≤ 4096 := by
    intro ks
    simp [keys, B.container_fits _ _ hcount, B.text1b_fits hmax]
  have hrate : (B.inPlaceOptional (0 : Float32) true B.float4b).fits c.frame_rate = true := by
    cases h : c.frame_rate <;> rfl
  simp only [serialize, optionalText, optionalPath, Bitsery.ghcPath, Codec.record_cons_fits,
    Codec.record_nil_fits, Codec.field_fits, B.bool1b_fits, hrate, Bool.and_eq_true, htext, hkeys,
    and_true, true_and]
  constructor
  · rintro ⟨hgroup, hpipes, hfile, hpattern, ⟨hinvalid, hinvalidKey⟩, hunknown, hunknownKey⟩
    refine ⟨?_, hinvalid, hunknown, ?_⟩
    · rintro text (h | h | h | h)
      · exact hgroup text h
      · exact hpipes text h
      · exact hfile text h
      · exact hpattern text h
    · intro key hkey
      rcases List.mem_append.mp hkey with hkey | hkey
      · exact hinvalidKey key hkey
      · exact hunknownKey key hkey
  · intro h
    refine ⟨fun s hs => h.texts s (Or.inl hs), fun s hs => h.texts s (Or.inr (Or.inl hs)),
      fun s hs => h.texts s (Or.inr (Or.inr (Or.inl hs))),
      fun s hs => h.texts s (Or.inr (Or.inr (Or.inr hs))), ⟨h.invalid, ?_⟩, h.unknown, ?_⟩
    · exact fun key hkey => h.key key (List.mem_append_left _ hkey)
    · exact fun key hkey => h.key key (List.mem_append_right _ hkey)

/-- Sending changes nothing. -/
theorem transfer_eq_some_iff (B : Bitsery) {old c result : Configuration} :
    (serialize B).transfer old c = some result ↔ c.Bounded ∧ c = result := by
  rw [Codec.transfer_eq, serialize_overwrites]
  by_cases h : (serialize B).fits c
  · rw [if_pos h, Option.some.injEq]
    exact (and_iff_right ((serialize_fits B c).mp h)).symm
  · rw [if_neg h]
    constructor
    · intro hnone
      cases hnone
    · intro hc
      exact absurd ((serialize_fits B c).mpr hc.1) h

/-! ## The keys of a table -/

section Table
variable (temporary_directory : Option Path)

def unknownKeys (entries : List (Text × Value)) : List Text :=
  (entries.filter fun e => (Setting.ofKey e.1).isNone).map Prod.fst

/-- A value of an option is a text. -/
def IsText (entries : List (Text × Value)) (setting : Setting) (text : Text) : Prop :=
  ∃ e ∈ entries, Setting.ofKey e.1 = some setting ∧
    wanted temporary_directory setting e.2 = some (.text (some text))

/-- The known keys are few and short, whatever their values are. -/
structure Sendable (config_path : Path) (table : Table) : Prop where
  file : config_path.length ≤ 4096
  pattern : table.pattern.length ≤ 4096
  unknown : (unknownKeys table.options).length ≤ 1024
  key : ∀ key ∈ unknownKeys table.options, key.length ≤ 4096
  text : ∀ setting text, IsText temporary_directory table.options setting text →
    text.length ≤ 4096

variable {temporary_directory}

/-- What the passes for some entries add to a configuration. -/
structure Added (temporary_directory : Option Path) (entries : List (Text × Value))
    (c c' : Configuration) : Prop where
  unknown : c'.unknown_options = c.unknown_options ++ unknownKeys entries
  invalid : ∃ ks, c'.invalid_options = c.invalid_options ++ ks ∧
    ks.Sublist (entries.map Prod.fst) ∧ ∀ key ∈ ks, (Setting.ofKey key).isSome
  text : ∀ setting text, c'.read setting = .text (some text) →
    c.read setting = .text (some text) ∨ IsText temporary_directory entries setting text

theorem unknownKeys_append (xs ys : List (Text × Value)) :
    unknownKeys (xs ++ ys) = unknownKeys xs ++ unknownKeys ys := by
  unfold unknownKeys
  rw [List.filter_append, List.map_append]

theorem IsText.mono {xs ys : List (Text × Value)} (hsub : xs ⊆ ys) {setting : Setting}
    {text : Text} (h : IsText temporary_directory xs setting text) :
    IsText temporary_directory ys setting text := by
  obtain ⟨e, he, hkey, hwanted⟩ := h
  exact ⟨e, hsub he, hkey, hwanted⟩

theorem Added.refl (c : Configuration) : Added temporary_directory [] c c where
  unknown := (List.append_nil _).symm
  invalid := ⟨[], (List.append_nil _).symm, List.Sublist.refl [], fun _ h => nomatch h⟩
  text _ _ h := Or.inl h

theorem Added.trans {xs ys : List (Text × Value)} {c d c' : Configuration}
    (hx : Added temporary_directory xs c d) (hy : Added temporary_directory ys d c') :
    Added temporary_directory (xs ++ ys) c c' := by
  obtain ⟨ks, hks, hsub, hknown⟩ := hx.invalid
  obtain ⟨ls, hls, hsub', hknown'⟩ := hy.invalid
  constructor
  case unknown => rw [hy.unknown, hx.unknown, unknownKeys_append, List.append_assoc]
  case invalid =>
    refine ⟨ks ++ ls, by rw [hls, hks, List.append_assoc], ?_, ?_⟩
    · rw [List.map_append]
      exact hsub.append hsub'
    · intro key hkey
      rcases List.mem_append.mp hkey with hkey | hkey
      · exact hknown key hkey
      · exact hknown' key hkey
  case text =>
    intro setting text h
    rcases hy.text setting text h with h | h
    · rcases hx.text setting text h with h | h
      · exact Or.inl h
      · exact Or.inr (h.mono (List.subset_append_left _ _))
    · exact Or.inr (h.mono (List.subset_append_right _ _))

/-- One pass. -/
theorem option_added {c c' : Configuration} {entry : Text × Value}
    (h : option temporary_directory c entry = some c') :
    Added temporary_directory [entry] c c' := by
  have hkept : ∀ (c' : Configuration), (∀ setting, c'.read setting = c.read setting) →
      ∀ setting text, c'.read setting = .text (some text) →
        c.read setting = .text (some text) ∨
          IsText temporary_directory [entry] setting text := by
    intro c' heq setting text htext
    exact Or.inl ((heq setting).symm.trans htext)
  have hnone : ∃ ks, c.invalid_options = c.invalid_options ++ ks ∧
      ks.Sublist ([entry].map Prod.fst) ∧ ∀ key ∈ ks, (Setting.ofKey key).isSome :=
    ⟨[], (List.append_nil _).symm, List.nil_sublist _, fun _ h => nomatch h⟩
  rcases option_cases h with ⟨hkey, rfl⟩ | ⟨setting, hkey, ⟨-, rfl⟩ | hwrote⟩
  · refine ⟨?_, hnone, hkept _ fun setting => by cases setting <;> rfl⟩
    simp [unknownKeys, hkey]
  · refine ⟨?_, ⟨[entry.1], rfl, List.Sublist.refl _, ?_⟩,
      hkept _ fun setting => by cases setting <;> rfl⟩
    · simp [unknownKeys, hkey]
    · intro key hmem
      rw [List.mem_singleton.mp hmem, hkey]
      rfl
  · refine ⟨?_, by rw [hwrote.invalid]; exact hnone, ?_⟩
    · rw [hwrote.unknown]
      simp [unknownKeys, hkey]
    · intro other text htext
      by_cases hother : other = setting
      · subst hother
        exact Or.inr ⟨entry, List.mem_singleton_self _, hkey, htext ▸ hwrote.wanted⟩
      · exact Or.inl ((hwrote.others other hother).symm.trans htext)

theorem foldlM_added {entries : List (Text × Value)} {c c' : Configuration}
    (h : entries.foldlM (option temporary_directory) c = some c') :
    Added temporary_directory entries c c' := by
  induction entries generalizing c with
  | nil =>
    obtain rfl := Option.some.inj h
    exact Added.refl c
  | cons entry entries ih =>
    rw [List.foldlM_cons, Option.bind_eq_bind, Option.bind_eq_some_iff] at h
    obtain ⟨d, hoption, hrest⟩ := h
    exact (option_added hoption).trans (ih hrest)

end Table

/-! ## The bounds in terms of the file -/

def settings : List Setting :=
  [.group, .disable_pipes, .editor_coordinate_hack, .editor_disable_host_scaling,
    .editor_force_dnd, .editor_xembed, .frame_rate, .hide_daw, .vst3_prefer_32bit]

theorem mem_settings (setting : Setting) : setting ∈ settings := by
  cases setting <;> decide

theorem key_length_le (setting : Setting) : setting.key.length ≤ 4096 := by
  have hall : ∀ setting ∈ settings, setting.key.length ≤ 4096 := by decide
  exact hall setting (mem_settings setting)

/-- There are no more known keys than settings. -/
theorem length_le_of_known {ks : List Text} (hnodup : ks.Nodup)
    (hknown : ∀ key ∈ ks, (Setting.ofKey key).isSome) : ks.length ≤ 1024 := by
  have hsub : ks ⊆ settings.map Setting.key := by
    intro key hkey
    obtain ⟨setting, hsetting⟩ := Option.isSome_iff_exists.mp (hknown key hkey)
    rw [ofKey_eq_some hsetting]
    exact List.mem_map_of_mem (mem_settings setting)
  have hle := (List.subperm_of_subset hnodup hsub).length_le
  have hcount : (settings.map Setting.key).length = 9 := rfl
  omega

theorem read_eq_text {c : Configuration} {setting : Setting} {text : Text}
    (h : c.read setting = .text (some text)) : text ∈ c.group ∨ text ∈ c.disable_pipes := by
  cases setting with
  | group => exact Or.inl (Reading.text.inj h)
  | disable_pipes => exact Or.inr (Reading.text.inj h)
  | _ => cases h

section
variable {temporary_directory : Option Path} {config_path : Path} {table : Table}
variable {c : Configuration}

theorem Sendable.bounded (h : configured temporary_directory config_path table = some c)
    (hsend : Sendable temporary_directory config_path table) : c.Bounded := by
  have hadded := foldlM_added h
  obtain ⟨-, hfile, hpattern⟩ := settled_of_foldlM Settled.nil table.keys_unique h
  obtain ⟨ks, hks, hsub, hknown⟩ := hadded.invalid
  have hinvalid : c.invalid_options = ks := hks
  have hunknown : c.unknown_options = unknownKeys table.options := hadded.unknown
  have htext : ∀ setting text, c.read setting = .text (some text) → text.length ≤ 4096 := by
    intro setting text hread
    rcases hadded.text setting text hread with hstart | htext
    · -- The options of a new configuration are not texts.
      cases setting <;> cases hstart
    · exact hsend.text setting text htext
  constructor
  case texts =>
    rintro text (hmem | hmem | hmem | hmem)
    · exact htext .group text (congrArg Reading.text hmem)
    · exact htext .disable_pipes text (congrArg Reading.text hmem)
    · rw [hfile] at hmem
      exact Option.some.inj hmem ▸ hsend.file
    · rw [hpattern] at hmem
      exact Option.some.inj hmem ▸ hsend.pattern
  case invalid => exact hinvalid ▸ length_le_of_known (hsub.nodup table.keys_unique) hknown
  case unknown => exact hunknown ▸ hsend.unknown
  case key =>
    intro key hkey
    rw [hinvalid, hunknown] at hkey
    rcases List.mem_append.mp hkey with hkey | hkey
    · obtain ⟨setting, hsetting⟩ := Option.isSome_iff_exists.mp (hknown key hkey)
      rw [ofKey_eq_some hsetting]
      exact key_length_le setting
    · exact hsend.key key hkey

theorem Bounded.sendable (h : configured temporary_directory config_path table = some c)
    (hbounded : c.Bounded) : Sendable temporary_directory config_path table := by
  have hunknown : c.unknown_options = unknownKeys table.options := (foldlM_added h).unknown
  obtain ⟨hsettled, hfile, hpattern⟩ := settled_of_foldlM Settled.nil table.keys_unique h
  constructor
  case file => exact hbounded.texts _ (Or.inr (Or.inr (Or.inl hfile)))
  case pattern => exact hbounded.texts _ (Or.inr (Or.inr (Or.inr hpattern)))
  case unknown => exact hunknown ▸ hbounded.unknown
  case key =>
    intro key hkey
    exact hbounded.key key (List.mem_append_right _ (hunknown ▸ hkey))
  case text =>
    rintro setting text ⟨e, he, hkey, hwanted⟩
    have haccounted := hsettled.accounted e he
    simp only [Accounted, hkey, hwanted] at haccounted
    rcases read_eq_text haccounted.2.2 with hmem | hmem
    · exact hbounded.texts text (Or.inl hmem)
    · exact hbounded.texts text (Or.inr (Or.inl hmem))

theorem bounded_default : Bounded {} := by
  constructor
  case texts => rintro text (h | h | h | h) <;> cases h
  case invalid => exact Nat.zero_le _
  case unknown => exact Nat.zero_le _
  case key => exact fun _ h => nomatch h

end

section
variable {B : Bitsery} {system : System} {config_path yabridge_path : Path}
variable {document : Document} {table : Table} {old result : Configuration}

theorem load_of_firstMatching
    (h : FirstMatching system config_path yabridge_path document table) :
    load system config_path yabridge_path document =
      configured system.temporary_directory config_path table := by
  rw [load, search_eq_find,
    (find_iff_firstMatching system config_path yabridge_path document table).mpr h]

theorem load_of_unmatched
    (h : ∀ table, ¬ FirstMatching system config_path yabridge_path document table) :
    load system config_path yabridge_path document = some {} := by
  rw [load, search_eq_find]
  cases hfind : (FirstMatch.sortedBy Table.line document.tables).find?
      (matchesPath system config_path yabridge_path) with
  | none => rfl
  | some table =>
    have hiff := find_iff_firstMatching system config_path yabridge_path document table
    exact absurd (hiff.mp hfind) (h table)

theorem firstMatching_unique {other : Table}
    (h : FirstMatching system config_path yabridge_path document table)
    (hother : FirstMatching system config_path yabridge_path document other) : table = other := by
  have hiff := find_iff_firstMatching system config_path yabridge_path document
  exact Option.some.inj (((hiff table).mpr h).symm.trans ((hiff other).mpr hother))

theorem told_iff_load : told B system config_path yabridge_path document old = some result ↔
    load system config_path yabridge_path document = some result ∧ result.Bounded := by
  unfold told
  rw [Option.bind_eq_bind, Option.bind_eq_some_iff]
  constructor
  · rintro ⟨c, hload, htransfer⟩
    obtain ⟨hbounded, rfl⟩ := (transfer_eq_some_iff B).mp htransfer
    exact ⟨hload, hbounded⟩
  · rintro ⟨hload, hbounded⟩
    exact ⟨result, hload, (transfer_eq_some_iff B).mpr ⟨hbounded, rfl⟩⟩

theorem told_iff : told B system config_path yabridge_path document old = some result ↔
    ((∀ table, ¬ FirstMatching system config_path yabridge_path document table) ∧ result = {}) ∨
      ∃ table, FirstMatching system config_path yabridge_path document table ∧
        Sendable system.temporary_directory config_path table ∧
        configured system.temporary_directory config_path table = some result := by
  rw [told_iff_load]
  by_cases hmatched : ∃ table, FirstMatching system config_path yabridge_path document table
  · obtain ⟨table, hfirst⟩ := hmatched
    rw [load_of_firstMatching hfirst]
    constructor
    · rintro ⟨hresult, hbounded⟩
      exact Or.inr ⟨table, hfirst, hbounded.sendable hresult, hresult⟩
    · rintro (⟨hnone, -⟩ | ⟨other, hother, hsend, hresult⟩)
      · exact absurd hfirst (hnone table)
      · obtain rfl := firstMatching_unique hfirst hother
        exact ⟨hresult, hsend.bounded hresult⟩
  · have hnone := not_exists.mp hmatched
    rw [load_of_unmatched hnone]
    constructor
    · rintro ⟨hresult, -⟩
      exact Or.inl ⟨hnone, (Option.some.inj hresult).symm⟩
    · rintro (⟨-, rfl⟩ | ⟨table, hfirst, -⟩)
      · exact ⟨rfl, bounded_default⟩
      · exact absurd hfirst (hnone table)

/-- Whatever the object on the Wine side held, it gets what the first matching table says, or the
defaults when no table matches. Only the path of the file, the name of that table, its texts and
its unknown keys can be too long or too many to be sent. -/
theorem configuration_told (B : Bitsery) (system : System) (config_path yabridge_path : Path)
    (document : Document) (old : Configuration) :
    (∀ result, told B system config_path yabridge_path document old = some result ↔
      ((∀ table, ¬ FirstMatching system config_path yabridge_path document table) ∧
          result = {}) ∨
        ∃ table, FirstMatching system config_path yabridge_path document table ∧
          Sendable system.temporary_directory config_path table ∧
          configured system.temporary_directory config_path table = some result) ∧
      ∀ table, FirstMatching system config_path yabridge_path document table →
        ∀ result ∈ told B system config_path yabridge_path document old,
          Settled system.temporary_directory table.options result ∧
            result.matched_file = some config_path ∧
            result.matched_pattern = some table.pattern := by
  refine ⟨fun _ => told_iff, ?_⟩
  intro table hfirst result hresult
  have hload := (told_iff_load.mp hresult).1
  rw [load_of_firstMatching hfirst] at hload
  exact settled_of_foldlM Settled.nil table.keys_unique hload

end

theorem bounded_delays : Bounded delaysConfiguration := by
  constructor
  case texts => rintro text (h | h | h | h) <;> cases h <;> decide
  case invalid => decide
  case unknown => decide
  case key => decide

/-- The object on the Wine side had other options, and keys of an older file. -/
theorem delays_told : told .default plainSystem (bytes "/vst/yabridge.toml")
    (bytes "/vst/delays/tape.so") delaysFile
    { hide_daw := true, frame_rate := some 0, unknown_options := [bytes "old"] } =
      some delaysConfiguration := by
  have htold := configuration_told .default plainSystem (bytes "/vst/yabridge.toml")
    (bytes "/vst/delays/tape.so") delaysFile
    { hide_daw := true, frame_rate := some 0, unknown_options := [bytes "old"] }
  have hsend := bounded_delays.sendable delays_configured
  exact (htold.1 _).mpr (.inr ⟨delays, delays_firstMatching, hsend, delays_configured⟩)

end Configuration
