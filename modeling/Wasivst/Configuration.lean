import Mathlib.Data.UInt
import Wasivst.Lib.FirstMatch
import Wasivst.Sockets

/-!
# `yabridge.toml`

The tables of a configuration file are sorted by the lines that they start in, and the first whose
name matches the path of the plugin gives its options. The others are not looked at, nor is what is
not a table.
-/

set_option autoImplicit false

/-- A path is the text that it is made from. -/
structure Configuration where
  group : Option (List UInt8) := none
  disable_pipes : Option Sockets.Path := none
  editor_coordinate_hack : Bool := false
  editor_force_dnd : Bool := false
  editor_xembed : Bool := false
  frame_rate : Option Float32 := none
  hide_daw : Bool := false
  editor_disable_host_scaling : Bool := false
  vst3_prefer_32bit : Bool := false
  matched_file : Option Sockets.Path := none
  matched_pattern : Option (List UInt8) := none
  invalid_options : List (List UInt8) := []
  unknown_options : List (List UInt8) := []

namespace Configuration
open FirstMatch Sockets

abbrev Text := List UInt8

/-! ## Documents -/

/-- A value of a table; `other` are dates and times, arrays and tables. -/
inductive Value
  | string (s : Text)
  | integer (n : Int64)
  | floating_point (x : Float)
  | boolean (b : Bool)
  | other

namespace Value

def as_string : Value → Option Text
  | string s => some s
  | _ => none

def as_boolean : Value → Option Bool
  | boolean b => some b
  | _ => none

def as_floating_point : Value → Option Float
  | floating_point x => some x
  | _ => none

def as_integer : Value → Option Int64
  | integer n => some n
  | _ => none

end Value

/-- A table at the top level of a document, its keys in the order of the map that they are in. -/
structure Table where
  pattern : Text
  line : Nat
  options : List (Text × Value)
  keys_unique : (options.map Prod.fst).Nodup

inductive Node
  | table (config : Table)
  | other (key : Text)

def Node.as_table : Node → Option Table
  | table config => some config
  | other _ => none

/-- What the parser makes of a file: no two tables start in one line. -/
structure Document where
  nodes : List Node
  lines_unique : ((nodes.filterMap Node.as_table).map Table.line).Nodup

def Document.tables (document : Document) : List Table := document.nodes.filterMap Node.as_table

/-! ## Options -/

/-- The keys that are known. -/
inductive Setting
  | group
  | disable_pipes
  | editor_coordinate_hack
  | editor_disable_host_scaling
  | editor_force_dnd
  | editor_xembed
  | frame_rate
  | hide_daw
  | vst3_prefer_32bit
  deriving DecidableEq

namespace Setting

def key : Setting → Text
  | group => bytes "group"
  | disable_pipes => bytes "disable_pipes"
  | editor_coordinate_hack => bytes "editor_coordinate_hack"
  | editor_disable_host_scaling => bytes "editor_disable_host_scaling"
  | editor_force_dnd => bytes "editor_force_dnd"
  | editor_xembed => bytes "editor_xembed"
  | frame_rate => bytes "frame_rate"
  | hide_daw => bytes "hide_daw"
  | vst3_prefer_32bit => bytes "vst3_prefer_32bit"

/-- The comparisons, in the order in which they are made. -/
def ofKey (key : Text) : Option Setting :=
  [group, disable_pipes, editor_coordinate_hack, editor_disable_host_scaling, editor_force_dnd,
    editor_xembed, frame_rate, hide_daw, vst3_prefer_32bit].find? fun s => key == s.key

end Setting

/-- What becomes of a value of a known key. -/
inductive Outcome
  | applied (c : Configuration)
  | wrong_type
  | throws

/-- The cases of the options that are switched on and off. -/
def boolean (value : Value) (write : Bool → Configuration) : Outcome :=
  match value.as_boolean with
  | some parsed_value => .applied (write parsed_value)
  | none => .wrong_type

section
variable (temporary_directory : Option Path)

/-- `temporary_directory` is what `get_temporary_directory()` returns, if it does. -/
def set_disable_pipes (value : Value) (c : Configuration) : Outcome :=
  match value.as_boolean with
  | some true =>
    match temporary_directory with
    | some directory =>
      .applied { c with
        disable_pipes := some (append directory (bytes "yabridge-plugin-output.log")) }
    | none => .throws
  | some false => .applied { c with disable_pipes := none }
  | none =>
    match value.as_string with
    | some parsed_value => .applied { c with disable_pipes := some parsed_value }
    | none => .wrong_type

def set (setting : Setting) (value : Value) (c : Configuration) : Outcome :=
  match setting with
  | .group =>
    match value.as_string with
    | some parsed_value => .applied { c with group := some parsed_value }
    | none => .wrong_type
  | .disable_pipes => set_disable_pipes temporary_directory value c
  | .editor_coordinate_hack => boolean value fun b => { c with editor_coordinate_hack := b }
  | .editor_disable_host_scaling =>
    boolean value fun b => { c with editor_disable_host_scaling := b }
  | .editor_force_dnd => boolean value fun b => { c with editor_force_dnd := b }
  | .editor_xembed => boolean value fun b => { c with editor_xembed := b }
  | .frame_rate =>
    match value.as_floating_point with
    | some parsed_value => .applied { c with frame_rate := some parsed_value.toFloat32 }
    | none =>
      match value.as_integer with
      | some parsed_value => .applied { c with frame_rate := some parsed_value.toFloat32 }
      | none => .wrong_type
  | .hide_daw => boolean value fun b => { c with hide_daw := b }
  | .vst3_prefer_32bit => boolean value fun b => { c with vst3_prefer_32bit := b }

/-- One pass of the loop over the keys of the table. `none` is an exception. -/
def option (c : Configuration) (entry : Text × Value) : Option Configuration :=
  match Setting.ofKey entry.1 with
  | none => some { c with unknown_options := c.unknown_options ++ [entry.1] }
  | some setting =>
    match set temporary_directory setting entry.2 c with
    | .applied c => some c
    | .wrong_type => some { c with invalid_options := c.invalid_options ++ [entry.1] }
    | .throws => none

/-- What a table that matches makes of the configuration. -/
def configured (config_path : Path) (table : Table) : Option Configuration :=
  table.options.foldlM (option temporary_directory)
    { matched_file := some config_path, matched_pattern := some table.pattern }

end

/-- What the constructor uses that is not in the program. -/
structure System where
  parent_path : Path → Path
  lexically_relative : Path → Path → Path
  fnmatch : Text → Text → Bool
  temporary_directory : Option Path

/-- A string as a function of C reads it. -/
def c_str (s : Text) : Text := s.takeWhile (· ≠ 0)

section
variable (system : System) (config_path yabridge_path : Path)

def relative_path : Path :=
  system.lexically_relative yabridge_path (system.parent_path config_path)

/-- `fnmatch` returns zero for the name of the table. -/
def matchesPath (table : Table) : Bool :=
  system.fnmatch (c_str table.pattern) (c_str (relative_path system config_path yabridge_path))

/-- The loop over the sorted tables. -/
def search : List Table → Option Configuration
  | [] => some {}
  | table :: tables =>
    if matchesPath system config_path yabridge_path table then
      configured system.temporary_directory config_path table
    else search tables

/-- The constructor, of a file that has been parsed. -/
def load (document : Document) : Option Configuration :=
  search system config_path yabridge_path (sortedBy Table.line document.tables)

end

/-! ## What each key comes to -/

/-- The value of an option. -/
inductive Reading
  | text (s : Option Text)
  | flag (b : Bool)
  | rate (x : Option Float32)

def read (c : Configuration) : Setting → Reading
  | .group => .text c.group
  | .disable_pipes => .text c.disable_pipes
  | .editor_coordinate_hack => .flag c.editor_coordinate_hack
  | .editor_disable_host_scaling => .flag c.editor_disable_host_scaling
  | .editor_force_dnd => .flag c.editor_force_dnd
  | .editor_xembed => .flag c.editor_xembed
  | .frame_rate => .rate c.frame_rate
  | .hide_daw => .flag c.hide_daw
  | .vst3_prefer_32bit => .flag c.vst3_prefer_32bit

section
variable (temporary_directory : Option Path)

/-- What an option should be for a value; `none` when the value has a wrong type. -/
def wanted : Setting → Value → Option Reading
  | .group, .string s => some (.text (some s))
  | .group, _ => none
  | .disable_pipes, .boolean true => some (.text (temporary_directory.map fun directory =>
      append directory (bytes "yabridge-plugin-output.log")))
  | .disable_pipes, .boolean false => some (.text none)
  | .disable_pipes, .string s => some (.text (some s))
  | .disable_pipes, _ => none
  | .frame_rate, .floating_point x => some (.rate (some x.toFloat32))
  | .frame_rate, .integer n => some (.rate (some n.toFloat32))
  | .frame_rate, _ => none
  | _, .boolean b => some (.flag b)
  | _, _ => none

/-- The key is unknown and listed once, or has a wrong type and is listed once, or is applied. -/
def Accounted (c : Configuration) (entry : Text × Value) : Prop :=
  match Setting.ofKey entry.1 with
  | none => c.unknown_options.count entry.1 = 1 ∧ c.invalid_options.count entry.1 = 0
  | some setting =>
    c.unknown_options.count entry.1 = 0 ∧
      match wanted temporary_directory setting entry.2 with
      | none => c.invalid_options.count entry.1 = 1
      | some reading => c.invalid_options.count entry.1 = 0 ∧ c.read setting = reading

/-- What a configuration has from the entries of a table. -/
structure Settled (entries : List (Text × Value)) (c : Configuration) : Prop where
  accounted : ∀ e ∈ entries, Accounted temporary_directory c e
  defaults : ∀ setting : Setting, setting.key ∉ entries.map Prod.fst →
    c.read setting = read {} setting
  listed : ∀ key ∉ entries.map Prod.fst,
    c.unknown_options.count key = 0 ∧ c.invalid_options.count key = 0

theorem boolean_eq_applied {value : Value} {write : Bool → Configuration} {c : Configuration} :
    boolean value write = .applied c ↔ ∃ b, value = .boolean b ∧ write b = c := by
  cases value with
  | boolean b => simp [boolean, Value.as_boolean]
  | _ => simp [boolean, Value.as_boolean]

/-- `set` writes the option of its key only. -/
structure Wrote (setting : Setting) (value : Value) (c c' : Configuration) : Prop where
  wanted : wanted temporary_directory setting value = some (c'.read setting)
  others : ∀ other, other ≠ setting → c'.read other = c.read other
  unknown : c'.unknown_options = c.unknown_options
  invalid : c'.invalid_options = c.invalid_options
  file : c'.matched_file = c.matched_file
  pattern : c'.matched_pattern = c.matched_pattern

variable {temporary_directory} {c c' : Configuration}

theorem read_group {other : Setting} {s : Option Text} (h : other ≠ .group) :
    ({ c with group := s } : Configuration).read other = c.read other := by
  cases other <;> first | rfl | exact absurd rfl h

theorem read_disable_pipes {other : Setting} {path : Option Path} (h : other ≠ .disable_pipes) :
    ({ c with disable_pipes := path } : Configuration).read other = c.read other := by
  cases other <;> first | rfl | exact absurd rfl h

theorem read_frame_rate {other : Setting} {x : Option Float32} (h : other ≠ .frame_rate) :
    ({ c with frame_rate := x } : Configuration).read other = c.read other := by
  cases other <;> first | rfl | exact absurd rfl h

theorem wrote_of_set {setting : Setting} {value : Value}
    (h : set temporary_directory setting value c = .applied c') :
    Wrote temporary_directory setting value c c' := by
  cases setting with
  | group =>
    cases value with
    | string s =>
      obtain rfl := Outcome.applied.inj h
      exact ⟨rfl, fun _ => read_group, rfl, rfl, rfl, rfl⟩
    | _ => cases h
  | disable_pipes =>
    cases value with
    | boolean b =>
      cases b with
      | true =>
        cases temporary_directory with
        | none => cases h
        | some directory =>
          obtain rfl := Outcome.applied.inj h
          exact ⟨rfl, fun _ => read_disable_pipes, rfl, rfl, rfl, rfl⟩
      | false =>
        obtain rfl := Outcome.applied.inj h
        exact ⟨rfl, fun _ => read_disable_pipes, rfl, rfl, rfl, rfl⟩
    | string s =>
      obtain rfl := Outcome.applied.inj h
      exact ⟨rfl, fun _ => read_disable_pipes, rfl, rfl, rfl, rfl⟩
    | _ => cases h
  | frame_rate =>
    cases value with
    | floating_point x =>
      obtain rfl := Outcome.applied.inj h
      exact ⟨rfl, fun _ => read_frame_rate, rfl, rfl, rfl, rfl⟩
    | integer n =>
      obtain rfl := Outcome.applied.inj h
      exact ⟨rfl, fun _ => read_frame_rate, rfl, rfl, rfl, rfl⟩
    | _ => cases h
  | _ =>
    -- The options that are switched on and off.
    obtain ⟨b, rfl, rfl⟩ := boolean_eq_applied.mp h
    refine ⟨rfl, ?_, rfl, rfl, rfl, rfl⟩
    intro other hother
    cases other <;> first | rfl | exact absurd rfl hother

theorem wanted_of_wrong_type {setting : Setting} {value : Value}
    (h : set temporary_directory setting value c = .wrong_type) :
    wanted temporary_directory setting value = none := by
  cases value with
  | string s => cases setting <;> first | rfl | cases h
  | integer n => cases setting <;> first | rfl | cases h
  | floating_point x => cases setting <;> first | rfl | cases h
  | boolean b =>
    cases setting with
    | disable_pipes =>
      cases b with
      | true => cases temporary_directory <;> cases h
      | false => cases h
    | _ => first | rfl | cases h
  | other => cases setting <;> rfl

theorem of_set_throws {setting : Setting} {value : Value}
    (h : set temporary_directory setting value c = .throws) :
    setting = .disable_pipes ∧ value = .boolean true ∧ temporary_directory = none := by
  cases value with
  | boolean b =>
    cases setting with
    | disable_pipes =>
      cases b with
      | true =>
        cases temporary_directory with
        | none => exact ⟨rfl, rfl, rfl⟩
        | some directory => cases h
      | false => cases h
    | _ => cases h
  | _ => cases setting <;> cases h

/-! ## One key -/

theorem ofKey_eq_some {key : Text} {setting : Setting} (h : Setting.ofKey key = some setting) :
    key = setting.key := by
  simpa using List.find?_some h

theorem ofKey_key (setting : Setting) : Setting.ofKey setting.key = some setting := by
  cases setting <;> decide

/-- Nothing that is known of another key changes. -/
structure Frame (key : Text) (c c' : Configuration) : Prop where
  read : ∀ setting, Setting.ofKey key = some setting → c'.read setting = c.read setting
  unknown : c'.unknown_options.count key = c.unknown_options.count key
  invalid : c'.invalid_options.count key = c.invalid_options.count key

theorem Frame.accounted {entry : Text × Value} (h : Frame entry.1 c c')
    (hc : Accounted temporary_directory c entry) : Accounted temporary_directory c' entry := by
  unfold Accounted at hc ⊢
  cases hkey : Setting.ofKey entry.1 with
  | none =>
    rw [hkey] at hc
    exact ⟨h.unknown.trans hc.1, h.invalid.trans hc.2⟩
  | some setting =>
    rw [hkey] at hc
    refine ⟨h.unknown.trans hc.1, ?_⟩
    cases hwanted : wanted temporary_directory setting entry.2 with
    | none =>
      simp only [hwanted] at hc ⊢
      exact h.invalid.trans hc.2
    | some reading =>
      simp only [hwanted] at hc ⊢
      exact ⟨h.invalid.trans hc.2.1, (h.read setting hkey).trans hc.2.2⟩

/-- The three things that `option` does. -/
theorem option_cases {entry : Text × Value} (h : option temporary_directory c entry = some c') :
    (Setting.ofKey entry.1 = none ∧
        c' = { c with unknown_options := c.unknown_options ++ [entry.1] }) ∨
      ∃ setting, Setting.ofKey entry.1 = some setting ∧
        (wanted temporary_directory setting entry.2 = none ∧
            c' = { c with invalid_options := c.invalid_options ++ [entry.1] } ∨
          Wrote temporary_directory setting entry.2 c c') := by
  unfold option at h
  cases hkey : Setting.ofKey entry.1 with
  | none =>
    rw [hkey] at h
    exact Or.inl ⟨rfl, (Option.some.inj h).symm⟩
  | some setting =>
    rw [hkey] at h
    refine Or.inr ⟨setting, rfl, ?_⟩
    cases hset : set temporary_directory setting entry.2 c with
    | applied d =>
      simp only [hset, Option.some.injEq] at h
      exact Or.inr (h ▸ wrote_of_set hset)
    | wrong_type =>
      simp only [hset, Option.some.injEq] at h
      exact Or.inl ⟨wanted_of_wrong_type hset, h.symm⟩
    | throws =>
      simp only [hset] at h
      cases h

theorem option_frame {entry : Text × Value} (h : option temporary_directory c entry = some c')
    {key : Text} (hne : key ≠ entry.1) : Frame key c c' := by
  have hcount : ∀ xs : List Text, (xs ++ [entry.1]).count key = xs.count key := by
    intro xs
    rw [List.count_append, List.count_singleton, beq_false_of_ne hne.symm]
    rfl
  rcases option_cases h with ⟨-, rfl⟩ | ⟨setting, hkey, ⟨-, rfl⟩ | hwrote⟩
  · exact ⟨fun other _ => by cases other <;> rfl, hcount _, rfl⟩
  · exact ⟨fun other _ => by cases other <;> rfl, rfl, hcount _⟩
  · refine ⟨?_, by rw [hwrote.unknown], by rw [hwrote.invalid]⟩
    intro other hother
    apply hwrote.others
    intro heq
    rw [ofKey_eq_some hother, ofKey_eq_some hkey, heq] at hne
    exact hne rfl

theorem option_accounted {entry : Text × Value}
    (h : option temporary_directory c entry = some c')
    (hunknown : c.unknown_options.count entry.1 = 0)
    (hinvalid : c.invalid_options.count entry.1 = 0) :
    Accounted temporary_directory c' entry := by
  have hcount : ∀ xs : List Text, xs.count entry.1 = 0 → (xs ++ [entry.1]).count entry.1 = 1 := by
    intro xs hxs
    rw [List.count_append, hxs, List.count_singleton_self]
  unfold Accounted
  rcases option_cases h with ⟨hkey, rfl⟩ | ⟨setting, hkey, ⟨hwanted, rfl⟩ | hwrote⟩
  · rw [hkey]
    exact ⟨hcount _ hunknown, hinvalid⟩
  · simp only [hkey, hwanted]
    exact ⟨hunknown, hcount _ hinvalid⟩
  · simp only [hkey, hwrote.wanted, hwrote.unknown, hwrote.invalid]
    exact ⟨hunknown, hinvalid, trivial⟩

theorem option_keeps_match {entry : Text × Value}
    (h : option temporary_directory c entry = some c') :
    c'.matched_file = c.matched_file ∧ c'.matched_pattern = c.matched_pattern := by
  rcases option_cases h with ⟨-, rfl⟩ | ⟨setting, -, ⟨-, rfl⟩ | hwrote⟩
  · exact ⟨rfl, rfl⟩
  · exact ⟨rfl, rfl⟩
  · exact ⟨hwrote.file, hwrote.pattern⟩

theorem of_option_none {entry : Text × Value} (h : option temporary_directory c entry = none) :
    temporary_directory = none ∧ entry = (bytes "disable_pipes", .boolean true) := by
  unfold option at h
  cases hkey : Setting.ofKey entry.1 with
  | none =>
    rw [hkey] at h
    cases h
  | some setting =>
    rw [hkey] at h
    cases hset : set temporary_directory setting entry.2 c with
    | throws =>
      obtain ⟨rfl, hvalue, hnone⟩ := of_set_throws hset
      exact ⟨hnone, Prod.ext (ofKey_eq_some hkey) hvalue⟩
    | _ =>
      simp only [hset] at h
      cases h

/-! ## All keys -/

theorem Settled.nil {config_path : Path} {pattern : Text} :
    Settled temporary_directory []
      { matched_file := some config_path, matched_pattern := some pattern } := by
  constructor
  · intro e he
    cases he
  · intro setting _
    cases setting <;> rfl
  · intro key _
    exact ⟨rfl, rfl⟩

/-- The pass for a key that has not occurred. -/
theorem Settled.concat {entries : List (Text × Value)} {entry : Text × Value}
    (hc : Settled temporary_directory entries c) (hnew : entry.1 ∉ entries.map Prod.fst)
    (h : option temporary_directory c entry = some c') :
    Settled temporary_directory (entries ++ [entry]) c' := by
  have hkeys : ∀ key : Text, key ∉ (entries ++ [entry]).map Prod.fst →
      key ≠ entry.1 ∧ key ∉ entries.map Prod.fst := by
    intro key hkey
    rw [List.map_append, List.mem_append, not_or] at hkey
    exact ⟨fun heq => hkey.2 (heq ▸ List.mem_singleton_self _), hkey.1⟩
  constructor
  · intro e he
    rcases List.mem_append.mp he with he | he
    · have hne : e.1 ≠ entry.1 := fun heq => hnew (heq ▸ List.mem_map_of_mem he)
      exact (option_frame h hne).accounted (hc.accounted e he)
    · rw [List.mem_singleton.mp he]
      obtain ⟨hunknown, hinvalid⟩ := hc.listed entry.1 hnew
      exact option_accounted h hunknown hinvalid
  · intro setting hkey
    obtain ⟨hne, hdone⟩ := hkeys setting.key hkey
    calc c'.read setting = c.read setting := (option_frame h hne).read setting (ofKey_key setting)
      _ = Configuration.read {} setting := hc.defaults setting hdone
  · intro key hkey
    obtain ⟨hne, hdone⟩ := hkeys key hkey
    have hframe := option_frame h hne
    obtain ⟨hunknown, hinvalid⟩ := hc.listed key hdone
    exact ⟨hframe.unknown.trans hunknown, hframe.invalid.trans hinvalid⟩

/-- The induction is on the keys that have been handled, so that the next one is the last. -/
theorem settled_of_foldlM {start : Configuration} {entries : List (Text × Value)}
    (hstart : Settled temporary_directory [] start) (hkeys : (entries.map Prod.fst).Nodup)
    (h : entries.foldlM (option temporary_directory) start = some c) :
    Settled temporary_directory entries c ∧
      c.matched_file = start.matched_file ∧ c.matched_pattern = start.matched_pattern := by
  induction entries using List.reverseRecOn generalizing c with
  | nil =>
    obtain rfl := Option.some.inj h
    exact ⟨hstart, rfl, rfl⟩
  | append_singleton entries entry ih =>
    rw [List.foldlM_append, Option.bind_eq_bind, Option.bind_eq_some_iff] at h
    obtain ⟨d, hd, hlast⟩ := h
    rw [List.foldlM_cons, Option.bind_eq_bind, Option.bind_eq_some_iff] at hlast
    obtain ⟨e, hoption, hnil⟩ := hlast
    obtain rfl := Option.some.inj hnil
    rw [List.map_append, List.nodup_append] at hkeys
    obtain ⟨hdone, -, hdisjoint⟩ := hkeys
    have hnew : entry.1 ∉ entries.map Prod.fst := by
      intro hmem
      exact hdisjoint _ hmem _ (List.mem_singleton_self _) rfl
    obtain ⟨hsettled, hfile, hpattern⟩ := ih hdone hd
    obtain ⟨hfile', hpattern'⟩ := option_keeps_match hoption
    exact ⟨hsettled.concat hnew hoption, hfile'.trans hfile, hpattern'.trans hpattern⟩

theorem of_foldlM_none {start : Configuration} {entries : List (Text × Value)}
    (h : entries.foldlM (option temporary_directory) start = none) :
    temporary_directory = none ∧ (bytes "disable_pipes", Value.boolean true) ∈ entries := by
  induction entries generalizing start with
  | nil => cases h
  | cons entry entries ih =>
    rw [List.foldlM_cons] at h
    cases hoption : option temporary_directory start entry with
    | none =>
      obtain ⟨hnone, rfl⟩ := of_option_none hoption
      exact ⟨hnone, List.mem_cons_self⟩
    | some d =>
      rw [hoption] at h
      obtain ⟨hnone, hmem⟩ := ih h
      exact ⟨hnone, List.mem_cons_of_mem entry hmem⟩

end

/-! ## The table that decides -/

section
variable (system : System) (config_path yabridge_path : Path)

theorem search_eq_find (tables : List Table) :
    search system config_path yabridge_path tables =
      match tables.find? (matchesPath system config_path yabridge_path) with
      | some table => configured system.temporary_directory config_path table
      | none => some {} := by
  induction tables with
  | nil => rfl
  | cons table tables ih =>
    rw [search, ih]
    by_cases hmatch : matchesPath system config_path yabridge_path table
    · rw [if_pos hmatch, List.find?_cons_of_pos hmatch]
    · rw [if_neg hmatch, List.find?_cons_of_neg hmatch]

/-- The table that is first in the file of those that match. -/
def FirstMatching (document : Document) : Table → Prop :=
  IsFirst Table.line (matchesPath system config_path yabridge_path) document.tables

/-- The configuration is made of one table, and every key of it is accounted for. -/
structure MadeOf (table : Table) (result : Option Configuration) : Prop where
  determined : result = configured system.temporary_directory config_path table
  settled : ∀ c, result = some c → Settled system.temporary_directory table.options c ∧
    c.matched_file = some config_path ∧ c.matched_pattern = some table.pattern
  throws : result = none → system.temporary_directory = none ∧
    (bytes "disable_pipes", Value.boolean true) ∈ table.options

structure Decided (document : Document) (result : Option Configuration) : Prop where
  first : ∀ table, FirstMatching system config_path yabridge_path document table →
    MadeOf system config_path table result
  unmatched : (∀ table, ¬ FirstMatching system config_path yabridge_path document table) →
    result = some {} ∧ ∀ table ∈ document.tables,
      ¬ matchesPath system config_path yabridge_path table

theorem configured_madeOf (table : Table) :
    MadeOf system config_path table (configured system.temporary_directory config_path table) :=
  ⟨rfl, fun _ h => settled_of_foldlM Settled.nil table.keys_unique h, of_foldlM_none⟩

theorem find_iff_firstMatching (document : Document) (table : Table) :
    (sortedBy Table.line document.tables).find?
        (matchesPath system config_path yabridge_path) = some table ↔
      FirstMatching system config_path yabridge_path document table :=
  find_eq_some_iff document.lines_unique

theorem first_match_decides (document : Document) :
    Decided system config_path yabridge_path document
      (load system config_path yabridge_path document) := by
  have hfind := find_iff_firstMatching system config_path yabridge_path document
  rw [load, search_eq_find]
  constructor
  · intro table hfirst
    rw [(hfind table).mpr hfirst]
    exact configured_madeOf system config_path table
  · intro hnone
    cases hsearch : (sortedBy Table.line document.tables).find?
        (matchesPath system config_path yabridge_path) with
    | some table => exact absurd ((hfind table).mp hsearch) (hnone table)
    | none => exact ⟨rfl, find_eq_none_iff.mp hsearch⟩

end

/-! ## A file -/

/-- For absolute paths, paths below the directory, and names that are a star or have no special
character. -/
def plainSystem : System where
  parent_path path := (path.reverse.dropWhile (· ≠ slash)).tail.reverse
  lexically_relative path base := path.drop (base.length + 1)
  fnmatch pattern path := pattern == bytes "*" || (pattern ++ [slash]).isPrefixOf (path ++ [slash])
  temporary_directory := some (bytes "/tmp")

def everything : Table where
  pattern := bytes "*"
  line := 7
  options := [(bytes "hide_daw", .boolean true)]
  keys_unique := by decide

/-- With a value of a wrong type and a key that is not known. -/
def delays : Table where
  pattern := bytes "delays"
  line := 2
  options :=
    [(bytes "disable_pipes", .boolean true), (bytes "framerate", .integer 30),
      (bytes "group", .string (bytes "echo")), (bytes "hide_daw", .string (bytes "yes"))]
  keys_unique := by decide

/-- By name, as the map has them. -/
def delaysFile : Document where
  nodes := [.table everything, .table delays, .other (bytes "version")]
  lines_unique := by decide

def delaysConfiguration : Configuration where
  group := some (bytes "echo")
  disable_pipes := some (bytes "/tmp/yabridge-plugin-output.log")
  matched_file := some (bytes "/vst/yabridge.toml")
  matched_pattern := some (bytes "delays")
  invalid_options := [bytes "hide_daw"]
  unknown_options := [bytes "framerate"]

/-- Both tables match. -/
theorem delays_firstMatching : FirstMatching plainSystem (bytes "/vst/yabridge.toml")
    (bytes "/vst/delays/tape.so") delaysFile delays := by
  constructor
  case mem => simp [Document.tables, delaysFile, Node.as_table]
  case matched => decide
  case least =>
    intro table htable _
    have htables : delaysFile.tables = [everything, delays] := rfl
    simp only [htables, List.mem_cons, List.not_mem_nil, or_false] at htable
    rcases htable with rfl | rfl
    · decide
    · exact Nat.le_refl 2

theorem delays_configured : configured plainSystem.temporary_directory
    (bytes "/vst/yabridge.toml") delays = some delaysConfiguration := rfl

/-- The last table of the map decides. -/
theorem delays_decide :
    matchesPath plainSystem (bytes "/vst/yabridge.toml") (bytes "/vst/delays/tape.so") everything ∧
    load plainSystem (bytes "/vst/yabridge.toml") (bytes "/vst/delays/tape.so") delaysFile =
      some delaysConfiguration := by
  have hdecided := first_match_decides plainSystem (bytes "/vst/yabridge.toml")
    (bytes "/vst/delays/tape.so") delaysFile
  exact ⟨by decide, (hdecided.first delays delays_firstMatching).determined.trans delays_configured⟩

end Configuration
