import Mathlib.Data.UInt
import Wasivst.Lib.LexicalPath

/-!
# What `~Sockets()` removes

The directory of the sockets is removed when its path starts with the path of the temporary
directory. Both are strings there: the temporary directory itself, its siblings with longer names and
paths that leave it again all start with it.
-/

set_option autoImplicit false

namespace Sockets
open LexicalPath Component

abbrev Path := List UInt8

def bytes (s : String) : Path := s.toUTF8.data.toList

def slash : UInt8 := 47

/-! ## The code -/

/-- `temp_directory_path` is `none` when it throws. -/
def get_temporary_directory (getenv : String → Option Path) (temp_directory_path : Option Path) :
    Option Path :=
  match getenv "YABRIDGE_TEMP_DIR" with
  | some directory => some directory
  | none =>
    match getenv "XDG_RUNTIME_DIR" with
    | some directory => some directory
    | none => temp_directory_path

inductive Outcome
  | remove_all (directory : Path)
  | log (messages : List Path)
  | ignored

/-- `~Sockets()`. An exception of the file system is ignored. -/
def destroy (temp_dir : Option Path) (base_dir_ : Path) : Outcome :=
  match temp_dir with
  | none => .ignored
  | some temp_dir =>
    if temp_dir.isPrefixOf base_dir_ then .remove_all base_dir_
    else
      .log [[], bytes "WARNING: Unexpected socket base directory found,",
        bytes "         not removing '" ++ base_dir_ ++ bytes "'", []]

/-! ## Paths -/

def component (name : List UInt8) : Component (List UInt8) :=
  if name = [] ∨ name = bytes "." then here else if name = bytes ".." then up else down name

def components (path : Path) : List (Component (List UInt8)) := (path.splitOn slash).map component

def is_absolute (path : Path) : Bool := path.head? == some slash

/-- Where the path leads when it is normalised as a text. -/
def place (path : Path) : Place (List UInt8) := Place.walk (is_absolute path) (components path)

def StrictlyBelow (path directory : Path) : Prop :=
  is_absolute path = is_absolute directory ∧ (place path).Below (place directory)

/-- Only a directory below the temporary one is removed. -/
structure Confined (temp_dir : Option Path) (base_dir_ : Path) : Prop where
  removed : ∀ directory, destroy temp_dir base_dir_ = .remove_all directory →
    ∃ temp, temp_dir = some temp ∧ StrictlyBelow directory temp
  spared : ∀ temp, temp_dir = some temp → ¬ StrictlyBelow base_dir_ temp →
    ∀ directory, destroy temp_dir base_dir_ ≠ .remove_all directory

/-- The path comes by the directory, does not go above it from there on and ends below it. -/
def Enters (path directory : Path) : Prop :=
  is_absolute path = is_absolute directory ∧ ∃ p q d, components path = p ++ q ∧
    Place.walk (is_absolute path) p = place directory ∧ descent 0 q = some (d + 1)

theorem strictlyBelow_iff {path directory : Path} :
    StrictlyBelow path directory ↔ Enters path directory :=
  and_congr_right fun _ => Place.walk_below_iff

theorem destroy_eq_remove_all_iff {temp base_dir_ directory : Path} :
    destroy (some temp) base_dir_ = .remove_all directory ↔
      temp <+: base_dir_ ∧ base_dir_ = directory := by
  unfold destroy
  by_cases hstarts : temp <+: base_dir_
  · simp [hstarts]
  · simp [hstarts]

/-- What is removed is below the temporary directory exactly if the path does not start with the
same characters, or leads there. -/
theorem confined_iff (getenv : String → Option Path) (temp_directory_path : Option Path)
    (base_dir_ : Path) :
    Confined (get_temporary_directory getenv temp_directory_path) base_dir_ ↔
      ∀ temp, get_temporary_directory getenv temp_directory_path = some temp →
        temp <+: base_dir_ → Enters base_dir_ temp := by
  cases get_temporary_directory getenv temp_directory_path with
  | none =>
    apply iff_of_true
    · constructor
      · intro directory h
        cases h
      · intro temp h
        cases h
    · intro temp h
      cases h
  | some temp =>
    constructor
    · intro h other hother hstarts
      obtain rfl := Option.some.inj hother
      obtain ⟨other, hother, hbelow⟩ :=
        h.removed base_dir_ (destroy_eq_remove_all_iff.mpr ⟨hstarts, rfl⟩)
      obtain rfl := Option.some.inj hother
      exact strictlyBelow_iff.mp hbelow
    · intro h
      constructor
      · intro directory hremoved
        obtain ⟨hstarts, rfl⟩ := destroy_eq_remove_all_iff.mp hremoved
        exact ⟨temp, rfl, strictlyBelow_iff.mpr (h temp rfl hstarts)⟩
      · intro other hother hnot directory hremoved
        obtain rfl := Option.some.inj hother
        obtain ⟨hstarts, -⟩ := destroy_eq_remove_all_iff.mp hremoved
        exact hnot (strictlyBelow_iff.mpr (h temp rfl hstarts))

theorem not_strictlyBelow_of_length {path directory : Path}
    (h : (place path).names.length ≤ (place directory).names.length) :
    ¬ StrictlyBelow path directory := by
  intro hbelow
  exact absurd hbelow.2.length_lt (Nat.not_lt_of_le h)

/-- The temporary directory itself, a sibling and a path that leaves it. -/
theorem unexpected_removed :
    (destroy (some (bytes "/tmp")) (bytes "/tmp") = .remove_all (bytes "/tmp") ∧
        ¬ StrictlyBelow (bytes "/tmp") (bytes "/tmp")) ∧
      (destroy (some (bytes "/tmp")) (bytes "/tmpfoo") = .remove_all (bytes "/tmpfoo") ∧
        ¬ StrictlyBelow (bytes "/tmpfoo") (bytes "/tmp")) ∧
      destroy (some (bytes "/tmp")) (bytes "/tmp/../home") =
          .remove_all (bytes "/tmp/../home") ∧
        ¬ StrictlyBelow (bytes "/tmp/../home") (bytes "/tmp") := by
  have hitself : (place (bytes "/tmp")).names.length = 1 := rfl
  refine ⟨⟨rfl, ?_⟩, ⟨rfl, ?_⟩, rfl, ?_⟩
  · exact not_strictlyBelow_of_length (le_refl _)
  · exact not_strictlyBelow_of_length (Nat.le_of_eq hitself)
  · exact not_strictlyBelow_of_length (Nat.le_of_eq hitself)

/-! ## The directories that are made for sockets -/

/-- `operator/` with a name. -/
def append (directory : Path) (name : List UInt8) : Path :=
  if directory = [] ∨ directory.getLast? = some slash then directory ++ name
  else directory ++ slash :: name

def socket_name (plugin_name random_id : List UInt8) : List UInt8 :=
  bytes "yabridge-" ++ plugin_name ++ bytes "-" ++ random_id

/-- What `generate_endpoint_base` returns once it has found an unused `random_id`. -/
def endpoint_base (temp_directory : Path) (plugin_name random_id : List UInt8) : Path :=
  append temp_directory (socket_name plugin_name random_id)

theorem components_append (p q : Path) :
    components (p ++ slash :: q) = components p ++ components q := by
  rw [components, List.splitOn_append_cons_self, List.map_append]
  rfl

theorem components_socket_name {plugin_name random_id : List UInt8} (hname : slash ∉ plugin_name)
    (hid : slash ∉ random_id) :
    components (socket_name plugin_name random_id) = [down (socket_name plugin_name random_id)] := by
  have hnot : slash ∉ socket_name plugin_name random_id := by
    have hstarts : slash ∉ bytes "yabridge-" := by decide
    have hdash : slash ∉ bytes "-" := by decide
    simp [socket_name, hstarts, hdash, hname, hid]
  rw [components, List.splitOn_eq_singleton hnot]
  rfl

theorem is_absolute_append {directory : Path} (h : directory ≠ []) (rest : Path) :
    is_absolute (directory ++ rest) = is_absolute directory := by
  rw [is_absolute, is_absolute, List.head?_append_of_ne_nil _ h]

/-- A slash at the end changes nothing. -/
theorem place_append_slash {directory : Path} :
    place (directory ++ [slash]) =
      Place.walk (is_absolute (directory ++ [slash])) (components directory) := by
  rw [place, components_append]
  exact Place.walk_append_singleton _ _

theorem enters_append (directory : Path) {name : List UInt8} (hhead : name.head? ≠ some slash)
    (hname : components name = [down name]) : Enters (append directory name) directory := by
  unfold append
  split
  · rename_i hdirectory
    rcases hdirectory with hnil | hlast
    · have hrelative : is_absolute name = false := by
        rw [is_absolute, beq_eq_false_iff_ne]
        exact hhead
      rw [hnil, List.nil_append]
      exact ⟨hrelative, [], [down name], 0, hname, rfl, rfl⟩
    · obtain ⟨front, rfl⟩ := List.getLast?_eq_some_iff.mp hlast
      have habsolute := is_absolute_append (List.concat_ne_nil slash front) name
      refine ⟨habsolute, components front, [down name], 0, ?_, ?_, rfl⟩
      · rw [List.append_assoc, List.singleton_append, components_append, hname]
      · rw [habsolute, place_append_slash]
  · rename_i hdirectory
    rw [not_or] at hdirectory
    have habsolute := is_absolute_append hdirectory.1 (slash :: name)
    refine ⟨habsolute, components directory, [down name], 0, ?_, ?_, rfl⟩
    · rw [components_append, hname]
    · rw [habsolute]
      rfl

theorem prefix_append (directory : Path) (name : List UInt8) :
    directory <+: append directory name := by
  unfold append
  split
  · exact List.prefix_append _ _
  · exact List.prefix_append _ _

/-- The directory that was made for the sockets is removed, whatever the plugin is called. -/
theorem endpoint_base_removed (temp_directory : Path) {plugin_name random_id : List UInt8}
    (hname : slash ∉ plugin_name) (hid : slash ∉ random_id) :
    destroy (some temp_directory) (endpoint_base temp_directory plugin_name random_id) =
        .remove_all (endpoint_base temp_directory plugin_name random_id) ∧
      StrictlyBelow (endpoint_base temp_directory plugin_name random_id) temp_directory := by
  have hhead : (socket_name plugin_name random_id).head? ≠ some slash := by
    have hfirst : (socket_name plugin_name random_id).head? = some 121 := rfl
    rw [hfirst]
    decide
  constructor
  · exact destroy_eq_remove_all_iff.mpr ⟨prefix_append _ _, rfl⟩
  · exact strictlyBelow_iff.mpr (enters_append _ hhead (components_socket_name hname hid))

end Sockets
