import Mathlib.Data.List.TakeWhile
import Mathlib.Data.UInt
import Mathlib.Logic.Function.Basic
import Wasivst.Lib.Separated
import Wasivst.Lib.Transition

/-!
# `ProcessEnvironment`

The variables are a list of strings, each a key, an equals sign and a value. A key is looked up from
the front, and `insert()` appends: it gives a value to a key that has none, and does not overwrite
the value of one that has.
-/

set_option autoImplicit false

/-! ## The code -/

structure ProcessEnvironment where
  variables_ : List (List UInt8)

namespace ProcessEnvironment
open Transition Separated

def equals : UInt8 := 61

/-- `initial_env` is read up to its null pointer, each string up to its terminator. -/
def ofEnviron (initial_env : List { s : List UInt8 // 0 ∉ s }) : ProcessEnvironment :=
  ⟨initial_env.map Subtype.val⟩

/-- The condition of the three loops. -/
def matchesKey (key entry : List UInt8) : Bool :=
  key.isPrefixOf entry && (decide (entry.length > key.length) &&
    entry[key.length]? == some equals)

def contains (s : ProcessEnvironment) (key : List UInt8) : Bool :=
  s.variables_.any (matchesKey key)

def get (s : ProcessEnvironment) (key : List UInt8) : Option (List UInt8) :=
  (s.variables_.find? (matchesKey key)).map fun entry => entry.drop (key.length + 1)

def insert (s : ProcessEnvironment) (key value : List UInt8) : ProcessEnvironment :=
  ⟨s.variables_ ++ [key ++ equals :: value]⟩

/-- The number of elements erased, and what is left. -/
def erase (s : ProcessEnvironment) (key : List UInt8) : Nat × ProcessEnvironment :=
  (s.variables_.countP (matchesKey key), ⟨s.variables_.filter fun v => !matchesKey key v⟩)

/-- What is read through a pointer to the characters of a string. -/
def c_str (s : List UInt8) : List UInt8 := s.takeWhile (· ≠ 0)

def make_environ (s : ProcessEnvironment) : List (Option (List UInt8)) :=
  s.variables_.map (fun entry => some (c_str entry)) ++ [none]

/-! ## Environments as maps -/

abbrev Key := { k : List UInt8 // k ≠ [] ∧ equals ∉ k }

inductive Operation
  | insert (key : Key) (value : List UInt8)
  | erase (key : Key)

/-- What the last operation on each key has made of it, and the keys that were inserted. -/
structure Map where
  value : Key → Option (List UInt8)
  inserted : List Key

namespace Map

/-- The first variable with the key counts. -/
def ofEnviron (initial_env : List { s : List UInt8 // 0 ∉ s }) : Map where
  value k := ((initial_env.map Subtype.val).filterMap (cut equals)).lookup k.val
  inserted := []

def after (m : Map) : Operation → Map
  | .insert key value => ⟨Function.update m.value key (some value), key :: m.inserted⟩
  | .erase key => { m with value := Function.update m.value key none }

end Map

/-- The lookups find what the map has, and so does a program that is given the environment. -/
structure Agrees (s : ProcessEnvironment × Map) : Prop where
  get : ∀ k : Key, s.1.get k = s.2.value k
  contains : ∀ k : Key, s.1.contains k = (s.2.value k).isSome
  environ : ∀ (k : Key) (v : List UInt8), s.2.value k = some v →
    some (k.val ++ equals :: v) ∈ s.1.make_environ
  once : ∀ k ∈ s.2.inserted, s.1.make_environ.countP (fun e => e.any (matchesKey k)) =
    if (s.2.value k).isSome then 1 else 0

def start (initial_env : List { s : List UInt8 // 0 ∉ s }) : ProcessEnvironment × Map :=
  (ofEnviron initial_env, Map.ofEnviron initial_env)

def code (s : ProcessEnvironment) : Operation → ProcessEnvironment
  | .insert key value => s.insert key value
  | .erase key => (s.erase key).2

def step (s : ProcessEnvironment × Map) (a : Operation) : Option (ProcessEnvironment × Map) :=
  some (s.1.code a, s.2.after a)

/-- A entry is inserted that is not there yet, and can be in a string of C. -/
def Inserts (s : ProcessEnvironment × Map) : Operation → Prop
  | .insert key value => s.1.contains key = false ∧ 0 ∉ key.val ∧ 0 ∉ value
  | .erase _ => True

/-! ## Keys and values -/

theorem matchesKey_iff {key entry : List UInt8} :
    matchesKey key entry = true ↔ ∃ v, entry = key ++ equals :: v := by
  unfold matchesKey
  simp only [Bool.and_eq_true, List.isPrefixOf_iff_prefix, decide_eq_true_eq, beq_iff_eq]
  constructor
  · intro h
    rcases h with ⟨⟨rest, rfl⟩, hlen, hat⟩
    rw [List.getElem?_append_right (Nat.le_refl _), Nat.sub_self] at hat
    cases rest with
    | nil => cases hat
    | cons c rest =>
      obtain rfl := Option.some.inj hat
      exact ⟨rest, rfl⟩
  · intro h
    rcases h with ⟨v, rfl⟩
    refine ⟨List.prefix_append _ _, ?_, ?_⟩
    · simp
    · simp

/-- A key that is the beginning of another does not match its variables. -/
theorem matchesKey_append (key k : Key) (v : List UInt8) :
    matchesKey key (k.val ++ equals :: v) = true ↔ key = k := by
  rw [matchesKey_iff]
  constructor
  · intro h
    obtain ⟨v', hv⟩ := h
    exact Subtype.ext ((append_cons_inj k.property.2 key.property.2).mp hv).1.symm
  · intro h
    exact ⟨v, by rw [h]⟩

theorem matchesKey_unique {key k : Key} {entry : List UInt8} (h : matchesKey key entry = true)
    (h' : matchesKey k entry = true) : key = k := by
  obtain ⟨v, rfl⟩ := matchesKey_iff.mp h'
  exact (matchesKey_append key k v).mp h

theorem drop_key (k v : List UInt8) : (k ++ equals :: v).drop (k.length + 1) = v := by
  rw [List.drop_append]
  simp

/-! ## Lookups -/

variable {s : ProcessEnvironment} {k key : Key} {v : List UInt8}

theorem contains_eq_isSome (s : ProcessEnvironment) (key : List UInt8) :
    s.contains key = (s.get key).isSome := by
  rw [get, Option.isSome_map, List.isSome_find?, contains]

theorem mem_of_get {key : List UInt8} (h : s.get key = some v) :
    key ++ equals :: v ∈ s.variables_ := by
  obtain ⟨entry, hentry, hv⟩ := Option.map_eq_some_iff.mp h
  obtain ⟨v', rfl⟩ := matchesKey_iff.mp (List.find?_some hentry)
  rw [drop_key] at hv
  rw [← hv]
  exact List.mem_of_find?_eq_some hentry

/-- The value that a key has stays in front of the one that it is given. -/
theorem get_insert (s : ProcessEnvironment) (k key : Key) (v : List UInt8) :
    (s.insert k v).get key = (s.get key).or (if key = k then some v else none) := by
  unfold get insert
  rw [List.find?_append, Option.map_or]
  congr 1
  by_cases hk : key = k
  · rw [if_pos hk, List.find?_cons_of_pos ((matchesKey_append key k v).mpr hk), hk,
      Option.map_some, drop_key]
  · rw [if_neg hk, List.find?_cons_of_neg (fun h => hk ((matchesKey_append key k v).mp h))]
    rfl

theorem get_erase (s : ProcessEnvironment) (k key : Key) :
    (s.erase k).2.get key = if key = k then none else s.get key := by
  unfold get erase
  rw [List.find?_filter]
  by_cases hk : key = k
  · rw [if_pos hk, Option.map_eq_none_iff, List.find?_eq_none, hk]
    intro entry _
    simp
  · have hsame : (fun e => decide ((!matchesKey k e) = true ∧ matchesKey key e = true)) =
        matchesKey key := by
      funext entry
      cases hkey : matchesKey key entry with
      | false => simp
      | true =>
        have hnot : matchesKey k entry = false :=
          Bool.eq_false_iff.mpr fun h => hk (matchesKey_unique hkey h)
        simp [hnot]
    rw [if_neg hk, hsame]

theorem get_ofEnviron (initial_env : List { s : List UInt8 // 0 ∉ s }) (key : Key) :
    (ofEnviron initial_env).get key = (Map.ofEnviron initial_env).value key := by
  unfold get ofEnviron
  change _ = ((initial_env.map Subtype.val).filterMap (cut equals)).lookup key.val
  induction initial_env.map Subtype.val with
  | nil => rfl
  | cons entry entries ih =>
    cases hcut : cut equals entry with
    | none =>
      have hnot : ¬ matchesKey key entry = true := by
        intro h
        obtain ⟨v, hv⟩ := matchesKey_iff.mp h
        rw [cut_eq_some_iff.mpr ⟨hv, key.property.2⟩] at hcut
        cases hcut
      rw [List.find?_cons_of_neg hnot, List.filterMap_cons_none hcut]
      exact ih
    | some p =>
      obtain ⟨hentry, hp⟩ := cut_eq_some_iff.mp hcut
      rw [List.filterMap_cons_some hcut]
      by_cases hkey : key.val = p.1
      · have hmatch : matchesKey key entry = true := matchesKey_iff.mpr ⟨p.2, hkey ▸ hentry⟩
        rw [List.find?_cons_of_pos hmatch, List.lookup_cons, hkey, beq_self_eq_true, hentry,
          Option.map_some, drop_key]
      · have hnot : ¬ matchesKey key entry = true := by
          intro h
          obtain ⟨v, hv⟩ := matchesKey_iff.mp h
          exact hkey ((append_cons_inj key.property.2 hp).mp (hv.symm.trans hentry)).1
        rw [List.find?_cons_of_neg hnot, List.lookup_cons, beq_false_of_ne hkey]
        exact ih

/-! ## The strings that a program is given -/

/-- Every string ends where C thinks that it ends. -/
def Plain (s : ProcessEnvironment) : Prop := ∀ entry ∈ s.variables_, 0 ∉ entry

theorem zero_notMem_c_str (entry : List UInt8) : 0 ∉ c_str entry := by
  intro h
  simpa using List.mem_takeWhile_imp h

theorem c_str_eq_self {entry : List UInt8} (h : 0 ∉ entry) : c_str entry = entry := by
  refine List.takeWhile_eq_self_iff.mpr ?_
  intro c hc
  exact decide_eq_true fun hzero => h (hzero ▸ hc)

theorem mem_make_environ {entry : List UInt8} :
    some entry ∈ s.make_environ ↔ ∃ e ∈ s.variables_, c_str e = entry := by
  simp [make_environ]

theorem count_make_environ (h : Plain s) (key : List UInt8) :
    s.make_environ.countP (fun e => e.any (matchesKey key)) =
      s.variables_.countP (matchesKey key) := by
  rw [make_environ, List.countP_append, List.countP_map]
  have hlast : [none].countP (fun e => e.any (matchesKey key)) = 0 := rfl
  rw [hlast, Nat.add_zero]
  apply List.countP_congr
  intro entry hentry
  simp [c_str_eq_self (h entry hentry)]

theorem plain_insert (h : Plain s) (hk : 0 ∉ k.val) (hv : 0 ∉ v) : Plain (s.insert k v) := by
  intro entry hentry
  rcases List.mem_append.mp hentry with hold | hnew
  · exact h entry hold
  · rw [List.mem_singleton.mp hnew]
    intro hzero
    rcases List.mem_append.mp hzero with hzero | hzero
    · exact hk hzero
    · exact hv ((List.mem_cons.mp hzero).resolve_left (by decide))

theorem plain_erase (h : Plain s) : Plain (s.erase k).2 :=
  fun entry hentry => h entry (List.mem_of_mem_filter hentry)

theorem count_insert (s : ProcessEnvironment) (k key : Key) (v : List UInt8) :
    (s.insert k v).variables_.countP (matchesKey key) =
      s.variables_.countP (matchesKey key) + if key = k then 1 else 0 := by
  rw [insert, List.countP_append, List.countP_singleton]
  simp only [matchesKey_append]

theorem count_erase_le (s : ProcessEnvironment) (k : Key) (key : List UInt8) :
    (s.erase k).2.variables_.countP (matchesKey key) ≤ s.variables_.countP (matchesKey key) :=
  List.filter_sublist.countP_le

theorem count_eq_zero_iff (s : ProcessEnvironment) (key : List UInt8) :
    s.variables_.countP (matchesKey key) = 0 ↔ s.get key = none := by
  rw [List.countP_eq_zero, get, Option.map_eq_none_iff, List.find?_eq_none]

/-! ## Runs -/

/-- What inserts that are not overwrites keep. -/
structure Kept (s : ProcessEnvironment × Map) : Prop where
  get : ∀ k : Key, s.1.get k = s.2.value k
  plain : Plain s.1
  once : ∀ k ∈ s.2.inserted, s.1.variables_.countP (matchesKey k) ≤ 1

theorem Kept.agrees {s : ProcessEnvironment × Map} (h : Kept s) : Agrees s where
  get := h.get
  contains k := by rw [contains_eq_isSome, h.get]
  environ := by
    intro k v hv
    have hmem := mem_of_get ((h.get k).trans hv)
    exact mem_make_environ.mpr ⟨_, hmem, c_str_eq_self (h.plain _ hmem)⟩
  once := by
    intro k hk
    have hle := h.once k hk
    have hzero := count_eq_zero_iff s.1 k.val
    rw [h.get] at hzero
    rw [count_make_environ h.plain]
    cases hv : s.2.value k with
    | none => exact hzero.mpr hv
    | some v =>
      have hne : s.1.variables_.countP (matchesKey k) ≠ 0 := by
        intro h0
        rw [hzero.mp h0] at hv
        cases hv
      rw [Option.isSome_some, if_pos rfl]
      omega

theorem kept_start (initial_env : List { s : List UInt8 // 0 ∉ s }) : Kept (start initial_env) where
  get := get_ofEnviron initial_env
  plain := by
    intro entry hentry
    obtain ⟨s, -, rfl⟩ := List.mem_map.mp hentry
    exact s.property
  once := fun _ hk => by cases hk

theorem Kept.insert {s : ProcessEnvironment × Map} (h : Kept s)
    (hgood : Inserts s (.insert key v)) :
    Kept (s.1.insert key v, s.2.after (.insert key v)) := by
  obtain ⟨hcontains, hk, hv⟩ := hgood
  have hnone : s.1.get key = none := by
    rw [contains_eq_isSome, Option.isSome_eq_false_iff] at hcontains
    exact Option.isNone_iff_eq_none.mp hcontains
  constructor
  · intro k
    change _ = Function.update s.2.value key (some v) k
    rw [get_insert]
    by_cases hkey : k = key
    · rw [hkey, hnone, if_pos rfl, Function.update_self]
      rfl
    · rw [if_neg hkey, Option.or_none, Function.update_of_ne hkey]
      exact h.get k
  · exact plain_insert h.plain hk hv
  · intro k hmem
    rw [count_insert]
    by_cases hkey : k = key
    · rw [if_pos hkey, hkey, (count_eq_zero_iff s.1 key.val).mpr hnone]
    · rw [if_neg hkey, Nat.add_zero]
      exact h.once k ((List.mem_cons.mp hmem).resolve_left hkey)

theorem Kept.erase {s : ProcessEnvironment × Map} (h : Kept s) :
    Kept ((s.1.erase key).2, s.2.after (.erase key)) := by
  constructor
  · intro k
    change _ = Function.update s.2.value key none k
    rw [get_erase, Function.update_apply, h.get]
  · exact plain_erase h.plain
  · intro k hmem
    exact (count_erase_le s.1 key k).trans (h.once k hmem)

/-- A key that is there is inserted a second time, or the string is cut off. -/
theorem not_agrees_insert {s : ProcessEnvironment × Map} (hplain : Plain s.1)
    (hbad : ¬ Inserts s (.insert key v)) :
    ¬ Agrees (s.1.insert key v, s.2.after (.insert key v)) := by
  intro h
  have hvalue : (s.2.after (.insert key v)).value key = some v := Function.update_self _ _ _
  have hzero : 0 ∉ key.val ++ equals :: v := by
    obtain ⟨e, -, he⟩ := mem_make_environ.mp (h.environ key v hvalue)
    rw [← he]
    exact zero_notMem_c_str e
  have hk : 0 ∉ key.val := fun hmem => hzero (List.mem_append_left _ hmem)
  have hv : 0 ∉ v := fun hmem => hzero (List.mem_append_right _ (List.mem_cons_of_mem _ hmem))
  have hone := h.once key List.mem_cons_self
  rw [hvalue, count_make_environ (plain_insert hplain hk hv), count_insert, if_pos rfl] at hone
  apply hbad
  refine ⟨?_, hk, hv⟩
  rw [contains_eq_isSome, (count_eq_zero_iff s.1 key.val).mp (Nat.succ.inj hone)]
  rfl

/-- The environment is a map in exactly the runs that insert only keys that it does not have, and
strings without zeros. -/
theorem environment_is_map_iff (initial_env : List { s : List UInt8 // 0 ∉ s })
    (as : List Operation) :
    Throughout step Agrees (start initial_env) as ↔ Meets step Inserts (start initial_env) as := by
  obtain ⟨t, hrun⟩ := run_of_total (fun s a => ⟨_, rfl⟩) (start initial_env) as
  refine @throughout_iff_meets _ _ step Inserts (fun _ => True) Kept Agrees
    (fun _ _ _ _ _ => trivial) ?_ (fun _ _ h => h.agrees) ?_ _ _ _ trivial
    (kept_start initial_env) hrun
  · intro s a t _ hsafe hgood hstep
    obtain rfl := Option.some.inj hstep
    cases a with
    | insert key v => exact hsafe.insert hgood
    | erase key => exact hsafe.erase
  · intro s a t _ hsafe hbad hstep
    obtain rfl := Option.some.inj hstep
    cases a with
    | insert key v => exact not_agrees_insert hsafe.plain hbad
    | erase key => exact absurd trivial hbad

/-- `A=1`, and the value that is to overwrite the one of `A`. -/
def hasA : List { s : List UInt8 // 0 ∉ s } := [⟨[65, 61, 49], by decide⟩]

def overwriteA : List Operation := [.insert ⟨[65], by decide⟩ [50]]

/-- The old value is found. -/
theorem overwriteA_keeps : ∃ s, run step (start hasA) overwriteA = some s ∧
    s.2.value ⟨[65], by decide⟩ = some [50] ∧ s.1.get [65] = some [49] :=
  ⟨_, rfl, rfl, by decide⟩

end ProcessEnvironment
