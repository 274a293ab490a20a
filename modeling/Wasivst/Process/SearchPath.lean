import Wasivst.Lib.Separated
import Wasivst.Lib.Transition
import Mathlib.Algebra.Group.Nat.Defs

/-!
# Search paths

`split_path` cuts the value of an environment variable such as `PATH` at its colons. The index of
the loop may reach the end of the text, which is then not searched again: a colon at the end adds
no empty segment, a colon at the beginning or behind another does.
-/

set_option autoImplicit false

namespace Process
open Separated

def colon : UInt8 := 58

/-! ## Searching a string view -/

/-- `none` is `std::string_view::npos`. -/
def find (s : List UInt8) (c : UInt8) (pos : Nat) : Option Nat :=
  ((s.drop pos).idxOf? c).map fun i => pos + i

def substr (s : List UInt8) (pos count : Nat) : List UInt8 := (s.drop pos).take count

theorem substr_rest (s : List UInt8) (pos : Nat) : substr s pos (s.length - pos) = s.drop pos :=
  List.take_of_length_le (Nat.le_of_eq List.length_drop)

theorem find_eq_none_iff {s : List UInt8} {c : UInt8} {pos : Nat} :
    find s c pos = none ↔ c ∉ s.drop pos := by
  unfold find
  rw [Option.map_eq_none_iff, List.idxOf?_eq_none_iff]

/-- What stands before the first `c` from `pos` on, and what stands behind it. -/
theorem find_eq_some {s : List UInt8} {c : UInt8} {pos i : Nat} (h : find s c pos = some i) :
    pos ≤ i ∧ i < s.length ∧ c ∉ substr s pos (i - pos) ∧
      s.drop pos = substr s pos (i - pos) ++ c :: s.drop (i + 1) := by
  unfold find at h
  obtain ⟨n, hn, rfl⟩ := Option.map_eq_some_iff.mp h
  obtain ⟨hlt, hnot, hsplit⟩ := Separated.idxOf?_eq_some hn
  have hrest : s.drop (pos + n + 1) = (s.drop pos).drop (n + 1) := by
    rw [List.drop_drop, Nat.add_assoc]
  rw [List.length_drop] at hlt
  rw [Nat.add_sub_cancel_left, hrest]
  exact ⟨by omega, by omega, hnot, hsplit⟩

/-! ## The loop -/

section
variable {P : Type} (path : List UInt8 → P)

structure Split (P : Type) where
  segment_begin : Nat
  search_path : List P

/-- One pass; the exception is the end of the loop and carries what is returned. `path` is the
constructor of `ghc::filesystem::path`. -/
def splitPass (path_env : List UInt8) (s : Split P) : Except (List P) (Split P) :=
  if s.segment_begin = path_env.length then .error s.search_path
  else
    match find path_env colon s.segment_begin with
    | none =>
      let segment := substr path_env s.segment_begin (path_env.length - s.segment_begin)
      .error (s.search_path ++ [path segment])
    | some segment_end =>
      let segment := substr path_env s.segment_begin (segment_end - s.segment_begin)
      .ok ⟨segment_end + 1, s.search_path ++ [path segment]⟩

/-- `none` when the loop has not ended within `n` passes. -/
def split_path (n : Nat) (path_env : List UInt8) : Option (List P) :=
  (Transition.loop (splitPass path path_env) n ⟨0, []⟩).2

/-- What is left to cut, and what has been cut off: each segment with its colon. -/
structure Cut (path_env : List UInt8) (segments : List (List UInt8)) (s : Split P) : Prop where
  bound : s.segment_begin ≤ path_env.length
  returned : s.search_path = segments.map path
  no_colon : ∀ segment ∈ segments, colon ∉ segment
  joined : path_env =
    segments.flatMap (fun segment => segment ++ [colon]) ++ path_env.drop s.segment_begin

variable {path} {path_env : List UInt8} {s t : Split P}

theorem Cut.start : Cut path path_env [] ⟨0, []⟩ where
  bound := Nat.zero_le _
  returned := rfl
  no_colon := fun _ h => absurd h List.not_mem_nil
  joined := rfl

theorem splitPass_ok (h : splitPass path path_env s = .ok t) :
    ∃ e, find path_env colon s.segment_begin = some e ∧ t.segment_begin = e + 1 ∧
      t.search_path =
        s.search_path ++ [path (substr path_env s.segment_begin (e - s.segment_begin))] := by
  unfold splitPass at h
  split at h
  · cases h
  · split at h
    · cases h
    · rename_i e he
      obtain rfl := Except.ok.inj h
      exact ⟨e, he, rfl, rfl⟩

theorem splitPass_shrinks (h : splitPass path path_env s = .ok t) :
    path_env.length - t.segment_begin < path_env.length - s.segment_begin := by
  obtain ⟨e, he, ht, -⟩ := splitPass_ok h
  obtain ⟨hle, hlt, -, -⟩ := find_eq_some he
  omega

theorem Cut.pass {segments : List (List UInt8)} (hcut : Cut path path_env segments s)
    (h : splitPass path path_env s = .ok t) : ∃ segments, Cut path path_env segments t := by
  obtain ⟨e, he, hbegin, hpath⟩ := splitPass_ok h
  obtain ⟨hle, hlt, hcolon, hdrop⟩ := find_eq_some he
  refine ⟨segments ++ [substr path_env s.segment_begin (e - s.segment_begin)], ?_⟩
  constructor
  · omega
  · rw [hpath, hcut.returned, List.map_append, List.map_singleton]
  · intro segment hmem
    rcases List.mem_append.mp hmem with hold | hnew
    · exact hcut.no_colon segment hold
    · rw [List.mem_singleton.mp hnew]
      exact hcolon
  · rw [hbegin, List.flatMap_append, List.flatMap_singleton, List.append_assoc, List.append_assoc,
      List.singleton_append, ← hdrop]
    exact hcut.joined

theorem Cut.iterate (h : Transition.Iterates (splitPass path path_env) ⟨0, []⟩ t) :
    ∃ segments, Cut path path_env segments t := by
  induction h with
  | refl => exact ⟨[], Cut.start⟩
  | tail _ hpass ih =>
    obtain ⟨segments, hcut⟩ := ih
    exact hcut.pass hpass

end

/-! ## Joining the segments -/

/-- What `segments` are joined to, with a colon at the end when the text has one there. -/
def rejoined (path_env : List UInt8) (segments : List (List UInt8)) : List UInt8 :=
  [colon].intercalate segments ++ if path_env.getLast? = some colon then [colon] else []

/-- The loop ended on reaching the end of the text. -/
theorem rejoined_of_end {path_env : List UInt8} {segments : List (List UInt8)}
    (h : path_env = segments.flatMap fun segment => segment ++ [colon]) :
    rejoined path_env segments = path_env := by
  unfold rejoined
  rcases List.eq_nil_or_concat segments with hnil | ⟨before, last, hlast⟩
  · rw [h, hnil]
    rfl
  · rw [hlast, List.concat_eq_append] at h ⊢
    have hend : path_env = [colon].intercalate (before ++ [last]) ++ [colon] := by
      rw [h, intercalate_append_singleton]
      simp
    rw [if_pos (by rw [hend, List.getLast?_concat])]
    exact hend.symm

/-- The loop ended because no colon was left. -/
theorem rejoined_of_rest {path_env rest : List UInt8} {segments : List (List UInt8)}
    (h : path_env = segments.flatMap (fun segment => segment ++ [colon]) ++ rest)
    (hne : rest ≠ []) (hcolon : colon ∉ rest) :
    rejoined path_env (segments ++ [rest]) = path_env := by
  have hlast : path_env.getLast? ≠ some colon := by
    intro hlast
    rw [h, List.getLast?_append_of_ne_nil _ hne] at hlast
    exact hcolon (List.mem_of_getLast? hlast)
  unfold rejoined
  rw [if_neg hlast, List.append_nil, intercalate_append_singleton]
  exact h.symm

/-- The state in which the last pass starts gives what is returned. -/
theorem Cut.returns {P : Type} {path : List UInt8 → P} {path_env : List UInt8}
    {segments : List (List UInt8)} {s : Split P} {result : List P}
    (hcut : Cut path path_env segments s) (h : splitPass path path_env s = .error result) :
    ∃ segments, result = segments.map path ∧ (∀ segment ∈ segments, colon ∉ segment) ∧
      rejoined path_env segments = path_env := by
  unfold splitPass at h
  have hjoined := hcut.joined
  split at h
  · rename_i hend
    obtain rfl := Except.error.inj h
    rw [hend, List.drop_length, List.append_nil] at hjoined
    exact ⟨segments, hcut.returned, hcut.no_colon, rejoined_of_end hjoined⟩
  · rename_i hmore
    split at h
    · rename_i hnone
      have hbound := hcut.bound
      have hrest := find_eq_none_iff.mp hnone
      have hne : path_env.drop s.segment_begin ≠ [] := by
        rw [Ne, List.drop_eq_nil_iff]
        omega
      obtain rfl := Except.error.inj h
      refine ⟨segments ++ [path_env.drop s.segment_begin], ?_, ?_, ?_⟩
      · rw [substr_rest, hcut.returned, List.map_append, List.map_singleton]
      · intro segment hmem
        rcases List.mem_append.mp hmem with hold | hnew
        · exact hcut.no_colon segment hold
        · rw [List.mem_singleton.mp hnew]
          exact hrest
      · exact rejoined_of_rest hjoined hne hrest
    · cases h

/-- One pass more than there are characters is enough for any text. `path` is the constructor of the
path type, which may put doubled slashes together; nothing is lost of what it is given. -/
theorem split_path_loses_nothing {P : Type} (path : List UInt8 → P) (path_env : List UInt8) :
    ∃ segments, (∀ n, path_env.length < n →
        split_path path n path_env = some (segments.map path)) ∧
      (∀ segment ∈ segments, colon ∉ segment) ∧ rejoined path_env segments = path_env := by
  have hshrinks : ∀ s t : Split P, splitPass path path_env s = .ok t →
      path_env.length - t.segment_begin < path_env.length - s.segment_begin :=
    fun _ _ => splitPass_shrinks
  obtain ⟨t, result, hiterates, hstop, -⟩ :=
    Transition.loop_ends hshrinks ⟨0, []⟩ _ (Nat.lt_succ_self (path_env.length - 0))
  obtain ⟨segments, hcut⟩ := Cut.iterate hiterates
  obtain ⟨returned, hresult, hcolon, hjoined⟩ := hcut.returns hstop
  refine ⟨returned, ?_, hcolon, hjoined⟩
  intro n hn
  have hloop := Transition.loop_of_iterates hshrinks hiterates hstop n
    (show path_env.length - 0 < n from hn)
  unfold split_path
  rw [hloop, hresult]

example : split_path id 9 [47, 97, 58, 58, 47, 98, 58] = some [[47, 97], [], [47, 98]] := by decide

end Process
