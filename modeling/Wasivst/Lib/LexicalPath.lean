import Mathlib.Data.List.Induction
import Mathlib.Algebra.Group.Nat.Defs

/-!
# Paths without a file system

A path is a list of components, and where it leads is told without asking what there is: a name goes
down, two dots undo the last name, and above the root there is nothing. A relative path may go up
above the place where it starts.
-/

set_option autoImplicit false

namespace LexicalPath
variable {ν : Type}

inductive Component (ν : Type)
  | here
  | up
  | down (name : ν)

open Component

/-- The directories above the start, then the names that lead down, the last one first. -/
@[ext] structure Place (ν : Type) where
  ups : Nat
  names : List ν
  deriving DecidableEq

namespace Place

def start : Place ν := ⟨0, []⟩

def step (absolute : Bool) (s : Place ν) : Component ν → Place ν
  | here => s
  | down n => { s with names := n :: s.names }
  | up =>
    match s.names with
    | [] => if absolute then s else { s with ups := s.ups + 1 }
    | _ :: names => { s with names }

def walk (absolute : Bool) (path : List (Component ν)) : Place ν :=
  path.foldl (step absolute) start

def Below (s t : Place ν) : Prop := s.ups = t.ups ∧ ∃ rest, rest ≠ [] ∧ s.names = rest ++ t.names

theorem Below.length_lt {s t : Place ν} (h : s.Below t) : t.names.length < s.names.length := by
  obtain ⟨-, rest, hne, hnames⟩ := h
  have hpos := List.length_pos_iff.mpr hne
  rw [hnames, List.length_append]
  omega

end Place

/-- How far below the place `d` directories below its start a path leads, if it never goes above
the start. -/
def descent : Nat → List (Component ν) → Option Nat
  | d, [] => some d
  | d, here :: path => descent d path
  | d, down _ :: path => descent (d + 1) path
  | 0, up :: _ => none
  | d + 1, up :: path => descent d path

theorem descent_append (d : Nat) (p q : List (Component ν)) :
    descent d (p ++ q) = (descent d p).bind fun e => descent e q := by
  induction p generalizing d with
  | nil => rfl
  | cons c p ih =>
    cases c with
    | here => exact ih d
    | down n => exact ih (d + 1)
    | up =>
      cases d with
      | zero => rfl
      | succ d => exact ih d

namespace Place
variable {absolute : Bool}

theorem walk_append_singleton (p : List (Component ν)) (c : Component ν) :
    walk absolute (p ++ [c]) = (walk absolute p).step absolute c := by
  rw [walk, List.foldl_append]
  rfl

/-- What a path that stays below its start adds to the names. -/
theorem foldl_step_of_descent {q : List (Component ν)} {d e : Nat} (h : descent d q = some e)
    {s t : Place ν} {names : List ν} (hd : names.length = d) (hups : s.ups = t.ups)
    (hs : s.names = names ++ t.names) :
    (q.foldl (step absolute) s).ups = t.ups ∧
      ∃ names', names'.length = e ∧ (q.foldl (step absolute) s).names = names' ++ t.names := by
  induction q generalizing d s names with
  | nil =>
    obtain rfl := Option.some.inj h
    exact ⟨hups, names, hd, hs⟩
  | cons c q ih =>
    cases c with
    | here => exact ih h hd hups hs
    | down n =>
      have hlength : (n :: names).length = d + 1 := by rw [List.length_cons, hd]
      exact ih h hlength hups (by rw [step, hs]; rfl)
    | up =>
      cases d with
      | zero => cases h
      | succ d =>
        obtain ⟨n, names, rfl⟩ := List.exists_cons_of_length_eq_add_one hd
        have hstep : s.step absolute up = { s with names := names ++ t.names } := by
          rw [step, hs]
          rfl
        rw [List.foldl_cons, hstep]
        exact ih h (Nat.succ.inj hd) hups rfl

/-- A path that ends with `t`'s names below others has been at `t`, and has stayed below it since.
The induction is on the last component. -/
theorem descends_of_walk {t : Place ν} (path : List (Component ν)) (names : List ν)
    (hups : (walk absolute path).ups = t.ups)
    (hnames : (walk absolute path).names = names ++ t.names) :
    ∃ p q, path = p ++ q ∧ walk absolute p = t ∧ descent 0 q = some names.length := by
  induction path using List.reverseRecOn generalizing names with
  | nil =>
    obtain ⟨rfl, ht⟩ := List.append_eq_nil_iff.mp hnames.symm
    exact ⟨[], [], rfl, Place.ext hups ht.symm, rfl⟩
  | append_singleton path c ih =>
    cases names with
    | nil => exact ⟨path ++ [c], [], (List.append_nil _).symm, Place.ext hups hnames, rfl⟩
    | cons n names =>
      have hlonger : ∀ names' : List ν, (walk absolute path).ups = t.ups →
          (walk absolute path).names = names' ++ t.names →
          descent names'.length [c] = some (n :: names).length →
          ∃ p q, path ++ [c] = p ++ q ∧ walk absolute p = t ∧
            descent 0 q = some (n :: names).length := by
        intro names' hups hnames hlast
        obtain ⟨p, q, hpath, hp, hq⟩ := ih names' hups hnames
        refine ⟨p, q ++ [c], by rw [hpath, List.append_assoc], hp, ?_⟩
        rw [descent_append, hq]
        exact hlast
      rw [walk_append_singleton] at hups hnames
      cases c with
      | here => exact hlonger (n :: names) hups hnames rfl
      | down m => exact hlonger names hups (List.cons.inj hnames).2 rfl
      | up =>
        cases hold : (walk absolute path).names with
        | nil =>
          rw [step, hold] at hnames
          cases absolute with
          | true => cases hold.symm.trans hnames
          | false => cases hnames
        | cons m rest =>
          rw [step, hold] at hups hnames
          exact hlonger (m :: n :: names) hups (by rw [hold, show rest = _ from hnames]; rfl) rfl

/-- A path leads below a place if and only if it comes by that place, does not go above it from
there on and ends below it. -/
theorem walk_below_iff {path : List (Component ν)} {t : Place ν} :
    (walk absolute path).Below t ↔
      ∃ p q d, path = p ++ q ∧ walk absolute p = t ∧ descent 0 q = some (d + 1) := by
  constructor
  · intro h
    rcases h with ⟨hups, names, hne, hnames⟩
    obtain ⟨p, q, hpath, hp, hq⟩ := descends_of_walk path names hups hnames
    obtain ⟨d, hd⟩ := Nat.exists_eq_succ_of_ne_zero
      (fun h0 => hne (List.length_eq_zero_iff.mp h0))
    exact ⟨p, q, d, hpath, hp, by rw [hq, hd]⟩
  · intro h
    rcases h with ⟨p, q, d, rfl, hp, hq⟩
    have hwalk : walk absolute (p ++ q) = q.foldl (step absolute) t := by
      rw [walk, List.foldl_append, ← hp]
      rfl
    have hbelow : (q.foldl (step absolute) t).ups = t.ups ∧ ∃ names,
        names.length = d + 1 ∧ (q.foldl (step absolute) t).names = names ++ t.names :=
      foldl_step_of_descent hq rfl rfl (List.nil_append t.names).symm
    obtain ⟨hups, names, hlength, hnames⟩ := hbelow
    rw [hwalk]
    refine ⟨hups, names, ?_, hnames⟩
    intro hnil
    rw [hnil] at hlength
    cases hlength

end Place
end LexicalPath
