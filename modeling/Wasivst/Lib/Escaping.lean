import Mathlib.Data.List.Basic

/-!
# Escapes with a marker

A table says which symbols are replaced, and by what. When every replacement starts with a marker
that is replaced itself, a text can be read back: what does not follow a marker stands for itself.
-/

set_option autoImplicit false

namespace Escaping
variable {α : Type} [DecidableEq α]

/-! ## Writing -/

def replaced (entries : List (α × List α)) (c : α) : List α := (entries.lookup c).getD [c]

def escape (entries : List (α × List α)) (s : List α) : List α := s.flatMap (replaced entries)

variable {entries : List (α × List α)} {c : α}

theorem escape_cons (a : α) (s : List α) :
    escape entries (a :: s) = replaced entries a ++ escape entries s := List.flatMap_cons

variable (entries) in
theorem replaced_cases (a : α) :
    (∃ e, (a, e) ∈ entries ∧ replaced entries a = e) ∨
      (entries.lookup a = none ∧ replaced entries a = [a]) := by
  unfold replaced
  cases h : entries.lookup a with
  | none => exact Or.inr ⟨rfl, rfl⟩
  | some e =>
    obtain ⟨before, after, hsplit, -⟩ := List.lookup_eq_some_iff.mp h
    refine Or.inl ⟨e, ?_, rfl⟩
    rw [hsplit]
    exact List.mem_append_right before List.mem_cons_self

/-- A symbol that is kept and that no replacement contains occurs as often as in the text. -/
theorem count_escape (hfree : ∀ e ∈ entries, c ∉ e.2) (hc : entries.lookup c = none)
    (s : List α) : (escape entries s).count c = s.count c := by
  induction s with
  | nil => rfl
  | cons a s ih =>
    rw [escape_cons, List.count_append, ih]
    rcases replaced_cases entries a with ⟨e, he, hr⟩ | ⟨hnone, hr⟩
    · have hne : a ≠ c := by
        intro heq
        have hself : replaced entries a = [a] := by rw [replaced, heq, hc]; rfl
        have hmem : c ∈ e := by rw [← hr, hself, heq]; exact List.mem_singleton_self c
        exact hfree (a, e) he hmem
      rw [hr, List.count_eq_zero.mpr (hfree (a, e) he), List.count_cons_of_ne hne, Nat.zero_add]
    · rw [hr, ← List.count_append, List.singleton_append]

theorem notMem_escape (hfree : ∀ e ∈ entries, c ∉ e.2) (hc : entries.lookup c ≠ none)
    (s : List α) : c ∉ escape entries s := by
  intro hmem
  obtain ⟨a, -, ha⟩ := List.mem_flatMap.mp hmem
  rcases replaced_cases entries a with ⟨e, he, hr⟩ | ⟨hnone, hr⟩
  · rw [hr] at ha
    exact hfree (a, e) he ha
  · rw [hr] at ha
    exact hc (List.mem_singleton.mp ha ▸ hnone)

/-! ## Reading back -/

/-- `read` takes what stands behind a marker. There are at most `n` symbols to be read. -/
def decodeN (marker : α) (read : List α → Option (α × List α)) : Nat → List α → Option (List α)
  | _, [] => some []
  | 0, _ :: _ => none
  | n + 1, c :: s =>
    if c = marker then (read s).bind fun p => (decodeN marker read n p.2).map (p.1 :: ·)
    else (decodeN marker read n s).map (c :: ·)

def decode (marker : α) (read : List α → Option (α × List α)) (s : List α) : Option (List α) :=
  decodeN marker read s.length s

variable {marker : α} {read : List α → Option (α × List α)}

variable (marker read entries) in
structure Readable : Prop where
  marker_replaced : entries.lookup marker ≠ none
  reads : ∀ e ∈ entries, ∃ tail, e.2 = marker :: tail ∧ marker ∉ tail ∧
    ∀ rest, read (tail ++ rest) = some (e.1, rest)

theorem decodeN_escape (h : Readable entries marker read) (s : List α) (n : Nat)
    (hn : (escape entries s).length ≤ n) : decodeN marker read n (escape entries s) = some s := by
  induction s generalizing n with
  | nil => cases n <;> rfl
  | cons a s ih =>
    rw [escape_cons] at hn ⊢
    rcases replaced_cases entries a with ⟨e, he, hr⟩ | ⟨hnone, hr⟩
    · obtain ⟨tail, htail, -, hread⟩ := h.reads (a, e) he
      change e = marker :: tail at htail
      rw [hr, htail, List.cons_append, List.length_cons, List.length_append] at hn
      obtain ⟨m, rfl⟩ : ∃ m, n = m + 1 := ⟨n - 1, by omega⟩
      rw [hr, htail, List.cons_append, decodeN, if_pos rfl, hread, Option.bind_some,
        ih m (by omega)]
      rfl
    · have hne : a ≠ marker := fun heq => h.marker_replaced (heq ▸ hnone)
      rw [hr, List.singleton_append, List.length_cons] at hn
      obtain ⟨m, rfl⟩ : ∃ m, n = m + 1 := ⟨n - 1, by omega⟩
      rw [hr, List.singleton_append, decodeN, if_neg hne, ih m (by omega)]
      rfl

theorem decode_escape (h : Readable entries marker read) (s : List α) :
    decode marker read (escape entries s) = some s := decodeN_escape h s _ Nat.le.refl

/-- The name in front of `s` and the symbol that it stands for. -/
def readName (names : List (α × List α)) (s : List α) : Option (α × List α) :=
  names.findSome? fun e => if e.2 <+: s then some (e.1, s.drop e.2.length) else none

/-- No name is the beginning of another. -/
def PrefixFree (names : List (α × List α)) : Prop :=
  names.Pairwise fun d e => ¬ d.2 <+: e.2 ∧ ¬ e.2 <+: d.2

theorem readName_of_mem {names : List (α × List α)} (hfree : PrefixFree names) {e : α × List α}
    (he : e ∈ names) (rest : List α) : readName names (e.2 ++ rest) = some (e.1, rest) := by
  unfold readName
  induction names with
  | nil => exact absurd he List.not_mem_nil
  | cons d names ih =>
    obtain ⟨hfirst, hothers⟩ := List.pairwise_cons.mp hfree
    rw [List.findSome?_cons]
    rcases List.mem_cons.mp he with heq | hmem
    · rw [heq, if_pos (List.prefix_append _ _), List.drop_left]
    · have hnot : ¬ d.2 <+: e.2 ++ rest := by
        intro hprefix
        obtain ⟨hde, hed⟩ := hfirst e hmem
        rcases Nat.le_total d.2.length e.2.length with hle | hle
        · exact hde (List.prefix_of_prefix_length_le hprefix (List.prefix_append _ _) hle)
        · exact hed (List.prefix_of_prefix_length_le (List.prefix_append _ _) hprefix hle)
      rw [if_neg hnot]
      exact ih hothers hmem

/-! ## Where the marker stands -/

/-- Each marker is the start of one of `escapes`. -/
def Opens (escapes : List (List α)) (marker : α) (s : List α) : Prop :=
  ∀ t, t <:+ s → t.head? = some marker → ∃ e ∈ escapes, e <+: t

variable {escapes : List (List α)}

omit [DecidableEq α] in
theorem Opens.of_notMem {s : List α} (h : marker ∉ s) : Opens escapes marker s := by
  intro t ht hhead
  exact absurd (ht.subset (List.mem_of_mem_head? hhead)) h

omit [DecidableEq α] in
theorem Opens.append {xs s : List α} (hxs : marker ∉ xs) (hs : Opens escapes marker s) :
    Opens escapes marker (xs ++ s) := by
  induction xs with
  | nil => exact hs
  | cons x xs ih =>
    intro t ht hhead
    rcases List.suffix_cons_iff.mp ht with hall | hsuffix
    · rw [hall] at hhead
      exact absurd (Option.some.inj hhead ▸ List.mem_cons_self) hxs
    · exact ih (fun hmem => hxs (List.mem_cons_of_mem x hmem)) t hsuffix hhead

theorem opens_escape (h : Readable entries marker read) (s : List α) :
    Opens (entries.map Prod.snd) marker (escape entries s) := by
  induction s with
  | nil => exact Opens.of_notMem List.not_mem_nil
  | cons a s ih =>
    rw [escape_cons]
    rcases replaced_cases entries a with ⟨e, he, hr⟩ | ⟨hnone, hr⟩
    · obtain ⟨tail, htail, hnot, -⟩ := h.reads (a, e) he
      change e = marker :: tail at htail
      rw [hr]
      intro t ht hhead
      rw [htail, List.cons_append] at ht
      rcases List.suffix_cons_iff.mp ht with hall | hsuffix
      · refine ⟨e, List.mem_map_of_mem he, ?_⟩
        rw [hall, htail, ← List.cons_append]
        exact List.prefix_append _ _
      · exact Opens.append hnot ih t hsuffix hhead
    · have hne : a ≠ marker := fun heq => h.marker_replaced (heq ▸ hnone)
      rw [hr]
      exact Opens.append (fun hmem => hne (List.mem_singleton.mp hmem).symm) ih

end Escaping
