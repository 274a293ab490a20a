import Mathlib.Data.List.AList
import Mathlib.Data.Finset.Card
import Mathlib.Data.Finset.Dedup

/-!
# Maps and the entries that made them

A map is an association list, and the order of its list is the order in which it is iterated. A map
is made by setting entries one after another, and copied by setting those of another map in the
order of an iteration.
-/

set_option autoImplicit false

namespace Replay
variable {κ α : Type}

abbrev Entry (κ α : Type) := Σ _ : κ, α

abbrev Map (κ α : Type) := AList fun _ : κ => α

/-- The same entries, in orders of their own. -/
def Same (m m' : Map κ α) : Prop := m.entries.Perm m'.entries

theorem Same.refl (m : Map κ α) : Same m m := List.Perm.refl _

variable [DecidableEq κ]

def insertAll (m : Map κ α) (es : List (Entry κ α)) : Map κ α :=
  es.foldl (fun m e => m.insert e.1 e.2) m

/-- The value that a key was given last. -/
def last (es : List (Entry κ α)) (k : κ) : Option α := es.reverse.dlookup k

theorem last_cons (e : Entry κ α) (es : List (Entry κ α)) (k : κ) :
    last (e :: es) k = (last es k).or (if k = e.1 then some e.2 else none) := by
  unfold last
  rw [List.reverse_cons, List.dlookup_append]
  split_ifs with hk
  · subst hk
    rw [List.dlookup_cons_eq]
  · rw [List.dlookup_cons_ne _ _ hk, List.dlookup_nil]

theorem last_eq_none {es : List (Entry κ α)} {k : κ} (h : ∀ e ∈ es, e.1 ≠ k) :
    last es k = none := by
  refine List.dlookup_eq_none.mpr ?_
  intro hk
  obtain ⟨a, ha⟩ := List.exists_of_mem_keys hk
  exact h _ (List.mem_reverse.mp ha) rfl

theorem mem_of_last {es : List (Entry κ α)} {k : κ} {a : α} (h : last es k = some a) :
    (⟨k, a⟩ : Entry κ α) ∈ es :=
  List.mem_reverse.mp (List.of_mem_dlookup h)

theorem last_of_mem {es : List (Entry κ α)} {e : Entry κ α} (h : e ∈ es) :
    ∃ a, last es e.1 = some a := by
  have hkey : e.1 ∈ es.reverse.keys := List.mem_map_of_mem (List.mem_reverse.mpr h)
  exact Option.isSome_iff_exists.mp (List.dlookup_isSome.mpr hkey)

/-- The last writer wins, and a key that is not written keeps its value. -/
theorem lookup_insertAll (m : Map κ α) (es : List (Entry κ α)) (k : κ) :
    (insertAll m es).lookup k = (last es k).or (m.lookup k) := by
  induction es generalizing m with
  | nil => rfl
  | cons e es ih =>
    have hstep : (insertAll m (e :: es)) = insertAll (m.insert e.1 e.2) es := rfl
    rw [hstep, ih, last_cons, Option.or_assoc]
    congr 1
    split_ifs with hk
    · subst hk
      rw [AList.lookup_insert, Option.some_or]
    · rw [AList.lookup_insert_ne hk, Option.none_or]

theorem last_of_nodupKeys {es : List (Entry κ α)} (h : es.NodupKeys) (k : κ) :
    last es k = es.dlookup k :=
  (List.perm_dlookup k h (List.reverse_perm es).symm).symm

theorem last_entries (m : Map κ α) (k : κ) : last m.entries k = m.lookup k :=
  last_of_nodupKeys m.nodupKeys k

theorem Same.lookup {m m' : Map κ α} (h : Same m m') (k : κ) : m.lookup k = m'.lookup k :=
  AList.perm_lookup h

/-- A map made from nothing has an entry for each key that was set. -/
theorem insertAll_empty_length (es : List (Entry κ α)) :
    (insertAll ∅ es).entries.length = (es.map Sigma.fst).toFinset.card := by
  have hkeys : (insertAll ∅ es).keys.toFinset = (es.map Sigma.fst).toFinset := by
    ext k
    rw [List.mem_toFinset, List.mem_toFinset, ← AList.mem_keys, ← AList.lookup_isSome,
      lookup_insertAll, AList.lookup_empty, Option.or_none, last, List.dlookup_isSome]
    simp [List.keys]
  rw [← hkeys, List.toFinset_card_of_nodup (AList.keys_nodup _)]
  exact (List.length_map _).symm

theorem dedupKeys_eq {es : List (Entry κ α)} (h : es.NodupKeys) :
    es.dedupKeys = es := by
  induction es with
  | nil => rfl
  | cons e es ih =>
    obtain ⟨hnot, hrest⟩ := List.nodupKeys_cons.mp h
    rw [List.dedupKeys_cons, ih hrest, List.kinsert_def, List.kerase_of_notMem_keys hnot]

theorem toAList_entries (m : Map κ α) : m.entries.toAList = m :=
  AList.ext (dedupKeys_eq m.nodupKeys)

end Replay
