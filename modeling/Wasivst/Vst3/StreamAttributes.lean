import Wasivst.Vst3.AttributeTransfer

/-!
# Preset meta data

The attributes of a host's stream are read through a scratch buffer and later written back into the
list they came from. What a string loses on the way out is then lost in the host's list.
-/

set_option autoImplicit false

namespace Vst3
open Replay

/-! ## What is read -/

/-- A string after its way through the getter and the scratch buffer. -/
def restored (s : List UInt16) : List UInt16 := terminated (s.take 127)

theorem restored_terminated (s : List UInt16) : terminated (restored s) = restored s :=
  terminated_terminated _

theorem restored_eq_self_iff (s : List UInt16) : restored s = s ↔ s.length ≤ 127 ∧ 0 ∉ s := by
  constructor
  · intro h
    have hlen := (terminated_length_le (s.take 127)).trans (List.length_take_le 127 s)
    have hzero := zero_notMem_terminated (s.take 127)
    change terminated (s.take 127) = s at h
    rw [h] at hlen hzero
    exact ⟨hlen, hzero⟩
  · rintro ⟨hlen, hzero⟩
    rw [restored, List.take_of_length_le hlen, terminated_eq_self hzero]

/-- The entry that a key of the host's list leads to. -/
def readEntry (host : YaAttributeList) (key : AttrID) : Option (Entry AttrID (List UInt16)) :=
  (host.attrs_string_.lookup (terminated key)).map fun s => ⟨terminated key, restored s⟩

theorem getString_scratch (host : YaAttributeList) (key : AttrID) :
    host.getString key true 256 =
      (found (host.attrs_string_.lookup (terminated key))).map fun s => s.take 127 ++ [0] := by
  have hcopy : ∀ s : List UInt16,
      s.take (YaAttributeList.copy_characters 256 s.length) = s.take 127 := by
    intro s
    rw [YaAttributeList.copy_characters_of_le (by decide)]
    have hbytes : (256 : UInt32).toNat / 2 - 1 = 127 := rfl
    rw [hbytes, List.take_eq_take_iff]
    omega
  unfold YaAttributeList.getString
  simp only [hcopy]
  rfl

/-- The loop over the keys. The units that an earlier key left in the buffer are behind the
terminator. -/
theorem foldl_readStreamAttribute (host : YaAttributeList) (keys : List AttrID)
    (s : YaAttributeList × List UInt16) :
    (keys.foldl (YaAttributeList.readStreamAttribute host) s).1 =
      { s.1 with
        attrs_string_ := insertAll s.1.attrs_string_ (keys.filterMap (readEntry host)) } := by
  induction keys generalizing s with
  | nil => rfl
  | cons key keys ih =>
    rw [List.foldl_cons, ih]
    unfold YaAttributeList.readStreamAttribute
    simp only [getString_scratch, List.filterMap_cons]
    cases hs : host.attrs_string_.lookup (terminated key) with
    | none => simp [readEntry, hs, found, Except.map]
    | some v =>
      have hbuffer : ∀ rest, terminated (v.take 127 ++ [0] ++ rest) = restored v := by
        intro rest
        rw [List.append_assoc, List.singleton_append, terminated_append_zero]
        rfl
      simp only [readEntry, hs, found, Except.map, YaAttributeList.setString, hbuffer]
      rfl

theorem read_stream_attributes_eq (keys : List AttrID) (host : YaAttributeList) :
    YaAttributeList.read_stream_attributes keys host =
      { YaAttributeList.empty with
        attrs_string_ := insertAll ∅ (keys.filterMap (readEntry host)) } :=
  foldl_readStreamAttribute host keys _

/-- The string of a key that was read. -/
theorem last_readEntry {host : YaAttributeList} {keys : List AttrID} {k : AttrID}
    {v : List UInt16} (h : last (keys.filterMap (readEntry host)) k = some v) :
    ∃ key ∈ keys, terminated key = k ∧
      ∃ s, host.attrs_string_.lookup k = some s ∧ v = restored s := by
  obtain ⟨key, hkey, hread⟩ := List.mem_filterMap.mp (mem_of_last h)
  obtain ⟨s, hs, heq⟩ := Option.map_eq_some_iff.mp hread
  obtain ⟨rfl, rfl⟩ := Sigma.mk.inj heq
  exact ⟨key, hkey, rfl, s, hs, rfl⟩

theorem last_of_readEntry {host : YaAttributeList} {keys : List AttrID} {key : AttrID}
    (hkey : key ∈ keys) {s : List UInt16}
    (hs : host.attrs_string_.lookup (terminated key) = some s) :
    last (keys.filterMap (readEntry host)) (terminated key) = some (restored s) := by
  have hmem : (⟨terminated key, restored s⟩ : Entry AttrID (List UInt16)) ∈
      keys.filterMap (readEntry host) :=
    List.mem_filterMap.mpr ⟨key, hkey, by rw [readEntry, hs, Option.map_some]⟩
  obtain ⟨v, hv⟩ := last_of_mem hmem
  obtain ⟨_, _, _, t, ht, rfl⟩ := last_readEntry hv
  rw [hv, Option.some.inj (ht.symm.trans hs)]

/-! ## What is written back -/

/-- All getters find what they found before. -/
structure Unchanged (host host' : YaAttributeList) : Prop where
  ints : ∀ k, host'.attrs_int_.lookup k = host.attrs_int_.lookup k
  floats : ∀ k, host'.attrs_float_.lookup k = host.attrs_float_.lookup k
  strings : ∀ k, host'.attrs_string_.lookup k = host.attrs_string_.lookup k
  binaries : ∀ k, host'.attrs_binary_.lookup k = host.attrs_binary_.lookup k

/-- The host's list is read and written back, in any order of what was read. -/
def HarmlesslyWrittenBack (keys : List AttrID) (host : YaAttributeList) : Prop :=
  ∀ r, SameAttributes (YaAttributeList.read_stream_attributes keys host) r →
    ∃ host', r.write_back (some host) = (.kResultOk, some host') ∧ Unchanged host host'

theorem resent_empty {α β : Type} {m : Map AttrID α} (f : α → Option β) (h : Same ∅ m) :
    YaAttributeList.resent f m.entries = [] := by
  have hnil : m.entries = [] := List.Perm.eq_nil h.symm
  rw [hnil]
  rfl

/-- The strings that were read are set over those of the host, and nothing else is. -/
theorem replay_read {keys : List AttrID} {host r : YaAttributeList}
    (h : SameAttributes (YaAttributeList.read_stream_attributes keys host) r) :
    (r.replay host).attrs_int_ = host.attrs_int_ ∧
    (r.replay host).attrs_float_ = host.attrs_float_ ∧
    (r.replay host).attrs_binary_ = host.attrs_binary_ ∧
    ∀ k, (r.replay host).attrs_string_.lookup k =
      (last (keys.filterMap (readEntry host)) k).or (host.attrs_string_.lookup k) := by
  rw [read_stream_attributes_eq] at h
  rw [YaAttributeList.replay_eq]
  refine ⟨?_, ?_, ?_, ?_⟩
  · exact congrArg (insertAll host.attrs_int_) (resent_empty some h.ints)
  · exact congrArg (insertAll host.attrs_float_) (resent_empty some h.floats)
  · exact congrArg (insertAll host.attrs_binary_) (resent_empty _ h.binaries)
  · intro k
    have hlookup : ∀ k, r.attrs_string_.lookup k = last (keys.filterMap (readEntry host)) k := by
      intro k
      rw [← h.strings.lookup k]
      change (insertAll ∅ _).lookup k = _
      rw [lookup_insertAll, AList.lookup_empty, Option.or_none]
    have hresent : YaAttributeList.resent (fun v => some (terminated v)) r.attrs_string_.entries =
        r.attrs_string_.entries := by
      apply resent_eq
      intro e he
      have hread := (hlookup e.1).symm.trans (AList.mem_lookup_iff.mpr he)
      obtain ⟨key, _, hkey, s, _, hs⟩ := last_readEntry hread
      rw [← hkey, hs]
      exact ⟨terminated_terminated key, congrArg some (restored_terminated s)⟩
    change (insertAll host.attrs_string_ _).lookup k = _
    rw [hresent, lookup_insertAll, last_entries, hlookup]

/-- What a key of the meta data leads to is set to what was read of it. -/
theorem HarmlesslyWrittenBack.restored_eq {keys : List AttrID} {host : YaAttributeList}
    (h : HarmlesslyWrittenBack keys host) {key : AttrID} (hkey : key ∈ keys) {s : List UInt16}
    (hs : host.attrs_string_.lookup (terminated key) = some s) : restored s = s := by
  obtain ⟨host', hback, hunchanged⟩ := h _ (.refl _)
  obtain rfl := Option.some.inj (congrArg Prod.snd hback)
  have hstring := hunchanged.strings (terminated key)
  rw [(replay_read (.refl _)).2.2.2, last_of_readEntry hkey hs, hs] at hstring
  exact Option.some.inj hstring

/-- The host's list is unchanged if and only if its strings fit into the scratch buffer and stop at
no zero. -/
theorem written_back_harmless_iff (keys : List AttrID) (host : YaAttributeList) :
    HarmlesslyWrittenBack keys host ↔
      ∀ key ∈ keys, ∀ s, host.attrs_string_.lookup (terminated key) = some s →
        s.length ≤ 127 ∧ 0 ∉ s := by
  constructor
  · intro h key hkey s hs
    exact (restored_eq_self_iff s).mp (h.restored_eq hkey hs)
  · intro h r hr
    obtain ⟨hints, hfloats, hbinaries, hstrings⟩ := replay_read hr
    refine ⟨_, rfl, ?_⟩
    refine ⟨fun k => by rw [hints], fun k => by rw [hfloats], ?_, fun k => by rw [hbinaries]⟩
    intro k
    rw [hstrings]
    cases hv : last (keys.filterMap (readEntry host)) k with
    | none => rfl
    | some v =>
      obtain ⟨key, hkey, rfl, s, hs, rfl⟩ := last_readEntry hv
      rw [(restored_eq_self_iff s).mpr (h key hkey s hs), hs, Option.some_or]

def presetKey (s : String) : AttrID := s.toUTF8.data.toList

/-- The keys as the SDK documents them. -/
def presetKeys : List AttrID :=
  [presetKey "PlugInName", presetKey "PlugInCategory", presetKey "MusicalInstrument",
   presetKey "MusicalStyle", presetKey "MusicalCharacter", presetKey "StateType",
   presetKey "Name", presetKey "FileName"]

/-- A name of 128 units. -/
def longName : YaAttributeList :=
  { YaAttributeList.empty with
    attrs_string_ := AList.singleton (presetKey "Name") (List.replicate 128 65) }

theorem long_name_cut : ¬ HarmlesslyWrittenBack presetKeys longName := by
  intro h
  have hkey : presetKey "Name" ∈ presetKeys := by simp [presetKeys]
  have hplain : terminated (presetKey "Name") = presetKey "Name" := by decide
  have hname : longName.attrs_string_.lookup (terminated (presetKey "Name")) =
      some (List.replicate 128 65) := by
    rw [hplain]
    exact List.dlookup_cons_eq _ _ _
  have hlen := ((restored_eq_self_iff _).mp (h.restored_eq hkey hname)).1
  rw [List.length_replicate] at hlen
  omega

end Vst3
