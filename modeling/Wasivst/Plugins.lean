import Mathlib.Data.UInt
import Wasivst.Lib.InputStream
import Wasivst.Lib.LittleEndian

/-!
# The architecture of a plugin

`find_dll_architecture` reads three variables of a PE header, none of which is initialised, and
never asks whether the reads have succeeded. Where the file ends too early the result depends on
what the variables held.
-/

set_option autoImplicit false

namespace Plugins
open LittleEndian InputStream

inductive LibArchitecture
  | dll_32
  | dll_64
  deriving DecidableEq

/-- The exceptions; the second has the machine type in its text. -/
inductive PeError
  | notValid
  | neither (machine_type : Nat)
  deriving DecidableEq

/-- What is in the variables when they are declared. -/
structure Uninitialised where
  pe_signature_offset : Vector UInt8 4
  pe_signature : Vector UInt8 4
  machine_type : Vector UInt8 2

def expected_pe_signature : List UInt8 := [80, 69, 0, 0]

/-- The `switch`. -/
def architecture (machine_type : Nat) : Option LibArchitecture :=
  if machine_type = 0x014c then some .dll_32
  else if machine_type = 0x8664 ∨ machine_type = 0x0000 then some .dll_64
  else none

/-- What is done with the two variables that have been read last. -/
def classify (pe_signature machine_type : List UInt8) : Except PeError LibArchitecture :=
  if pe_signature ≠ expected_pe_signature then .error .notValid
  else
    match architecture (decode machine_type) with
    | some found => .ok found
    | none => .error (.neither (decode machine_type))

def find_dll_architecture (content : List UInt8) (u : Uninitialised) :
    Except PeError LibArchitecture :=
  let file := (ofContent content).seek 0x3c
  let (file, pe_signature_offset) := file.read u.pe_signature_offset.toList
  let file := file.seek (decode pe_signature_offset)
  let (file, pe_signature) := file.read u.pe_signature.toList
  let (_, machine_type) := file.read u.machine_type.toList
  classify pe_signature machine_type

/-! ## Headers -/

/-- The bytes at the offset that the four bytes at 0x3c encode, six if the file has them. -/
def header (content : List UInt8) : List UInt8 :=
  (content.drop (decode ((content.drop 0x3c).take 4))).take 6

structure CompleteHeader (content : List UInt8) (found : LibArchitecture) : Prop where
  offset : 0x40 ≤ content.length
  length : (header content).length = 6
  signature : (header content).take 4 = expected_pe_signature
  machine : architecture (decode ((header content).drop 4)) = some found

/-- The files with a complete header are accepted, and what the variables held does not matter. -/
structure Detects (content : List UInt8) : Prop where
  complete : ∀ u found, find_dll_architecture content u = .ok found ↔ CompleteHeader content found
  content_only : ∀ u u', find_dll_architecture content u = find_dll_architecture content u'

/-- The file does not end in the offset, and in the header only behind bytes that no signature
starts with. -/
def Decided (content : List UInt8) : Prop :=
  0x40 ≤ content.length ∧
    ((header content).length = 6 ∨ ¬ (header content).take 4 <+: expected_pe_signature)

/-! ## What is read -/

/-- The first read fails, so the others store nothing. -/
theorem find_of_no_offset {content : List UInt8} (h : content.length < 0x40) (u : Uninitialised) :
    find_dll_architecture content u = classify u.pe_signature.toList u.machine_type.toList := by
  have hshort : ((content.drop 0x3c).take u.pe_signature_offset.toList.length).length <
      u.pe_signature_offset.toList.length := by
    rw [List.length_take, List.length_drop, Vector.length_toList]
    omega
  have hfailed : (((ofContent content).seek 0x3c).read
      u.pe_signature_offset.toList).1.failed = true := decide_eq_true hshort
  unfold find_dll_architecture
  simp only [seek_of_failed hfailed, read_of_failed hfailed]

theorem find_of_offset {content : List UInt8} (h : 0x40 ≤ content.length) (u : Uninitialised) :
    find_dll_architecture content u =
      classify (stored u.pe_signature.toList ((header content).take 4))
        (stored u.machine_type.toList ((header content).drop 4)) := by
  have hseek : (ofContent content).seek 0x3c = ⟨content, 0x3c, false⟩ := rfl
  have hread : (⟨content, 0x3c, false⟩ : InputStream UInt8).read u.pe_signature_offset.toList =
      (⟨content, 0x40, false⟩, (content.drop 0x3c).take 4) := by
    rw [read_of_le (by rw [Vector.length_toList]; omega), Vector.length_toList]
  obtain ⟨hsignature, hmachine⟩ := read_read content (decode ((content.drop 0x3c).take 4))
    u.pe_signature.toList u.machine_type.toList
  rw [Vector.length_toList, Vector.length_toList] at hsignature hmachine
  unfold header
  rw [← hsignature, ← hmachine]
  simp only [find_dll_architecture, hseek, hread]
  rfl

/-! ## What is decided -/

theorem classify_eq_ok_iff {pe_signature machine_type : List UInt8} {found : LibArchitecture} :
    classify pe_signature machine_type = .ok found ↔
      pe_signature = expected_pe_signature ∧ architecture (decode machine_type) = some found := by
  unfold classify
  by_cases hsignature : pe_signature = expected_pe_signature
  · rw [if_neg (not_not_intro hsignature)]
    cases architecture (decode machine_type) with
    | none => simp
    | some other => simp [hsignature]
  · rw [if_pos hsignature]
    simp [hsignature]

theorem classify_of_not_signature {pe_signature : List UInt8}
    (h : pe_signature ≠ expected_pe_signature) (machine_type : List UInt8) :
    classify pe_signature machine_type = .error .notValid := if_pos h

/-- Of two machine types, the second of which is none of those that are known. -/
theorem classify_ne {machine_type machine_type' : List UInt8}
    (hne : decode machine_type ≠ decode machine_type')
    (hunknown : architecture (decode machine_type') = none) :
    classify expected_pe_signature machine_type ≠
      classify expected_pe_signature machine_type' := by
  unfold classify
  simp only [ne_eq, not_true_eq_false, if_false, hunknown]
  cases architecture (decode machine_type) with
  | none => simpa using hne
  | some found => simp

/-- The variables that a complete header would fill. -/
def garbage (machine_type : Vector UInt8 2) : Uninitialised :=
  ⟨#v[0, 0, 0, 0], ⟨expected_pe_signature.toArray, rfl⟩, machine_type⟩

/-- Both reads of the header fill their variables. -/
theorem detects_of_length {content : List UInt8} (hoffset : 0x40 ≤ content.length)
    (hlength : (header content).length = 6) : Detects content := by
  have hsignature : ∀ u : Uninitialised,
      stored u.pe_signature.toList ((header content).take 4) = (header content).take 4 := by
    intro u
    apply stored_full
    rw [List.length_take, hlength, Vector.length_toList]
    rfl
  have hmachine : ∀ u : Uninitialised,
      stored u.machine_type.toList ((header content).drop 4) = (header content).drop 4 := by
    intro u
    apply stored_full
    rw [List.length_drop, hlength, Vector.length_toList]
  have hfind : ∀ u, find_dll_architecture content u =
      classify ((header content).take 4) ((header content).drop 4) := by
    intro u
    rw [find_of_offset hoffset, hsignature, hmachine]
  constructor
  · intro u found
    rw [hfind, classify_eq_ok_iff]
    constructor
    · intro hfound
      exact ⟨hoffset, hlength, hfound.1, hfound.2⟩
    · intro hcomplete
      exact ⟨hcomplete.signature, hcomplete.machine⟩
  · intro u u'
    rw [hfind, hfind]

/-- What the signature's variable holds then is no signature, read whole or not. -/
theorem detects_of_not_signature {content : List UInt8} (hoffset : 0x40 ≤ content.length)
    (hnot : ¬ (header content).take 4 <+: expected_pe_signature) : Detects content := by
  have hinvalid : ∀ u, find_dll_architecture content u = .error .notValid := by
    intro u
    rw [find_of_offset hoffset]
    apply classify_of_not_signature
    intro heq
    exact hnot (heq ▸ prefix_stored _ _)
  constructor
  · intro u found
    rw [hinvalid]
    constructor
    · intro hfound
      cases hfound
    · intro hcomplete
      exact absurd (hcomplete.signature ▸ List.prefix_refl _) hnot
  · intro u u'
    rw [hinvalid, hinvalid]

theorem detects_of_decided {content : List UInt8} (h : Decided content) : Detects content := by
  rcases h with ⟨hoffset, hlength | hnot⟩
  · exact detects_of_length hoffset hlength
  · exact detects_of_not_signature hoffset hnot

/-- A file that ends in the offset is taken for what the variables say. -/
theorem not_detects_of_no_offset {content : List UInt8} (h : content.length < 0x40) :
    ¬ Detects content := by
  intro hdetects
  have hfound : find_dll_architecture content (garbage #v[0x4c, 0x01]) = .ok .dll_32 := by
    rw [find_of_no_offset h]
    rfl
  have hcomplete := (hdetects.complete _ _).mp hfound
  have hoffset := hcomplete.offset
  omega

/-- A header that ends behind the beginning of a signature is completed by what the variables
hold, which does matter. -/
theorem not_detects_of_short {content : List UInt8} (hoffset : 0x40 ≤ content.length)
    (hshort : (header content).length ≠ 6)
    (hstarts : (header content).take 4 <+: expected_pe_signature) : ¬ Detects content := by
  intro hdetects
  have hle : (header content).length ≤ 6 := List.length_take_le _ _
  have hsame := hdetects.content_only (garbage #v[0, 1]) (garbage #v[0, 2])
  have hstored : stored (garbage #v[0, 1]).pe_signature.toList ((header content).take 4) =
      expected_pe_signature := stored_of_prefix hstarts
  have hstored' : stored (garbage #v[0, 2]).pe_signature.toList ((header content).take 4) =
      expected_pe_signature := stored_of_prefix hstarts
  rw [find_of_offset hoffset, find_of_offset hoffset, hstored, hstored'] at hsame
  obtain ⟨b, hfirst, hsecond⟩ : ∃ b : UInt8,
      stored (garbage #v[0, 1]).machine_type.toList ((header content).drop 4) = [b, 1] ∧
        stored (garbage #v[0, 2]).machine_type.toList ((header content).drop 4) = [b, 2] := by
    have hrest : ((header content).drop 4).length < 2 := by
      rw [List.length_drop]
      omega
    match (header content).drop 4, hrest with
    | [], _ => exact ⟨0, rfl, rfl⟩
    | [b], _ => exact ⟨b, rfl, rfl⟩
  have hb := b.toNat_lt
  have hone : decode [b, 1] = b.toNat + 256 := rfl
  have htwo : decode [b, 2] = b.toNat + 512 := rfl
  rw [hfirst, hsecond] at hsame
  refine classify_ne ?_ ?_ hsame
  · rw [hone, htwo]
    omega
  · rw [htwo, architecture, if_neg (by omega), if_neg (by omega)]

/-- Complete headers, no others, are accepted exactly if the file decides it. -/
theorem find_dll_architecture_detects_iff (content : List UInt8) :
    Detects content ↔ Decided content := by
  constructor
  · intro h
    have hoffset : 0x40 ≤ content.length := by
      by_contra hno
      exact not_detects_of_no_offset (by omega) h
    refine ⟨hoffset, ?_⟩
    by_contra hno
    rw [not_or, not_not] at hno
    exact not_detects_of_short hoffset hno.1 hno.2 h
  · exact detects_of_decided

/-- A file that ends behind the signature. -/
def cutFile : List UInt8 := List.replicate 0x3c 0 ++ [0x40, 0, 0, 0] ++ expected_pe_signature

/-- It is a plugin for whatever the variable happens to hold. -/
theorem cutFile_accepted :
    find_dll_architecture cutFile (garbage #v[0x4c, 0x01]) = .ok .dll_32 ∧
      find_dll_architecture cutFile (garbage #v[0x64, 0x86]) = .ok .dll_64 ∧
        ∀ found, ¬ CompleteHeader cutFile found := by
  refine ⟨by decide, by decide, ?_⟩
  intro found hcomplete
  have hlength : (header cutFile).length = 4 := by decide
  rw [hcomplete.length] at hlength
  cases hlength

end Plugins
