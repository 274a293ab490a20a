import Wasivst.Lib.Escaping
import Mathlib.Data.UInt

/-!
# The text of a notification

`send_notification` puts the message, the directory and the name of a file into markup. Message and
name go through `xml_escape`; the directory is in the value of an attribute and goes through
`url_encode_path`, which has no replacement for the characters that end that value.
-/

set_option autoImplicit false

namespace Notifications
open Escaping

def bytes (s : String) : List UInt8 := s.toUTF8.data.toList

def entry (e : Char × String) : UInt8 × List UInt8 := (e.1.toUInt8, bytes e.2)

/-! ## The two tables -/

def xml_escapes : List (UInt8 × List UInt8) :=
  [('&', "&amp;"), ('"', "&quot;"), (Char.ofNat 39, "&apos;"), ('<', "&lt;"), ('>', "&gt;")].map
    entry

def xml_escape (string : List UInt8) : List UInt8 := escape xml_escapes string

def url_escapes : List (UInt8 × List UInt8) :=
  [(' ', "%20"), ('!', "%21"), ('#', "%23"), ('$', "%24"), ('%', "%25"), ('&', "%26"),
    (Char.ofNat 39, "%27"), ('(', "%28"), (')', "%29"), ('*', "%2A"), ('+', "%2B"), (',', "%2C"),
    (':', "%3A"), (';', "%3B"), ('=', "%3D"), ('?', "%3F"), ('@', "%40"), ('[', "%5B"),
    (']', "%5D")].map entry

def url_encode_path (path : List UInt8) : List UInt8 := escape url_escapes path

/-- What the path to the library file is asked for. -/
structure Origin where
  parent_path : List UInt8
  filename : List UInt8

def markup (directory name : List UInt8) : List UInt8 :=
  bytes "\nSource: <a href=\"file://" ++ directory ++ bytes "\">" ++ name ++ bytes "</a>"

def formatted_body (body : List UInt8) (origin : Option Origin) : List UInt8 :=
  xml_escape body ++ origin.elim [] fun o =>
    markup (url_encode_path o.parent_path) (xml_escape o.filename)

/-! ## What a reader makes of it -/

/-- The entities that every reader of XML knows. -/
def entities : List (UInt8 × List UInt8) :=
  [('<', "lt;"), ('>', "gt;"), ('&', "amp;"), (Char.ofNat 39, "apos;"), ('"', "quot;")].map entry

def unescape (s : List UInt8) : Option (List UInt8) := decode 38 (readName entities) s

def hexDigit (c : UInt8) : Option UInt8 :=
  if 48 ≤ c ∧ c ≤ 57 then some (c - 48)
  else if 65 ≤ c ∧ c ≤ 70 then some (c - 55)
  else if 97 ≤ c ∧ c ≤ 102 then some (c - 87)
  else none

def readPercent : List UInt8 → Option (UInt8 × List UInt8)
  | high :: low :: rest =>
    (hexDigit high).bind fun h => (hexDigit low).map fun l => (16 * h + l, rest)
  | _ => none

def percentDecode (s : List UInt8) : Option (List UInt8) := decode 37 readPercent s

/-- The characters that tags and the values of attributes end with or start with. -/
def delimiters : List UInt8 := bytes "<>\""

/-- `written` stands for `s` in a text with markup. -/
structure Stands (read : List UInt8 → Option (List UInt8)) (s written : List UInt8) : Prop where
  inert : ∀ c ∈ delimiters, c ∉ written
  entities : Opens (xml_escapes.map Prod.snd) 38 written
  decoded : read written = some s

/-- The markup of `text` is that of the template, and what it encloses reads as it should. -/
def Unbroken (body : List UInt8) (origin : Option Origin) (text : List UInt8) : Prop :=
  ∃ message, Stands unescape body message ∧
    origin.elim (text = message) fun o =>
      ∃ directory name, text = message ++ markup directory name ∧
        Stands percentDecode o.parent_path directory ∧ Stands unescape o.filename name

/-! ## The escapes -/

theorem forall_delimiters {P : UInt8 → Prop} (hless : P 60) (hgreater : P 62) (hquote : P 34) :
    ∀ c ∈ delimiters, P c := by
  intro c hc
  have hlist : delimiters = [60, 62, 34] := by decide
  rw [hlist, List.mem_cons, List.mem_cons, List.mem_singleton] at hc
  rcases hc with rfl | rfl | rfl
  · exact hless
  · exact hgreater
  · exact hquote

theorem xml_readable : Readable xml_escapes 38 (readName entities) where
  marker_replaced := by decide
  reads := by
    have hnames : ∀ e ∈ xml_escapes, e.2 = 38 :: e.2.tail ∧ (38 : UInt8) ∉ e.2.tail ∧
        (e.1, e.2.tail) ∈ entities := by decide
    have hfree : PrefixFree entities := by unfold PrefixFree; decide
    intro e he
    obtain ⟨hmarker, hnot, hmem⟩ := hnames e he
    exact ⟨e.2.tail, hmarker, hnot, readName_of_mem hfree hmem⟩

theorem readPercent_append {pair : List UInt8} {c : UInt8} (h : readPercent pair = some (c, []))
    (rest : List UInt8) : readPercent (pair ++ rest) = some (c, rest) := by
  match pair with
  | [] => cases h
  | [_] => cases h
  | high :: low :: tail =>
    simp only [readPercent, List.cons_append, Option.bind_eq_some_iff, Option.map_eq_some_iff] at h ⊢
    obtain ⟨x, hx, y, hy, heq⟩ := h
    obtain ⟨hc, htail⟩ := Prod.mk.inj heq
    refine ⟨x, hx, y, hy, ?_⟩
    rw [hc, htail, List.nil_append]

theorem url_readable : Readable url_escapes 37 readPercent where
  marker_replaced := by decide
  reads := by
    have hpairs : ∀ e ∈ url_escapes, e.2 = 37 :: e.2.tail ∧ (37 : UInt8) ∉ e.2.tail ∧
        readPercent e.2.tail = some (e.1, []) := by decide
    intro e he
    obtain ⟨hmarker, hnot, hpair⟩ := hpairs e he
    exact ⟨e.2.tail, hmarker, hnot, readPercent_append hpair⟩

/-- Message and name are safe, whatever they are. -/
theorem stands_xml_escape (s : List UInt8) : Stands unescape s (xml_escape s) where
  inert := by
    have hfree : ∀ c ∈ delimiters, (∀ e ∈ xml_escapes, c ∉ e.2) ∧ xml_escapes.lookup c ≠ none :=
      forall_delimiters (by decide) (by decide) (by decide)
    intro c hc
    obtain ⟨hnot, hescaped⟩ := hfree c hc
    exact notMem_escape hnot hescaped s
  entities := opens_escape xml_readable s
  decoded := decode_escape xml_readable s

theorem delimiters_kept : ∀ c ∈ delimiters,
    (∀ e ∈ url_escapes, c ∉ e.2) ∧ url_escapes.lookup c = none :=
  forall_delimiters (by decide) (by decide) (by decide)

theorem count_url_encode_path {c : UInt8} (hc : c ∈ delimiters) (path : List UInt8) :
    (url_encode_path path).count c = path.count c := by
  obtain ⟨hnot, hkept⟩ := delimiters_kept c hc
  exact count_escape hnot hkept path

theorem stands_url_encode_path {path : List UInt8} (h : ∀ c ∈ delimiters, c ∉ path) :
    Stands percentDecode path (url_encode_path path) where
  inert := by
    intro c hc
    rw [← List.count_eq_zero, count_url_encode_path hc]
    exact List.count_eq_zero.mpr (h c hc)
  entities := Opens.of_notMem (notMem_escape (by decide) (by decide) path)
  decoded := decode_escape url_readable path

/-! ## The markup -/

theorem count_markup (c : UInt8) (directory name : List UInt8) :
    (markup directory name).count c =
      (markup [] []).count c + directory.count c + name.count c := by
  simp only [markup, List.count_append, List.count_nil]
  omega

theorem Stands.count {read : List UInt8 → Option (List UInt8)} {s written : List UInt8}
    (h : Stands read s written) {c : UInt8} (hc : c ∈ delimiters) : written.count c = 0 :=
  List.count_eq_zero.mpr (h.inert c hc)

/-- Counting the delimiters shows that a directory that has one changes the markup. -/
theorem notMem_of_unbroken {body : List UInt8} {o : Origin}
    (h : Unbroken body (some o) (formatted_body body (some o))) {c : UInt8}
    (hc : c ∈ delimiters) : c ∉ o.parent_path := by
  obtain ⟨message, hmessage, directory, name, htext, hdirectory, hname⟩ := h
  have hcount := congrArg (List.count c) htext
  simp only [formatted_body, Option.elim_some] at hcount
  rw [List.count_append, count_markup c (url_encode_path _), count_url_encode_path hc,
    (stands_xml_escape body).count hc, (stands_xml_escape o.filename).count hc, List.count_append,
    count_markup c directory, hmessage.count hc, hdirectory.count hc, hname.count hc] at hcount
  rw [← List.count_eq_zero]
  omega

/-- The names do not break the markup if and only if the directory has no delimiter in it. -/
theorem formatted_body_unbroken_iff (body : List UInt8) (origin : Option Origin) :
    Unbroken body origin (formatted_body body origin) ↔
      ∀ o ∈ origin, ∀ c ∈ delimiters, c ∉ o.parent_path := by
  cases origin with
  | none =>
    apply iff_of_true
    · exact ⟨xml_escape body, stands_xml_escape body, List.append_nil _⟩
    · intro o ho
      cases ho
  | some origin =>
    constructor
    · intro h o ho c hc
      obtain rfl := Option.some.inj ho
      exact notMem_of_unbroken h hc
    · intro h
      have hinert := h origin rfl
      refine ⟨xml_escape body, stands_xml_escape body, url_encode_path origin.parent_path,
        xml_escape origin.filename, rfl, ?_, ?_⟩
      · exact stands_url_encode_path hinert
      · exact stands_xml_escape origin.filename

/-- The quotation mark of the directory ends the value of `href`. -/
theorem formatted_body_broken :
    ¬ Unbroken [] (some ⟨bytes "/a\"b", bytes "c.so"⟩)
      (formatted_body [] (some ⟨bytes "/a\"b", bytes "c.so"⟩)) := by
  intro h
  have hquote : (34 : UInt8) ∈ delimiters := by decide
  have hmem : (34 : UInt8) ∈ bytes "/a\"b" := by decide
  exact notMem_of_unbroken h hquote hmem

end Notifications
