import Mathlib.Data.List.Basic
import Mathlib.Data.List.Infix

/-!
# Incremental scanners

A receiver collects symbols in a buffer of bounded size and, after each of them, scans the
buffer from the front until the scan has to wait. `Chunk scan c o` says that a piece `c` of
the stream is recognised when, and only when, its last symbol is there. Fed symbol by symbol,
a stream of chunks then empties the buffer at every chunk boundary and yields the outputs of
the chunks, whatever failures occurred inside them.
-/

set_option autoImplicit false

namespace Framing

/-- What one pass over the front of the buffer finds; a failure leaves `rest`. -/
inductive Scan (β γ : Type) where
  | wait
  | fail (rest : List β)
  | skip (rest : List β)
  | take (frame : γ) (rest : List β)

/-- The frames taken, what stays in the buffer, and whether a failure ended the scan. -/
structure Drained (β γ : Type) where
  frames : List γ
  rest : List β
  failed : Bool

variable {β γ : Type} (scan : List β → Scan β γ)

def drain : Nat → List β → Drained β γ
  | 0, buf => ⟨[], buf, false⟩
  | n + 1, buf =>
    match scan buf with
    | .wait => ⟨[], buf, false⟩
    | .fail rest => ⟨[], rest, true⟩
    | .skip rest => drain n rest
    | .take f rest =>
      let d := drain n rest
      { d with frames := f :: d.frames }

structure Shrinks : Prop where
  skip : ∀ buf rest, scan buf = .skip rest → rest.length < buf.length
  take : ∀ buf f rest, scan buf = .take f rest → rest.length < buf.length

variable {scan}

/-- A bound above the buffer's length is not felt: the scan ends by waiting or by a failure. -/
theorem drain_ends (hs : Shrinks scan) (n : Nat) (buf : List β) (hn : buf.length < n) :
    (drain scan n buf).failed = true ∨ scan (drain scan n buf).rest = .wait := by
  induction n generalizing buf with
  | zero => omega
  | succ n ih =>
    cases h : scan buf with
    | wait => exact .inr (by simp [drain, h])
    | fail rest => exact .inl (by simp [drain, h])
    | skip rest =>
      have hlt := hs.skip buf rest h
      simpa [drain, h] using ih rest (by omega)
    | take f rest =>
      have hlt := hs.take buf f rest h
      simpa [drain, h] using ih rest (by omega)

variable (scan) in
/-- One symbol arrives. The buffer holds fewer than `cap` symbols; pushing one more fails. -/
def feed (cap : Nat) (buf : List β) (b : β) : Drained β γ :=
  if buf.length + 1 < cap then drain scan (buf.length + 2) (buf ++ [b]) else ⟨[], buf, true⟩

variable (scan) in
/-- Symbols arrive one after the other; a failure does not keep later ones from arriving. -/
def feedAll (cap : Nat) : List β → List β → Drained β γ
  | buf, [] => ⟨[], buf, false⟩
  | buf, b :: bs =>
    let d := feed scan cap buf b
    let d' := feedAll cap d.rest bs
    ⟨d.frames ++ d'.frames, d'.rest, d.failed || d'.failed⟩

theorem feedAll_append (cap : Nat) (buf as bs : List β) :
    feedAll scan cap buf (as ++ bs) =
      let d := feedAll scan cap buf as
      let d' := feedAll scan cap d.rest bs
      ⟨d.frames ++ d'.frames, d'.rest, d.failed || d'.failed⟩ := by
  induction as generalizing buf with
  | nil => simp [feedAll]
  | cons a as ih => simp [feedAll, ih, Bool.or_assoc]

theorem feedAll_snoc (cap : Nat) (buf as : List β) (b : β) :
    feedAll scan cap buf (as ++ [b]) =
      let d := feedAll scan cap buf as
      let d' := feed scan cap d.rest b
      ⟨d.frames ++ d'.frames, d'.rest, d.failed || d'.failed⟩ := by
  rw [feedAll_append]
  simp [feedAll]

theorem failed_of_extension {cap : Nat} {buf as bs : List β} (h : as <+: bs)
    (hf : (feedAll scan cap buf as).failed = true) : (feedAll scan cap buf bs).failed = true := by
  obtain ⟨cs, rfl⟩ := h
  rw [feedAll_append]
  simp [hf]

variable (scan) in
/-- No proper part of `c` is recognised, and `c` itself is: as the frame `o`, or as noise. -/
structure Chunk (c : List β) (o : Option γ) : Prop where
  nonempty : c ≠ []
  nil : scan [] = .wait
  part : ∀ p, p <+: c → p ≠ [] → p ≠ c → scan p = .wait ∨ scan p = .fail p
  whole : scan c = match o with
    | some f => .take f []
    | none => .skip []

variable (scan) in
/-- No part of `c` makes the scan fail. -/
def Clean (c : List β) : Prop := ∀ p, p <+: c → p ≠ [] → p ≠ c → scan p = .wait

namespace Chunk
variable {c : List β} {o : Option γ} {cap : Nat}

theorem feed_inside (hc : Chunk scan c o) {p : List β} {b : β} (hcap : p.length + 1 < cap)
    (hp : p ++ [b] <+: c) (hne : p ++ [b] ≠ c) :
    (feed scan cap p b).frames = [] ∧ (feed scan cap p b).rest = p ++ [b] ∧
      ((feed scan cap p b).failed = true ↔ scan (p ++ [b]) = .fail (p ++ [b])) := by
  unfold feed
  rw [if_pos hcap]
  rcases hc.part _ hp (by simp) hne with h | h <;> simp [drain, h]

theorem feed_last (hc : Chunk scan c o) {p : List β} {b : β} (hcap : c.length < cap)
    (hp : p ++ [b] = c) : feed scan cap p b = ⟨o.toList, [], false⟩ := by
  have hlen := congrArg List.length hp
  rw [List.length_append, List.length_singleton] at hlen
  unfold feed
  rw [if_pos (by omega), hp, drain, hc.whole]
  cases o <;> simp [drain, hc.nil]

theorem ne_of_snoc {p : List β} {b : β} (hp : p ++ [b] <+: c) : p ≠ c := by
  intro h
  have hlen := hp.length_le
  rw [← h, List.length_append, List.length_singleton] at hlen
  omega

/-- After a proper part of the chunk the buffer holds this part and nothing was taken. -/
theorem feedAll_part (hc : Chunk scan c o) {p : List β} (hcap : p.length < cap)
    (hp : p <+: c) (hne : p ≠ c) :
    (feedAll scan cap [] p).frames = [] ∧ (feedAll scan cap [] p).rest = p := by
  induction p using List.reverseRecOn with
  | nil => exact ⟨rfl, rfl⟩
  | append_singleton p b ih =>
    rw [List.length_append, List.length_singleton] at hcap
    obtain ⟨hf, hr⟩ := ih (by omega) ((List.prefix_append p [b]).trans hp) (ne_of_snoc hp)
    obtain ⟨hf', hr', _⟩ := hc.feed_inside hcap hp hne
    rw [feedAll_snoc]
    simp only [hf, hr, hf', hr', List.append_nil, and_self]

theorem eq_snoc (hc : Chunk scan c o) : ∃ p b, c = p ++ [b] :=
  ⟨c.dropLast, c.getLast hc.nonempty, (List.dropLast_append_getLast hc.nonempty).symm⟩

theorem feedAll_whole (hc : Chunk scan c o) (hcap : c.length < cap) :
    (feedAll scan cap [] c).frames = o.toList ∧ (feedAll scan cap [] c).rest = [] := by
  obtain ⟨p, b, rfl⟩ := hc.eq_snoc
  have hlen : p.length < cap := by
    rw [List.length_append] at hcap
    omega
  obtain ⟨hf, hr⟩ := hc.feedAll_part hlen (List.prefix_append p [b]) (by simp)
  rw [feedAll_snoc]
  simp only [hf, hr, hc.feed_last hcap rfl, List.nil_append, and_self]

theorem feedAll_part_clean (hc : Chunk scan c o) (hclean : Clean scan c) {p : List β}
    (hcap : p.length < cap) (hp : p <+: c) (hne : p ≠ c) :
    (feedAll scan cap [] p).failed = false := by
  induction p using List.reverseRecOn with
  | nil => rfl
  | append_singleton p b ih =>
    rw [List.length_append, List.length_singleton] at hcap
    have hpre := (List.prefix_append p [b]).trans hp
    have hlen : p.length < cap := by omega
    have hpart := hc.feedAll_part hlen hpre (ne_of_snoc hp)
    obtain ⟨_, _, hfail⟩ := hc.feed_inside hcap hp hne
    have hok : (feed scan cap p b).failed = false := by
      rw [hclean _ hp (by simp) hne] at hfail
      simpa using hfail
    rw [feedAll_snoc]
    simp [ih hlen hpre (ne_of_snoc hp), hpart.2, hok]

theorem feedAll_whole_clean (hc : Chunk scan c o) (hclean : Clean scan c) (hcap : c.length < cap) :
    (feedAll scan cap [] c).failed = false := by
  obtain ⟨p, b, rfl⟩ := hc.eq_snoc
  have hlen : p.length < cap := by
    rw [List.length_append] at hcap
    omega
  have hpre := List.prefix_append p [b]
  rw [feedAll_snoc]
  simp only [(hc.feedAll_part hlen hpre (by simp)).2, hc.feed_last hcap rfl,
    hc.feedAll_part_clean hclean hlen hpre (by simp), Bool.or_self]

theorem failed_of_fail (hc : Chunk scan c o) {p : List β} (hcap : p.length < cap) (hp : p <+: c)
    (hne : p ≠ c) (h0 : p ≠ []) (hfail : scan p = .fail p) :
    (feedAll scan cap [] p).failed = true := by
  obtain ⟨q, b, rfl⟩ : ∃ q b, p = q ++ [b] :=
    ⟨p.dropLast, p.getLast h0, (List.dropLast_append_getLast h0).symm⟩
  rw [List.length_append, List.length_singleton] at hcap
  have hlen : q.length < cap := by omega
  have hpart := hc.feedAll_part hlen ((List.prefix_append q [b]).trans hp) (ne_of_snoc hp)
  rw [feedAll_snoc]
  simp [hpart.2, (hc.feed_inside hcap hp hne).2.2.mpr hfail]

/-- A chunk that does not fit the buffer makes the push fail that would fill it up. -/
theorem failed_of_overflow (hc : Chunk scan c o) (hpos : 0 < cap) (hcap : cap ≤ c.length) :
    (feedAll scan cap [] c).failed = true := by
  have hlt : cap - 1 < c.length := by omega
  have hlen : (c.take (cap - 1)).length = cap - 1 := by
    rw [List.length_take]
    omega
  have hpre : c.take (cap - 1) ++ [c.get ⟨cap - 1, hlt⟩] <+: c := by
    rw [List.get_eq_getElem, List.take_concat_get' c (cap - 1) hlt]
    exact List.take_prefix _ _
  have hroom : (c.take (cap - 1)).length < cap := by omega
  have hpart := hc.feedAll_part hroom ((List.prefix_append _ _).trans hpre) (ne_of_snoc hpre)
  apply failed_of_extension hpre
  have hfull : ¬ (cap - 1 + 1 < cap) := by omega
  rw [feedAll_snoc]
  simp [hpart.2, feed, hlen, hfull]

end Chunk

/-! ## Streams of chunks -/

section Stream
variable {κ : Type} (image : κ → List β) (output : κ → Option γ)
variable {cap : Nat}

/-- The outputs of a stream of chunks are taken in order, and nothing stays behind. -/
theorem feedAll_stream {ks : List κ}
    (hc : ∀ k ∈ ks, Chunk scan (image k) (output k)) (hcap : ∀ k ∈ ks, (image k).length < cap) :
    (feedAll scan cap [] (ks.flatMap image)).frames = ks.filterMap output ∧
      (feedAll scan cap [] (ks.flatMap image)).rest = [] := by
  induction ks with
  | nil => exact ⟨rfl, rfl⟩
  | cons k ks ih =>
    obtain ⟨hf, hr⟩ := (hc k List.mem_cons_self).feedAll_whole (hcap k List.mem_cons_self)
    obtain ⟨hf', hr'⟩ := ih (fun x hx => hc x (List.mem_cons_of_mem k hx))
      (fun x hx => hcap x (List.mem_cons_of_mem k hx))
    rw [List.flatMap_cons, feedAll_append]
    simp only [hf, hr, hf', hr', and_true]
    cases h : output k <;> simp [h]

theorem feedAll_stream_part {ks : List κ} {k : κ} {p : List β}
    (hc : ∀ x ∈ ks, Chunk scan (image x) (output x)) (hcap : ∀ x ∈ ks, (image x).length < cap)
    (hk : Chunk scan (image k) (output k)) (hkcap : p.length < cap)
    (hp : p <+: image k) (hne : p ≠ image k) :
    (feedAll scan cap [] (ks.flatMap image ++ p)).frames = ks.filterMap output ∧
      (feedAll scan cap [] (ks.flatMap image ++ p)).rest = p := by
  obtain ⟨hf, hr⟩ := feedAll_stream image output hc hcap
  obtain ⟨hf', hr'⟩ := hk.feedAll_part hkcap hp hne
  rw [feedAll_append]
  simp only [hf, hr, hf', hr', List.append_nil, and_self]

theorem feedAll_stream_clean {ks : List κ} (hc : ∀ k ∈ ks, Chunk scan (image k) (output k))
    (hcap : ∀ k ∈ ks, (image k).length < cap) (hclean : ∀ k ∈ ks, Clean scan (image k)) :
    (feedAll scan cap [] (ks.flatMap image)).failed = false := by
  induction ks with
  | nil => rfl
  | cons k ks ih =>
    have hk := hc k List.mem_cons_self
    have hkcap := hcap k List.mem_cons_self
    have hrest := ih (fun x hx => hc x (List.mem_cons_of_mem k hx))
      (fun x hx => hcap x (List.mem_cons_of_mem k hx))
      (fun x hx => hclean x (List.mem_cons_of_mem k hx))
    rw [List.flatMap_cons, feedAll_append]
    simp only [(hk.feedAll_whole hkcap).2, hrest,
      hk.feedAll_whole_clean (hclean k List.mem_cons_self) hkcap, Bool.or_self]

theorem failed_of_stream {ks : List κ} {p : List β} (hc : ∀ x ∈ ks, Chunk scan (image x) (output x))
    (hcap : ∀ x ∈ ks, (image x).length < cap) (hp : (feedAll scan cap [] p).failed = true) :
    (feedAll scan cap [] (ks.flatMap image ++ p)).failed = true := by
  rw [feedAll_append]
  simp only [(feedAll_stream image output hc hcap).2, hp, Bool.or_true]

/-- A prefix of a concatenation ends at a boundary or strictly inside one of the pieces. -/
theorem prefix_flatMap {ks : List κ} (hne : ∀ k ∈ ks, image k ≠ []) {p : List β}
    (hp : p <+: ks.flatMap image) :
    ∃ pre post, ks = pre ++ post ∧ (p = pre.flatMap image ∨
      ∃ k rest q, post = k :: rest ∧ p = pre.flatMap image ++ q ∧ q <+: image k ∧
        q ≠ [] ∧ q ≠ image k) := by
  induction ks generalizing p with
  | nil => exact ⟨[], [], rfl, .inl (by simpa using hp)⟩
  | cons k ks ih =>
    rw [List.flatMap_cons] at hp
    rcases List.prefix_or_prefix_of_prefix hp (List.prefix_append (image k) _) with h | ⟨q, rfl⟩
    · rcases eq_or_ne p [] with rfl | h0
      · exact ⟨[], k :: ks, rfl, .inl rfl⟩
      · rcases eq_or_ne p (image k) with rfl | h1
        · exact ⟨[k], ks, rfl, .inl (by simp)⟩
        · exact ⟨[], k :: ks, rfl, .inr ⟨k, ks, p, rfl, by simp, h, h0, h1⟩⟩
    · have hq := (List.prefix_append_right_inj (image k)).mp hp
      obtain ⟨pre, post, rfl, hcase⟩ := ih (fun x hx => hne x (List.mem_cons_of_mem k hx)) hq
      refine ⟨k :: pre, post, rfl, ?_⟩
      rcases hcase with rfl | ⟨x, rest, r, hpost, rfl, hr⟩
      · exact .inl (by simp)
      · exact .inr ⟨x, rest, r, hpost, by simp, hr⟩

/-- `ks` is what is still to be recognised: part of its first chunk is in the buffer, the rest of
its symbols are on their way. -/
def Pending (buf line : List β) : List κ → Prop
  | [] => buf = [] ∧ line = []
  | k :: ks => ∃ q, q ≠ [] ∧ image k = buf ++ q ∧ line = q ++ ks.flatMap image

variable {image}

theorem pending_start {ks : List κ} (hne : ∀ k ∈ ks, image k ≠ []) :
    Pending image [] (ks.flatMap image) ks := by
  cases ks with
  | nil => exact ⟨rfl, rfl⟩
  | cons k ks => exact ⟨image k, hne k List.mem_cons_self, rfl, List.flatMap_cons⟩

theorem Pending.send {buf line : List β} {ks : List κ} (h : Pending image buf line ks) {k : κ}
    (hk : image k ≠ []) : Pending image buf (line ++ image k) (ks ++ [k]) := by
  cases ks with
  | nil =>
    obtain ⟨rfl, rfl⟩ := h
    exact ⟨image k, hk, rfl, by simp⟩
  | cons x ks =>
    obtain ⟨q, hq, himage, rfl⟩ := h
    exact ⟨q, hq, himage, by simp⟩

theorem Pending.feed {buf line : List β} {b : β} {ks : List κ}
    (h : Pending image buf (b :: line) ks) (hc : ∀ k, Chunk scan (image k) (output k))
    (hcap : ∀ k, (image k).length < cap) :
    ((Framing.feed scan cap buf b).frames = [] ∧
      Pending image (Framing.feed scan cap buf b).rest line ks) ∨
    ∃ k ks', ks = k :: ks' ∧ Framing.feed scan cap buf b = ⟨(output k).toList, [], false⟩ ∧
      line = ks'.flatMap image := by
  cases ks with
  | nil => exact absurd h.2 (by simp)
  | cons k ks =>
    obtain ⟨q, hq, himage, hline⟩ := h
    obtain ⟨c, r, rfl⟩ := List.exists_cons_of_ne_nil hq
    obtain ⟨rfl, rfl⟩ := List.cons.inj hline
    have hlen := hcap k
    rcases eq_or_ne r [] with rfl | hr
    · exact .inr ⟨k, ks, rfl, (hc k).feed_last hlen himage.symm, rfl⟩
    · have hpre : buf ++ [b] <+: image k := ⟨r, by simp [himage]⟩
      have hpart : buf ++ [b] ≠ image k := by
        rw [himage, List.append_cons buf b r]
        intro heq
        exact hr (List.append_right_eq_self.mp heq.symm)
      have hroom : buf.length + 1 < cap := by
        rw [himage, List.length_append, List.length_cons] at hlen
        omega
      obtain ⟨hf, hrest, _⟩ := (hc k).feed_inside hroom hpre hpart
      exact .inl ⟨hf, hrest ▸ ⟨r, hr, by simp [himage], rfl⟩⟩

end Stream
end Framing
