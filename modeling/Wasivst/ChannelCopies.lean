import Wasivst.Vst3.AudioCopies

/-!
# Channels that a plugin reads and fills

What the bridges of VST3 and CLAP have in common: a plugin follows pointers into the shared memory
to read and to fill the channels of its buses, and the channels that it has filled are copied to
those of the host.
-/

set_option autoImplicit false

namespace ChannelCopies
open Regions
open Vst3 (Channels ChannelIndex channelAt channelAt_eq_some channelAt_modify overwrite rel_of_ne)

/-! ## Indices -/

/-- All indices for these numbers of channels, by bus. -/
def indices (counts : List Nat) : List ChannelIndex :=
  (List.range counts.length).flatMap fun bus =>
    (List.range (counts.getD bus 0)).map fun channel => (bus, channel)

theorem mem_indices (counts : List Nat) (k : ChannelIndex) :
    k ∈ indices counts ↔ k.2 < counts.getD k.1 0 := by
  simp only [indices, List.mem_flatMap, List.mem_map, List.mem_range]
  constructor
  · intro h
    obtain ⟨bus, _, channel, hchannel, rfl⟩ := h
    exact hchannel
  · intro h
    refine ⟨k.1, ?_, k.2, h, rfl⟩
    by_contra hle
    rw [List.getD_eq_getElem?_getD, List.getElem?_eq_none (Nat.le_of_not_lt hle)] at h
    exact Nat.not_lt_zero _ h

theorem nodup_indices (counts : List Nat) : (indices counts).Nodup := by
  unfold indices
  rw [List.nodup_flatMap]
  constructor
  · intro bus _
    exact List.nodup_range.map fun _ _ h => (Prod.mk.inj h).2
  · apply List.pairwise_lt_range.imp
    intro a b hab k ha hb
    obtain ⟨_, _, rfl⟩ := List.mem_map.mp ha
    obtain ⟨_, _, heq⟩ := List.mem_map.mp hb
    exact Nat.ne_of_gt hab (Prod.mk.inj heq).1

section Lookup
variable {α : Type} {xss yss : List (List α)} {k : ChannelIndex}

theorem channelAt_eq (xss : List (List α)) (k : ChannelIndex) :
    channelAt xss k = (xss.getD k.1 [])[k.2]? := by
  unfold channelAt
  rw [List.getD_eq_getElem?_getD]
  cases xss[k.1]? <;> rfl

theorem channelAt_isSome : (channelAt xss k).isSome ↔ k.2 < (xss.getD k.1 []).length := by
  rw [channelAt_eq, isSome_getElem?]

theorem getD_length (xss : List (List α)) (bus : Nat) :
    (xss.getD bus []).length = (xss.map List.length).getD bus 0 := by
  rw [List.getD_eq_getElem?_getD, List.getD_eq_getElem?_getD, List.getElem?_map]
  cases xss[bus]? with
  | none => rfl
  | some xs => rfl

theorem channelAt_isSome_iff {counts : List Nat} (h : xss.map List.length = counts) :
    (channelAt xss k).isSome ↔ k ∈ indices counts := by
  rw [channelAt_isSome, mem_indices, getD_length, h]

theorem ext_channelAt (hlen : xss.length = yss.length)
    (h : ∀ k, channelAt xss k = channelAt yss k) : xss = yss := by
  apply List.ext_getElem hlen
  intro bus hx hy
  apply List.ext_getElem?
  intro channel
  have hk := h (bus, channel)
  simpa only [channelAt, List.getElem?_eq_getElem hx, List.getElem?_eq_getElem hy,
    Option.bind_some] using hk

end Lookup

/-! ## Reading -/

theorem mapM_eq_some {α β : Type} {f : α → Option β} {xs : List α} {ys : List β}
    (hlen : xs.length = ys.length)
    (h : ∀ (i : Nat) x y, xs[i]? = some x → ys[i]? = some y → f x = some y) :
    xs.mapM f = some ys := by
  induction xs generalizing ys with
  | nil =>
    cases ys with
    | nil => rfl
    | cons y ys => cases hlen
  | cons x xs ih =>
    cases ys with
    | nil => cases hlen
    | cons y ys =>
      have hhead : f x = some y := h 0 x y rfl rfl
      have htail : xs.mapM f = some ys :=
        ih (Nat.succ.inj hlen) fun i x y hx hy => h (i + 1) x y hx hy
      simp only [List.mapM_cons, hhead, htail, Option.bind_eq_bind, Option.bind_some,
        Option.pure_def]

/-- The first channels of an array of pointers. -/
def readChannels (mem : List UInt8) (n count : Nat) (places : List Nat) :
    Option (List (List UInt8)) :=
  (List.range count).mapM fun channel => do load mem (← places[channel]?) n

theorem readChannels_eq {mem : List UInt8} {n : Nat} {places : List Nat} {chs : List (List UInt8)}
    (h : ∀ (i : Nat) ch, chs[i]? = some ch → ∃ o, places[i]? = some o ∧ load mem o n = some ch) :
    readChannels mem n chs.length places = some chs := by
  apply mapM_eq_some List.length_range
  intro i j ch hj hch
  obtain ⟨hlt, rfl⟩ := List.getElem?_eq_some_iff.mp hj
  obtain ⟨o, ho, hload⟩ := h i ch hch
  rw [List.getElem_range, ho]
  exact hload

/-! ## Updates of buses -/

section Update
variable {α β β' γ δ : Type} (u : α → γ → α) {g : β → γ} {as : List α} {bs : List β}

theorem map_update_kept {f : α → δ} (hf : ∀ a c, f (u a c) = f a) (h : bs.length = as.length) :
    (List.zipWith (fun a b => u a (g b)) as bs).map f = as.map f := by
  induction as generalizing bs with
  | nil => rfl
  | cons a as ih =>
    cases bs with
    | nil => cases h
    | cons b bs => simp only [List.zipWith_cons_cons, List.map_cons, hf, ih (Nat.succ.inj h)]

theorem map_update_set {f : α → γ} (hf : ∀ a c, f (u a c) = c) (h : bs.length = as.length) :
    (List.zipWith (fun a b => u a (g b)) as bs).map f = bs.map g := by
  induction as generalizing bs with
  | nil =>
    obtain rfl := List.eq_nil_of_length_eq_zero h
    rfl
  | cons a as ih =>
    cases bs with
    | nil => cases h
    | cons b bs => simp only [List.zipWith_cons_cons, List.map_cons, hf, ih (Nat.succ.inj h)]

/-- Only what is written to the fields counts. -/
theorem update_congr {g' : β' → γ} {bs' : List β'} (h : bs'.map g' = bs.map g) :
    List.zipWith (fun a b => u a (g' b)) as bs' = List.zipWith (fun a b => u a (g b)) as bs :=
  calc
    _ = List.zipWith u as (bs'.map g') := List.zipWith_map_right.symm
    _ = List.zipWith u as (bs.map g) := by rw [h]
    _ = _ := List.zipWith_map_right

end Update

/-! ## Regions that lie apart -/

/-- No two of the regions overlap. -/
theorem apart_of_ne {offsets : List (List UInt32)} {n : Nat}
    (h : (offsets.flatten.map UInt32.toNat).Pairwise (Apart n)) {j k : ChannelIndex} (hjk : j ≠ k)
    {o p : UInt32} (ho : channelAt offsets j = some o) (hp : channelAt offsets k = some p) :
    Apart n o.toNat p.toNat := by
  have hpairs : offsets.flatten.Pairwise fun a b => Apart n a.toNat b.toNat :=
    List.pairwise_map.mp h
  exact rel_of_ne (fun _ _ => Apart.symm) hpairs hjk ho hp

/-- Channels that are written through their pointers are where the pointers lead. -/
theorem placeAll_channels {offsets : List (List UInt32)} {n : Nat} {mem : List UInt8}
    (hapart : (offsets.flatten.map UInt32.toNat).Pairwise (Apart n))
    (hroom : ∀ k o, channelAt offsets k = some o → o.toNat + n ≤ mem.length) {chs : Channels}
    {counts : List Nat} (hcounts : chs.map List.length = counts)
    (hlen : ∀ k ch, channelAt chs k = some ch → ch.length ≤ n)
    {place : ChannelIndex → Option Nat}
    (hplace : ∀ k ∈ indices counts,
      ∃ o, channelAt offsets k = some o ∧ place k = some o.toNat) :
    ∃ mem', placeAll place (channelAt chs) mem (indices counts) = some mem' ∧
      mem'.length = mem.length ∧
      ∀ k ch o, channelAt chs k = some ch → channelAt offsets k = some o →
        load mem' o.toNat ch.length = some ch := by
  have hks : ∀ k ∈ indices counts, ∃ o ch, place k = some o ∧ channelAt chs k = some ch ∧
      ch.length ≤ n ∧ o + n ≤ mem.length := by
    intro k hk
    obtain ⟨o, ho, hat⟩ := hplace k hk
    obtain ⟨ch, hch⟩ := Option.isSome_iff_exists.mp ((channelAt_isSome_iff hcounts).mpr hk)
    exact ⟨o.toNat, ch, hat, hch, hlen k ch hch, hroom k o ho⟩
  have hpairs : (indices counts).Pairwise fun j k =>
      ∀ a b, place j = some a → place k = some b → Apart n a b := by
    apply (nodup_indices counts).imp_of_mem
    intro j k hj hk hjk a b ha hb
    obtain ⟨o, ho, hat⟩ := hplace j hj
    obtain ⟨p, hp, hat'⟩ := hplace k hk
    obtain rfl := Option.some.inj (hat.symm.trans ha)
    obtain rfl := Option.some.inj (hat'.symm.trans hb)
    exact apart_of_ne hapart hjk ho hp
  obtain ⟨mem', hmem', hlength, hloads, _⟩ := placeAll_stored hks hpairs
  refine ⟨mem', hmem', hlength, ?_⟩
  intro k ch o hch ho
  have hk : k ∈ indices counts := by
    rw [← channelAt_isSome_iff hcounts, hch]
    rfl
  obtain ⟨o', ho', hat⟩ := hplace k hk
  obtain rfl := Option.some.inj (ho.symm.trans ho')
  exact hloads k hk _ ch hat hch

/-! ## The host's channels -/

/-- Each channel starts with the samples that there are for it. -/
def overwriteAll (samples chs : Channels) : Channels :=
  chs.mapIdx fun bus b => b.mapIdx fun channel ch =>
    (channelAt samples (bus, channel)).elim ch fun s => overwrite s ch

theorem channelAt_overwriteAll (samples chs : Channels) (k : ChannelIndex) :
    channelAt (overwriteAll samples chs) k =
      (channelAt chs k).map fun ch => (channelAt samples k).elim ch fun s => overwrite s ch := by
  unfold overwriteAll
  rw [channelAt, List.getElem?_mapIdx]
  unfold channelAt
  cases chs[k.1]? with
  | none => rfl
  | some b =>
    rw [Option.map_some, Option.bind_some, Option.bind_some, List.getElem?_mapIdx]

theorem eq_overwriteAll {samples chs chs' : Channels} (hlen : chs'.length = chs.length)
    (hfilled : ∀ k s ch, channelAt samples k = some s → channelAt chs k = some ch →
      channelAt chs' k = some (overwrite s ch))
    (hothers : ∀ k, channelAt samples k = none ∨ channelAt chs k = none →
      channelAt chs' k = channelAt chs k) :
    chs' = overwriteAll samples chs := by
  apply ext_channelAt
  · rw [hlen]
    exact List.length_mapIdx.symm
  · intro k
    rw [channelAt_overwriteAll]
    cases hch : channelAt chs k with
    | none => exact (hothers k (Or.inr hch)).trans hch
    | some ch =>
      cases hs : channelAt samples k with
      | none => exact (hothers k (Or.inl hs)).trans hch
      | some s => exact hfilled k s ch hs hch

/-- Each of the channels is overwritten with what its place in the memory holds. -/
def fetchAll (place : ChannelIndex → Option Nat) (n : ChannelIndex → Nat) (mem : List UInt8)
    (chs : Channels) (ks : List ChannelIndex) : Option Channels :=
  ks.foldlM (fun chs k => do
    let s ← load mem (← place k) (n k)
    let _ ← channelAt chs k
    return chs.modify k.1 fun bus => bus.modify k.2 (overwrite s)) chs

theorem fetchAll_fetched {place : ChannelIndex → Option Nat} {n : ChannelIndex → Nat}
    {mem : List UInt8} {samples chs : Channels} {ks : List ChannelIndex} (hnodup : ks.Nodup)
    (hks : ∀ k ∈ ks, ∃ s o ch, channelAt samples k = some s ∧ place k = some o ∧
      load mem o (n k) = some s ∧ channelAt chs k = some ch) :
    ∃ chs', fetchAll place n mem chs ks = some chs' ∧ chs'.length = chs.length ∧
      (∀ k ∈ ks, ∀ s ch, channelAt samples k = some s → channelAt chs k = some ch →
        channelAt chs' k = some (overwrite s ch)) ∧
      ∀ k, k ∉ ks → channelAt chs' k = channelAt chs k := by
  induction ks generalizing chs with
  | nil => exact ⟨chs, rfl, rfl, fun _ h => absurd h List.not_mem_nil, fun _ _ => rfl⟩
  | cons k ks ih =>
    obtain ⟨hk, hnodup⟩ := List.nodup_cons.mp hnodup
    rw [List.forall_mem_cons] at hks
    obtain ⟨⟨s, o, ch, hs, ho, hload, hch⟩, hks⟩ := hks
    set chs₁ := chs.modify k.1 fun bus => bus.modify k.2 (overwrite s) with hchs₁
    have hsame : ∀ j, j ≠ k → channelAt chs₁ j = channelAt chs j := by
      intro j hj
      rw [hchs₁, channelAt_modify, if_neg hj]
    have hks₁ : ∀ j ∈ ks, ∃ s o ch, channelAt samples j = some s ∧ place j = some o ∧
        load mem o (n j) = some s ∧ channelAt chs₁ j = some ch := by
      intro j hj
      rw [hsame j fun h => hk (h ▸ hj)]
      exact hks j hj
    obtain ⟨chs', hfold, hlen, hfetched, hothers⟩ := ih hnodup hks₁
    have hstep : fetchAll place n mem chs (k :: ks) = fetchAll place n mem chs₁ ks := by
      simp only [fetchAll, List.foldlM_cons, ho, hload, hch, Option.bind_eq_bind,
        Option.bind_some, Option.pure_def, hchs₁]
    refine ⟨chs', hstep.trans hfold, ?_, ?_, ?_⟩
    · rw [hlen, hchs₁, List.length_modify]
    · rw [List.forall_mem_cons]
      constructor
      · intro s' ch' hs' hch'
        obtain rfl := Option.some.inj (hs.symm.trans hs')
        rw [hothers k hk, hchs₁, channelAt_modify, if_pos rfl, hch', Option.map_some]
      · intro j hj s' ch' hs' hch'
        exact hfetched j hj s' ch' hs' ((hsame j fun h => hk (h ▸ hj)).trans hch')
    · intro j hj
      rw [List.mem_cons, not_or] at hj
      rw [hothers j hj.2, hsame j hj.1]

/-- If the places hold the samples of some channels, then those are what is fetched. -/
theorem fetchAll_eq {place : ChannelIndex → Option Nat} {n : ChannelIndex → Nat}
    {mem : List UInt8} {samples chs : Channels} {counts : List Nat}
    (hcounts : samples.map List.length = counts)
    (h : ∀ k s, channelAt samples k = some s → ∃ o ch, place k = some o ∧
      load mem o (n k) = some s ∧ channelAt chs k = some ch) :
    fetchAll place n mem chs (indices counts) = some (overwriteAll samples chs) := by
  have hks : ∀ k ∈ indices counts, ∃ s o ch, channelAt samples k = some s ∧ place k = some o ∧
      load mem o (n k) = some s ∧ channelAt chs k = some ch := by
    intro k hk
    obtain ⟨s, hs⟩ := Option.isSome_iff_exists.mp ((channelAt_isSome_iff hcounts).mpr hk)
    obtain ⟨o, ch, hall⟩ := h k s hs
    exact ⟨s, o, ch, hs, hall⟩
  obtain ⟨chs', hfetch, hlen, hfetched, hothers⟩ := fetchAll_fetched (nodup_indices counts) hks
  rw [hfetch, eq_overwriteAll hlen]
  · intro k s ch hs hch
    have hk : k ∈ indices counts := by
      rw [← channelAt_isSome_iff hcounts, hs]
      rfl
    exact hfetched k hk s ch hs hch
  · intro k hnone
    apply hothers
    rw [← channelAt_isSome_iff hcounts]
    intro hsome
    obtain ⟨s, hs⟩ := Option.isSome_iff_exists.mp hsome
    obtain ⟨_, ch, _, _, hch⟩ := h k s hs
    rcases hnone with hnone | hnone
    · rw [hs] at hnone
      cases hnone
    · rw [hch] at hnone
      cases hnone

end ChannelCopies
