import Mathlib.Data.Prod.Lex
import Wasivst.Instance.Order

/-!
# An instance left alone comes to rest

No new audio, no commands, no timer: what is under way then keeps the parties busy for finitely
many steps, in whatever order they take them. When none is left, every block that the worklet
has posted is answered and its answer has reached the worklet.
-/

set_option autoImplicit false

namespace Wasivst
open Js Transition

namespace Instance
open HostStream SerialChannel

variable {σ : Type} {withVst3 : Bool} {P : Plugin σ} {opened : List UInt8 → σ} {path : JsString}

/-- Steps on what is under way. -/
def Action.Internal : Action → Prop
  | .handle _ | .serve | .deliver | .receive => True
  | _ => False

def Quiet (withVst3 : Bool) (P : Plugin σ) (opened : List UInt8 → σ) (s : State σ) : Prop :=
  ∀ a, a.Internal → step withVst3 P opened s a = none

/-! ## Work -/

def unhandled (s : State σ) : List Audio := (s.posted.drop s.handled).filterMap ProcessorMessage.audio

/-- A step does the work of its stage and leaves that of the stages before it alone. -/
def work (s : State σ) : Nat × Nat × Nat × Nat × Nat :=
  ((unhandled s).length, s.toHost.length, s.toPage.length, s.page.port.length - s.received,
    s.posted.length - s.handled)

def Less : Nat × Nat × Nat × Nat × Nat → Nat × Nat × Nat × Nat × Nat → Prop :=
  Prod.Lex (· < ·) (Prod.Lex (· < ·) (Prod.Lex (· < ·) (Prod.Lex (· < ·) (· < ·))))

theorem less_wf : WellFounded Less := by
  have h : WellFounded fun m n : Nat => m < n := Nat.lt_wfRel.wf
  exact h.prod_lex (h.prod_lex (h.prod_lex (h.prod_lex h)))

section Less
variable {a a' b b' c c' d d' e e' : Nat}

theorem less_first (h : a < a') : Less (a, b, c, d, e) (a', b', c', d', e') := Prod.Lex.left _ _ h

theorem less_second (h : b < b') : Less (a, b, c, d, e) (a, b', c', d', e') :=
  Prod.Lex.right _ (Prod.Lex.left _ _ h)

theorem less_third (h : c < c') : Less (a, b, c, d, e) (a, b, c', d', e') :=
  Prod.Lex.right _ (Prod.Lex.right _ (Prod.Lex.left _ _ h))

theorem less_fourth (h : d < d') : Less (a, b, c, d, e) (a, b, c, d', e') :=
  Prod.Lex.right _ (Prod.Lex.right _ (Prod.Lex.right _ (Prod.Lex.left _ _ h)))

theorem less_fifth (h : e < e') : Less (a, b, c, d, e) (a, b, c, d, e') :=
  Prod.Lex.right _ (Prod.Lex.right _ (Prod.Lex.right _ (Prod.Lex.right _ h)))

end Less

theorem readPluginPath_takes {stdin : List UInt8} {found rest : List UInt8}
    (h : Main.readPluginPath.run stdin = .ok (found, rest)) : rest.length < stdin.length := by
  unfold Main.readPluginPath at h
  rw [StateT.run_bind] at h
  cases htag : readNextTag.run stdin with
  | error e => rw [htag] at h; cases h
  | ok v =>
    obtain ⟨tag, body⟩ := v
    have hlt : body.length + 1 ≤ stdin.length := takes_nextTag _ _ _ htag
    rw [htag] at h
    cases tag with
    | none => cases h
    | some tag =>
      cases tag with
      | load =>
        have hbody : StreamReader.Takes 4 readLoadFrameBody :=
          takes_u32.bind fun _ => (takes_bytes _).mono (Nat.zero_le _)
        have hle : rest.length + 4 ≤ body.length := hbody _ _ _ h
        omega
      | _ => cases h

variable {s t : State σ}

theorem unhandled_of_next {m : ProcessorMessage} (h : s.posted[s.handled]? = some m) :
    unhandled s = m.audio.toList ++
      (s.posted.drop (s.handled + 1)).filterMap ProcessorMessage.audio := by
  obtain ⟨hlt, rfl⟩ := List.getElem?_eq_some_iff.mp h
  unfold unhandled
  rw [List.drop_eq_getElem_cons hlt, List.filterMap_cons]
  cases (s.posted[s.handled]).audio <;> rfl

theorem less_handle {e : Engine} (h : handle e s = some t) : Less (work t) (work s) := by
  unfold handle at h
  split at h
  · cases h
  · rename_i hget
    have hrest := unhandled_of_next hget
    have hlt := (List.getElem?_eq_some_iff.mp hget).1
    cases h
    unfold work
    rw [hrest]
    apply less_fifth
    exact Nat.sub_succ_lt_self _ _ hlt
  · rename_i channels hget
    have hrest := unhandled_of_next hget
    cases h
    unfold work
    rw [hrest]
    apply less_first
    exact Nat.lt_succ_self _

theorem less_serve (h : serve withVst3 P opened s = some t) : Less (work t) (work s) := by
  unfold serve at h
  split at h
  · split at h
    · cases h
    · rename_i found rest hread
      split_ifs at h
      cases h
      apply less_second
      exact readPluginPath_takes hread
  · split at h
    · cases h
    · rename_i v hbody
      cases h
      apply less_second
      exact Vst2Host.body_shrinks P _ v hbody

theorem less_deliver (h : deliver s = some t) : Less (work t) (work s) := by
  unfold deliver at h
  split at h
  · cases h
  · rename_i b rest hline
    cases h
    unfold work
    rw [hline]
    apply less_third
    exact Nat.lt_succ_self _

/-- What the worklet posts when it is told something is no audio. -/
theorem unhandled_message (w : Session.State) (m : PortMessage) (n : Nat) :
    ((Session.step w (.message m)).processor.posted.drop n).filterMap ProcessorMessage.audio =
      (w.processor.posted.drop n).filterMap ProcessorMessage.audio := by
  cases m with
  | processResp channels => rfl
  | ready =>
    have hposted : (Session.step w (.message .ready)).processor.posted =
        w.processor.posted ++ [.ready] := rfl
    rw [hposted, List.drop_append, List.filterMap_append]
    cases n - w.processor.posted.length <;> simp [ProcessorMessage.audio]

theorem less_receive (h : receive s = some t) : Less (work t) (work s) := by
  unfold receive at h
  split at h
  · cases h
  · rename_i m hget
    have hlt := (List.getElem?_eq_some_iff.mp hget).1
    have hrest := congrArg List.length (unhandled_message s.worklet m s.handled)
    cases h
    unfold work unhandled State.posted
    rw [hrest]
    apply less_fourth
    exact Nat.sub_succ_lt_self _ _ hlt

theorem internal_wf :
    WellFounded fun t s => ∃ a, Action.Internal a ∧ step withVst3 P opened s a = some t := by
  apply Subrelation.wf _ (InvImage.wf work less_wf)
  intro t s h
  obtain ⟨a, ha, hstep⟩ := h
  cases a with
  | handle e => exact less_handle hstep
  | serve => exact less_serve hstep
  | deliver => exact less_deliver hstep
  | receive => exact less_receive hstep
  | _ => cases ha

/-! ## Rest -/

theorem Quiet.posted_taken (h : Quiet withVst3 P opened s) : s.posted.length ≤ s.handled := by
  have hnone : handle .canonical s = none := h (.handle .canonical) trivial
  unfold handle at hnone
  split at hnone
  · rename_i hget
    exact List.getElem?_eq_none_iff.mp hget
  · cases hnone
  · cases hnone

theorem Quiet.port_taken (h : Quiet withVst3 P opened s) : s.page.port.length ≤ s.received := by
  have hnone : receive s = none := h .receive trivial
  unfold receive at hnone
  split at hnone
  · rename_i hget
    exact List.getElem?_eq_none_iff.mp hget
  · cases hnone

theorem Quiet.line_empty (h : Quiet withVst3 P opened s) : s.toPage = [] := by
  have hnone : deliver s = none := h .deliver trivial
  unfold deliver at hnone
  split at hnone
  · assumption
  · cases hnone

variable {r : Remote.State σ Message HostWrite}

/-- The host is up and has nothing to do. -/
theorem Quiet.served (h : Quiet withVst3 P opened s) (hr : Represents opened path s r)
    (hpath : (textEncode path).length < 2 ^ 32)
    (hkind : Main.hostFor withVst3 (textEncode path) = .vst2) :
    (∃ p, s.host = some p) ∧ r.requests = [] := by
  have hnone : serve withVst3 P opened s = none := h .serve trivial
  have htoHost := hr.toHost
  unfold serve at hnone
  cases hhost : s.host with
  | none =>
    simp only [boot, hhost] at htoHost
    simp [hhost, htoHost, Main.readPluginPath_encoded hpath, hkind] at hnone
  | some p =>
    refine ⟨⟨p, rfl⟩, ?_⟩
    simp only [boot, hhost, List.nil_append] at htoHost
    cases hreq : r.requests with
    | nil => rfl
    | cons m ms =>
      have hcons : s.toHost = m.frame.bytes ++ Message.encodeAll ms := by
        rw [htoHost, hreq, ← m.encode_eq]
        exact List.flatMap_cons
      have hbody := Vst2Host.body_frame P m.frame (Message.encodeAll ms) [] p
      rw [← hcons] at hbody
      simp [hhost, hbody] at hnone

theorem Quiet.replied (h : Quiet withVst3 P opened s) (hr : Represents opened path s r)
    (hhost : ∃ p, s.host = some p) : r.replies = [] := by
  obtain ⟨p, hp⟩ := hhost
  obtain ⟨line, hline, hpend⟩ := hr.line
  simp only [coming, hp, h.line_empty] at hpend
  cases line with
  | nil => exact hline
  | cons w line =>
    obtain ⟨q, hq, _, hempty⟩ := hpend
    exact absurd (List.append_eq_nil_iff.mp hempty.symm).1 hq

/-- All that the host has to say about what the page wrote is dispatched. -/
theorem Quiet.dispatched_all (h : Quiet withVst3 P opened s) (hs : Reached P opened path s)
    (hpath : (textEncode path).length < 2 ^ 32)
    (hkind : Main.hostFor withVst3 (textEncode path) = .vst2) :
    s.dispatched =
      ([startupLog] ++ answers P (opened (textEncode path)) s.sent).map HostWrite.received := by
  obtain ⟨_, r, hr, hinv⟩ := hs
  obtain ⟨hhost, hrequests⟩ := h.served hr hpath hkind
  have hall := Remote.received_of_empty hinv hrequests (h.replied hr hhost)
  rw [hr.sent] at hall
  rw [hr.dispatched, hall]
  rfl

/-- Left alone, an instance comes to rest, and wherever it does, each block that the worklet has
posted is answered by the plugin that is asked everything in turn, and the worklet has got the
answers, all of them and in order. -/
theorem comes_to_rest (hpath : (textEncode path).length < 2 ^ 32)
    (hkind : Main.hostFor withVst3 (textEncode path) = .vst2) :
    (WellFounded fun t s => ∃ a, Action.Internal a ∧ step withVst3 P opened s a = some t) ∧
      ∀ as s, run (step withVst3 P opened) (start path) as = some s → Quiet withVst3 P opened s →
        s.worklet.deliveries =
          (answeredAudio P (opened (textEncode path)) s.sent).map readBlock ∧
        s.sent.filterMap Message.audio = s.posted.filterMap ProcessorMessage.audio := by
  refine ⟨internal_wf, ?_⟩
  intro as s hrun hq
  have hs : Reached P opened path s := reached_run hpath hrun
  have hc := hs.counted
  constructor
  · rw [hc.deliveries, List.take_of_length_le hq.port_taken, hc.port,
      hq.dispatched_all hs hpath hkind, filterMap_audio_received, audio_greeting]
  · rw [hc.sent, List.take_of_length_le hq.posted_taken]

theorem playing_comes_to_rest :
    (WellFounded fun t s => ∃ a, Action.Internal a ∧
      step false playing (fun _ => 5) s a = some t) ∧
      ∀ as s, run (step false playing fun _ => 5) (start [0x61]) as = some s →
        Quiet false playing (fun _ => 5) s →
        s.worklet.deliveries = (answeredAudio playing 5 s.sent).map readBlock ∧
        s.sent.filterMap Message.audio = s.posted.filterMap ProcessorMessage.audio :=
  @comes_to_rest _ false playing (fun _ => 5) [0x61] (by decide) rfl

end Instance
end Wasivst
