import Wasivst.Instance.Quiet

/-!
# What `getParam` is resolved with

The ids that come back are those of the calls, in the order of the calls, so the promises of an
instance behave like the continuations of `Correlation`. The values are those of the plugin that
is asked everything in turn: a parameter read after a write sees it, and a block between the two
is played between the two.
-/

set_option autoImplicit false

namespace Wasivst
open Js Transition

def Dispatched.id : Dispatched → Option UInt32
  | .getParamResp id _ => some id
  | _ => none

def HostWrite.id : HostWrite → Option UInt32
  | .getParamResp id _ => some id
  | _ => none

def HostWrite.value : HostWrite → Option UInt64
  | .getParamResp _ value => some value
  | _ => none

namespace Instance
open HostStream SerialChannel GetParam

variable {σ : Type} {withVst3 : Bool} {P : Plugin σ} {opened : List UInt8 → σ} {path : JsString}

/-- The values of the sequential plugin for the `getParam` calls among `ms`. -/
def paramValues (P : Plugin σ) (p : σ) (ms : List Message) : List UInt64 :=
  (answers P p ms).filterMap HostWrite.value

def State.values (s : State σ) : List UInt64 := s.dispatched.filterMap Dispatched.answer

/-- What the promise of call `i` is resolved with, in order. -/
def State.given (s : State σ) (i : Nat) : List UInt64 :=
  s.page.resolved.filterMap fun r => if r.1 = i then some r.2 else none

/-- No earlier call with the id is waiting for its answer, and the id survives the wire. -/
def Distinct (s : State σ) : Action → Prop
  | .getParam id => (∃ w, id = JsValue.ofUint32 w) ∧ id ∉ s.page.calls.drop s.values.length
  | _ => True

def promises (s : State σ) : Correlation.State JsValue UInt64 :=
  ⟨s.page.calls, s.page.paramResolvers, s.values, s.page.resolved⟩

theorem answers_cons (p : σ) (m : Message) (ms : List Message) :
    answers P p (m :: ms) = writes P p m.frame ++ answers P (ask P p m).1 ms := rfl

theorem ids_answers (p : σ) (ms : List Message) :
    (answers P p ms).filterMap HostWrite.id = (ms.filterMap asked).map JsValue.toUint32 := by
  induction ms generalizing p with
  | nil => rfl
  | cons m ms ih =>
    rw [answers_cons, List.filterMap_append, ih]
    cases m <;> simp [writes, HostWrite.id, asked, Message.frame, List.filterMap_cons]

variable {s t : State σ}

theorem id_received (w : HostWrite) : w.received.id = w.id := by
  cases w <;> rfl

theorem value_received (w : HostWrite) : w.received.answer = w.value := by
  cases w <;> rfl

theorem Reached.ids_prefix (h : Reached P opened path s) :
    s.dispatched.filterMap Dispatched.id <+: s.page.calls.map JsValue.toUint32 := by
  have hprefix := h.dispatched_prefix.filterMap Dispatched.id
  rw [filterMap_received id_received] at hprefix
  rw [h.counted.calls, ← ids_answers (P := P) (opened (textEncode path)) s.sent]
  exact hprefix

theorem Reached.values_prefix (h : Reached P opened path s) :
    s.values <+: paramValues P (opened (textEncode path)) s.sent := by
  have hprefix := h.dispatched_prefix.filterMap Dispatched.answer
  rw [filterMap_received value_received] at hprefix
  exact hprefix

theorem Quiet.values_all (h : Quiet withVst3 P opened s) (hs : Reached P opened path s)
    (hpath : (textEncode path).length < 2 ^ 32)
    (hkind : Main.hostFor withVst3 (textEncode path) = .vst2) :
    s.values = paramValues P (opened (textEncode path)) s.sent := by
  rw [State.values, h.dispatched_all hs hpath hkind, filterMap_received value_received]
  rfl

theorem length_ids (ds : List Dispatched) :
    (ds.filterMap Dispatched.id).length = (ds.filterMap Dispatched.answer).length := by
  induction ds with
  | nil => rfl
  | cons d ds ih =>
    cases d <;> simpa [Dispatched.id, Dispatched.answer, List.filterMap_cons] using ih

/-! ## Promises -/

theorem promises_poll (h : poll s = some t) : promises t = promises s := by
  unfold poll at h
  split at h
  · cases h
    rcases check_cases s.page with hc | hc
    · rw [hc]
      rfl
    · rw [hc]
      rfl
  · cases h

theorem promises_handle {e : Engine} (h : handle e s = some t) : promises t = promises s := by
  unfold handle at h
  split at h
  · cases h
  · cases h
    rfl
  · cases h
    rfl

theorem promises_serve (h : serve withVst3 P opened s = some t) : promises t = promises s := by
  unfold serve at h
  split at h
  · split at h
    · cases h
    · split_ifs at h
      cases h
      rfl
  · split at h
    · cases h
    · cases h
      rfl

/-- A byte is silent for the promises or settles the oldest call that is not answered. -/
theorem promises_deliver (hs : Reached P opened path s) (ht : Reached P opened path t)
    (h : deliver s = some t) :
    promises t = promises s ∨
      ∃ v, Correlation.step echoed (promises s) (.reply v) = some (promises t) := by
  obtain ⟨hc, r, hr, _⟩ := hs
  have hids := ht.ids_prefix
  unfold deliver at h
  cases hbytes : s.toPage with
  | nil => simp [hbytes] at h
  | cons b rest =>
    simp only [hbytes] at h
    cases h
    obtain ⟨line, _, ⟨hframes, _⟩ | ⟨w, line', _, _, hd⟩⟩ := hr.next_byte hbytes
    · refine .inl ?_
      simp only [promises, State.values, Client.onByte, hframes, List.append_nil, List.foldl_nil]
    · simp only [hd, calls_onByte] at hids
      simp only [promises, State.values, Client.onByte, hd, List.foldl_cons, List.foldl_nil,
        List.filterMap_append]
      generalize w.val.received = d at hids ⊢
      cases d with
      | processResp channels => exact .inl (by simp [Client.dispatch, Dispatched.answer])
      | log level subsystem message => exact .inl (by simp [Client.dispatch, Dispatched.answer])
      | getParamResp id v =>
        refine .inr ⟨v, ?_⟩
        have hlen := length_ids s.dispatched
        have hget : (s.page.calls.map JsValue.toUint32)[s.values.length]? = some id := by
          obtain ⟨rest, hrest⟩ := hids
          rw [← hrest, List.filterMap_append, State.values, ← hlen]
          simp [Dispatched.id]
        rw [List.getElem?_map, Option.map_eq_some_iff] at hget
        obtain ⟨key, hkey, hid⟩ := hget
        have hecho : echoed key = JsValue.ofUint32 id := congrArg JsValue.ofUint32 hid
        have hreply : (promises s).calls[(promises s).replies.length]? = some key := hkey
        simp only [promises, State.values] at hreply
        simp only [Correlation.step, hreply, hecho]
        rfl

theorem promises_matches (hpath : (textEncode path).length < 2 ^ 32) :
    Matches (step withVst3 P opened) (Correlation.step echoed) Distinct (Correlation.Fresh echoed)
      promises (Reached P opened path) := by
  intro s a t hs ht
  cases a with
  | render input output =>
    cases ht
    exact .inr ⟨rfl, trivial⟩
  | setParam id value =>
    simp only [step, command] at ht
    split_ifs at ht
    cases ht
    exact .inr ⟨rfl, trivial⟩
  | getParam id =>
    simp only [step, command] at ht
    split_ifs at ht
    cases ht
    refine .inl ⟨.call id, rfl, ?_⟩
    simp only [Distinct, Correlation.Fresh, echoed_eq_iff, promises]
  | poll => exact .inr ⟨promises_poll ht, trivial⟩
  | handle => exact .inr ⟨promises_handle ht, trivial⟩
  | serve => exact .inr ⟨promises_serve ht, trivial⟩
  | deliver =>
    have hreached : Reached P opened path t := reached_step hpath s .deliver t hs ht
    rcases promises_deliver hs hreached ht with hstay | ⟨v, hv⟩
    · exact .inr ⟨hstay, trivial⟩
    · exact .inl ⟨.reply v, hv, Iff.rfl⟩
  | receive =>
    simp only [step, receive] at ht
    split at ht
    · cases ht
    · cases ht
      exact .inr ⟨rfl, trivial⟩

theorem settled_of_distinct (hpath : (textEncode path).length < 2 ^ 32) {as : List Action}
    (h : run (step withVst3 P opened) (start path) as = some s)
    (hd : Meets (step withVst3 P opened) Distinct (start path) as) : (promises s).Settled := by
  obtain ⟨bs, hrun, hmeets⟩ :=
    (promises_matches hpath).run (reached_step hpath) (reached_start (P := P)) h
  exact Correlation.settled_of_fresh (hmeets.mp hd) hrun

theorem length_paramValues (h : Reached P opened path s) :
    (paramValues P (opened (textEncode path)) s.sent).length = s.page.calls.length := by
  have hlen := length_ids ((answers P (opened (textEncode path)) s.sent).map HostWrite.received)
  rw [filterMap_received id_received, filterMap_received value_received, ids_answers,
    List.length_map] at hlen
  rw [h.counted.calls]
  exact hlen.symm

/-- As long as open ids differ, the promise of the `i`-th `getParam` is resolved at most once,
and with the value that the plugin gives at that place of the sequence of all it is asked; in an
instance at rest every promise is resolved. -/
theorem params_in_sequence (hpath : (textEncode path).length < 2 ^ 32) {as : List Action}
    (h : run (step withVst3 P opened) (start path) as = some s)
    (hd : Meets (step withVst3 P opened) Distinct (start path) as) (i : Nat)
    (hi : i < s.page.calls.length) :
    ∃ v, (paramValues P (opened (textEncode path)) s.sent)[i]? = some v ∧
      (s.given i = [] ∨ s.given i = [v]) ∧
      (Main.hostFor withVst3 (textEncode path) = .vst2 → Quiet withVst3 P opened s →
        s.given i = [v]) := by
  have hs : Reached P opened path s := reached_run hpath h
  have hgiven : s.given i = (s.values[i]?).toList := settled_of_distinct hpath h hd i
  obtain ⟨v, hv⟩ : ∃ v, (paramValues P (opened (textEncode path)) s.sent)[i]? = some v :=
    ⟨_, List.getElem?_eq_getElem (length_paramValues hs ▸ hi)⟩
  refine ⟨v, hv, ?_, ?_⟩
  · rw [hgiven]
    cases hvalue : s.values[i]? with
    | none => exact .inl rfl
    | some u =>
      obtain ⟨rest, hrest⟩ := hs.values_prefix
      rw [← hrest, List.getElem?_append_left (List.getElem?_eq_some_iff.mp hvalue).1, hvalue] at hv
      rw [Option.some.inj hv]
      exact .inr rfl
  · intro hkind hq
    rw [hgiven, hq.values_all hs hpath hkind, hv]
    rfl

def opening : List Action := [.serve, .deliver, .poll]

def readTwice : List Action :=
  .getParam (.ofUint32 7) :: .getParam (.ofUint32 8) :: .serve :: .serve ::
    List.replicate 71 .deliver

theorem command_calls {m : Message} (h : command s m = some t) :
    t.page.calls = s.page.calls ++ (asked m).toList := by
  unfold command at h
  split_ifs at h
  cases h
  exact calls_send s.page m

theorem readTwice_distinct {u : State σ} (hu : u.page.calls = []) :
    Meets (step withVst3 P opened) Distinct u readTwice := by
  have hid : JsValue.ofUint32 8 ≠ JsValue.ofUint32 7 := by decide
  refine ⟨⟨⟨7, rfl⟩, ?_⟩, ?_⟩
  · rw [hu, List.drop_nil]
    exact List.not_mem_nil
  · intro v hv
    have hcalls := command_calls hv
    rw [hu] at hcalls
    refine ⟨⟨⟨8, rfl⟩, ?_⟩, ?_⟩
    · intro hmem
      rw [hcalls] at hmem
      exact hid (List.mem_singleton.mp (List.mem_of_mem_drop hmem))
    · intro w _
      apply meets_of_forall
      intro a ha x
      rcases List.mem_cons.mp ha with rfl | ha
      · trivial
      rcases List.mem_cons.mp ha with rfl | ha
      · trivial
      · rw [List.eq_of_mem_replicate ha]
        trivial

theorem readTwice_resolved : ∃ s,
    run (step false playing fun _ => 5) (start [0x61]) (opening ++ readTwice) = some s ∧
      ∃ v, (paramValues playing 5 s.sent)[1]? = some v ∧ (s.given 1 = [] ∨ s.given 1 = [v]) ∧
        (Main.hostFor false (textEncode [0x61]) = .vst2 →
          Quiet false playing (fun _ => 5) s → s.given 1 = [v]) := by
  obtain ⟨s, hs, hcalls⟩ := Option.map_eq_some_iff.mp
    (by decide +kernel : (run (step false playing fun _ => 5) (start [0x61])
      (opening ++ readTwice)).map (fun s => s.page.calls.length) = some 2)
  refine ⟨s, hs, params_in_sequence (by decide) hs ?_ 1 (by omega)⟩
  apply meets_append
  · exact ⟨trivial, fun _ _ => ⟨trivial, fun _ _ => ⟨trivial, fun _ _ => trivial⟩⟩⟩
  · intro u hu
    have hlen : (run (step false playing fun _ => 5) (start [0x61]) opening).map
        (fun s => s.page.calls.length) = some 0 := by
      decide +kernel
    rw [hu] at hlen
    exact readTwice_distinct (List.length_eq_zero_iff.mp (Option.some.inj hlen))

end Instance
end Wasivst
