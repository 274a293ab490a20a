import Wasivst.Lib.Remote
import Wasivst.ObjectStream

/-!
# `TypedMessageHandler`

`receive_into` on one socket against the body of `receive_messages`. A request of kind `k` is
answered with an object of the type that belongs to `k`; nothing on the wire says which that is.
The socket, both buffers and the objects that are decoded into outlive a message. Logging is
optional on either side, and a logger tells whether it has printed the request.
-/

set_option autoImplicit false

namespace TypedMessageHandler
open ObjectStream StreamReader Transition

variable {κ : Type} {T R : κ → Type} {τ : Type}

/-- `log_request` returns whether the request was not filtered out. -/
structure Logger (T : κ → Type) where
  is_host_plugin : Bool
  log_request : Bool → Object T → Bool

inductive Line (T R : κ → Type) where
  | request (is_host_plugin : Bool) (object : Object T)
  | response (is_host_plugin : Bool) (object : Object R)

/-- A `receive_into` that has written its request. -/
structure Waiting (T R : κ → Type) where
  request : Object T
  response_object : R request.1
  buffer : List UInt8

/-- `calls` and `responses` are histories of the sending side. -/
structure State (T R : κ → Type) (τ : Type) where
  up : List UInt8
  down : List UInt8
  waiting : Option (Waiting T R)
  calls : List (Object T)
  responses : List (Object R)
  sender_log : List (Line T R)
  handling : Option (Object T)
  persistent_object : Object T
  persistent_buffer : List UInt8
  callee : τ
  receiver_log : List (Line T R)

inductive Action (T R : κ → Type) where
  /-- `receive_into` up to the read, with a response object and a buffer that hold anything. -/
  | call (object : Object T) (response_object : R object.1) (buffer : List UInt8)
  /-- `process_message` up to the callback. -/
  | take
  | answer
  /-- The rest of `receive_into`. -/
  | receive

/-- Only for types whose `serialize` restores what was sent in whatever object. It does not restore
the position of a `YaBStream`, the list of a `GetNotePhysicalUIMapping` and what a `MessageReference`
refers to. -/
structure Setup (T R : κ → Type) (τ : Type) where
  request : QuickSerializer (Object T)
  response : ∀ k, QuickSerializer (R k)
  callback : τ → (object : Object T) → τ × R object.1
  persistent_buffers : Bool
  sender : Option (Logger T)
  receiver : Option (Logger T)

def requestLines (logging : Option (Logger T)) (x : Object T) : List (Line T R) :=
  match logging with
  | some l => if l.log_request l.is_host_plugin x then [.request l.is_host_plugin x] else []
  | none => []

/-- The response is printed if the request was. -/
def responseLines (logging : Option (Logger T)) (x : Object T) (y : R x.1) : List (Line T R) :=
  match logging with
  | some l =>
    if l.log_request l.is_host_plugin x then [.response (!l.is_host_plugin) ⟨x.1, y⟩] else []
  | none => []

variable (M : Setup T R τ)

/-- The buffer of the receiving side, which is a new one unless the buffers are persistent. -/
def Setup.buffer (s : State T R τ) : List UInt8 :=
  if M.persistent_buffers then s.persistent_buffer else []

def Setup.keep (s : State T R τ) (buffer : List UInt8) : List UInt8 :=
  if M.persistent_buffers then buffer else s.persistent_buffer

/-- A read blocks until its message is there. -/
def step (s : State T R τ) : Action T R → Option (State T R τ)
  | .call x response_object buffer =>
    match s.waiting with
    | some _ => none
    | none =>
      let (up, buffer) := write_object M.request s.up x buffer
      some
        { s with
          up := up
          waiting := some ⟨x, response_object, buffer⟩
          calls := s.calls ++ [x]
          sender_log := s.sender_log ++ requestLines M.sender x }
  | .take =>
    match s.handling with
    | some _ => none
    | none =>
      match (read_object M.request s.persistent_object (M.buffer s)).run s.up with
      | .error _ => none
      | .ok ((x, buffer), up) =>
        some
          { s with
            up := up
            handling := some x
            persistent_object := x
            persistent_buffer := M.keep s buffer
            receiver_log := s.receiver_log ++ requestLines M.receiver x }
  | .answer =>
    match s.handling with
    | none => none
    | some x =>
      let (callee, y) := M.callback s.callee x
      let (down, buffer) := write_object (M.response x.1) s.down y (M.buffer s)
      some
        { s with
          down := down
          handling := none
          persistent_buffer := M.keep s buffer
          callee := callee
          receiver_log := s.receiver_log ++ responseLines M.receiver x y }
  | .receive =>
    match s.waiting with
    | none => none
    | some w =>
      match (read_object (M.response w.request.1) w.response_object w.buffer).run s.down with
      | .error _ => none
      | .ok ((y, _), down) =>
        some
          { s with
            down := down
            waiting := none
            responses := s.responses ++ [⟨w.request.1, y⟩]
            sender_log := s.sender_log ++ responseLines M.sender w.request y }

def init (persistent_object : Object T) (persistent_buffer : List UInt8) (callee : τ) :
    State T R τ :=
  ⟨[], [], none, [], [], [], none, persistent_object, persistent_buffer, callee, []⟩

/-! ## One request after the other -/

def Setup.ask (callee : τ) (x : Object T) : τ × List (Object R) :=
  ((M.callback callee x).1, [⟨x.1, (M.callback callee x).2⟩])

def Setup.chat (logging : Option (Logger T)) (callee : τ) (x : Object T) : τ × List (Line T R) :=
  ((M.callback callee x).1, requestLines logging x ++ responseLines logging x (M.callback callee x).2)

/-- The responses to `xs` when they are asked for one after the other. -/
def Setup.results (callee : τ) (xs : List (Object T)) : List (Object R) :=
  Remote.outputs M.ask callee xs

/-- What a side with this logger prints then. -/
def Setup.transcript (logging : Option (Logger T)) (callee : τ) (xs : List (Object T)) :
    List (Line T R) :=
  Remote.outputs (M.chat logging) callee xs

def Setup.after (callee : τ) (xs : List (Object T)) : τ := Remote.after M.ask callee xs

theorem results_snoc (callee : τ) (xs : List (Object T)) (x : Object T) :
    M.results callee (xs ++ [x]) =
      M.results callee xs ++ [⟨x.1, (M.callback (M.after callee xs) x).2⟩] :=
  Remote.outputs_snoc M.ask callee xs x

theorem transcript_snoc (logging : Option (Logger T)) (callee : τ) (xs : List (Object T))
    (x : Object T) :
    M.transcript logging callee (xs ++ [x]) = M.transcript logging callee xs ++
      (requestLines logging x ++ responseLines logging x (M.callback (M.after callee xs) x).2) :=
  Remote.outputs_snoc (M.chat logging) callee xs x

theorem after_snoc (callee : τ) (xs : List (Object T)) (x : Object T) :
    M.after callee (xs ++ [x]) = (M.callback (M.after callee xs) x).1 :=
  Remote.after_snoc M.ask callee xs x

/-! ## The stages of an exchange -/

/-- The calls before the last one are over. `w` is the last one as long as it is not. -/
structure Exchanged (callee : τ) (done : List (Object T)) (w : Option (Waiting T R))
    (s : State T R τ) : Prop where
  waiting : s.waiting = w
  calls : s.calls = done ++ (w.map Waiting.request).toList
  responses : s.responses = M.results callee done
  sender_log : s.sender_log = M.transcript M.sender callee done ++
    (w.map fun w => requestLines M.sender w.request).getD []

inductive Inv (callee : τ) (s : State T R τ) : Prop where
  | idle (done : List (Object T)) (exchanged : Exchanged M callee done none s) (up : s.up = [])
      (down : s.down = []) (handling : s.handling = none) (after : s.callee = M.after callee done)
      (log : s.receiver_log = M.transcript M.receiver callee done)
  | sent (done : List (Object T)) (w : Waiting T R)
      (exchanged : Exchanged M callee done (some w) s) (up : s.up = frame M.request w.request)
      (down : s.down = []) (handling : s.handling = none) (after : s.callee = M.after callee done)
      (log : s.receiver_log = M.transcript M.receiver callee done)
  | taken (done : List (Object T)) (w : Waiting T R)
      (exchanged : Exchanged M callee done (some w) s) (up : s.up = []) (down : s.down = [])
      (handling : s.handling = some w.request) (after : s.callee = M.after callee done)
      (log : s.receiver_log =
        M.transcript M.receiver callee done ++ requestLines M.receiver w.request)
  | answered (done : List (Object T)) (w : Waiting T R)
      (exchanged : Exchanged M callee done (some w) s) (up : s.up = [])
      (down : s.down = frame (M.response w.request.1)
        (M.callback (M.after callee done) w.request).2)
      (handling : s.handling = none) (after : s.callee = M.after callee (done ++ [w.request]))
      (log : s.receiver_log = M.transcript M.receiver callee (done ++ [w.request]))

variable {M} {callee : τ} {s t : State T R τ}

theorem inv_init (object : Object T) (buffer : List UInt8) (callee : τ) :
    Inv M callee (init object buffer callee : State T R τ) :=
  .idle [] ⟨rfl, rfl, rfl, rfl⟩ rfl rfl rfl rfl rfl

theorem inv_call (hs : Inv M callee s) {x : Object T} {response_object : R x.1}
    {buffer : List UInt8} (h : step M s (.call x response_object buffer) = some t) :
    Inv M callee t := by
  cases hs with
  | idle done hex hup hdown hhandling hafter hlog =>
    simp only [step, hex.waiting] at h
    cases h
    refine .sent done ⟨x, response_object, _⟩ ⟨rfl, ?_, hex.responses, ?_⟩ ?_ hdown hhandling hafter
      hlog
    · rw [hex.calls]
      simp
    · rw [hex.sender_log]
      simp
    · rw [write_object_socket, hup, List.nil_append]
  | sent done w hex => simp [step, hex.waiting] at h
  | taken done w hex => simp [step, hex.waiting] at h
  | answered done w hex => simp [step, hex.waiting] at h

theorem read_nothing {α : Type} (S : QuickSerializer α) (object : α) (buffer : List UInt8) :
    (read_object S object buffer).run [] = .error .incomplete := rfl

theorem read_frame {α : Type} (S : QuickSerializer α) (x old : α) (buffer : List UInt8) :
    (read_object S old buffer).run (frame S x) = .ok ((x, S.image x), []) := by
  have h := consumes_read_object S x old buffer []
  rwa [List.append_nil] at h

theorem inv_take (hs : Inv M callee s) (h : step M s .take = some t) : Inv M callee t := by
  cases hs with
  | idle done hex hup hdown hhandling => simp [step, hhandling, hup, read_nothing] at h
  | sent done w hex hup hdown hhandling hafter hlog =>
    simp only [step, hhandling, hup, read_frame] at h
    cases h
    refine .taken done w ⟨hex.waiting, hex.calls, hex.responses, hex.sender_log⟩ rfl hdown rfl
      hafter ?_
    rw [hlog]
  | taken done w hex hup hdown hhandling => simp [step, hhandling] at h
  | answered done w hex hup hdown hhandling => simp [step, hhandling, hup, read_nothing] at h

theorem inv_answer (hs : Inv M callee s) (h : step M s .answer = some t) : Inv M callee t := by
  cases hs with
  | idle done hex hup hdown hhandling => simp [step, hhandling] at h
  | sent done w hex hup hdown hhandling => simp [step, hhandling] at h
  | taken done w hex hup hdown hhandling hafter hlog =>
    simp only [step, hhandling] at h
    cases h
    refine .answered done w ⟨hex.waiting, hex.calls, hex.responses, hex.sender_log⟩ hup ?_ rfl ?_ ?_
    · rw [write_object_socket, hdown, List.nil_append, hafter]
    · rw [after_snoc, hafter]
    · rw [transcript_snoc, hlog, hafter, List.append_assoc]
  | answered done w hex hup hdown hhandling => simp [step, hhandling] at h

theorem inv_receive (hs : Inv M callee s) (h : step M s .receive = some t) : Inv M callee t := by
  cases hs with
  | idle done hex => simp [step, hex.waiting] at h
  | sent done w hex hup hdown => simp [step, hex.waiting, hdown, read_nothing] at h
  | taken done w hex hup hdown => simp [step, hex.waiting, hdown, read_nothing] at h
  | answered done w hex hup hdown hhandling hafter hlog =>
    simp only [step, hex.waiting, hdown, read_frame] at h
    cases h
    refine .idle (done ++ [w.request]) ⟨rfl, ?_, ?_, ?_⟩ hup rfl hhandling hafter hlog
    · rw [hex.calls]
      simp
    · rw [results_snoc, hex.responses]
    · rw [transcript_snoc, hex.sender_log]
      simp

theorem inv_step (s : State T R τ) (a : Action T R) (t : State T R τ) (hs : Inv M callee s)
    (h : step M s a = some t) : Inv M callee t := by
  cases a with
  | call x response_object buffer => exact inv_call hs h
  | take => exact inv_take hs h
  | answer => exact inv_answer hs h
  | receive => exact inv_receive hs h

/-- A call under way can always go on. -/
theorem Inv.progress (hs : Inv M callee s) (hw : s.waiting ≠ none) :
    ∃ t, step M s .take = some t ∨ step M s .answer = some t ∨ step M s .receive = some t := by
  cases hs with
  | idle done hex => exact absurd hex.waiting hw
  | sent done w hex hup hdown hhandling =>
    simp only [step, hhandling, hup, read_frame]
    exact ⟨_, .inl rfl⟩
  | taken done w hex hup hdown hhandling =>
    simp only [step, hhandling]
    exact ⟨_, .inr (.inl rfl)⟩
  | answered done w hex hup hdown =>
    simp only [step, hex.waiting, hdown, read_frame]
    exact ⟨_, .inr (.inr rfl)⟩

theorem Inv.answered_calls (hs : Inv M callee s) :
    ∃ done, s.calls = done ++ (s.waiting.map Waiting.request).toList ∧
      s.responses = M.results callee done ∧
      (s.waiting = none → s.sender_log = M.transcript M.sender callee done ∧
        s.receiver_log = M.transcript M.receiver callee done) := by
  cases hs with
  | idle done hex hup hdown hhandling hafter hlog =>
    refine ⟨done, hex.waiting ▸ hex.calls, hex.responses, fun _ => ⟨?_, hlog⟩⟩
    rw [hex.sender_log]
    exact List.append_nil _
  | sent done w hex =>
    exact ⟨done, hex.waiting ▸ hex.calls, hex.responses, fun h => by cases hex.waiting.symm.trans h⟩
  | taken done w hex =>
    exact ⟨done, hex.waiting ▸ hex.calls, hex.responses, fun h => by cases hex.waiting.symm.trans h⟩
  | answered done w hex =>
    exact ⟨done, hex.waiting ▸ hex.calls, hex.responses, fun h => by cases hex.waiting.symm.trans h⟩

/-- Whatever buffers and objects are reused, each call that is over has got the response of its own
type which the callback gave when asked for one request after the other; a call under way never
gets stuck; and a response is printed on a side if and only if its request was, right after it. -/
theorem typed_responses {object : Object T} {buffer : List UInt8} {as : List (Action T R)}
    (h : run (step M) (init object buffer callee) as = some t) :
    (∃ done, t.calls = done ++ (t.waiting.map Waiting.request).toList ∧
      t.responses = M.results callee done ∧
      (t.waiting = none → t.sender_log = M.transcript M.sender callee done ∧
        t.receiver_log = M.transcript M.receiver callee done)) ∧
      (t.waiting ≠ none →
        ∃ u, step M t .take = some u ∨ step M t .answer = some u ∨ step M t .receive = some u) := by
  have hinv : Inv M callee t := run_always inv_step (inv_init object buffer callee) h
  exact ⟨hinv.answered_calls, hinv.progress⟩

/-- Two kinds of request, a byte each; the responses are words. -/
def question : QuickSerializer (Object fun _ : Bool => UInt8) where
  image x := [if x.1 then 1 else 0, x.2]
  quickSerialization buffer x := ([if x.1 then 1 else 0, x.2] ++ buffer.drop 2, 2)
  quickDeserialization bytes old := (⟨bytes.getD 0 0 == 1, bytes.getD 1 old.2⟩, bytes.length == 2)
  image_lt _ := by simp
  serialization_eq _ _ := ⟨_, rfl⟩
  deserialization_eq x _ := by
    obtain ⟨k, v⟩ := x
    cases k <;> rfl

def counting : Setup (fun _ : Bool => UInt8) (fun _ => UInt32) UInt32 where
  request := question
  response _ := words ()
  callback n x := (n + 1, if x.1 then n else n + x.2.toUInt32)
  persistent_buffers := true
  sender := some ⟨true, fun _ x => x.1⟩
  receiver := none

def twoCalls : List (Action (fun _ : Bool => UInt8) (fun _ => UInt32)) :=
  [.call ⟨true, 3⟩ 9 [1, 2, 3], .take, .answer, .receive, .call ⟨false, 4⟩ 9 [], .take]

theorem twoCalls_responses : ∃ t, run (step counting) (init ⟨false, 0⟩ [7] 5) twoCalls = some t ∧
    (∃ done, t.calls = done ++ (t.waiting.map Waiting.request).toList ∧
      t.responses = counting.results 5 done ∧
      (t.waiting = none → t.sender_log = counting.transcript counting.sender 5 done ∧
        t.receiver_log = counting.transcript counting.receiver 5 done)) ∧
      (t.waiting ≠ none → ∃ u, step counting t .take = some u ∨
        step counting t .answer = some u ∨ step counting t .receive = some u) := by
  obtain ⟨t, ht⟩ : ∃ t, run (step counting) (init ⟨false, 0⟩ [7] 5) twoCalls = some t :=
    Option.isSome_iff_exists.mp (by rfl)
  exact ⟨t, ht, typed_responses ht⟩

end TypedMessageHandler
