import Wasivst.Lib.Remote
import Wasivst.Sockets.Endpoints

/-!
# The audio threads of `ClapSockets`

Any number of instances are created and destroyed while others are called. The threads of
`add_audio_thread_and_listen_control` and `add_audio_thread_and_listen_callback` go through their
programs in any order; they find each other by endpoints in one directory. A connection is queued
at whatever is bound to the endpoint. An instance is made known to the native side when the latch
of the other side is set, and it is destroyed once both sides are through. On a socket there is
one caller at a time. The map `audio_thread_sockets_` is changed under a mutex and looked up without
it; here a lookup never overlaps a change.
-/

set_option autoImplicit false

namespace ClapSockets
open Sockets Transition

/-- What a thread does until it handles messages. -/
inductive Op where
  /-- `try_emplace`, the constructor of `ClapAudioThreadSockets`. -/
  | emplace
  /-- `socket_listening_latch.set_value()` -/
  | latch
  /-- `connect()` of the socket that this side listens on. -/
  | accept
  /-- `connect()` of the other one. -/
  | connect
  /-- The acceptor of `receive_multi`. -/
  | listen

def program : Side → List Op
  | .wine => [.emplace, .latch, .accept, .connect, .listen]
  | .native => [.emplace, .connect, .accept, .latch, .listen]

inductive File where
  | absent
  | live (owner : Owner)
  /-- Nobody listens any more. -/
  | stale

variable {σ α β : Type}

/-- `pc` counts the operations that a side has done for an instance. `accepted` is the connection
that a listening socket has taken from its queue, named after the socket it comes from; in `channel`
are the messages of that connection and what the callback behind the listening socket acts on. -/
structure State (σ α β : Type) where
  files : Path → File
  pc : Key → Nat
  pending : Key → List Key
  accepted : Key → Option Key
  connected : Key → Option Owner
  removed : Key → Bool
  channel : Key → Remote.State σ α β
  thrown : Bool

inductive Action (α : Type) where
  /-- The next operation of the thread of a side for an instance. -/
  | next (key : Key)
  /-- `send_audio_thread_control_message`, or the one for callbacks, up to the read. -/
  | call (key : Key) (request : α)
  /-- One message of `receive_messages`. -/
  | serve (key : Key)
  /-- The rest of the call. -/
  | receive (key : Key)
  /-- `remove_audio_thread` -/
  | remove (key : Key)

/-- The callbacks of `receive_messages`, and what they act on at first. -/
structure Setup (σ α β : Type) where
  base_dir : Path
  callback : Key → σ → α → σ × β
  start : Key → σ

def Setup.machine (M : Setup σ α β) (k : Key) (s : σ) (a : α) : σ × List β :=
  ((M.callback k s a).1, [(M.callback k s a).2])

variable (M : Setup σ α β)

/-- The socket of the same instance that the other side listens on. -/
def peer (k : Key) : Key := (k.1.other, k.2)

def State.perform (t : State σ α β) (k : Key) : Op → Option (State σ α β)
  | .emplace =>
    match t.files (endpoint M.base_dir (.audio k)) with
    | .absent => some { t with
        files := Function.update t.files (endpoint M.base_dir (.audio k)) (.live (.audio k)) }
    | _ => some { t with thrown := true }
  | .latch => some t
  | .accept =>
    match t.pending k with
    | [] => none
    | c :: _ => some { t with
        accepted := Function.update t.accepted k (some c)
        pending := Function.update t.pending k []
        files := Function.update t.files (endpoint M.base_dir (.audio k)) .absent }
  | .connect =>
    match t.files (endpoint M.base_dir (.audio (peer k))) with
    | .live (.audio l) => some { t with
        pending := Function.update t.pending l (t.pending l ++ [peer k])
        connected := Function.update t.connected (peer k) (some (.audio l)) }
    | .live (.main side) => some { t with
        connected := Function.update t.connected (peer k) (some (.main side)) }
    | _ => some { t with thrown := true }
  | .listen =>
    match t.files (endpoint M.base_dir (.audio k)) with
    | .absent => some { t with
        files := Function.update t.files (endpoint M.base_dir (.audio k)) (.live (.audio k)) }
    | _ => some { t with thrown := true }

def State.advance (t : State σ α β) (k : Key) : State σ α β :=
  { t with pc := Function.update t.pc k (t.pc k + 1) }

def State.setChannel (t : State σ α β) (k : Key) (c : Remote.State σ α β) : State σ α β :=
  { t with channel := Function.update t.channel k c }

def State.gone (t : State σ α β) (k : Key) : Bool := t.removed k || t.removed (peer k)

def step (t : State σ α β) : Action α → Option (State σ α β)
  | .next k =>
    match (program k.1)[t.pc k]? with
    | none => none
    | some op =>
      if k.1 = .native ∧ t.pc (peer k) < 2 then none
      else (t.perform M k op).map fun u => u.advance k
  | .call k a =>
    match t.connected k with
    | none => none
    | some _ =>
      if t.gone k ∨ (t.channel k).sent.length ≠ (t.channel k).received.length then none
      else (Remote.step (M.machine k) (t.channel k) (.send a)).map (t.setChannel k)
  | .serve k =>
    match t.accepted k with
    | none => none
    | some c =>
      if t.gone k ∨ t.pc k < 5 then none
      else
        match (t.channel c).requests with
        | [] => none
        | a :: as =>
          let (current, reply) := M.callback k (t.channel k).current a
          let t := t.setChannel c { t.channel c with
            requests := as
            replies := (t.channel c).replies ++ [reply] }
          some (t.setChannel k { t.channel k with current := current })
  | .receive k =>
    if t.gone k then none
    else (Remote.step (M.machine k) (t.channel k) .receive).map (t.setChannel k)
  | .remove k =>
    if t.removed k ∨ t.pc k < 5 ∨ t.pc (peer k) < 5 then none
    else some { t with
      removed := Function.update t.removed k true
      files := Function.update t.files (endpoint M.base_dir (.audio k)) .stale }

/-- The sockets of the main threads are bound already. -/
def init : State σ α β where
  files p :=
    if p = endpoint M.base_dir (.main .wine) then .live (.main .wine)
    else if p = endpoint M.base_dir (.main .native) then .live (.main .native)
    else .absent
  pc _ := 0
  pending _ := []
  accepted _ := none
  connected _ := none
  removed _ := false
  channel k := Remote.init (M.start k) []
  thrown := false

/-! ## How far the two sides of an instance can be -/

def connectAt : Side → Nat
  | .wine => 3
  | .native => 1

/-- What becomes of an endpoint while its side goes on. -/
def fileOf (k : Key) (removed : Bool) (n : Nat) : File :=
  if removed then .stale
  else if n = 0 then .absent
  else if n ≤ 2 then .live (.audio k)
  else if n ≤ 4 then .absent
  else .live (.audio k)

structure Fits (t : State σ α β) (k : Key) : Prop where
  file : t.files (endpoint M.base_dir (.audio k)) = fileOf k (t.removed k) (t.pc k)
  pending : t.pending k =
    if connectAt (peer k).1 < t.pc (peer k) ∧ t.pc k ≤ 2 then [k] else []
  accepted : t.accepted k = if 2 < t.pc k then some k else none
  connected : t.connected k =
    if connectAt (peer k).1 < t.pc (peer k) then some (.audio k) else none

/-- A side gets no further than what it waits for. -/
structure Allowed (t : State σ α β) (i : UInt64) : Prop where
  wine_le : t.pc (.wine, i) ≤ 5
  native_le : t.pc (.native, i) ≤ 5
  known : 0 < t.pc (.native, i) → 1 < t.pc (.wine, i)
  control : 2 < t.pc (.wine, i) → 1 < t.pc (.native, i)
  callback : 2 < t.pc (.native, i) → 3 < t.pc (.wine, i)
  removed : ∀ s, t.removed (s, i) → t.pc (.wine, i) = 5 ∧ t.pc (.native, i) = 5

structure Inv (t : State σ α β) : Prop where
  fits : ∀ k, Fits M t k
  allowed : ∀ i, Allowed t i
  thrown : t.thrown = false

variable {M} {t u : State σ α β} {k : Key}

@[simp] theorem peer_peer (k : Key) : peer (peer k) = k := by
  rcases k with ⟨s, i⟩
  cases s <;> rfl

theorem peer_ne (k : Key) : peer k ≠ k := by
  rcases k with ⟨s, i⟩
  intro h
  cases s <;> cases congrArg Prod.fst h

theorem endpoint_ne {base_dir : Path} {k l : Key} (h : k ≠ l) :
    endpoint base_dir (.audio k) ≠ endpoint base_dir (.audio l) := by
  intro heq
  exact h (Owner.audio.inj (endpoint_injective heq))

theorem program_eq {s : Side} {n : Nat} {op : Op} (h : (program s)[n]? = some op) :
    n = match op with
      | .emplace => 0
      | .latch => 4 - connectAt s
      | .accept => 2
      | .connect => connectAt s
      | .listen => 4 := by
  have hn : n < (program s).length := by
    by_contra hn
    rw [List.getElem?_eq_none (Nat.not_lt.mp hn)] at h
    cases h
  cases s with
  | wine =>
    rcases n with _ | _ | _ | _ | _ | n
    all_goals first | (cases h; rfl) | (simp [program] at hn; omega)
  | native =>
    rcases n with _ | _ | _ | _ | _ | n
    all_goals first | (cases h; rfl) | (simp [program] at hn; omega)

theorem Fits.frame (h : Fits M t k)
    (hfile : u.files (endpoint M.base_dir (.audio k)) = t.files (endpoint M.base_dir (.audio k)))
    (hpc : u.pc k = t.pc k) (hpeer : u.pc (peer k) = t.pc (peer k))
    (hpending : u.pending k = t.pending k) (haccepted : u.accepted k = t.accepted k)
    (hconnected : u.connected k = t.connected k) (hremoved : u.removed k = t.removed k) :
    Fits M u k := by
  constructor
  · rw [hfile, hremoved, hpc, h.file]
  · rw [hpending, hpeer, hpc, h.pending]
  · rw [haccepted, hpc, h.accepted]
  · rw [hconnected, hpeer, h.connected]

/-- Nothing of another instance is touched. -/
structure Local (M : Setup σ α β) (t u : State σ α β) (k : Key) : Prop where
  files : ∀ l, l ≠ k → u.files (endpoint M.base_dir (.audio l)) =
    t.files (endpoint M.base_dir (.audio l))
  pc : ∀ l, l ≠ k → u.pc l = t.pc l
  pending : ∀ l, l ≠ k → l ≠ peer k → u.pending l = t.pending l
  accepted : ∀ l, l ≠ k → u.accepted l = t.accepted l
  connected : ∀ l, l ≠ peer k → u.connected l = t.connected l
  removed : ∀ l, l ≠ k → u.removed l = t.removed l

theorem ne_of_instance {k l : Key} (h : l.2 ≠ k.2) : l ≠ k ∧ l ≠ peer k ∧ peer l ≠ k := by
  refine ⟨?_, ?_, ?_⟩
  · intro heq
    exact h (congrArg Prod.snd heq)
  · intro heq
    have hsnd := congrArg Prod.snd heq
    exact h hsnd
  · intro heq
    have hsnd := congrArg Prod.snd heq
    exact h hsnd

theorem Local.inv (hlocal : Local M t u k) (h : Inv M t) (hk : Fits M u k)
    (hpeer : Fits M u (peer k)) (hallowed : Allowed u k.2) (hthrown : u.thrown = false) :
    Inv M u := by
  constructor
  · intro l
    by_cases hl : l.2 = k.2
    · have hcases : l = k ∨ l = peer k := by
        rcases k with ⟨s, i⟩
        rcases l with ⟨r, j⟩
        obtain rfl : j = i := hl
        cases s <;> cases r <;> simp [peer, Side.other]
      rcases hcases with rfl | rfl
      · exact hk
      · exact hpeer
    · obtain ⟨hne, hne', hpeerl⟩ := ne_of_instance hl
      exact (h.fits l).frame (hlocal.files l hne) (hlocal.pc l hne) (hlocal.pc (peer l) hpeerl)
        (hlocal.pending l hne hne') (hlocal.accepted l hne) (hlocal.connected l hne')
        (hlocal.removed l hne)
  · intro i
    by_cases hi : i = k.2
    · rw [hi]
      exact hallowed
    · have hne (s : Side) : ((s, i) : Key) ≠ k := by
        intro heq
        exact hi (congrArg Prod.snd heq)
      obtain ⟨h1, h2, h3, h4, h5, h6⟩ := h.allowed i
      constructor
      all_goals simp only [hlocal.pc _ (hne _), hlocal.removed _ (hne _)]
      all_goals assumption
  · exact hthrown

theorem Inv.pc_le (h : Inv M t) (k : Key) : t.pc k ≤ 5 := by
  rcases k with ⟨s, i⟩
  cases s with
  | wine => exact (h.allowed i).wine_le
  | native => exact (h.allowed i).native_le

theorem Inv.not_removed (h : Inv M t) (hpc : t.pc k < 5) : t.removed k = false := by
  rcases k with ⟨s, i⟩
  rw [Bool.eq_false_iff]
  intro hremoved
  have hdone := (h.allowed i).removed s hremoved
  cases s <;> omega

/-- What the two sockets of an instance fit to when one side goes on. -/
theorem Inv.advance (h : Inv M t) {n : Nat} (hpc : t.pc k = n)
    (hlocal : Local M t (u.advance k) k) (hupc : u.pc = t.pc) (hremoved : u.removed = t.removed)
    (hthrown : u.thrown = t.thrown) (hn : n < 5)
    (hfile : u.files (endpoint M.base_dir (.audio k)) = fileOf k false (n + 1))
    (hpending : u.pending k = if connectAt (peer k).1 < t.pc (peer k) ∧ n + 1 ≤ 2 then [k] else [])
    (haccepted : u.accepted k = if 2 < n + 1 then some k else none)
    (hpending' : u.pending (peer k) =
      if connectAt k.1 < n + 1 ∧ t.pc (peer k) ≤ 2 then [peer k] else [])
    (hconnected' : u.connected (peer k) =
      if connectAt k.1 < n + 1 then some (.audio (peer k)) else none)
    (hallowed : Allowed (u.advance k) k.2) : Inv M (u.advance k) := by
  have hself : (u.advance k).pc k = n + 1 := by
    rw [← hpc, ← hupc]
    exact Function.update_self _ _ _
  have hother : (u.advance k).pc (peer k) = t.pc (peer k) := by
    rw [← hupc]
    exact Function.update_of_ne (peer_ne k) _ _
  have hk := h.fits k
  have hp := h.fits (peer k)
  apply hlocal.inv h
  · constructor
    · rw [hself]
      refine hfile.trans ?_
      rw [← h.not_removed (hpc ▸ hn), ← hremoved]
      rfl
    · rw [hself, hother]
      exact hpending
    · rw [hself]
      exact haccepted
    · rw [hother, ← hk.connected]
      exact hlocal.connected k (peer_ne k).symm
  · constructor
    · rw [hother]
      refine (hlocal.files _ (peer_ne k)).trans (hp.file.trans ?_)
      rw [← hremoved]
      rfl
    · rw [peer_peer, hself, hother]
      exact hpending'
    · rw [hother, ← hp.accepted]
      exact hlocal.accepted _ (peer_ne k)
    · rw [peer_peer, hself]
      exact hconnected'
  · exact hallowed
  · exact hthrown.trans h.thrown

theorem Inv.allowed_advance (h : Inv M t) (hupc : u.pc = t.pc) (hremoved : u.removed = t.removed)
    (hlt : t.pc k < 5) (hknown : k.1 = .native → 2 ≤ t.pc (peer k))
    (hwait : t.pc k = 2 → connectAt (peer k).1 < t.pc (peer k)) :
    Allowed (u.advance k) k.2 := by
  have hself : (u.advance k).pc k = t.pc k + 1 := by
    rw [← hupc]
    exact Function.update_self _ _ _
  have hother : (u.advance k).pc (peer k) = t.pc (peer k) := by
    rw [← hupc]
    exact Function.update_of_ne (peer_ne k) _ _
  rcases k with ⟨s, i⟩
  obtain ⟨hwine, hnative, hsecond, hcontrol, hcallback, hgone⟩ := h.allowed i
  have hstays (r : Side) : (u.advance (s, i)).removed (r, i) ≠ true := by
    intro hr
    have hdone := hgone r (hremoved ▸ hr)
    cases s <;> omega
  cases s with
  | wine =>
    have hwait' : t.pc (.wine, i) = 2 → 1 < t.pc (.native, i) := hwait
    change (u.advance _).pc (.native, i) = t.pc (.native, i) at hother
    constructor
    case removed => exact fun s hr => absurd hr (hstays s)
    all_goals simp only [hself, hother]
    all_goals omega
  | native =>
    have hknown' : 2 ≤ t.pc (.wine, i) := hknown rfl
    have hwait' : t.pc (.native, i) = 2 → 3 < t.pc (.wine, i) := hwait
    change (u.advance _).pc (.wine, i) = t.pc (.wine, i) at hother
    constructor
    case removed => exact fun s hr => absurd hr (hstays s)
    all_goals simp only [hself, hother]
    all_goals omega

theorem connectAt_cases (s : Side) : connectAt s = 1 ∨ connectAt s = 3 := by
  cases s
  · exact .inr rfl
  · exact .inl rfl

theorem Local.of_files (t : State σ α β) (k : Key) (f : File) :
    Local M t (({ t with
      files := Function.update t.files (endpoint M.base_dir (.audio k)) f }).advance k) k where
  files _ hl := Function.update_of_ne (endpoint_ne hl) _ _
  pc _ hl := Function.update_of_ne hl _ _
  pending _ _ _ := rfl
  accepted _ _ := rfl
  connected _ _ := rfl
  removed _ _ := rfl

/-- The endpoint is free before `emplace` and again before `listen`. -/
theorem inv_bind (h : Inv M t) (hpc : t.pc k = 0 ∨ t.pc k = 4)
    (hknown : k.1 = .native → 2 ≤ t.pc (peer k)) :
    t.files (endpoint M.base_dir (.audio k)) = .absent ∧ Inv M (({ t with
      files := Function.update t.files (endpoint M.base_dir (.audio k))
        (.live (.audio k)) }).advance k) := by
  have hlt : t.pc k < 5 := by omega
  have hat := connectAt_cases k.1
  have hk := h.fits k
  have hp := h.fits (peer k)
  constructor
  · rw [hk.file, h.not_removed hlt]
    rcases hpc with hpc | hpc <;> rw [hpc] <;> rfl
  · apply h.advance rfl (.of_files t k _) rfl rfl rfl hlt
    · refine (Function.update_self _ _ _).trans ?_
      rcases hpc with hpc | hpc <;> rw [hpc] <;> rfl
    · exact hk.pending.trans (if_congr (by omega) rfl rfl)
    · exact hk.accepted.trans (if_congr (by omega) rfl rfl)
    · refine hp.pending.trans (if_congr ?_ rfl rfl)
      rw [peer_peer]
      omega
    · refine hp.connected.trans (if_congr ?_ rfl rfl)
      rw [peer_peer]
      omega
    · exact h.allowed_advance rfl rfl hlt hknown (by omega)

theorem inv_latch (h : Inv M t) (hpc : t.pc k = 4 - connectAt k.1)
    (hknown : k.1 = .native → 2 ≤ t.pc (peer k)) : Inv M (t.advance k) := by
  have hat := connectAt_cases k.1
  have hlt : t.pc k < 5 := by omega
  have hk := h.fits k
  have hp := h.fits (peer k)
  have hlocal : Local M t (t.advance k) k :=
    ⟨fun _ _ => rfl, fun _ hl => Function.update_of_ne hl _ _, fun _ _ _ => rfl, fun _ _ => rfl,
      fun _ _ => rfl, fun _ _ => rfl⟩
  apply h.advance rfl hlocal rfl rfl rfl hlt
  · rw [hk.file, h.not_removed hlt]
    rcases hat with hat | hat <;> rw [hpc, hat] <;> rfl
  · exact hk.pending.trans (if_congr (by omega) rfl rfl)
  · exact hk.accepted.trans (if_congr (by omega) rfl rfl)
  · refine hp.pending.trans (if_congr ?_ rfl rfl)
    rw [peer_peer]
    omega
  · refine hp.connected.trans (if_congr ?_ rfl rfl)
    rw [peer_peer]
    omega
  · exact h.allowed_advance rfl rfl hlt hknown (by omega)

theorem inv_accept (h : Inv M t) (hpc : t.pc k = 2) (hknown : k.1 = .native → 2 ≤ t.pc (peer k))
    (hu : t.perform M k .accept = some u) : Inv M (u.advance k) := by
  have hat := connectAt_cases k.1
  have hlt : t.pc k < 5 := by omega
  have hp := h.fits (peer k)
  have hpending := (h.fits k).pending
  rw [hpc] at hpending
  by_cases hwait : connectAt (peer k).1 < t.pc (peer k)
  · rw [if_pos ⟨hwait, le_refl 2⟩] at hpending
    simp only [State.perform, hpending] at hu
    obtain rfl := Option.some.inj hu
    have hlocal : Local M t (({ t with
        accepted := Function.update t.accepted k (some k)
        pending := Function.update t.pending k []
        files := Function.update t.files (endpoint M.base_dir (.audio k)) .absent }).advance k) k :=
      ⟨fun _ hl => Function.update_of_ne (endpoint_ne hl) _ _,
        fun _ hl => Function.update_of_ne hl _ _, fun _ hl _ => Function.update_of_ne hl _ _,
        fun _ hl => Function.update_of_ne hl _ _, fun _ _ => rfl, fun _ _ => rfl⟩
    apply h.advance hpc hlocal rfl rfl rfl (by omega)
    · exact Function.update_self _ _ _
    · exact (Function.update_self _ _ _).trans (if_neg (by omega)).symm
    · exact Function.update_self _ _ _
    · refine (Function.update_of_ne (peer_ne k) _ _).trans (hp.pending.trans ?_)
      rw [peer_peer, hpc]
      exact if_congr (by omega) rfl rfl
    · refine hp.connected.trans (if_congr ?_ rfl rfl)
      rw [peer_peer]
      omega
    · exact h.allowed_advance rfl rfl hlt hknown fun _ => hwait
  · rw [if_neg fun hboth => hwait hboth.1] at hpending
    simp [State.perform, hpending] at hu

/-- A side connects when the other one has bound its endpoint and waits. -/
theorem Inv.peer_waits (h : Inv M t) (hpc : t.pc k = connectAt k.1)
    (hknown : k.1 = .native → 2 ≤ t.pc (peer k)) : t.pc (peer k) = 2 := by
  rcases k with ⟨s, i⟩
  obtain ⟨_, _, hsecond, hcontrol, hcallback, _⟩ := h.allowed i
  cases s with
  | wine =>
    have hpc' : t.pc (.wine, i) = 3 := hpc
    change t.pc (.native, i) = 2
    omega
  | native =>
    have hpc' : t.pc (.native, i) = 1 := hpc
    have hknown' : 2 ≤ t.pc (.wine, i) := hknown rfl
    change t.pc (.wine, i) = 2
    omega

theorem inv_connect (h : Inv M t) (hpc : t.pc k = connectAt k.1)
    (hknown : k.1 = .native → 2 ≤ t.pc (peer k)) (hu : t.perform M k .connect = some u) :
    Inv M (u.advance k) := by
  have hat := connectAt_cases k.1
  have hlt : t.pc k < 5 := by omega
  have hpeer := h.peer_waits hpc hknown
  have hk := h.fits k
  have hfile := (h.fits (peer k)).file
  rw [h.not_removed (by omega), hpeer] at hfile
  have hpending : t.pending (peer k) = [] := by
    rw [(h.fits (peer k)).pending, peer_peer, if_neg (by omega)]
  simp only [State.perform, hfile, fileOf] at hu
  obtain rfl := Option.some.inj hu
  have hlocal : Local M t (({ t with
      pending := Function.update t.pending (peer k) (t.pending (peer k) ++ [peer k])
      connected := Function.update t.connected (peer k)
        (some (.audio (peer k))) }).advance k) k :=
    ⟨fun _ _ => rfl, fun _ hl => Function.update_of_ne hl _ _,
      fun _ _ hl => Function.update_of_ne hl _ _, fun _ _ => rfl,
      fun _ hl => Function.update_of_ne hl _ _, fun _ _ => rfl⟩
  apply h.advance rfl hlocal rfl rfl rfl hlt
  · rw [hk.file, h.not_removed hlt]
    rcases hat with hat | hat <;> rw [hpc, hat] <;> rfl
  · refine (Function.update_of_ne (peer_ne k).symm _ _).trans (hk.pending.trans ?_)
    exact if_congr (by omega) rfl rfl
  · exact hk.accepted.trans (if_congr (by omega) rfl rfl)
  · refine (Function.update_self _ _ _).trans ?_
    rw [hpending, if_pos (by omega)]
    rfl
  · exact (Function.update_self _ _ _).trans (if_pos (by omega)).symm
  · exact h.allowed_advance rfl rfl hlt hknown (by omega)

theorem inv_next (h : Inv M t) (hu : step M t (.next k) = some u) : Inv M u := by
  simp only [step] at hu
  cases hop : (program k.1)[t.pc k]? with
  | none => simp [hop] at hu
  | some op =>
    simp only [hop] at hu
    split at hu
    · cases hu
    · rename_i hguard
      obtain ⟨v, hv, rfl⟩ := Option.map_eq_some_iff.mp hu
      have hknown : k.1 = .native → 2 ≤ t.pc (peer k) := by
        intro hside
        by_contra hlt
        exact hguard ⟨hside, Nat.not_le.mp hlt⟩
      have hpc := program_eq hop
      cases op with
      | emplace =>
        obtain ⟨hfree, hinv⟩ := inv_bind h (.inl hpc) hknown
        simp only [State.perform, hfree] at hv
        obtain rfl := Option.some.inj hv
        exact hinv
      | latch =>
        obtain rfl := Option.some.inj hv
        exact inv_latch h hpc hknown
      | accept => exact inv_accept h hpc hknown hv
      | connect => exact inv_connect h hpc hknown hv
      | listen =>
        obtain ⟨hfree, hinv⟩ := inv_bind h (.inr hpc) hknown
        simp only [State.perform, hfree] at hv
        obtain rfl := Option.some.inj hv
        exact hinv

theorem inv_setChannel (h : Inv M t) (c : Remote.State σ α β) : Inv M (t.setChannel k c) :=
  ⟨fun l => (h.fits l).frame rfl rfl rfl rfl rfl rfl rfl,
    fun i => ⟨(h.allowed i).wine_le, (h.allowed i).native_le, (h.allowed i).known,
      (h.allowed i).control, (h.allowed i).callback, (h.allowed i).removed⟩, h.thrown⟩

theorem inv_remove (h : Inv M t) (hu : step M t (.remove k) = some u) : Inv M u := by
  simp only [step] at hu
  split at hu
  · cases hu
  · rename_i hguard
    obtain rfl := Option.some.inj hu
    have hle := h.pc_le k
    have hle' := h.pc_le (peer k)
    have hpc : t.pc k = 5 := by
      by_contra hne
      exact hguard (.inr (.inl (by omega)))
    have hpc' : t.pc (peer k) = 5 := by
      by_contra hne
      exact hguard (.inr (.inr (by omega)))
    have hlocal : Local M t { t with
        removed := Function.update t.removed k true
        files := Function.update t.files (endpoint M.base_dir (.audio k)) .stale } k :=
      ⟨fun _ hl => Function.update_of_ne (endpoint_ne hl) _ _, fun _ _ => rfl, fun _ _ _ => rfl,
        fun _ _ => rfl, fun _ _ => rfl, fun _ hl => Function.update_of_ne hl _ _⟩
    have hk := h.fits k
    apply hlocal.inv h
    · constructor
      · simp [fileOf]
      · exact hk.pending
      · exact hk.accepted
      · exact hk.connected
    · exact (h.fits (peer k)).frame (hlocal.files _ (peer_ne k)) rfl rfl rfl rfl rfl
        (hlocal.removed _ (peer_ne k))
    · obtain ⟨hwine, hnative, hknown, hcontrol, hcallback, _⟩ := h.allowed k.2
      refine ⟨hwine, hnative, hknown, hcontrol, hcallback, ?_⟩
      intro s _
      rcases k with ⟨r, i⟩
      cases r with
      | wine => exact ⟨hpc, hpc'⟩
      | native => exact ⟨hpc', hpc⟩
    · exact h.thrown

theorem inv_init : Inv M (init M) := by
  constructor
  · intro k
    constructor
    · have hfree (s : Side) :
          endpoint M.base_dir (.audio k) ≠ endpoint M.base_dir (.main s) := by
        intro heq
        cases endpoint_injective heq
      simp [init, hfree, fileOf]
    · simp [init]
    · simp [init]
    · simp [init]
  · intro i
    constructor <;> simp [init]
  · rfl

/-! ## Messages -/

/-- Each socket of an instance is a queue of its own to the callback behind it. -/
def Channels (M : Setup σ α β) (t : State σ α β) : Prop :=
  ∀ k, Remote.Inv (M.machine k) (M.start k) [] (t.channel k)

theorem Channels.set (h : Channels M t) {c : Remote.State σ α β}
    (hc : Remote.Inv (M.machine k) (M.start k) [] c) : Channels M (t.setChannel k c) := by
  intro l
  change Remote.Inv (M.machine l) (M.start l) [] (Function.update t.channel k c l)
  by_cases hl : l = k
  · subst hl
    rw [Function.update_self]
    exact hc
  · rw [Function.update_of_ne hl]
    exact h l

/-- A listening socket takes its own messages only. -/
theorem step_serve (h : Inv M t) : step M t (.serve k) =
    if t.pc k = 5 ∧ ¬ t.gone k then
      (Remote.step (M.machine k) (t.channel k) .serve).map (t.setChannel k)
    else none := by
  have hle := h.pc_le k
  simp only [step, (h.fits k).accepted]
  by_cases hpc : t.pc k = 5
  · by_cases hgone : t.gone k
    · simp [hpc, hgone]
    · cases hr : (t.channel k).requests with
      | nil => simp [hpc, hgone, hr, Remote.step]
      | cons a as => simp [hpc, hgone, hr, Remote.step, State.setChannel, Setup.machine]
  · have hlt : t.pc k < 5 := by omega
    by_cases htaken : 2 < t.pc k
    · simp [hpc, hlt, htaken]
    · simp [hpc, htaken]

theorem perform_frame {op : Op} (hu : t.perform M k op = some u) :
    u.channel = t.channel ∧
      ∀ p, u.files p ≠ t.files p → ∃ owner, p = endpoint M.base_dir owner := by
  have hbound (f : File) (p : Path)
      (hp : Function.update t.files (endpoint M.base_dir (.audio k)) f p ≠ t.files p) :
      ∃ owner, p = endpoint M.base_dir owner := by
    by_contra hno
    exact hp (Function.update_of_ne (fun heq => hno ⟨_, heq⟩) _ _)
  cases op with
  | latch =>
    cases hu
    exact ⟨rfl, fun p hp => absurd rfl hp⟩
  | connect =>
    simp only [State.perform] at hu
    split at hu <;> cases hu <;> exact ⟨rfl, fun p hp => absurd rfl hp⟩
  | accept =>
    simp only [State.perform] at hu
    split at hu <;> cases hu
    exact ⟨rfl, hbound _⟩
  | emplace =>
    simp only [State.perform] at hu
    split at hu <;> cases hu
    · exact ⟨rfl, hbound _⟩
    · exact ⟨rfl, fun p hp => absurd rfl hp⟩
  | listen =>
    simp only [State.perform] at hu
    split at hu <;> cases hu
    · exact ⟨rfl, hbound _⟩
    · exact ⟨rfl, fun p hp => absurd rfl hp⟩

theorem next_frame (hu : step M t (.next k) = some u) :
    u.channel = t.channel ∧
      ∀ p, u.files p ≠ t.files p → ∃ owner, p = endpoint M.base_dir owner := by
  simp only [step] at hu
  split at hu
  · cases hu
  · split at hu
    · cases hu
    · obtain ⟨v, hv, rfl⟩ := Option.map_eq_some_iff.mp hu
      have hframe := perform_frame hv
      exact hframe

/-- What the rest of a step is: a message of one of the sockets, or a removal. -/
theorem step_message {a : Action α} (h : Inv M t) (hu : step M t a = some u) :
    (∃ k, a = .next k) ∨ (∃ k, a = .remove k) ∨
      ∃ k b c, Remote.step (M.machine k) (t.channel k) b = some c ∧ u = t.setChannel k c := by
  cases a with
  | next k => exact .inl ⟨k, rfl⟩
  | remove k => exact .inr (.inl ⟨k, rfl⟩)
  | call k a =>
    simp only [step] at hu
    split at hu
    · cases hu
    · split at hu
      · cases hu
      · obtain ⟨c, hc, rfl⟩ := Option.map_eq_some_iff.mp hu
        exact .inr (.inr ⟨k, _, c, hc, rfl⟩)
  | serve k =>
    rw [step_serve h] at hu
    split at hu
    · obtain ⟨c, hc, rfl⟩ := Option.map_eq_some_iff.mp hu
      exact .inr (.inr ⟨k, _, c, hc, rfl⟩)
    · cases hu
  | receive k =>
    simp only [step] at hu
    split at hu
    · cases hu
    · obtain ⟨c, hc, rfl⟩ := Option.map_eq_some_iff.mp hu
      exact .inr (.inr ⟨k, _, c, hc, rfl⟩)

/-! ## Runs -/

structure Reached (M : Setup σ α β) (t : State σ α β) : Prop where
  inv : Inv M t
  channels : Channels M t
  placed : ∀ p, t.files p ≠ .absent → ∃ owner, p = endpoint M.base_dir owner

theorem reached_init : Reached M (init M) := by
  refine ⟨inv_init, fun _ => Remote.inv_init, ?_⟩
  intro p hp
  simp only [init] at hp
  split at hp
  · rename_i heq
    exact ⟨_, heq⟩
  · split at hp
    · rename_i heq
      exact ⟨_, heq⟩
    · exact absurd rfl hp

theorem reached_step (t : State σ α β) (a : Action α) (u : State σ α β) (h : Reached M t)
    (hu : step M t a = some u) : Reached M u := by
  have hplaced (hfiles : ∀ p, u.files p ≠ t.files p → ∃ owner, p = endpoint M.base_dir owner)
      (p : Path) (hp : u.files p ≠ .absent) : ∃ owner, p = endpoint M.base_dir owner := by
    by_cases hsame : u.files p = t.files p
    · exact h.placed p (hsame ▸ hp)
    · exact hfiles p hsame
  rcases step_message h.inv hu with ⟨k, rfl⟩ | ⟨k, rfl⟩ | ⟨k, b, c, hc, rfl⟩
  · obtain ⟨hchannel, hfiles⟩ := next_frame hu
    refine ⟨inv_next h.inv hu, ?_, hplaced hfiles⟩
    intro l
    rw [hchannel]
    exact h.channels l
  · have hinv := inv_remove h.inv hu
    simp only [step] at hu
    split at hu
    · cases hu
    · obtain rfl := Option.some.inj hu
      refine ⟨hinv, h.channels, hplaced ?_⟩
      intro p hp
      by_contra hno
      exact hp (Function.update_of_ne (fun heq => hno ⟨_, heq⟩) _ _)
  · exact ⟨inv_setChannel h.inv c, h.channels.set (Remote.inv_step _ b c (h.channels k) hc),
      h.placed⟩

theorem perform_isSome {op : Op} (hwait : op = .accept → t.pending k ≠ []) :
    ∃ u, t.perform M k op = some u := by
  cases op with
  | latch => exact ⟨_, rfl⟩
  | accept =>
    obtain ⟨c, cs, heq⟩ := List.exists_cons_of_ne_nil (hwait rfl)
    simp [State.perform, heq]
  | emplace =>
    simp only [State.perform]
    split <;> exact ⟨_, rfl⟩
  | connect =>
    simp only [State.perform]
    split <;> exact ⟨_, rfl⟩
  | listen =>
    simp only [State.perform]
    split <;> exact ⟨_, rfl⟩

theorem Inv.can_advance (h : Inv M t) (hlt : t.pc k < 5)
    (hknown : k.1 = .native → 2 ≤ t.pc (peer k))
    (hwait : t.pc k = 2 → connectAt (peer k).1 < t.pc (peer k)) :
    ∃ u, step M t (.next k) = some u := by
  have hlength : (program k.1).length = 5 := by
    cases k.1 <;> rfl
  obtain ⟨op, hop⟩ : ∃ op, (program k.1)[t.pc k]? = some op :=
    ⟨_, List.getElem?_eq_getElem (hlength.symm ▸ hlt)⟩
  have hpending : op = .accept → t.pending k ≠ [] := by
    intro haccept
    subst haccept
    have hpc : t.pc k = 2 := program_eq hop
    rw [(h.fits k).pending, if_pos ⟨hwait hpc, Nat.le_of_eq hpc⟩]
    exact List.cons_ne_nil _ _
  obtain ⟨u, hu⟩ := perform_isSome (M := M) hpending
  refine ⟨u.advance k, ?_⟩
  have hguard : ¬ (k.1 = .native ∧ t.pc (peer k) < 2) := fun hg => by
    have := hknown hg.1
    omega
  simp only [step, hop, if_neg hguard, hu]
  rfl

/-- One of the two sides can go on until both are through. -/
theorem Inv.progress (h : Inv M t) {i : UInt64} {s : Side} (hlt : t.pc (s, i) < 5) :
    ∃ r u, step M t (.next (r, i)) = some u := by
  obtain ⟨hwine, hnative, hknown, hcontrol, hcallback, _⟩ := h.allowed i
  by_cases hgo : t.pc (.wine, i) < 5 ∧ (t.pc (.wine, i) = 2 → 1 < t.pc (.native, i))
  · obtain ⟨u, hu⟩ := h.can_advance (k := (.wine, i)) hgo.1 (fun hside => nomatch hside) hgo.2
    exact ⟨.wine, u, hu⟩
  · have hnative' : t.pc (.native, i) < 5 ∧
        (t.pc (.wine, i) = 5 ∨ t.pc (.wine, i) = 2 ∧ t.pc (.native, i) ≤ 1) := by
      cases s <;> omega
    have hknown' : 2 ≤ t.pc (.wine, i) := by omega
    have hwait : t.pc (.native, i) = 2 → 3 < t.pc (.wine, i) := by omega
    obtain ⟨u, hu⟩ := h.can_advance (k := (.native, i)) hnative'.1 (fun _ => hknown') hwait
    exact ⟨.native, u, hu⟩

/-- No thread throws or waits for ever, each call is answered by the callback behind its own socket
as if it had been made directly, and removing the directory takes every file along. -/
structure Sound (M : Setup σ α β) (t : State σ α β) : Prop where
  thrown : t.thrown = false
  progress : ∀ s i, t.pc (s, i) < 5 → ∃ r u, step M t (.next (r, i)) = some u
  received : ∀ k, (t.channel k).received <+:
    Remote.outputs (M.machine k) (M.start k) (t.channel k).sent
  answered : ∀ k, t.pc k = 5 → ¬ t.gone k →
    (t.channel k).received ≠ Remote.outputs (M.machine k) (M.start k) (t.channel k).sent →
      ∃ a u, (a = .serve k ∨ a = .receive k) ∧ step M t a = some u
  below : ∀ p, t.files p ≠ .absent → StrictlyBelow p M.base_dir

theorem audio_threads_sound {as : List (Action α)} (h : run (step M) (init M) as = some t) :
    Sound M t := by
  have hreached := run_always reached_step reached_init h
  refine ⟨hreached.inv.thrown, ?_, ?_, ?_, ?_⟩
  · intro s i hlt
    exact hreached.inv.progress hlt
  · intro k
    exact Remote.received_prefix (hreached.channels k)
  · intro k hpc hgone hopen
    by_cases hreplies : (t.channel k).replies = []
    · have hrequests : (t.channel k).requests ≠ [] := by
        intro hnone
        exact hopen (Remote.received_of_empty (hreached.channels k) hnone hreplies)
      obtain ⟨a, as, heq⟩ := List.exists_cons_of_ne_nil hrequests
      obtain ⟨c, hc⟩ : ∃ c, Remote.step (M.machine k) (t.channel k) .serve = some c := by
        simp [Remote.step, heq]
      refine ⟨.serve k, t.setChannel k c, .inl rfl, ?_⟩
      rw [step_serve hreached.inv, if_pos ⟨hpc, hgone⟩, hc]
      rfl
    · obtain ⟨b, bs, heq⟩ := List.exists_cons_of_ne_nil hreplies
      obtain ⟨c, hc⟩ : ∃ c, Remote.step (M.machine k) (t.channel k) .receive = some c := by
        simp [Remote.step, heq]
      refine ⟨.receive k, t.setChannel k c, .inr rfl, ?_⟩
      simp only [step, if_neg hgone, hc]
      rfl
  · intro p hp
    obtain ⟨owner, rfl⟩ := hreached.placed p hp
    exact endpoint_below M.base_dir owner

def sums : Setup Nat Nat Nat := ⟨bytes "/tmp/Synth-1a2b", fun _ s a => (s + a, s + a), fun _ => 0⟩

/-- Another instance is created while the first one is. -/
def twoInstances : List (Action Nat) :=
  [.next (.wine, 0), .next (.wine, 0), .next (.native, 0), .next (.wine, 7), .next (.native, 0),
    .next (.wine, 0), .next (.wine, 0), .next (.native, 0), .next (.native, 0), .call (.wine, 0) 2,
    .next (.wine, 0), .serve (.wine, 0), .receive (.wine, 0)]

theorem audio_threads_sound_two :
    ∃ t, run (step sums) (init sums) twoInstances = some t ∧ Sound sums t := by
  have hsome : (run (step sums) (init sums) twoInstances).isSome := by decide
  obtain ⟨t, ht⟩ := Option.isSome_iff_exists.mp hsome
  exact ⟨t, ht, audio_threads_sound ht⟩

end ClapSockets
