import Mathlib.Logic.Function.Basic
import Wasivst.Lib.Lines
import Wasivst.Lib.Separated
import Wasivst.Lib.Transition

/-!
# The log

`Logger::log` and `Logger::async_log_pipe_lines` of `logging/common.{h,cpp}`. The output of any
number of pipes goes line by line into one log, next to the messages of everybody else. How much of
a pipe arrives at once and whose turn it is do not matter. Calls of `log` do not overlap.
-/

set_option autoImplicit false

namespace Logging
open Lines Separated Transition

def newline : UInt8 := 10

structure Tm where
  tm_hour : Fin 24
  tm_min : Fin 60
  tm_sec : Fin 61

def two_digits (n : Nat) : List UInt8 := [UInt8.ofNat (48 + n / 10), UInt8.ofNat (48 + n % 10)]

/-- `std::put_time(&tm, "%T")` -/
def put_time (tm : Tm) : List UInt8 :=
  two_digits tm.tm_hour ++ [58] ++ two_digits tm.tm_min ++ [58] ++ two_digits tm.tm_sec

structure Logger where
  prefix_ : List UInt8
  prefix_timestamp_ : Bool

def Logger.formatted_message (logger : Logger) (tm : Tm) (message : List UInt8) : List UInt8 :=
  (if logger.prefix_timestamp_ then put_time tm ++ [32] else []) ++ logger.prefix_ ++ message

def Logger.log (logger : Logger) (tm : Tm) (message stream_ : List UInt8) : List UInt8 :=
  stream_ ++ (logger.formatted_message tm message ++ [newline])

/-- `written` is all that has been written, `inside` what nobody has read. While `reading`, an
`async_read_until` is under way. -/
structure Pipe where
  written : List UInt8
  inside : List UInt8
  closed : Bool
  buffer : List UInt8
  reading : Bool

def Pipe.start : Pipe := ⟨[], [], false, [], true⟩

inductive Message (ι : Type) where
  | line (pipe : ι) (line : List UInt8)
  | other (message : List UInt8)

structure State (ι : Type) where
  pipes : ι → Pipe
  stream_ : List UInt8
  /-- What `log` was called with. -/
  logged : List (Tm × Message ι)

inductive Action (ι : Type) where
  | write (pipe : ι) (bytes : List UInt8)
  | close (pipe : ι)
  /-- At most so many bytes are read into the buffer. -/
  | read (pipe : ι) (count : Nat)
  /-- The handler, after a line feed was found in the buffer. -/
  | handle (pipe : ι) (tm : Tm)
  /-- The handler, after an error. -/
  | eof (pipe : ι)
  | log (tm : Tm) (message : List UInt8)

/-- The logger and what `async_log_pipe_lines` puts before the lines of each pipe. -/
structure Setup (ι : Type) where
  logger : Logger
  label : ι → List UInt8

variable {ι : Type} (S : Setup ι)

def Setup.text : Message ι → List UInt8
  | .line p l => S.label p ++ l
  | .other message => message

def Setup.row (entry : Tm × Message ι) : List UInt8 :=
  S.logger.formatted_message entry.1 (S.text entry.2)

def State.log (t : State ι) (tm : Tm) (message : Message ι) : State ι :=
  { t with
    stream_ := S.logger.log tm (S.text message) t.stream_
    logged := t.logged ++ [(tm, message)] }

section
variable [DecidableEq ι]

def State.set (t : State ι) (p : ι) (pipe : Pipe) : State ι :=
  { t with pipes := Function.update t.pipes p pipe }

def step (t : State ι) : Action ι → Option (State ι)
  | .write p bytes =>
    if (t.pipes p).closed then none
    else some (t.set p { t.pipes p with
      written := (t.pipes p).written ++ bytes
      inside := (t.pipes p).inside ++ bytes })
  | .close p => some (t.set p { t.pipes p with closed := true })
  | .read p n =>
    if (t.pipes p).reading ∧ newline ∉ (t.pipes p).buffer ∧ (t.pipes p).inside ≠ [] ∧ n ≠ 0 then
      some (t.set p { t.pipes p with
        inside := (t.pipes p).inside.drop n
        buffer := (t.pipes p).buffer ++ (t.pipes p).inside.take n })
    else none
  | .handle p tm =>
    if (t.pipes p).reading then
      (cut newline (t.pipes p).buffer).map fun (line, rest) =>
        (t.set p { t.pipes p with buffer := rest }).log S tm (.line p line)
    else none
  | .eof p =>
    if (t.pipes p).reading ∧ newline ∉ (t.pipes p).buffer ∧ (t.pipes p).inside = [] ∧
        (t.pipes p).closed then
      some (t.set p { t.pipes p with reading := false })
    else none
  | .log tm message => some (t.log S tm (.other message))

end

def init : State ι := ⟨fun _ => .start, [], []⟩

/-! ## What is in the log -/

def lineOf [DecidableEq ι] (p : ι) : Tm × Message ι → Option (List UInt8)
  | (_, .line q l) => if q = p then some l else none
  | (_, .other _) => none

variable [DecidableEq ι]

def State.linesOf (t : State ι) (p : ι) : List (List UInt8) := t.logged.filterMap (lineOf p)

/-- Nothing was lost or said twice between the pipe and the log. -/
structure Kept (t : State ι) (p : ι) : Prop where
  written : (t.pipes p).written = (t.linesOf p).flatMap (fun l => l ++ [newline]) ++
    ((t.pipes p).buffer ++ (t.pipes p).inside)
  lines : ∀ l ∈ t.linesOf p, newline ∉ l
  finished : (t.pipes p).reading = false →
    newline ∉ (t.pipes p).buffer ∧ (t.pipes p).inside = [] ∧ (t.pipes p).closed

structure Inv (t : State ι) : Prop where
  stream_ : t.stream_ = (t.logged.map S.row).flatMap fun row => row ++ [newline]
  kept : ∀ p, Kept t p

variable {S} {t u : State ι}

omit [DecidableEq ι] in
theorem State.log_stream (h : t.stream_ = (t.logged.map S.row).flatMap fun row => row ++ [newline])
    (tm : Tm) (message : Message ι) : (t.log S tm message).stream_ =
      ((t.log S tm message).logged.map S.row).flatMap fun row => row ++ [newline] := by
  simp [State.log, Logger.log, h, Setup.row]

theorem Kept.set_of_ne {p q : ι} (h : Kept t q) (hne : q ≠ p) (pipe : Pipe) :
    Kept (t.set p pipe) q := by
  have hsame : (t.set p pipe).pipes q = t.pipes q := Function.update_of_ne hne _ _
  exact ⟨hsame ▸ h.written, h.lines, hsame ▸ h.finished⟩

theorem Inv.set (h : Inv S t) {p : ι} {pipe : Pipe} (hp : Kept (t.set p pipe) p) :
    Inv S (t.set p pipe) := by
  refine ⟨h.stream_, ?_⟩
  intro q
  by_cases hq : q = p
  · exact hq ▸ hp
  · exact (h.kept q).set_of_ne hq pipe

@[simp] theorem State.set_pipe (t : State ι) (p : ι) (pipe : Pipe) :
    (t.set p pipe).pipes p = pipe := Function.update_self _ _ _

theorem State.linesOf_log (t : State ι) (tm : Tm) (message : Message ι) (p : ι) :
    (t.log S tm message).linesOf p = t.linesOf p ++ (lineOf p (tm, message)).toList := by
  simp only [linesOf, State.log, List.filterMap_append]
  cases h : lineOf p (tm, message) <;> simp [h]

theorem Inv.log_other (h : Inv S t) (tm : Tm) (message : List UInt8) :
    Inv S (t.log S tm (.other message)) := by
  refine ⟨State.log_stream h.stream_ tm _, ?_⟩
  intro p
  have hsame : (t.log S tm (.other message)).linesOf p = t.linesOf p := by
    rw [State.linesOf_log]
    exact List.append_nil _
  have hp := h.kept p
  exact ⟨hsame ▸ hp.written, hsame ▸ hp.lines, hp.finished⟩

/-- The first line of the buffer moves to the log. -/
theorem Inv.log_line (h : Inv S t) {p : ι} {line rest : List UInt8}
    (hbuffer : (t.pipes p).buffer = line ++ newline :: rest) (hline : newline ∉ line)
    (hreading : (t.pipes p).reading) (tm : Tm) :
    Inv S ((t.set p { t.pipes p with buffer := rest }).log S tm (.line p line)) := by
  refine ⟨State.log_stream h.stream_ tm _, ?_⟩
  intro q
  by_cases hq : q = p
  · subst hq
    have hmore : ((t.set q { t.pipes q with buffer := rest }).log S tm (.line q line)).linesOf q =
        t.linesOf q ++ [line] := by
      rw [State.linesOf_log, lineOf, if_pos rfl]
      rfl
    have hpipe : ((t.set q { t.pipes q with buffer := rest }).log S tm (.line q line)).pipes q =
        { t.pipes q with buffer := rest } := State.set_pipe t q _
    have hq := h.kept q
    constructor
    · rw [hmore, hpipe, List.flatMap_append, hq.written, hbuffer]
      simp
    · intro l hl
      rw [hmore] at hl
      rcases List.mem_append.mp hl with hold | hnew
      · exact hq.lines l hold
      · exact List.mem_singleton.mp hnew ▸ hline
    · intro hover
      rw [hpipe] at hover
      exact absurd (hreading.symm.trans hover) Bool.true_eq_false.mp
  · have hsame : ((t.set p { t.pipes p with buffer := rest }).log S tm (.line p line)).linesOf q =
        t.linesOf q := by
      rw [State.linesOf_log, lineOf, if_neg (Ne.symm hq)]
      exact List.append_nil _
    have hpipe := (h.kept q).set_of_ne hq { t.pipes p with buffer := rest }
    exact ⟨hsame ▸ hpipe.written, hsame ▸ hpipe.lines, hpipe.finished⟩

theorem inv_step (t : State ι) (a : Action ι) (u : State ι) (h : Inv S t)
    (hu : step S t a = some u) : Inv S u := by
  cases a with
  | write p bytes =>
    simp only [step] at hu
    split at hu
    · cases hu
    · rename_i hopen
      obtain rfl := Option.some.inj hu
      have hp := h.kept p
      apply h.set
      constructor
      · rw [State.set_pipe, hp.written]
        simp [State.linesOf, State.set]
      · exact hp.lines
      · intro hover
        rw [State.set_pipe] at hover
        exact absurd (hp.finished hover).2.2 hopen
  | close p =>
    obtain rfl := Option.some.inj hu
    have hp := h.kept p
    apply h.set
    constructor
    · rw [State.set_pipe]
      exact hp.written
    · exact hp.lines
    · intro hover
      rw [State.set_pipe] at hover ⊢
      obtain ⟨hbuffer, hinside, _⟩ := hp.finished hover
      exact ⟨hbuffer, hinside, rfl⟩
  | read p n =>
    simp only [step] at hu
    split at hu
    · rename_i hguard
      obtain rfl := Option.some.inj hu
      have hp := h.kept p
      apply h.set
      constructor
      · rw [State.set_pipe, hp.written]
        simp [State.linesOf, State.set]
      · exact hp.lines
      · intro hover
        rw [State.set_pipe] at hover
        exact absurd (hguard.1.symm.trans hover) Bool.true_eq_false.mp
    · cases hu
  | handle p tm =>
    simp only [step] at hu
    split at hu
    · rename_i hreading
      obtain ⟨⟨line, rest⟩, hcut, rfl⟩ := Option.map_eq_some_iff.mp hu
      obtain ⟨hbuffer, hline⟩ := cut_eq_some_iff.mp hcut
      exact h.log_line hbuffer hline hreading tm
    · cases hu
  | eof p =>
    simp only [step] at hu
    split at hu
    · rename_i hguard
      obtain rfl := Option.some.inj hu
      have hp := h.kept p
      apply h.set
      constructor
      · rw [State.set_pipe]
        exact hp.written
      · exact hp.lines
      · intro _
        rw [State.set_pipe]
        exact ⟨hguard.2.1, hguard.2.2.1, hguard.2.2.2⟩
    · cases hu
  | log tm message =>
    obtain rfl := Option.some.inj hu
    exact h.log_other tm message

theorem inv_init : Inv S (init : State ι) := by
  refine ⟨rfl, fun p => ⟨rfl, ?_, ?_⟩⟩
  · intro l hl
    cases hl
  · intro hover
    cases hover

/-! ## Rows -/

theorem newline_notMem_two_digits {n : Nat} (h : n < 100) : newline ∉ two_digits n := by
  have hdigit {d : Nat} (hd : d < 10) : newline ≠ UInt8.ofNat (48 + d) := by
    intro heq
    have hnat := congrArg UInt8.toNat heq
    rw [UInt8.toNat_ofNat'] at hnat
    have hten : newline.toNat = 10 := rfl
    omega
  have htens : n / 10 < 10 := by omega
  have hones : n % 10 < 10 := by omega
  intro hmem
  rcases List.mem_cons.mp hmem with heq | hmem
  · exact hdigit htens heq
  · exact hdigit hones (List.mem_singleton.mp hmem)

theorem newline_notMem_put_time (tm : Tm) : newline ∉ put_time tm := by
  have hhour := newline_notMem_two_digits (n := tm.tm_hour) (by omega)
  have hmin := newline_notMem_two_digits (n := tm.tm_min) (by omega)
  have hsec := newline_notMem_two_digits (n := tm.tm_sec) (by omega)
  have hcolon : newline ≠ 58 := by decide
  simp [put_time, hhour, hmin, hsec, hcolon]

omit [DecidableEq ι] in
theorem newline_notMem_row {tm : Tm} {p : ι} {l : List UInt8} (hname : newline ∉ S.logger.prefix_)
    (hlabel : newline ∉ S.label p) (hl : newline ∉ l) : newline ∉ S.row (tm, .line p l) := by
  have htime := newline_notMem_put_time tm
  have hblank : newline ≠ 32 := by decide
  unfold Setup.row Logger.formatted_message
  split <;> simp [Setup.text, hname, hlabel, hl, htime, hblank]

theorem Kept.line_mem {p : ι} (h : Kept t p) {tm : Tm} {l : List UInt8}
    (hmem : (tm, .line p l) ∈ t.logged) : newline ∉ l :=
  h.lines l (List.mem_filterMap.mpr ⟨_, hmem, if_pos rfl⟩)

/-- The rows of the log are the messages, those of a pipe what has been written to it, line by
line; as long as one is missing the loop over the pipe goes on. -/
structure Faithful (S : Setup ι) (t : State ι) : Prop where
  rows : t.stream_.splitOn newline =
    t.logged.flatMap (fun entry => (S.row entry).splitOn newline) ++ [[]]
  row : newline ∉ S.logger.prefix_ → ∀ p, newline ∉ S.label p →
    ∀ tm l, (tm, .line p l) ∈ t.logged →
      (S.row (tm, .line p l)).splitOn newline = [S.row (tm, .line p l)]
  lines : ∀ p, t.linesOf p <+: ended newline (t.pipes p).written
  progress : ∀ p tm, t.linesOf p = ended newline (t.pipes p).written ∨
    ∃ a ∈ [.read p 1, .handle p tm], (step S t a).isSome

theorem Kept.ended_written {p : ι} (h : Kept t p) : ended newline (t.pipes p).written =
    t.linesOf p ++ ended newline ((t.pipes p).buffer ++ (t.pipes p).inside) := by
  rw [h.written, ended_lines h.lines]

theorem Kept.progress {p : ι} (h : Kept t p) (tm : Tm)
    (hmore : t.linesOf p ≠ ended newline (t.pipes p).written) :
    ∃ a ∈ [.read p 1, .handle p tm], (step S t a).isSome := by
  rw [h.ended_written] at hmore
  have hfeed : newline ∈ (t.pipes p).buffer ++ (t.pipes p).inside := by
    by_contra hnone
    rw [ended_of_notMem hnone, List.append_nil] at hmore
    exact hmore rfl
  have hreading : (t.pipes p).reading = true := by
    by_contra hover
    obtain ⟨hbuffer, hinside, _⟩ := h.finished (Bool.eq_false_iff.mpr hover)
    rw [hinside, List.append_nil] at hfeed
    exact hbuffer hfeed
  by_cases hbuffer : newline ∈ (t.pipes p).buffer
  · refine ⟨.handle p tm, by simp, ?_⟩
    obtain ⟨line, rest, heq, hline⟩ := List.eq_append_cons_of_mem hbuffer
    have hcut : cut newline (t.pipes p).buffer = some (line, rest) :=
      cut_eq_some_iff.mpr ⟨heq, hline⟩
    simp [step, hreading, hcut]
  · refine ⟨.read p 1, by simp, ?_⟩
    have hinside : (t.pipes p).inside ≠ [] := by
      intro hnone
      rw [hnone, List.append_nil] at hfeed
      exact hbuffer hfeed
    simp [step, hreading, hbuffer, hinside]

theorem log_faithful {as : List (Action ι)} (h : run (step S) init as = some t) :
    Faithful S t := by
  have hinv := run_always inv_step inv_init h
  constructor
  · rw [hinv.stream_, splitOn_rows, List.flatMap_map]
  · intro hname p hlabel tm l hmem
    exact List.splitOn_eq_singleton
      (newline_notMem_row hname hlabel ((hinv.kept p).line_mem hmem))
  · intro p
    rw [(hinv.kept p).ended_written]
    exact List.prefix_append _ _
  · intro p tm
    by_cases hall : t.linesOf p = ended newline (t.pipes p).written
    · exact .inl hall
    · exact .inr ((hinv.kept p).progress tm hall)

/-- `STDOUT` and `STDERR`, with their lines in pieces. -/
def twoPipes : List (Action Bool) :=
  [.write false [104, 105, 10, 119], .write true [33, 10], .read false 2, .read true 9,
    .log ⟨1, 2, 3⟩ [10, 46], .read false 9, .handle true ⟨1, 2, 3⟩, .handle false ⟨1, 2, 4⟩,
    .close false, .eof false]

def labelled : Setup Bool := ⟨⟨[91, 93], true⟩, fun p => if p then [69, 32] else [79, 32]⟩

theorem log_faithful_twoPipes :
    ∃ t, run (step labelled) init twoPipes = some t ∧ Faithful labelled t := by
  have hsome : (run (step labelled) init twoPipes).isSome := by decide
  obtain ⟨t, ht⟩ := Option.isSome_iff_exists.mp hsome
  exact ⟨t, ht, log_faithful ht⟩

end Logging
