import Vpnmgr.Daemon.Finite
import Mathlib.Data.List.Induction

/-! The download that measures throughput. Two clocks end it: the client's deadline, which runs from
the start of the request and fails the body, and the loop's own, which runs from the head of the
response and keeps what was received. Instants are told from the start of the request. -/

namespace Vpnmgr.Transfer

open Ieee

/-- A completed throughput measurement. -/
structure Throughput where
  mbps : F64
  bytes : Nat
  elapsed : Duration
  truncated : Bool

def Throughput.fromParts (bytes : Nat) (elapsed : Duration) (truncated : Bool) : Throughput where
  mbps :=
    let seconds := elapsed.asSecsF64
    if 0 < seconds then F64.ofNat bytes * 8 / seconds / 1000000 else 0
  bytes
  elapsed
  truncated

/-- The measurement as the daemon passes it on. -/
def Throughput.sample (t : Throughput) : SpeedSample where
  mbps := t.mbps
  bytes := t.bytes
  elapsedMs := t.elapsed.asMillis
  truncated := t.truncated

/-- `Settings::default`. -/
def defaultSettings : ThroughputRequest where
  url := "https://speed.cloudflare.com/__down?bytes=25000000"
  bytes := 25000000
  timeout := .ofSecs 30

/-- Why the client gives up on a request or on a body. -/
inductive Cause where
  | timedOut
  | other (reason : String)
  deriving DecidableEq

inductive Error where
  | client (reason : String)
  | request (cause : Cause)
  | status (code : Nat)
  | transfer (cause : Cause)
  | nothingTransferred (elapsed : Duration)
  deriving DecidableEq

/-- Bytes ignored before timing starts, to exclude TCP slow start. -/
def warmupBytes : Nat := 2000000

/-- A chunk of the body: when it comes, and how long the loop takes from having it to noting it, and
from there to its look at the clock. -/
structure Chunk where
  arrives : Instant
  length : Nat
  noted : Duration
  checked : Duration

/-- What follows the chunks of a body. -/
inductive Ending where
  | closed (instant : Instant)
  | broken (instant : Instant) (reason : String)
  | stalled

/-- The answer to a request: when its head comes and how long the loop takes to begin, the body, and
how long after the last of it the rate is taken. -/
structure Response where
  arrives : Instant
  status : Nat
  begun : Duration
  chunks : List Chunk
  ending : Ending
  reported : Duration
  ordered : (arrives :: chunks.map Chunk.arrives).Pairwise (· ≤ ·)

inductive Exchange where
  | noClient (reason : String)
  | unsent (cause : Cause)
  | answered (response : Response)

/-- Where the loop over the body stands. -/
structure Progress where
  now : Instant
  total : Nat := 0
  measuringFrom : Option Instant := none
  measured : Nat := 0
  truncated : Bool := true

namespace Progress

/-- One chunk counted, up to the look at the clock. -/
def take (p : Progress) (c : Chunk) : Progress :=
  let noted := max p.now c.arrives + c.noted
  { p with
    now := noted + c.checked
    total := p.total + c.length
    measuringFrom := match p.measuringFrom with
      | none => if warmupBytes ≤ p.total + c.length then some noted else none
      | some since => some since
    measured := match p.measuringFrom with
      | some _ => p.measured + c.length
      | none => p.measured }

/-- The bytes that count, and the time they took. -/
def counted (p : Progress) (started finished : Instant) : Nat × Duration :=
  match p.measuringFrom with
  | some since =>
    if 0 < p.measured then (p.measured, finished - since) else (p.total, finished - started)
  | none => (p.total, finished - started)

def report (p : Progress) (started finished : Instant) : Except Error Throughput :=
  let (bytes, elapsed) := p.counted started finished
  if bytes = 0 then .error (.nothingTransferred (finished - started))
  else .ok (.fromParts bytes elapsed p.truncated)

end Progress

/-- The end of a body that the loop waits for: from the deadline on, the client fails it. -/
def Ending.reach (deadline : Instant) (p : Progress) : Ending → Except Error Progress
  | closed instant =>
    if deadline ≤ max p.now instant then .error (.transfer .timedOut)
    else .ok { p with now := max p.now instant }
  | broken instant reason =>
    .error (.transfer (if deadline ≤ max p.now instant then .timedOut else .other reason))
  | stalled => .error (.transfer .timedOut)

/-- The loop over the body. -/
def receive (settings : ThroughputRequest) (started : Instant) (ending : Ending) :
    Progress → List Chunk → Except Error Progress
  | p, [] => ending.reach settings.timeout p
  | p, c :: rest =>
    if settings.timeout ≤ max p.now c.arrives then .error (.transfer .timedOut)
    else if settings.timeout ≤ (p.take c).now - started then .ok (p.take c)
    else if settings.bytes ≤ (p.take c).total then .ok { p.take c with truncated := false }
    else receive settings started ending (p.take c) rest

namespace Response

def isSuccess (r : Response) : Bool := 200 ≤ r.status && r.status < 300

/-- When the loop begins. -/
def started (r : Response) : Instant := r.arrives + r.begun

end Response

/-- Download the payload and report the rate. -/
def measure (settings : ThroughputRequest) : Exchange → Except Error Throughput
  | .noClient reason => .error (.client reason)
  | .unsent cause => .error (.request cause)
  | .answered r =>
    if settings.timeout ≤ r.arrives then .error (.request .timedOut)
    else if !r.isSuccess then .error (.status r.status)
    else do
      let p ← receive settings r.started r.ending { now := r.started } r.chunks
      p.report r.started (p.now + r.reported)

/-! ### What the loop reads in time -/

/-- The number of bytes of some chunks. -/
def size (chunks : List Chunk) : Nat := (chunks.map Chunk.length).sum

/-- When the loop has done with a chunk. -/
def Chunk.done (now : Instant) (c : Chunk) : Instant := max now c.arrives + c.noted + c.checked

/-- When the loop has done with some chunks. -/
def reached (now : Instant) (chunks : List Chunk) : Instant := chunks.foldl Chunk.done now

/-- The chunks that the loop reads before the deadline. -/
def readBefore (deadline : Instant) : Instant → List Chunk → List Chunk
  | _, [] => []
  | now, c :: rest =>
    if max now c.arrives < deadline then c :: readBefore deadline (c.done now) rest else []

/-- The bytes past the warm-up over the time since it was noted, or all of them over the whole time
where none came past it. -/
inductive Counts (started finished : Instant) (chunks : List Chunk) : Nat → Duration → Prop
  | past {before after : List Chunk} {c : Chunk} (split : chunks = before ++ c :: after)
      (cold : size before < warmupBytes) (warm : warmupBytes ≤ size (before ++ [c]))
      (some : 0 < size after) :
      Counts started finished chunks (size after)
        (finished - (max (reached started before) c.arrives + c.noted))
  | whole (none : ∀ before after, chunks = before ++ after → warmupBytes ≤ size before →
      size after = 0) : Counts started finished chunks (size chunks) (finished - started)

@[simp] theorem size_nil : size [] = 0 := rfl

@[simp] theorem size_cons (c : Chunk) (chunks : List Chunk) :
    size (c :: chunks) = c.length + size chunks := rfl

@[simp] theorem size_append (before after : List Chunk) :
    size (before ++ after) = size before + size after := by
  simp [size]

theorem size_le_of_sublist {chunks chunks' : List Chunk} (h : chunks.Sublist chunks') :
    size chunks ≤ size chunks' :=
  (h.map Chunk.length).sum_le_sum fun _ _ => Nat.zero_le _

theorem Chunk.le_done (now : Instant) (c : Chunk) : max now c.arrives ≤ c.done now :=
  (Nat.le_add_right _ _).trans (Nat.le_add_right _ _)

theorem le_reached (now : Instant) (chunks : List Chunk) : now ≤ reached now chunks := by
  induction chunks generalizing now with
  | nil => exact le_rfl
  | cons c rest ih => exact (le_max_left _ _).trans ((c.le_done now).trans (ih _))

theorem readBefore_late {deadline now : Instant} (h : deadline ≤ now) (chunks : List Chunk) :
    readBefore deadline now chunks = [] := by
  cases chunks with
  | nil => rfl
  | cons c rest => exact if_neg (not_lt.mpr (h.trans (le_max_left _ _)))

/-- All chunks are read in time where the loop is done with the last of them in time. -/
theorem readBefore_of_reached {deadline now : Instant} {chunks : List Chunk}
    (h : reached now chunks < deadline) : readBefore deadline now chunks = chunks := by
  induction chunks generalizing now with
  | nil => rfl
  | cons c rest ih =>
    have hdone : max now c.arrives ≤ reached now (c :: rest) :=
      (c.le_done now).trans (le_reached _ rest)
    rw [readBefore, if_pos (hdone.trans_lt h), ih h]

theorem readBefore_sublist (deadline now : Instant) (chunks : List Chunk) :
    (readBefore deadline now chunks).Sublist
      (chunks.filter fun c => decide (c.arrives < deadline)) := by
  induction chunks generalizing now with
  | nil => exact .slnil
  | cons c rest ih =>
    unfold readBefore
    split
    · next h =>
      have harrives : c.arrives < deadline := (le_max_right _ _).trans_lt h
      rw [List.filter_cons, if_pos (decide_eq_true harrives)]
      exact (ih _).cons_cons c
    · exact List.nil_sublist _

/-! ### What the loop has counted -/

/-- Where the timing stands after some chunks: when it started, and the bytes counted since. -/
inductive Timing (started : Instant) (chunks : List Chunk) : Option Instant → Nat → Prop
  | cold (cold : size chunks < warmupBytes) : Timing started chunks none 0
  | past {before after : List Chunk} {c : Chunk} (split : chunks = before ++ c :: after)
      (cold : size before < warmupBytes) (warm : warmupBytes ≤ size (before ++ [c])) :
      Timing started chunks (some (max (reached started before) c.arrives + c.noted)) (size after)

/-- The loop invariant: what the progress is after some chunks. -/
structure Tally (started : Instant) (chunks : List Chunk) (p : Progress) : Prop where
  now : p.now = reached started chunks
  total : p.total = size chunks
  truncated : p.truncated = true
  timing : Timing started chunks p.measuringFrom p.measured

theorem tally_start (started : Instant) : Tally started [] { now := started } :=
  ⟨rfl, rfl, rfl, .cold (by decide)⟩

theorem reached_append (now : Instant) (chunks : List Chunk) (c : Chunk) :
    reached now (chunks ++ [c]) = c.done (reached now chunks) := List.foldl_append

theorem Tally.take {started : Instant} {chunks : List Chunk} {p : Progress}
    (h : Tally started chunks p) (c : Chunk) : Tally started (chunks ++ [c]) (p.take c) := by
  obtain ⟨now, total, measuringFrom, measured, truncated⟩ := p
  obtain ⟨hnow, htotal, htruncated, htiming⟩ := h
  dsimp only at hnow htotal htruncated htiming
  subst hnow htotal htruncated
  have hsize : size chunks + c.length = size (chunks ++ [c]) := by simp
  refine ⟨(reached_append started chunks c).symm, hsize, rfl, ?_⟩
  cases htiming with
  | cold hcold =>
    by_cases hwarm : warmupBytes ≤ size chunks + c.length
    · have hpast : Timing started (chunks ++ [c]) _ (size []) := .past rfl hcold (hsize ▸ hwarm)
      simpa only [Progress.take, if_pos hwarm, size_nil] using hpast
    · have hcold' : Timing started (chunks ++ [c]) none 0 := .cold (by omega)
      simpa only [Progress.take, if_neg hwarm] using hcold'
  | @past before after mark hsplit hcold hwarm =>
    have hmeasured : size (after ++ [c]) = size after + c.length := by simp
    have hsplit' : chunks ++ [c] = before ++ mark :: (after ++ [c]) := by
      rw [hsplit, List.append_assoc, List.cons_append]
    have hpast : Timing started (chunks ++ [c]) _ _ := .past hsplit' hcold hwarm
    rwa [hmeasured] at hpast

theorem foldl_tally (started : Instant) (chunks : List Chunk) :
    Tally started chunks (chunks.foldl Progress.take { now := started }) := by
  induction chunks using List.reverseRecOn with
  | nil => exact tally_start started
  | append_singleton chunks c ih =>
    rw [List.foldl_append]
    exact ih.take c

theorem Counts.pos_iff {started finished : Instant} {chunks : List Chunk} {bytes : Nat}
    {elapsed : Duration} (h : Counts started finished chunks bytes elapsed) :
    0 < bytes ↔ 0 < size chunks := by
  cases h with
  | past hsplit hcold hwarm hsome =>
    refine iff_of_true hsome ?_
    rw [hsplit, size_append, size_cons]
    omega
  | whole hnone => rfl

/-- Past the warm-up there is nothing more than what was counted. -/
theorem Timing.whole {started : Instant} {chunks : List Chunk} {since : Option Instant}
    (h : Timing started chunks since 0) {before after : List Chunk}
    (hsplit : chunks = before ++ after) (hwarm : warmupBytes ≤ size before) : size after = 0 := by
  generalize hmeasured : 0 = measured at h
  cases h with
  | cold hcold =>
    rw [hsplit, size_append] at hcold
    omega
  | @past before' after' c hsplit' hcold _ =>
    rcases List.append_eq_append_iff.mp (hsplit.symm.trans hsplit') with
      ⟨middle, rfl, -⟩ | ⟨middle, rfl, hafter⟩
    · rw [size_append] at hcold
      omega
    · cases middle with
      | nil =>
        rw [List.append_nil] at hwarm
        omega
      | cons c' middle =>
        have hrest : after' = middle ++ after := (List.cons.inj hafter).2
        rw [hrest, size_append] at hmeasured ⊢
        omega

/-- What is reported of the chunks counted. -/
theorem Tally.report {started : Instant} {chunks : List Chunk} {p : Progress}
    (h : Tally started chunks p) (finished : Instant) : ∃ bytes elapsed,
      Counts started finished chunks bytes elapsed ∧ p.report started finished =
        if bytes = 0 then .error (.nothingTransferred (finished - started))
        else .ok (.fromParts bytes elapsed true) := by
  obtain ⟨now, total, measuringFrom, measured, truncated⟩ := p
  obtain ⟨-, htotal, htruncated, htiming⟩ := h
  dsimp only at htotal htruncated htiming
  subst htotal htruncated
  rcases measured.eq_zero_or_pos with rfl | hpos
  · refine ⟨size chunks, finished - started, .whole fun _ _ => htiming.whole, ?_⟩
    cases measuringFrom <;> rfl
  · cases htiming with
    | cold hcold => exact absurd hpos (lt_irrefl 0)
    | @past before after c hsplit hcold hwarm =>
      refine ⟨size after, _, .past hsplit hcold hwarm hpos, ?_⟩
      simp only [Progress.report, Progress.counted, if_pos hpos]

/-! ### How the loop ends -/

/-- Of a payload that does not complete, the loop reads the chunks that come before the deadline.
Its own clock cuts it short after the last of them, or it waits for the end of the body, or the
client fails the body before. -/
theorem receive_cases {settings : ThroughputRequest} {started : Instant} (ending : Ending)
    {p : Progress} {chunks : List Chunk} (hstarted : p.now - started < settings.timeout)
    (htotal : p.total + size (readBefore settings.timeout p.now chunks) < settings.bytes) :
    (settings.timeout ≤
        reached p.now (readBefore settings.timeout p.now chunks) - started ∧
      receive settings started ending p chunks =
        .ok ((readBefore settings.timeout p.now chunks).foldl Progress.take p)) ∨
    (reached p.now (readBefore settings.timeout p.now chunks) - started < settings.timeout ∧
      readBefore settings.timeout p.now chunks = chunks ∧
      receive settings started ending p chunks =
        ending.reach settings.timeout (chunks.foldl Progress.take p)) ∨
    (reached p.now (readBefore settings.timeout p.now chunks) - started < settings.timeout ∧
      readBefore settings.timeout p.now chunks ≠ chunks ∧
      receive settings started ending p chunks = .error (.transfer .timedOut)) := by
  induction chunks generalizing p with
  | nil => exact .inr (.inl ⟨hstarted, rfl, rfl⟩)
  | cons c rest ih =>
    by_cases hread : max p.now c.arrives < settings.timeout
    · have hlate : ¬settings.timeout ≤ max p.now c.arrives := not_le.mpr hread
      have hbefore : readBefore settings.timeout p.now (c :: rest) =
          c :: readBefore settings.timeout (p.take c).now rest := if_pos hread
      rw [hbefore] at htotal ⊢
      by_cases hover : settings.timeout ≤ (p.take c).now - started
      · have hnone : readBefore settings.timeout (p.take c).now rest = [] :=
          readBefore_late (hover.trans (Nat.sub_le _ _)) rest
        rw [hnone]
        refine .inl ⟨hover, ?_⟩
        rw [receive, if_neg hlate, if_pos hover]
        rfl
      · have htotal' : (p.take c).total + size (readBefore settings.timeout (p.take c).now rest) <
            settings.bytes := by
          rwa [size_cons, ← Nat.add_assoc] at htotal
        have hmore : ¬settings.bytes ≤ (p.take c).total :=
          not_le.mpr ((Nat.le_add_right _ _).trans_lt htotal')
        have hstep : receive settings started ending p (c :: rest) =
            receive settings started ending (p.take c) rest := by
          rw [receive, if_neg hlate, if_neg hover, if_neg hmore]
        rw [hstep]
        rcases ih (not_le.mp hover) htotal' with h | ⟨htime, hall, h⟩ | ⟨htime, hall, h⟩
        · exact .inl h
        · exact .inr (.inl ⟨htime, congrArg (c :: ·) hall, h⟩)
        · exact .inr (.inr ⟨htime, fun heq => hall (List.cons.inj heq).2, h⟩)
    · have hbefore : readBefore settings.timeout p.now (c :: rest) = [] := if_neg hread
      rw [hbefore]
      refine .inr (.inr ⟨hstarted, (List.cons_ne_nil _ _).symm, ?_⟩)
      rw [receive, if_pos (not_lt.mp hread)]

namespace Response

variable {settings : ThroughputRequest} {r : Response}

/-- The chunks that the loop reads before the client's deadline. -/
def received (r : Response) (settings : ThroughputRequest) : List Chunk :=
  readBefore settings.timeout r.started r.chunks

/-- A part of the payload came before the deadline, and not all of it. -/
structure CutShort (r : Response) (settings : ThroughputRequest) : Prop where
  byte : ∃ c ∈ r.chunks, 0 < c.length ∧ c.arrives < settings.timeout
  incomplete :
    size (r.chunks.filter fun c => decide (c.arrives < settings.timeout)) < settings.bytes

/-- The measurement is the rate of the bytes received, marked as truncated. -/
def Rated (r : Response) (settings : ThroughputRequest) (result : Except Error Throughput) : Prop :=
  ∃ finished bytes elapsed, reached r.started (r.received settings) ≤ finished ∧
    Counts r.started finished (r.received settings) bytes elapsed ∧
    result = .ok (.fromParts bytes elapsed true)

/-- The server ends the body before the deadline, or the loop is held up after a chunk for so long
that its own clock is the first to be looked at. -/
structure Spared (r : Response) (settings : ThroughputRequest) : Prop where
  success : r.isSuccess = true
  carried : 0 < size (r.received settings)
  ended : (∃ instant, r.ending = .closed instant ∧
      max (reached r.started r.chunks) instant < settings.timeout) ∨
    settings.timeout ≤ reached r.started (r.received settings) - r.started

/-- The head comes before any of the body. -/
theorem CutShort.head (h : r.CutShort settings) : r.arrives < settings.timeout := by
  obtain ⟨c, hc, -, hin⟩ := h.byte
  exact ((List.pairwise_cons.mp r.ordered).1 _ (List.mem_map_of_mem hc)).trans_lt hin

theorem CutShort.size_lt (h : r.CutShort settings) :
    size (r.received settings) < settings.bytes :=
  (size_le_of_sublist (readBefore_sublist _ _ _)).trans_lt h.incomplete

theorem CutShort.size_pos (h : r.CutShort settings) : 0 < size r.chunks := by
  obtain ⟨c, hc, hlength, -⟩ := h.byte
  exact hlength.trans_le (List.single_le_sum (fun _ _ => Nat.zero_le _) _
    (List.mem_map_of_mem hc))

theorem measure_answered (hhead : r.arrives < settings.timeout) (hsuccess : r.isSuccess = true) :
    measure settings (.answered r) =
      (receive settings r.started r.ending { now := r.started } r.chunks).bind fun p =>
        p.report r.started (p.now + r.reported) := by
  rw [measure, if_neg (not_le.mpr hhead), if_neg (by rw [hsuccess]; decide)]
  rfl

/-- The ways in which the loop over a body cut short ends. -/
theorem CutShort.receive_cases (h : r.CutShort settings) :
    (settings.timeout ≤ reached r.started (r.received settings) - r.started ∧
      receive settings r.started r.ending { now := r.started } r.chunks =
        .ok ((r.received settings).foldl Progress.take { now := r.started })) ∨
    (reached r.started (r.received settings) - r.started < settings.timeout ∧
      r.received settings = r.chunks ∧
      receive settings r.started r.ending { now := r.started } r.chunks =
        r.ending.reach settings.timeout (r.chunks.foldl Progress.take { now := r.started })) ∨
    (reached r.started (r.received settings) - r.started < settings.timeout ∧
      r.received settings ≠ r.chunks ∧
      receive settings r.started r.ending { now := r.started } r.chunks =
        .error (.transfer .timedOut)) := by
  have htimeout : r.started - r.started < settings.timeout := by
    rw [Nat.sub_self]
    exact (Nat.zero_le _).trans_lt h.head
  exact Transfer.receive_cases (p := { now := r.started }) r.ending htimeout
    ((Nat.zero_add _).trans_lt h.size_lt)

/-- What is reported of the chunks received is a rate, where they are not empty. -/
theorem report_rated {p : Progress} {finished : Instant}
    (h : Tally r.started (r.received settings) p)
    (hfinished : reached r.started (r.received settings) ≤ finished) :
    r.Rated settings (p.report r.started finished) ↔ 0 < size (r.received settings) := by
  obtain ⟨bytes, elapsed, hcounts, hreport⟩ := h.report finished
  rw [hreport]
  constructor
  · rintro ⟨finished', bytes', elapsed', -, -, hok⟩
    split at hok
    · cases hok
    · next hne => exact hcounts.pos_iff.mp (Nat.pos_of_ne_zero hne)
  · intro hpos
    rw [if_neg (hcounts.pos_iff.mpr hpos).ne']
    exact ⟨finished, bytes, elapsed, hfinished, hcounts, rfl⟩

/-- A loop held up past its own deadline reports what it received. -/
theorem measure_held (h : r.CutShort settings) (hsuccess : r.isSuccess = true)
    (hover : settings.timeout ≤ reached r.started (r.received settings) - r.started) :
    r.Rated settings (measure settings (.answered r)) ↔ 0 < size (r.received settings) := by
  have htally := foldl_tally r.started (r.received settings)
  rw [measure_answered h.head hsuccess]
  rcases h.receive_cases with ⟨-, hrun⟩ | ⟨hlate, -⟩ | ⟨hlate, -⟩
  · rw [hrun]
    exact report_rated htally (htally.now.ge.trans (Nat.le_add_right _ _))
  · exact absurd hover (not_le.mpr hlate)
  · exact absurd hover (not_le.mpr hlate)

/-- A body that ends before the deadline is reported. -/
theorem measure_closed (h : r.CutShort settings) (hsuccess : r.isSuccess = true) {instant : Instant}
    (hending : r.ending = .closed instant)
    (hin : max (reached r.started r.chunks) instant < settings.timeout) :
    r.received settings = r.chunks ∧ r.Rated settings (measure settings (.answered r)) := by
  have hreached : reached r.started r.chunks < settings.timeout := (le_max_left _ _).trans_lt hin
  have hall : r.received settings = r.chunks := readBefore_of_reached hreached
  have htally := foldl_tally r.started r.chunks
  refine ⟨hall, ?_⟩
  rw [measure_answered h.head hsuccess]
  rcases h.receive_cases with ⟨hover, -⟩ | ⟨-, -, hrun⟩ | ⟨-, hnot, -⟩
  · rw [hall] at hover
    exact absurd (hover.trans (Nat.sub_le _ _)) (not_le.mpr hreached)
  · rw [hrun, hending, Ending.reach, if_neg (by rw [htally.now]; exact not_le.mpr hin)]
    have hfinished : reached r.started r.chunks ≤
        max (r.chunks.foldl Progress.take { now := r.started }).now instant + r.reported :=
      htally.now.ge.trans ((le_max_left _ _).trans (Nat.le_add_right _ _))
    rw [← hall] at htally hfinished
    have hrated := (report_rated htally hfinished).mpr (hall ▸ h.size_pos)
    rw [hall] at hrated
    exact hrated
  · exact absurd hall hnot

/-- A body cut short fails the measurement, unless the server ends it or the loop is held up. -/
theorem measure_lost (h : r.CutShort settings) (hsuccess : r.isSuccess = true)
    (hclosed : ∀ instant, r.ending = .closed instant →
      settings.timeout ≤ max (reached r.started r.chunks) instant)
    (hlate : reached r.started (r.received settings) - r.started < settings.timeout) :
    ∃ cause, measure settings (.answered r) = .error (.transfer cause) := by
  rw [measure_answered h.head hsuccess]
  rcases h.receive_cases with ⟨hover, -⟩ | ⟨-, -, hrun⟩ | ⟨-, -, hrun⟩
  · exact absurd hover (not_le.mpr hlate)
  · have hnow := (foldl_tally r.started r.chunks).now
    rw [hrun]
    cases hending : r.ending with
    | closed instant =>
      have hpast := hclosed instant hending
      rw [← hnow] at hpast
      exact ⟨.timedOut, by rw [Ending.reach, if_pos hpast]; rfl⟩
    | broken instant reason => exact ⟨_, rfl⟩
    | stalled => exact ⟨_, rfl⟩
  · exact ⟨.timedOut, by rw [hrun]; rfl⟩

/-- A transfer cut short yields the rate of what was received exactly where the server ends it
before the deadline, or the loop is held up past its own. -/
theorem measure_rated_iff (h : r.CutShort settings) :
    r.Rated settings (measure settings (.answered r)) ↔ r.Spared settings := by
  have hfailed : ∀ e, measure settings (.answered r) = .error e →
      ¬r.Rated settings (measure settings (.answered r)) := by
    rintro e he ⟨_, _, _, _, _, hok⟩
    rw [he] at hok
    cases hok
  cases hsuccess : r.isSuccess with
  | false =>
    have herror : measure settings (.answered r) = .error (.status r.status) := by
      rw [measure, if_neg (not_le.mpr h.head), if_pos (by rw [hsuccess]; rfl)]
    exact iff_of_false (hfailed _ herror) fun hspared => by
      rw [hspared.success] at hsuccess
      cases hsuccess
  | true =>
    by_cases hover : settings.timeout ≤ reached r.started (r.received settings) - r.started
    · rw [measure_held h hsuccess hover]
      exact ⟨fun hpos => ⟨hsuccess, hpos, .inr hover⟩, Spared.carried⟩
    by_cases hclosed : ∃ instant, r.ending = .closed instant ∧
        max (reached r.started r.chunks) instant < settings.timeout
    · obtain ⟨instant, hending, hin⟩ := hclosed
      obtain ⟨hall, hrated⟩ := measure_closed h hsuccess hending hin
      exact iff_of_true hrated
        ⟨hsuccess, by rw [hall]; exact h.size_pos, .inl ⟨instant, hending, hin⟩⟩
    · obtain ⟨cause, herror⟩ := measure_lost h hsuccess
        (fun instant hending => not_lt.mp fun hin => hclosed ⟨instant, hending, hin⟩)
        (not_le.mp hover)
      exact iff_of_false (hfailed _ herror) fun hspared => hspared.ended.elim hclosed hover

/-- Ten seconds in, a third of the payload is there, and no more comes. -/
def stalled : Response where
  arrives := Duration.ofSecs 1
  status := 200
  begun := 0
  chunks := [⟨Duration.ofSecs 2, 4000000, 0, 0⟩, ⟨Duration.ofSecs 10, 4000000, 0, 0⟩]
  ending := .stalled
  reported := 0
  ordered := by decide

theorem stalled_cutShort : stalled.CutShort defaultSettings where
  byte := ⟨⟨Duration.ofSecs 2, 4000000, 0, 0⟩, .head _, by decide⟩
  incomplete := by decide

theorem stalled_rated_iff :
    stalled.Rated defaultSettings (measure defaultSettings (.answered stalled)) ↔
      stalled.Spared defaultSettings :=
  measure_rated_iff stalled_cutShort

/-- The client's deadline throws away what a stalled transfer delivered. -/
theorem stalled_unrated : ¬∀ (settings : ThroughputRequest) (r : Response), r.CutShort settings →
    r.Rated settings (measure settings (.answered r)) := by
  intro hrated
  obtain ⟨_, _, _, _, _, hok⟩ := hrated _ _ stalled_cutShort
  have herror : measure defaultSettings (.answered stalled) = .error (.transfer .timedOut) := rfl
  rw [herror] at hok
  cases hok

/-- A loop that is never held up stays within the client's deadline. -/
theorem reached_prompt {deadline now : Instant} {chunks : List Chunk} (hnow : now < deadline)
    (hprompt : ∀ c ∈ chunks, c.noted = 0 ∧ c.checked = 0) :
    reached now (readBefore deadline now chunks) < deadline := by
  induction chunks generalizing now with
  | nil => exact hnow
  | cons c rest ih =>
    obtain ⟨hc, hrest⟩ := List.forall_mem_cons.mp hprompt
    unfold readBefore
    split
    · next hread =>
      have hdone : c.done now = max now c.arrives := by rw [Chunk.done, hc.1, hc.2]; rfl
      exact ih (hdone ▸ hread) hrest
    · exact hnow

/-- Of a loop that is never held up, only the end of the body saves what it received. -/
theorem spared_prompt (h : r.CutShort settings)
    (hprompt : ∀ c ∈ r.chunks, c.noted = 0 ∧ c.checked = 0) :
    r.Spared settings ↔ r.isSuccess = true ∧ ∃ instant, r.ending = .closed instant ∧
      max (reached r.started r.chunks) instant < settings.timeout := by
  constructor
  · intro hspared
    refine ⟨hspared.success, hspared.ended.resolve_right (not_le.mpr ?_)⟩
    rcases lt_or_ge r.started settings.timeout with hstarted | hstarted
    · exact (Nat.sub_le _ _).trans_lt (reached_prompt hstarted hprompt)
    · have hnone : r.received settings = [] := readBefore_late hstarted r.chunks
      have hpos := hspared.carried
      rw [hnone] at hpos
      exact absurd hpos (lt_irrefl 0)
  · rintro ⟨hsuccess, instant, hending, hin⟩
    have hall := (measure_closed h hsuccess hending hin).1
    exact ⟨hsuccess, by rw [hall]; exact h.size_pos, .inl ⟨instant, hending, hin⟩⟩

end Response

/-! ### The measurement as a download -/

/-- A download as the daemon makes it, with the texts of its errors. -/
def download (exchange : ThroughputRequest → Exchange) (describe : Error → String) : Download :=
  fun settings => ((measure settings (exchange settings)).map Throughput.sample).mapError describe

theorem measure_fromParts {settings : ThroughputRequest} {exchange : Exchange} {t : Throughput}
    (h : measure settings exchange = .ok t) :
    ∃ bytes elapsed truncated, t = .fromParts bytes elapsed truncated := by
  cases exchange with
  | noClient reason => cases h
  | unsent cause => cases h
  | answered r =>
    unfold measure at h
    dsimp only at h
    split at h
    · cases h
    split at h
    · cases h
    cases hrun : receive settings r.started r.ending { now := r.started } r.chunks with
    | error e => rw [hrun] at h; cases h
    | ok p =>
      rw [hrun] at h
      change p.report r.started (p.now + r.reported) = .ok t at h
      unfold Progress.report at h
      dsimp only at h
      split at h
      · cases h
      · cases h
        exact ⟨_, _, _, rfl⟩

/-- What a download ends with is a rate of bytes over time. -/
theorem download_measured (exchange : ThroughputRequest → Exchange) (describe : Error → String) :
    (download exchange describe).Measured := by
  intro settings sample h
  unfold download at h
  cases hrun : measure settings (exchange settings) with
  | error e => rw [hrun] at h; cases h
  | ok t =>
    rw [hrun] at h
    obtain ⟨bytes, elapsed, truncated, rfl⟩ := measure_fromParts hrun
    cases h
    exact ⟨bytes, elapsed, truncated, rfl⟩

end Vpnmgr.Transfer
