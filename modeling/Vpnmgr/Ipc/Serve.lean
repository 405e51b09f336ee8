import Vpnmgr.Daemon.Requests
import Vpnmgr.Library.Utf8

/-! The loop that serves one client: a request a line, read through a limit, and one response line
for what each read brought. -/

namespace Vpnmgr

open BufRead Text Utf8

/-- Longest message accepted, to bound what a client can make the daemon buffer. -/
def maxLine : Nat := 1024 * 1024

/-- What the loop is built on: how a request is read from a text and carried out on a state, and how
a response is written. -/
structure Protocol (σ Request Response : Type) where
  fromStr : String → Except String Request
  handle : Request → σ → Response × σ
  error : String → Response
  toString : Response → Except String String

/-- One answer: where in the stream the text begins that it answers, the request that was carried
out if that text was one, and what was written. -/
structure Answer (Request : Type) where
  start : Nat
  executed : Option Request
  written : String
  deriving DecidableEq

/-- What serving a client came to: its answers, the state after them, and how the stream ended. -/
structure Served (σ Request : Type) where
  answers : List (Answer Request)
  state : σ
  result : Except String Unit

namespace Protocol

variable {σ Request Response : Type} (p : Protocol σ Request Response)

/-- The line written for a response, with one in its place if the response cannot be encoded. -/
def line (response : Response) : String :=
  (match p.toString response with
    | .ok text => text
    | .error e => "\x7b\"response\":\"error\",\"message\":\"" ++ e ++ "\"\x7d") ++ "\n"

/-- Answer a text that was read: carry it out if it is a request. -/
def answer (start : Nat) (text : List Char) (s : σ) : Answer Request × σ :=
  match p.fromStr (String.ofList (trimEndChars text)) with
  | .ok request =>
    let (response, s) := p.handle request s
    (⟨start, some request, p.line response⟩, s)
  | .error e => (⟨start, none, p.line (p.error ("malformed request: " ++ e))⟩, s)

/-- The loop: every read takes no more than the limit and no more than one line, and what it leaves
of a longer line is read next. A read that is not UTF-8 ends it with an error. -/
def serve (start : Nat) (r : Reader UInt8) (s : σ) : Served σ Request :=
  let read := r.readUntil newline maxLine
  if _ : read.1 = [] then ⟨[], s, .ok ()⟩
  else
    match decode read.1 with
    | none => ⟨[], s, .error "stream did not contain valid UTF-8"⟩
    | some text =>
      let (answer, s) := p.answer start text s
      let served := serve (start + read.1.length) read.2 s
      { served with answers := answer :: served.answers }
termination_by r.rest.length
decreasing_by exact Reader.readUntil_shrinks ‹_›

/-! ### What each read brings -/

theorem serve_end {start : Nat} {r : Reader UInt8} {s : σ} (h : r.rest = []) :
    p.serve start r s = ⟨[], s, .ok ()⟩ := by
  have hread : (r.readUntil newline maxLine).1 = [] := by
    rw [(Reader.readUntil_eq newline maxLine r).1, h]
    rfl
  rw [serve, dif_pos hread]

theorem serve_stops {start : Nat} {r : Reader UInt8} {s : σ} {read : List UInt8}
    (hread : (through newline r.rest).take maxLine = read) (hne : read ≠ [])
    (h : decode read = none) :
    p.serve start r s = ⟨[], s, .error "stream did not contain valid UTF-8"⟩ := by
  rw [← hread, ← (Reader.readUntil_eq newline maxLine r).1] at hne h
  rw [serve, dif_neg hne, h]

theorem serve_answers (start : Nat) (s : σ) {r : Reader UInt8} {read : List UInt8}
    {text : List Char} (hread : (through newline r.rest).take maxLine = read) (hne : read ≠ [])
    (h : decode read = some text) : ∃ r' : Reader UInt8, r'.rest = r.rest.drop read.length ∧
      p.serve start r s =
        { p.serve (start + read.length) r' (p.answer start text s).2 with
          answers := (p.answer start text s).1 ::
            (p.serve (start + read.length) r' (p.answer start text s).2).answers } := by
  obtain ⟨hpiece, hrest⟩ := Reader.readUntil_eq newline maxLine r
  refine ⟨(r.readUntil newline maxLine).2, by rw [hrest, hread], ?_⟩
  rw [hread] at hpiece
  rw [serve, dif_neg (by rw [hpiece]; exact hne), hpiece, h]

/-! ### One answer a line -/

/-- One answer to each line in order, which begins to be read in that line: a line within the limit
is answered as a whole, and of a longer one nothing is carried out. -/
def Frames : Nat → σ → List (List Char) → List (Answer Request) → σ → Prop
  | _, s, [], [], s' => s' = s
  | start, s, line :: lines, a :: answers, s' =>
    (start ≤ a.start ∧ a.start < start + (encode line).length) ∧
      if (encode (content line)).length ≤ maxLine then
        a = (p.answer a.start (content line) s).1 ∧
          Frames (start + (encode line).length) (p.answer a.start (content line) s).2 lines answers s'
      else a.executed = none ∧ Frames (start + (encode line).length) s lines answers s'
  | _, _, _, _, _ => False

/-- A line longer than the limit at which the loop ends: what is read of it first is no request, and
what is read next is not UTF-8. -/
def EndsAt (line : List Char) : Prop :=
  (∃ text e, decode ((encode line).take maxLine) = some text ∧
    p.fromStr (String.ofList (trimEndChars text)) = .error e) ∧
  decode (((encode line).drop maxLine).take maxLine) = none

/-- Every line is within the limit with its line feed, unless it is the last and the loop ends at
it. -/
def Fits : List (List Char) → Prop
  | [] => True
  | line :: lines =>
    if (encode line).length ≤ maxLine then Fits lines else lines = [] ∧ p.EndsAt line

variable {line rest : List Char}

theorem answer_content (h : BufRead.IsLine '\n' line rest) (start : Nat) (s : σ) :
    p.answer start (content line) s = p.answer start line s := by
  rw [answer, answer, trimEnd_content h]

/-- What is answered without carrying anything out leaves the state. -/
theorem answer_none {start : Nat} {text : List Char} {s : σ}
    (h : (p.answer start text s).1.executed = none) : (p.answer start text s).2 = s ∧
      ∃ e, p.fromStr (String.ofList (trimEndChars text)) = .error e := by
  unfold answer at h ⊢
  cases hparse : p.fromStr (String.ofList (trimEndChars text)) with
  | ok request => rw [hparse] at h; cases h
  | error e => exact ⟨rfl, e, rfl⟩

theorem answer_error (start : Nat) (s : σ) {text : List Char} {e : String}
    (h : p.fromStr (String.ofList (trimEndChars text)) = .error e) :
    (p.answer start text s).1.executed = none ∧ (p.answer start text s).2 = s := by
  rw [answer, h]
  exact ⟨rfl, rfl⟩

@[simp] theorem answer_start (start : Nat) (text : List Char) (s : σ) :
    (p.answer start text s).1.start = start := by
  unfold answer
  split <;> rfl

/-- Of a line that is too long by its line feed alone, the rest is UTF-8. -/
theorem content_long (hline : BufRead.IsLine '\n' line rest) (hlong : maxLine < (encode line).length)
    (hnone : decode (((encode line).drop maxLine).take maxLine) = none) :
    maxLine < (encode (content line)).length := by
  rcases content_cases hline with heq | ⟨heq, _⟩
  · by_contra hshort
    have hlength : (encode line).length = (encode (content line)).length + 1 := by
      conv_lhs => rw [heq, encode_append, encode_newline, List.length_append]
      rfl
    have hexact : (encode (content line)).length = maxLine := by omega
    have hrest : ((encode line).drop maxLine).take maxLine = encode ['\n'] := by
      rw [heq, encode_append, ← hexact, List.drop_left]
      exact List.take_of_length_le (by rw [hexact]; decide)
    rw [hrest, decode_encode] at hnone
    cases hnone
  · rwa [← heq]

theorem frames_nil {start : Nat} {s s' : σ} {lines : List (List Char)} :
    p.Frames start s lines [] s' ↔ lines = [] ∧ s' = s := by
  cases lines with
  | nil => exact (and_iff_right rfl).symm
  | cons line lines => exact iff_of_false id fun h => (by cases h.1)

/-- A line within the limit is read and answered as a whole. -/
theorem serve_line (hne : line ≠ []) (hline : BufRead.IsLine '\n' line rest)
    (hshort : (encode line).length ≤ maxLine) {r : Reader UInt8} (hr : r.rest = encode (line ++ rest))
    (start : Nat) (s : σ) : ∃ r' : Reader UInt8, r'.rest = encode rest ∧ p.serve start r s =
      { p.serve (start + (encode line).length) r' (p.answer start line s).2 with
        answers := (p.answer start line s).1 ::
          (p.serve (start + (encode line).length) r' (p.answer start line s).2).answers } := by
  have hbytes : encode line ≠ [] := fun hnil => hne (encode_eq_nil.mp hnil)
  have hthrough := (isLine_encode hline).through_drop (List.length_pos_of_ne_nil hbytes)
  rw [List.drop_zero] at hthrough
  have hread : (through newline r.rest).take maxLine = encode line := by
    rw [hr, encode_append, hthrough, List.take_of_length_le hshort]
  obtain ⟨r', hr', hserve⟩ := p.serve_answers start s hread hbytes (decode_encode line)
  refine ⟨r', ?_, hserve⟩
  rw [hr', hr, encode_append, List.drop_left]

/-- A longer line is cut. If both of its first two reads are UTF-8, both are answered. -/
theorem serve_cut (hline : BufRead.IsLine '\n' line rest) (hlong : maxLine < (encode line).length)
    {r : Reader UInt8} (hr : r.rest = encode (line ++ rest)) (start : Nat) (s : σ) :
    (decode ((encode line).take maxLine) = none ∧ (p.serve start r s).answers = []) ∨
    ∃ text, decode ((encode line).take maxLine) = some text ∧
      ((decode (((encode line).drop maxLine).take maxLine) = none ∧
          (p.serve start r s).answers = [(p.answer start text s).1] ∧
          (p.serve start r s).state = (p.answer start text s).2) ∨
        ((decode (((encode line).drop maxLine).take maxLine)).isSome = true ∧
          ∃ a more, (p.serve start r s).answers = (p.answer start text s).1 :: a :: more ∧
            a.start = start + maxLine)) := by
  have hlimit : 0 < maxLine := by decide
  have hbytes := isLine_encode hline
  have htake : ((encode line).take maxLine).length = maxLine := by
    rw [List.length_take]
    omega
  have hread : (through newline r.rest).take maxLine = (encode line).take maxLine := by
    have hthrough := hbytes.through_drop (n := 0) (by omega)
    rw [List.drop_zero] at hthrough
    rw [hr, encode_append, hthrough]
  have hne : (encode line).take maxLine ≠ [] := List.ne_nil_of_length_pos (by omega)
  cases hfirst : decode ((encode line).take maxLine) with
  | none => exact .inl ⟨rfl, by rw [p.serve_stops hread hne hfirst]⟩
  | some text =>
    refine .inr ⟨text, rfl, ?_⟩
    obtain ⟨r', hr', hserve⟩ := p.serve_answers start s hread hne hfirst
    rw [htake, hr, encode_append, List.drop_append_of_le_length (by omega)] at hr'
    have hread' : (through newline r'.rest).take maxLine =
        ((encode line).drop maxLine).take maxLine := by
      rw [hr', hbytes.through_drop hlong]
    have hne' : ((encode line).drop maxLine).take maxLine ≠ [] :=
      List.ne_nil_of_length_pos (by rw [List.length_take, List.length_drop]; omega)
    rw [hserve, htake]
    cases hsecond : decode (((encode line).drop maxLine).take maxLine) with
    | none =>
      rw [p.serve_stops hread' hne' hsecond]
      exact .inl ⟨rfl, rfl, rfl⟩
    | some text' =>
      obtain ⟨r'', _, hserve'⟩ := p.serve_answers (start + maxLine)
        (p.answer start text s).2 hread' hne' hsecond
      rw [hserve']
      exact .inr ⟨rfl, _, _, rfl, p.answer_start _ _ _⟩

theorem frames_iff (start : Nat) (cs : List Char) (r : Reader UInt8) (hr : r.rest = encode cs)
    (s : σ) : p.Frames start s (lines cs) (p.serve start r s).answers (p.serve start r s).state ↔
      p.Fits (lines cs) := by
  induction hn : cs.length using Nat.strongRecOn generalizing start cs r s with
  | ind n ih =>
  by_cases hcs : cs = []
  · subst hcs
    rw [p.serve_end hr]
    exact iff_of_true rfl trivial
  obtain ⟨line, rest, rfl, hline, hisLine, hlines⟩ := lines_cases hcs
  rw [hlines, Fits]
  have hlength : rest.length < n := by
    rw [← hn, List.length_append]
    have := List.length_pos_of_ne_nil hline
    omega
  by_cases hshort : (encode line).length ≤ maxLine
  · obtain ⟨r', hr', hserve⟩ := p.serve_line hline hisLine hshort hr start s
    have hbytes := List.length_pos_of_ne_nil fun hnil => hline (encode_eq_nil.mp hnil)
    rw [if_pos hshort, hserve, Frames, answer_start,
      if_pos (Nat.le_trans (content_length_le line) hshort), p.answer_content hisLine]
    rw [and_iff_right ⟨Nat.le_refl start, by omega⟩, and_iff_right rfl]
    exact ih rest.length hlength _ rest r' hr' _ rfl
  · have hlong : maxLine < (encode line).length := Nat.lt_of_not_le hshort
    rw [if_neg hshort]
    rcases p.serve_cut hisLine hlong hr start s with ⟨hnone, hanswers⟩ |
      ⟨text, hfirst, ⟨hsecond, hanswers, hstate⟩ | ⟨hsecond, a, more, hanswers, hstart⟩⟩
    · rw [hanswers]
      refine iff_of_false id fun ⟨_, ⟨text, _, hsome, _⟩, _⟩ => ?_
      rw [hnone] at hsome
      cases hsome
    · rw [hanswers, hstate, Frames, answer_start]
      rw [and_iff_right ⟨Nat.le_refl start, by omega⟩,
        if_neg (Nat.not_le.mpr (content_long hisLine hlong hsecond)), frames_nil]
      constructor
      · rintro ⟨hnone, hlast, _⟩
        exact ⟨hlast, ⟨text, (p.answer_none hnone).2.imp fun e he => ⟨hfirst, he⟩⟩, hsecond⟩
      · rintro ⟨hlast, ⟨text', e, hfirst', he⟩, _⟩
        cases hfirst.symm.trans hfirst'
        obtain ⟨hnone, hkept⟩ := p.answer_error start s he
        exact ⟨hnone, hlast, hkept⟩
    · rw [hanswers, Frames]
      refine iff_of_false (fun ⟨_, hframes⟩ => ?_) fun ⟨_, _, hnone⟩ => ?_
      · -- The second answer begins in the first line, which has an answer already.
        have hlater : ∀ s', ¬p.Frames (start + (encode line).length) s' (lines rest) (a :: more)
            (p.serve start r s).state := by
          intro s' hlater
          cases hrest : lines rest with
          | nil => rw [hrest] at hlater; exact hlater
          | cons next lines =>
            rw [hrest, Frames, hstart] at hlater
            omega
        split at hframes
        · exact hlater _ hframes.2
        · exact hlater _ hframes.2
      · rw [hnone] at hsecond
        cases hsecond

/-- However a client's text is split into reads, its lines are answered one by one exactly when they
fit. -/
theorem serve_frames_iff (cs : List Char) (r : Reader UInt8) (hr : r.rest = encode cs) (s : σ) :
    p.Frames 0 s (lines cs) (p.serve 0 r s).answers (p.serve 0 r s).state ↔ p.Fits (lines cs) :=
  p.frames_iff 0 cs r hr s

end Protocol

namespace Sample

/-- A request to disconnect, as a client writes it. -/
def disconnectText : String := "\x7b\"request\":\"disconnect\"\x7d"

/-- A daemon that can be asked to disconnect. A response is whether it went well and a message. -/
def protocol : Protocol (World (.linux log)) Op (Bool × String) where
  fromStr text :=
    if text = disconnectText then .ok .disconnect
    else .error "EOF while parsing a value at line 1 column 0"
  handle op w := ((if (disconnect w).1.isOk then (true, "disconnected") else (false, "not connected")),
    step w op)
  error message := (false, message)
  toString response := .ok ("\x7b\"response\":\"" ++ (if response.1 then "ok" else "error") ++
    "\",\"data\":\x7b\"message\":\"" ++ response.2 ++ "\"\x7d\x7d")

/-- A source that delivers a text in one read. -/
def oneRead (cs : List Char) : Reader UInt8 where
  buffered := encode cs
  reads := []
  delivers _ h := nomatch h

theorem oneRead_rest (cs : List Char) : (oneRead cs).rest = encode cs := List.append_nil _

/-- As many blanks as a line may have bytes, and a request behind them. -/
@[irreducible] def hidden : List Char :=
  (List.replicate maxLine ' ' ++ disconnectText.toList) ++ ['\n']

end Sample

theorem disconnect_frames : Sample.protocol.Frames 0 Sample.idle
    (lines (Sample.disconnectText.toList ++ ['\n']))
    (Sample.protocol.serve 0 (Sample.oneRead (Sample.disconnectText.toList ++ ['\n']))
      Sample.idle).answers
    (Sample.protocol.serve 0 (Sample.oneRead (Sample.disconnectText.toList ++ ['\n']))
      Sample.idle).state :=
  (Sample.protocol.serve_frames_iff _ _ (Sample.oneRead_rest _) _).mpr (by
    rw [lines_newline (by decide), Protocol.Fits, if_pos (by decide)]
    trivial)

theorem Sample.hidden_unfit : ¬Sample.protocol.Fits (lines Sample.hidden) := by
  have hblanks : encode (List.replicate maxLine ' ') = List.replicate maxLine 32 :=
    encode_replicate (by decide) _
  have hbody : '\n' ∉ List.replicate maxLine ' ' ++ Sample.disconnectText.toList := by
    rw [List.mem_append, not_or]
    exact ⟨fun h => absurd (List.eq_of_mem_replicate h) (by decide), by decide⟩
  have hbytes : encode (List.replicate maxLine ' ' ++ Sample.disconnectText.toList ++ ['\n']) =
      List.replicate maxLine 32 ++ encode (Sample.disconnectText.toList ++ ['\n']) := by
    rw [encode_append, encode_append, hblanks, List.append_assoc, encode_append]
  rw [Sample.hidden, lines_newline hbody, Protocol.Fits, hbytes, if_neg, Protocol.EndsAt, hbytes]
  · rintro ⟨_, _, hnone⟩
    rw [List.drop_left' List.length_replicate, List.take_of_length_le (by decide),
      decode_encode] at hnone
    cases hnone
  · rw [List.length_append, List.length_replicate]
    exact Nat.not_le.mpr (Nat.lt_add_of_pos_right (by decide))

/-- A request behind too many blanks is cut off from them and carried out. -/
theorem hidden_unframed :
    ¬∀ (cs : List Char) (r : Reader UInt8) (s : World (.linux Sample.log)), r.rest = encode cs →
      Sample.protocol.Frames 0 s (lines cs) (Sample.protocol.serve 0 r s).answers
        (Sample.protocol.serve 0 r s).state := by
  intro hframes
  exact Sample.hidden_unfit ((Sample.protocol.frames_iff 0 _ _ (Sample.oneRead_rest Sample.hidden)
    Sample.idle).mp (hframes _ _ _ (Sample.oneRead_rest _)))

end Vpnmgr
