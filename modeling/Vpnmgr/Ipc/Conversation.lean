import Vpnmgr.Ipc.Handle
import Vpnmgr.Library.Cut
import Vpnmgr.Library.Exchange

/-! Clients and the daemon in conversation: what a client writes and reads, and that however many
clients, passes and broken connections there are, the daemon works as if it did one thing at a time
and every client hears what was done for it. -/

namespace Vpnmgr

open Exchange Fields Json Stateful Text Utf8

variable {P : Platform} {α : Type}

/-! ### A client -/

/-- Why a client has no response. -/
inductive ClientError where
  | closed
  | io (reason : String)
  | json (refusal : Refusal)

/-- The bytes of a message and its line feed. -/
def lineBytes (text : String) : List UInt8 := encode (text ++ "\n").toList

/-- What a client takes the bytes for that it has read up to a line feed or the end. -/
def Client.read (floats : Floats) (bytes : List UInt8) : Except ClientError Response :=
  if bytes = [] then .error .closed
  else
    match decode bytes with
    | none => .error (.io "stream did not contain valid UTF-8")
    | some text =>
      (readLine floats Response.ofValue (String.ofList text)).mapError .json

/-- What the loop that serves a client takes the bytes for that it has read. -/
def Protocol.hear {σ Request Response : Type} (p : Protocol σ Request Response)
    (bytes : List UInt8) : Heard UInt8 Request :=
  match decode bytes with
  | none => .unreadable
  | some text =>
    match p.fromStr (String.ofList (trimEndChars text)) with
    | .ok request => .request request
    | .error e => .refused (encode (p.line (p.error ("malformed request: " ++ e))).toList)

/-- The daemon and its clients. A request has to be within the limit with its line feed. -/
def conversation (floats : Floats) (about : About P) :
    Service UInt8 (World P) Request Response (Except ClientError Response) Work where
  delimiter := newline
  limit := maxLine
  fits r := (lineBytes (r.toText floats)).length ≤ maxLine
  ask r := lineBytes (r.toText floats)
  hear := (protocol floats about).hear
  handle := handle about
  line r := encode ((protocol floats about).line r).toList
  read := Client.read floats
  background b w := work about w b

/-! ### A line and its parts -/

theorem lineBytes_body {text : String} (h : '\n' ∉ text.toList) :
    ∃ body, newline ∉ body ∧ lineBytes text = body ++ [newline] := by
  refine ⟨encode text.toList, newline_not_mem_encode h, ?_⟩
  rw [lineBytes, String.toList_append, encode_append]
  exact congrArg _ encode_newline

theorem trimEndChars_part (cs : List Char) : trimEndChars cs <+: cs := by
  rw [trimEndChars, ← List.reverse_suffix, List.reverse_reverse]
  exact List.dropWhile_suffix _

/-- Of an object's line, every part that is read as a message is read as that of the whole, and lacks
no more than the line feed. -/
theorem readLine_part {floats : Floats} (hempty : floats.value [] = none) {r : Record Value}
    (hfits : Fits maxDepth (.object r)) {ofValue : Value → Decoded String α} {part : List UInt8}
    (hpart : part <+: lineBytes (Json.toText floats (.object r))) {text : List Char}
    (htext : decode part = some text) {a : α}
    (h : readLine floats ofValue (String.ofList text) = .ok a) : ofValue (.object r) = .ok a ∧
      encode (write floats (.object r)) <+: part := by
  have hline : text <+: write floats (.object r) ++ ['\n'] := by
    have := decode_part hpart htext
    rwa [String.toList_append, Json.toText, String.toList_ofList] at this
  have htrim : trimEndChars text <+: write floats (.object r) := by
    rcases List.prefix_concat_iff.mp ((trimEndChars_part text).trans hline) with hwhole | hpart
    · have hlast := congrArg trimEndChars hwhole
      rw [trimEndChars_idem, trimEndChars_append (by decide), hwhole] at hlast
      have hlength := (trimEndChars_part (write floats (.object r))).length_le
      rw [← hlast, List.length_append, List.length_singleton] at hlength
      omega
    · exact hpart
  unfold readLine ofText at h
  rw [String.toList_ofList, String.toList_ofList] at h
  cases hread : read floats (trimEndChars text) with
  | none =>
    rw [hread] at h
    cases h
  | some v =>
    have hwhole := read_part hempty hfits htrim hread
    rw [hwhole, read_write floats hfits] at hread h
    cases hread
    refine ⟨mapError_ok.mp h, ?_⟩
    obtain ⟨space, hspace⟩ := trimEndChars_part text
    rw [← encode_of_decode htext, ← hspace, hwhole, encode_append]
    exact List.prefix_append _ _

theorem fromStr_trim {floats : Floats} {about : About P} {text : List Char} {r : Request} :
    (protocol floats about).fromStr (String.ofList (trimEndChars text)) = .ok r ↔
      readLine floats Request.ofValue (String.ofList text) = .ok r := by
  dsimp only [protocol]
  rw [mapError_ok, readLine, readLine, String.toList_ofList, String.toList_ofList,
    trimEndChars_idem]

theorem hear_request {floats : Floats} {about : About P} {bytes : List UInt8} {r : Request} :
    (protocol floats about).hear bytes = .request r ↔ ∃ text, decode bytes = some text ∧
      readLine floats Request.ofValue (String.ofList text) = .ok r := by
  unfold Protocol.hear
  cases decode bytes with
  | none => exact iff_of_false nofun (by rintro ⟨_, h, _⟩; cases h)
  | some text =>
    dsimp only
    cases hread : (protocol floats about).fromStr (String.ofList (trimEndChars text)) with
    | error e =>
      refine iff_of_false nofun ?_
      rintro ⟨_, ⟨⟩, h⟩
      rw [fromStr_trim.mpr h] at hread
      cases hread
    | ok request =>
      constructor
      · rintro ⟨⟩
        exact ⟨text, rfl, fromStr_trim.mp hread⟩
      · rintro ⟨_, ⟨⟩, h⟩
        rw [fromStr_trim.mpr h] at hread
        cases hread
        rfl

theorem conversation_line (floats : Floats) (about : About P) (r : Response) :
    (conversation floats about).line r = lineBytes (r.toText floats) := by
  have hline : (protocol floats about).line r = r.toText floats ++ "\n" := rfl
  rw [lineBytes, ← hline, conversation]

theorem conversation_read (floats : Floats) (about : About P) :
    (conversation floats about).read = Client.read floats := rfl

/-- The messages are lines, and the parts of a request's line that are requests are that request. -/
theorem conversation_lawful {floats : Floats} (hempty : floats.value [] = none) (about : About P) :
    (conversation floats about).Lawful where
  asks r _ := by
    dsimp only [conversation]
    exact lineBytes_body (r.crosses floats).line
  within r h := by
    dsimp only [conversation] at h ⊢
    exact h
  hears r _ := by
    dsimp only [conversation]
    refine hear_request.mpr ⟨_, decode_encode _, ?_⟩
    rw [String.ofList_toList]
    exact (r.crosses floats).read
  cuts r r' part _ hpart h := by
    dsimp only [conversation] at hpart h
    obtain ⟨text, htext, hread⟩ := hear_request.mp h
    have hwhole := (readLine_part hempty r.fits hpart htext hread).1
    rw [← Request.toValue, r.ofValue_toValue] at hwhole
    exact (Except.ok.inj hwhole).symm
  lines r := by
    rw [conversation_line]
    dsimp only [conversation]
    exact lineBytes_body (newline_not_mem_toText floats r.fits)

/-- A response that crosses is read from its line, and from a part of the line only if from that. -/
theorem Client.read_line {floats : Floats} {r : Response} (h : r.Finite) :
    Client.read floats (lineBytes (r.toText floats)) = .ok r := by
  have hne : lineBytes (r.toText floats) ≠ [] := by
    obtain ⟨body, _, hline⟩ := lineBytes_body (newline_not_mem_toText floats r.fits)
    rw [Response.toText, hline]
    exact List.append_ne_nil_of_right_ne_nil _ (List.cons_ne_nil _ _)
  rw [Client.read, if_neg hne, lineBytes, decode_encode]
  dsimp only
  rw [String.ofList_toList, ((Response.crosses_iff floats).mpr h).read]
  rfl

theorem Client.read_part {floats : Floats} (hempty : floats.value [] = none) {r r' : Response}
    (h : r.Finite) {part : List UInt8} (hpart : part <+: lineBytes (r.toText floats))
    (hread : Client.read floats part = .ok r') : r' = r := by
  unfold Client.read at hread
  split at hread
  · cases hread
  split at hread
  · cases hread
  · next text htext =>
    have hwhole := (readLine_part hempty r.fits hpart htext (mapError_ok.mp hread)).1
    rw [← Response.toValue, Response.ofValue_toValue.mpr h] at hwhole
    exact (Except.ok.inj hwhole).symm

theorem cut_line {part : List UInt8} {text : List Char} (hpart : part <+: lineBytes (String.ofList text))
    (h : encode text <+: part) : part = encode text ∨ part = lineBytes (String.ofList text) := by
  have hline : lineBytes (String.ofList text) = encode text ++ [newline] := by
    rw [lineBytes, String.toList_append, String.toList_ofList, encode_append]
    exact congrArg _ encode_newline
  rw [hline] at hpart ⊢
  rcases List.prefix_concat_iff.mp hpart with hwhole | hpart
  · exact .inr hwhole
  · exact .inl (hpart.eq_of_length_le h.length_le)

/-- A task that reads and answers does what the loop does that serves a client: it carries out the
same requests and writes the same, and the loop goes on with what the task has left to read. -/
theorem Protocol.serve_hears {σ Request Response : Type} (p : Protocol σ Request Response)
    (start : Nat) (s : σ) {r : BufRead.Reader UInt8} {piece : List UInt8}
    (hread : (BufRead.through newline r.rest).take maxLine = piece) (hne : piece ≠ []) :
    match p.hear piece with
    | .unreadable => p.serve start r s = ⟨[], s, .error "stream did not contain valid UTF-8"⟩
    | .request q => ∃ r', r'.rest = r.rest.drop piece.length ∧ p.serve start r s =
        { p.serve (start + piece.length) r' (p.handle q s).2 with
          answers := ⟨start, some q, p.line (p.handle q s).1⟩ ::
            (p.serve (start + piece.length) r' (p.handle q s).2).answers }
    | .refused reply => ∃ r' written, r'.rest = r.rest.drop piece.length ∧
        encode written.toList = reply ∧ p.serve start r s =
          { p.serve (start + piece.length) r' s with
          answers := ⟨start, none, written⟩ ::
            (p.serve (start + piece.length) r' s).answers } := by
  unfold hear
  cases hdecode : decode piece with
  | none => exact p.serve_stops hread hne hdecode
  | some text =>
    obtain ⟨r', hr', hserve⟩ := p.serve_answers start s hread hne hdecode
    unfold answer at hserve
    dsimp only
    cases htext : p.fromStr (String.ofList (trimEndChars text)) with
    | error e =>
      rw [htext] at hserve
      exact ⟨r', _, hr', rfl, hserve⟩
    | ok q =>
      rw [htext] at hserve
      exact ⟨r', hr', hserve⟩

/-! ### Conversations -/

/-- Of finite numbers, what is carried out makes responses with no others. -/
theorem runs_finite {floats : Floats} {about : About P} {ι : Type}
    {log : List (Exchange.Entry ι Request Response Work)} {w w' : World P}
    (h : (conversation floats about).Runs w log w') (hw : w.Finite) :
    ∀ i r a, Exchange.Entry.answered i r a ∈ log → a.Finite := by
  induction log generalizing w with
  | nil => exact fun _ _ _ hmem => nomatch hmem
  | cons e log ih =>
    intro i r a hmem
    cases e with
    | answered j r' a' =>
      obtain ⟨hanswer, hrest⟩ := h
      obtain ⟨hfinite, hleft⟩ := handle_finite about r' hw
      rcases List.mem_cons.mp hmem with heq | hmem
      · cases heq
        exact hanswer ▸ hfinite
      · exact ih hrest hleft i r a hmem
    | other b =>
      exact ih h (work_finite about hw b) i r a ((List.mem_cons.mp hmem).resolve_left nofun)

theorem mem_done {ι : Type} [DecidableEq ι] {i : ι}
    {log : List (Exchange.Entry ι Request Response Work)} {x : Request × Response} (h : x ∈ done i log) :
    Exchange.Entry.answered i x.1 x.2 ∈ log := by
  obtain ⟨e, he, hof⟩ := List.mem_filterMap.mp h
  cases e with
  | other b => cases hof
  | answered j r a =>
    obtain ⟨rfl, hx⟩ := Option.ite_none_right_eq_some.mp hof
    cases hx
    exact he

/-- What became of everything that a client asked, of which these requests were carried out with
these responses: it was told the responses in order, but for a last one that is on its way or broke
off, or a last request that was not carried out. -/
def Heeded (c : Channel UInt8 Request (Except ClientError Response))
    (carriedOut : List (Request × Response)) : Prop :=
  ∃ lost owed told broken,
    c.asked = carriedOut.map Prod.fst ++ lost ∧
    carriedOut.map Prod.snd = told ++ owed ∧
    c.replies = told.map Except.ok ++ broken ∧
    lost.length + owed.length ≤ 1 ∧ broken.length ≤ lost.length + owed.length ∧
    (∀ reply ∈ broken, ∀ a, reply = Except.ok a → owed = [a]) ∧
    (c.gone = false → (c.waiting = false ↔ lost = [] ∧ owed = []))

theorem heeded_account {floats : Floats} (hempty : floats.value [] = none) {about : About P}
    {c : Channel UInt8 Request (Except ClientError Response)} {pairs : List (Request × Response)}
    {lost : List Request} {owed told : List Response} {broken : List (Except ClientError Response)}
    (h : (conversation floats about).Account c pairs lost owed told broken)
    (hfinite : ∀ x ∈ pairs, x.2.Finite) : Heeded c pairs := by
  have hresponses : ∀ a ∈ told ++ owed, a.Finite := by
    rw [← h.answered]
    intro a ha
    obtain ⟨x, hx, rfl⟩ := List.mem_map.mp ha
    exact hfinite x hx
  refine ⟨lost, owed, told, broken, h.asked, h.answered, ?_, h.one, h.few, ?_, h.waits⟩
  · rw [h.replies]
    refine congrArg (· ++ broken) (List.map_congr_left fun a ha => ?_)
    rw [conversation_read, conversation_line]
    exact Client.read_line (hresponses a (List.mem_append_left _ ha))
  · intro reply hreply a ha
    obtain ⟨part, hpart, _, hread⟩ := h.breaks reply hreply
    rw [conversation_read, ha] at hread
    cases howed : owed with
    | nil =>
      rw [howed] at hpart
      rw [List.prefix_nil.mp hpart] at hread
      cases hread
    | cons a' rest =>
      have hone := h.one
      rw [howed, List.length_cons] at hone
      obtain rfl : rest = [] := List.length_eq_zero_iff.mp (by omega)
      rw [howed, List.flatMap_singleton, conversation_line] at hpart
      have hsame := Client.read_part hempty (hresponses a' (by simp [howed])) hpart hread.symm
      rw [hsame]

namespace Sample

theorem speeding_starts : Starts (speeding config) := world_starts config_valid rfl _ _

theorem speeding_finite : (speeding config).outside.Finite := by
  intro n c hload
  have hsame : Config.load (disk config) = .ok config := by
    simp [Config.load, disk, config_valid]
  cases hsame.symm.trans hload
  exact config_finite

/-- One client, which has asked for the version. -/
def enquiring : System Unit UInt8 (World (.linux log)) Request Response
    (Except ClientError Response) Work :=
  (conversation floats about).step (Service.start (speeding config)) (.on () (.ask .version))

theorem enquiring_reached : Reaches (conversation floats about).step
    (conversation floats about).allowed (Service.start (speeding config)) enquiring :=
  .next .here ⟨rfl, rfl, by
    dsimp only [conversation]
    decide +kernel⟩

end Sample

end Vpnmgr
