import Vpnmgr.Daemon.Finite
import Vpnmgr.Daemon.Pairing
import Vpnmgr.Ipc.Serve
import Vpnmgr.Probe.Throughput

/-! What the daemon answers to each request, and that its answers are read back as they were written
where the numbers of its settings are finite. -/

namespace Vpnmgr

open Fields Ieee Json Stateful Stateful.Action Text

variable {P : Platform} {α : Type}

/-! ### The answers -/

/-- The text of an error, given how a string is quoted. -/
def TunnelError.describe (quote : String → String) : TunnelError → String
  | wireguard operation interface source =>
    operation ++ " on interface " ++ interface ++ " failed: " ++ source
  | permissionDenied operation interface =>
    operation ++ " on interface " ++ interface ++ " needs root (CAP_NET_ADMIN); " ++
      "run vpnmgrd as a system service rather than as your user"
  | notUp => "the tunnel is not up"
  | badInterfaceName name reason =>
    "interface name " ++ quote name ++ " is not usable: " ++ reason
  | killswitch operation source => operation ++ " the kill switch failed: " ++ source

def LoadError.describe (display : F64 → String) : LoadError → String
  | read reason => reason
  | config error => "invalid configuration: " ++ error.message display

def Error.describe (quote : String → String) (display : F64 → String) : Error → String
  | load error => error.describe display
  | fetch reason => reason
  | tunnel error => error.describe quote
  | notConnected => "not connected"
  | alreadyConnected server =>
    "already connected to " ++ server ++ "; disconnect first or use switch"
  | unknownServer name =>
    "no server named " ++ quote name ++ "; try \x60vpnmgr servers\x60 to see the list"
  | serverUnreachable server =>
    server ++ " did not answer a handshake on any of its entry addresses; it may be down even " ++
      "though the API reports it healthy"
  | allUnreachable probed =>
    s!"every one of the {probed} probed servers was unreachable. " ++
      "That means either this machine has no working internet connection, " ++
      "or the credentials in the config are no longer accepted by AirVPN " ++
      "(a wrong peer key produces silence, not an error). " ++
      "Check connectivity first, then re-import the config."
  | noCandidates summary => "no servers match the configured filters: " ++ summary
  | noPendingSwitch => "nothing is waiting for approval"
  | throughput reason => "measuring throughput: " ++ reason
  | consentRequired =>
    "this drops the tunnel, exposing your real IP address and releasing the kill switch, so it " ++
      "needs explicit confirmation: pass --yes"

/-- What the backend says of the tunnel. -/
structure TunnelStatus where
  endpoint : Option SocketAddr
  lastHandshake : Option SystemTime
  txBytes : Nat
  rxBytes : Nat

/-- Whether a handshake has happened recently. A clock skew into the future is not a fault. -/
def TunnelStatus.isHealthy (s : TunnelStatus) (now : SystemTime) (maxHandshakeAge : Duration) :
    Bool :=
  match s.lastHandshake with
  | none => false
  | some at_ => if at_ ≤ now then decide (now - at_ ≤ maxHandshakeAge) else true

/-- A handshake older than this means the tunnel is not carrying traffic. -/
def maxHandshakeAge : Duration := .ofSecs 360

/-- What the answers are made from beside the world: where the settings are, what the backend says
of the tunnel if it can, the time of day, and the texts that the libraries give. -/
structure About (P : Platform) where
  configPath : String
  live : World P → Option TunnelStatus
  wallClock : World P → SystemTime
  quote : String → String
  display : F64 → String
  refused : Refusal → String

/-- The last sweep, as old as it is now. -/
def agedSweep : Option (SweepSummary × Instant) → Daemon P (Option SweepSummary)
  | none => pure none
  | some (summary, at_) => do
    return some { summary with ageSecs := Duration.asSecs (← elapsed at_) }

def baselineAge : Option (F64 × Instant) → Daemon P (Option Nat)
  | none => pure none
  | some (_, at_) => do return some (Duration.asSecs (← elapsed at_))

def status (about : About P) : Daemon P StatusReport := do
  let s ← self
  let lastSweep ← agedSweep s.lastSweep
  let live ← read fun w => if s.tunnel.isSome then about.live w else none
  let wallClock ← read about.wallClock
  let pending ← pendingSwitch
  let next := s.timeUntilNextTune (← now)
  let baselineAgeSecs ← baselineAge s.directMbps
  let idle : StatusReport := {
    connected := false
    interface := defaultInterface
    server := none
    location := none
    countryCode := none
    endpoint := none
    entry := none
    lastHandshakeSecs := none
    healthy := false
    txBytes := 0
    rxBytes := 0
    lastSweep
    pendingSwitch := pending
    lastTune := s.lastTune
    nextTuneSecs := some next.asSecs
    configPath := some about.configPath
    baselineMbps := s.directMbps.map Prod.fst
    baselineAgeSecs }
  return match s.current with
    | none => idle
    | some current => { idle with
      connected := true
      server := some current.server
      location := some current.location
      countryCode := some current.countryCode
      -- what the kernel reports is preferred to what the daemon believes
      endpoint := (live.bind TunnelStatus.endpoint).or (some current.endpoint)
      entry := some current.entry
      lastHandshakeSecs := (live.bind TunnelStatus.lastHandshake).bind fun at_ =>
        if at_ ≤ wallClock then some (Duration.asSecs (wallClock - at_)) else none
      healthy := live.any fun t => t.isHealthy wallClock maxHandshakeAge
      txBytes := (live.map TunnelStatus.txBytes).getD 0
      rxBytes := (live.map TunnelStatus.rxBytes).getD 0 }

def lastRanking (limit : Option Nat) : Daemon P (List RankedServer) := do
  return (← self).lastRankingAt (← now) limit

/-- Carry out an operation, and answer with what it returned or with the text of its error. -/
def reply (about : About P) (x : Daemon P α) (f : α → Response) (w : World P) :
    Response × World P :=
  match x w with
  | (.ok a, w') => (f a, w')
  | (.error e, w') => (.error (e.describe about.quote about.display), w')

def connectedText (chosen : RankedServer) : String :=
  "connected to " ++ chosen.name ++ " (" ++ chosen.location ++ ", " ++ chosen.countryName ++
    s!") via entry {chosen.entry} at " ++ F64.fixed 1 chosen.rttMs ++ "ms" ++
    (match chosen.mbps with
      | some mbps => ", measured " ++ F64.fixed 0 mbps ++ " Mbps"
      | none => "")

def switchedText (chosen : RankedServer) : String :=
  "switched to " ++ chosen.name ++ " (" ++ chosen.location ++ s!") via entry {chosen.entry} at " ++
    F64.fixed 1 chosen.rttMs ++ "ms"

def handle (about : About P) : Request → World P → Response × World P
  | .version => fun w => (.version "0.1.2", w)
  | .status => reply about (status about) .status
  | .connect server measure =>
    reply about (connect server measure) fun chosen => .ok (connectedText chosen)
  | .disconnect => reply about disconnect fun _ => .ok "disconnected"
  | .switch server => reply about (switch server) fun chosen => .ok (switchedText chosen)
  | .test country => reply about (sweep country) .ranking
  | .lastRanking limit => reply about (lastRanking (limit.map UInt64.toNat)) .ranking
  | .servers country limit all =>
    reply about (servers country (limit.map UInt64.toNat) all) .servers
  | .reload => reply about reload fun _ => .ok "configuration reloaded"
  | .autotune => reply about autotune .tuned
  | .approve => reply about approve fun chosen => .ok (switchedText chosen)
  | .speedtest => reply about speedtest .speed
  | .baseline confirm =>
    if confirm then reply about baseline .speed
    else fun w => (.error (Error.consentRequired.describe about.quote about.display), w)
  | .killswitch enable => reply about (killswitch enable) .killswitch
  | .dismiss =>
    reply about dismiss fun name => .ok ("dismissed the proposal to move to " ++ name)

/-- The operation that a request asks for, where it does more than report. -/
def Request.op : Request → Option Op
  | .connect server measure => some (.connect server measure)
  | .disconnect => some .disconnect
  | .switch server => some (.switch server)
  | .test country => some (.test country)
  | .servers country limit all => some (.servers country (limit.map UInt64.toNat) all)
  | .reload => some .reload
  | .autotune => some .autotune
  | .approve => some .approve
  | .dismiss => some .dismiss
  | .speedtest => some .speedtest
  | .baseline confirm => some (.baseline confirm)
  | .killswitch enable => some (.killswitch enable)
  | .status | .lastRanking _ | .version => none

theorem reply_world (about : About P) (x : Daemon P α) (f : α → Response) (w : World P) :
    (reply about x f w).2 = after x w := by
  unfold reply after
  split <;> next h => rw [h]

/-- A request leaves the world that its operation does. -/
theorem handle_step (about : About P) {r : Request} {op : Op} (h : r.op = some op) (w : World P) :
    (handle about r w).2 = step w op := by
  cases r with
  | baseline confirm =>
    cases h
    cases confirm with
    | false => rfl
    | true => exact reply_world _ _ _ _
  | status => cases h
  | lastRanking limit => cases h
  | version => cases h
  | _ => cases h; exact reply_world _ _ _ _

/-! ### The daemon at work -/

/-- What the daemon does next: a request, a scheduled pass, or one that is abandoned at one of the
places where it waits. -/
inductive Work where
  | request (request : Request)
  | scheduled
  | abandoned (at_ : Nat)

def work (about : About P) (w : World P) : Work → World P
  | .request r => (handle about r w).2
  | .scheduled => after scheduledPass w
  | .abandoned at_ => ((Pass.scheduled : Pass.Part P (Option TuneReport)).waits w)[at_]?.getD w

/-- Every download to come is a measurement of throughput, over some exchange with a server. -/
structure Outside.Downloads (o : Outside P) : Prop where
  download : ∀ n, ∃ exchange describe, o.download n = Transfer.download exchange describe
  trial : ∀ n, ∃ exchange describe, (o.trial n).download = Transfer.download exchange describe

theorem Outside.Downloads.measured {o : Outside P} (h : o.Downloads) : o.Measured where
  download n := by
    obtain ⟨exchange, describe, hdownload⟩ := h.download n
    rw [hdownload]
    exact Transfer.download_measured exchange describe
  trial n := by
    obtain ⟨exchange, describe, htrial⟩ := h.trial n
    rw [htrial]
    exact Transfer.download_measured exchange describe

theorem status_finite (about : About P) :
    Yields World.Finite StatusReport.Finite (status about) := by
  refine Yields.bind self_finite fun s hs => ?_
  have hsweep : Yields World.Finite (fun summary => ∀ x, summary = some x → x.Finite)
      (agedSweep s.lastSweep : Daemon P (Option SweepSummary)) := by
    cases hlast : s.lastSweep with
    | none => exact Yields.pure fun _ h => (by cases h)
    | some last =>
      refine Yields.bind (elapsed_finite _) fun age _ => Yields.pure fun x hx r hr => ?_
      cases hx
      exact hs.sweep last hlast r hr
  have hage : StaysFinite (baselineAge s.directMbps : Daemon P (Option Nat)) := by
    cases s.directMbps with
    | none => exact Yields.pure trivial
    | some direct => exact Yields.bind (elapsed_finite _) fun _ _ => Yields.pure trivial
  have hbaseline : ∀ x, s.directMbps.map Prod.fst = some x → x.isFinite = true := by
    intro x hx
    obtain ⟨m, hm, rfl⟩ := Option.map_eq_some_iff.mp hx
    exact hs.direct m hm
  refine Yields.bind hsweep fun lastSweep hlastSweep => ?_
  refine Yields.bind (Q := fun _ => True) (Yields.read fun _ _ => trivial) fun live _ => ?_
  refine Yields.bind (Q := fun _ => True) (Yields.read fun _ _ => trivial) fun wallClock _ => ?_
  refine Yields.bind pendingSwitch_finite fun pending hpending => ?_
  refine Yields.bind now_finite fun t _ => Yields.bind hage fun age _ => Yields.pure ?_
  cases s.current with
  | none => exact ⟨hlastSweep, hpending, hbaseline⟩
  | some current => exact ⟨hlastSweep, hpending, hbaseline⟩

theorem lastRanking_finite (limit : Option Nat) :
    Yields World.Finite (fun ranking => ∀ r ∈ ranking, r.Finite)
      (lastRanking limit : Daemon P (List RankedServer)) :=
  Yields.bind self_finite fun _ hs => Yields.bind now_finite fun t _ =>
    Yields.pure (hs.lastRankingAt t limit)

theorem reply_finite {about : About P} {x : Daemon P α} {f : α → Response} {w : World P}
    (hx : Yields World.Finite (fun a => (f a).Finite) x) (hw : w.Finite) :
    (reply about x f w).1.Finite ∧ (reply about x f w).2.Finite := by
  obtain ⟨hleft, hreturned⟩ := hx w hw
  unfold reply
  rcases hrun : x w with ⟨e | a, w'⟩
  · rw [hrun] at hleft
    exact ⟨trivial, hleft⟩
  · rw [hrun] at hleft hreturned
    exact ⟨hreturned a rfl, hleft⟩

/-- Of finite numbers the daemon answers with no others, and keeps no others. -/
theorem handle_finite (about : About P) (r : Request) {w : World P} (hw : w.Finite) :
    (handle about r w).1.Finite ∧ (handle about r w).2.Finite := by
  cases r with
  | version => exact ⟨trivial, hw⟩
  | status => exact reply_finite (status_finite about) hw
  | connect server measure =>
    exact reply_finite (connect_finite server measure) hw
  | disconnect => exact reply_finite disconnect_finite hw
  | switch server => exact reply_finite (switch_finite server) hw
  | test country => exact reply_finite (sweep_finite country) hw
  | lastRanking limit => exact reply_finite (lastRanking_finite _) hw
  | servers country limit all =>
    exact reply_finite (servers_finite country _ all) hw
  | reload => exact reply_finite reload_finite hw
  | autotune => exact reply_finite autotune_finite hw
  | approve => exact reply_finite approve_finite hw
  | dismiss => exact reply_finite dismiss_finite hw
  | speedtest => exact reply_finite speedtest_finite hw
  | baseline confirm =>
    cases confirm with
    | false => exact ⟨trivial, hw⟩
    | true => exact reply_finite baseline_finite hw
  | killswitch enable =>
    exact reply_finite (killswitch_finite enable) hw

/-- Wherever a pass is abandoned, the numbers are finite. -/
theorem scheduled_finite : Async.WaitsIn (fun w w' : World P => w.Finite → w'.Finite)
    (Pass.scheduled : Pass.Part P (Option TuneReport)) := by
  refine Pass.scheduled_waits now_finite.keeps serverList_finite.keeps nextNetwork_finite.keeps
    (sweep_finite none).keeps fun lastTuneAt => (modify_finite fun s hs => ?_).keeps
  exact hs.congr rfl rfl rfl rfl rfl (.inl rfl)

theorem work_finite (about : About P) {w : World P} (hw : w.Finite) (x : Work) :
    (work about w x).Finite := by
  cases x with
  | request r => exact (handle_finite about r hw).2
  | scheduled => exact (scheduledPass_finite w hw).1
  | abandoned at_ =>
    rw [work]
    cases hwait : (Pass.scheduled.waits w)[at_]? with
    | none => exact hw
    | some w' => exact scheduled_finite w w' (List.mem_of_getElem? hwait) hw

/-! ### Over the socket -/

/-- The loop that serves a client, over the documents of the messages. -/
def protocol (floats : Floats) (about : About P) : Protocol (World P) Request Response where
  fromStr line := (readLine floats Request.ofValue line).mapError about.refused
  handle := handle about
  error := .error
  toString r := .ok (r.toText floats)

/-- What is written where a response cannot be encoded. -/
def fallback (e : String) : String :=
  "\x7b\"response\":\"error\",\"message\":\"" ++ e ++ "\"\x7d"

theorem line_error {σ Request Response : Type} {p : Protocol σ Request Response}
    {response : Response} {e : String} (h : p.toString response = .error e) :
    p.line response = fallback e ++ "\n" := by
  rw [Protocol.line, h]
  rfl

/-- A line that a client writes is carried out as the request that it was written for, and answered
with the line of the response. -/
theorem protocol_answer (floats : Floats) (about : About P) (start : Nat) (r : Request)
    (w : World P) :
    (protocol floats about).answer start (r.toText floats ++ "\n").toList w =
      (⟨start, some r, (handle about r w).1.toText floats ++ "\n"⟩, (handle about r w).2) := by
  have hline := (r.crosses floats).read
  have hread : (protocol floats about).fromStr
      (String.ofList (trimEndChars (r.toText floats ++ "\n").toList)) = .ok r := by
    unfold readLine at hline
    dsimp only [protocol]
    rw [readLine, String.toList_ofList, trimEndChars_idem]
    exact mapError_ok.mpr hline
  rw [Protocol.answer, hread]
  rfl

/-- A text that stands in a string as it is. -/
def Plain (e : String) : Prop := ∀ c ∈ e.toList, escape c = [c]

theorem write_pair (floats : Floats) (a b c d : String) :
    write floats (.object [(a, .string b), (c, .string d)]) =
      '{' :: (writeString a ++ ':' :: writeString b ++
        ',' :: (writeString c ++ ':' :: writeString d)) ++ ['}'] := by
  simp [write, members, List.intercalate]

/-- Put in place of a response, a plain text makes an object without the data of one. -/
theorem fallback_eq (floats : Floats) {e : String} (h : Plain e) :
    fallback e =
      Json.toText floats (.object [("response", .string "error"), ("message", .string e)]) := by
  have hplain : writeString e = '"' :: e.toList ++ ['"'] := by
    have hmap : e.toList.flatMap escape = e.toList.flatMap fun c => [c] := List.flatMap_congr h
    rw [writeString, hmap, List.flatMap_singleton']
  have hopen : '{' :: (writeString "response" ++ ':' :: writeString "error" ++
      ',' :: (writeString "message" ++ [':', '"'])) =
        "\x7b\"response\":\"error\",\"message\":\"".toList := by decide +kernel
  have hclose : ['"', '}'] = "\"\x7d".toList := by decide +kernel
  have hlist : (fallback e).toList = "\x7b\"response\":\"error\",\"message\":\"".toList ++
      e.toList ++ "\"\x7d".toList :=
    String.toList_append.trans (congrArg (· ++ _) String.toList_append)
  refine String.toList_inj.mp ?_
  rw [hlist, ← hopen, ← hclose, Json.toText, String.toList_ofList, write_pair, hplain]
  simp only [List.append_assoc, List.cons_append, List.nil_append]
/-- No such line is read as a response. -/
theorem fallback_refused (floats : Floats) {e : String} (h : Plain e) (r : Response) :
    readLine floats Response.ofValue (fallback e ++ "\n") ≠ .ok r := by
  have hfits : Fits maxDepth (.object [("response", .string "error"), ("message", .string e)]) :=
    .object (by simp)
  have hmissing :
      Response.ofValue (.object [("response", .string "error"), ("message", .string e)]) =
        .error (.missingField "data") := rfl
  rw [fallback_eq floats h, readLine_toText floats hfits, hmissing]
  exact fun h => by cases h

/-- Every request crosses the socket. Wherever requests and passes lead, every response does, if the
numbers of the settings are finite. What stands in for a response that cannot be encoded is never
read as one. -/
theorem messages_cross (floats : Floats) (about : About P) {start : World P} (hstart : Starts start)
    (hdownloads : start.outside.Downloads) (hconfig : start.state.config.Finite)
    (hsettings : start.outside.Finite) :
    (∀ r : Request, Crosses floats Request.ofValue (r.toText floats) r) ∧
    (∀ w, Reaches (work about) (fun _ _ => True) start w → ∀ r,
      Crosses floats Response.ofValue ((handle about r w).1.toText floats) (handle about r w).1) ∧
    ∀ e, Plain e → ∀ r, readLine floats Response.ofValue (fallback e ++ "\n") ≠ .ok r := by
  refine ⟨fun r => r.crosses floats, fun w hrun r => ?_, fun e he r => fallback_refused floats he r⟩
  have hw : w.Finite := hrun.keeps (fun w x _ hw => work_finite about hw x)
    (hstart.finite hdownloads.measured hconfig hsettings)
  exact (Response.crosses_iff floats).mpr (handle_finite about r hw).1

/-! ### Answers to read -/

namespace Sample

def isHead (c : Char) : Bool := c.isDigit || c == '-'

theorem isHead_writeInt {n : Int} {c : Char} (h : c ∈ writeInt n) : isHead c = true := by
  unfold writeInt at h
  split at h
  · rcases List.mem_cons.mp h with rfl | h
    · decide
    · rw [isHead, isDigit_toDigits h, Bool.true_or]
  · rw [isHead, isDigit_toDigits h, Bool.true_or]

/-- Whole numbers as they are written, and the others, which nothing below has, as two numbers. -/
def floats : Floats where
  text q := writeInt q.num ++ if q.den = 1 then ['.', '0'] else 'e' :: Nat.toDigits 10 q.den
  value cs :=
    match intOf (cs.takeWhile isHead), cs.dropWhile isHead with
    | some n, ['.', '0'] => some n
    | some n, 'e' :: ds => (natOf ds).map fun d => n / d
    | _, _ => none
  number q c hc := by
    rcases List.mem_append.mp hc with hc | hc
    · exact isNumberChar_writeInt hc
    split at hc
    · exact Text.of_all (p := fun c => isNumberChar c = true) (by decide) c hc
    · rcases List.mem_cons.mp hc with rfl | hc
      · decide
      · rw [isNumberChar, isDigit_toDigits hc, Bool.true_or]
  point q := by
    by_cases hwhole : q.den = 1
    · exact ⟨'.', by rw [if_pos hwhole]; simp, by decide⟩
    · exact ⟨'e', by rw [if_neg hwhole]; simp, by decide⟩
  value_text q := by
    have hhead : ∀ c ∈ writeInt q.num, isHead c = true := fun _ => isHead_writeInt
    rw [List.takeWhile_append_of_pos hhead, List.dropWhile_append_of_pos hhead]
    by_cases hwhole : q.den = 1
    · have hq : (q.num : ℚ) = q := Rat.den_eq_one_iff q |>.mp hwhole
      simp [hwhole, isHead, intOf_writeInt, hq]
    · have hq : (q.num : ℚ) / q.den = q := Rat.num_div_den q
      simp [hwhole, isHead, intOf_writeInt, natOf_toDigits, hq]

/-- A transfer that carries 100 Mbps once it is warm. -/
def transfer : Transfer.Response where
  arrives := 0
  status := 200
  begun := 0
  chunks := [⟨Duration.ofSecs 1, 2000000, 0, 0⟩, ⟨Duration.ofMillis 2840, 23000000, 0, 0⟩]
  ending := .stalled
  reported := 0
  ordered := by decide

def exchange : Download := Transfer.download (fun _ => .answered transfer) fun _ => "timed out"

/-- A daemon whose downloads all go like that. -/
def speeding (c : Config) : World (.linux log) :=
  world c linuxMachine { outside c ⟨[]⟩ (fun _ => none) linuxFaults with
    download := fun _ => exchange
    trial := fun _ => { since := 0, polls := [], download := exchange } }

theorem speeding_downloads (c : Config) : (speeding c).outside.Downloads :=
  ⟨fun _ => ⟨_, _, rfl⟩, fun _ => ⟨_, _, rfl⟩⟩

def about : About (.linux log) where
  configPath := "/etc/vpnmgr/config.toml"
  live _ := none
  wallClock _ := 0
  quote s := "\"" ++ s ++ "\""
  display := F64.fixed 1
  refused _ := "expected value"

theorem config_finite : config.Finite := ⟨by decide +kernel, by decide +kernel⟩

/-- Settings that ask for a rate without bound. -/
def boundless : Config := { config with autotune := { config.autotune with minMbps := .posInf } }

theorem boundless_valid : boundless.validate = .ok () := by decide +kernel

end Sample

/-- A speed test is answered, and the answer is read. -/
theorem speedtest_crosses : Crosses Sample.floats Response.ofValue
    ((handle Sample.about .speedtest (Sample.speeding Sample.config)).1.toText Sample.floats)
    (handle Sample.about .speedtest (Sample.speeding Sample.config)).1 := by
  have hstart : Starts (Sample.speeding Sample.config) :=
    Sample.world_starts Sample.config_valid rfl _ _
  have hsettings : (Sample.speeding Sample.config).outside.Finite := by
    intro n config hload
    have hsame : Config.load (Sample.disk Sample.config) = .ok Sample.config := by
      simp [Config.load, Sample.disk, Sample.config_valid]
    cases hsame.symm.trans hload
    exact Sample.config_finite
  exact (messages_cross Sample.floats Sample.about hstart (Sample.speeding_downloads _)
    Sample.config_finite hsettings).2.1 _ .here .speedtest

/-- With settings that pass every check, a speed test is answered with a number that is not read,
and no client reads what stands in for a response that cannot be encoded. -/
theorem boundless_lost :
    (¬∀ (start w : World (.linux Sample.log)) (r : Request), Starts start →
      start.outside.Downloads → Reaches (work Sample.about) (fun _ _ => True) start w →
      Crosses Sample.floats Response.ofValue
        ((handle Sample.about r w).1.toText Sample.floats) (handle Sample.about r w).1) ∧
    ¬∀ e : String, ∃ message,
      readLine Sample.floats Response.ofValue (fallback e ++ "\n") = .ok (.error message) := by
  constructor
  · intro hcrosses
    have hfinite := (Response.crosses_iff Sample.floats).mp (hcrosses _ _ .speedtest
      (Sample.world_starts Sample.boundless_valid rfl _ _)
      (Sample.speeding_downloads Sample.boundless) .here)
    have hspeed : (match (handle Sample.about .speedtest (Sample.speeding Sample.boundless)).1 with
        | .speed report => report.minMbps.isFinite
        | _ => true) = false := by decide +kernel
    change Response.Finite (handle Sample.about .speedtest (Sample.speeding Sample.boundless)).1
      at hfinite
    cases hresponse : (handle Sample.about .speedtest (Sample.speeding Sample.boundless)).1 with
    | speed report =>
      rw [hresponse] at hfinite hspeed
      cases hfinite.minMbps.symm.trans hspeed
    | _ => rw [hresponse] at hspeed; cases hspeed
  · intro hread
    obtain ⟨message, h⟩ := hread "key must be a string"
    exact fallback_refused Sample.floats (Text.of_all (by decide)) _ h

end Vpnmgr
