import Vpnmgr.Core.Address
import Vpnmgr.Core.Key
import Vpnmgr.Daemon.Carrying
import Vpnmgr.Ipc.Handle

/-! What each backend says of a tunnel that is up: one asks the kernel, the other reads what `wg` prints.
Of the same peer they say the same, but for the part of a second in its last handshake. -/

namespace Vpnmgr

open Text

/-- A peer as the Linux library gives it. -/
structure HostPeer where
  endpoint : Option SocketAddr
  lastHandshake : Option SystemTime
  txBytes : UInt64
  rxBytes : UInt64

/-- `LinuxTunnel::read_status`, from what reading the interface gives. -/
def Linux.readStatus (interface : String) (host : Except String (List HostPeer)) :
    Except TunnelError TunnelStatus :=
  match host with
  | .error e => .error (wgErr "reading interface state" interface e)
  | .ok peers =>
    let peer := peers.head?
    .ok {
      endpoint := peer.bind HostPeer.endpoint
      -- the zero instant stands for a peer that has never answered
      lastHandshake := (peer.bind HostPeer.lastHandshake).filter (· ≠ 0)
      txBytes := (peer.map fun p => p.txBytes.toNat).getD 0
      rxBytes := (peer.map fun p => p.rxBytes.toNat).getD 0 }

namespace Windows

/-- The field of the first peer, of those that `wg` prints in a line with tabs between them. -/
def peerField (text : String) (n : Nat) : Option String :=
  match linesOf text.toList with
  | [] => none
  | line :: _ =>
    ((split '\t' line)[n]?.map fun field => trim (String.ofList field)).filter fun field =>
      field ≠ "" && field ≠ "(none)"

def parseU64 (s : String) : Option Nat := (parseUnsigned 64 s.toList).toOption

/-- `WindowsTunnel::status`, from what `wg show` gives for each field. -/
def status (wgField : String → Except CommandError String) : TunnelStatus :=
  match wgField "listen-port" with
  -- without an interface the tunnel is down, which is no failure
  | .error _ => { endpoint := none, lastHandshake := none, txBytes := 0, rxBytes := 0 }
  | .ok _ =>
    let transfer := (wgField "transfer").toOption.getD ""
    { endpoint := ((wgField "endpoints").toOption.bind (peerField · 1)).bind SocketAddr.parse
      lastHandshake :=
        ((((wgField "latest-handshakes").toOption.bind (peerField · 1)).bind parseU64).filter
          (0 < ·)).map Duration.ofSecs
      txBytes := ((peerField transfer 2).bind parseU64).getD 0
      rxBytes := ((peerField transfer 1).bind parseU64).getD 0 }

end Windows

/-! ### What `wg` prints -/

/-- A peer as the driver holds it: the zero instant stands for no handshake. -/
structure LivePeer where
  key : PublicKey
  endpoint : Option SocketAddr
  lastHandshake : SystemTime
  txBytes : UInt64
  rxBytes : UInt64
  dated : Duration.asSecs lastHandshake < 2 ^ 64

/-- The library finds the peer so, whether it tells of the zero instant or not. -/
structure HostPeer.Finds (h : HostPeer) (p : LivePeer) : Prop where
  endpoint : h.endpoint = p.endpoint
  lastHandshake : h.lastHandshake = some p.lastHandshake ∨
    p.lastHandshake = 0 ∧ h.lastHandshake = none
  txBytes : h.txBytes = p.txBytes
  rxBytes : h.rxBytes = p.rxBytes

namespace Windows

/-- A line of `wg show`. -/
def wgLine (eol : String) (p : LivePeer) (values : List String) : String :=
  "\t".intercalate (p.key.toBase64 :: values) ++ eol

/-- What `wg show` prints for each field, with one line for each peer. The fields are asked for one after
the other, and the peers may have changed in between. -/
structure Shows (wgField : String → Except CommandError String) (eol : String)
    (first second third : List LivePeer) : Prop where
  listenPort : (wgField "listen-port").isOk = true
  endpoints : wgField "endpoints" = .ok (String.join (first.map fun p =>
    wgLine eol p [(p.endpoint.map SocketAddr.display).getD "(none)"]))
  latestHandshakes : wgField "latest-handshakes" = .ok (String.join (second.map fun p =>
    wgLine eol p [toString (Duration.asSecs p.lastHandshake)]))
  transfer : wgField "transfer" = .ok (String.join (third.map fun p =>
    wgLine eol p [toString p.rxBytes.toNat, toString p.txBytes.toNat]))

/-- A line ends as C or as Windows has it. -/
def IsEol (eol : String) : Prop := eol = "\n" ∨ eol = "\r\n"

/-- A text that no space breaks, as every value is that `wg` prints. -/
def Unbroken (s : String) : Prop := ∀ c ∈ s.toList, isWhitespace c = false

theorem unbroken_key (k : PublicKey) : Unbroken k.toBase64 := fun _ hc =>
  isWhitespace_of_mem_encodeKey hc

theorem unbroken_nat (n : Nat) : Unbroken (toString n) := by
  intro c hc
  have hdigits : (toString n).toList = Nat.toDigits 10 n := Nat.toList_repr
  rw [hdigits] at hc
  exact (IpAddr.isPlain_of_mem (IpAddr.mem_decimal hc)).2

theorem unbroken_endpoint (a : SocketAddr) : Unbroken a.display := by
  intro c hc
  rcases SocketAddr.mem_display hc with rfl | rfl | hc
  · decide
  · decide
  · exact (IpAddr.isPlain_of_mem hc).2

theorem Unbroken.free {s : String} (h : Unbroken s) {c : Char} (hc : isWhitespace c = true) :
    c ∉ s.toList := by
  intro hmem
  rw [h c hmem] at hc
  cases hc

theorem Unbroken.trim_eq {s : String} (h : Unbroken s) : trim s = s := by
  rw [trim, trimChars_of_not_whitespace h, String.ofList_toList]

theorem linesOf_eol {eol : String} (heol : IsEol eol) {line : List Char} (hfeed : '\n' ∉ line)
    (hreturn : '\r' ∉ line) (rest : List Char) :
    linesOf (line ++ eol.toList ++ rest) = line :: linesOf rest := by
  rcases heol with rfl | rfl
  · have hlast : line.getLast? ≠ some '\r' := fun hlast => hreturn (List.mem_of_getLast? hlast)
    have htext : line ++ "\n".toList ++ rest = line ++ '\n' :: rest := by
      rw [List.append_assoc]
      rfl
    rw [htext, linesOf_append hfeed, if_neg hlast]
  · have htext : line ++ "\r\n".toList ++ rest = line ++ ['\r'] ++ '\n' :: rest := by
      rw [List.append_assoc, List.append_assoc]
      rfl
    have hboth : '\n' ∉ line ++ ['\r'] := by simpa using hfeed
    rw [htext, linesOf_append hboth, if_pos List.getLast?_concat, List.dropLast_concat]

/-- What is printed on the line of the first peer is read from it, but for what stands for nothing. -/
theorem peerField_shown {eol : String} (heol : IsEol eol) {p : LivePeer} {values : List String}
    (h : ∀ v ∈ values, Unbroken v) (others : List String) (n : Nat) :
    peerField (String.join (wgLine eol p values :: others)) (n + 1) =
      values[n]?.filter fun v => v ≠ "" && v ≠ "(none)" := by
  obtain ⟨fields, hfields⟩ : ∃ fields, (p.key.toBase64 :: values).map String.toList = fields :=
    ⟨_, rfl⟩
  have hfield : ∀ field ∈ fields, ∀ c, isWhitespace c = true → c ∉ field := by
    rw [← hfields]
    intro field hfield c hc
    obtain ⟨v, hv, rfl⟩ := List.mem_map.mp hfield
    rcases List.mem_cons.mp hv with rfl | hv
    · exact (unbroken_key p.key).free hc
    · exact (h v hv).free hc
  have hfree : ∀ c, isWhitespace c = true → c ≠ '\t' → c ∉ ['\t'].intercalate fields := by
    intro c hc htab hmem
    rcases mem_intercalate hmem with hsame | ⟨field, hin, hmem⟩
    · exact htab hsame
    · exact hfield field hin c hc hmem
  have hsplit : split '\t' (['\t'].intercalate fields) = fields :=
    split_intercalate (by simp [← hfields]) fun field hin => hfield field hin '\t' (by decide)
  have htext : (String.join (wgLine eol p values :: others)).toList =
      ['\t'].intercalate fields ++ eol.toList ++ (String.join others).toList := by
    rw [String.join_cons, String.toList_append, wgLine, String.toList_append,
      String.toList_intercalate, hfields]
    rfl
  rw [peerField, htext, linesOf_eol heol (hfree _ (by decide) (by decide))
    (hfree _ (by decide) (by decide))]
  dsimp only
  rw [hsplit, ← hfields, List.map_cons, List.getElem?_cons_succ, List.getElem?_map]
  cases hv : values[n]? with
  | none => rfl
  | some v =>
    have htrim : trim v = v := (h v (List.mem_of_getElem? hv)).trim_eq
    simp [htrim]

/-- A value that is read as something stands for something. -/
theorem filter_bind {α : Type} {read : String → Option α} (hempty : read "" = none)
    (hnone : read "(none)" = none) {v : String} {a : α} (h : read v = some a) :
    ((some v).filter fun v => v ≠ "" && v ≠ "(none)").bind read = some a := by
  have hv : v ≠ "" ∧ v ≠ "(none)" := by
    constructor <;> rintro rfl
    · rw [hempty] at h
      cases h
    · rw [hnone] at h
      cases h
  rw [Option.filter_some, if_pos (by simpa using hv), Option.bind_some, h]

theorem parseU64_toString {n : Nat} (h : n < 2 ^ 64) : parseU64 (toString n) = some n := by
  have hdigits : (toString n).toList = Nat.toDigits 10 n := Nat.toList_repr
  rw [parseU64, hdigits, parseUnsigned_toDigits h]
  rfl

theorem filter_parseU64 {n : Nat} (h : n < 2 ^ 64) :
    ((some (toString n)).filter fun v => v ≠ "" && v ≠ "(none)").bind parseU64 = some n :=
  filter_bind rfl rfl (parseU64_toString h)

theorem filter_endpoint (endpoint : Option SocketAddr) :
    ((some ((endpoint.map SocketAddr.display).getD "(none)")).filter fun v =>
      v ≠ "" && v ≠ "(none)").bind SocketAddr.parse = endpoint := by
  cases endpoint with
  | none => rfl
  | some a => exact filter_bind rfl rfl (SocketAddr.parse_display a)

/-- The status is that of the first peer, each part of it as it was when it was asked for. -/
theorem status_shows {wgField : String → Except CommandError String} {eol : String}
    (heol : IsEol eol) {p q r : LivePeer} {ps qs rs : List LivePeer}
    (h : Shows wgField eol (p :: ps) (q :: qs) (r :: rs)) : status wgField =
      { endpoint := p.endpoint
        lastHandshake := lastHandshake q.lastHandshake
        txBytes := r.txBytes.toNat
        rxBytes := r.rxBytes.toNat } := by
  have hendpoint : ∀ v ∈ [(p.endpoint.map SocketAddr.display).getD "(none)"], Unbroken v := by
    intro v hv
    obtain rfl := List.mem_singleton.mp hv
    cases p.endpoint with
    | none => exact of_all (by decide)
    | some a => exact unbroken_endpoint a
  have hsecs : ∀ v ∈ [toString (Duration.asSecs q.lastHandshake)], Unbroken v := by
    simpa using unbroken_nat _
  have hbytes : ∀ v ∈ [toString r.rxBytes.toNat, toString r.txBytes.toNat], Unbroken v := by
    simpa using ⟨unbroken_nat _, unbroken_nat _⟩
  have hlisten := h.listenPort
  unfold status
  cases hport : wgField "listen-port" with
  | error e =>
    rw [hport] at hlisten
    cases hlisten
  | ok text =>
    simp only [h.endpoints, h.latestHandshakes, h.transfer, List.map_cons, Except.toOption,
      Option.bind_some, Option.getD_some, peerField_shown heol hendpoint _ 0,
      peerField_shown heol hsecs _ 0, peerField_shown heol hbytes _ 0,
      peerField_shown heol hbytes _ 1, List.getElem?_cons_zero, List.getElem?_cons_succ,
      filter_endpoint, filter_parseU64 q.dated, filter_parseU64 r.rxBytes.toNat_lt,
      filter_parseU64 r.txBytes.toNat_lt]
    congr 1
    unfold lastHandshake
    by_cases hzero : Duration.asSecs q.lastHandshake = 0
    · simp [hzero]
    · simp [hzero, Nat.pos_of_ne_zero hzero]

end Windows

/-! ### The two backends -/

theorem Linux.readStatus_finds (interface : String) {host : HostPeer} {p : LivePeer}
    (h : host.Finds p) : Linux.readStatus interface (.ok [host]) = .ok
      { endpoint := p.endpoint
        lastHandshake := Linux.lastHandshake p.lastHandshake
        txBytes := p.txBytes.toNat
        rxBytes := p.rxBytes.toNat } := by
  have hlast : host.lastHandshake.filter (· ≠ 0) = Linux.lastHandshake p.lastHandshake := by
    unfold Linux.lastHandshake
    rcases h.lastHandshake with hsome | ⟨hzero, hnone⟩
    · rw [hsome]
      by_cases hzero : p.lastHandshake = 0 <;> simp [hzero]
    · rw [hnone, hzero]
      rfl
  rw [readStatus, ← hlast, ← h.endpoint, ← h.txBytes, ← h.rxBytes]
  rfl

theorem TunnelStatus.isHealthy_iff {s : TunnelStatus} {now : SystemTime} {age : Duration} :
    s.isHealthy now age = true ↔ ∃ t, s.lastHandshake = some t ∧ now ≤ t + age := by
  unfold isHealthy
  cases s.lastHandshake with
  | none => simp
  | some t =>
    by_cases hle : t ≤ now
    · simp [hle, Nat.add_comm]
    · have hnow := (Nat.not_le.mp hle).le.trans (Nat.le_add_right t age)
      simpa [hle] using hnow

theorem within_second {h : Nat} (hlate : h / 1000000000 ≠ 0) : h ≠ 0 ∧
    h / 1000000000 * 1000000000 ≤ h ∧ h ≤ h / 1000000000 * 1000000000 + 1 * 1000000000 := by
  omega

/-- A handshake is reported up to a second older in whole seconds, and not at all where it would be in
the first second. -/
theorem whole_secs (h : SystemTime) :
    Windows.lastHandshake h = none ∧ h < Duration.ofSecs 1 ∨ ∃ t, Windows.lastHandshake h = some t ∧
      Linux.lastHandshake h = some h ∧ t ≤ h ∧ h ≤ t + Duration.ofSecs 1 := by
  unfold Windows.lastHandshake Linux.lastHandshake
  by_cases hearly : Duration.asSecs h = 0
  · refine .inl ⟨if_pos hearly, ?_⟩
    exact (Nat.div_eq_zero_iff_lt (by decide)).mp hearly
  · obtain ⟨hzero, hle, hge⟩ := within_second hearly
    exact .inr ⟨_, if_neg hearly, if_neg hzero, hle, hge⟩

/-- Of the one peer that there is the two backends say the same, but that on Windows its last handshake
is in whole seconds; so what is healthy there is healthy on Linux, and what is healthy on Linux is so
there if it may be a second older. -/
theorem backends_agree (interface : String) {wgField : String → Except Windows.CommandError String}
    {eol : String} (heol : Windows.IsEol eol) {host : HostPeer} {p : LivePeer} (hhost : host.Finds p)
    (hshows : Windows.Shows wgField eol [p] [p] [p]) : ∃ s,
      Linux.readStatus interface (.ok [host]) = .ok s ∧
      s.endpoint = p.endpoint ∧ s.txBytes = p.txBytes.toNat ∧ s.rxBytes = p.rxBytes.toNat ∧
      s.lastHandshake = Linux.lastHandshake p.lastHandshake ∧
      Windows.status wgField =
        { s with lastHandshake := Windows.lastHandshake p.lastHandshake } ∧
      ∀ now age,
        ((Windows.status wgField).isHealthy now age = true → s.isHealthy now age = true) ∧
        (Duration.ofSecs 1 ≤ p.lastHandshake → s.isHealthy now age = true →
          (Windows.status wgField).isHealthy now (age + Duration.ofSecs 1) = true) := by
  refine ⟨_, Linux.readStatus_finds interface hhost, rfl, rfl, rfl, rfl,
    Windows.status_shows heol hshows, fun now age => ?_⟩
  rw [Windows.status_shows heol hshows]
  simp only [TunnelStatus.isHealthy_iff]
  rcases whole_secs p.lastHandshake with ⟨hnone, hlt⟩ | ⟨t, hsome, hfull, hle, hge⟩
  · refine ⟨?_, fun hsecond => absurd hlt (Nat.not_lt.mpr hsecond)⟩
    rintro ⟨t, ht, -⟩
    rw [hnone] at ht
    cases ht
  · rw [hsome, hfull]
    refine ⟨?_, fun _ => ?_⟩
    · rintro ⟨t', ht, hnow⟩
      cases ht
      exact ⟨_, rfl, hnow.trans (Nat.add_le_add_right hle age)⟩
    · rintro ⟨h', hh, hnow⟩
      cases hh
      refine ⟨_, rfl, hnow.trans ((Nat.add_le_add_right hge age).trans (Nat.le_of_eq ?_))⟩
      exact (Nat.add_right_comm _ _ _).trans (Nat.add_assoc _ _ _)

namespace Sample

/-- A peer that answered half a second after noon. -/
def livePeer : LivePeer where
  key := config.provider.airvpn.peerPublicKey
  endpoint := some ⟨.v4 0x01020304, 1637⟩
  lastHandshake := 1785499200500000000
  txBytes := 2048
  rxBytes := 1024
  dated := by decide

/-- What `wg` prints of that peer. -/
def printed (field : String) : Except Windows.CommandError String :=
  .ok (if field = "endpoints" then "CQkJCQkJCQkJCQkJCQkJCQkJCQkJCQkJCQkJCQkJCQk=\t1.2.3.4:1637\r\n"
  else if field = "latest-handshakes" then
    "CQkJCQkJCQkJCQkJCQkJCQkJCQkJCQkJCQkJCQkJCQk=\t1785499200\r\n"
  else if field = "transfer" then
    "CQkJCQkJCQkJCQkJCQkJCQkJCQkJCQkJCQkJCQkJCQk=\t1024\t2048\r\n"
  else "51820\r\n")

theorem printed_shows : Windows.Shows printed "\r\n" [livePeer] [livePeer] [livePeer] where
  listenPort := rfl
  endpoints := congrArg Except.ok (by decide +kernel)
  latestHandshakes := congrArg Except.ok (by decide +kernel)
  transfer := congrArg Except.ok (by decide +kernel)

end Sample

theorem noon_agrees : ∃ s,
    Linux.readStatus defaultInterface
      (.ok [⟨some ⟨.v4 0x01020304, 1637⟩, some 1785499200500000000, 2048, 1024⟩]) = .ok s ∧
    s.endpoint = some ⟨.v4 0x01020304, 1637⟩ ∧ s.txBytes = 2048 ∧ s.rxBytes = 1024 ∧
    s.lastHandshake = Linux.lastHandshake 1785499200500000000 ∧
    Windows.status Sample.printed =
      { s with lastHandshake := Windows.lastHandshake 1785499200500000000 } ∧
    ∀ now age,
      ((Windows.status Sample.printed).isHealthy now age = true → s.isHealthy now age = true) ∧
      (Duration.ofSecs 1 ≤ 1785499200500000000 → s.isHealthy now age = true →
        (Windows.status Sample.printed).isHealthy now (age + Duration.ofSecs 1) = true) :=
  backends_agree defaultInterface (.inr rfl) ⟨rfl, .inl rfl, rfl, rfl⟩ Sample.printed_shows

end Vpnmgr
