import Vpnmgr.Core.ConfigFile

/-! An install from a `.conf`: the settings made of it, the text they are printed as, and what the
daemon loads of it afterwards. -/

namespace Vpnmgr

open Fields Ieee Text
open Toml (Value Format)

/-! ### Reading and writing the settings -/

/-- Why the text of a `config.toml` is refused. -/
inductive ParseError where
  | toml (reason : String)
  | decode (error : DecodeError FieldError)
  | config (error : ConfigError)
  deriving DecidableEq

/-- `toml::from_str`. -/
def Config.fromStr (format : Format) (text : String) : Except ParseError Config := do
  let r ← (format.read text).mapError .toml
  (decode r).mapError .decode

/-- `Config::parse`. -/
def Config.parse (format : Format) (text : String) : Except ParseError Config := do
  let c ← fromStr format text
  (c.validate).mapError .config
  return c

/-- `Config::to_toml`. -/
def Config.toToml (format : Format) (c : Config) : Except String String :=
  format.write (ofEntries c.entries)

def ParseError.message (quote : String → String) (display : F64 → String) : ParseError → String
  | toml reason => reason
  | decode error => error.message (FieldError.message quote)
  | config error => "invalid configuration: " ++ error.message display

/-- `read_key`. -/
def readKey (files : String → Except String String) (path : String) : Except String SecretKey := do
  let text ← files path
  (SecretKey.fromBase64 (trim text)).mapError fun e => path ++ ": " ++ e.message

/-- The daemon's files as it reads them: the settings at `path`, and the key files they name. -/
def Disk.ofFiles (format : Format) (quote : String → String) (display : F64 → String)
    (files : String → Except String String) (path : String) : Disk where
  config := do
    let text ← files path
    (Config.fromStr format text).mapError (·.message quote display)
  key := readKey files

/-! ### The import -/

/-- `Config::from_imported`. -/
def Config.fromImported (client : ClientConfig) (privateKeyFile presharedKeyFile : String) :
    Config where
  provider.airvpn := {
    privateKeyFile
    presharedKeyFile := client.presharedKey.map fun _ => presharedKeyFile
    address := client.addresses
    dns := client.dns
    searchDomains := client.searchDomains
    peerPublicKey := client.peerPublicKey
    port := 1637
    mtu := client.mtu
    persistentKeepalive := client.persistentKeepalive
    allowedIps := client.allowedIps }

/-- `Path::join`, for a relative name. -/
def joinPath (dir name : String) : String :=
  if dir = "" then name else if dir.toList.getLast? = some '/' then dir ++ name
  else dir ++ "/" ++ name

def secretPaths (configDir : String) : String × String :=
  (joinPath configDir "wg.key", joinPath configDir "wg.psk")

/-- What the import tells its user to write: `config.toml` and the key files. -/
structure Install where
  toml : String
  keys : List (String × SecretKey)

inductive ImportError where
  | conf (error : WgConfError)
  | render (reason : String)

/-- `vpnmgr import`, from the text of the `.conf`. -/
def importConf (format : Format) (conf dir : String) : Except ImportError Install := do
  let client ← (ClientConfig.parse conf).mapError .conf
  let (keyPath, pskPath) := secretPaths dir
  let toml ← ((Config.fromImported client keyPath pskPath).toToml format).mapError .render
  return {
    toml
    keys := (keyPath, client.privateKey) :: (client.presharedKey.map (pskPath, ·)).toList }

/-- The files hold what the import told to write. A key file may have space around its text. -/
structure Install.Written (i : Install) (files : String → Except String String) (dir : String) :
    Prop where
  toml : files (joinPath dir "config.toml") = .ok i.toml
  keys : ∀ path key, (path, key) ∈ i.keys →
    ∃ text, files path = .ok text ∧ SecretKey.fromBase64 text = .ok key

/-! ### What an import gives -/

/-- What every client of the import has. -/
structure ClientConfig.Complete (client : ClientConfig) : Prop where
  addresses : client.addresses ≠ []
  mtu : ∀ n, client.mtu = some n → n < 2 ^ 32
  persistentKeepalive : ∀ n, client.persistentKeepalive = some n → n < 2 ^ 16

theorem parseScalar_lt {bits n : Nat} {s : Section} {key display : String}
    (h : parseScalar bits s key display = .ok (some n)) : n < 2 ^ bits := by
  unfold parseScalar at h
  split at h
  · cases h
  · obtain ⟨m, hm, hn⟩ := map_ok.mp h
    cases hn
    exact parseUnsigned_lt (mapError_ok.mp hm)

theorem ClientConfig.parse_complete {text : String} {client : ClientConfig}
    (h : parse text = .ok client) : client.Complete := by
  obtain ⟨s, -, h⟩ := bind_ok.mp h
  simp only [Sections.client, bind_ok] at h
  obtain ⟨peer, -, privateKey, -, peerPublicKey, -, presharedKey, -, addresses, -, h⟩ := h
  split at h
  · cases h
  · next hne =>
    simp only [bind_ok] at h
    obtain ⟨allowedIps, -, mtu, hmtu, keepalive, hkeepalive, h⟩ := h
    cases h
    refine ⟨hne, ?_, ?_⟩
    · rintro n rfl
      exact parseScalar_lt hmtu
    · rintro n rfl
      exact parseScalar_lt hkeepalive

theorem Config.fromImported_inRange {client : ClientConfig} (h : client.Complete)
    (keyPath pskPath : String) : (fromImported client keyPath pskPath).InRange where
  airvpn := ⟨h.mtu, h.persistentKeepalive⟩
  maxLoad := by change 85 < 2 ^ 32; decide
  autotune := Autotune.default_inRange
  probe := ProbeSettings.default_inRange
  throughput := Throughput.default_inRange

/-- The defaults and an address pass every check. -/
theorem Config.fromImported_validate {client : ClientConfig} (h : client.Complete)
    (keyPath pskPath : String) : (fromImported client keyPath pskPath).validate = .ok () := by
  have hvalid := validate_ok.mp Sample.config_valid
  exact validate_ok.mpr { hvalid with address := h.addresses }

/-! ### The round trip -/

/-- The settings that some text is read as. -/
def Config.Accepted (format : Format) (c : Config) : Prop := ∃ text, parse format text = .ok c

/-- The settings that some `.conf` is imported as. -/
def Config.Imported (c : Config) : Prop :=
  ∃ conf client keyPath pskPath, ClientConfig.parse conf = .ok client ∧
    c = fromImported client keyPath pskPath

theorem Config.parse_ok {format : Format} {text : String} {c : Config} :
    parse format text = .ok c ↔
      ∃ r, format.read text = .ok r ∧ decode r = .ok c ∧ c.validate = .ok () := by
  simp only [parse, fromStr, bind_ok, mapError_ok]
  constructor
  · rintro ⟨c', ⟨r, hr, hdecode⟩, ⟨⟩, hvalid, h⟩
    cases h
    exact ⟨r, hr, hdecode, hvalid⟩
  · rintro ⟨r, hr, hdecode, hvalid⟩
    exact ⟨c, ⟨r, hr, hdecode⟩, (), hvalid, rfl⟩

/-- Settings that were read have a keepalive interval. -/
theorem Config.Accepted.persistentKeepalive {format : Format} {c : Config} (h : c.Accepted format) :
    c.provider.airvpn.persistentKeepalive ≠ none := by
  obtain ⟨text, h⟩ := h
  obtain ⟨r, _, hdecode, _⟩ := parse_ok.mp h
  exact (decode_ok hdecode).2

/-- Settings of either origin are in range and pass every check. -/
theorem Config.inRange_and_validate {format : Format} {c : Config}
    (h : c.Accepted format ∨ c.Imported) : c.InRange ∧ c.validate = .ok () := by
  rcases h with ⟨text, h⟩ | ⟨conf, client, keyPath, pskPath, hparse, rfl⟩
  · obtain ⟨r, _, hdecode, hvalid⟩ := parse_ok.mp h
    exact ⟨(decode_ok hdecode).1, hvalid⟩
  · have hcomplete := ClientConfig.parse_complete hparse
    exact ⟨fromImported_inRange hcomplete keyPath pskPath,
      fromImported_validate hcomplete keyPath pskPath⟩

theorem Config.parse_toToml {format : Format} (hformat : format.Lossless) {c : Config}
    (hrange : c.InRange) (hvalid : c.validate = .ok ()) {text : String}
    (hwrite : c.toToml format = .ok text) : parse format text = .ok c.reread := by
  have hread := hformat _ _ c.entries_tidy hwrite
  -- no check looks at the keepalive interval
  exact parse_ok.mpr ⟨_, hread, decode_entries hrange, hvalid⟩

theorem Config.reread_eq_iff {c : Config} :
    c.reread = c ↔ c.provider.airvpn.persistentKeepalive ≠ none := by
  constructor
  · intro h hnone
    have hkeepalive := congrArg (·.provider.airvpn.persistentKeepalive) h
    simp only [reread, AirvpnProvider.reread, hnone] at hkeepalive
    cases hkeepalive
  · intro h
    obtain ⟨n, hn⟩ := Option.ne_none_iff_exists'.mp h
    have hsame : c.provider.airvpn.reread = c.provider.airvpn := by
      rw [AirvpnProvider.reread, hn, Option.some_or, ← hn]
    rw [reread, hsame]

theorem SecretKey.fromBase64_trim (s : String) : fromBase64 (trim s) = fromBase64 s := by
  rw [fromBase64, fromBase64, decodeKey, decodeKey, trim, String.toList_ofList, trimChars_trimChars]

theorem readKey_ok {files : String → Except String String} {path text : String} {key : SecretKey}
    (hfile : files path = .ok text) (hkey : SecretKey.fromBase64 text = .ok key) :
    readKey files path = .ok key := by
  rw [readKey, hfile, ok_bind, SecretKey.fromBase64_trim, hkey]
  rfl

theorem Config.load_ofFiles {format : Format} {quote : String → String} {display : F64 → String}
    {files : String → Except String String} {path text : String} {c : Config}
    (hfile : files path = .ok text) (hparse : parse format text = .ok c) :
    load (.ofFiles format quote display files path) = .ok c := by
  obtain ⟨r, hread, hdecode, hvalid⟩ := parse_ok.mp hparse
  have hconfig : (Disk.ofFiles format quote display files path).config = .ok c := by
    simp only [Disk.ofFiles, fromStr, hfile, ok_bind, hread, Except.mapError, hdecode]
  rw [load, hconfig]
  simp only [hvalid]

/-- What the daemon loads after the import was written: the imported credentials, with the default in
the place of an absent keepalive interval. -/
theorem Install.load {format : Format} (hformat : format.Lossless) {conf dir : String}
    {client : ClientConfig} {i : Install} {files : String → Except String String}
    (hparse : ClientConfig.parse conf = .ok client) (himport : importConf format conf dir = .ok i)
    (hwritten : i.Written files dir) (quote : String → String) (display : F64 → String) :
    let disk := Disk.ofFiles format quote display files (joinPath dir "config.toml")
    Config.load disk >>= Config.loadClientConfig disk = .ok { client with
      persistentKeepalive := client.persistentKeepalive.or (some 15) } := by
  intro disk
  obtain ⟨client', hclient, himport⟩ := bind_ok.mp himport
  obtain rfl : client = client' := Except.ok.inj (hparse.symm.trans (mapError_ok.mp hclient))
  obtain ⟨toml, htoml, hi⟩ := bind_ok.mp himport
  cases hi
  have hwrite := mapError_ok.mp htoml
  have hcomplete := ClientConfig.parse_complete hparse
  have hread := Config.parse_toToml hformat (Config.fromImported_inRange hcomplete _ _)
    (Config.fromImported_validate hcomplete _ _) hwrite
  have hload : Config.load disk = .ok _ := Config.load_ofFiles hwritten.toml hread
  obtain ⟨text, hfile, hkey⟩ := hwritten.keys _ _ List.mem_cons_self
  have hprivate : disk.key (secretPaths dir).1 = .ok client.privateKey := readKey_ok hfile hkey
  rw [hload, ok_bind]
  unfold Config.loadClientConfig
  refine bind_ok.mpr ⟨client.privateKey, mapError_ok.mpr hprivate, ?_⟩
  have hpath : (Config.fromImported client (joinPath dir "wg.key")
      (joinPath dir "wg.psk")).reread.provider.airvpn.presharedKeyFile =
        client.presharedKey.map fun _ => (secretPaths dir).2 := rfl
  rw [hpath]
  cases hpsk : client.presharedKey with
  | none => rfl
  | some psk =>
    obtain ⟨text, hfile, hkey⟩ := hwritten.keys (secretPaths dir).2 psk
      (by rw [hpsk]; exact List.mem_cons_of_mem _ List.mem_cons_self)
    have hshared : disk.key (secretPaths dir).2 = .ok psk := readKey_ok hfile hkey
    exact bind_ok.mpr ⟨some psk, map_ok.mpr ⟨psk, mapError_ok.mpr hshared, rfl⟩, rfl⟩

/-- Settings that were read or imported come back from the text they are written as, and the daemon
loads the imported credentials, exactly if they have a keepalive interval, as all that were read
do. -/
theorem config_roundTrips_iff {format : Format} (hformat : format.Lossless) :
    (∀ c : Config, c.Accepted format → c.provider.airvpn.persistentKeepalive ≠ none) ∧
    (∀ (c : Config) (text : String), c.Accepted format ∨ c.Imported →
      c.toToml format = .ok text →
      (Config.parse format text = .ok c ↔ c.provider.airvpn.persistentKeepalive ≠ none)) ∧
    ∀ (conf dir : String) (client : ClientConfig) (i : Install)
      (files : String → Except String String) (quote : String → String) (display : F64 → String),
      ClientConfig.parse conf = .ok client → importConf format conf dir = .ok i →
      i.Written files dir →
      let disk := Disk.ofFiles format quote display files (joinPath dir "config.toml")
      (Config.load disk >>= Config.loadClientConfig disk = .ok client ↔
        client.persistentKeepalive ≠ none) := by
  refine ⟨fun c h => h.persistentKeepalive, ?_, ?_⟩
  · intro c text horigin hwrite
    obtain ⟨hrange, hvalid⟩ := Config.inRange_and_validate horigin
    rw [Config.parse_toToml hformat hrange hvalid hwrite, Except.ok.injEq, Config.reread_eq_iff]
  · intro conf dir client i files quote display hparse himport hwritten disk
    rw [Install.load hformat hparse himport hwritten, Except.ok.injEq]
    obtain ⟨_, _, _, _, _, _, _, _, keepalive⟩ := client
    cases keepalive <;> simp

namespace Sample

/-- A `.conf` of a split tunnel, up to the lines given. -/
def splitConf (lines : String) : String :=
  "[Interface]
Address = 10.101.222.48/32
PrivateKey = SPrivateKeyFixturexxxxxxxxxxxxxxxxxxxxxxxxA=
DNS = 10.101.110.11,10.101.110.12,corp.internal

[Peer]
PublicKey = PyLCXAQT8KkM4T+dUsOQfn+Ub3pGxfGlxkIApuig+hk=
Endpoint = 198.51.100.9:51820
AllowedIPs = 10.101.1.0/24,10.100.0.0/16,192.0.2.5/32
" ++ lines

def splitClient (persistentKeepalive : Option Nat) : ClientConfig where
  privateKey := ⟨#v[72, 250, 226, 189, 171, 94, 41, 236, 133, 139, 27, 110, 173, 236, 113, 199, 28,
    113, 199, 28, 113, 199, 28, 113, 199, 28, 113, 199, 28, 113, 199, 16]⟩
  addresses := [⟨.v4 0x0a65de30, 32, by decide⟩]
  dns := [.v4 0x0a656e0b, .v4 0x0a656e0c]
  searchDomains := ["corp.internal"]
  mtu := none
  peerPublicKey := ⟨#v[63, 34, 194, 92, 4, 19, 240, 169, 12, 225, 63, 157, 82, 195, 144, 126, 127,
    148, 111, 122, 70, 197, 241, 165, 198, 66, 0, 166, 232, 160, 250, 25]⟩
  presharedKey := none
  allowedIps := [⟨.v4 0x0a650100, 24, by decide⟩, ⟨.v4 0x0a640000, 16, by decide⟩,
    ⟨.v4 0xc0000205, 32, by decide⟩]
  persistentKeepalive

def splitConfig (persistentKeepalive : Option Nat) : Config :=
  .fromImported (splitClient persistentKeepalive) "/etc/vpnmgr/wg.key" "/etc/vpnmgr/wg.psk"

/-- The settings as they are printed, with the line of the keepalive interval. -/
def splitToml (line : String) : String :=
  "[provider.airvpn]
private_key_file = \"/etc/vpnmgr/wg.key\"
address = [\"10.101.222.48/32\"]
dns = [
    \"10.101.110.11\",
    \"10.101.110.12\",
]
search_domains = [\"corp.internal\"]
peer_public_key = \"PyLCXAQT8KkM4T+dUsOQfn+Ub3pGxfGlxkIApuig+hk=\"
port = 1637
" ++ line ++ "allowed_ips = [
    \"10.101.1.0/24\",
    \"10.100.0.0/16\",
    \"192.0.2.5/32\",
]

[filters]
country_whitelist = []
country_blacklist = []
server_whitelist = []
server_blacklist = []
max_load = 85

[autotune]
interval_minutes = 30
max_latency_ms = 80
min_mbps = 50.0
accept_fraction = 0.6
measure_before_connect = true
headroom_margin = 2.0
verify_candidates = 5
switch_policy = \"ask\"
improvement_threshold = 0.25

[autotune.weights]
rtt = 0.6
load = 0.1
headroom = 0.3

[probe]
concurrency = 32
timeout_ms = 1500
samples = 3

[killswitch]
enabled = false
allow_lan = true

[throughput]
url = \"https://speed.cloudflare.com/__down?bytes=\"
bytes = 25000000
timeout_secs = 30
select_bytes = 8000000

[bypass]
cidrs = []
hosts = []
other_vpns = true
lan = true
"

noncomputable def splitFormat (line : String) (persistentKeepalive : Option Nat) : Format :=
  .only (ofEntries (splitConfig persistentKeepalive).entries) (splitToml line)

def splitInstall (line : String) (persistentKeepalive : Option Nat) : Install where
  toml := splitToml line
  keys := [("/etc/vpnmgr/wg.key", (splitClient persistentKeepalive).privateKey)]

/-- The files after the import was written. -/
def splitFiles (line : String) (path : String) : Except String String :=
  if path = "/etc/vpnmgr/config.toml" then .ok (splitToml line)
  else .ok "SPrivateKeyFixturexxxxxxxxxxxxxxxxxxxxxxxxA=\n"

theorem split_imports {conf : String} (line : String) {persistentKeepalive : Option Nat}
    (h : ClientConfig.parse conf = .ok (splitClient persistentKeepalive)) :
    importConf (splitFormat line persistentKeepalive) conf "/etc/vpnmgr" =
      .ok (splitInstall line persistentKeepalive) := by
  have hpaths : secretPaths "/etc/vpnmgr" = ("/etc/vpnmgr/wg.key", "/etc/vpnmgr/wg.psk") := by
    decide +kernel
  rw [importConf, hpaths, h]
  refine bind_ok.mpr ⟨_, rfl, ?_⟩
  exact bind_ok.mpr ⟨splitToml line, mapError_ok.mpr (Format.only_write _ _), rfl⟩

theorem split_written (line : String) (persistentKeepalive : Option Nat) :
    (splitInstall line persistentKeepalive).Written (splitFiles line) "/etc/vpnmgr" := by
  have hpath : joinPath "/etc/vpnmgr" "config.toml" = "/etc/vpnmgr/config.toml" := by
    decide +kernel
  refine ⟨by rw [hpath]; exact if_pos rfl, fun path key hmem => ?_⟩
  cases List.mem_singleton.mp hmem
  exact ⟨_, if_neg (by decide), (by decide +kernel :
    SecretKey.fromBase64 "SPrivateKeyFixturexxxxxxxxxxxxxxxxxxxxxxxxA=\n" =
      .ok (splitClient none).privateKey)⟩

/-- The characters of a text are at hand where it is given by them. -/
theorem parse_ofList (front back : List Char) :
    ClientConfig.parse (.ofList front ++ .ofList back) = (do
      let sections ← ((linesOf (front ++ back)).zipIdx 1).foldlM
        (fun s (raw, line) => s.readLine raw line) ({} : Sections)
      sections.client) := by
  rw [ClientConfig.parse, Sections.read, String.toList_append, String.toList_ofList,
    String.toList_ofList]

set_option maxRecDepth 4000 in
theorem split_parses : ClientConfig.parse (splitConf "") = .ok (splitClient none) ∧
    ClientConfig.parse (splitConf "PersistentKeepalive = 15\n") = .ok (splitClient (some 15)) :=
  ⟨(parse_ofList _ _).trans (by decide +kernel), (parse_ofList _ _).trans (by decide +kernel)⟩

end Sample

/-- A `.conf` with a keepalive interval comes back from its install. -/
theorem split_roundTrips :
    let format := Sample.splitFormat "persistent_keepalive = 15\n" (some 15)
    let disk := Disk.ofFiles format id (fun _ => "") (Sample.splitFiles "persistent_keepalive = 15\n")
      (joinPath "/etc/vpnmgr" "config.toml")
    Config.parse format (Sample.splitToml "persistent_keepalive = 15\n") =
        .ok (Sample.splitConfig (some 15)) ∧
      Config.load disk >>= Config.loadClientConfig disk = .ok (Sample.splitClient (some 15)) := by
  intro format disk
  have hparse := Sample.split_parses.2
  have hlossless : format.Lossless := Format.only_lossless _ _
  obtain ⟨_, hround, hinstall⟩ := config_roundTrips_iff hlossless
  refine ⟨(hround _ _ (.inr ⟨_, _, _, _, hparse, rfl⟩) (Format.only_write _ _)).mpr ?_,
    (hinstall _ _ _ _ _ _ _ hparse (Sample.split_imports _ hparse) (Sample.split_written _ _)).mpr ?_⟩
  · exact Option.some_ne_none 15
  · exact Option.some_ne_none 15

/-- Without one, the install has an interval of fifteen seconds that the `.conf` did not have. -/
theorem split_altered :
    let format := Sample.splitFormat "" none
    let disk := Disk.ofFiles format id (fun _ => "") (Sample.splitFiles "")
      (joinPath "/etc/vpnmgr" "config.toml")
    format.Lossless ∧ (Sample.splitConfig none).Imported ∧
      (Sample.splitConfig none).toToml format = .ok (Sample.splitToml "") ∧
      Config.parse format (Sample.splitToml "") = .ok (Sample.splitConfig (some 15)) ∧
      Sample.splitConfig (some 15) ≠ Sample.splitConfig none ∧
      ClientConfig.parse (Sample.splitConf "") = .ok (Sample.splitClient none) ∧
      importConf format (Sample.splitConf "") "/etc/vpnmgr" = .ok (Sample.splitInstall "" none) ∧
      (Sample.splitInstall "" none).Written (Sample.splitFiles "") "/etc/vpnmgr" ∧
      Config.load disk >>= Config.loadClientConfig disk = .ok (Sample.splitClient (some 15)) ∧
      Sample.splitClient (some 15) ≠ Sample.splitClient none := by
  intro format disk
  have hparse := Sample.split_parses.1
  have hlossless : format.Lossless := Format.only_lossless _ _
  have himported : (Sample.splitConfig none).Imported := ⟨_, _, _, _, hparse, rfl⟩
  have hwrite : (Sample.splitConfig none).toToml format = .ok (Sample.splitToml "") :=
    Format.only_write _ _
  have himport := Sample.split_imports "" hparse
  have hwritten := Sample.split_written "" none
  have horigin : (Sample.splitConfig none).Accepted format ∨ (Sample.splitConfig none).Imported :=
    .inr himported
  obtain ⟨hrange, hvalid⟩ := Config.inRange_and_validate horigin
  refine ⟨hlossless, himported, hwrite, Config.parse_toToml hlossless hrange hvalid hwrite, ?_,
    hparse, himport, hwritten, Install.load hlossless hparse himport hwritten _ _, ?_⟩
  · decide +kernel
  · decide +kernel

end Vpnmgr
