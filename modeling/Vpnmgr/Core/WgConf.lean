import Vpnmgr.Core.Key

/-! The import of a WireGuard `.conf`: its lines sorted into sections, and the credentials read from
their entries. -/

namespace Vpnmgr

open Text

/-- Why a text is no prefix. The parts are quoted as they stand in it. -/
inductive CidrError where
  | notAddress (part : String)
  | notPrefixLength (part : String)
  | tooLong (length max : Nat)
  deriving DecidableEq, Repr

/-- The text of an error, given how a string is quoted. -/
def CidrError.message (quote : String → String) : CidrError → String
  | notAddress part => s!"{quote part} is not an IP address"
  | notPrefixLength part => s!"{quote part} is not a prefix length"
  | tooLong length max => s!"/{length} exceeds the maximum /{max} for this address"

/-- `Cidr::from_str`, with its errors. -/
def Cidr.fromStr (s : String) : Except CidrError Cidr :=
  let cs := trimChars s.toList
  let (addrPart, prefixPart) :=
    match splitOnce '/' cs with
    | some (a, p) => (a, some p)
    | none => (cs, none)
  match IpAddr.parseChars (trimChars addrPart) with
  | none => .error (.notAddress (.ofList addrPart))
  | some addr =>
    match prefixPart with
    | none => .ok (host addr)
    | some p =>
      match parseU8 (trimChars p) with
      | none => .error (.notPrefixLength (.ofList p))
      | some n => if h : n ≤ addr.width then .ok ⟨addr, n, h⟩ else .error (.tooLong n addr.width)

theorem Cidr.fromStr_toOption (s : String) : (fromStr s).toOption = parse s := by
  rw [fromStr, parse]
  cases splitOnce '/' (trimChars s.toList) with
  | none =>
    dsimp only
    cases IpAddr.parseChars (trimChars (trimChars s.toList)) <;> rfl
  | some parts =>
    obtain ⟨a, p⟩ := parts
    dsimp only
    cases IpAddr.parseChars (trimChars a) with
    | none => rfl
    | some addr =>
      cases parseU8 (trimChars p) with
      | none => rfl
      | some n =>
        dsimp only
        split <;> rfl

/-- Why a text is no usable `.conf`, with the number of the line at fault. -/
inductive WgConfError where
  | unknownSection (line : Nat) (name : String)
  | notKeyValue (line : Nat)
  | outsideSection (line : Nat) (key : String)
  | noPeer
  | severalPeers (n : Nat)
  | noPrivateKey
  | noPublicKey
  | badKey (line : Nat) (display : String) (error : KeyError)
  | badEntry (line : Nat) (display item : String) (error : CidrError)
  | badNumber (line : Nat) (display value : String) (error : IntError)
  | noAddress
  deriving DecidableEq, Repr

/-- The reason of an error, given how a string is quoted. -/
def WgConfError.reason (quote : String → String) : WgConfError → String
  | unknownSection line name => s!"line {line}: unknown section [{name}]"
  | notKeyValue line => s!"line {line}: expected `key = value`"
  | outsideSection line key =>
    s!"line {line}: `{key}` appears before any [Interface] or [Peer] section"
  | noPeer => "no [Peer] section"
  | severalPeers n =>
    s!"{n} [Peer] sections; vpnmgr selects the peer itself and expects exactly one"
  | noPrivateKey => "[Interface] has no PrivateKey"
  | noPublicKey => "[Peer] has no PublicKey"
  | badKey line display error => s!"line {line}: {display} is {error.message}"
  | badEntry line display item error =>
    s!"line {line}: {display} entry {quote item}: {error.message quote}"
  | badNumber line display value error => s!"line {line}: {display} {quote value}: {error.message}"
  | noAddress => "[Interface] has no Address"

/-- An entry of a section: its key in lower case, its value, and its line. -/
structure Entry where
  key : String
  value : String
  line : Nat
  deriving DecidableEq, Repr

structure Section where
  entries : List Entry := []
  deriving DecidableEq, Repr

namespace Section

def set (s : Section) (key value : String) (line : Nat) : Section :=
  ⟨s.entries ++ [⟨toAsciiLowercase key, value, line⟩]⟩

def get (s : Section) (key : String) : Option (String × Nat) :=
  (s.entries.find? (·.key == key)).map fun e => (e.value, e.line)

def getAll (s : Section) (key : String) : List (String × Nat) :=
  (s.entries.filter (·.key == key)).map fun e => (e.value, e.line)

theorem get_eq (s : Section) (key : String) : s.get key = (s.getAll key).head? := by
  rw [get, getAll, List.head?_map, List.head?_filter]

end Section

/-- The items of a comma-separated value that are not blank. -/
def itemsOf (value : String) : List String :=
  (((split ',' value.toList).map trimChars).filter (· ≠ [])).map String.ofList

/-- The items of all values of a key, each with its line. -/
def Section.itemsOf (s : Section) (key : String) : List (String × Nat) :=
  (s.getAll key).flatMap fun (value, line) => (Vpnmgr.itemsOf value).map (·, line)

def parseList (s : Section) (key display : String) : Except WgConfError (List Cidr) :=
  (s.itemsOf key).mapM fun (item, line) =>
    (Cidr.fromStr item).mapError (.badEntry line display item)

def parseScalar (bits : Nat) (s : Section) (key display : String) :
    Except WgConfError (Option Nat) :=
  match s.get key with
  | none => .ok none
  | some (value, line) =>
    ((parseUnsigned bits value.toList).mapError (.badNumber line display value)).map some

/-- The key that a section must hold. -/
def requiredKey {α : Type} (fromBase64 : String → Except KeyError α) (s : Section)
    (key display : String) (missing : WgConfError) : Except WgConfError α :=
  match s.get key with
  | none => .error missing
  | some (raw, line) => (fromBase64 raw).mapError (.badKey line display)

/-- The key that a section may hold. -/
def optionalKey {α : Type} (fromBase64 : String → Except KeyError α) (s : Section)
    (key display : String) : Except WgConfError (Option α) :=
  match s.get key with
  | none => .ok none
  | some (raw, line) => ((fromBase64 raw).mapError (.badKey line display)).map some

def stripComment (line : List Char) : List Char := line.takeWhile fun c => c ≠ '#' ∧ c ≠ ';'

/-- What stands between the brackets of a section header. -/
def headerName (line : List Char) : Option (List Char) :=
  if line.head? = some '[' ∧ line.tail.getLast? = some ']' then some line.tail.dropLast else none

/-- The section that entries are added to. -/
inductive Current where
  | interface
  | peer
  deriving DecidableEq, Repr

/-- The sections read so far, the last `[Peer]` first. -/
structure Sections where
  interface : Section := {}
  peers : List Section := []
  current : Option Current := none
  deriving DecidableEq, Repr

namespace Sections

def set (s : Sections) (key value : String) (line : Nat) : Except WgConfError Sections :=
  match s.current, s.peers with
  | some .interface, _ => .ok { s with interface := s.interface.set key value line }
  | some .peer, peer :: peers => .ok { s with peers := peer.set key value line :: peers }
  -- a peer is current only after one was added
  | _, _ => .error (.outsideSection line key)

/-- One turn of the loop over the lines. -/
def readLine (s : Sections) (raw : List Char) (line : Nat) : Except WgConfError Sections :=
  let cs := trimChars (stripComment raw)
  if cs = [] then .ok s
  else
    match headerName cs with
    | some name =>
      let name := toAsciiLowercase (.ofList (trimChars name))
      if name = "interface" then .ok { s with current := some .interface }
      else if name = "peer" then .ok { s with peers := {} :: s.peers, current := some .peer }
      else .error (.unknownSection line name)
    | none =>
      match splitOnce '=' cs with
      | none => .error (.notKeyValue line)
      | some (key, value) => s.set (.ofList (trimChars key)) (.ofList (trimChars value)) line

def read (text : String) : Except WgConfError Sections :=
  ((linesOf text.toList).zipIdx 1).foldlM (fun s (raw, line) => s.readLine raw line) {}

def peer (s : Sections) : Except WgConfError Section :=
  match s.peers with
  | [peer] => .ok peer
  | [] => .error .noPeer
  | peers => .error (.severalPeers peers.length)

/-- The credentials, from what the lines gave. -/
def client (s : Sections) : Except WgConfError ClientConfig := do
  let peer ← s.peer
  let privateKey ←
    requiredKey SecretKey.fromBase64 s.interface "privatekey" "PrivateKey" .noPrivateKey
  let peerPublicKey ← requiredKey PublicKey.fromBase64 peer "publickey" "PublicKey" .noPublicKey
  let presharedKey ← optionalKey SecretKey.fromBase64 peer "presharedkey" "PresharedKey"
  let addresses ← parseList s.interface "address" "Address"
  if addresses = [] then throw .noAddress
  let allowedIps ← parseList peer "allowedips" "AllowedIPs"
  -- `wg`'s own default when the key is absent
  let allowedIps := if allowedIps = [] then Cidr.everywhere else allowedIps
  let names := (s.interface.itemsOf "dns").map (·.1)
  let mtu ← parseScalar 32 s.interface "mtu" "MTU"
  let persistentKeepalive ←
    parseScalar 16 peer "persistentkeepalive" "PersistentKeepalive"
  return {
    privateKey, addresses, mtu, peerPublicKey, presharedKey, allowedIps, persistentKeepalive
    -- search domains may be mixed in with the nameservers
    dns := names.filterMap IpAddr.parse
    searchDomains := names.filter fun name => IpAddr.parse name = none }

end Sections

/-- `ClientConfig::parse`. -/
def ClientConfig.parse (text : String) : Except WgConfError ClientConfig := do
  let sections ← Sections.read text
  sections.client

end Vpnmgr
