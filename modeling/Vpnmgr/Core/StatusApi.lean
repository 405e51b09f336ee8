import Vpnmgr.Core.Airvpn
import Vpnmgr.Library.Json

/-! The body of the provider's status page: which documents are read as a list of servers, and as
which one. -/

namespace Vpnmgr

open Fields Ieee Json
open Json.Value

variable {α : Type}

/-- Why a body is refused. The reasons are those of the reader, except for a `result` other than
`ok`. -/
inductive ApiError where
  | unreadable
  | decode (error : DecodeError String)
  | apiResult (result : String)
  deriving DecidableEq

/-- An unsigned integer below a limit. -/
def asBelow (limit : Nat) (name : String) : Value → Decoded String Nat
  | .int (.ofNat n) => if n < limit then .ok n else .error (.invalidValue name)
  | _ => .error (.invalidType name)

def asIpv4 (v : Value) : Decoded String (BitVec 32) := do
  match IpAddr.parseV4 (← asString v).toList with
  | some a => return a
  | none => throw (.custom "invalid IPv4 address syntax")

def asIpv6 (v : Value) : Decoded String (BitVec 128) := do
  match IpAddr.parseV6 (← asString v).toList with
  | some a => return a
  | none => throw (.custom "invalid IPv6 address syntax")

/-- Any name that is added later is of a server that is not used. -/
def Health.ofName : String → Health
  | "ok" => .ok
  | "error" => .error
  | _ => .unknown

/-- A name, or an object whose only field has the name and null for its data. -/
def Health.ofValue : Value → Decoded String Health
  | .string name => .ok (.ofName name)
  | .object [(name, .null)] => .ok (.ofName name)
  | _ => .error (.invalidType "string or map")

/-- A structure from an object, or from its fields in their order with the last ones left out. -/
def asFields (names : List String) (decode : (String → Option Value) → Decoded String α) :
    Value → Decoded String α
  | .object r => openStruct names decode r
  | .array vs =>
    if vs.length ≤ names.length then decode fun name => (names.zip vs).lookup name
    else .error (.invalidValue "fewer elements in array")
  | _ => .error (.invalidType "a map")

namespace Server

def fields : List String :=
  ["public_name", "country_name", "country_code", "location", "continent", "bw", "bw_max", "users",
    "currentload", "health", "warning", "ip_v4_in1", "ip_v4_in3", "ip_v6_in1"]

/-- The continent and the IPv6 address are checked, and used by nothing. -/
def ofFields (get : String → Option Value) : Decoded String Server := do
  let name ← required get "public_name" asString
  let countryName ← required get "country_name" asString
  let countryCode ← required get "country_code" asString
  let location ← required get "location" asString
  let _ ← required get "continent" asString
  let bw ← required get "bw" (asBelow (2 ^ 64) "u64")
  let bwMax ← required get "bw_max" (asBelow (2 ^ 64) "u64")
  let users ← required get "users" (asBelow (2 ^ 32) "u32")
  let load ← required get "currentload" (asBelow (2 ^ 32) "u32")
  let health ← required get "health" Health.ofValue
  let warning ← withDefault get "warning" (asOption asString) none
  let wgIpv4 ← required get "ip_v4_in1" asIpv4
  let wgIpv4Alt ← withDefault get "ip_v4_in3" (asOption asIpv4) none
  let _ ← withDefault get "ip_v6_in1" (asOption asIpv6) none
  return {
    name, countryName, countryCode, location, bw, bwMax, users, load, health, warning, wgIpv4
    wgIpv4Alt }

def ofValue : Value → Decoded String Server := asFields fields ofFields

end Server

namespace ServerList

def fields : List String := ["servers", "result"]

def ofFields (get : String → Option Value) : Decoded String (ServerList × Option String) := do
  let servers ← required get "servers" (asList Server.ofValue)
  let result ← withDefault get "result" (asOption asString) none
  return (⟨servers⟩, result)

/-- Decode and validate a document. Older ones have no `result`. -/
def ofDocument (v : Value) : Except ApiError ServerList :=
  match asFields fields ofFields v with
  | .error e => .error (.decode e)
  | .ok (list, none) | .ok (list, some "ok") => .ok list
  | .ok (_, some other) => .error (.apiResult other)

def fromJson (floats : Floats) (body : String) : Except ApiError ServerList :=
  match ofText floats body with
  | none => .error .unreadable
  | some v => ofDocument v

end ServerList

/-! ### What a document has to say -/

/-- The values a document gives to these names: no name twice, and no more values than names. -/
inductive HasFields (names : List String) : Value → (String → Option Value) → Prop where
  | object {r : Record Value} (h : duplicate (r.filter (·.1 ∈ names)) = none) :
    HasFields names (.object r) fun name => r.lookup name
  | array {vs : List Value} (h : vs.length ≤ names.length) :
    HasFields names (.array vs) fun name => (names.zip vs).lookup name

/-- A value that may be null, or not there. -/
def Optional (said : Value → α → Prop) (v : Option Value) (o : Option α) : Prop :=
  ((v = none ∨ v = some .null) ∧ o = none) ∨
    ∃ w a, v = some w ∧ w ≠ .null ∧ said w a ∧ o = some a

/-- A text that is the address. -/
def SaysIpv4 (v : Value) (a : BitVec 32) : Prop :=
  ∃ text, v = .string text ∧ IpAddr.parseV4 text.toList = some a

def SaysIpv6 (v : Value) (a : BitVec 128) : Prop :=
  ∃ text, v = .string text ∧ IpAddr.parseV6 text.toList = some a

/-- A name for the health of a server, tagged or not. -/
inductive SaysHealth : Value → Health → Prop where
  | named (name : String) : SaysHealth (.string name) (.ofName name)
  | tagged (name : String) : SaysHealth (.object [(name, .null)]) (.ofName name)

/-- The values say what there is to say of the server. -/
structure Server.Described (get : String → Option Value) (s : Server) : Prop where
  name : get "public_name" = some (.string s.name)
  countryName : get "country_name" = some (.string s.countryName)
  countryCode : get "country_code" = some (.string s.countryCode)
  location : get "location" = some (.string s.location)
  continent : ∃ text, get "continent" = some (.string text)
  bw : get "bw" = some (.ofNat s.bw) ∧ s.bw < 2 ^ 64
  bwMax : get "bw_max" = some (.ofNat s.bwMax) ∧ s.bwMax < 2 ^ 64
  users : get "users" = some (.ofNat s.users) ∧ s.users < 2 ^ 32
  load : get "currentload" = some (.ofNat s.load) ∧ s.load < 2 ^ 32
  health : ∃ v, get "health" = some v ∧ SaysHealth v s.health
  warning : Optional (fun v text => v = .string text) (get "warning") s.warning
  wgIpv4 : ∃ v, get "ip_v4_in1" = some v ∧ SaysIpv4 v s.wgIpv4
  wgIpv4Alt : Optional SaysIpv4 (get "ip_v4_in3") s.wgIpv4Alt
  wgIpv6 : ∃ o, Optional SaysIpv6 (get "ip_v6_in1") o

/-- The document describes the server. -/
def Server.DescribedBy (s : Server) (v : Value) : Prop :=
  ∃ get, HasFields Server.fields v get ∧ s.Described get

/-- The document lists the servers, and says that all is well if it says anything of that. -/
def ServerList.DescribedBy (list : ServerList) (v : Value) : Prop :=
  ∃ get vs, HasFields ServerList.fields v get ∧ get "servers" = some (.array vs) ∧
    List.Forall₂ Server.DescribedBy list.servers vs ∧
    (get "result" = none ∨ get "result" = some .null ∨ get "result" = some (.string "ok"))

/-! ### Reading it -/

theorem required_iff {get : String → Option Value} {name : String}
    {decode : Value → Decoded String α} {a : α} :
    required get name decode = .ok a ↔ ∃ v, get name = some v ∧ decode v = .ok a := by
  unfold required
  cases get name with
  | none => exact ⟨fun h => (by cases h), fun ⟨_, h, _⟩ => (by cases h)⟩
  | some v => exact ⟨fun h => ⟨v, rfl, h⟩, fun ⟨_, h, ha⟩ => (by cases h; exact ha)⟩

theorem Optional.congr {said said' : Value → α → Prop} (h : ∀ v a, said v a ↔ said' v a)
    {v : Option Value} {o : Option α} : Optional said v o ↔ Optional said' v o := by
  simp only [Optional, h]

theorem withDefault_iff {get : String → Option Value} {name : String}
    {decode : Value → Decoded String α} {o : Option α} :
    withDefault get name (asOption decode) none = .ok o ↔
      Optional (fun v a => decode v = .ok a) (get name) o := by
  unfold withDefault
  cases get name with
  | none =>
    refine ⟨fun h => .inl ⟨.inl rfl, by cases h; rfl⟩, ?_⟩
    rintro (⟨_, rfl⟩ | ⟨_, _, h, _⟩)
    · rfl
    · cases h
  | some v =>
    by_cases hv : v = .null
    · subst hv
      refine ⟨fun h => .inl ⟨.inr rfl, by cases h; rfl⟩, ?_⟩
      rintro (⟨_, rfl⟩ | ⟨w, _, h, hnull, _⟩)
      · rfl
      · cases h
        exact absurd rfl hnull
    · dsimp only
      rw [asOption_of_ne_null hv, map_ok]
      constructor
      · rintro ⟨a, ha, rfl⟩
        exact .inr ⟨v, a, rfl, hv, ha, rfl⟩
      · rintro (⟨h | h, _⟩ | ⟨w, a, h, _, ha, rfl⟩)
        · cases h
        · cases h
          exact absurd rfl hv
        · cases h
          exact ⟨a, ha, rfl⟩

theorem asString_iff {v : Value} {text : String} :
    (asString v : Decoded String String) = .ok text ↔ v = .string text := by
  cases v <;> simp [asString]

theorem asBelow_iff {limit : Nat} {name : String} {v : Value} {n : Nat} :
    asBelow limit name v = .ok n ↔ v = .ofNat n ∧ n < limit := by
  unfold asBelow ofNat
  split
  · next m =>
    by_cases hm : m < limit
    · rw [if_pos hm]
      constructor
      · rintro ⟨⟩
        exact ⟨rfl, hm⟩
      · rintro ⟨h, _⟩
        cases h
        rfl
    · rw [if_neg hm]
      refine ⟨fun h => (by cases h), ?_⟩
      rintro ⟨h, hn⟩
      cases h
      exact absurd hn hm
  · next hother =>
    refine ⟨fun h => (by cases h), ?_⟩
    rintro ⟨rfl, _⟩
    exact absurd rfl (hother n)

theorem asIpv4_iff {v : Value} {a : BitVec 32} : asIpv4 v = .ok a ↔ SaysIpv4 v a := by
  unfold asIpv4
  rw [bind_ok]
  constructor
  · rintro ⟨text, htext, h⟩
    refine ⟨text, asString_iff.mp htext, ?_⟩
    cases hparse : IpAddr.parseV4 text.toList with
    | none => rw [hparse] at h; cases h
    | some b => rw [hparse] at h; cases h; rfl
  · rintro ⟨text, rfl, hparse⟩
    exact ⟨text, rfl, by rw [hparse]; rfl⟩

theorem asIpv6_iff {v : Value} {a : BitVec 128} : asIpv6 v = .ok a ↔ SaysIpv6 v a := by
  unfold asIpv6
  rw [bind_ok]
  constructor
  · rintro ⟨text, htext, h⟩
    refine ⟨text, asString_iff.mp htext, ?_⟩
    cases hparse : IpAddr.parseV6 text.toList with
    | none => rw [hparse] at h; cases h
    | some b => rw [hparse] at h; cases h; rfl
  · rintro ⟨text, rfl, hparse⟩
    exact ⟨text, rfl, by rw [hparse]; rfl⟩

theorem Health.ofValue_iff {v : Value} {health : Health} :
    Health.ofValue v = .ok health ↔ SaysHealth v health := by
  constructor
  · intro h
    unfold Health.ofValue at h
    split at h
    · cases h; exact .named _
    · cases h; exact .tagged _
    · cases h
  · rintro (_ | _) <;> rfl

theorem asFields_iff {names : List String} {decode : (String → Option Value) → Decoded String α}
    {v : Value} {a : α} : asFields names decode v = .ok a ↔
      ∃ get, HasFields names v get ∧ decode get = .ok a := by
  constructor
  · intro h
    unfold asFields at h
    split at h
    · next r =>
      unfold openStruct at h
      split at h
      · cases h
      · next hnone => exact ⟨_, .object hnone, h⟩
    · split at h
      · next hlength => exact ⟨_, .array hlength, h⟩
      · cases h
    · cases h
  · rintro ⟨get, hfields, h⟩
    cases hfields with
    | object hnone =>
      rw [asFields, openStruct, hnone]
      exact h
    | array hlength =>
      rw [asFields, if_pos hlength]
      exact h

theorem mapM_iff {decode : Value → Decoded String α} {vs : List Value} {as : List α} :
    vs.mapM decode = .ok as ↔ List.Forall₂ (fun a v => decode v = .ok a) as vs := by
  induction vs generalizing as with
  | nil =>
    rw [List.mapM_nil]
    exact ⟨fun h => (by cases h; exact .nil), fun h => (by cases h; rfl)⟩
  | cons v vs ih =>
    rw [List.mapM_cons, bind_ok]
    constructor
    · rintro ⟨a, ha, h⟩
      obtain ⟨bs, hbs, h⟩ := bind_ok.mp h
      cases h
      exact .cons ha (ih.mp hbs)
    · intro h
      cases h with
      | cons ha hrest => exact ⟨_, ha, bind_ok.mpr ⟨_, ih.mpr hrest, rfl⟩⟩

theorem required_string {get : String → Option Value} {name text : String} :
    (required get name asString : Decoded String String) = .ok text ↔
      get name = some (.string text) := by
  rw [required_iff]
  constructor
  · rintro ⟨v, hv, htext⟩
    rw [hv, asString_iff.mp htext]
  · exact fun h => ⟨_, h, rfl⟩

theorem required_below {get : String → Option Value} {name kind : String} {limit n : Nat} :
    required get name (asBelow limit kind) = .ok n ↔ get name = some (.ofNat n) ∧ n < limit := by
  rw [required_iff]
  constructor
  · rintro ⟨v, hv, hn⟩
    obtain ⟨rfl, hlt⟩ := asBelow_iff.mp hn
    exact ⟨hv, hlt⟩
  · rintro ⟨hv, hlt⟩
    exact ⟨_, hv, asBelow_iff.mpr ⟨rfl, hlt⟩⟩

theorem Server.ofFields_iff {get : String → Option Value} {s : Server} :
    Server.ofFields get = .ok s ↔ s.Described get := by
  unfold Server.ofFields
  simp only [bind_ok, required_string, required_below]
  simp only [required_iff, withDefault_iff, asIpv4_iff, asIpv6_iff, asString_iff,
    Health.ofValue_iff]
  constructor
  · rintro ⟨name, hname, countryName, hcountryName, countryCode, hcountryCode, location, hlocation,
      continent, hcontinent, bw, hbw, bwMax, hbwMax, users, husers, load, hload, health, hhealth,
      warning, hwarning, wgIpv4, hipv4, wgIpv4Alt, halt, wgIpv6, hipv6, h⟩
    cases h
    exact ⟨hname, hcountryName, hcountryCode, hlocation, ⟨_, hcontinent⟩, hbw, hbwMax, husers, hload,
      hhealth, hwarning, hipv4, halt, ⟨_, hipv6⟩⟩
  · intro h
    obtain ⟨continent, hcontinent⟩ := h.continent
    obtain ⟨wgIpv6, hipv6⟩ := h.wgIpv6
    exact ⟨_, h.name, _, h.countryName, _, h.countryCode, _, h.location, _, hcontinent, _, h.bw, _,
      h.bwMax, _, h.users, _, h.load, _, h.health, _, h.warning, _, h.wgIpv4, _, h.wgIpv4Alt, _,
      hipv6, rfl⟩

theorem Server.ofValue_iff {v : Value} {s : Server} :
    Server.ofValue v = .ok s ↔ s.DescribedBy v := by
  rw [Server.ofValue, asFields_iff]
  simp only [Server.ofFields_iff]
  rfl

theorem asServers_iff {v : Value} {servers : List Server} :
    asList Server.ofValue v = .ok servers ↔
      ∃ vs, v = .array vs ∧ List.Forall₂ Server.DescribedBy servers vs := by
  cases v with
  | array vs =>
    rw [asList, mapM_iff]
    simp only [Server.ofValue_iff, Value.array.injEq, exists_eq_left']
  | _ => simp [asList]

/-- A document is accepted as a list exactly where it describes the list. -/
theorem ServerList.accepted_iff {v : Value} {list : ServerList} :
    (asFields fields ofFields v = .ok (list, none) ∨
      asFields fields ofFields v = .ok (list, some "ok")) ↔ list.DescribedBy v := by
  simp only [asFields_iff, ofFields, bind_ok, required_iff, withDefault_iff, asServers_iff,
    asString_iff]
  constructor
  · rintro (⟨get, hfields, servers, ⟨_, hget, vs, rfl, hall⟩, result, hresult, h⟩ |
      ⟨get, hfields, servers, ⟨_, hget, vs, rfl, hall⟩, result, hresult, h⟩)
    · cases h
      refine ⟨get, vs, hfields, hget, hall, ?_⟩
      rcases hresult with ⟨hnone | hnull, _⟩ | ⟨_, _, _, _, _, h⟩
      · exact .inl hnone
      · exact .inr (.inl hnull)
      · cases h
    · cases h
      refine ⟨get, vs, hfields, hget, hall, ?_⟩
      rcases hresult with ⟨_, h⟩ | ⟨_, _, hsome, _, rfl, h⟩
      · cases h
      · cases h
        exact .inr (.inr hsome)
  · rintro ⟨get, vs, hfields, hget, hall, hresult⟩
    have hservers : ∃ v, get "servers" = some v ∧
        ∃ vs, v = .array vs ∧ List.Forall₂ Server.DescribedBy list.servers vs :=
      ⟨_, hget, vs, rfl, hall⟩
    rcases hresult with hnone | hnull | hok
    · exact .inl ⟨get, hfields, list.servers, hservers, none, .inl ⟨.inl hnone, rfl⟩, rfl⟩
    · exact .inl ⟨get, hfields, list.servers, hservers, none, .inl ⟨.inr hnull, rfl⟩, rfl⟩
    · exact .inr ⟨get, hfields, list.servers, hservers, some "ok",
        .inr ⟨_, _, hok, nofun, rfl, rfl⟩, rfl⟩

/-- A document is accepted as a list exactly where it describes the list: its fields in any order and
among any others, or in a row. -/
theorem ServerList.ofDocument_ok {v : Value} {list : ServerList} :
    ofDocument v = .ok list ↔ list.DescribedBy v := by
  rw [← accepted_iff]
  unfold ofDocument
  split
  · next hdecode =>
    rw [hdecode]
    refine ⟨fun h => (by cases h), ?_⟩
    rintro (h | h) <;> cases h
  · next hdecode => rw [hdecode]; simp
  · next hdecode => rw [hdecode]; simp
  · next other hother hdecode =>
    refine ⟨fun h => (by cases h), ?_⟩
    rw [hdecode]
    rintro (h | h)
    · cases h
    · cases h
      exact absurd rfl hother

theorem ServerList.fromJson_ok {floats : Floats} {body : String} {list : ServerList} :
    fromJson floats body = .ok list ↔
      ∃ v, ofText floats body = some v ∧ list.DescribedBy v := by
  unfold fromJson
  cases htext : ofText floats body with
  | none => exact ⟨fun h => (by cases h), fun ⟨_, h, _⟩ => (by cases h)⟩
  | some v =>
    dsimp only
    rw [ofDocument_ok]
    exact ⟨fun h => ⟨v, rfl, h⟩, fun ⟨_, h, hv⟩ => (by cases h; exact hv)⟩

/-! ### Other fields, and other orders -/

theorem Server.Described.congr {get get' : String → Option Value} {s : Server}
    (h : ∀ name ∈ Server.fields, get' name = get name) (hs : s.Described get) :
    s.Described get' := by
  simp only [Server.fields, List.forall_mem_cons] at h
  obtain ⟨hname, hcountryName, hcountryCode, hlocation, hcontinent, hbw, hbwMax, husers, hload,
    hhealth, hwarning, hipv4, halt, hipv6, -⟩ := h
  constructor
  · rw [hname]; exact hs.name
  · rw [hcountryName]; exact hs.countryName
  · rw [hcountryCode]; exact hs.countryCode
  · rw [hlocation]; exact hs.location
  · rw [hcontinent]; exact hs.continent
  · rw [hbw]; exact hs.bw
  · rw [hbwMax]; exact hs.bwMax
  · rw [husers]; exact hs.users
  · rw [hload]; exact hs.load
  · rw [hhealth]; exact hs.health
  · rw [hwarning]; exact hs.warning
  · rw [hipv4]; exact hs.wgIpv4
  · rw [halt]; exact hs.wgIpv4Alt
  · rw [hipv6]; exact hs.wgIpv6

/-- Two documents of a server that differ in the order of its fields and in others. -/
def Server.SameIn (v v' : Value) : Prop :=
  v = v' ∨ ∃ r r', v = .object r ∧ v' = .object r' ∧ Alike Server.fields r r'

theorem Server.SameIn.symm {v v' : Value} (h : Server.SameIn v v') : Server.SameIn v' v := by
  rcases h with rfl | ⟨r, r', rfl, rfl, halike⟩
  · exact .inl rfl
  · exact .inr ⟨r', r, rfl, rfl, halike.symm⟩

theorem Server.SameIn.described {v v' : Value} (h : Server.SameIn v v') {s : Server}
    (hs : s.DescribedBy v) : s.DescribedBy v' := by
  rcases h with rfl | ⟨r, r', rfl, rfl, halike⟩
  · exact hs
  · obtain ⟨get, hfields, hdescribed⟩ := hs
    cases hfields with
    | object hnone =>
      obtain ⟨hnone', hsame⟩ := halike.fields hnone
      exact ⟨_, .object hnone', hdescribed.congr hsame⟩

/-- Two documents of a list that differ in the order of fields and in others, those of the servers
included. -/
structure ServerList.SameIn (r r' : Record Value) : Prop where
  fields : ∃ vs vs' rest, List.Forall₂ Server.SameIn vs vs' ∧
    (r.filter (·.1 ∈ ServerList.fields)).Perm (("servers", .array vs) :: rest) ∧
    (r'.filter (·.1 ∈ ServerList.fields)).Perm (("servers", .array vs') :: rest)

theorem ServerList.SameIn.symm {r r' : Record Value} (h : ServerList.SameIn r r') :
    ServerList.SameIn r' r := by
  obtain ⟨vs, vs', rest, hall, hr, hr'⟩ := h.fields
  exact ⟨vs', vs, rest, (hall.flip).imp fun _ _ h => Server.SameIn.symm h, hr', hr⟩

/-- A record whose fields of these names are a row is like the row. -/
theorem alike_of_perm {names : List String} {r row : Record Value}
    (h : (r.filter (·.1 ∈ names)).Perm row) : Alike names row r := by
  have hall : row.filter (·.1 ∈ names) = row :=
    List.filter_eq_self.mpr fun e he => (List.mem_filter.mp (h.mem_iff.mpr he)).2
  rw [Alike, hall]
  exact h.symm

theorem described_same {servers : List Server} {vs vs' : List Value}
    (h : List.Forall₂ Server.DescribedBy servers vs) (hsame : List.Forall₂ Server.SameIn vs vs') :
    List.Forall₂ Server.DescribedBy servers vs' := by
  induction h generalizing vs' with
  | nil =>
    cases hsame
    exact .nil
  | cons hfirst _ ih =>
    cases hsame with
    | cons hv hrest => exact .cons (hv.described hfirst) (ih hrest)

theorem ServerList.SameIn.described {r r' : Record Value} (h : ServerList.SameIn r r')
    {list : ServerList} (hlist : list.DescribedBy (.object r)) : list.DescribedBy (.object r') := by
  obtain ⟨vs, vs', rest, hsame, hr, hr'⟩ := h.fields
  obtain ⟨get, us, hfields, hservers, hall, hresult⟩ := hlist
  cases hfields with
  | object hnone =>
    have hrow : duplicate ((("servers", .array vs') :: rest : Record Value)) = none :=
      duplicate_eq_none ((hr.map Prod.fst).nodup_iff.mp (nodup_of_duplicate hnone))
    have hrow' : (("servers", .array vs') :: rest).filter (·.1 ∈ ServerList.fields) =
        ("servers", .array vs') :: rest :=
      List.filter_eq_self.mpr fun e he => (List.mem_filter.mp (hr'.mem_iff.mpr he)).2
    have hsecond := (alike_of_perm hr').fields (by rw [hrow']; exact hrow)
    have hlike : Alike ServerList.fields r (("servers", .array vs) :: rest) :=
      (alike_of_perm hr).symm
    have hfirst := hlike.fields hnone
    have hvs : us = vs := by
      have hget := (hfirst.2 "servers" (by decide)).trans hservers
      cases hget
      rfl
    have hother : r'.lookup "result" = r.lookup "result" :=
      (hsecond.2 "result" (by decide)).trans (hfirst.2 "result" (by decide))
    subst hvs
    refine ⟨_, vs', .object hsecond.1, hsecond.2 "servers" (by decide), described_same hall hsame, ?_⟩
    exact hother ▸ hresult

/-- Nothing that is read of a list changes with the order in which its fields and those of its servers
are written, or with fields beside them. -/
theorem ServerList.ofDocument_same {r r' : Record Value} (h : ServerList.SameIn r r')
    (list : ServerList) :
    ofDocument (.object r) = .ok list ↔ ofDocument (.object r') = .ok list := by
  rw [ofDocument_ok, ofDocument_ok]
  exact ⟨h.described, h.symm.described⟩

namespace Sample

/-- The fields of a server, with the health in the form of a tagged name. -/
def published : Record Value := [
  ("public_name", .string "Achernar"), ("country_name", .string "Switzerland"),
  ("country_code", .string "ch"), ("location", .string "Zurich"), ("continent", .string "Europe"),
  ("bw", .int 1899), ("bw_max", .int 2000), ("users", .int 285), ("currentload", .int 94),
  ("health", .object [("ok", .null)]), ("ip_v4_in1", .string "185.156.175.170")]

/-- The same server in the reverse order, with an address that is not used. -/
def republished : Record Value :=
  ("ip_v4_in2", .string "185.156.175.172") :: published.reverse

theorem republished_alike : Alike Server.fields published republished := by
  have hskip : republished.filter (·.1 ∈ Server.fields) =
      (published.filter (·.1 ∈ Server.fields)).reverse := by
    rw [republished, List.filter_cons_of_neg (by decide), List.filter_reverse]
  rw [Alike, hskip]
  exact (List.reverse_perm _).symm

def page (servers : Value) : Record Value := [("servers", servers), ("result", .string "ok")]

/-- A page that says first how old its fields are. -/
def laterPage (servers : Value) : Record Value :=
  [("deprecated_warning", .string "'ip_entry' is deprecated"), ("result", .string "ok"),
    ("servers", servers)]

theorem pages_same : ServerList.SameIn (page (.array [.object published]))
    (laterPage (.array [.object republished])) where
  fields := by
    refine ⟨_, _, [("result", .string "ok")], .cons (.inr ⟨_, _, rfl, rfl, republished_alike⟩) .nil,
      ?_, ?_⟩
    · exact .refl _
    · exact List.Perm.swap _ _ _

end Sample

theorem republished_same : ServerList.ofDocument
      (.object (Sample.page (.array [.object Sample.published]))) = .ok ⟨[⟨"Achernar",
        "Switzerland", "ch", "Zurich", 1899, 2000, 285, 94, .ok, none, 0xb99cafaa, none⟩]⟩ ↔
    ServerList.ofDocument (.object (Sample.laterPage (.array [.object Sample.republished]))) =
      .ok ⟨[⟨"Achernar", "Switzerland", "ch", "Zurich", 1899, 2000, 285, 94, .ok, none, 0xb99cafaa,
        none⟩]⟩ :=
  ServerList.ofDocument_same Sample.pages_same _

end Vpnmgr
