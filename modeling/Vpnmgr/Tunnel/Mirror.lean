import Vpnmgr.Library.Collapse
import Vpnmgr.Library.Words
import Vpnmgr.Tunnel.Lan

/-! The routes of other VPNs as they are read off a dump of the routing tables, on each backend, and
on Linux what a dump is made of and which of its routes are to be mirrored. -/

namespace Vpnmgr

open Text Collapse

/-- Prefixes that must never be mirrored into the main table. -/
def neverMirror : List String := ["fe80:", "ff00:", "169.254.", "224.0.0."]

/-- The routes that lines give, each destination once and by the first line that has it. -/
def mirrorLines (mirrored : List Char → Option Route) (lines : List (List Char)) : List Route :=
  (lines.foldl (fun s line =>
    match mirrored line with
    | none => s
    | some r => meet Route.destination s r) ([], [])).2

namespace Linux

/-- Interface name prefixes treated as another VPN. -/
def vpnInterfaces : List String := ["tailscale", "tun", "tap", "wg", "ppp", "zt"]

def isVpnInterface (name : String) : Bool := vpnInterfaces.any (startsWith name)

/-- The token after the last `dev`, as a loop over the tokens finds it. -/
def lastDevice (device : Option String) : List String → Option String
  | [] => device
  | token :: rest =>
    if token = "dev" then
      match rest with
      | [] => none
      | name :: rest => lastDevice (some name) rest
    else lastDevice device rest

/-- The tokens of a line. -/
def tokensOf (line : List Char) : List String := (splitWhitespace line).map String.ofList

/-- The route that the tokens of a line give, if it is to be mirrored. -/
def mirroredTokens (ourInterface : String) (tokens : List String) : Option Route :=
  match tokens with
  | [] => none
  | destination :: _ =>
    if destination = "default" ∨ destination = "multicast" then none
    else if destination ∈ ["local", "broadcast", "unreachable", "prohibit"] then none
    else if neverMirror.any (startsWith destination) then none
    else
      match lastDevice none tokens with
      | none => none
      | some device =>
        if device = ourInterface ∨ isVpnInterface device = false then none
        else some ⟨destination, .device device⟩

def mirrored (ourInterface : String) (line : List Char) : Option Route :=
  mirroredTokens ourInterface (tokensOf line)

/-- Destinations served by other VPN interfaces, from what `ip route show table all` prints for each
family, or nothing where it fails. -/
def otherVpnRoutes (ourInterface : String) (outputs : List (Option String)) : List Route :=
  mirrorLines (mirrored ourInterface)
    (outputs.flatMap fun output => output.elim [] fun text => linesOf text.toList)

end Linux

namespace Windows

def vpnAliases : List String := ["tailscale", "wireguard", "wintun", "openvpn", "tap-", "zerotier"]

/-- The route that a line of destination, interface index and alias gives, if it is to be mirrored. -/
def mirrored (ourInterface : String) (line : List Char) : Option Route :=
  match split '\t' line with
  | destination :: index :: alias_ :: _ =>
    let destination := String.ofList (trimChars destination)
    let lower := toAsciiLowercase (String.ofList (trimChars alias_))
    if destination = "0.0.0.0/0" ∨ destination = "::/0" then none
    else if neverMirror.any (startsWith destination) then none
    else if hasText lower (toAsciiLowercase ourInterface) then none
    else if !vpnAliases.any (hasText lower) then none
    else some ⟨destination, .device (String.ofList (trimChars index))⟩
  | _ => none

/-- Destinations served by other VPN adapters, from what `Get-NetRoute` prints, if it runs. -/
def otherVpnRoutes (ourInterface : String) (output : Option String) : List Route :=
  mirrorLines (mirrored ourInterface) (output.elim [] fun text => linesOf text.toList)

end Windows

/-! ### The loop -/

theorem mirrorLines_eq (mirrored : List Char → Option Route) (lines : List (List Char)) :
    mirrorLines mirrored lines =
      ((lines.filterMap mirrored).foldl (meet Route.destination) ([], [])).2 := by
  unfold mirrorLines
  congr 1
  generalize (([], []) : List String × List Route) = s
  induction lines generalizing s with
  | nil => rfl
  | cons line lines ih =>
    rw [List.foldl_cons, List.filterMap_cons]
    cases mirrored line with
    | none => exact ih s
    | some r => exact ih _

/-- What is mirrored is what lines give, no destination twice, and every destination given. -/
theorem mirrorLines_spec (mirrored : List Char → Option Route) (lines : List (List Char)) :
    ((mirrorLines mirrored lines).map Route.destination).Nodup ∧
    (∀ r ∈ mirrorLines mirrored lines, ∃ line ∈ lines, mirrored line = some r) ∧
    ∀ line ∈ lines, ∀ r, mirrored line = some r →
      ∃ r' ∈ mirrorLines mirrored lines, r'.destination = r.destination := by
  rw [mirrorLines_eq]
  obtain ⟨hkeys, hfrom, hall⟩ := foldl_meet Route.destination (lines.filterMap mirrored) ([], [])
    (by simp) List.nodup_nil
  refine ⟨hkeys, fun r hr => ?_, fun line hline r hr => ?_⟩
  · rcases hfrom r hr with h | h
    · cases h
    · obtain ⟨line, hline, hr⟩ := List.mem_filterMap.mp h
      exact ⟨line, hline, hr⟩
  · exact hall r (by simpa using ⟨line, hline, hr⟩)

/-! ### What `ip route show table all` prints -/

/-- Whether a prefix lies within another. -/
def Cidr.within (c range : Cidr) : Bool :=
  decide (range.prefixLen ≤ c.prefixLen) && range.contains c.addr

/-- The ranges whose addresses belong to their links: link-local and multicast of both versions. -/
def perLinkRanges : List Cidr :=
  [.linkLocalV6, .linkLocalV4, .multicastV6, .multicastV4]

/-- How prefixes are spelled: each so that it is read back. -/
structure Spelling where
  text : Cidr → String
  read : ∀ c, Cidr.parse (text c) = some c

theorem Spelling.text_ne (spelling : Spelling) (c : Cidr) {word : String}
    (h : Cidr.parse word = none) : spelling.text c ≠ word := by
  intro heq
  have hread := spelling.read c
  rw [heq, h] at hread
  cases hread

theorem Spelling.text_injective (spelling : Spelling) : Function.Injective spelling.text := by
  intro c c' heq
  have hread := spelling.read c
  rw [heq, spelling.read c'] at hread
  exact (Option.some.inj hread).symm

/-- An address by itself is read as the prefix of it alone. -/
theorem Cidr.parse_address (addr : IpAddr) : parse addr.display = some (host addr) := by
  have hplain : ∀ d ∈ addr.display.toList, IpAddr.IsPlain d := fun _ hd =>
    IpAddr.isPlain_of_mem (IpAddr.mem_display hd)
  have htrim : trimChars addr.display.toList = addr.display.toList :=
    trimChars_of_not_whitespace fun d hd => (hplain d hd).2
  have hwhole : splitOnce '/' addr.display.toList = none := by
    by_contra hsplit
    obtain ⟨⟨a, b⟩, hsplit⟩ := Option.ne_none_iff_exists'.mp hsplit
    have hslash : '/' ∈ addr.display.toList := by
      rw [splitOnce_eq_some hsplit]
      simp
    exact (hplain '/' hslash).1 rfl
  have hparsed := IpAddr.parse_display addr
  rw [IpAddr.parse] at hparsed
  simp only [parse, htrim, hwhole, hparsed, Option.map_some]

/-- Prefixes as `ip` spells them, those of one address without a length. -/
def Spelling.iproute : Spelling where
  text c := if c.prefixLen = c.addr.width then c.addr.display else c.display
  read c := by
    by_cases hhost : c.prefixLen = c.addr.width
    · rw [if_pos hhost, Cidr.parse_address]
      obtain ⟨addr, n, fits⟩ := c
      change n = addr.width at hhost
      subst hhost
      rfl
    · rw [if_neg hhost, Cidr.parse_display]

namespace Linux

/-- A type of route. -/
inductive RouteType where
  | unicast
  | localHost
  | broadcast
  | anycast
  | multicast
  | blackhole
  | unreachable
  | prohibit
  | throw
  | nat
  | xresolve
  deriving DecidableEq

def RouteType.keyword : RouteType → String
  | unicast => "unicast"
  | localHost => "local"
  | broadcast => "broadcast"
  | anycast => "anycast"
  | multicast => "multicast"
  | blackhole => "blackhole"
  | unreachable => "unreachable"
  | prohibit => "prohibit"
  | throw => "throw"
  | nat => "nat"
  | xresolve => "xresolve"

/-- No keyword reads as a prefix. -/
theorem RouteType.parse_keyword (type : RouteType) : Cidr.parse type.keyword = none := by
  cases type <;> decide

/-- The types whose lines are skipped by their keyword. -/
def RouteType.skipped : List RouteType := [localHost, broadcast, multicast, unreachable, prohibit]

/-- A line of a dump: the keyword of a type or none, a prefix or the default, and attributes, a
device among them or none. A prefix of no length is shown as the default. -/
structure RouteLine where
  type : Option RouteType
  destination : Option Cidr
  before : List String
  device : Option String
  after : List String
  specific : ∀ c ∈ destination, c.prefixLen ≠ 0
  noDevBefore : "dev" ∉ before
  noDevAfter : "dev" ∉ after

namespace RouteLine

variable (spelling : Spelling) (ourInterface : String) (l : RouteLine)

/-- The word for the destination. -/
def destinationText : String := (l.destination.map spelling.text).getD "default"

def tokens : List String :=
  (l.type.map RouteType.keyword).toList ++ [l.destinationText spelling] ++ l.before ++
    (l.device.toList.flatMap fun name => ["dev", name]) ++ l.after

/-- The device of the line, if it is a VPN interface other than our own. -/
def otherVpn : Option String :=
  l.device.filter fun name => name != ourInterface && isVpnInterface name

/-- What is to be mirrored of a line: a unicast prefix of another VPN that is not kept to its link. -/
def served : Option (Cidr × String) :=
  match l.destination, l.otherVpn ourInterface with
  | some c, some name =>
    if (l.type = none ∨ l.type = some .unicast) ∧ perLinkRanges.any c.within = false then
      some (c, name)
    else none
  | _, _ => none

/-- A line of another VPN is read as it is meant: its keyword is one that is skipped, or there is
none and the prefixes of text that are never mirrored tell whether it is kept to its link. -/
def Readable : Prop :=
  (l.otherVpn ourInterface).isSome = true →
    match l.type with
    | some type => type ∈ RouteType.skipped
    | none => ∀ c ∈ l.destination,
        neverMirror.any (startsWith (spelling.text c)) = perLinkRanges.any c.within

end RouteLine

/-- What mirroring is to make of the lines of a dump: the served prefixes, each once. -/
structure Mirrors (spelling : Spelling) (ourInterface : String) (lines : List RouteLine)
    (routes : List Route) : Prop where
  served : ∀ r ∈ routes, ∃ l ∈ lines, ∃ c name, l.served ourInterface = some (c, name) ∧
    r = ⟨spelling.text c, .device name⟩
  complete : ∀ l ∈ lines, ∀ c name, l.served ourInterface = some (c, name) →
    ∃ r ∈ routes, r.destination = spelling.text c
  once : (routes.map Route.destination).Nodup

/-! ### Reading a line -/

theorem lastDevice_append {words : List String} (h : "dev" ∉ words) (device : Option String)
    (rest : List String) : lastDevice device (words ++ rest) = lastDevice device rest := by
  induction words with
  | nil => rfl
  | cons word words ih =>
    rw [List.mem_cons, not_or] at h
    rw [List.cons_append, lastDevice.eq_def]
    dsimp only
    rw [if_neg (Ne.symm h.1), ih h.2]

theorem mirroredTokens_not_never {ourInterface : String} {tokens : List String} {r : Route}
    (h : mirroredTokens ourInterface tokens = some r) :
    ¬neverMirror.any (startsWith r.destination) = true := by
  unfold mirroredTokens at h
  split at h
  · cases h
  · split at h
    · cases h
    · split at h
      · cases h
      · split at h
        · cases h
        · next hnever =>
          split at h
          · cases h
          · split at h
            · cases h
            · cases h
              exact hnever

namespace RouteLine

variable (spelling : Spelling) (ourInterface : String) (l : RouteLine)

theorem destinationText_ne_dev : l.destinationText spelling ≠ "dev" := by
  unfold destinationText
  cases l.destination with
  | none => exact (by decide : "default" ≠ "dev")
  | some c => exact spelling.text_ne c (by decide)

/-- The loop over the tokens finds the device of the line. -/
theorem lastDevice_tokens : lastDevice none (l.tokens spelling) = l.device := by
  have htype : "dev" ∉ (l.type.map RouteType.keyword).toList := by
    cases l.type with
    | none => simp
    | some type => cases type <;> decide
  have hbefore : "dev" ∉ (l.type.map RouteType.keyword).toList ++ [l.destinationText spelling] ++
      l.before := by
    simp only [List.mem_append, List.mem_singleton, not_or]
    exact ⟨⟨htype, (l.destinationText_ne_dev spelling).symm⟩, l.noDevBefore⟩
  have hafter : ∀ device, lastDevice device l.after = device := by
    intro device
    have hend := lastDevice_append l.noDevAfter device []
    rwa [List.append_nil] at hend
  rw [tokens, List.append_assoc, lastDevice_append hbefore]
  cases l.device with
  | none => exact hafter none
  | some name => exact hafter (some name)

theorem served_eq_some {c : Cidr} {name : String} (h : l.served ourInterface = some (c, name)) :
    l.destination = some c ∧ perLinkRanges.any c.within = false := by
  unfold served at h
  split at h
  · next hdestination _ =>
    split at h
    · next hunicast =>
      cases h
      exact ⟨hdestination, hunicast.2⟩
    · cases h
  · cases h

/-- The words that a line is skipped by, as its first. -/
def skips (word : String) : Prop :=
  (word = "default" ∨ word = "multicast") ∨
    word ∈ ["local", "broadcast", "unreachable", "prohibit"] ∨
    neverMirror.any (startsWith word) = true

instance (word : String) : Decidable (skips word) := inferInstanceAs (Decidable (_ ∨ _ ∨ _))

/-- What is read off a line: its first word, unless the line is skipped by that, with its device, if
that is another VPN. -/
theorem mirroredTokens_word {word : String} {rest : List String}
    (h : l.tokens spelling = word :: rest) : mirroredTokens ourInterface (l.tokens spelling) =
      if skips word then none
      else (l.otherVpn ourInterface).map fun name => ⟨word, .device name⟩ := by
  have hdevice := l.lastDevice_tokens spelling
  rw [h] at hdevice ⊢
  unfold mirroredTokens
  dsimp only
  by_cases hfirst : word = "default" ∨ word = "multicast"
  · have hskips : skips word := .inl hfirst
    rw [if_pos hfirst, if_pos hskips]
  by_cases hsecond : word ∈ ["local", "broadcast", "unreachable", "prohibit"]
  · have hskips : skips word := .inr (.inl hsecond)
    rw [if_neg hfirst, if_pos hsecond, if_pos hskips]
  by_cases hthird : neverMirror.any (startsWith word) = true
  · have hskips : skips word := .inr (.inr hthird)
    rw [if_neg hfirst, if_neg hsecond, if_pos hthird, if_pos hskips]
  have hskips : ¬skips word := by
    rintro (h | h | h)
    · exact hfirst h
    · exact hsecond h
    · exact hthird h
  rw [if_neg hfirst, if_neg hsecond, if_neg hthird, if_neg hskips, hdevice, otherVpn]
  cases l.device with
  | none => rfl
  | some name =>
    by_cases hours : name = ourInterface
    · simp [Option.filter, hours]
    · cases hvpn : isVpnInterface name <;> simp [Option.filter, hours, hvpn]

theorem skips_keyword (type : RouteType) : skips type.keyword ↔ type ∈ RouteType.skipped := by
  cases type <;> decide

theorem skips_text (c : Cidr) : skips (spelling.text c) ↔
    neverMirror.any (startsWith (spelling.text c)) = true := by
  have hword : ∀ word ∈ ["default", "multicast", "local", "broadcast", "unreachable", "prohibit"],
      spelling.text c ≠ word := by
    intro word hword
    apply spelling.text_ne
    revert word
    decide
  simp only [List.forall_mem_cons] at hword
  simp [skips, hword]

/-- What is read off a line of another VPN: a keyword that is not skipped, or the prefix. -/
theorem mirrored_tokens : mirroredTokens ourInterface (l.tokens spelling) =
    (l.otherVpn ourInterface).bind fun name =>
      match l.type with
      | some type => if type ∈ RouteType.skipped then none else some ⟨type.keyword, .device name⟩
      | none => l.destination.bind fun c =>
          if neverMirror.any (startsWith (spelling.text c)) then none
          else some ⟨spelling.text c, .device name⟩ := by
  cases htype : l.type with
  | some type =>
    have htokens : ∃ rest, l.tokens spelling = type.keyword :: rest := by simp [tokens, htype]
    obtain ⟨rest, htokens⟩ := htokens
    rw [l.mirroredTokens_word spelling ourInterface htokens]
    by_cases hskips : type ∈ RouteType.skipped
    · rw [if_pos ((skips_keyword type).mpr hskips)]
      cases l.otherVpn ourInterface <;> simp [hskips]
    · rw [if_neg fun h => hskips ((skips_keyword type).mp h)]
      cases l.otherVpn ourInterface <;> simp [hskips]
  | none =>
    have htokens : ∃ rest, l.tokens spelling = l.destinationText spelling :: rest := by
      simp [tokens, htype]
    obtain ⟨rest, htokens⟩ := htokens
    rw [l.mirroredTokens_word spelling ourInterface htokens, destinationText]
    cases l.destination with
    | none =>
      have hskips : skips ((Option.map spelling.text none).getD "default") := .inl (.inl rfl)
      rw [if_pos hskips]
      cases l.otherVpn ourInterface <;> rfl
    | some c =>
      have hskips : skips ((Option.map spelling.text (some c)).getD "default") ↔
          neverMirror.any (startsWith (spelling.text c)) = true := skips_text spelling c
      by_cases hnever : neverMirror.any (startsWith (spelling.text c)) = true
      · rw [if_pos (hskips.mpr hnever)]
        simp only [Option.bind_some, if_pos hnever]
        cases l.otherVpn ourInterface <;> rfl
      · rw [if_neg fun h => hnever (hskips.mp h)]
        simp only [Option.bind_some, if_neg hnever]
        cases l.otherVpn ourInterface <;> rfl

/-- What a readable line gives is what is to be mirrored of it. -/
theorem mirrored_readable (h : l.Readable spelling ourInterface) :
    mirroredTokens ourInterface (l.tokens spelling) =
      (l.served ourInterface).map fun at_ => ⟨spelling.text at_.1, .device at_.2⟩ := by
  rw [mirrored_tokens, served]
  cases hvpn : l.otherVpn ourInterface with
  | none => cases l.destination <;> rfl
  | some name =>
    have hline := h (by rw [hvpn]; rfl)
    cases htype : l.type with
    | some type =>
      have hline : type ∈ RouteType.skipped := by rwa [htype] at hline
      have hother : type ≠ .unicast := by
        rintro rfl
        exact absurd hline (by decide)
      cases l.destination <;> simp [hline, hother]
    | none =>
      rw [htype] at hline
      cases hdestination : l.destination with
      | none => rfl
      | some c =>
        have hrange := hline c hdestination
        by_cases hnever : neverMirror.any (startsWith (spelling.text c)) = true
        · rw [hnever] at hrange
          simp only [Option.bind_some, if_pos hnever, ← hrange]
          simp
        · simp only [Option.bind_some, if_neg hnever, ← hrange, true_or, true_and]
          rw [if_pos (Bool.eq_false_iff.mpr hnever)]
          rfl

end RouteLine

variable (spelling : Spelling) (ourInterface : String)

/-- The routes read off a dump are what its lines give, each destination given once. -/
theorem otherVpnRoutes_spec {outputs : List (Option String)} {lines : List RouteLine}
    (hdump : (outputs.flatMap fun output => output.elim [] fun text => linesOf text.toList).map
      tokensOf = lines.map (RouteLine.tokens spelling)) :
    ((otherVpnRoutes ourInterface outputs).map Route.destination).Nodup ∧
    (∀ r ∈ otherVpnRoutes ourInterface outputs, ∃ l ∈ lines,
      mirroredTokens ourInterface (l.tokens spelling) = some r) ∧
    ∀ l ∈ lines, ∀ r, mirroredTokens ourInterface (l.tokens spelling) = some r →
      ∃ r' ∈ otherVpnRoutes ourInterface outputs, r'.destination = r.destination := by
  unfold otherVpnRoutes
  generalize (outputs.flatMap fun output => output.elim [] fun text => linesOf text.toList) = texts
    at hdump ⊢
  obtain ⟨honce, hgiven, hall⟩ := mirrorLines_spec (mirrored ourInterface) texts
  refine ⟨honce, fun r hr => ?_, fun l hl r hr => ?_⟩
  · obtain ⟨line, hline, hr⟩ := hgiven r hr
    have hmem : tokensOf line ∈ lines.map (RouteLine.tokens spelling) :=
      hdump ▸ List.mem_map_of_mem hline
    obtain ⟨l, hl, htokens⟩ := List.mem_map.mp hmem
    exact ⟨l, hl, by rw [htokens]; exact hr⟩
  · have hmem : l.tokens spelling ∈ texts.map tokensOf := hdump ▸ List.mem_map_of_mem hl
    obtain ⟨line, hline, htokens⟩ := List.mem_map.mp hmem
    exact hall line hline r (by rw [mirrored, htokens]; exact hr)

section Dump

variable {spelling ourInterface} {lines : List RouteLine} {routes : List Route}
  (hgiven : ∀ r ∈ routes, ∃ l ∈ lines,
    mirroredTokens ourInterface (l.tokens spelling) = some r)
  (hall : ∀ l ∈ lines, ∀ r, mirroredTokens ourInterface (l.tokens spelling) = some r →
    ∃ r' ∈ routes, r'.destination = r.destination)

include hgiven hall

/-- Where the routes are what they are to be, no keyword was read as a prefix, and the texts never
mirrored were those of the ranges kept to their links. -/
theorem Mirrors.readable (h : Mirrors spelling ourInterface lines routes) {l : RouteLine}
    (hl : l ∈ lines) : l.Readable spelling ourInterface := by
  intro hvpn
  obtain ⟨name, hvpn⟩ := Option.isSome_iff_exists.mp hvpn
  have hread := l.mirrored_tokens spelling ourInterface
  rw [hvpn, Option.bind_some] at hread
  cases htype : l.type with
  | some type =>
    by_contra hskipped
    dsimp only at hskipped
    simp only [htype, if_neg hskipped] at hread
    obtain ⟨r, hr, hkeyword⟩ := hall l hl _ hread
    obtain ⟨_, _, c, _, _, rfl⟩ := h.served r hr
    exact spelling.text_ne c type.parse_keyword hkeyword
  | none =>
    intro c hc
    rw [Option.mem_def] at hc
    simp only [htype, hc, Option.bind_some] at hread
    rw [Bool.eq_iff_iff]
    constructor
    · intro hnever
      by_contra hrange
      have hserved : l.served ourInterface = some (c, name) := by
        simp only [RouteLine.served, hc, hvpn, htype, true_or, true_and]
        rw [if_pos (Bool.eq_false_iff.mpr hrange)]
      obtain ⟨r, hr, htext⟩ := h.complete l hl c name hserved
      obtain ⟨l', _, hr⟩ := hgiven r hr
      exact mirroredTokens_not_never hr (htext ▸ hnever)
    · intro hrange
      by_contra hnever
      rw [if_neg hnever] at hread
      obtain ⟨r, hr, htext⟩ := hall l hl _ hread
      obtain ⟨l', _, c', name', hserved, rfl⟩ := h.served r hr
      obtain rfl := spelling.text_injective htext
      rw [(l'.served_eq_some ourInterface hserved).2] at hrange
      cases hrange

theorem mirrors_of_readable (honce : (routes.map Route.destination).Nodup)
    (h : ∀ l ∈ lines, l.Readable spelling ourInterface) :
    Mirrors spelling ourInterface lines routes := by
  refine ⟨fun r hr => ?_, fun l hl c name hserved => ?_, honce⟩
  · obtain ⟨l, hl, hread⟩ := hgiven r hr
    rw [l.mirrored_readable spelling ourInterface (h l hl)] at hread
    obtain ⟨⟨c, name⟩, hserved, rfl⟩ := Option.map_eq_some_iff.mp hread
    exact ⟨l, hl, c, name, hserved, rfl⟩
  · have hread := l.mirrored_readable spelling ourInterface (h l hl)
    rw [hserved, Option.map_some] at hread
    exact hall l hl _ hread

end Dump

/-- Mirroring makes of a dump what it is to make exactly if every line of another VPN is read as it is
meant. -/
theorem otherVpnRoutes_iff (outputs : List (Option String)) (lines : List RouteLine)
    (hdump : (outputs.flatMap fun output => output.elim [] fun text => linesOf text.toList).map
      tokensOf = lines.map (RouteLine.tokens spelling)) :
    Mirrors spelling ourInterface lines (otherVpnRoutes ourInterface outputs) ↔
      ∀ l ∈ lines, l.Readable spelling ourInterface := by
  obtain ⟨honce, hgiven, hall⟩ := otherVpnRoutes_spec spelling ourInterface hdump
  constructor
  · exact fun h l hl => h.readable hgiven hall hl
  · exact mirrors_of_readable hgiven hall honce

/-- A network that another VPN serves. -/
def Sample.network : RouteLine :=
  ⟨none, some ⟨.v4 0x64400000, 10, by decide⟩, [], some "tailscale0", ["table", "52"], by decide,
    by decide, by decide⟩

/-- The default of the machine. -/
def Sample.default : RouteLine :=
  ⟨none, none, ["via", "192.0.2.1"], some "eth0", ["proto", "dhcp"], by decide, by decide, by decide⟩

/-- An address that the kernel lists for a network of the other VPN while it forwards. -/
def Sample.anycast : RouteLine :=
  ⟨some .anycast, some (.host (.v6 0xfd7a115ca1e000000000000000000000)), [], some "tailscale0",
    ["table", "local"], by decide, by decide, by decide⟩

theorem network_mirrored : Mirrors .iproute "vpnmgr0" [Sample.network, Sample.default]
    (otherVpnRoutes "vpnmgr0" [some
      "100.64.0.0/10 dev tailscale0 table 52\ndefault via 192.0.2.1 dev eth0 proto dhcp\n", none]) :=
  (otherVpnRoutes_iff .iproute _ _ _ (by decide +kernel)).mpr (by
    intro l hl hvpn
    rcases List.mem_cons.mp hl with rfl | hl
    · rintro c ⟨⟩
      decide +kernel
    · rw [List.mem_singleton.mp hl] at hvpn
      exact absurd hvpn (by decide +kernel))

/-- The keyword of an anycast address is taken for a destination. -/
theorem anycast_mirrored : ¬∀ (spelling : Spelling) (ourInterface : String)
    (outputs : List (Option String)) (lines : List RouteLine),
    (outputs.flatMap fun output => output.elim [] fun text => linesOf text.toList).map tokensOf =
      lines.map (RouteLine.tokens spelling) →
    Mirrors spelling ourInterface lines (otherVpnRoutes ourInterface outputs) := by
  intro hall
  have hdump : (([none, some "anycast fd7a:115c:a1e0:: dev tailscale0 table local\n"] :
      List (Option String)).flatMap fun output => output.elim [] fun text =>
        linesOf text.toList).map tokensOf =
      [Sample.anycast].map (RouteLine.tokens .iproute) := by decide +kernel
  have hskipped : RouteType.anycast ∈ RouteType.skipped :=
    (otherVpnRoutes_iff .iproute "vpnmgr0" _ _ hdump).mp (hall _ _ _ _ hdump) Sample.anycast
      (List.mem_singleton_self _) (by decide +kernel)
  exact absurd hskipped (by decide)

end Linux

end Vpnmgr
