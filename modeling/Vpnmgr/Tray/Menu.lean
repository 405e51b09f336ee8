import Vpnmgr.Tray.Format
import Vpnmgr.Library.Text

/-! What the Linux tray shows, and what a click on each line of its menu asks for. -/

namespace Vpnmgr.Tray

open Ieee

/-- A request raised by clicking a menu item. -/
inductive Action where
  | connect (server : Option String) (measure : Option Bool)
  | disconnect
  | autotune
  | editConfig (path : String)
  | approve
  | dismiss
  | quit
  deriving DecidableEq

/-- Everything the tray draws from: what was last read of the daemon, and how the last request went. -/
structure VpnTray where
  status : Option StatusReport
  ranking : List RankedServer
  servers : List ServerSummary
  error : Option String
  unreachable : Option String
  busy : Option String

structure StandardItem where
  label : String
  iconName : String
  enabled : Bool
  activate : Option Action

inductive MenuItem where
  | separator
  | standard (item : StandardItem)
  | submenu (label : String) (items : List StandardItem)

/-- The lines of an item that may be clicked. -/
def MenuItem.lines : MenuItem → List StandardItem
  | separator => []
  | standard item => [item]
  | submenu _ items => items

/-- A line that is only read. -/
def disabled (label : String) : MenuItem := .standard ⟨label, "", false, none⟩

def button (label iconName : String) (enabled : Bool) (action : Action) : MenuItem :=
  .standard ⟨label, iconName, enabled, some action⟩

namespace VpnTray

def fresh : VpnTray := ⟨none, [], [], none, none, none⟩

variable (t : VpnTray)

def connected : Bool := t.status.any StatusReport.connected

/-- A pending proposal, or a tunnel that is up and carries nothing. -/
def needsAttention : Bool :=
  t.status.any fun s => s.pendingSwitch.isSome || (s.connected && !s.healthy)

def entries : List (String × String) :=
  quickConnectEntries (fun mbps => F64.fixed 0 mbps ++ " Mbps") t.ranking t.servers

def iconName : String :=
  match t.status with
  | none => "network-offline"
  | some s =>
    if !s.connected then "network-offline"
    else if !s.healthy then "network-error" else "network-vpn"

def handshake (s : StatusReport) : String :=
  match s.lastHandshakeSecs with
  | some secs => s!"{secs}s ago"
  | none => "never"

/-- The description of the tool tip. -/
def description : String :=
  let traffic := match t.status.filter StatusReport.connected with
    | some s => (s.endpoint.map SocketAddr.display).getD "no endpoint" ++ "\nhandshake " ++
        handshake s ++ "\n" ++ humanBytes s.txBytes ++ " up, " ++ humanBytes s.rxBytes ++ " down"
    | none => ""
  match t.status.bind baselineLine with
  | some baseline => if traffic = "" then baseline else traffic ++ "\n" ++ baseline
  | none => traffic

/-- The lines above the controls. -/
def reports : List MenuItem :=
  [disabled (headlineOf t.status)] ++
  (match t.status, t.unreachable with
    | none, some reason => (Text.linesOf reason.toList).map fun line =>
        disabled ("  " ++ truncate (Text.trim (String.ofList line)) 90)
    | _, _ => []) ++
  ((t.status.filter StatusReport.connected).map fun s => disabled
    (s!"entry {s.entry.getD 0} · handshake " ++ handshake s ++ " · " ++
      if s.healthy then "healthy" else "NO TRAFFIC")).toList ++
  ((t.status.bind baselineLine).map disabled).toList ++
  (t.busy.map fun busy => disabled (busy ++ "…")).toList ++
  (t.error.map fun error => disabled ("error: " ++ truncate error 60)).toList

/-- The proposal, with the answers to it, which are offered at any time. -/
def proposal : List MenuItem :=
  match t.status.bind StatusReport.pendingSwitch with
  | none => []
  | some pending =>
    [.separator,
      disabled ("Suggested: " ++ pending.target.name ++ " (" ++
        F64.fixed 1 pending.target.rttMs ++ "ms)"),
      button ("Switch to " ++ pending.target.name) "go-next" true .approve,
      button "Keep current server" "" true .dismiss]

/-- Whether requests are offered: the daemon answers, and none is under way. -/
def idle : Bool := t.busy.isNone && t.status.isSome

def controls : List MenuItem :=
  [button "Test now" "view-refresh" (t.status.isSome && t.idle) .autotune] ++
  ((t.status.bind StatusReport.configPath).map fun path =>
    button "Edit configuration…" "document-edit" t.idle (.editConfig path)).toList ++
  if t.connected then [button "Disconnect" "network-offline" t.idle .disconnect]
  else [
    button "Connect to best server" "network-vpn" (t.status.isSome && t.idle)
      (.connect none (some false)),
    button "Measure and connect" "speedometer" (t.status.isSome && t.idle)
      (.connect none (some true))]

/-- The servers to pick from. -/
def picker : List MenuItem :=
  if t.entries = [] then []
  else [.submenu (if t.connected then "Switch to" else "Connect to")
    (t.entries.map fun e => ⟨e.2, "", t.idle, some (.connect (some e.1) none)⟩)]

def menu : List MenuItem :=
  t.reports ++ t.proposal ++ [.separator] ++ t.controls ++ t.picker ++
  ((t.status.bind StatusReport.lastTune).map fun tune =>
    [.separator, disabled (truncate tune 70)]).getD [] ++
  [.separator, button "Quit tray" "application-exit" true .quit]

end VpnTray

/-! ### What the menu offers -/

/-- A click on the item, or on a line of it, raises the action. -/
def MenuItem.Raises (item : MenuItem) (action : Action) : Prop :=
  ∃ line ∈ item.lines, line.enabled = true ∧ line.activate = some action

/-- Some item raises the action. -/
def Offers (items : List MenuItem) (action : Action) : Prop := ∃ item ∈ items, item.Raises action

section

variable {item : MenuItem} {items more : List MenuItem} {action raised : Action}
  {label iconName : String} {enabled : Bool}

@[simp] theorem raises_separator : ¬MenuItem.separator.Raises action := by
  simp [MenuItem.Raises, MenuItem.lines]

@[simp] theorem raises_disabled : ¬(disabled label).Raises action := by
  simp [MenuItem.Raises, MenuItem.lines, disabled]

@[simp] theorem raises_button :
    (button label iconName enabled raised).Raises action ↔ enabled = true ∧ action = raised := by
  simp only [MenuItem.Raises, MenuItem.lines, button, List.mem_singleton, exists_eq_left,
    Option.some.injEq]
  exact and_congr_right fun _ => eq_comm

@[simp] theorem raises_submenu {entries : List (String × String)} {raises : String × String → Action} :
    (MenuItem.submenu label (entries.map fun e =>
      ⟨e.2, iconName, enabled, some (raises e)⟩)).Raises action ↔
      enabled = true ∧ ∃ e ∈ entries, action = raises e := by
  simp only [MenuItem.Raises, MenuItem.lines, List.mem_map]
  constructor
  · rintro ⟨_, ⟨e, he, rfl⟩, henabled, haction⟩
    exact ⟨henabled, e, he, (Option.some.inj haction).symm⟩
  · rintro ⟨henabled, e, he, rfl⟩
    exact ⟨_, ⟨e, he, rfl⟩, henabled, rfl⟩

@[simp] theorem offers_nil : ¬Offers [] action := by simp [Offers]

@[simp] theorem offers_cons :
    Offers (item :: items) action ↔ item.Raises action ∨ Offers items action := by simp [Offers]

@[simp] theorem offers_append :
    Offers (items ++ more) action ↔ Offers items action ∨ Offers more action := by
  simp only [Offers, List.mem_append, or_and_right, exists_or]

/-- Lines that are only read offer nothing. -/
theorem not_offers_disabled (h : ∀ item ∈ items, ∃ label, item = disabled label) :
    ¬Offers items action := by
  rintro ⟨item, hitem, hraises⟩
  obtain ⟨label, rfl⟩ := h item hitem
  exact raises_disabled hraises

end

namespace VpnTray

variable (t : VpnTray) {action : Action}

theorem offers_reports : ¬Offers t.reports action := by
  refine not_offers_disabled fun item h => ?_
  simp only [reports, List.mem_append, List.mem_singleton, Option.mem_toList, Option.map_eq_some_iff]
    at h
  rcases h with ((((rfl | h) | ⟨_, _, rfl⟩) | ⟨_, _, rfl⟩) | ⟨_, _, rfl⟩) | ⟨_, _, rfl⟩
  · exact ⟨_, rfl⟩
  · split at h
    · obtain ⟨_, _, rfl⟩ := List.mem_map.mp h
      exact ⟨_, rfl⟩
    · cases h
  all_goals exact ⟨_, rfl⟩

theorem offers_proposal : Offers t.proposal action ↔
    (t.status.bind StatusReport.pendingSwitch).isSome = true ∧
      (action = .approve ∨ action = .dismiss) := by
  unfold proposal
  cases t.status.bind StatusReport.pendingSwitch with
  | none => simp
  | some pending => simp

theorem offers_controls : Offers t.controls action ↔ t.idle = true ∧
    (action = .autotune ∨
      (∃ path, t.status.bind StatusReport.configPath = some path ∧ action = .editConfig path) ∨
      (t.connected = true ∧ action = .disconnect) ∨
      (t.connected = false ∧ ∃ measure, action = .connect none (some measure))) := by
  have hidle : (t.status.isSome && t.idle) = t.idle := by
    unfold idle
    cases t.status <;> simp
  have hpath : Offers ((t.status.bind StatusReport.configPath).map fun path =>
      button "Edit configuration…" "document-edit" t.idle (.editConfig path)).toList action ↔
      t.idle = true ∧
        ∃ path, t.status.bind StatusReport.configPath = some path ∧ action = .editConfig path := by
    cases t.status.bind StatusReport.configPath with
    | none => simp
    | some path => simp
  unfold controls
  rw [hidle, offers_append, offers_append, offers_cons, raises_button, hpath]
  cases t.connected with
  | true =>
    simp only [offers_cons, offers_nil, raises_button, if_true, or_false, true_and, reduceCtorEq,
      false_and]
    grind
  | false =>
    simp only [Bool.false_eq_true, if_false, offers_cons, offers_nil, raises_button, or_false,
      true_and, false_and, false_or, Bool.exists_bool]
    grind

theorem offers_picker : Offers t.picker action ↔
    t.idle = true ∧ ∃ e ∈ t.entries, action = .connect (some e.1) none := by
  unfold picker
  split
  · next hnone => simp [hnone]
  · simp

/-- What a click on the menu may ask for: at any time to quit, and to answer a proposal that is shown;
the rest only while the daemon answers and no request is under way. -/
theorem offers_menu : Offers t.menu action ↔ action = .quit ∨
    ((t.status.bind StatusReport.pendingSwitch).isSome = true ∧
      (action = .approve ∨ action = .dismiss)) ∨
    (t.idle = true ∧ (action = .autotune ∨
      (∃ path, t.status.bind StatusReport.configPath = some path ∧ action = .editConfig path) ∨
      (t.connected = true ∧ action = .disconnect) ∨
      (t.connected = false ∧ ∃ measure, action = .connect none (some measure)) ∨
      ∃ e ∈ t.entries, action = .connect (some e.1) none)) := by
  have htune : ¬Offers (((t.status.bind StatusReport.lastTune).map fun tune =>
      [.separator, disabled (truncate tune 70)]).getD []) action := by
    cases t.status.bind StatusReport.lastTune <;> simp
  unfold menu
  simp only [offers_append, offers_reports, offers_proposal, offers_controls, offers_picker, htune,
    offers_cons, offers_nil, raises_separator, raises_button]
  grind

theorem offers_menu_server {name : String} {measure : Option Bool} :
    Offers t.menu (.connect (some name) measure) ↔
      t.idle = true ∧ measure = none ∧ ∃ e ∈ t.entries, e.1 = name := by
  simp only [offers_menu, reduceCtorEq, Action.connect.injEq, Option.some.injEq, or_false, false_or,
    and_false, exists_false, false_and]
  grind

theorem offers_menu_answer (h : action = .approve ∨ action = .dismiss) : Offers t.menu action ↔
    (t.status.bind StatusReport.pendingSwitch).isSome = true := by
  rcases h with rfl | rfl <;> simp [offers_menu]

end VpnTray

end Vpnmgr.Tray
