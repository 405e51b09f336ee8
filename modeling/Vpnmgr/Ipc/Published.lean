import Vpnmgr.Core.StatusApi
import Vpnmgr.Ipc.Answers

/-! From the provider's page to the client: every server that the daemon tells of stands on a page
that it was given. -/

namespace Vpnmgr

open Fields Ieee Json Stateful Stateful.Action
open Json.Value

variable {P : Platform} {α : Type} {G G' : Server → Prop}

/-- What becomes of one request to the provider. -/
inductive Page where
  | noClient (reason : String)
  | failed (reason : String)
  | body (text : String)

/-- `airvpn::Client::new` and `fetch`. -/
def Page.fetch (floats : Floats) (describe : ApiError → String) : Page → Fetch
  | noClient reason => .noClient reason
  | failed reason => .failed reason
  | body text =>
    match ServerList.fromJson floats text with
    | .ok list => .fetched list
    | .error e => .failed (describe e)

/-- A page lists the server: a document with a row of servers, one of which describes it. -/
def Page.Lists (floats : Floats) (s : Server) (page : Page) : Prop :=
  ∃ text v get vs u, page = body text ∧ ofText floats text = some v ∧
    HasFields ServerList.fields v get ∧ get "servers" = some (.array vs) ∧ u ∈ vs ∧
    s.DescribedBy u

theorem Page.lists_of_fetch {floats : Floats} {describe : ApiError → String} {page : Page}
    {list : ServerList} (h : page.fetch floats describe = .fetched list) :
    ∀ s ∈ list.servers, page.Lists floats s := by
  intro s hs
  cases page with
  | noClient => cases h
  | failed => cases h
  | body text =>
    rw [Page.fetch] at h
    cases hjson : ServerList.fromJson floats text with
    | error e => rw [hjson] at h; cases h
    | ok list' =>
      rw [hjson] at h
      cases h
      obtain ⟨v, htext, get, vs, hfields, hservers, hall, -⟩ := ServerList.fromJson_ok.mp hjson
      obtain ⟨i, hi, rfl⟩ := List.getElem_of_mem hs
      have hlength := hall.length_eq
      exact ⟨text, v, get, vs, vs[i], rfl, htext, hfields, hservers, List.getElem_mem _,
        hall.get hi (hlength ▸ hi)⟩

theorem Known.mono (h : ∀ s, G s → G' s) {r : RankedServer} (hr : Known G r) : Known G' r :=
  hr.imp fun _ hs => ⟨h _ hs.1, hs.2⟩

theorem Fit.mono (h : ∀ s, G s → G' s) {s : Server} (hs : Fit G s) : Fit G' s := ⟨h s hs.1, hs.2⟩

theorem SweepSummary.Of.mono (h : ∀ s, G s → G' s) {s : SweepSummary} (hs : s.Of G) : s.Of G' :=
  ⟨hs.reachable, hs.none, hs.allUnreachable, fun r hr => (hs.best r hr).mono fun _ => Fit.mono h⟩

theorem Response.Truthful.mono (h : ∀ s, G s → G' s) {r : Request} {a : Response}
    (ha : a.Truthful G r) : a.Truthful G' r := by
  cases a with
  | status report =>
    exact ⟨fun s hs => (ha.sweep s hs).mono h,
      fun p hp => (ha.pending p hp).mono fun _ => Fit.mono h,
      fun hc => (ha.connected hc).imp fun _ hr => ⟨hr.1.mono h, hr.2⟩⟩
  | ranking list => exact fun r hr => (ha r hr).mono fun _ => Fit.mono h
  | servers list => exact fun x hx => (ha x hx).imp fun _ hs => ⟨h _ hs.1, hs.2⟩
  | tuned report => exact fun p hp => (ha p hp).mono fun _ => Fit.mono h
  | speed report => exact fun name hname => (ha name hname).imp fun _ hs => ⟨h _ hs.1, hs.2⟩
  | ok text =>
    cases r with
    | connect => exact ha.imp fun _ hc => ⟨hc.1.mono h, hc.2⟩
    | switch => exact ha.imp fun _ hc => ⟨hc.1.mono h, hc.2⟩
    | approve => exact ha.imp fun _ hc => ⟨hc.1.mono h, hc.2⟩
    | _ => trivial
  | _ => trivial

namespace Sample

/-- A page with two servers, of which the second is not used. -/
def statusPage : String :=
  "\x7b\"servers\":[\x7b\"public_name\":\"Achernar\",\"country_name\":\"Netherlands\"," ++
  "\"country_code\":\"nl\",\"location\":\"Alblasserdam\",\"continent\":\"Europe\",\"bw\":10," ++
  "\"bw_max\":1000,\"users\":3,\"currentload\":1,\"health\":\"ok\",\"ip_v4_in1\":\"10.0.0.1\"\x7d," ++
  "\x7b\"public_name\":\"Bellatrix\",\"country_name\":\"Netherlands\",\"country_code\":\"nl\"," ++
  "\"location\":\"Alblasserdam\",\"continent\":\"Europe\",\"bw\":0,\"bw_max\":1000,\"users\":0," ++
  "\"currentload\":0,\"health\":\"error\",\"warning\":\"*Line problems\"," ++
  "\"ip_v4_in1\":\"10.0.0.2\"\x7d],\"result\":\"ok\"\x7d"

def describe (_ : ApiError) : String := "error decoding response body"

/-- The daemon is given the page, and no other. -/
def statusPages (n : Nat) : Page := if n = 0 then .body statusPage else .failed "timed out"

def reading : World (.linux log) :=
  world config linuxMachine { outside config ⟨[]⟩ pairReply linuxFaults with
    fetch := fun n => (statusPages n).fetch floats describe }

theorem reading_starts : Starts reading := world_starts config_valid rfl _ _

theorem reading_pages (n : Nat) :
    reading.outside.fetch n = (statusPages n).fetch floats describe := rfl

/-- The daemon after it was asked to connect. It is not unfolded, as the page would be read then. -/
@[irreducible] def enrolled : World (.linux log) :=
  work about reading (.request (.connect (some "Achernar") none))

theorem enrolled_reached : Reaches (work about) (fun _ _ => True) reading enrolled := by
  unfold enrolled
  exact .next .here trivial

end Sample

end Vpnmgr
