import Vpnmgr.Daemon.Requests

/-! When the wait for a candidate ends well. The loop compares the time it noted before pointing the
tunnel with the last handshake as the backend reports it, to the nanosecond or to the second. -/

namespace Vpnmgr

open Stateful Stateful.Action

/-- How often the wait looks at the tunnel. -/
def pollInterval : Duration := .ofMillis 500

/-- The last handshake in the status of a Linux tunnel. The zero instant stands for none. -/
def Linux.lastHandshake (h : SystemTime) : Option SystemTime := if h = 0 then none else some h

/-- The last handshake in the status of a Windows tunnel: whole seconds since the epoch, and zero
stands for none. -/
def Windows.lastHandshake (h : SystemTime) : Option SystemTime :=
  if Duration.asSecs h = 0 then none else some (Duration.ofSecs (Duration.asSecs h))

/-- One turn of the wait: the clock is compared with the deadline, and then the status is read. -/
structure Look where
  checked : SystemTime
  read : SystemTime
  deriving DecidableEq

/-- A wait for a candidate by the wall clock: the time noted before the tunnel was pointed at it, the
start of the wait, its turns up to the one that ends it, and when handshakes completed. -/
structure Watch where
  since : SystemTime
  start : SystemTime
  looks : List Look
  handshakes : List SystemTime
  follows : since ≤ start
  begins : ∀ l ∈ looks, start ≤ l.checked ∧ l.checked ≤ l.read
  spaced : looks.Pairwise fun l m => l.read + pollInterval ≤ m.checked
  ends : ∃ l ∈ looks, start + candidateReadyTimeout ≤ l.checked

namespace Watch

def deadline (t : Watch) : SystemTime := t.start + candidateReadyTimeout

/-- The last handshake completed by a time. -/
def latest (t : Watch) (now : SystemTime) : Option SystemTime :=
  (t.handshakes.filter (· ≤ now)).max?

/-- What the turns of the wait see of it, given how the backend reports a handshake. -/
def trial (t : Watch) (reported : SystemTime → Option SystemTime) (download : Download) : Trial where
  since := t.since
  polls := t.looks.map fun l => ⟨l.checked - t.start, (t.latest l.read).bind reported⟩
  download

/-- A turn before the deadline reads the status after a handshake of the kind. -/
def Sees (t : Watch) (p : SystemTime → Prop) : Prop :=
  ∃ l ∈ t.looks, l.checked < t.deadline ∧ ∃ h ∈ t.handshakes, p h ∧ h ≤ l.read

end Watch

/-! ### The loop -/

/-- The loop ends well exactly if a turn before the deadline shows a newer handshake. -/
theorem carrying_iff {since : SystemTime} {timeout : Duration} {polls : List Poll}
    (hsorted : polls.Pairwise fun p q => p.waited ≤ q.waited) :
    carrying since timeout polls = true ↔ ∃ p ∈ polls, p.waited < timeout ∧
      p.lastHandshake.any (fun at_ => since < at_) = true := by
  induction polls with
  | nil => simp [carrying]
  | cons p polls ih =>
    obtain ⟨hfirst, hrest⟩ := List.pairwise_cons.mp hsorted
    rw [carrying, List.exists_mem_cons_iff]
    by_cases htime : p.waited < timeout
    · rw [if_pos htime, and_iff_right htime, ← ih hrest]
      by_cases hnewer : p.lastHandshake.any (fun at_ => since < at_) = true
      · rw [if_pos hnewer]
        exact iff_of_true rfl (.inl hnewer)
      · rw [if_neg hnewer]
        exact (or_iff_right hnewer).symm
    · rw [if_neg htime]
      refine iff_of_false Bool.false_ne_true ?_
      rintro (⟨h, _⟩ | ⟨q, hq, h, _⟩)
      · exact htime h
      · exact htime ((hfirst q hq).trans_lt h)

theorem Linux.newer_iff {since h : SystemTime} :
    (lastHandshake h).any (fun at_ => since < at_) = true ↔ since < h := by
  unfold lastHandshake
  split
  · next hzero => simp [hzero]
  · simp

/-- Rounded down to the second, a time is past another only if its second is. -/
theorem second_lt_iff {s h : Nat} :
    s < h / 1000000000 * 1000000000 ↔ s / 1000000000 < h / 1000000000 := by
  omega

/-- To the second a handshake is newer only if it completed in a later second. -/
theorem Windows.newer_iff {since h : SystemTime} :
    (lastHandshake h).any (fun at_ => since < at_) = true ↔
      Duration.asSecs since < Duration.asSecs h := by
  unfold lastHandshake
  split
  · next hzero => simp [hzero]
  · rw [Option.any_some, decide_eq_true_eq]
    exact second_lt_iff

/-- The last handshake is reported as newer if any earlier one would be. -/
theorem Watch.latest_newer (t : Watch) {reported : SystemTime → Option SystemTime}
    {p : SystemTime → Prop} (now : SystemTime)
    (hp : ∀ h, (reported h).any (fun at_ => t.since < at_) = true ↔ p h)
    (hmono : ∀ h h', h ≤ h' → p h → p h') :
    ((t.latest now).bind reported).any (fun at_ => t.since < at_) = true ↔
      ∃ h ∈ t.handshakes, p h ∧ h ≤ now := by
  cases hlatest : t.latest now with
  | none =>
    have hempty := List.max?_eq_none_iff.mp hlatest
    refine iff_of_false Bool.false_ne_true ?_
    rintro ⟨h, hmem, _, hnow⟩
    exact absurd (decide_eq_true hnow) (List.filter_eq_nil_iff.mp hempty h hmem)
  | some last =>
    obtain ⟨hmem, hmax⟩ := List.max?_eq_some_iff.mp hlatest
    obtain ⟨hmem, hnow⟩ := List.mem_filter.mp hmem
    rw [Option.bind_some, hp]
    refine ⟨fun hlast => ⟨last, hmem, hlast, of_decide_eq_true hnow⟩, ?_⟩
    rintro ⟨h, hin, hph, hle⟩
    exact hmono h last (hmax h (List.mem_filter.mpr ⟨hin, decide_eq_true hle⟩)) hph

theorem Watch.carrying_iff_sees (t : Watch) {reported : SystemTime → Option SystemTime}
    {p : SystemTime → Prop} (hp : ∀ h, (reported h).any (fun at_ => t.since < at_) = true ↔ p h)
    (hmono : ∀ h h', h ≤ h' → p h → p h') (download : Download) :
    carrying t.since candidateReadyTimeout (t.trial reported download).polls = true ↔ t.Sees p := by
  have hsorted : (t.trial reported download).polls.Pairwise fun p q => p.waited ≤ q.waited := by
    refine List.pairwise_map.mpr (t.spaced.imp_of_mem fun {l m} hl _ hlm => ?_)
    have hread := (t.begins l hl).2
    exact Nat.sub_le_sub_right (hread.trans ((Nat.le_add_right _ _).trans hlm)) _
  rw [carrying_iff hsorted]
  simp only [trial, List.mem_map, exists_exists_and_eq_and, Watch.Sees]
  refine exists_congr fun l => and_congr_right fun hl => ?_
  rw [t.latest_newer l.read hp hmono, deadline]
  exact and_congr_left fun _ => Nat.sub_lt_iff_lt_add' (t.begins l hl).1

/-- Where a turn follows the one before it within `lag`, from the start on, a handshake that completes
that long before the deadline is read in time. -/
theorem Watch.sees_early (t : Watch) {p : SystemTime → Prop} {h : SystemTime} {lag : Duration}
    {first : Look} {rest : List Look} (hlooks : t.looks = first :: rest)
    (hfirst : first.checked < t.deadline)
    (hlag : t.looks.IsChain fun l m => m.checked ≤ l.read + lag) (hmem : h ∈ t.handshakes) (hp : p h)
    (hearly : h + lag ≤ t.deadline) : t.Sees p := by
  have hlast : ∀ (looks : List Look) (l : Look), l.checked < t.deadline →
      (l :: looks).IsChain (fun l m => m.checked ≤ l.read + lag) →
      (∃ m ∈ l :: looks, t.deadline ≤ m.checked) →
      ∃ m ∈ l :: looks, m.checked < t.deadline ∧ h ≤ m.read := by
    intro looks
    induction looks with
    | nil =>
      rintro l hl - ⟨m, hm, hover⟩
      rw [List.mem_singleton.mp hm] at hover
      exact absurd hl (Nat.not_lt.mpr hover)
    | cons m looks ih =>
      rintro l hl hchain ⟨k, hk, hover⟩
      obtain ⟨hnext, hchain⟩ := List.isChain_cons_cons.mp hchain
      by_cases hm : m.checked < t.deadline
      · have hk : k ∈ m :: looks := by
          rcases List.mem_cons.mp hk with rfl | hk
          · exact absurd hl (Nat.not_lt.mpr hover)
          · exact hk
        obtain ⟨n, hn, hseen⟩ := ih m hm hchain ⟨k, hk, hover⟩
        exact ⟨n, List.mem_cons_of_mem _ hn, hseen⟩
      · -- the last turn before the deadline is no more than `lag` before it
        have hread := hearly.trans ((Nat.not_lt.mp hm).trans hnext)
        exact ⟨l, List.mem_cons_self, hl, Nat.le_of_add_le_add_right hread⟩
  obtain ⟨m, hm, hover⟩ := t.ends
  rw [hlooks] at hlag hm
  obtain ⟨l, hl, hchecked, hread⟩ := hlast rest first hfirst hlag ⟨m, hm, hover⟩
  exact ⟨l, hlooks ▸ hl, hchecked, h, hmem, hp, hread⟩

variable {P : Platform}

/-- The wait ends well exactly if a turn before the deadline reads the status after a handshake that
completed past the time noted, on Linux, or in a later second than it, on Windows. -/
theorem waitUntilCarrying_iff (t : Watch) (download : Download) {w : World P}
    (htunnel : w.state.tunnel.isSome = true) :
    ((waitUntilCarrying (t.trial Linux.lastHandshake download) w).1 = .ok true ↔
      t.Sees fun h => t.since < h) ∧
    ((waitUntilCarrying (t.trial Windows.lastHandshake download) w).1 = .ok true ↔
      t.Sees fun h => Duration.asSecs t.since < Duration.asSecs h) := by
  have hrun (trial : Trial) : (waitUntilCarrying trial w).1 = .ok true ↔
      carrying trial.since candidateReadyTimeout trial.polls = true := by
    rw [waitUntilCarrying, self, read_bind, htunnel, Bool.true_and]
    exact (Except.ok.injEq _ _).to_iff
  rw [hrun, hrun]
  refine ⟨t.carrying_iff_sees (fun _ => Linux.newer_iff) (fun _ _ hle hlt => hlt.trans_le hle) _,
    t.carrying_iff_sees (fun _ => Windows.newer_iff) (fun _ _ hle hlt => hlt.trans_le ?_) _⟩
  exact Nat.div_le_div_right hle

namespace Sample

/-- A wait that starts a tenth of a second after the time noted, 0.2 s into a second, and looks at the
tunnel twice a second; a handshake completes when one second has passed, or in the same second. -/
def watch (handshake : Duration) : Watch where
  since := 1700000000200000000
  start := 1700000000300000000
  looks := (List.range 61).map fun i =>
    ⟨1700000000300000000 + i * 500000000, 1700000000300000000 + i * 500000000⟩
  handshakes := [1700000000200000000 + handshake]
  follows := by decide
  begins := by decide +kernel
  spaced := by decide +kernel
  ends := by decide +kernel

def failedDownload : Download := fun _ => .error "timed out"

/-- A daemon with a tunnel. -/
def tunnelled : World (.windows log) :=
  { windowsPair windowsFaults with
    state := { (windowsPair windowsFaults).state with
      tunnel := some { interface := defaultInterface, installed := true, bypassPlan := [],
                       bypass := Bypass.new, killswitch := none } } }

end Sample

theorem next_second_carries :
    (waitUntilCarrying ((Sample.watch (.ofSecs 1)).trial Windows.lastHandshake Sample.failedDownload)
      Sample.tunnelled).1 = .ok true := by
  refine (waitUntilCarrying_iff (Sample.watch (.ofSecs 1)) _ rfl).2.mpr ?_
  exact ⟨⟨1700000001300000000, 1700000001300000000⟩, by decide +kernel, by decide, _,
    List.mem_singleton_self _, by decide, by decide⟩

/-- A handshake in the second that the wait began in is reported as older, and the candidate is
skipped. -/
theorem same_second_skipped : ¬∀ (t : Watch) (w : World (.windows Sample.log)) (h : SystemTime)
    (download : Download), w.state.tunnel.isSome = true → h ∈ t.handshakes →
    (∀ h' ∈ t.handshakes, h' ≤ h) → t.since < h → h < t.deadline →
      (waitUntilCarrying (t.trial Windows.lastHandshake download) w).1 = .ok true := by
  intro hall
  have hcarries := hall (Sample.watch (.ofMillis 500)) Sample.tunnelled 1700000000700000000
    Sample.failedDownload rfl (List.mem_singleton_self _) (by decide) (by decide) (by decide)
  have hskipped : (waitUntilCarrying ((Sample.watch (.ofMillis 500)).trial Windows.lastHandshake
      Sample.failedDownload) Sample.tunnelled).1.toOption = some false := by decide +kernel
  rw [hcarries] at hskipped
  cases hskipped

end Vpnmgr
