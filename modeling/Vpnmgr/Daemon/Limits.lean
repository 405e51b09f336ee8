import Vpnmgr.Daemon.Requests
import Vpnmgr.Probe.Concurrent

/-! What the settings ask of the machine: the seconds of the tuning interval in 64 bits, the permits
of a semaphore, and the samples of a probe in one allocation. A panic ends the daemon. -/

namespace Vpnmgr

/-- `isize::MAX`, the most bytes an allocation may have. -/
def isizeMax : Nat := 2 ^ 63 - 1

/-- The size of a `Duration`: its seconds, its nanoseconds and padding. -/
def durationSize : Nat := 16

/-- `Vec::with_capacity` for elements of a size; `none` where it panics. -/
def withCapacity (size capacity : Nat) : Option Unit :=
  if capacity * size ≤ isizeMax then some () else none

namespace Prober

/-- `Prober::probe` with the room it makes for its samples; `none` where it panics. -/
def probeOrPanic (p : Prober) (answer : Nat → Handshake) (endpoint : SocketAddr) :
    Option ProbeResult := do
  if p.excluded ≠ some endpoint then withCapacity durationSize p.settings.samples
  return p.probe answer endpoint

/-- `Prober::probe_many`; a panic in one of its tasks aborts the daemon. -/
def probeManyOrPanic (p : Prober) (net : Network) (endpoints : List SocketAddr) :
    Option (List ProbeResult) := do
  newSemaphore p.settings.concurrency
  endpoints.zipIdx.mapM fun (endpoint, i) => p.probeOrPanic (net p i endpoint) endpoint

theorem probeOrPanic_eq {p : Prober} (h : p.settings.samples * durationSize ≤ isizeMax)
    (answer : Nat → Handshake) (endpoint : SocketAddr) :
    p.probeOrPanic answer endpoint = some (p.probe answer endpoint) := by
  rw [probeOrPanic, withCapacity, if_pos h]
  split <;> rfl

theorem samples_of_probeOrPanic {p : Prober} {answer : Nat → Handshake} {endpoint : SocketAddr}
    (hexcluded : p.excluded ≠ some endpoint) (h : (p.probeOrPanic answer endpoint).isSome) :
    p.settings.samples * durationSize ≤ isizeMax := by
  by_contra hlarge
  rw [probeOrPanic, if_pos hexcluded, withCapacity, if_neg hlarge] at h
  cases h

end Prober

/-- The tuning interval is the minutes of the settings, in full, and some time long. -/
def Autotune.IntervalExact (a : Autotune) : Prop :=
  a.interval = .ofSecs (a.intervalMinutes.toNat * 60) ∧ 0 < a.interval

/-- Every prober with these settings returns from every row of probes. -/
def ProbeSettings.NeverPanics (settings : ProbeSettings) : Prop :=
  ∀ p : Prober, p.settings = settings → ∀ net endpoints,
    p.probeManyOrPanic net endpoints = some (p.probeMany net endpoints)

theorem Autotune.intervalExact_iff {a : Autotune} (h : a.intervalMinutes ≠ 0) :
    a.IntervalExact ↔ a.intervalMinutes.toNat ≤ 307445734561825860 := by
  have hseconds : (a.intervalMinutes * 60).toNat = a.intervalMinutes.toNat * 60 % 2 ^ 64 :=
    UInt64.toNat_mul _ _
  have hpos : 0 < a.intervalMinutes.toNat :=
    Nat.pos_of_ne_zero fun h0 => h (UInt64.toNat_inj.mp h0)
  rw [IntervalExact, interval, hseconds]
  constructor
  · rintro ⟨hexact, _⟩
    have hsame := Nat.eq_of_mul_eq_mul_right (by decide) hexact
    have hlt := Nat.mod_lt (a.intervalMinutes.toNat * 60) (y := 2 ^ 64) (by decide)
    omega
  · intro hle
    rw [Nat.mod_eq_of_lt (by omega)]
    exact ⟨rfl, Nat.mul_pos (by omega) (by decide)⟩

theorem ProbeSettings.neverPanics_iff (settings : ProbeSettings) : settings.NeverPanics ↔
    settings.concurrency ≤ maxPermits ∧ settings.samples * durationSize ≤ isizeMax := by
  constructor
  · intro h
    let p : Prober := ⟨Sample.secret, ⟨.replicate 32 9⟩, none, settings, none, none⟩
    have hone := h p rfl (fun _ _ _ _ => .error .unreachable) [default]
    rw [Prober.probeManyOrPanic] at hone
    obtain ⟨_, hpermits, hresults⟩ := Option.bind_eq_some_iff.mp hone
    have hprobed : (p.probeOrPanic (fun _ => .error .unreachable) default).isSome → _ :=
      Prober.samples_of_probeOrPanic fun h => by cases h
    refine ⟨?_, hprobed ?_⟩
    · by_contra hlarge
      rw [newSemaphore, if_neg hlarge] at hpermits
      cases hpermits
    · simp only [List.zipIdx_cons, List.zipIdx_nil, List.mapM_cons, List.mapM_nil] at hresults
      obtain ⟨result, hresult, _⟩ := Option.bind_eq_some_iff.mp hresults
      rw [hresult]
      rfl
  · rintro ⟨hpermits, hsamples⟩ p rfl net endpoints
    rw [Prober.probeManyOrPanic, newSemaphore, if_pos hpermits]
    simp only [Prober.probeOrPanic_eq hsamples]
    rw [Prober.probeMany, List.mapIdx_eq_zipIdx_map]
    exact List.mapM_pure

/-- No consumer overflows on these settings: the interval is what they say, there is some time to
wait after a pass, and no sweep panics. -/
structure Config.FitsConsumers (c : Config) : Prop where
  interval : c.autotune.IntervalExact
  waits : ∀ (P : Platform) (s : State P) (t : Instant), s.config = c → s.lastTuneAt = some t →
    0 < s.timeUntilNextTune t
  probes : c.probe.NeverPanics

/-- Settings that pass every check fit their consumers exactly up to these bounds. -/
theorem fitsConsumers_iff {c : Config} (h : c.validate = .ok ()) : c.FitsConsumers ↔
    c.autotune.intervalMinutes.toNat ≤ 307445734561825860 ∧
      c.probe.concurrency ≤ 2305843009213693951 ∧ c.probe.samples ≤ 576460752303423487 := by
  have hinterval := Autotune.intervalExact_iff (Config.validate_ok.mp h).intervalMinutes
  have hprobes : c.probe.NeverPanics ↔
      c.probe.concurrency ≤ 2305843009213693951 ∧ c.probe.samples ≤ 576460752303423487 := by
    have hpermits : maxPermits = 2305843009213693951 := by decide +kernel
    rw [ProbeSettings.neverPanics_iff, hpermits, durationSize, isizeMax]
    omega
  rw [← hinterval, ← hprobes]
  refine ⟨fun hfits => ⟨hfits.interval, hfits.probes⟩, fun ⟨hexact, hpanics⟩ => ⟨hexact, ?_, hpanics⟩⟩
  rintro P s t rfl hlast
  have hwhole : s.timeUntilNextTune t = s.config.autotune.interval := by
    rw [State.timeUntilNextTune, hlast]
    simp
  rw [hwhole]
  exact hexact.2

theorem config_fits : Sample.config.FitsConsumers :=
  (fitsConsumers_iff Sample.config_valid).mpr (by decide)

namespace Sample

/-- An interval whose seconds wrap around to none. -/
def hot : Config := { config with autotune.intervalMinutes := 4611686018427387904 }

/-- More samples than a probe can make room for. -/
def greedy : Config := { config with probe.samples := 576460752303423488 }

end Sample

/-- Settings in the range of the file's integers pass every check and leave no time between two
passes, or end the daemon at its first probe. -/
theorem checked_overflows :
    (Config.load (Sample.disk Sample.hot) = .ok Sample.hot ∧
      Sample.hot.autotune.intervalMinutes.toNat ≤ 2 ^ 63 - 1 ∧
      Sample.hot.autotune.interval = 0 ∧ ¬Sample.hot.FitsConsumers) ∧
    (Config.load (Sample.disk Sample.greedy) = .ok Sample.greedy ∧
      Sample.greedy.probe.samples ≤ 2 ^ 63 - 1 ∧
      (Prober.new (Sample.client Sample.greedy) Sample.greedy.probe).probeManyOrPanic
        (fun _ _ _ _ => .error .unreachable) [⟨.v4 0, 1637⟩] = none) := by
  have hzero : Sample.hot.autotune.interval = 0 := by decide +kernel
  refine ⟨⟨by decide +kernel, by decide +kernel, hzero, fun h => ?_⟩, by decide +kernel,
    by decide +kernel, by rfl⟩
  exact absurd h.interval.2 (by rw [hzero]; exact Nat.lt_irrefl 0)

end Vpnmgr
