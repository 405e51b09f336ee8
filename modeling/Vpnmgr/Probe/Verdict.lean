import Vpnmgr.Library.Median
import Vpnmgr.Probe
import Mathlib.Data.List.Induction

/-! The verdict of a probe and its timing: a loop invariant ties the outcome to the samples, whatever
the order in which handshakes succeed and fail. -/

namespace Vpnmgr

open Median

/-- A time comes with a usable outcome only, and an unusable outcome without one. -/
def Handshake.Proper : Handshake → Prop
  | .ok (_, o) => o.isUsable = true
  | .error o => o.isUsable = false

/-- The times of the handshakes that succeeded, in their order. -/
def timesOf (handshakes : List Handshake) : List Duration :=
  handshakes.filterMap fun h => h.toOption.map Prod.fst

namespace Prober

/-- The handshakes that a probe makes. -/
def handshakes (p : Prober) (answer : Nat → Handshake) : List Handshake :=
  (List.range p.settings.samples).map answer

/-- What the samples and the outcome say of the handshakes so far. -/
structure Tells (hs : List Handshake) (sofar : List Duration × Outcome) : Prop where
  samples : sofar.1 = timesOf hs
  usable : sofar.2.isUsable = true ↔ timesOf hs ≠ []
  reachable : sofar.2 = .reachable ↔ ∃ d, .ok (d, .reachable) ∈ hs
  failed : timesOf hs = [] → ∀ o, hs.getLast? = some (.error o) → sofar.2 = o

theorem tells_nil : Tells [] ([], .unreachable) where
  samples := rfl
  usable := ⟨fun h => (by cases h), fun h => absurd rfl h⟩
  reachable := ⟨fun h => (by cases h), fun ⟨_, h⟩ => (by cases h)⟩
  failed _ _ h := (by cases h)

theorem timesOf_concat (hs : List Handshake) (h : Handshake) :
    timesOf (hs ++ [h]) = timesOf hs ++ timesOf [h] := List.filterMap_append

/-- One more handshake keeps them in step. -/
theorem Tells.step {hs : List Handshake} {sofar : List Duration × Outcome} {h : Handshake}
    (htells : Tells hs sofar) (hproper : h.Proper) : Tells (hs ++ [h]) (takeSample sofar h) := by
  obtain ⟨hsamples, husable, hreachable, hfailed⟩ := htells
  cases h with
  | ok success =>
    obtain ⟨rtt, o⟩ := success
    have hproper : o.isUsable = true := hproper
    have htimes : timesOf (hs ++ [.ok (rtt, o)]) = timesOf hs ++ [rtt] := timesOf_concat _ _
    have hsome : timesOf (hs ++ [.ok (rtt, o)]) ≠ [] := by
      rw [htimes]
      exact List.append_ne_nil_of_right_ne_nil _ (List.cons_ne_nil _ _)
    refine ⟨by rw [htimes, ← hsamples]; rfl, ⟨fun _ => hsome, fun _ => ?_⟩, ⟨fun h => ?_, ?_⟩,
      fun hnone => absurd hnone hsome⟩
    · -- a clean handshake is not downgraded, and anything else is replaced by what is usable
      simp only [takeSample]
      split
      · next hclean => rw [hclean]; rfl
      · exact hproper
    · simp only [takeSample] at h
      split at h
      · obtain ⟨d, hd⟩ := hreachable.mp h
        exact ⟨d, List.mem_append_left _ hd⟩
      · exact ⟨rtt, List.mem_append_right _ (by rw [h]; exact List.mem_singleton.mpr rfl)⟩
    · rintro ⟨d, hd⟩
      simp only [takeSample]
      split
      · next hclean => exact hclean
      · next hclean =>
        rcases List.mem_append.mp hd with hd | hd
        · exact absurd (hreachable.mpr ⟨d, hd⟩) hclean
        · cases List.mem_singleton.mp hd
          rfl
  | error o =>
    have hproper : o.isUsable = false := hproper
    have htimes : timesOf (hs ++ [.error o]) = timesOf hs :=
      (timesOf_concat _ _).trans (List.append_nil _)
    have hbefore : (∃ d, .ok (d, .reachable) ∈ hs ++ [.error o]) ↔ ∃ d, .ok (d, .reachable) ∈ hs := by
      simp
    refine ⟨by rw [htimes]; exact hsamples, ?_, ?_, ?_⟩
    · rw [htimes]
      simp only [takeSample]
      split
      · next hnone =>
        rw [← hsamples, hproper]
        exact ⟨fun h => (by cases h), fun h => absurd hnone h⟩
      · exact husable
    · rw [hbefore, ← hreachable]
      simp only [takeSample]
      split
      · next hnone =>
        -- with no sample so far neither the old outcome nor the new one is a clean handshake
        have hold : sofar.2 ≠ .reachable := fun h =>
          husable.mp (by rw [h]; rfl) (hsamples ▸ hnone)
        have hnew : o ≠ .reachable := fun h => by rw [h] at hproper; cases hproper
        exact ⟨fun h => absurd h hnew, fun h => absurd h hold⟩
      · exact Iff.rfl
    · intro hnone o' hlast
      rw [List.getLast?_concat] at hlast
      cases hlast
      simp only [takeSample]
      rw [if_pos (hsamples.trans (htimes ▸ hnone))]

/-- The loop over the handshakes keeps them in step. -/
theorem tells_foldl (hs : List Handshake) (hproper : ∀ h ∈ hs, h.Proper) :
    Tells hs (hs.foldl takeSample ([], .unreachable)) := by
  induction hs using List.reverseRecOn with
  | nil => exact tells_nil
  | append_singleton hs h ih =>
    rw [List.foldl_append]
    exact (ih fun h' hmem => hproper h' (List.mem_append_left _ hmem)).step
      (hproper h (List.mem_append_right _ (List.mem_singleton.mpr rfl)))

/-- A probe that is not skipped reports the median of the samples and the outcome of the loop. -/
theorem probe_run (p : Prober) (answer : Nat → Handshake) {endpoint : SocketAddr}
    (hexcluded : p.excluded ≠ some endpoint) :
    let taken := (p.handshakes answer).foldl takeSample ([], .unreachable)
    p.probe answer endpoint = ⟨endpoint, median taken.1, taken.1, taken.2⟩ := by
  rw [probe, if_neg hexcluded, handshakes, List.foldl_map]

/-- The samples are those of the successes, proper or not. -/
theorem foldl_samples (hs : List Handshake) (sofar : List Duration × Outcome) :
    (hs.foldl takeSample sofar).1 = sofar.1 ++ timesOf hs := by
  induction hs generalizing sofar with
  | nil => exact (List.append_nil _).symm
  | cons h hs ih =>
    rw [List.foldl_cons, ih]
    cases h with
    | ok success => exact List.append_assoc _ _ _
    | error o => rfl

theorem median_isSome {samples : List Duration} : (median samples).isSome = true ↔ samples ≠ [] := by
  rw [median, Option.isSome_iff_ne_none, ne_eq, List.getElem?_eq_none_iff,
    List.length_insertionSort, ← List.length_pos_iff]
  omega

theorem timesOf_ne_nil {hs : List Handshake} : timesOf hs ≠ [] ↔ ∃ h ∈ hs, h.isOk = true := by
  constructor
  · intro hne
    obtain ⟨d, hd⟩ := List.exists_mem_of_ne_nil _ hne
    obtain ⟨h, hmem, hsome⟩ := List.mem_filterMap.mp hd
    cases h with
    | ok => exact ⟨_, hmem, rfl⟩
    | error => cases hsome
  · rintro ⟨h, hmem, hok⟩ hnil
    cases h with
    | error => cases hok
    | ok success =>
      have hmem : success.1 ∈ timesOf hs := List.mem_filterMap.mpr ⟨_, hmem, rfl⟩
      rw [hnil] at hmem
      cases hmem

/-- The verdict of a probe and its time agree: there is a time exactly where a handshake succeeded,
and exactly where the outcome is usable. The outcome is the best of the successes, or else the last
failure, and the time is the lower median of the successes, in whatever order they came. -/
theorem probe_verdict (p : Prober) (answer : Nat → Handshake) {endpoint : SocketAddr}
    (hexcluded : p.excluded ≠ some endpoint) (hsamples : 1 ≤ p.settings.samples)
    (hproper : ∀ k < p.settings.samples, (answer k).Proper) :
    let result := p.probe answer endpoint
    (result.rtt.isSome = true ↔ ∃ k < p.settings.samples, (answer k).isOk = true) ∧
      (result.rtt.isSome = true ↔ result.outcome.isUsable = true) ∧
      (result.outcome = .reachable ↔
        ∃ k < p.settings.samples, ∃ d, answer k = .ok (d, .reachable)) ∧
      ((∀ k < p.settings.samples, (answer k).isOk = false) →
        answer (p.settings.samples - 1) = .error result.outcome) ∧
      (∀ d, result.rtt = some d → IsLower (timesOf (p.handshakes answer)) d) ∧
      ∀ answer', (timesOf (p.handshakes answer')).Perm (timesOf (p.handshakes answer)) →
        (p.probe answer' endpoint).rtt = result.rtt := by
  have hmem : ∀ h, h ∈ p.handshakes answer ↔ ∃ k < p.settings.samples, answer k = h := by
    simp [handshakes]
  have htells := tells_foldl (p.handshakes answer) fun h hh => by
    obtain ⟨k, hk, rfl⟩ := (hmem h).mp hh
    exact hproper k hk
  have hsome : timesOf (p.handshakes answer) ≠ [] ↔
      ∃ k < p.settings.samples, (answer k).isOk = true := by
    rw [timesOf_ne_nil]
    constructor
    · rintro ⟨h, hh, hok⟩
      obtain ⟨k, hk, rfl⟩ := (hmem h).mp hh
      exact ⟨k, hk, hok⟩
    · rintro ⟨k, hk, hok⟩
      exact ⟨_, (hmem _).mpr ⟨k, hk, rfl⟩, hok⟩
  have hlower : ∀ {answer : Nat → Handshake} {d}, median (timesOf (p.handshakes answer)) = some d →
      IsLower (timesOf (p.handshakes answer)) d := isLower_of_insertionSort
  have htaken : ∀ answer, ((p.handshakes answer).foldl takeSample ([], .unreachable)).1 =
      timesOf (p.handshakes answer) := by
    intro answer
    exact foldl_samples _ _
  rw [probe_run p answer hexcluded]
  dsimp only
  rw [htaken]
  refine ⟨median_isSome.trans hsome, median_isSome.trans htells.usable.symm, ?_, fun hnone => ?_,
    fun d => hlower, fun answer' hperm => ?_⟩
  · rw [htells.reachable]
    constructor
    · rintro ⟨d, hd⟩
      obtain ⟨k, hk, hanswer⟩ := (hmem _).mp hd
      exact ⟨k, hk, d, hanswer⟩
    · rintro ⟨k, hk, d, hanswer⟩
      exact ⟨d, (hmem _).mpr ⟨k, hk, hanswer⟩⟩
  · obtain ⟨o, ho⟩ : ∃ o, answer (p.settings.samples - 1) = .error o := by
      have hlast := hnone (p.settings.samples - 1) (by omega)
      cases hanswer : answer (p.settings.samples - 1) with
      | ok => rw [hanswer] at hlast; cases hlast
      | error o => exact ⟨o, rfl⟩
    rw [ho]
    refine congrArg Except.error (htells.failed ?_ o ?_).symm
    · by_contra hne
      obtain ⟨k, hk, hok⟩ := hsome.mp hne
      rw [hnone k hk] at hok
      cases hok
    · rw [handshakes, List.getLast?_map, List.getLast?_range, if_neg (by omega), Option.map_some,
        ho]
  · rw [probe_run p answer' hexcluded]
    dsimp only
    rw [htaken]
    cases hd : median (timesOf (p.handshakes answer)) with
    | none =>
      have hnil := Option.not_isSome_iff_eq_none.mpr hd
      rw [median_isSome, not_not] at hnil
      rw [hnil] at hperm
      rw [List.perm_nil.mp hperm]
      rfl
    | some d =>
      have hne : timesOf (p.handshakes answer') ≠ [] := by
        intro hnil
        rw [hnil] at hperm
        rw [List.nil_perm.mp hperm] at hd
        cases hd
      obtain ⟨d', hd'⟩ := Option.isSome_iff_exists.mp (median_isSome.mpr hne)
      rw [hd', ((hlower hd').of_perm hperm).unique (hlower hd)]

end Prober

namespace Sample

/-- A cookie, then silence, then two clean handshakes. -/
def mixed : Nat → Handshake
  | 0 => .ok (.ofMillis 30, .rateLimited)
  | 1 => .error .unreachable
  | 2 => .ok (.ofMillis 10, .reachable)
  | _ => .ok (.ofMillis 20, .reachable)

end Sample

theorem mixed_verdict : (Sample.prober.probe Sample.mixed ⟨.v4 0x0a000003, 1637⟩).rtt.isSome =
    (Sample.prober.probe Sample.mixed ⟨.v4 0x0a000003, 1637⟩).outcome.isUsable := by
  have hverdict := Prober.probe_verdict Sample.prober Sample.mixed
    (show Sample.prober.excluded ≠ some ⟨.v4 0x0a000003, 1637⟩ by decide) (by decide) fun k _ => by
      unfold Sample.mixed
      split <;> exact rfl
  exact Bool.eq_iff_iff.mpr hverdict.2.1

end Vpnmgr
