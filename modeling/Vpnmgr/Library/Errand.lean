import Vpnmgr.Library.Run
import Mathlib.Data.List.Basic
import Mathlib.Logic.Function.Basic

/-! Tasks that work on one view and ask things of one service. Between a request and its reply anything
else may happen, and a reply may be lost, its request carried out or not. -/

namespace Errand

open Stateful

/-- What the tasks and the service do. A task that asks for nothing acts on the view; one that asks goes
on with the reply, or with why there is none. -/
structure Office (ι τ ν σ Q A E B C : Type) where
  asks : τ → Option Q
  acts : ι → τ → ν → τ × ν
  told : τ → Except E A → τ
  handle : Q → σ → A × σ
  other : σ → B → σ
  change : ν → C → ν

/-- The view, the tasks, the answers under way, the service, and for stating what happened the requests
that the tasks made so far and those that were carried out, each as the task that waited on it. -/
structure System (ι τ ν σ A : Type) where
  view : ν
  tasks : ι → τ
  answers : ι → Option A
  state : σ
  asked : List (ι × τ)
  carried : List (ι × τ)

/-- A task acts, what it asks is carried out, it is told the answer or that there is none, the service
does something else, or the view is changed from without. -/
inductive Move (ι E B C : Type) where
  | act (i : ι)
  | carry (i : ι)
  | tell (i : ι)
  | lose (i : ι) (error : E)
  | other (b : B)
  | change (c : C)

/-- What one of the tasks has in a list of all of them. -/
def own {ι τ : Type} [DecidableEq ι] (i : ι) (log : List (ι × τ)) : List τ :=
  log.filterMap fun e => if e.1 = i then some e.2 else none

variable {ι τ ν σ Q A E B C : Type} [DecidableEq ι]

theorem own_append (i : ι) (log more : List (ι × τ)) :
    own i (log ++ more) = own i log ++ own i more := List.filterMap_append

@[simp] theorem own_self (i : ι) (t : τ) : own i [(i, t)] = [t] := by simp [own]

theorem own_other {i j : ι} (h : j ≠ i) (t : τ) : own i [(j, t)] = [] := by simp [own, h]

namespace Office

variable (w : Office ι τ ν σ Q A E B C)

/-- The requests that were made, with the one that a task makes where it goes on. -/
def asking (asked : List (ι × τ)) (i : ι) (t : τ) : List (ι × τ) :=
  if (w.asks t).isSome then asked ++ [(i, t)] else asked

/-- A task goes on, and leaves this view. -/
def go (s : System ι τ ν σ A) (i : ι) (t : τ) (v : ν) : System ι τ ν σ A :=
  { s with
    view := v
    tasks := Function.update s.tasks i t
    answers := Function.update s.answers i none
    asked := w.asking s.asked i t }

def carry (s : System ι τ ν σ A) (i : ι) (q : Q) : System ι τ ν σ A :=
  { s with
    answers := Function.update s.answers i (some (w.handle q s.state).1)
    state := (w.handle q s.state).2
    carried := s.carried ++ [(i, s.tasks i)] }

def step (s : System ι τ ν σ A) : Move ι E B C → System ι τ ν σ A
  | .act i =>
    match w.asks (s.tasks i) with
    | none => w.go s i (w.acts i (s.tasks i) s.view).1 (w.acts i (s.tasks i) s.view).2
    | some _ => s
  | .carry i =>
    match w.asks (s.tasks i), s.answers i with
    | some q, none => w.carry s i q
    | _, _ => s
  | .tell i =>
    match s.answers i with
    | some a => w.go s i (w.told (s.tasks i) (.ok a)) s.view
    | none => s
  | .lose i e =>
    match w.asks (s.tasks i) with
    | some _ => w.go s i (w.told (s.tasks i) (.error e)) s.view
    | none => s
  | .other b => { s with state := w.other s.state b }
  | .change c => { s with view := w.change s.view c }

/-- Some order of moves leads from the first state to the second. -/
def Runs : System ι τ ν σ A → System ι τ ν σ A → Prop := Reaches w.step fun _ _ => True

theorem runs_moves (s : System ι τ ν σ A) (moves : List (Move ι E B C)) :
    w.Runs s (moves.foldl w.step s) := by
  induction moves generalizing s with
  | nil => exact .here
  | cons move moves ih =>
    have hfirst : w.Runs s (w.step s move) := .next .here trivial
    exact hfirst.trans (ih _)

/-- An answer that the service gives in one of these states. -/
def Gives (R : σ → Prop) (q : Q) (a : A) : Prop := ∃ st, R st ∧ (w.handle q st).1 = a

theorem go_tasks_self (s : System ι τ ν σ A) (i : ι) (t : τ) (v : ν) :
    (w.go s i t v).tasks i = t := Function.update_self ..

theorem go_tasks_other (s : System ι τ ν σ A) {i j : ι} (h : j ≠ i) (t : τ) (v : ν) :
    (w.go s i t v).tasks j = s.tasks j := Function.update_of_ne h ..

theorem go_answers_self (s : System ι τ ν σ A) (i : ι) (t : τ) (v : ν) :
    (w.go s i t v).answers i = none := Function.update_self ..

theorem go_answers_other (s : System ι τ ν σ A) {i j : ι} (h : j ≠ i) (t : τ) (v : ν) :
    (w.go s i t v).answers j = s.answers j := Function.update_of_ne h ..

theorem carry_answers_self (s : System ι τ ν σ A) (i : ι) (q : Q) :
    (w.carry s i q).answers i = some (w.handle q s.state).1 := Function.update_self ..

theorem carry_answers_other (s : System ι τ ν σ A) {i j : ι} (h : j ≠ i) (q : Q) :
    (w.carry s i q).answers j = s.answers j := Function.update_of_ne h ..

/-- A task that goes on asks for one thing more, or for nothing. -/
theorem own_asking_self (asked : List (ι × τ)) (i : ι) (t : τ) :
    own i (w.asking asked i t) = own i asked ++ if (w.asks t).isSome then [t] else [] := by
  unfold asking
  split
  · rw [own_append, own_self]
  · rw [List.append_nil]

theorem own_asking_other (asked : List (ι × τ)) {i j : ι} (h : j ≠ i) (t : τ) :
    own i (w.asking asked j t) = own i asked := by
  unfold asking
  split
  · rw [own_append, own_other h, List.append_nil]
  · rfl

/-! ### The rule -/

/-- The service is in one of these states, what is under way are answers that it gives there to what was
asked, and the view and the tasks are as they should. -/
structure Sound (R : σ → Prop) (K : ν → (ι → τ) → List (ι × τ) → Prop) (s : System ι τ ν σ A) :
    Prop where
  state : R s.state
  answers : ∀ i a, s.answers i = some a → ∃ q, w.asks (s.tasks i) = some q ∧ w.Gives R q a
  kept : K s.view s.tasks s.asked

/-- What the moves of tasks keep, whatever they are told that the service may give. -/
structure Keeps (R : σ → Prop) (K : ν → (ι → τ) → List (ι × τ) → Prop) : Prop where
  handle : ∀ q st, R st → R (w.handle q st).2
  other : ∀ st b, R st → R (w.other st b)
  act : ∀ v ts asked i, w.asks (ts i) = none → K v ts asked →
    K (w.acts i (ts i) v).2 (Function.update ts i (w.acts i (ts i) v).1)
      (w.asking asked i (w.acts i (ts i) v).1)
  tell : ∀ v ts asked i q r, w.asks (ts i) = some q → (∀ a, r = .ok a → w.Gives R q a) →
    K v ts asked → K v (Function.update ts i (w.told (ts i) r)) (w.asking asked i (w.told (ts i) r))
  change : ∀ v ts asked c, K v ts asked → K (w.change v c) ts asked

variable {w} {R : σ → Prop} {K : ν → (ι → τ) → List (ι × τ) → Prop}

theorem Sound.go {s : System ι τ ν σ A} (hs : w.Sound R K s) {i : ι} {t : τ} {v : ν}
    (hkept : K v (Function.update s.tasks i t) (w.asking s.asked i t)) :
    w.Sound R K (w.go s i t v) where
  state := hs.state
  answers j a hj := by
    by_cases hij : j = i
    · subst hij
      cases (go_answers_self w s j t v).symm.trans hj
    · rw [go_answers_other w s hij] at hj
      rw [go_tasks_other w s hij]
      exact hs.answers j a hj
  kept := hkept

theorem Keeps.step (h : w.Keeps R K) {s : System ι τ ν σ A} (hs : w.Sound R K s)
    (m : Move ι E B C) : w.Sound R K (w.step s m) := by
  cases m with
  | act i =>
    rw [Office.step]
    split
    · next hnone => exact hs.go (h.act _ _ _ _ hnone hs.kept)
    · exact hs
  | carry i =>
    rw [Office.step]
    split
    · next q hq hnone =>
      refine ⟨h.handle _ _ hs.state, fun j a hj => ?_, hs.kept⟩
      by_cases hij : j = i
      · subst hij
        cases (carry_answers_self w s j q).symm.trans hj
        exact ⟨q, hq, s.state, hs.state, rfl⟩
      · exact hs.answers j a ((carry_answers_other w s hij q).symm.trans hj)
    · exact hs
  | tell i =>
    rw [Office.step]
    split
    · next a ha =>
      obtain ⟨q, hq, hgives⟩ := hs.answers i a ha
      exact hs.go (h.tell _ _ _ _ q _ hq (fun _ h => by cases h; exact hgives) hs.kept)
    · exact hs
  | lose i e =>
    rw [Office.step]
    split
    · next q hq => exact hs.go (h.tell _ _ _ _ q _ hq (fun _ h => by cases h) hs.kept)
    · exact hs
  | other b => exact ⟨h.other _ _ hs.state, hs.answers, hs.kept⟩
  | change c => exact ⟨hs.state, hs.answers, h.change _ _ _ _ hs.kept⟩

/-- What the moves keep holds in every run. -/
theorem Keeps.runs (h : w.Keeps R K) {s s' : System ι τ ν σ A} (hrun : w.Runs s s')
    (hs : w.Sound R K s) : w.Sound R K s' :=
  hrun.keeps (fun _ m _ hs => h.step hs m) hs

/-! ### Each request once -/

/-- Of what a task asked, what was carried out is in the same order, each once at most; and what it asks
now is the last, which is not carried out where no answer is under way. -/
structure Once (w : Office ι τ ν σ Q A E B C) (i : ι) (s : System ι τ ν σ A) : Prop where
  carried : (own i s.carried).Sublist (own i s.asked)
  waiting : (w.asks (s.tasks i)).isSome = true → s.answers i = none →
    ∃ before, own i s.asked = before ++ [s.tasks i] ∧ (own i s.carried).Sublist before
  answers : ∀ a, s.answers i = some a → (w.asks (s.tasks i)).isSome = true

theorem Once.go {i : ι} {s : System ι τ ν σ A} (h : w.Once i s) (j : ι) (t : τ) (v : ν) :
    w.Once i (w.go s j t v) := by
  by_cases hij : i = j
  · subst hij
    have hasked : own i (w.go s i t v).asked =
        own i s.asked ++ if (w.asks t).isSome then [t] else [] := own_asking_self ..
    refine ⟨?_, fun hsome _ => ⟨own i s.asked, ?_, h.carried⟩, fun a ha => ?_⟩
    · rw [hasked]
      exact h.carried.trans (List.sublist_append_left _ _)
    · rw [go_tasks_self] at hsome ⊢
      rw [hasked, if_pos hsome]
    · cases (go_answers_self w s i t v).symm.trans ha
  · have hasked : own i (w.go s j t v).asked = own i s.asked := own_asking_other w _ (Ne.symm hij) _
    refine ⟨hasked ▸ h.carried, ?_, ?_⟩
    · rw [go_tasks_other w s hij, go_answers_other w s hij, hasked]
      exact h.waiting
    · rw [go_tasks_other w s hij, go_answers_other w s hij]
      exact h.answers

theorem Once.carry {i : ι} {s : System ι τ ν σ A} (h : w.Once i s) {j : ι} {q : Q}
    (hq : w.asks (s.tasks j) = some q) (hnone : s.answers j = none) : w.Once i (w.carry s j q) := by
  by_cases hij : i = j
  · subst hij
    obtain ⟨before, hasked, hcarried⟩ := h.waiting (by rw [hq]; rfl) hnone
    refine ⟨?_, fun _ hn => ?_, fun _ _ => by rw [Office.carry, hq]; rfl⟩
    · rw [Office.carry, own_append, own_self, hasked]
      exact hcarried.append_right _
    · cases (carry_answers_self w s i q).symm.trans hn
  · have hcarried : own i (w.carry s j q).carried = own i s.carried := by
      rw [Office.carry, own_append, own_other (Ne.symm hij), List.append_nil]
    refine ⟨hcarried ▸ h.carried, ?_, ?_⟩
    · rw [carry_answers_other w s hij, hcarried]
      exact h.waiting
    · rw [carry_answers_other w s hij]
      exact h.answers

theorem Once.step {i : ι} {s : System ι τ ν σ A} (h : w.Once i s) (m : Move ι E B C) :
    w.Once i (w.step s m) := by
  cases m with
  | act j =>
    rw [Office.step]
    split
    · exact h.go ..
    · exact h
  | carry j =>
    rw [Office.step]
    split
    · next q hq hnone => exact h.carry hq hnone
    · exact h
  | tell j =>
    rw [Office.step]
    split
    · exact h.go ..
    · exact h
  | lose j e =>
    rw [Office.step]
    split
    · exact h.go ..
    · exact h
  | other b => exact ⟨h.carried, h.waiting, h.answers⟩
  | change c => exact ⟨h.carried, h.waiting, h.answers⟩

theorem Once.runs {i : ι} {s s' : System ι τ ν σ A} (hrun : w.Runs s s') (h : w.Once i s) :
    w.Once i s' :=
  hrun.keeps (fun _ m _ hs => hs.step m) h

end Office

end Errand
