import Vpnmgr.Library.Run
import Mathlib.Data.List.Basic
import Mathlib.Algebra.BigOperators.Group.List.Basic
import Mathlib.Algebra.Ring.Nat

/-! Tasks that are spawned together, hold a permit while they run, and are joined in the order they
were spawned. The turns of the tasks come in any order. -/

namespace Pool

open Stateful

variable {σ β μ : Type}

inductive Task (σ β : Type) where
  /-- The task has no permit yet. -/
  | waiting
  | running (s : σ)
  | done (b : β)

/-- How a task starts, and one turn of it: what it sends, and how it goes on or what it returns. -/
structure Program (σ β μ : Type) where
  start : σ
  turn : ℕ → σ → List μ × (σ ⊕ β)

/-- The tasks, and what they have sent with the latest first. -/
structure Tasks (σ β μ : Type) where
  tasks : List (Task σ β)
  sent : List μ

namespace Task

def isRunning : Task σ β → Bool
  | running _ => true
  | _ => false

def result : Task σ β → Option β
  | done b => some b
  | _ => none

/-- What a turn leaves of a task. -/
def after : σ ⊕ β → Task σ β
  | .inl s => running s
  | .inr b => done b

end Task

/-- Tasks that have just been spawned. -/
def spawned (n : ℕ) : Tasks σ β μ := ⟨List.replicate n .waiting, []⟩

namespace Tasks

/-- How many permits are taken. -/
def taken (ts : Tasks σ β μ) : ℕ := ts.tasks.countP Task.isRunning

/-- What the tasks have returned, once all have. -/
def joined (ts : Tasks σ β μ) : Option (List β) := ts.tasks.mapM Task.result

end Tasks

/-- The turn of one task: it takes a permit, or goes on with its program. -/
def step (p : Program σ β μ) (ts : Tasks σ β μ) (i : ℕ) : Tasks σ β μ :=
  match ts.tasks[i]? with
  | some .waiting => { ts with tasks := ts.tasks.set i (.running p.start) }
  | some (.running s) =>
    ⟨ts.tasks.set i (.after (p.turn i s).2), (p.turn i s).1 ++ ts.sent⟩
  | _ => ts

/-- A waiting task has its turn while a permit is free, and a running one at any time. -/
def Allowed (limit : ℕ) (ts : Tasks σ β μ) (i : ℕ) : Prop :=
  match ts.tasks[i]? with
  | some .waiting => ts.taken < limit
  | some (.running _) => True
  | _ => False

/-- Some order of turns leads from the first to the second. -/
abbrev Runs (p : Program σ β μ) (limit : ℕ) : Tasks σ β μ → Tasks σ β μ → Prop :=
  Reaches (step p) (Allowed limit)

/-- A state that a task comes to by itself. -/
inductive Comes (p : Program σ β μ) (i : ℕ) : σ → Prop where
  | start : Comes p i p.start
  | next {s s' : σ} : Comes p i s → (p.turn i s).2 = .inl s' → Comes p i s'

/-- What a task returns by itself. -/
def Returns (p : Program σ β μ) (i : ℕ) (b : β) : Prop :=
  ∃ s, Comes p i s ∧ (p.turn i s).2 = .inr b

/-- What a task sends by itself. -/
def Sends (p : Program σ β μ) (i : ℕ) (m : μ) : Prop := ∃ s, Comes p i s ∧ m ∈ (p.turn i s).1

/-- A task is where its own program takes it. -/
def Task.Follows (p : Program σ β μ) (i : ℕ) : Task σ β → Prop
  | waiting => True
  | running s => Comes p i s
  | done b => Returns p i b

/-- Every task is where its own program takes it, whatever the others do. -/
structure Tasks.Apart (p : Program σ β μ) (n : ℕ) (ts : Tasks σ β μ) : Prop where
  length : ts.tasks.length = n
  follows : ∀ i (t : Task σ β), ts.tasks[i]? = some t → t.Follows p i
  sent : ∀ m ∈ ts.sent, ∃ i < n, Sends p i m

variable {p : Program σ β μ} {n limit : ℕ} {ts ts' : Tasks σ β μ}

theorem spawned_apart : (spawned n : Tasks σ β μ).Apart p n where
  length := List.length_replicate
  follows i t h := by
    obtain rfl := List.eq_of_mem_replicate (List.mem_of_getElem? h)
    exact trivial
  sent m hm := absurd hm List.not_mem_nil

theorem Tasks.Apart.follows_set (h : ts.Apart p n) {i : ℕ} {t : Task σ β} (ht : t.Follows p i) :
    ∀ j (u : Task σ β), (ts.tasks.set i t)[j]? = some u → u.Follows p j := by
  intro j u hu
  rw [List.getElem?_set] at hu
  split at hu
  · next hij =>
    subst hij
    split at hu
    · cases hu
      exact ht
    · cases hu
  · exact h.follows j u hu

/-- One turn keeps the tasks apart. -/
theorem Tasks.Apart.step (h : ts.Apart p n) (i : ℕ) : (Pool.step p ts i).Apart p n := by
  unfold Pool.step
  split
  · exact ⟨(List.length_set).trans h.length, h.follows_set .start, h.sent⟩
  · next s hs =>
    have hcomes : Comes p i s := h.follows i _ hs
    have hfollows : (Task.after (p.turn i s).2).Follows p i := by
      cases hturn : (p.turn i s).2 with
      | inl s' => exact hcomes.next hturn
      | inr b => exact ⟨s, hcomes, hturn⟩
    refine ⟨(List.length_set).trans h.length, h.follows_set hfollows, fun m hm => ?_⟩
    rcases List.mem_append.mp hm with hm | hm
    · have hi : i < n := h.length ▸ (List.getElem?_eq_some_iff.mp hs).1
      exact ⟨i, hi, s, hcomes, hm⟩
    · exact h.sent m hm
  · exact h

theorem Runs.apart (h : Runs p limit (spawned n) ts) : ts.Apart p n :=
  h.keeps (fun _ i _ hts => hts.step i) spawned_apart

theorem getElem?_of_mapM {α : Type} {f : α → Option β} {as : List α} {bs : List β}
    (h : as.mapM f = some bs) : bs.length = as.length ∧
      ∀ (i : ℕ) b, bs[i]? = some b → ∃ a, as[i]? = some a ∧ f a = some b := by
  induction as generalizing bs with
  | nil =>
    cases h
    exact ⟨rfl, fun i b hb => (by simp at hb)⟩
  | cons a as ih =>
    rw [List.mapM_cons] at h
    obtain ⟨b₀, hb₀, h⟩ := Option.bind_eq_some_iff.mp h
    obtain ⟨bs₀, hbs₀, h⟩ := Option.bind_eq_some_iff.mp h
    cases h
    obtain ⟨hlength, hget⟩ := ih hbs₀
    refine ⟨by simp [hlength], fun i b hb => ?_⟩
    cases i with
    | zero =>
      cases hb
      exact ⟨a, rfl, hb₀⟩
    | succ i => exact hget i b hb

theorem exists_none_of_mapM {α : Type} {f : α → Option β} {as : List α} (h : as.mapM f = none) :
    ∃ a ∈ as, f a = none := by
  induction as with
  | nil => cases h
  | cons a as ih =>
    rw [List.mapM_cons] at h
    cases ha : f a with
    | none => exact ⟨a, List.mem_cons_self, ha⟩
    | some b =>
      cases has : as.mapM f with
      | none =>
        obtain ⟨a', hmem, hnone⟩ := ih has
        exact ⟨a', List.mem_cons_of_mem _ hmem, hnone⟩
      | some bs =>
        rw [ha, has] at h
        cases h

/-- Once all are joined, the results are those of the tasks by themselves, in spawn order. -/
theorem Runs.joined {bs : List β} (h : Runs p limit (spawned n) ts) (hjoined : ts.joined = some bs) :
    bs.length = n ∧ ∀ (i : ℕ) b, bs[i]? = some b → Returns p i b := by
  have hapart := h.apart
  obtain ⟨hlength, hget⟩ := getElem?_of_mapM hjoined
  refine ⟨hlength.trans hapart.length, fun i b hb => ?_⟩
  obtain ⟨t, ht, hresult⟩ := hget i b hb
  have hfollows := hapart.follows i t ht
  cases t with
  | waiting => cases hresult
  | running => cases hresult
  | done b' =>
    cases hresult
    exact hfollows

/-! ### Every run comes to its end -/

/-- The turns that are still to come of a task, where each turn lowers the cost of its state. -/
def Task.left (p : Program σ β μ) (cost : ℕ → σ → ℕ) (i : ℕ) : Task σ β → ℕ
  | waiting => cost i p.start + 2
  | running s => cost i s + 1
  | done _ => 0

def Tasks.left (p : Program σ β μ) (cost : ℕ → σ → ℕ) (ts : Tasks σ β μ) : ℕ :=
  (ts.tasks.mapIdx fun i t => t.left p cost i).sum

theorem sum_set_lt {f : ℕ → Task σ β → ℕ} {l : List (Task σ β)} {i : ℕ} {t u : Task σ β}
    (ht : l[i]? = some t) (hlt : f i u < f i t) :
    ((l.set i u).mapIdx f).sum < (l.mapIdx f).sum := by
  induction l generalizing f i with
  | nil => cases ht
  | cons a l ih =>
    cases i with
    | zero =>
      cases ht
      simpa using hlt
    | succ i =>
      rw [List.set_cons_succ, List.mapIdx_cons, List.mapIdx_cons, List.sum_cons, List.sum_cons]
      exact Nat.add_lt_add_left (ih (f := fun j => f (j + 1)) ht hlt) _

/-- Each turn leaves fewer of them. -/
theorem step_left {cost : ℕ → σ → ℕ}
    (hcost : ∀ i s s', (p.turn i s).2 = .inl s' → cost i s' < cost i s) {i : ℕ}
    (hallowed : Allowed limit ts i) : (step p ts i).left p cost < ts.left p cost := by
  unfold Allowed at hallowed
  unfold step Tasks.left
  split at hallowed
  · next hwaiting => exact sum_set_lt hwaiting (Nat.lt_succ_self _)
  · next s hs =>
    refine sum_set_lt hs ?_
    cases hturn : (p.turn i s).2 with
    | inl s' => exact Nat.succ_lt_succ (hcost i s s' hturn)
    | inr b => exact Nat.succ_pos _
  · exact hallowed.elim

/-- Where some task has not returned and there are permits at all, some task has its turn. -/
theorem exists_allowed (hlimit : 0 < limit) (hnot : ts.joined = none) : ∃ i, Allowed limit ts i := by
  by_cases hrunning : ts.taken = 0
  · obtain ⟨t, ht, hresult⟩ : ∃ t ∈ ts.tasks, t.result = none := exists_none_of_mapM hnot
    obtain ⟨i, hi, rfl⟩ := List.getElem_of_mem ht
    refine ⟨i, ?_⟩
    rw [Allowed, List.getElem?_eq_getElem hi]
    cases hget : ts.tasks[i] with
    | waiting => rw [hrunning]; exact hlimit
    | running => exact trivial
    | done b => rw [hget] at hresult; cases hresult
  · obtain ⟨t, ht, hone⟩ := List.countP_pos_iff.mp (Nat.pos_of_ne_zero hrunning)
    obtain ⟨i, hi, rfl⟩ := List.getElem_of_mem ht
    refine ⟨i, ?_⟩
    rw [Allowed, List.getElem?_eq_getElem hi]
    cases hget : ts.tasks[i] with
    | running => exact trivial
    | waiting => rw [hget] at hone; cases hone
    | done b => rw [hget] at hone; cases hone

/-- Every run can be carried on until all tasks are joined. -/
theorem Runs.finishes (cost : ℕ → σ → ℕ)
    (hcost : ∀ i s s', (p.turn i s).2 = .inl s' → cost i s' < cost i s) (hlimit : 0 < limit)
    (h : Runs p limit ts' ts) : ∃ last bs, Runs p limit ts' last ∧ last.joined = some bs := by
  induction hleft : ts.left p cost using Nat.strong_induction_on generalizing ts with
  | _ left ih =>
    cases hjoined : ts.joined with
    | some bs => exact ⟨ts, bs, h, hjoined⟩
    | none =>
      obtain ⟨i, hallowed⟩ := exists_allowed hlimit hjoined
      exact ih _ (hleft ▸ step_left hcost hallowed) (h.next hallowed) rfl

end Pool
