import Vpnmgr.Library.BufRead
import Vpnmgr.Library.Run
import Mathlib.Logic.Function.Basic

/-! Clients that ask one thing at a time over byte streams of their own, a server that answers each
from one shared state, and the account of every message whatever the streams and the tasks do. -/

namespace Exchange

open BufRead Stateful

/-- What the server takes a piece of its input for. -/
inductive Heard (β Q : Type) where
  | request (request : Q)
  | refused (reply : List β)
  | unreadable

/-- How requests and responses cross a pair of streams, what answers them, and what else happens to
the state. -/
structure Service (β σ Q A R B : Type) where
  delimiter : β
  limit : Nat
  fits : Q → Prop
  ask : Q → List β
  hear : List β → Heard β Q
  handle : Q → σ → A × σ
  line : A → List β
  read : List β → R
  background : B → σ → σ

/-- A request is a line within the limit, and neither it nor what a client that breaks off leaves of
it is heard as another. A response is a line. -/
structure Service.Lawful {β σ Q A R B : Type} (w : Service β σ Q A R B) : Prop where
  asks : ∀ q, w.fits q → ∃ body, w.delimiter ∉ body ∧ w.ask q = body ++ [w.delimiter]
  within : ∀ q, w.fits q → (w.ask q).length ≤ w.limit
  hears : ∀ q, w.fits q → w.hear (w.ask q) = .request q
  cuts : ∀ q q' piece, w.fits q → piece <+: w.ask q → w.hear piece = .request q' → q' = q
  lines : ∀ a, ∃ body, w.delimiter ∉ body ∧ w.line a = body ++ [w.delimiter]

/-- What the task that serves a connection is at. -/
inductive Task (β : Type) where
  | reading
  | holding (piece : List β)
  | ended

/-- What a task has read and not answered. -/
def Task.piece {β : Type} : Task β → List β
  | holding piece => piece
  | reading | ended => []

/-- A channel: what its client asked and was told, whether it waits or is gone, the bytes on the
way to the server and arrived there, the task, and the bytes on the way back and arrived. -/
structure Channel (β Q R : Type) where
  asked : List Q
  replies : List R
  waiting : Bool
  gone : Bool
  up : List β
  got : List β
  task : Task β
  down : List β
  back : List β

/-- A channel on which nothing has happened. -/
def Channel.fresh {β Q R : Type} : Channel β Q R :=
  ⟨[], [], false, false, [], [], .reading, [], []⟩

/-- What has been carried out: a request of a client with its response, or something else. -/
inductive Entry (ι Q A B : Type) where
  | answered (i : ι) (request : Q) (response : A)
  | other (b : B)

/-- The request and response of an entry, if it is of this client. -/
def Entry.of {ι Q A B : Type} [DecidableEq ι] (i : ι) : Entry ι Q A B → Option (Q × A)
  | answered j q a => if j = i then some (q, a) else none
  | other _ => none

/-- The requests of a client that were carried out, with their responses. -/
def done {ι Q A B : Type} [DecidableEq ι] (i : ι) (log : List (Entry ι Q A B)) : List (Q × A) :=
  log.filterMap (Entry.of i)

structure System (ι β σ Q A R B : Type) where
  state : σ
  channels : ι → Channel β Q R
  log : List (Entry ι Q A B)

def System.put {ι β σ Q A R B : Type} [DecidableEq ι] (s : System ι β σ Q A R B) (i : ι)
    (c : Channel β Q R) : System ι β σ Q A R B :=
  { s with channels := Function.update s.channels i c }

/-- What happens on a connection besides an answer. A client asks, hears back or goes, of whose last
words only some may have been written. Bytes arrive. The task reads, or is abandoned with some of
its last words unwritten. -/
inductive Motion (Q : Type) where
  | ask (request : Q)
  | carry (n : Nat)
  | hear
  | bring (n : Nat)
  | receive
  | leave (n : Nat)
  | abandon (n : Nat)

inductive Move (ι Q B : Type) where
  | on (i : ι) (motion : Motion Q)
  | answer (i : ι)
  | other (b : B)

namespace Service

variable {ι β σ Q A R B : Type} [DecidableEq ι] (w : Service β σ Q A R B)

section Steps

variable [DecidableEq β]

/-- What the next read of the task takes. -/
def piece (c : Channel β Q R) : List β := (through w.delimiter c.got).take w.limit

def moved (c : Channel β Q R) : Motion Q → Channel β Q R
  | .ask q => { c with asked := c.asked ++ [q], waiting := true, up := c.up ++ w.ask q }
  | .carry n => { c with got := c.got ++ c.up.take n, up := c.up.drop n }
  | .hear => { c with
      got := c.got.drop (w.piece c).length
      -- a read that brings nothing is the end of the stream
      task := if w.piece c = [] then .ended else .holding (w.piece c) }
  | .bring n => { c with back := c.back ++ c.down.take n, down := c.down.drop n }
  | .receive => { c with
      replies := c.replies ++ [w.read (through w.delimiter c.back)]
      back := c.back.drop (through w.delimiter c.back).length
      waiting := false
      -- a reply without its delimiter ends with the stream
      gone := decide (w.delimiter ∉ c.back) }
  | .leave n => { c with up := c.up.take n, waiting := false, gone := true }
  | .abandon n => { c with task := .ended, down := c.down.take n }

/-- When a motion can happen. A client asks when it has its last reply, and reads up to a delimiter
or the end of the stream, as the task does within its limit. -/
def can (c : Channel β Q R) : Motion Q → Prop
  | .ask q => c.waiting = false ∧ c.gone = false ∧ w.fits q
  | .hear => c.task = .reading ∧ (w.delimiter ∈ w.piece c ∨ (w.piece c).length = w.limit ∨
      (c.gone = true ∧ c.up = []))
  | .receive => c.waiting = true ∧ c.gone = false ∧
      (w.delimiter ∈ c.back ∨ (c.task = .ended ∧ c.down = []))
  | .carry _ | .bring _ | .leave _ | .abandon _ => True

/-- The task answers what it holds, with the state to itself. -/
def answer (i : ι) (s : System ι β σ Q A R B) : System ι β σ Q A R B :=
  let c := s.channels i
  match c.task with
  | .holding piece =>
    match w.hear piece with
    | .request q =>
      let (a, state) := w.handle q s.state
      ⟨state,
        Function.update s.channels i { c with task := .reading, down := c.down ++ w.line a },
        s.log ++ [.answered i q a]⟩
    | .refused reply => s.put i { c with task := .reading, down := c.down ++ reply }
    | .unreadable => s.put i { c with task := .ended }
  | .reading | .ended => s

def step (s : System ι β σ Q A R B) : Move ι Q B → System ι β σ Q A R B
  | .on i motion => s.put i (w.moved (s.channels i) motion)
  | .answer i => w.answer i s
  | .other b => { s with state := w.background b s.state, log := s.log ++ [.other b] }

def allowed (s : System ι β σ Q A R B) : Move ι Q B → Prop
  | .on i motion => w.can (s.channels i) motion
  | .answer _ | .other _ => True

/-- Before any client has asked anything. -/
def start (state : σ) : System ι β σ Q A R B := ⟨state, fun _ => .fresh, []⟩

end Steps

/-- The log is a run of the sequential service from one state to another: every response in it is
what the service gave there. -/
def Runs : σ → List (Entry ι Q A B) → σ → Prop
  | s, [], s' => s' = s
  | s, .answered _ q a :: log, s' => (w.handle q s).1 = a ∧ Runs (w.handle q s).2 log s'
  | s, .other b :: log, s' => Runs (w.background b s) log s'

/-! ### The account of a connection -/

/-- What became of everything that a client asked, given which of it was carried out: a last request
that was not, a last response that the client has not had, the responses that it has, and a last
reply that breaks off. At most one message is anywhere on its way, all of it as long as client and
task are both there. -/
structure Account (c : Channel β Q R) (pairs : List (Q × A)) (lost : List Q) (owed told : List A)
    (broken : List R) : Prop where
  asked : c.asked = pairs.map Prod.fst ++ lost
  answered : pairs.map Prod.snd = told ++ owed
  replies : c.replies = told.map (fun a => w.read (w.line a)) ++ broken
  one : lost.length + owed.length ≤ 1
  fits : ∀ q ∈ lost, w.fits q
  unheard : c.task.piece ++ (c.got ++ c.up) <+: lost.flatMap w.ask
  unread : c.gone = false → c.back ++ c.down <+: owed.flatMap w.line
  whole : c.gone = false → c.task ≠ .ended →
    c.task.piece ++ (c.got ++ c.up) = lost.flatMap w.ask ∧ c.back ++ c.down = owed.flatMap w.line
  waits : c.gone = false → (c.waiting = false ↔ lost = [] ∧ owed = [])
  held : ∀ piece, c.task = .holding piece → piece ≠ [] ∧ c.got = [] ∧ c.up = []
  closed : broken ≠ [] → c.gone = true
  breaks : ∀ r ∈ broken, ∃ piece, piece <+: owed.flatMap w.line ∧ w.delimiter ∉ piece ∧
    r = w.read piece
  few : broken.length ≤ lost.length + owed.length

theorem account_fresh : Account w (A := A) (.fresh : Channel β Q R) [] [] [] [] [] where
  asked := rfl
  answered := rfl
  replies := rfl
  one := Nat.zero_le 1
  fits _ h := nomatch h
  unheard := List.prefix_refl []
  unread _ := List.prefix_refl []
  whole _ _ := ⟨rfl, rfl⟩
  waits _ := ⟨fun _ => ⟨rfl, rfl⟩, fun _ => rfl⟩
  held _ h := nomatch h
  closed h := absurd rfl h
  breaks _ h := nomatch h
  few := Nat.le_refl 0

/-- A part of a line is read as far as it goes, and has the delimiter only if it is the line. -/
theorem through_part [DecidableEq β] {d : β} {body part : List β} (h : d ∉ body)
    (hpart : part <+: body ++ [d]) : through d part = part ∧ (d ∈ part → part = body ++ [d]) := by
  rcases List.prefix_concat_iff.mp hpart with rfl | hpart
  · refine ⟨?_, fun _ => rfl⟩
    rw [through_append_of_not_mem h, through, if_pos rfl]
  · have hnone : d ∉ part := fun hmem => h (hpart.subset hmem)
    refine ⟨?_, fun hmem => absurd hmem hnone⟩
    have hthrough := through_append_of_not_mem hnone []
    rwa [through, List.append_nil] at hthrough

namespace Account

variable {w} {c : Channel β Q R} {pairs : List (Q × A)} {lost : List Q} {owed told : List A}
  {broken : List R}

/-- Whoever has bytes of a request on the way has asked one. -/
theorem pending (h : w.Account c pairs lost owed told broken)
    (hne : c.task.piece ++ (c.got ++ c.up) ≠ []) : ∃ q, lost = [q] ∧ owed = [] := by
  have hone := h.one
  cases lost with
  | nil => exact absurd (List.prefix_nil.mp h.unheard) hne
  | cons q lost =>
    rw [List.length_cons] at hone
    exact ⟨q, by rw [List.length_eq_zero_iff.mp (by omega : lost.length = 0)],
      List.length_eq_zero_iff.mp (by omega)⟩

/-- Whoever has bytes of a response on the way is owed one. -/
theorem due (h : w.Account c pairs lost owed told broken) (hgone : c.gone = false)
    (hne : c.back ++ c.down ≠ []) : ∃ a, owed = [a] ∧ lost = [] := by
  have hone := h.one
  cases owed with
  | nil => exact absurd (List.prefix_nil.mp (h.unread hgone)) hne
  | cons a owed =>
    rw [List.length_cons] at hone
    exact ⟨a, by rw [List.length_eq_zero_iff.mp (by omega : owed.length = 0)],
      List.length_eq_zero_iff.mp (by omega)⟩

variable [DecidableEq β]

theorem ask (h : w.Account c pairs lost owed told broken) {q : Q} (hcan : w.can c (.ask q)) :
    w.Account (w.moved c (.ask q)) pairs [q] [] told [] := by
  obtain ⟨hwaiting, hgone, hfits⟩ := hcan
  obtain ⟨rfl, rfl⟩ := (h.waits hgone).mp hwaiting
  have hbroken : broken = [] := by
    by_contra hne
    rw [h.closed hne] at hgone
    cases hgone
  have hnone : c.task.piece ++ (c.got ++ c.up) = [] := List.prefix_nil.mp h.unheard
  have hasked : c.task.piece ++ (c.got ++ (c.up ++ w.ask q)) = w.ask q := by
    rw [← List.append_assoc, ← List.append_assoc, List.append_assoc c.task.piece, hnone,
      List.nil_append]
  exact {
    asked := by rw [moved, h.asked, List.append_nil]
    answered := h.answered
    replies := by rw [moved, h.replies, hbroken]
    one := Nat.le_refl 1
    fits := by simpa using hfits
    unheard := by simp [moved, hasked]
    unread := h.unread
    whole := fun hgone hended => ⟨by rw [moved, hasked, List.flatMap_singleton],
      (h.whole hgone hended).2⟩
    waits := fun _ => by simp [moved]
    held := fun piece hpiece => by
      have hheld := (h.held piece hpiece).1
      rw [show c.task = _ from hpiece] at hnone
      exact absurd (List.append_eq_nil_iff.mp hnone).1 hheld
    closed := fun hne => absurd rfl hne
    breaks := fun _ hr => nomatch hr
    few := Nat.zero_le _ }

theorem carry (h : w.Account c pairs lost owed told broken) (n : Nat) :
    w.Account (w.moved c (.carry n)) pairs lost owed told broken := by
  have hsame : (w.moved c (.carry n)).got ++ (w.moved c (.carry n)).up = c.got ++ c.up := by
    simp [moved]
  exact { h with
    unheard := by
      rw [hsame]
      exact h.unheard
    whole := fun hgone hended => by
      rw [hsame]
      exact h.whole hgone hended
    held := fun piece hpiece => by
      obtain ⟨hne, hgot, hup⟩ := h.held piece hpiece
      exact ⟨hne, by simp [moved, hgot, hup], by simp [moved, hup]⟩ }

theorem bring (h : w.Account c pairs lost owed told broken) (n : Nat) :
    w.Account (w.moved c (.bring n)) pairs lost owed told broken := by
  have hsame : (w.moved c (.bring n)).back ++ (w.moved c (.bring n)).down = c.back ++ c.down := by
    simp [moved]
  exact { h with
    unread := fun hgone => by
      rw [hsame]
      exact h.unread hgone
    whole := fun hgone hended => by
      rw [hsame]
      exact h.whole hgone hended }

theorem leave (h : w.Account c pairs lost owed told broken) (n : Nat) :
    w.Account (w.moved c (.leave n)) pairs lost owed told broken := by
  have hpart : c.task.piece ++ (c.got ++ c.up.take n) <+: c.task.piece ++ (c.got ++ c.up) :=
    (List.prefix_append_right_inj _).mpr ((List.prefix_append_right_inj _).mpr
      (List.take_prefix n c.up))
  exact { h with
    unheard := hpart.trans h.unheard
    unread := nofun
    whole := nofun
    waits := nofun
    held := fun piece hpiece => by
      obtain ⟨hne, hgot, hup⟩ := h.held piece hpiece
      exact ⟨hne, hgot, by simp [moved, hup]⟩
    closed := fun _ => rfl }

theorem abandon (h : w.Account c pairs lost owed told broken) (n : Nat) :
    w.Account (w.moved c (.abandon n)) pairs lost owed told broken := by
  have hrest : c.got ++ c.up <+: lost.flatMap w.ask := by
    cases htask : c.task with
    | holding piece =>
      obtain ⟨_, hgot, hup⟩ := h.held piece htask
      rw [hgot, hup]
      exact List.nil_prefix
    | _ => simpa [htask, Task.piece] using h.unheard
  exact { h with
    unheard := hrest
    unread := fun hgone => ((List.prefix_append_right_inj _).mpr (List.take_prefix n c.down)).trans
      (h.unread hgone)
    whole := fun _ hended => absurd rfl hended
    held := nofun }

/-- A read takes all that has come of a request, when it is all that will. -/
theorem hear_takes (hw : w.Lawful) (h : w.Account c pairs lost owed told broken)
    (hcan : w.can c .hear) : w.piece c = c.got ∧ (c.got ≠ [] → c.up = []) := by
  obtain ⟨htask, hcomplete⟩ := hcan
  by_cases hgot : c.got = []
  · rw [piece, hgot, through, List.take_nil]
    exact ⟨rfl, fun hne => absurd rfl hne⟩
  have hrest : c.task.piece ++ (c.got ++ c.up) = c.got ++ c.up := by
    rw [htask]
    rfl
  obtain ⟨q, rfl, rfl⟩ := h.pending (by simp [hgot])
  have hunheard := h.unheard
  rw [hrest, List.flatMap_singleton] at hunheard
  have hfits := h.fits q List.mem_cons_self
  obtain ⟨body, hbody, hask⟩ := hw.asks q hfits
  have hwithin := hw.within q hfits
  have hpart : c.got <+: body ++ [w.delimiter] :=
    hask ▸ (List.prefix_append c.got c.up).trans hunheard
  obtain ⟨hthrough, hwhole⟩ := through_part hbody hpart
  have hlength := hpart.length_le
  rw [← hask] at hlength
  have hpiece : w.piece c = c.got := by
    rw [piece, hthrough, List.take_of_length_le (by omega)]
  refine ⟨hpiece, fun _ => ?_⟩
  -- the whole request has come, or the client is gone and no more of it will
  have hnothing : c.got = w.ask q → c.up = [] := fun hgot => by
    have := hunheard.length_le
    rw [List.length_append, hgot] at this
    exact List.length_eq_zero_iff.mp (by omega)
  rw [hpiece] at hcomplete
  rcases hcomplete with hmem | hlimit | ⟨_, hup⟩
  · exact hnothing ((hwhole hmem).trans hask.symm)
  · exact hnothing ((hask ▸ hpart).eq_of_length_le (by omega))
  · exact hup

theorem hear (hw : w.Lawful) (h : w.Account c pairs lost owed told broken)
    (hcan : w.can c .hear) : w.Account (w.moved c .hear) pairs lost owed told broken := by
  obtain ⟨hpiece, hup⟩ := h.hear_takes hw hcan
  have hgot : (w.moved c .hear).got = [] := by
    rw [moved, hpiece, List.drop_length]
  have htask : (w.moved c .hear).task.piece = c.got := by
    by_cases hnone : c.got = []
    · simp [moved, hpiece, hnone, Task.piece]
    · simp [moved, hpiece, hnone, Task.piece]
  have hsame : (w.moved c .hear).task.piece ++ ((w.moved c .hear).got ++ (w.moved c .hear).up) =
      c.task.piece ++ (c.got ++ c.up) := by
    rw [htask, hgot, hcan.1]
    rfl
  exact { h with
    unheard := by
      rw [hsame]
      exact h.unheard
    whole := fun hgone _ => by
      rw [hsame]
      exact h.whole hgone (by rw [hcan.1]; nofun)
    held := fun piece hheld => by
      have hne : c.got ≠ [] := fun hnone => by simp [moved, hpiece, hnone] at hheld
      have hsome : piece = c.got := by simpa [moved, hpiece, hne] using hheld.symm
      exact ⟨hsome ▸ hne, hgot, hup hne⟩ }

/-- Of what a client is told, the whole line is read if its delimiter has come. -/
theorem receive_whole (hw : w.Lawful) (h : w.Account c pairs lost owed told broken)
    (hgone : c.gone = false) (hmem : w.delimiter ∈ c.back) :
    ∃ a, owed = [a] ∧ lost = [] ∧ c.back = w.line a ∧ c.down = [] ∧
      through w.delimiter c.back = c.back := by
  obtain ⟨a, rfl, rfl⟩ := h.due hgone (by simp [List.ne_nil_of_mem hmem])
  obtain ⟨body, hbody, hline⟩ := hw.lines a
  have hunread := h.unread hgone
  rw [List.flatMap_singleton] at hunread
  have hpart : c.back <+: body ++ [w.delimiter] :=
    hline ▸ (List.prefix_append c.back c.down).trans hunread
  obtain ⟨hthrough, hwhole⟩ := through_part hbody hpart
  have hback : c.back = w.line a := (hwhole hmem).trans hline.symm
  refine ⟨a, rfl, rfl, hback, ?_, hthrough⟩
  have hlength := hunread.length_le
  rw [List.length_append, hback] at hlength
  exact List.length_eq_zero_iff.mp (by omega)

/-- A client that has a whole line has one response more. -/
theorem receive (hw : w.Lawful) (h : w.Account c pairs lost owed told broken)
    (hcan : w.can c .receive) (hmem : w.delimiter ∈ c.back) :
    w.Account (w.moved c .receive) pairs [] [] (told ++ owed) [] := by
  obtain ⟨_, hgone, _⟩ := hcan
  obtain ⟨a, rfl, rfl, hback, hdown, hthrough⟩ := h.receive_whole hw hgone hmem
  have hbroken : broken = [] := by
    by_contra hne
    rw [h.closed hne] at hgone
    cases hgone
  have hnothing : (w.moved c .receive).back ++ (w.moved c .receive).down = [] := by
    simp [moved, hthrough, hdown]
  have hread : w.read (through w.delimiter c.back) = w.read (w.line a) := by rw [hthrough, hback]
  exact {
    asked := h.asked
    answered := by rw [h.answered, List.append_nil]
    replies := by simp [moved, hread, h.replies, hbroken]
    one := Nat.zero_le 1
    fits := fun _ hq => nomatch hq
    unheard := h.unheard
    unread := fun _ => by
      rw [hnothing]
      exact List.prefix_refl []
    whole := fun _ hended => ⟨(h.whole hgone hended).1, hnothing⟩
    waits := fun _ => ⟨fun _ => ⟨rfl, rfl⟩, fun _ => rfl⟩
    held := h.held
    closed := fun hne => absurd rfl hne
    breaks := fun _ hr => nomatch hr
    few := Nat.le_refl 0 }

/-- A client that has come to the end of the stream without one has a reply that breaks off. -/
theorem lose (h : w.Account c pairs lost owed told broken) (hcan : w.can c .receive)
    (hmem : w.delimiter ∉ c.back) :
    w.Account (w.moved c .receive) pairs lost owed told [w.read c.back] := by
  obtain ⟨hwaiting, hgone, hend⟩ := hcan
  have hthrough : through w.delimiter c.back = c.back := by
    have := through_append_of_not_mem hmem []
    rwa [through, List.append_nil] at this
  have hbroken : broken = [] := by
    by_contra hne
    rw [h.closed hne] at hgone
    cases hgone
  have hsome : 0 < lost.length + owed.length := by
    by_contra hnone
    have hnil := (h.waits hgone).mpr
      ⟨List.length_eq_zero_iff.mp (by omega), List.length_eq_zero_iff.mp (by omega)⟩
    rw [hwaiting] at hnil
    cases hnil
  have hleft : (w.moved c .receive).gone = true := decide_eq_true hmem
  exact { h with
    replies := by simp [moved, hthrough, h.replies, hbroken]
    unread := fun h => by rw [hleft] at h; cases h
    whole := fun h => by rw [hleft] at h; cases h
    waits := fun h => by rw [hleft] at h; cases h
    closed := fun _ => hleft
    breaks := fun r hr => by
      rw [List.mem_singleton.mp hr]
      exact ⟨c.back, (List.prefix_append _ _).trans (h.unread hgone), hmem, rfl⟩
    few := hsome }

/-- Whatever happens on a connection besides an answer, nothing is carried out, and the account
stays. -/
theorem moved (hw : w.Lawful) (h : w.Account c pairs lost owed told broken) {m : Motion Q}
    (hcan : w.can c m) : ∃ lost owed told broken,
      w.Account (w.moved c m) pairs lost owed told broken := by
  cases m with
  | ask q => exact ⟨_, _, _, _, h.ask hcan⟩
  | carry n => exact ⟨_, _, _, _, h.carry n⟩
  | hear => exact ⟨_, _, _, _, h.hear hw hcan⟩
  | bring n => exact ⟨_, _, _, _, h.bring n⟩
  | receive =>
    by_cases hmem : w.delimiter ∈ c.back
    · exact ⟨_, _, _, _, h.receive hw hcan hmem⟩
    · exact ⟨_, _, _, _, h.lose hcan hmem⟩
  | leave n => exact ⟨_, _, _, _, h.leave n⟩
  | abandon n => exact ⟨_, _, _, _, h.abandon n⟩

omit [DecidableEq β] in
/-- A task holds a whole request, unless its client is gone. -/
theorem holding (h : w.Account c pairs lost owed told broken) {piece : List β}
    (htask : c.task = .holding piece) : ∃ q, lost = [q] ∧ owed = [] ∧ w.fits q ∧
      piece <+: w.ask q ∧ (c.gone = false → piece = w.ask q) := by
  obtain ⟨hne, hgot, hup⟩ := h.held piece htask
  have hunheard := h.unheard
  have hwhole := fun hgone => (h.whole hgone (by rw [htask]; nofun)).1
  obtain ⟨q, rfl, rfl⟩ := h.pending (by rw [htask]; simp [Task.piece, hne])
  rw [htask, hgot, hup, List.append_nil, List.append_nil, List.flatMap_singleton] at hunheard hwhole
  exact ⟨q, rfl, rfl, h.fits q List.mem_cons_self, hunheard, hwhole⟩

omit [DecidableEq β] in
/-- What is heard of a request is carried out, and its response owed. -/
theorem request (hw : w.Lawful) (h : w.Account c pairs lost owed told broken) {piece : List β}
    (htask : c.task = .holding piece) {q : Q} (hheard : w.hear piece = .request q) (a : A) :
    w.Account { c with task := .reading, down := c.down ++ w.line a } (pairs ++ [(q, a)]) [] [a]
      told broken := by
  obtain ⟨_, hgot, hup⟩ := h.held piece htask
  obtain ⟨q', rfl, rfl, hfits, hpart, _⟩ := h.holding htask
  obtain rfl : q = q' := hw.cuts q' q piece hfits hpart hheard
  have hfresh : c.gone = false → c.back ++ (c.down ++ w.line a) = w.line a := fun hgone => by
    rw [← List.append_assoc, (h.whole hgone (by rw [htask]; nofun)).2]
    rfl
  have hempty : Task.piece .reading ++ (c.got ++ c.up) = [] := by
    rw [hgot, hup]
    rfl
  exact {
    asked := by simp [h.asked]
    answered := by simpa using h.answered
    replies := h.replies
    one := Nat.le_refl 1
    fits := fun _ hq => nomatch hq
    unheard := by rw [hempty]; exact List.prefix_refl []
    unread := fun hgone => by simp [hfresh hgone]
    whole := fun hgone _ => ⟨hempty, by rw [hfresh hgone, List.flatMap_singleton]⟩
    waits := fun hgone => by simpa using h.waits hgone
    held := nofun
    closed := h.closed
    breaks := fun r hr => by
      obtain ⟨part, hpart, hmem, hread⟩ := h.breaks r hr
      rw [List.prefix_nil.mp hpart] at hread
      exact ⟨[], List.nil_prefix, List.not_mem_nil, hread⟩
    few := h.few }

omit [DecidableEq β] in
/-- What is heard as no request is of a client that is gone, and is lost. -/
theorem unheeded (hw : w.Lawful) (h : w.Account c pairs lost owed told broken) {piece : List β}
    (htask : c.task = .holding piece) (hheard : ∀ q, w.hear piece ≠ .request q)
    {task : Task β} (hidle : ∀ piece, task ≠ .holding piece) (down : List β) :
    w.Account { c with task, down } pairs lost owed told broken := by
  obtain ⟨_, hgot, hup⟩ := h.held piece htask
  obtain ⟨q, rfl, rfl, hfits, _, hwhole⟩ := h.holding htask
  have hleft : c.gone ≠ false := fun hgone =>
    hheard q (by rw [hwhole hgone]; exact hw.hears q hfits)
  have hempty : task.piece ++ (c.got ++ c.up) = [] := by
    rw [hgot, hup]
    cases task with
    | holding piece => exact absurd rfl (hidle piece)
    | _ => rfl
  exact { h with
    unheard := by
      rw [hempty]
      exact List.nil_prefix
    unread := fun hgone => absurd hgone hleft
    whole := fun hgone => absurd hgone hleft
    waits := fun hgone => absurd hgone hleft
    held := fun piece htask => absurd htask (hidle piece) }

end Account

/-! ### The account of the system -/

omit [DecidableEq ι] in
theorem Runs.concat {s s' : σ} {log : List (Entry ι Q A B)} (h : w.Runs s log s')
    (e : Entry ι Q A B) {s'' : σ} (he : w.Runs s' [e] s'') : w.Runs s (log ++ [e]) s'' := by
  induction log generalizing s with
  | nil =>
    cases h
    exact he
  | cons first log ih =>
    cases first with
    | answered i q a => exact ⟨h.1, ih h.2⟩
    | other b => exact ih h

theorem done_append (i : ι) (log more : List (Entry ι Q A B)) :
    done i (log ++ more) = done i log ++ done i more := List.filterMap_append

/-- What was carried out is a run of the sequential service, and every connection accounts for its
part of it. -/
structure Accounts (state : σ) (s : System ι β σ Q A R B) : Prop where
  runs : w.Runs state s.log s.state
  accounts : ∀ i, ∃ lost owed told broken,
    w.Account (s.channels i) (done i s.log) lost owed told broken

theorem accounts_start (state : σ) :
    w.Accounts state (start state : System ι β σ Q A R B) :=
  ⟨rfl, fun _ => ⟨_, _, _, _, w.account_fresh⟩⟩

/-- A change to one connection that its account survives. -/
theorem Accounts.put {state : σ} {s : System ι β σ Q A R B} (h : w.Accounts state s) {i : ι}
    {c : Channel β Q R} (hc : ∃ lost owed told broken,
      w.Account c (done i s.log) lost owed told broken) : w.Accounts state (s.put i c) where
  runs := h.runs
  accounts j := by
    by_cases hj : j = i
    · subst hj
      rw [System.put]
      dsimp only
      rwa [Function.update_self]
    · rw [System.put]
      dsimp only
      rw [Function.update_of_ne hj]
      exact h.accounts j

variable [DecidableEq β]

omit [DecidableEq β] in
theorem Accounts.answer {w : Service β σ Q A R B} (hw : w.Lawful) {state : σ}
    {s : System ι β σ Q A R B} (h : w.Accounts state s) (i : ι) :
    w.Accounts state (w.answer i s) := by
  obtain ⟨lost, owed, told, broken, haccount⟩ := h.accounts i
  unfold Service.answer
  dsimp only
  split
  · next piece htask =>
    split
    · next q hheard =>
      refine ⟨h.runs.concat w _ ⟨rfl, rfl⟩, fun j => ?_⟩
      rw [done_append]
      by_cases hj : j = i
      · subst hj
        have hown : done j [(.answered j q (w.handle q s.state).1 : Entry ι Q A B)] =
            [(q, (w.handle q s.state).1)] := by simp [done, Entry.of]
        rw [hown]
        dsimp only
        rw [Function.update_self]
        exact ⟨_, _, _, _, haccount.request hw htask hheard _⟩
      · have hothers : done j [(.answered i q (w.handle q s.state).1 : Entry ι Q A B)] = [] := by
          simp [done, Entry.of, Ne.symm hj]
        rw [hothers, List.append_nil]
        dsimp only
        rw [Function.update_of_ne hj]
        exact h.accounts j
    · next reply hheard =>
      exact h.put w ⟨_, _, _, _, haccount.unheeded hw htask (by simp [hheard]) (by simp) _⟩
    · next hheard =>
      exact h.put w ⟨_, _, _, _, haccount.unheeded hw htask (by simp [hheard]) (by simp) _⟩
  · exact h
  · exact h

theorem Accounts.step {w : Service β σ Q A R B} (hw : w.Lawful) {state : σ}
    {s : System ι β σ Q A R B} (h : w.Accounts state s) {m : Move ι Q B} (hm : w.allowed s m) :
    w.Accounts state (w.step s m) := by
  cases m with
  | on i motion =>
    obtain ⟨_, _, _, _, haccount⟩ := h.accounts i
    exact h.put w (haccount.moved hw hm)
  | answer i => exact h.answer hw i
  | other b =>
    refine ⟨h.runs.concat w _ rfl, fun i => ?_⟩
    have hnone : done i [(.other b : Entry ι Q A B)] = [] := rfl
    rw [Service.step, done_append, hnone, List.append_nil]
    exact h.accounts i

/-- However clients, streams and tasks take turns, all is accounted for. -/
theorem reaches_accounts {w : Service β σ Q A R B} (hw : w.Lawful) {state : σ}
    {s : System ι β σ Q A R B} (h : Reaches w.step w.allowed (start state) s) :
    w.Accounts state s :=
  h.keeps (fun _ _ hm hs => hs.step hw hm) (w.accounts_start state)

theorem step_log (s : System ι β σ Q A R B) (m : Move ι Q B) : s.log <+: (w.step s m).log := by
  cases m with
  | on i motion => exact List.prefix_refl _
  | other b => exact List.prefix_append _ _
  | answer i =>
    rw [step, answer]
    dsimp only
    split
    · split
      · exact List.prefix_append _ _
      · exact List.prefix_refl _
      · exact List.prefix_refl _
    · exact List.prefix_refl _
    · exact List.prefix_refl _

/-- What was carried out stays so, before all that comes after. -/
theorem reaches_log {s s' : System ι β σ Q A R B} (h : Reaches w.step w.allowed s s') :
    s.log <+: s'.log :=
  h.keeps (I := fun s' => s.log <+: s'.log) (fun _ m _ hs => hs.trans (w.step_log _ m))
    (List.prefix_refl _)

/-! ### Who waits is answered -/

/-- Nothing happens but on this connection. -/
def alone (i : ι) (s : System ι β σ Q A R B) (m : Move ι Q B) : Prop :=
  w.allowed s m ∧ match m with
    | .on j _ | .answer j => j = i
    | .other _ => False

@[simp] theorem step_on (s : System ι β σ Q A R B) (i : ι) (m : Motion Q) :
    (w.step s (.on i m)).channels i = w.moved (s.channels i) m := by
  rw [step, System.put]
  exact Function.update_self _ _ _

/-- What happens on one connection may happen. -/
theorem reaches_alone {w : Service β σ Q A R B} {i : ι} {s s' : System ι β σ Q A R B}
    (h : Reaches w.step (w.alone i) s s') : Reaches w.step w.allowed s s' :=
  h.keeps (I := Reaches w.step w.allowed s) (fun _ _ hm hs => hs.next hm.1) .here

section Progress

variable {w} {s : System ι β σ Q A R B} {i : ι} {pairs : List (Q × A)} {lost : List Q}
  {owed told : List A} {broken : List R}

/-- Where a run on one connection leads to one reply more. -/
def Told (w : Service β σ Q A R B) (i : ι) (s : System ι β σ Q A R B) : Prop :=
  ∃ s', Reaches w.step (w.alone i) s s' ∧ (s'.channels i).asked = (s.channels i).asked ∧
    (s'.channels i).waiting = false ∧ (s'.channels i).gone = false

theorem alone_on {m : Motion Q} (h : w.can (s.channels i) m) :
    Reaches w.step (w.alone i) s (w.step s (.on i m)) := .next .here ⟨h, rfl⟩

theorem alone_answer (i : ι) : Reaches w.step (w.alone i) s (w.step s (.answer i)) :=
  .next .here ⟨trivial, rfl⟩

theorem moved_hear {c : Channel β Q R} (h : w.piece c ≠ []) :
    (w.moved c .hear).task = .holding (w.piece c) := by
  rw [moved, if_neg h]

theorem told_owed (hw : w.Lawful) {a : A}
    (h : w.Account (s.channels i) pairs [] [a] told broken)
    (hgone : (s.channels i).gone = false) (hwaiting : (s.channels i).waiting = true)
    (htask : (s.channels i).task ≠ .ended) : Told w i s := by
  obtain ⟨body, hbody, hline⟩ := hw.lines a
  have hbring : Reaches w.step (w.alone i) s _ :=
    alone_on (m := .bring (s.channels i).down.length) trivial
  have hback : (w.moved (s.channels i) (.bring (s.channels i).down.length)).back =
      w.line a := by
    have hwhole := (h.whole hgone htask).2
    rw [List.flatMap_singleton] at hwhole
    rw [moved, List.take_length, hwhole]
  have hmem : w.delimiter ∈ w.line a := by simp [hline]
  have hcan : w.can (w.moved (s.channels i) (.bring (s.channels i).down.length))
      .receive := ⟨hwaiting, hgone, .inl (hback ▸ hmem)⟩
  rw [← step_on] at hcan
  refine ⟨_, hbring.trans (alone_on hcan), by simp [moved], by simp [moved], ?_⟩
  rw [step_on, step_on]
  exact decide_eq_false (not_not_intro (hback ▸ hmem))

theorem told_held (hw : w.Lawful) (h : w.Account (s.channels i) pairs lost owed told broken)
    (hgone : (s.channels i).gone = false) (hwaiting : (s.channels i).waiting = true)
    (piece : List β) (htask : (s.channels i).task = .holding piece) : Told w i s := by
  obtain ⟨q, rfl, rfl, hfits, _, hwhole⟩ := h.holding htask
  have hheard : w.hear piece = .request q := hwhole hgone ▸ hw.hears q hfits
  have hchannel : (w.step s (.answer i)).channels i = { s.channels i with
      task := .reading
      down := (s.channels i).down ++ w.line (w.handle q s.state).1 } := by
    simp [step, answer, htask, hheard]
  obtain ⟨s', hrun, hasked, hends⟩ := told_owed hw (s := w.step s (.answer i)) (i := i)
    (by rw [hchannel]; exact h.request hw htask hheard _) (by rw [hchannel]; exact hgone)
    (by rw [hchannel]; exact hwaiting) (by rw [hchannel]; nofun)
  rw [hchannel] at hasked
  exact ⟨s', (alone_answer i).trans hrun, hasked, hends⟩

/-- A client that waits on a connection that is served is answered by what happens on it alone. -/
theorem told_waiting (hw : w.Lawful) (h : w.Account (s.channels i) pairs lost owed told broken)
    (hgone : (s.channels i).gone = false) (hwaiting : (s.channels i).waiting = true)
    (htask : (s.channels i).task ≠ .ended) : Told w i s := by
  have hsome : ¬(lost = [] ∧ owed = []) := fun hnone => by
    rw [(h.waits hgone).mpr hnone] at hwaiting
    cases hwaiting
  cases hat : (s.channels i).task with
  | ended => exact absurd hat htask
  | holding piece => exact told_held hw h hgone hwaiting piece hat
  | reading =>
    have hone := h.one
    cases lost with
    | nil =>
      cases owed with
      | nil => exact absurd ⟨rfl, rfl⟩ hsome
      | cons a owed =>
        obtain rfl : owed = [] := List.length_eq_zero_iff.mp (by simpa using hone)
        exact told_owed hw h hgone hwaiting htask
    | cons q lost =>
      obtain rfl : lost = [] := List.length_eq_zero_iff.mp (by simp at hone; omega)
      obtain ⟨body, hbody, hask⟩ := hw.asks q (h.fits q List.mem_cons_self)
      have hcarry : Reaches w.step (w.alone i) s _ :=
        alone_on (m := .carry (s.channels i).up.length) trivial
      have haccount := h.carry (s.channels i).up.length
      have hgot : (w.moved (s.channels i) (.carry (s.channels i).up.length)).got =
          w.ask q := by
        have hwhole := (h.whole hgone htask).1
        rw [hat, List.flatMap_singleton] at hwhole
        rw [moved, List.take_length]
        exact hwhole
      have hpiece : w.piece (w.moved (s.channels i) (.carry (s.channels i).up.length)) =
          w.ask q := by
        rw [piece, hgot, (through_part hbody (hask ▸ List.prefix_refl _)).1,
          List.take_of_length_le (hw.within q (h.fits q List.mem_cons_self))]
      have hmem : w.delimiter ∈ w.ask q := by simp [hask]
      have hcan : w.can (w.moved (s.channels i) (.carry (s.channels i).up.length)) .hear :=
        ⟨hat, .inl (hpiece ▸ hmem)⟩
      have hhear := hcarry.trans (alone_on (by rw [step_on]; exact hcan))
      obtain ⟨s', hrun, hasked, hends⟩ := told_held hw
        (s := w.step (w.step s (.on i (.carry (s.channels i).up.length))) (.on i .hear))
        (i := i) (by rw [step_on, step_on]; exact haccount.hear hw hcan)
        (by rw [step_on, step_on]; exact hgone) (by rw [step_on, step_on]; exact hwaiting)
        (w.ask q)
        (by rw [step_on, step_on, moved_hear (by rw [hpiece]; exact List.ne_nil_of_mem hmem),
          hpiece])
      rw [step_on, step_on] at hasked
      exact ⟨s', hhear.trans hrun, hasked, hends⟩

end Progress

end Service

end Exchange
