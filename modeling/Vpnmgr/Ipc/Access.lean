import Vpnmgr.Library.Run
import Mathlib.Data.BitVec
import Mathlib.Logic.Function.Basic

/-! Who can reach the daemon at all: nobody asks who a client is, so whoever may open the socket drives
the daemon, from the moment it is bound. Daemons may start and stop in any order on one path, and any of
their calls may fail. -/

namespace Vpnmgr.Access

open Stateful

structure User where
  uid : Nat
  groups : List Nat

/-- A socket of root's in the file system. -/
structure Socket where
  gid : Nat
  mode : BitVec 9

/-- To connect takes leave to write, by the first class that the user is of. -/
def Socket.admits (s : Socket) (u : User) : Bool :=
  u.uid = 0 || if s.gid ∈ u.groups then s.mode.getLsbD 4 else s.mode.getLsbD 1

/-- How a daemon runs: its mask and its own group, and what it finds the group `vpnmgr` to be. -/
structure Setting where
  umask : BitVec 9
  gid : Nat
  group : Option Nat

/-- How far a daemon has got with its socket. -/
inductive Phase where
  | preparing
  | looking
  | removing
  | binding
  | owning (gid : Nat)
  | opening (mode : BitVec 9)
  | listening
  | ended
  deriving DecidableEq

namespace Setting

variable (c : Setting)

/-- The mode of a socket that was just bound. -/
def fresh : BitVec 9 := 0o777#9 &&& ~~~c.umask

/-- What `socket_permissions` begins with. Without the group only root is let in. -/
def permissions : Phase :=
  match c.group with
  | none => .opening 0o600
  | some gid => .owning gid

/-- The next call of a daemon, which may fail: `Listener::bind`, `socket_permissions`, which is only
warned of, and the removal of the socket at the end. -/
def call (ok : Bool) : Phase → Option Socket → Phase × Option Socket
  | .preparing, node => (if ok then .looking else .ended, node)
  | .looking, node => (if node.isSome then .removing else .binding, node)
  | .removing, some s => if ok then (.binding, none) else (.ended, some s)
  | .removing, none => (.ended, none)
  | .binding, none => if ok then (c.permissions, some ⟨c.gid, c.fresh⟩) else (.ended, none)
  | .binding, some s => (.ended, some s)
  | .owning gid, some s => if ok then (.opening 0o660, some { s with gid }) else (.listening, some s)
  | .owning _, none => (.listening, none)
  | .opening mode, some s => (.listening, some (if ok then { s with mode } else s))
  | .opening _, none => (.listening, none)
  | .listening, node => (.ended, if ok then none else node)
  | .ended, node => (.ended, node)

end Setting

/-- The path, and the daemons that were started on it. -/
structure Place where
  node : Option Socket
  phase : Nat → Phase

/-- A daemon makes its next call, or it dies and leaves what is there. -/
inductive Move where
  | call (daemon : Nat) (ok : Bool)
  | die (daemon : Nat)

def step (settings : Nat → Setting) (p : Place) : Move → Place
  | .call d ok =>
    let next := (settings d).call ok (p.phase d) p.node
    ⟨next.2, Function.update p.phase d next.1⟩
  | .die d => { p with phase := Function.update p.phase d .ended }

def start : Place := ⟨none, fun _ => .preparing⟩

/-- Some order of calls leads there. -/
def Happens (settings : Nat → Setting) : Place → Prop :=
  Reaches (step settings) (fun _ _ => True) start

/-! ### What is on the path -/

/-- The group of a socket is a daemon's own, or `vpnmgr` as a daemon found it, and others may not
write. -/
structure Socket.Guarded (settings : Nat → Setting) (s : Socket) : Prop where
  gid : ∃ d, s.gid = (settings d).gid ∨ (settings d).group = some s.gid
  mode : s.mode.getLsbD 1 = false

/-- What a daemon is about to do to the socket guards it. -/
def Phase.Guards (c : Setting) : Phase → Prop
  | owning gid => c.group = some gid
  | opening mode => mode.getLsbD 1 = false
  | _ => True

structure Place.Guarded (settings : Nat → Setting) (p : Place) : Prop where
  node : ∀ s, p.node = some s → s.Guarded settings
  phase : ∀ d, (p.phase d).Guards (settings d)

theorem Setting.fresh_write (c : Setting) : c.fresh.getLsbD 1 = !c.umask.getLsbD 1 := by
  simp [fresh]

theorem Setting.permissions_guards (c : Setting) : c.permissions.Guards c := by
  unfold permissions
  cases hgroup : c.group with
  | none => rfl
  | some gid => exact hgroup

theorem call_guarded {settings : Nat → Setting} (hmask : ∀ d, (settings d).umask.getLsbD 1 = true)
    (d : Nat) (ok : Bool) {phase : Phase} {node : Option Socket} (hphase : phase.Guards (settings d))
    (hnode : ∀ s, node = some s → s.Guarded settings) :
    (((settings d).call ok phase node).1).Guards (settings d) ∧
      ∀ s, ((settings d).call ok phase node).2 = some s → s.Guarded settings := by
  cases phase with
  | preparing => cases ok <;> exact ⟨trivial, hnode⟩
  | looking => cases node <;> exact ⟨trivial, hnode⟩
  | removing =>
    cases node with
    | none => exact ⟨trivial, hnode⟩
    | some s =>
      cases ok with
      | false => exact ⟨trivial, hnode⟩
      | true => exact ⟨trivial, fun s' hs => by cases hs⟩
  | binding =>
    cases node with
    | some s => exact ⟨trivial, hnode⟩
    | none =>
      cases ok with
      | false => exact ⟨trivial, hnode⟩
      | true =>
        refine ⟨(settings d).permissions_guards, fun s hs => ?_⟩
        cases hs
        exact ⟨⟨d, .inl rfl⟩, by rw [Setting.fresh_write, hmask, Bool.not_true]⟩
  | owning gid =>
    cases node with
    | none => exact ⟨trivial, hnode⟩
    | some s =>
      cases ok with
      | false => exact ⟨trivial, hnode⟩
      | true =>
        refine ⟨rfl, fun s' hs => ?_⟩
        cases hs
        exact ⟨⟨d, .inr hphase⟩, (hnode s rfl).mode⟩
  | opening mode =>
    cases node with
    | none => exact ⟨trivial, hnode⟩
    | some s =>
      cases ok with
      | false => exact ⟨trivial, hnode⟩
      | true =>
        refine ⟨trivial, fun s' hs => ?_⟩
        cases hs
        exact ⟨(hnode s rfl).gid, hphase⟩
  | listening =>
    cases ok with
    | false => exact ⟨trivial, hnode⟩
    | true => exact ⟨trivial, fun s' hs => by cases hs⟩
  | ended => exact ⟨trivial, hnode⟩

theorem update_guards {settings : Nat → Setting} {phases : Nat → Phase}
    (h : ∀ d, (phases d).Guards (settings d)) {d : Nat} {phase : Phase}
    (hphase : phase.Guards (settings d)) (other : Nat) :
    (Function.update phases d phase other).Guards (settings other) := by
  by_cases hsame : other = d
  · subst hsame
    rw [Function.update_self]
    exact hphase
  · rw [Function.update_of_ne hsame]
    exact h other

theorem step_guarded {settings : Nat → Setting} (hmask : ∀ d, (settings d).umask.getLsbD 1 = true)
    {p : Place} (h : p.Guarded settings) (move : Move) : (step settings p move).Guarded settings := by
  cases move with
  | call d ok =>
    obtain ⟨hphase, hnode⟩ := call_guarded hmask d ok (h.phase d) h.node
    exact ⟨hnode, update_guards h.phase hphase⟩
  | die d => exact ⟨h.node, update_guards h.phase trivial⟩

/-! ### Who gets in -/

/-- Root, a member of a daemon's own group, or of `vpnmgr` as a daemon found it. -/
def Insider (settings : Nat → Setting) (u : User) : Prop :=
  u.uid = 0 ∨ ∃ d, (settings d).gid ∈ u.groups ∨ ∃ gid, (settings d).group = some gid ∧ gid ∈ u.groups

theorem Socket.Guarded.insider {settings : Nat → Setting} {s : Socket} (h : s.Guarded settings)
    {u : User} (hadmits : s.admits u = true) : Insider settings u := by
  rw [admits, Bool.or_eq_true, decide_eq_true_eq] at hadmits
  refine hadmits.imp_right fun hwrite => ?_
  obtain ⟨d, hgid⟩ := h.gid
  split at hwrite
  · next hmember =>
    refine ⟨d, ?_⟩
    rcases hgid with hgid | hgid
    · exact .inl (hgid ▸ hmember)
    · exact .inr ⟨s.gid, hgid, hmember⟩
  · rw [h.mode] at hwrite
    cases hwrite

/-- A daemon that nothing disturbs has bound its socket after three calls. -/
theorem bound_happens (settings : Nat → Setting) (d : Nat) : ∃ p, Happens settings p ∧
    p.node = some ⟨(settings d).gid, (settings d).fresh⟩ := by
  have hlooking : Happens settings (step settings start (.call d true)) := .next .here trivial
  have hbinding := hlooking.next (a := .call d true) trivial
  have hbound := hbinding.next (a := .call d true) trivial
  refine ⟨_, hbound, ?_⟩
  simp [step, start, Setting.call]

/-- However daemons start, stop and die on one path, and whichever of their calls fail, nobody but root,
the daemons' own groups and `vpnmgr` ever gets in, exactly if every daemon's mask keeps others from
writing. -/
theorem only_insiders (settings : Nat → Setting) :
    (∀ p, Happens settings p → ∀ s, p.node = some s → ∀ u, s.admits u = true → Insider settings u) ↔
      ∀ d, (settings d).umask.getLsbD 1 = true := by
  constructor
  · intro hguarded d
    obtain ⟨p, hp, hnode⟩ := bound_happens settings d
    by_contra hopen
    have hwrite : (settings d).fresh.getLsbD 1 = true := by
      rw [Setting.fresh_write, Bool.eq_false_iff.mpr hopen, Bool.not_false]
    have hadmits : Socket.admits ⟨(settings d).gid, (settings d).fresh⟩ ⟨1, []⟩ = true := by
      simpa [Socket.admits] using hwrite
    rcases hguarded p hp _ hnode _ hadmits with hroot | ⟨e, hmember | ⟨gid, _, hmember⟩⟩
    · cases hroot
    · cases hmember
    · cases hmember
  · intro hmask p hp s hs u hadmits
    have hplace : p.Guarded settings :=
      hp.keeps (fun _ move _ h => step_guarded hmask h move)
        ⟨fun s hs => (by cases hs), fun _ => trivial⟩
    exact (hplace.node s hs).insider hadmits

end Vpnmgr.Access
