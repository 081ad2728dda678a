import Linhello.Daemon.Handlers
import Linhello.Host.Simulated
/-!
# Runs of the daemon

A run is a sequence of requests, one after the other, and restarts. A restart
loses the template-key cache; the process that serves a request may be a new
one.
-/

namespace Linhello.Daemon

open Common Linhello.Core Effect Host

/-- One move of a run: a request with its answer and the operations it performed,
or a restart. -/
inductive Move
  | request (pr : Process) (peerUid : Option Nat) (req : Request) (resp : Response)
      (events : List (Event host))
  | restart

def Move.Step (sealed : SealedEnvelope → Option Bytes) (flt : Faults) : Move → World → World → Prop
  | .request pr peerUid req resp events, w, w' =>
      Exec (recorded (World.Step sealed flt)) (dispatch pr req peerUid) (w, []) resp (w', events)
  | .restart, w, w' => w' = { w with cache := ∅ }

inductive Run (sealed : SealedEnvelope → Option Bytes) (flt : Faults) (w : World) :
    List Move → World → Prop
  | nil : Run sealed flt w [] w
  | snoc {v u : World} {moves : List Move} {m : Move} (run : Run sealed flt w moves v)
      (step : m.Step sealed flt v u) : Run sealed flt w (moves ++ [m]) u

variable {sealed : SealedEnvelope → Option Bytes} {flt : Faults} {w v u : World}
  {moves : List Move} {m : Move}

theorem Run.last (h : Run sealed flt w (moves ++ [m]) u) :
    ∃ v, Run sealed flt w moves v ∧ m.Step sealed flt v u := by
  generalize hall : moves ++ [m] = all at h
  cases h with
  | nil => cases List.append_ne_nil_of_right_ne_nil moves (List.cons_ne_nil m []) hall
  | snoc run step =>
      obtain ⟨rfl, hm⟩ := List.append_inj' hall rfl
      cases hm
      exact ⟨_, run, step⟩

theorem Run.none (h : Run sealed flt w [] u) : u = w := by
  generalize hnil : [] = all at h
  cases h with
  | nil => rfl
  | snoc run step => cases List.append_ne_nil_of_right_ne_nil _ (List.cons_ne_nil _ []) hnil.symm

/-- What every admissible move preserves holds in every state reached. -/
theorem Run.invariant {P : Move → Prop} {Inv : World → Prop}
    (hstep : ∀ m v u, P m → Inv v → m.Step sealed flt v u → Inv u)
    (hrun : Run sealed flt w moves v) (hmoves : ∀ m ∈ moves, P m) (hinit : Inv w) : Inv v := by
  induction hrun with
  | nil => exact hinit
  | @snoc v u moves m run step ih =>
      have hpre := ih fun m hm => hmoves m (List.mem_append_left _ hm)
      exact hstep m v u (hmoves m (List.mem_append_right _ List.mem_cons_self)) hpre step

/-- Serve requests one after the other on a simulated host. -/
def serve (sc : Script) (sealed : SealedEnvelope → Option Bytes) (flt : Faults) (n : Nat)
    (pr : Process) : List (Option Nat × Request) → World → Option (List Response × World)
  | [], w => some ([], w)
  | (peerUid, req) :: rest, w =>
      match sc.run sealed flt n (dispatch pr req peerUid) w with
      | none => none
      | some (resp, v) => (serve sc sealed flt n pr rest v).map fun (resps, u) => (resp :: resps, u)

theorem exec_of_serve {sc : Script} {n : Nat} {pr : Process} {peerUid : Option Nat} {req : Request}
    {reqs : List (Option Nat × Request)} {resp : Response} {resps : List Response}
    (h : serve sc sealed flt n pr ((peerUid, req) :: reqs) w = some (resp :: resps, u)) :
    ∃ v, Exec (World.Step sealed flt) (dispatch pr req peerUid) w resp v ∧
      serve sc sealed flt n pr reqs v = some (resps, u) := by
  simp only [serve] at h
  split at h
  · cases h
  · next resp' v hstep =>
      obtain ⟨⟨resps', u'⟩, hrest, heq⟩ := Option.map_eq_some_iff.1 h
      obtain ⟨hresps, rfl⟩ := Prod.mk.inj heq
      obtain ⟨rfl, rfl⟩ := List.cons.inj hresps
      exact ⟨v, exec_of_execute (fun _ _ _ _ _ => World.step_sound) hstep, hrest⟩

theorem run_of_serve {sc : Script} {n : Nat} {pr : Process}
    {reqs : List (Option Nat × Request)} {resps : List Response}
    (hrun : Run sealed flt w moves v) (h : serve sc sealed flt n pr reqs v = some (resps, u)) :
    ∃ moves', Run sealed flt w (moves ++ moves') u := by
  induction reqs generalizing v moves resps with
  | nil =>
      obtain ⟨-, rfl⟩ := Prod.mk.inj (Option.some.inj h)
      exact ⟨[], by rwa [List.append_nil]⟩
  | cons x rest ih =>
      obtain ⟨peerUid, req⟩ := x
      cases resps with
      | nil =>
          simp only [serve] at h
          split at h
          · cases h
          · obtain ⟨_, -, heq⟩ := Option.map_eq_some_iff.1 h
            cases heq
      | cons resp resps =>
          obtain ⟨t, hexec, hrest⟩ := exec_of_serve h
          obtain ⟨events, hrecorded⟩ := exec_recorded hexec []
          obtain ⟨moves', hrun'⟩ := ih
            (hrun.snoc (m := .request pr peerUid req resp events) hrecorded) hrest
          exact ⟨_, by rwa [List.append_assoc] at hrun'⟩

end Linhello.Daemon
