import Linhello.Daemon.Deletion
import Linhello.Daemon.KeyRequests
/-!
# Key consistency over runs

One request after the other, with restarts in between and file operations that may
fail: the copies of a user's key stay in agreement, unless a deletion is stopped
when the key envelope is already gone and something made with the key is not.
-/

namespace Linhello.Daemon

open Common Linhello.Core Effect Host Host.World

variable {sealed : SealedEnvelope → Option Bytes} {cl : CryptoLib} {flt : Faults} {user : String}
  {w w' v u : World} {moves : List Move} {m : Move}

/-- A stored template can be decrypted by whoever has one of the copies of the key. -/
def KeyConsistent (sealed : SealedEnvelope → Option Bytes) (cl : CryptoLib) (user : String)
    (w : World) : Prop :=
  ∀ blob, w.file (.user user .embeddingEnc) = some blob →
    ∃ key, EnvKey sealed user w key ∧ (∃ raw, decrypt cl key blob = .ok raw) ∧
      (∀ k, w.cache.lookup user = some k → k = key) ∧
      ∀ json, w.file (.user user .recoveryEnvelope) = some json →
        ∃ env, json = .value env ∧ Wraps cl env key

theorem KeysAgree.consistent (h : KeysAgree sealed cl user w) :
    KeyConsistent sealed cl user w := by
  intro blob hblob
  obtain ⟨key, raw, hkey, hdec⟩ := h.template blob hblob
  refine ⟨key, hkey, ⟨raw, hdec⟩, fun k hk => (h.cached k hk).unique hkey, fun json hjson => ?_⟩
  obtain ⟨env, k, hvalue, hk, hwraps⟩ := h.recovery json hjson
  obtain rfl := hk.unique hkey
  exact ⟨env, hvalue, hwraps⟩

/-- The moves of a run about one user's key. -/
inductive KeyMove (cl : CryptoLib) (user : String) : Move → Prop
  | restart : KeyMove cl user .restart
  | request {pr : Process} {peerUid : Option Nat} {req : Request} {resp : Response}
      {events : List (Event host)} (hcl : pr.cl = cl) (hreq : KeyRequest user req) :
      KeyMove cl user (.request pr peerUid req resp events)
  | delete {pr : Process} {peerUid : Option Nat} {resp : Response} {events : List (Event host)} :
      KeyMove cl user (.request pr peerUid (.deleteProfile user) resp events)

/-- The file was not there, or a deletion with these events has unlinked it. -/
def Gone (user : String) (w : World) (events : List (Event host)) (f : UserFile) : Prop :=
  w.file (.user user f) = none ∨ unlinks user f ∈ events

/-- A deletion that is stopped after it unlinked the key envelope has left nothing
that was made with the key. -/
def Tidy (user : String) (w : World) : Move → Prop
  | .request _ _ (.deleteProfile _) _ events =>
      unlinks user .templateKeyEnvelope ∈ events → removesDir user ∉ events →
        w.cache.lookup user = none ∧ Gone user w events .embeddingEnc ∧
          Gone user w events .recoveryEnvelope
  | _ => True

/-! ## One move -/

theorem sees_start {ι : Type} [DecidableEq ι] {i : ι} (h : KeysAgree sealed cl user w) :
    Sees sealed cl user i .nothing (w, []) := by
  refine ⟨⟨fun _ => h, fun hdir hcached => ?_⟩, rfl, trivial⟩
  obtain ⟨key, hkey⟩ := Option.isSome_iff_exists.1 hcached
  obtain ⟨env, henv, -⟩ := h.cached key hkey
  have hnone := file_of_not_hasDir hdir .templateKeyEnvelope
  rw [henv] at hnone
  cases hnone

/-- A request that runs alone keeps the promise to nobody in particular. -/
theorem keysAgree_request {pr : Process} {peerUid : Option Nat} {req : Request} {resp : Response}
    (hstat : flt.stat = false) (hauth : Authentic pr.cl) (hreq : KeyRequest user req)
    (h : KeysAgree sealed pr.cl user w)
    (hexec : Exec (Step sealed flt) (dispatch pr req peerUid) w resp w') :
    KeysAgree sealed pr.cl user w' := by
  obtain ⟨log, hlogged⟩ := @exec_logged _ _ _ _ () _ (Orderly user)
    (fun v log e => orderly_alone v log () e) _ _ _ _ hexec []
  have hruns : Runs sealed pr.cl user () flt (Orderly user) .nothing (dispatch pr req peerUid)
      fun _ => Sees sealed pr.cl user () .nothing :=
    runs_dispatch (fun _ _ _ _ h => h) hstat hauth hreq
  have hguarded := hruns (sees_start h)
  have hend := hguarded.exec hlogged
  exact hend.agree fun ⟨d, hd, _⟩ => hd rfl

private theorem keysAgree_doDeleteProfile {events : List (Event host)} {resp : Response}
    (h : KeysAgree sealed cl user w)
    (hexec : Exec (recorded (Step sealed flt)) (doDeleteProfile user) (w, []) resp (w', events))
    (htidy : unlinks user .templateKeyEnvelope ∈ events → removesDir user ∉ events →
      w.cache.lookup user = none ∧ Gone user w events .embeddingEnc ∧
        Gone user w events .recoveryEnvelope) : KeysAgree sealed cl user w' := by
  have hremoved : Removed user (w', events) :=
    Removed.exec delete_doDeleteProfile hexec (removed_start w)
  have hcache : ∀ k, w'.cache.lookup user = some k → w.cache.lookup user = some k := fun _ =>
    cache_of_deletion delete_doDeleteProfile hexec
  have hfile : ∀ f, w.file (.user user f) = none → w'.file (.user user f) = none := fun _ =>
    file_of_deletion delete_doDeleteProfile hexec
  by_cases hdir : removesDir user ∈ events
  · exact .of_none (evicted_of_removesDir hexec hdir) (hremoved.dir hdir _) (hremoved.dir hdir _)
  · by_cases hkey : unlinks user .templateKeyEnvelope ∈ events
    · obtain ⟨hcached, henc, hrec⟩ := htidy hkey hdir
      have hgone : ∀ f, Gone user w events f → w'.file (.user user f) = none := by
        rintro f (hf | hf)
        · exact hfile f hf
        · exact hremoved.files f hf
      refine .of_none ?_ (hgone _ henc) (hgone _ hrec)
      rw [Option.eq_none_iff_forall_ne_some]
      intro k hk
      rw [hcache k hk] at hcached
      cases hcached
    · have hkept : ∀ f d, w'.file (.user user f) = some d → w.file (.user user f) = some d := by
        intro f d hd
        by_cases hf : unlinks user f ∈ events
        · have hnone := hremoved.files f hf
          rw [hd] at hnone
          cases hnone
        · rw [← hd]
          exact (file_kept_of_deletion delete_doDeleteProfile hexec hf hdir).symm
      exact h.mono hcache (file_kept_of_deletion delete_doDeleteProfile hexec hkey hdir)
        (hkept .embeddingEnc) (hkept .recoveryEnvelope)

private theorem keysAgree_move (hauth : Authentic cl) (hstat : flt.stat = false)
    (hm : KeyMove cl user m)
    (htidy : Tidy user v m) (hstep : m.Step sealed flt v u) (h : KeysAgree sealed cl user v) :
    KeysAgree sealed cl user u := by
  cases hm with
  | restart =>
      obtain rfl := hstep
      refine h.mono (fun k hk => ?_) (file_withCache _ _ _) (fun b hb => ?_) fun j hj => ?_
      · cases hk
      · rwa [file_withCache] at hb
      · rwa [file_withCache] at hj
  | request hcl hreq =>
      subst hcl
      exact keysAgree_request hstat hauth hreq h (exec_of_recorded hstep)
  | @delete pr peerUid resp events =>
      have hret : ∀ {r : Response}, Exec (recorded (Step sealed flt)) (.ret r) (v, []) resp
          (u, events) → u = v := fun hret => (Prod.mk.inj hret.2).1
      simp only [Move.Step, dispatch, rootOnly] at hstep
      split at hstep
      · rwa [hret hstep]
      · unfold withUser at hstep
        split at hstep
        · rwa [hret hstep]
        · exact keysAgree_doDeleteProfile h hstep htidy

/-! ## Runs -/

/-- Every state that a run of tidy moves reaches is consistent. -/
theorem key_consistent_of_tidy (hauth : Authentic cl) (hstat : flt.stat = false)
    (hstart : KeysAgree sealed cl user w) (hrun : Run sealed flt w moves v)
    (hmoves : ∀ m ∈ moves, KeyMove cl user m)
    (htidy : ∀ pre m u, Run sealed flt w pre u → pre ++ [m] <+: moves → Tidy user u m) :
    KeyConsistent sealed cl user v := by
  suffices hagree : KeysAgree sealed cl user v from hagree.consistent
  induction hrun with
  | nil => exact hstart
  | @snoc v u moves m run step ih =>
      have hprev := ih (fun m hm => hmoves m (List.mem_append_left _ hm))
        fun pre m u hpre hm => htidy pre m u hpre (hm.trans (List.prefix_append _ _))
      exact keysAgree_move hauth hstat (hmoves m (List.mem_append_right _ List.mem_cons_self))
        (htidy moves m v run (List.prefix_refl _)) step hprev

theorem authentic_simulatedCrypto : Authentic simulatedCrypto := by
  intro k n m c k' n' m' hseal hopen
  obtain rfl := Option.some.inj hseal
  have hlen : (m ++ simulatedTag k).length - 16 = m.length := by
    rw [List.length_append, length_simulatedTag]
    omega
  have htake : (m ++ simulatedTag k).take m.length = m := List.take_left
  simp only [simulatedCrypto, simulatedOpen, hlen, htake] at hopen
  split at hopen
  · exact (Option.some.inj hopen).symm
  · cases hopen

theorem keysAgree_enrolledWorld (user : String) :
    KeysAgree simulatedUnseal simulatedCrypto user (enrolledWorld user) := by
  have hkey : EnvKey simulatedUnseal user (enrolledWorld user) simulatedKey :=
    ⟨simulatedSeal simulatedKey, by simp [enrolledWorld, file_set_of_ne], rfl⟩
  constructor
  · intro key hk
    obtain rfl : simulatedKey = key := by simpa [enrolledWorld] using hk
    exact hkey
  · intro blob hblob
    obtain rfl : simulatedTemplate = blob := by simpa [enrolledWorld] using hblob
    have hopens : (decrypt simulatedCrypto simulatedKey simulatedTemplate).isOk = true := by
      decide +kernel
    cases hdec : decrypt simulatedCrypto simulatedKey simulatedTemplate with
    | error e =>
        rw [hdec] at hopens
        cases hopens
    | ok raw => exact ⟨simulatedKey, raw, hkey, hdec⟩
  · intro json hjson
    simp [enrolledWorld, file_set_of_ne] at hjson

/-- The files are listed in this order, and one of them cannot be unlinked. -/
def stoppedRemoval (files : List UserFile) (kept : UserFile) : World.Responder
  | _, .readUserDir _ => .ok files
  | w, .removeFile p =>
      if p = .user "alice" kept then .error (.other "Input/output error (os error 5)")
      else simulatedScript.answer simulatedUnseal w (.removeFile p)
  | w, o => simulatedScript.answer simulatedUnseal w o

def removalFails : Faults := ⟨false, false, true, false⟩

def isUnlink (f : UserFile) (e : Event host) : Bool :=
  match e with
  | ⟨.removeFile p, r⟩ => p = .user "alice" f && (r : Except IoError Unit).isOk
  | _ => false

theorem unlinks_of_any {f : UserFile} {events : List (Event host)}
    (h : events.any (isUnlink f) = true) : unlinks "alice" f ∈ events := by
  obtain ⟨e, he, hunlink⟩ := List.any_eq_true.1 h
  unfold isUnlink at hunlink
  split at hunlink
  · next p r =>
      obtain ⟨hp, hr⟩ := Bool.and_eq_true_iff.1 hunlink
      obtain rfl := of_decide_eq_true hp
      cases r with
      | ok u => exact he
      | error e => cases hr
  · cases hunlink

/-- After a restart a deletion is stopped at the password, when the template and the key are gone;
then the user is enrolled again. -/
theorem key_consistent_of_tidy_simulated : ∃ resp events events' w',
    Run simulatedUnseal removalFails (enrolledWorld "alice")
      [.restart, .request simulatedProcess (some 0) (.deleteProfile "alice") resp events,
        .request simulatedProcess (some 0) (.enroll "alice" false) (.enrolled 1) events'] w' ∧
      resp.isError = true ∧ unlinks "alice" .templateKeyEnvelope ∈ events ∧
      KeyConsistent simulatedUnseal simulatedCrypto "alice" w' := by
  let restarted : World := { enrolledWorld "alice" with cache := ∅ }
  have hmoves : ((tracedRun removalFails
      (stoppedRemoval [.embeddingEnc, .templateKeyEnvelope, .passwordEnvelope] .passwordEnvelope) 20
      (dispatch simulatedProcess (.deleteProfile "alice") (some 0)) restarted).bind fun x =>
        (tracedRun removalFails (simulatedScript.answer simulatedUnseal) 60
          (dispatch simulatedProcess (.enroll "alice" false) (some 0)) x.2.1).map fun y =>
            (x.1.isError, x.2.2.any (isUnlink .embeddingEnc),
              x.2.2.any (isUnlink .templateKeyEnvelope), y.1)) =
      some (true, true, true, .enrolled 1) := by decide +kernel
  obtain ⟨⟨resp, v, events⟩, hdelete, hrest⟩ := Option.bind_eq_some_iff.1 hmoves
  obtain ⟨⟨resp', w', events'⟩, henroll, heq⟩ := Option.map_eq_some_iff.1 hrest
  obtain ⟨herror, heq⟩ := Prod.mk.inj heq
  obtain ⟨henc, heq⟩ := Prod.mk.inj heq
  obtain ⟨hkey, rfl⟩ := Prod.mk.inj heq
  have hrestart :
      Move.restart.Step simulatedUnseal removalFails (enrolledWorld "alice") restarted :=
    rfl
  have hdeleted : (Move.request simulatedProcess (some 0) (.deleteProfile "alice") resp events).Step
      simulatedUnseal removalFails restarted v := exec_of_tracedRun hdelete
  have henrolled : (Move.request simulatedProcess (some 0) (.enroll "alice" false) (.enrolled 1)
      events').Step simulatedUnseal removalFails v w' := exec_of_tracedRun henroll
  have hrun : Run simulatedUnseal removalFails (enrolledWorld "alice")
      [.restart, .request simulatedProcess (some 0) (.deleteProfile "alice") resp events,
        .request simulatedProcess (some 0) (.enroll "alice" false) (.enrolled 1) events'] w' :=
    Run.snoc (Run.snoc (Run.snoc Run.nil hrestart) hdeleted) henrolled
  refine ⟨resp, events, events', w', hrun, herror, unlinks_of_any hkey,
    key_consistent_of_tidy authentic_simulatedCrypto rfl (keysAgree_enrolledWorld "alice")
      hrun ?_ ?_⟩
  · intro m hm
    rcases List.mem_cons.1 hm with rfl | hm
    · exact .restart
    · rcases List.mem_cons.1 hm with rfl | hm
      · exact .delete
      · rw [List.mem_singleton.1 hm]
        exact .request rfl (.enroll false)
  · rintro pre m u hpre ⟨rest, hrest⟩
    rcases pre with _ | ⟨p, _ | ⟨q, _ | ⟨r, pre⟩⟩⟩
    · obtain rfl := (List.cons.inj hrest).1
      trivial
    · obtain ⟨hp, htail⟩ := List.cons.inj hrest
      obtain rfl := (List.cons.inj htail).1
      rw [hp] at hpre
      obtain ⟨x, hnone, hstep⟩ :
        ∃ x, Run simulatedUnseal removalFails (enrolledWorld "alice") [] x ∧
          Move.restart.Step simulatedUnseal removalFails x u := Run.last hpre
      rw [hnone.none] at hstep
      obtain rfl : u = restarted := hstep
      exact fun _ _ => ⟨rfl, .inr (unlinks_of_any henc), .inl rfl⟩
    · obtain rfl := (List.cons.inj (List.cons.inj (List.cons.inj hrest).2).2).1
      trivial
    · have hlength := congrArg List.length hrest
      simp at hlength

/-- A deletion that is stopped midway leaves a template whose key is lost. -/
theorem not_key_consistent :
    ¬ ∀ (sealed : SealedEnvelope → Option Bytes) (cl : CryptoLib) (flt : Faults) (user : String)
      (w v : World) (moves : List Move), Authentic cl → flt.stat = false →
      KeysAgree sealed cl user w → Run sealed flt w moves v → (∀ m ∈ moves, KeyMove cl user m) →
      KeyConsistent sealed cl user v := by
  intro hall
  have hdeleted : ((execute (World.step simulatedUnseal removalFails)
      (dispatch simulatedProcess (.deleteProfile "alice") (some 0)) (enrolledWorld "alice")
      (List.replicate 12 (stoppedRemoval [.templateKeyEnvelope, .embeddingEnc, .passwordEnvelope]
        .embeddingEnc))).map fun x =>
        ((x.2.file (.user "alice" .embeddingEnc) : Option Bytes),
          (x.2.file (.user "alice" .templateKeyEnvelope)).isSome)) =
      some (some simulatedTemplate, false) := by decide +kernel
  obtain ⟨⟨resp, w'⟩, hrun, heq⟩ := Option.map_eq_some_iff.1 hdeleted
  obtain ⟨henc, hkey⟩ := Prod.mk.inj heq
  obtain ⟨events, hexec⟩ := exec_recorded (exec_of_execute (fun _ _ _ _ _ => step_sound) hrun) []
  have hmoves : ∀ m ∈ [Move.request simulatedProcess (some 0) (.deleteProfile "alice") resp events],
      KeyMove simulatedCrypto "alice" m := by
    intro m hm
    rw [List.mem_singleton.1 hm]
    exact .delete
  obtain ⟨key, ⟨env, henv, -⟩, -⟩ := hall _ _ _ _ _ _ _ authentic_simulatedCrypto rfl
    (keysAgree_enrolledWorld "alice")
    (.snoc .nil
      (m := .request simulatedProcess (some 0) (.deleteProfile "alice") resp events) hexec)
    hmoves _ henc
  rw [henv] at hkey
  cases hkey

end Linhello.Daemon
