import Linhello.Tpm.Outcomes
/-!
# Runs without faults

Where nothing fails for no reason, the functions that create no object and no key
have one result: `eval` computes it.
-/

namespace Linhello.Tpm

open Common Effect Host
open Linhello.Core (SealedEnvelope)

variable {P : Platform} {m m' : Machine} {α : Type} {c d : Choices P}

/-! ## Determinism -/

private theorem respond_congr {o : Op} (ho : o.chooses = false) :
    respond c m o = respond d m o := by
  cases o with
  | generateKey => cases ho
  | create parent template secret => cases ho
  | _ => rfl

theorem exec_eval {p : Program tpm α} {a : α} (c : Choices P)
    (hp : p.Only fun o : Op => o.chooses = false)
    (h : Exec (Step P False) p m a m') : (a, m') = eval (respond c) p m := by
  refine hp.exec_eval (S := Step P False) ?_ h
  rintro w o r v ho (⟨d, hr⟩ | ⟨hfalse, -⟩)
  · rw [hr, respond_congr ho]
  · exact hfalse.elim

theorem exec_of_respond {F : Prop} (c : Choices P) (p : Program tpm α) (m : Machine) :
    Exec (Step P F) p m (eval (respond c) p m).1 (eval (respond c) p m).2 :=
  exec_of_eval (S := Step P F) (fun _ _ => .inl ⟨c, rfl⟩) p m

/-- Some choices of the TPM: it makes nothing. -/
def Choices.fixed (P : Platform) : Choices P where
  blobs := fun _ _ _ => .error ""
  blobs_ok := by
    rintro _ _ _ _ _ h
    cases h
  key := .error ""

theorem exec_iff_eval (c : Choices P) {p : Program tpm α} {a : α}
    (hp : p.Only fun o : Op => o.chooses = false) :
    Exec (Step P False) p m a m' ↔ (a, m') = eval (respond c) p m := by
  constructor
  · intro h
    exact exec_eval c hp h
  · intro h
    obtain ⟨rfl, rfl⟩ := Prod.mk.inj h
    exact exec_of_respond c p m

/-! ## Files and signatures -/

theorem eval_findM? {f : String → Proc Bool} {g : String → Bool}
    (hf : ∀ s, eval (respond c) (f s) m = (g s, m)) (l : List String) :
    eval (respond c) (l.findM? f) m = (l.find? g, m) := by
  induction l with
  | nil => rfl
  | cons s l ih =>
      rw [List.findM?, eval_bind, hf s, List.find?_cons]
      cases g s with
      | true => rfl
      | false => exact ih

def System.discover (y : System) (override : Option String) (file : String)
    (as : String → Artifact) : Option String :=
  match override with
  | some p => if (y.file (as p)).isSome then some p else none
  | none => (SEARCH_DIRS.map fun d => d ++ "/" ++ file).find? fun p => (y.file (as p)).isSome

theorem eval_discover {override : Option String} {file : String} {as : String → Artifact} :
    eval (respond c) (Tpm.discover override file as) m = (m.sys.discover override file as, m) := by
  cases override with
  | some p => rfl
  | none => exact eval_findM? (g := fun p => (m.sys.file (as p)).isSome) (fun _ => rfl) _

theorem eval_readJson {β : Type} {f : Artifact} (as : f.Data → Json β) {d : f.Data}
    (hfile : m.sys.file f = some d) :
    eval (respond c) (readJson f as).run m = ((as d).parse, m) := by
  have hread : eval (respond c) (io (perform (.readFile f))).run m = (.ok d, m) := by
    rw [eval_attempt, eval_perform, respond, hfile]
    rfl
  rw [readJson, eval_exceptT_bind_ok hread]
  rfl

theorem eval_readText {f : Artifact} (as : f.Data → Option String) {d : f.Data} {text : String}
    (hfile : m.sys.file f = some d) (htext : as d = some text) :
    eval (respond c) (readText f as).run m = (.ok text, m) := by
  have hread : eval (respond c) (io (perform (.readFile f))).run m = (.ok d, m) := by
    rw [eval_attempt, eval_perform, respond, hfile]
    rfl
  rw [readText, eval_exceptT_bind_ok hread, htext]
  rfl

/-- The host's signatures as its file holds them. -/
def System.hostSignatures (P : Platform) (y : System) (bank : String) :
    Except LinuxHelloError (List PcrSignature) :=
  match y.file .signatures with
  | none => .ok []
  | some json => json.parse >>= fun raw => parseSignatures P raw bank

theorem eval_signatureFile {f : Artifact} (as : f.Data → Json Banks) {d : f.Data} {bank : String}
    (hfile : m.sys.file f = some d) :
    eval (respond c) (do
      let raw ← readJson f as
      settle (parseSignatures P raw bank) : Fallible (List PcrSignature)).run m =
      ((as d).parse >>= fun raw => parseSignatures P raw bank, m) := by
  have hread := eval_readJson (c := c) as hfile
  cases hparse : (as d).parse with
  | error e =>
      rw [hparse] at hread
      rw [eval_exceptT_bind_error hread]
      rfl
  | ok raw =>
      rw [hparse] at hread
      rw [eval_exceptT_bind_ok hread]
      rfl

theorem eval_hostSignatures {bank : String} :
    eval (respond c) (Tpm.hostSignatures P bank).run m = (m.sys.hostSignatures P bank, m) := by
  have hexists :
      eval (respond c) (liftM (perform (.pathExists .signatures)) : Fallible Bool).run m =
      (.ok (m.sys.file .signatures).isSome, m) := rfl
  rw [Tpm.hostSignatures, eval_exceptT_bind_ok hexists, System.hostSignatures]
  cases hfile : m.sys.file .signatures with
  | none => rfl
  | some json => exact eval_signatureFile id hfile

/-- systemd's signatures as the discovered file holds them. -/
def System.systemdSignatures (P : Platform) (y : System) (bank : String) :
    Except LinuxHelloError (List PcrSignature) :=
  match y.discover (P.env "LINHELLO_PCR_SIGNATURE") SIGNATURE_FILE .systemdSignatures with
  | none => .error (.policy "no TPM2 PCR signature file found")
  | some path =>
      match y.file (.systemdSignatures path) with
      | none => .error (.io .notFound)
      | some json => json.parse >>= fun raw => parseSignatures P raw bank

theorem eval_loadSignatures {bank : String} :
    eval (respond c) (loadSignatures P bank).run m = (m.sys.systemdSignatures P bank, m) := by
  have hfound :
      eval (respond c) (liftM (discoverSignaturePath P) : Fallible (Option String)).run m =
      (.ok (m.sys.discover (P.env "LINHELLO_PCR_SIGNATURE")
        SIGNATURE_FILE .systemdSignatures), m) := by
    rw [eval_exceptT_lift, discoverSignaturePath, eval_discover]
  rw [loadSignatures, eval_exceptT_bind_ok hfound]
  unfold System.systemdSignatures
  cases m.sys.discover (P.env "LINHELLO_PCR_SIGNATURE") SIGNATURE_FILE .systemdSignatures with
  | none => rfl
  | some path =>
      change eval (respond c) (do
        let raw ← readJson (.systemdSignatures path) id
        settle (parseSignatures P raw bank) : Fallible (List PcrSignature)).run m = _
      cases hfile : m.sys.file (.systemdSignatures path) with
      | none =>
          have hread : eval (respond c) (io (perform (.readFile (.systemdSignatures path)))).run m =
              (.error (.io .notFound), m) := by
            rw [eval_attempt, eval_perform, respond, hfile]
            rfl
          have hjson : eval (respond c) (readJson (.systemdSignatures path) id).run m =
              (.error (.io .notFound), m) :=
            eval_exceptT_bind_error hread
          rw [eval_exceptT_bind_error hjson]
          dsimp only
          rw [hfile]
      | some json =>
          rw [eval_signatureFile id hfile]
          dsimp only
          rw [hfile]
          rfl

def System.signaturesFor (P : Platform) (y : System) : SignerKind →
    Except LinuxHelloError (List PcrSignature)
  | .systemd => y.systemdSignatures P DEFAULT_BANK
  | .linhelloHost => y.hostSignatures P DEFAULT_BANK

theorem eval_signaturesFor {signer : SignerKind} :
    eval (respond c) (Tpm.signaturesFor P signer).run m = (m.sys.signaturesFor P signer, m) := by
  cases signer with
  | systemd => exact eval_loadSignatures
  | linhelloHost => exact eval_hostSignatures

theorem eval_classifySigner {pubkeyPem : String} {signer : SignerKind}
    (h : SignerOf P m.sys pubkeyPem signer) :
    eval (respond c) (classifySigner P pubkeyPem).run m = (.ok signer, m) := by
  rw [classifySigner]
  cases signer with
  | systemd =>
      rw [SignerOf] at h
      rw [h]
      rfl
  | linhelloHost =>
      obtain ⟨fp, hostPem, hfp, hne, hfile, hhost⟩ := h
      have hread : eval (respond c) (caught (readText .signingPub id)).run m =
          (.ok (.ok hostPem), m) := by
        rw [eval_caught, eval_readText id hfile rfl]
      have hsettle : ∀ {x : Except LinuxHelloError String}, x = .ok fp →
          eval (respond c) (settle x : Fallible String).run m = (.ok fp, m) := by
        rintro x rfl
        rfl
      rw [eval_exceptT_bind_ok (hsettle hfp), if_neg hne, eval_exceptT_bind_ok hread]
      dsimp only
      rw [eval_exceptT_bind_ok (hsettle hhost), if_pos rfl]
      rfl

theorem eval_isSecureBootEnabled :
    eval (respond c) isSecureBootEnabled m = (secureBootOf m.sys.efivar, m) := by
  obtain ⟨hr, hm⟩ := exec_isSecureBootEnabled (exec_of_respond (F := False) c isSecureBootEnabled m)
  exact Prod.ext hr hm

/-! ## Sessions -/

theorem eval_withSession {trial : Bool} (body : Nat → Fallible α) {r : Except LinuxHelloError α}
    {v : Machine} (hbody : eval (respond c) (body m.next).run (m.openSession trial) = (r, v)) :
    eval (respond c) (withSession trial body).run m = (r, v.flush m.next) := by
  have hcaught : eval (respond c) (caught (body m.next)).run (m.openSession trial) =
      (.ok r, v) := by
    rw [eval_caught, hbody]
  change eval (respond c) (do
    let result ← caught (body m.next)
    let _ ← perform (.flushContext m.next)
    settle result : Fallible α).run (m.openSession trial) = _
  rw [eval_exceptT_bind_ok hcaught]
  rfl

theorem eval_withHandle {spawn : Fallible Nat} {body : Nat → Fallible α} {handle : Nat}
    {r : Except LinuxHelloError α} {u v : Machine}
    (hspawn : eval (respond c) spawn.run m = (.ok handle, u))
    (hbody : eval (respond c) (body handle).run u = (r, v)) :
    eval (respond c) (withHandle spawn body).run m = (r, v.flush handle) := by
  have hcaught : eval (respond c) (caught (body handle)).run u = (.ok r, v) := by
    rw [eval_caught, hbody]
  rw [withHandle, eval_exceptT_bind_ok hspawn, eval_exceptT_bind_ok hcaught]
  rfl

theorem eval_computePolicyDigest {pcrs : List Nat} :
    ∃ v, eval (respond c) (computePolicyDigest (some pcrs)).run m =
      (.ok (pcrPolicy P.H m.sys.pcr pcrs), v) ∧ v.sys = m.sys := by
  have hpolicy : eval (respond c) (tpmErr (perform (.policyPcr m.next pcrs))).run
      (m.openSession true) = (.ok (), (m.openSession true).setDigest m.next
        { trial := true, digest := zeroDigest } (pcrPolicy P.H m.sys.pcr pcrs)) := by
    rw [eval_attempt, eval_perform, respond, Machine.openSession_session, Function.update_self]
    rfl
  have hget : eval (respond c) (tpmErr (perform (.policyGetDigest m.next))).run
      ((m.openSession true).setDigest m.next { trial := true, digest := zeroDigest }
        (pcrPolicy P.H m.sys.pcr pcrs)) = (.ok (pcrPolicy P.H m.sys.pcr pcrs),
          (m.openSession true).setDigest m.next { trial := true, digest := zeroDigest }
            (pcrPolicy P.H m.sys.pcr pcrs)) := by
    rw [eval_attempt, eval_perform, respond, Machine.setDigest_session, Function.update_self]
    rfl
  have hbody := (eval_exceptT_bind_ok (f := fun _ => tpmErr (perform (.policyGetDigest m.next)))
    hpolicy).trans hget
  exact ⟨_, eval_withSession (fun session => do
    tpmErr (perform (.policyPcr session pcrs))
    tpmErr (perform (.policyGetDigest session))) hbody, rfl⟩

end Linhello.Tpm
