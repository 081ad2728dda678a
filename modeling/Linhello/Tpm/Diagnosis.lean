import Linhello.Tpm.Labels
/-!
# Diagnosis

What is said of an envelope that does not open: the registers whose values are not those it
was sealed over. `diagnosis_exact` compares this with what the TPM does with the envelope.
-/

namespace Linhello.Tpm

open Common Effect
open Linhello.Core (PcrValue SealedEnvelope)

variable {P : Platform} {faulty : Prop} {m m' n n' : Machine} {c : Choices P}
  {env : SealedEnvelope} {secret : Bytes} {pcrs : List Nat}

/-! ## Reading registers -/

private theorem pcrSelection_singleton {p : Nat} (hp : pcrSlotSupported p = true) :
    pcrSelection [p] = .ok [p] := by
  unfold pcrSelection
  simp [hp]

theorem eval_readPcrValues (hpcrs : ∀ p ∈ pcrs, pcrSlotSupported p = true) :
    eval (respond c) (readPcrValues pcrs).run m = (.ok (valuesOf m.sys pcrs), m) := by
  induction pcrs with
  | nil => rfl
  | cons p pcrs ih =>
      have hp := hpcrs p List.mem_cons_self
      have hsel : eval (respond c) (settle (pcrSelection [p]) : Fallible (List Nat)).run m =
          (.ok [p], m) := by
        rw [eval_settle, pcrSelection_singleton hp]
      have hread : eval (respond c) (tpmErr (perform (.pcrRead [p]))).run m =
          (.ok [m.sys.pcr p], m) := by
        rw [eval_attempt, eval_perform, respond, selected_singleton p (lt_of_supported hp)]
        rfl
      rw [readPcrValues, eval_exceptT_bind_ok hsel, eval_exceptT_bind_ok hread,
        eval_exceptT_bind_ok (ih fun q hq => hpcrs q (List.mem_cons_of_mem p hq))]
      rfl

theorem supported_of_readPcrValues {values : List PcrValue}
    (h : Exec (Step P faulty) (readPcrValues pcrs).run m (.ok values) m') :
    ∀ p ∈ pcrs, pcrSlotSupported p = true := by
  induction pcrs generalizing values m m' with
  | nil => exact fun p hp => absurd hp List.not_mem_nil
  | cons p pcrs ih =>
      obtain ⟨sel, u, ⟨hsel, rfl⟩, h₁⟩ := exec_exceptT_bind_ok.1 h
      obtain ⟨digests, v, -, h₂⟩ := exec_exceptT_bind_ok.1 h₁
      obtain ⟨rest, w, hrest, -⟩ := exec_exceptT_bind_ok.1 h₂
      exact List.forall_mem_cons.2 ⟨supported_of_pcrSelection hsel.symm, ih hrest⟩

/-! ## Drift -/

/-- The registers that are no longer what they were. -/
def changed (sealing now : System) (pcrs : List Nat) : List Nat :=
  pcrs.filter fun p => sealing.pcr p ≠ now.pcr p

theorem changed_eq_nil {sealing now : System} :
    changed sealing now pcrs = [] ↔ ∀ p ∈ pcrs, now.pcr p = sealing.pcr p := by
  simp only [changed, List.filter_eq_nil_iff, decide_eq_true_eq, ne_eq, not_not]
  exact forall₂_congr fun p _ => eq_comm

theorem drifted_values (sealing now : System) (pcrs : List Nat) :
    (((valuesOf sealing pcrs).zip (valuesOf now pcrs)).filter fun (expected, now) =>
      expected.pcr = now.pcr ∧ expected.value ≠ now.value).map (fun (expected, _) => expected.pcr) =
      changed sealing now pcrs := by
  unfold valuesOf changed
  rw [List.zip_map', List.filter_map, List.map_map]
  simp [Function.comp_def]

/-- The envelope records what the registers of its list were in a system. -/
structure Recorded (y : System) (env : SealedEnvelope) : Prop where
  values : env.pcrValues = valuesOf y env.pcrs
  supported : ∀ p ∈ env.pcrs, pcrSlotSupported p = true

theorem eval_diagnosePcrs {y : System} (henv : Recorded y env) :
    eval (respond c) (diagnosePcrs P env).run m = (.ok (changed y m.sys env.pcrs), m) := by
  unfold diagnosePcrs
  by_cases hnone : env.pcrValues = []
  · have hpcrs : env.pcrs = [] := by
      rw [henv.values] at hnone
      exact List.map_eq_nil_iff.1 hnone
    rw [if_pos hnone, hpcrs]
    rfl
  · have hopen : eval (respond c) (openContext P).run m = (.ok (), m) := rfl
    rw [if_neg hnone, eval_exceptT_bind_ok hopen,
      eval_exceptT_bind_ok (eval_readPcrValues henv.supported), henv.values]
    have hdrift := drifted_values y m.sys env.pcrs
    rw [← hdrift]
    rfl

/-! ## What sealing records -/

private theorem supported_of_seal {p : PolicyPlan}
    (h : Exec (Step P faulty) (sealWithPlan P secret p).run m (.ok env) m') :
    ∀ i ∈ p.pcrs, pcrSlotSupported i = true := by
  have hliteral : ∀ {pcrs : List Nat},
      Exec (Step P faulty) (sealLiteral P secret pcrs).run m (.ok env) m' →
      ∀ i ∈ pcrs, pcrSlotSupported i = true := by
    intro pcrs h
    unfold sealLiteral at h
    obtain ⟨_, u, -, h₁⟩ := exec_exceptT_bind_ok.1 h
    obtain ⟨values, v, hvalues, -⟩ := exec_exceptT_bind_ok.1 h₁
    exact supported_of_readPcrValues hvalues
  cases p with
  | authorized pcrs pubkeyPem policyRef =>
      change Exec _ (sealAuthorized P secret pcrs pubkeyPem policyRef).run m _ m' at h
      unfold sealAuthorized at h
      obtain ⟨signer, u, -, h₁⟩ := exec_exceptT_bind_ok.1 h
      obtain ⟨_, v, -, h₂⟩ := exec_exceptT_bind_ok.1 h₁
      obtain ⟨values, w, hvalues, -⟩ := exec_exceptT_bind_ok.1 h₂
      exact supported_of_readPcrValues hvalues
  | literal pcrs => exact hliteral h
  | none => exact hliteral h

/-- An envelope records the registers of its plan as they were when it was sealed. -/
theorem recorded_of_seal {p : PolicyPlan}
    (h : Exec (Step P faulty) (sealWithPlan P secret p).run m (.ok env) m') :
    Recorded m.sys env ∧ env.pcrs = p.pcrs := by
  have hlabels := labelled_sealWithPlan h
  refine ⟨⟨?_, ?_⟩, hlabels.pcrs⟩
  · rw [hlabels.pcrs]
    exact hlabels.pcrValues
  · rw [hlabels.pcrs]
    exact supported_of_seal h

/-! ## What unsealing says -/

/-- A literal envelope is tried in a session that stands for the registers. -/
theorem eval_unsealLiteral_at {o : SealedObject} (ho : Sealed P m.sys env o)
    (hpcrs : env.pcrs ≠ [] → pcrSelection env.pcrs = .ok env.pcrs)
    {r : Except LinuxHelloError Bytes}
    (htry : ∀ (w : Machine) (handle session : Nat) (x : Session), w.sys.pcr = m.sys.pcr →
      w.object handle = some (.sealed o) → w.session session = some x → x.trial = false →
      x.digest = policyOver P m.sys (if env.pcrs = [] then none else some env.pcrs) →
      (eval (respond c) (unsealLoaded P handle session env).run w).1 = r) :
    (eval (respond c) (unsealLiteral P env).run m).1 = r := by
  have hopen : eval (respond c) (openContext P).run m = (.ok (), m) := rfl
  rw [unsealLiteral, eval_exceptT_bind_ok hopen]
  refine eval_withSealed ho fun u hpcr _ => eval_inSession ?_
  have hobject : ((u.give (.sealed o)).openSession false).object u.next = some (.sealed o) :=
    Function.update_self _ _ _
  have hregisters : ((u.give (.sealed o)).openSession false).sys.pcr = m.sys.pcr := hpcr
  have hsession : ((u.give (.sealed o)).openSession false).session (u.give (.sealed o)).next =
      some { trial := false, digest := zeroDigest } := Function.update_self _ _ _
  generalize (u.give (.sealed o)).openSession false = w at hobject hregisters hsession ⊢
  by_cases hnone : env.pcrs = []
  · rw [if_neg (not_not.2 hnone)]
    exact htry w _ _ _ hregisters hobject hsession rfl (by rw [if_pos hnone]; rfl)
  · have hsel : eval (respond c) (settle (pcrSelection env.pcrs) : Fallible (List Nat)).run
        w = (.ok env.pcrs, w) := by
      rw [eval_settle, hpcrs hnone]
    rw [if_pos hnone, eval_exceptT_bind_ok hsel, eval_exceptT_bind_ok (eval_policyPcr hsession)]
    refine htry _ _ _ _ hregisters hobject (Function.update_self _ _ _) rfl ?_
    rw [if_neg hnone, policyOver, ← hregisters]
    rfl

/-- Where the session does not stand for the policy, the error names the changed registers. -/
theorem eval_unsealLoaded_error {y : System} {handle session : Nat} {o : SealedObject}
    {x : Session} (henv : Recorded y env) (hobject : m.object handle = some (.sealed o))
    (hsession : m.session session = some x) (hdigest : x.digest ≠ o.authPolicy)
    (hchanged : changed y m.sys env.pcrs ≠ []) :
    (eval (respond c) (unsealLoaded P handle session env).run m).1 =
      .error (.policy ("TPM_RC_POLICY_FAIL" ++ ": PCR mismatch: " ++
        toString (changed y m.sys env.pcrs) ++ " changed since seal")) := by
  have hunseal : eval (respond c)
      (liftM (perform (.unsealObject handle session)) : Fallible (Except String Bytes)).run m =
      (.ok (.error "TPM_RC_POLICY_FAIL"), m) := by
    rw [eval_exceptT_lift, eval_perform, respond, hobject, hsession]
    dsimp only
    rw [if_neg fun h => hdigest h.2]
  have hcaught : eval (respond c) (caught (diagnosePcrs P env)).run m =
      (.ok (.ok (changed y m.sys env.pcrs)), m) := by
    rw [eval_caught, eval_diagnosePcrs henv]
  have herr : eval (respond c) (policyAwareErr P "TPM_RC_POLICY_FAIL" env).run m =
      (.ok (.policy ("TPM_RC_POLICY_FAIL" ++ ": PCR mismatch: " ++
        toString (changed y m.sys env.pcrs) ++ " changed since seal")), m) := by
    rw [policyAwareErr, eval_exceptT_bind_ok hcaught]
    dsimp only
    rw [if_pos hchanged]
    rfl
  rw [unsealLoaded, eval_exceptT_bind_ok hunseal]
  dsimp only
  rw [eval_exceptT_bind_ok herr]
  rfl

theorem policyOver_eq_iff {y now : System} (hpcrs : pcrs ≠ [] → pcrSelection pcrs = .ok pcrs) :
    policyOver P now (if pcrs = [] then none else some pcrs) =
      policyOver P y (if pcrs = [] then none else some pcrs) ↔ changed y now pcrs = [] := by
  rw [changed_eq_nil]
  by_cases hnone : pcrs = []
  · simp [hnone, policyOver]
  · rw [if_neg hnone]
    constructor
    · intro h i hi
      exact (pcrPolicy_inj now.pcr_length y.pcr_length h).2 i
        (mem_selected_of_supported (hpcrs hnone) hi)
    · intro h
      have hdigest : (selected pcrs).flatMap now.pcr = (selected pcrs).flatMap y.pcr :=
        List.flatMap_congr fun i hi => h i (mem_selected.1 hi).2
      show pcrPolicy P.H now.pcr pcrs = pcrPolicy P.H y.pcr pcrs
      unfold pcrPolicy extendPcr pcrDigest
      rw [hdigest]

/-- On a working TPM, whatever has happened to its registers since an envelope was sealed,
the diagnosis is the list of the plan's registers that changed. A literal envelope opens if
the list is empty, and otherwise the error names it. -/
theorem diagnosis_exact {p : PolicyPlan}
    (hseal : Exec (Step P False) (sealWithPlan P secret p).run m (.ok env) m')
    (hkept : n.sys.persistent = m'.sys.persistent) :
    (∀ r n', Exec (Step P False) (diagnosePcrs P env).run n r n' →
      r = .ok (changed m.sys n.sys p.pcrs)) ∧
    ((∀ pcrs pem ref, p ≠ .authorized pcrs pem ref) →
      ∀ r n', Exec (Step P False) («unseal» P env).run n r n' →
        (changed m.sys n.sys p.pcrs = [] → r = .ok secret) ∧
        (changed m.sys n.sys p.pcrs ≠ [] → ∃ e, r = .error (.policy (e ++ ": PCR mismatch: " ++
          toString (changed m.sys n.sys p.pcrs) ++ " changed since seal")))) := by
  obtain ⟨henv, hpcrs⟩ := recorded_of_seal hseal
  rw [← hpcrs]
  constructor
  · intro r n' h
    have hr := exec_eval (Choices.fixed P) (idle_diagnosePcrs.imp fun _ ho => ho.1.2) h
    rw [eval_diagnosePcrs henv] at hr
    exact (Prod.mk.inj hr).1
  · intro hliteral r n' h
    have hsealed : Exec (Step P False) (sealLiteral P secret p.pcrs).run m (.ok env) m' := by
      cases p with
      | authorized pcrs pem ref => exact absurd rfl (hliteral pcrs pem ref)
      | literal pcrs => exact hseal
      | none => exact hseal
    obtain ⟨srk, persistent, u, k, hsrk, hk, hobject, hfits, -, hpolicy, hsupported, hm'⟩ :=
      exec_sealLiteral_ok hsealed
    have ho := (sealed_of_created hsrk hk hobject hfits).congr (hkept.trans (by rw [hm']))
    rw [← hpcrs] at ho hsupported
    have hr := exec_eval (Choices.fixed P) calm_unseal h
    rw [«unseal», hpolicy] at hr
    have hvalue : r = (eval (respond (Choices.fixed P)) (unsealLiteral P env).run n).1 :=
      congrArg Prod.fst hr
    rw [hvalue]
    constructor
    · intro hsame
      exact eval_unsealLiteral ho hsupported ((policyOver_eq_iff hsupported).2 hsame).symm
    · intro hchanged
      refine ⟨"TPM_RC_POLICY_FAIL", eval_unsealLiteral_at ho hsupported ?_⟩
      intro w handle session x hregisters hloaded hsession _ hdigest
      have hsame : changed m.sys w.sys env.pcrs = changed m.sys n.sys env.pcrs := by
        unfold changed
        rw [hregisters]
      rw [← hsame]
      refine eval_unsealLoaded_error henv hloaded hsession ?_ (hsame ▸ hchanged)
      rw [hdigest]
      exact fun h => hchanged ((policyOver_eq_iff hsupported).1 h)

/-- What the simulated machine seals over the Secure Boot register. -/
def literalEnvelope : SealedEnvelope :=
  { version := Core.CURRENT_VERSION, mode := .medium, pcrs := [7], policy := .pcrLiteral,
    priv := [1, 2, 3], pcrValues := [⟨7, zeroDigest⟩],
    pub := simulated.marshall (.keyedHash { fixedTpm := true, fixedParent := true, noDa := true }
      .sha256 (policyOver simulated (simulatedMachine true none).sys (some [7])) [7]) }

/-- The machine after that, booted with other keys. -/
def rekeyedMachine : Machine :=
  let sealed := (eval (respond simulatedChoices)
    (sealWithPlan simulated [1, 2, 3] (.literal [7])).run (simulatedMachine true none)).2
  { sealed with sys := { sealed.sys with
    pcr := fun _ => List.replicate 32 1
    pcr_length := fun _ => List.length_replicate } }

theorem diagnosis_exact_rekeyed :
    (∀ r n', Exec (Step simulated False) (diagnosePcrs simulated literalEnvelope).run rekeyedMachine
      r n' → r = .ok [7]) ∧
    ∀ r n', Exec (Step simulated False)
      («unseal» simulated literalEnvelope).run rekeyedMachine r n' →
      ∃ e, r = .error
      (.policy (e ++ ": PCR mismatch: " ++ toString [7] ++ " changed since seal")) := by
  have hseal : Exec (Step simulated False) (sealWithPlan simulated [1, 2, 3] (.literal [7])).run
      (simulatedMachine true none) (.ok literalEnvelope)
      (eval (respond simulatedChoices) (sealWithPlan simulated [1, 2, 3] (.literal [7])).run
        (simulatedMachine true none)).2 :=
    exec_of_respond simulatedChoices _ _
  have hdrift : changed (simulatedMachine true none).sys rekeyedMachine.sys [7] = [7] := rfl
  obtain ⟨hdiagnosed, hunsealed⟩ := diagnosis_exact (n := rekeyedMachine) hseal rfl
  refine ⟨hdiagnosed, fun r n' h => ?_⟩
  obtain ⟨e, he⟩ :=
    (hunsealed (fun _ _ _ hp => by cases hp) r n' h).2 (by simp [PolicyPlan.pcrs, hdrift])
  exact ⟨e, he⟩

end Linhello.Tpm
