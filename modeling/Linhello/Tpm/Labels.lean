import Linhello.Core.EnvelopeFile
import Linhello.Tpm.Agreement
import Linhello.Tpm.Tampering
/-!
# What an envelope says of itself

The plan, the level, the register list and the registers' values are put together in two
functions, each of which rebuilds a plan to name the level. The label agrees with the plan
in both; an empty register list still counts as a binding.
-/

namespace Linhello.Tpm

open Common Effect Host
open Linhello.Core (PcrValue PolicyKind SealedEnvelope CURRENT_VERSION)
open Linhello.Core.EnvelopeFile (sealedEnvelope save load load_of_save readsBack_sealedEnvelope)

variable {P : Platform} {faulty : Prop} {m m' : Machine} {secret policyRef : Bytes}
  {pcrs : List Nat} {env : SealedEnvelope} {p : PolicyPlan} {J : JsonText}

/-! ## The registers -/

theorem lt_of_supported {i : Nat} (h : pcrSlotSupported i = true) : i < 24 := by
  simp only [pcrSlotSupported, Bool.or_eq_true, decide_eq_true_eq, beq_iff_eq] at h
  omega

theorem supported_of_pcrSelection {i : Nat} {sel : List Nat} (h : pcrSelection [i] = .ok sel) :
    pcrSlotSupported i = true := by
  unfold pcrSelection at h
  split at h
  · cases h
  · rename_i hfind
    have hslot := List.find?_eq_none.1 hfind i List.mem_cons_self
    rwa [Bool.not_eq_true', Bool.not_eq_false] at hslot

theorem selected_singleton : ∀ i < 24, selected [i] = [i] := by decide

theorem step_pcrRead_ok {digests : List Bytes}
    (hs : Step P faulty m (.pcrRead pcrs) (.ok digests) m') :
    digests = (selected pcrs).map m.sys.pcr := by
  obtain ⟨ch, hr⟩ | ⟨-, ⟨e, he⟩, -⟩ := hs
  · exact Except.ok.inj (Prod.mk.inj hr).1
  · cases he

/-- The values of the registers of a machine. -/
def valuesOf (y : System) (pcrs : List Nat) : List PcrValue :=
  pcrs.map fun i => { pcr := i, value := y.pcr i }

theorem exec_readPcrValues_ok {values : List PcrValue}
    (h : Exec (Step P faulty) (readPcrValues pcrs).run m (.ok values) m') :
    values = valuesOf m.sys pcrs ∧ ∀ i ∈ pcrs, i < 24 := by
  induction pcrs generalizing m m' values with
  | nil =>
      obtain ⟨hvalues, -⟩ := h
      exact ⟨Except.ok.inj hvalues, nofun⟩
  | cons i pcrs ih =>
      rw [readPcrValues] at h
      obtain ⟨sel, u, ⟨hsel, rfl⟩, h₁⟩ := exec_exceptT_bind_ok.1 h
      obtain ⟨digests, v, hread, h₂⟩ := exec_exceptT_bind_ok.1 h₁
      obtain ⟨rest, w, hrest, hvalues, rfl⟩ := exec_exceptT_bind_ok.1 h₂
      rw [exec_attempt_ok, exec_perform] at hread
      have hlt := lt_of_supported (supported_of_pcrSelection hsel.symm)
      have hdigests : digests = [u.sys.pcr i] := by
        rw [step_pcrRead_ok hread, pcrSelection_ok hsel.symm, selected_singleton i hlt]
        rfl
      obtain rfl := step_pcrRead hread
      obtain ⟨rfl, hall⟩ := ih hrest
      constructor
      · rw [Except.ok.inj hvalues, hdigests]
        rfl
      · intro j hj
        cases List.mem_cons.1 hj with
        | inl heq => rwa [heq]
        | inr hmem => exact hall j hmem

/-! ## The labels -/

/-- The kind of policy a plan is recorded as. -/
def kindOf : PolicyPlan → PolicyKind
  | .authorized _ pubkeyPem policyRef => .authorized pubkeyPem policyRef
  | .literal _ | .none => .pcrLiteral

/-- What an envelope records, for the level it was given. -/
structure Labelled (y : System) (p : PolicyPlan) (level : SecurityLevel) (env : SealedEnvelope) :
    Prop where
  version : env.version = CURRENT_VERSION
  mode : env.mode = level
  pcrs : env.pcrs = p.pcrs
  policy : env.policy = kindOf p
  pcrValues : env.pcrValues = valuesOf y p.pcrs
  small : ∀ i ∈ p.pcrs, i < 24

theorem labelled_sealLiteral
    (h : Exec (Step P faulty) (sealLiteral P secret pcrs).run m (.ok env) m') :
    Labelled m.sys (.literal pcrs) .medium env := by
  unfold sealLiteral at h
  obtain ⟨_, u₀, hopen, h₁⟩ := exec_exceptT_bind_ok.1 h
  obtain rfl := exec_openContext_ok hopen
  obtain ⟨values, u₁, hvalues, h₂⟩ := exec_exceptT_bind_ok.1 h₁
  obtain ⟨rfl, hsmall⟩ := exec_readPcrValues_ok hvalues
  obtain ⟨srk, persistent, u, v, -, hbody, -⟩ := exec_withSrk_ok h₂
  obtain ⟨selection, u₂, -, h₃⟩ := exec_exceptT_bind_ok.1 hbody
  obtain ⟨digest, w, -, h₄⟩ := exec_exceptT_bind_ok.1 h₃
  obtain ⟨sensitive, w₁, -, h₅⟩ := exec_exceptT_bind_ok.1 h₄
  obtain ⟨⟨area, priv⟩, w₂, -, henv, -⟩ := exec_exceptT_bind_ok.1 h₅
  rw [Except.ok.inj henv]
  exact ⟨rfl, rfl, rfl, rfl, rfl, hsmall⟩

theorem labelled_sealAuthorized {pubkeyPem : String}
    (h : Exec (Step P faulty)
      (sealAuthorized P secret pcrs pubkeyPem policyRef).run m (.ok env) m') :
    Labelled m.sys (.authorized pcrs pubkeyPem policyRef)
      (PolicyPlan.authorized pcrs pubkeyPem policyRef).securityLevel env := by
  unfold sealAuthorized at h
  obtain ⟨signer, u₀, hsigner, h₁⟩ := exec_exceptT_bind_ok.1 h
  obtain ⟨rfl, -⟩ := exec_classifySigner_ok hsigner
  obtain ⟨_, u₁, hopen, h₂⟩ := exec_exceptT_bind_ok.1 h₁
  obtain rfl := exec_openContext_ok hopen
  obtain ⟨values, u₂, hvalues, h₃⟩ := exec_exceptT_bind_ok.1 h₂
  obtain ⟨rfl, hsmall⟩ := exec_readPcrValues_ok hvalues
  obtain ⟨name, t, -, h₄⟩ := exec_exceptT_bind_ok.1 h₃
  obtain ⟨sealed, v, hsealed, h₅⟩ := exec_exceptT_bind_ok.1 h₄
  obtain ⟨srk, persistent, u, w, -, hbody, -⟩ := exec_withSrk_ok hsealed
  obtain ⟨sensitive, w₁, -, h₆⟩ := exec_exceptT_bind_ok.1 hbody
  obtain ⟨⟨created, priv⟩, w₂, -, hrecord, -⟩ := exec_exceptT_bind_ok.1 h₆
  -- signing the current registers does not touch the record
  have hsame : env = sealed := by
    cases signer with
    | systemd => exact Except.ok.inj h₅.1
    | linhelloHost =>
        obtain ⟨d, x, -, henv, -⟩ := exec_exceptT_bind_ok.1 h₅
        exact Except.ok.inj henv
  rw [hsame, Except.ok.inj hrecord]
  exact ⟨rfl, rfl, rfl, rfl, rfl, hsmall⟩

/-- The level a sealed envelope is given: without a plan it is that of a literal one. -/
def levelGiven : PolicyPlan → SecurityLevel
  | .none => .medium
  | p => p.securityLevel

theorem labelled_sealWithPlan
    (h : Exec (Step P faulty) (sealWithPlan P secret p).run m (.ok env) m') :
    Labelled m.sys p (levelGiven p) env := by
  cases p with
  | none =>
      have hlabels := labelled_sealLiteral h
      exact ⟨hlabels.version, hlabels.mode, hlabels.pcrs, hlabels.policy, hlabels.pcrValues,
        hlabels.small⟩
  | literal pcrs => exact labelled_sealLiteral h
  | authorized pcrs pubkeyPem policyRef => exact labelled_sealAuthorized h

/-! ## Truthful envelopes -/

/-- The envelope says what it was sealed under, also once it was saved and loaded. -/
structure Truthful (P : Platform) (J : JsonText) (y : System) (p : PolicyPlan)
    (env : SealedEnvelope) : Prop where
  mode : env.mode = p.securityLevel
  pcrs : env.pcrs = p.pcrs
  policy : env.policy = kindOf p
  pcrValues : env.pcrValues = valuesOf y p.pcrs
  saved : ∀ made f f', Exec (Conf.Step True) (save J P.encode P.decode made env).run f (.ok ()) f' →
    ∀ r f'', Exec (Conf.Step False) (load J P.encode P.decode).run f' r f'' → r = .ok env
  unbound : env.pcrs = [] → env.mode = .basic

theorem Labelled.readsBack {level : SecurityLevel} (h : Labelled m.sys p level env) :
    (sealedEnvelope P.encode P.decode).ReadsBack env := by
  apply readsBack_sealedEnvelope P.decode_encode
  · rw [h.version]
    decide
  · intro i hi
    rw [h.pcrs] at hi
    have hlt := h.small i hi
    omega
  · intro value hvalue
    rw [h.pcrValues] at hvalue
    obtain ⟨i, hi, rfl⟩ := List.mem_map.1 hvalue
    have hlt := h.small i hi
    change i < 2 ^ 32
    omega

/-- An envelope describes itself truthfully if and only if its plan names a register. -/
theorem seal_with_plan_truthful_iff
    (htext : J.parse (J.print ((sealedEnvelope P.encode P.decode).write env)) =
      some ((sealedEnvelope P.encode P.decode).write env))
    (h : Exec (Step P faulty) (sealWithPlan P secret p).run m (.ok env) m') :
    Truthful P J m.sys p env ↔ p.pcrs ≠ [] := by
  have hlabels := labelled_sealWithPlan h
  constructor
  · intro htrue hnone
    have hbasic := htrue.unbound (hlabels.pcrs.trans hnone)
    rw [hlabels.mode] at hbasic
    cases p with
    | none => cases hbasic
    | literal pcrs => cases hbasic
    | authorized pcrs pubkeyPem policyRef =>
        obtain rfl : pcrs = [] := hnone
        cases hbasic
  · intro hbound
    have hmode : levelGiven p = p.securityLevel := by
      cases p with
      | none => exact absurd rfl hbound
      | literal pcrs => rfl
      | authorized pcrs pubkeyPem policyRef => rfl
    exact {
      mode := hlabels.mode.trans hmode
      pcrs := hlabels.pcrs
      policy := hlabels.policy
      pcrValues := hlabels.pcrValues
      saved := fun _ _ _ hsave _ _ hload => load_of_save htext hlabels.readsBack hsave hload
      unbound := fun hnone => absurd (hlabels.pcrs.symm.trans hnone) hbound }

/-- What a host seals under its own signer. -/
theorem seal_with_plan_truthful_host : ∃ J env m',
    Exec (Step simulated False) (sealWithPlan simulated [1, 2, 3]
      (.authorized LINHELLO_SIGNED_PCRS "host.pem" [])).run
        (simulatedMachine true none) (.ok env) m' ∧
    Truthful simulated J (simulatedMachine true none).sys
      (.authorized LINHELLO_SIGNED_PCRS "host.pem" []) env := by
  obtain ⟨env, m', hseal⟩ := @Started.seals [1, 2, 3] none [] _ started_simulated (by decide) rfl
  have htext := JsonText.parse_of ((sealedEnvelope simulated.encode simulated.decode).write env)
  have hbound : LINHELLO_SIGNED_PCRS ≠ [] := List.cons_ne_nil 7 []
  exact ⟨_, env, m', hseal, (seal_with_plan_truthful_iff htext hseal).2 hbound⟩

/-- Without Secure Boot nothing is bound, and the envelope says `Medium`. -/
theorem not_seal_with_plan_truthful : ¬ ∀ (J : JsonText) (secret : Bytes) (p : PolicyPlan)
    (m m' : Machine) (env : SealedEnvelope),
    J.parse (J.print ((sealedEnvelope simulated.encode simulated.decode).write env)) =
      some ((sealedEnvelope simulated.encode simulated.decode).write env) →
    Exec (Step simulated False) (sealWithPlan simulated secret p).run m (.ok env) m' →
    Truthful simulated J m.sys p env := by
  intro hall
  have hseal : Exec (Step simulated False) (sealWithPlan simulated [1, 2, 3] .none).run
      (simulatedMachine false none) (.ok simulatedEnvelope)
      (eval (respond simulatedChoices) (sealWithPlan simulated [1, 2, 3] .none).run
        (simulatedMachine false none)).2 := exec_of_respond simulatedChoices _ _
  have htrue := hall _ _ _ _ _ _ (JsonText.parse_of _) hseal
  cases htrue.mode

end Linhello.Tpm
