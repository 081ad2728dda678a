import Linhello.Tpm.Calm
import Linhello.Tpm.SelfHeal
/-!
# When self-healing recovers

An entry that is appended is read back as the first match, since without a match there
was none before it. Whether the signature that is found verifies, nobody asks.
-/

namespace Linhello.Tpm

open Common Effect Host

variable {P : Platform} {m m' : Machine}

/-! ## Reading back what was appended -/

theorem parseEntries_cons_ok {e : RawEntry} {es : List RawEntry} {sigs : List PcrSignature}
    (h : parseEntries P (e :: es) = .ok sigs) :
    ∃ s ss, parseEntry P e = .ok s ∧ parseEntries P es = .ok ss ∧ sigs = s :: ss := by
  obtain ⟨s, hs, h₁⟩ := bind_eq_ok.1 h
  obtain ⟨ss, hss, h₂⟩ := bind_eq_ok.1 h₁
  exact ⟨s, ss, hs, hss, (Except.ok.inj h₂).symm⟩

theorem parseEntries_append {es : List RawEntry} {e : RawEntry} {sigs : List PcrSignature}
    {s : PcrSignature} (hes : parseEntries P es = .ok sigs) (he : parseEntry P e = .ok s) :
    parseEntries P (es ++ [e]) = .ok (sigs ++ [s]) := by
  induction es generalizing sigs with
  | nil =>
      obtain rfl := Except.ok.inj hes
      rw [List.nil_append, parseEntries, he]
      rfl
  | cons a es ih =>
      obtain ⟨x, xs, hx, hxs, rfl⟩ := parseEntries_cons_ok hes
      rw [List.cons_append, parseEntries, hx, ih hxs]
      rfl

theorem exists_parsed {es : List RawEntry} {sigs : List PcrSignature}
    (h : parseEntries P es = .ok sigs) {e : RawEntry} (he : e ∈ es) :
    ∃ s ∈ sigs, parseEntry P e = .ok s := by
  induction es generalizing sigs with
  | nil => cases he
  | cons a es ih =>
      obtain ⟨x, xs, hx, hxs, rfl⟩ := parseEntries_cons_ok h
      rcases List.mem_cons.1 he with rfl | he
      · exact ⟨x, List.mem_cons_self, hx⟩
      · obtain ⟨s, hs, hparse⟩ := ih hxs he
        exact ⟨s, List.mem_cons_of_mem _ hs, hparse⟩

theorem exists_raw {es : List RawEntry} {sigs : List PcrSignature}
    (h : parseEntries P es = .ok sigs) {s : PcrSignature} (hs : s ∈ sigs) :
    ∃ e ∈ es, parseEntry P e = .ok s := by
  induction es generalizing sigs with
  | nil =>
      obtain rfl := Except.ok.inj h
      cases hs
  | cons a es ih =>
      obtain ⟨x, xs, hx, hxs, rfl⟩ := parseEntries_cons_ok h
      rcases List.mem_cons.1 hs with rfl | hs
      · exact ⟨a, List.mem_cons_self, hx⟩
      · obtain ⟨e, he, hparse⟩ := ih hxs hs
        exact ⟨e, List.mem_cons_of_mem _ he, hparse⟩

theorem parseEntry_ok {e : RawEntry} {s : PcrSignature} (h : parseEntry P e = .ok s) :
    fromHex e.pol = .ok s.pol ∧ P.decode e.sig = .ok s.sig ∧ s.pcrs = e.pcrs := by
  obtain ⟨pol, hpol, h₁⟩ := bind_eq_ok.1 h
  obtain ⟨sig, hsig, h₂⟩ := bind_eq_ok.1 h₁
  obtain rfl := Except.ok.inj h₂
  exact ⟨mapError_eq_ok.1 hpol, mapError_eq_ok.1 hsig, rfl⟩

theorem parseEntry_written {pcrs : List Nat} {pkfp : String} {pol sig : Bytes} :
    parseEntry P { pcrs := pcrs, pkfp := pkfp, pol := hexLower pol, sig := P.encode sig } =
      .ok { pcrs := pcrs, pkfp := pkfp, pol := pol, sig := sig } := by
  simp only [parseEntry, fromHex_hexLower, P.decode_encode]
  rfl

theorem findForPolicy_eq_none {sigs : List PcrSignature} {pcrs : List Nat} {digest : Bytes} :
    findForPolicy sigs pcrs digest = none ↔ ∀ s ∈ sigs, ¬ (s.pol = digest ∧ s.pcrs = pcrs) := by
  simp only [findForPolicy, List.find?_eq_none, decide_eq_true_eq]

/-- The entries of a bank that parse, with one more behind them. -/
theorem parseSignatures_addEntry {banks : Banks} {bank : String} {sigs : List PcrSignature}
    {pcrs : List Nat} {pkfp : String} {pol sig : Bytes}
    (hparse : parseSignatures P banks bank = .ok sigs)
    (hnone : findForPolicy sigs pcrs pol = none) :
    parseSignatures P (addEntry banks bank
      { pcrs := pcrs, pkfp := pkfp, pol := hexLower pol, sig := P.encode sig }) bank =
      .ok (sigs ++ [{ pcrs := pcrs, pkfp := pkfp, pol := pol, sig := sig }]) := by
  have hlist : parseEntries P ((banks.lookup bank).getD []) = .ok sigs := by
    unfold parseSignatures at hparse
    cases hbank : banks.lookup bank with
    | none =>
        rw [hbank] at hparse
        exact hparse
    | some es =>
        rw [hbank] at hparse
        exact hparse
  have hfresh : ¬ ((banks.lookup bank).getD []).any
      (fun e => e.pol = hexLower pol ∧ e.pcrs = pcrs) = true := by
    intro hany
    obtain ⟨e, he, hmatch⟩ := List.any_eq_true.1 hany
    rw [decide_eq_true_eq] at hmatch
    obtain ⟨s, hs, hsparse⟩ := exists_parsed hlist he
    obtain ⟨hpol, -, hpcrs⟩ := parseEntry_ok hsparse
    rw [hmatch.1, fromHex_hexLower] at hpol
    exact findForPolicy_eq_none.1 hnone s hs
      ⟨(Except.ok.inj hpol).symm, hpcrs.trans hmatch.2⟩
  unfold addEntry
  dsimp only
  rw [if_neg hfresh, parseSignatures, AList.lookup_insert]
  exact parseEntries_append hlist parseEntry_written

theorem findForPolicy_append {sigs : List PcrSignature} {s : PcrSignature} {pcrs : List Nat}
    {digest : Bytes} (hnone : findForPolicy sigs pcrs digest = none) (hpol : s.pol = digest)
    (hpcrs : s.pcrs = pcrs) : findForPolicy (sigs ++ [s]) pcrs digest = some s := by
  unfold findForPolicy at hnone ⊢
  rw [List.find?_append, hnone]
  simp [hpol, hpcrs]

/-! ## One recovery -/

/-- The host's key pair reads back: two texts that parse to the halves of one pair. -/
structure HostPair (P : Platform) (y : System) (sk : PrivateKey) : Prop where
  private_half : ∃ pem, y.file .signingKey = some (some pem) ∧ P.rsa.parsePrivate pem = .ok sk
  public_half : ∃ pem fp, y.file .signingPub = some (some pem) ∧
    P.rsa.parsePublic pem = .ok sk.pub ∧ pubkeySpkiFingerprint P pem = .ok fp

variable {c : Choices P} {sk : PrivateKey}

theorem eval_signAhash {pem : String} {ahash : Bytes}
    (hfile : m.sys.file .signingKey = some (some pem))
    (hparse : P.rsa.parsePrivate pem = .ok sk) :
    eval (respond c) (signAhash P ahash).run m =
      ((P.rsa.sign sk ahash).mapError fun e => .policy ("sign PCR policy: " ++ e), m) := by
  have hkey : eval (respond c) (hostPrivateKey P).run m = (.ok sk, m) := by
    rw [hostPrivateKey, eval_exceptT_bind_ok (eval_readText id hfile rfl), eval_settle, hparse]
    rfl
  rw [signAhash, eval_exceptT_bind_ok hkey]
  rfl

/-- What the writer takes the signature file to hold. -/
def System.existingBanks (y : System) : Banks :=
  match y.file .signatures with
  | some (.value banks) => banks
  | _ => ∅

/-- The signature file written anew, through a temporary one. -/
def System.replaceSignatures (y : System) (banks : Banks) : System :=
  ((y.setFile .signaturesTmp (some (.value banks))).setFile .signatures
    (some (.value banks))).setFile .signaturesTmp none

theorem eval_persistHostSignature (bank : String) (pcrs : List Nat) (polDigest sig : Bytes)
    {pem pkfp : String}
    (hpub : m.sys.file .signingPub = some (some pem))
    (hfp : pubkeySpkiFingerprint P pem = .ok pkfp) :
    ∃ v, eval (respond c) (persistHostSignature P bank pcrs polDigest sig).run m = (.ok (), v) ∧
      v.sys = m.sys.replaceSignatures (addEntry m.sys.existingBanks bank
        { pcrs := pcrs, pkfp := pkfp, pol := hexLower polDigest, sig := P.encode sig }) := by
  have hread : eval (respond c)
      (liftM (perform (.readFile .signatures)) : Fallible (Except IoError (Json Banks))).run m =
      (.ok (respond c m (.readFile .signatures)).1, m) := by
    rw [eval_exceptT_lift, eval_perform]
    cases hfile : m.sys.file .signatures <;> simp only [respond, hfile]
  have hsettle : eval (respond c) (settle (pubkeySpkiFingerprint P pem) : Fallible String).run m =
      (.ok pkfp, m) := by
    rw [eval_settle, hfp]
  unfold persistHostSignature
  rw [eval_exceptT_bind_ok hread]
  dsimp only
  rw [eval_exceptT_bind_ok (eval_readText id hpub rfl), eval_exceptT_bind_ok hsettle]
  refine ⟨_, rfl, congrArg (fun banks => m.sys.replaceSignatures (addEntry banks bank _)) ?_⟩
  -- what is read as no file or as no JSON counts as an empty one
  unfold System.existingBanks
  cases hfile : m.sys.file .signatures with
  | none => simp only [respond, hfile]
  | some json =>
      simp only [respond, hfile]
      cases json <;> rfl

theorem parseSignatures_existing {y : System} {bank : String} {sigs : List PcrSignature}
    (h : y.hostSignatures P bank = .ok sigs) :
    parseSignatures P y.existingBanks bank = .ok sigs := by
  unfold System.hostSignatures at h
  unfold System.existingBanks
  cases hfile : y.file .signatures with
  | none =>
      rw [hfile] at h
      exact h
  | some json =>
      rw [hfile] at h
      obtain ⟨banks, hbanks, hparse⟩ := bind_eq_ok.1 h
      rw [parse_eq_ok.1 hbanks]
      exact hparse

theorem hostSignatures_replaceSignatures {y : System} {banks : Banks} {bank : String} :
    (y.replaceSignatures banks).hostSignatures P bank = parseSignatures P banks bank := by
  have hfile : (y.replaceSignatures banks).file .signatures = some (.value banks) := by
    rw [System.replaceSignatures, setFile_file_of_ne (by decide), setFile_file_self]
  rw [System.hostSignatures, hfile]
  rfl

/-- The signature is looked for, and made and written if there is none. -/
theorem eval_ensureHostSignature (policyRef : Bytes) {pcrs : List Nat}
    (hpcrs : pcrSelection pcrs = .ok pcrs) :
    ∃ v, v.sys = m.sys ∧ eval (respond c) (ensureHostSignature P pcrs policyRef).run m =
      match m.sys.hostSignatures P DEFAULT_BANK with
      | .error e => (.error e, v)
      | .ok sigs =>
          if (findForPolicy sigs pcrs (pcrPolicy P.H m.sys.pcr pcrs)).isSome then
            (.ok (pcrPolicy P.H m.sys.pcr pcrs), v)
          else
            eval (respond c) (do
              let sig ← signAhash P (authorizationHash P.H (pcrPolicy P.H m.sys.pcr pcrs) policyRef)
              persistHostSignature P DEFAULT_BANK pcrs (pcrPolicy P.H m.sys.pcr pcrs) sig
              pure (pcrPolicy P.H m.sys.pcr pcrs) : Fallible Bytes).run v := by
  obtain ⟨v, hdigest, hv⟩ := @eval_computePolicyDigest P m c pcrs
  refine ⟨v, hv, ?_⟩
  have hopen : eval (respond c) (openContext P).run m = (.ok (), m) := rfl
  have hsel : eval (respond c) (settle (pcrSelection pcrs) : Fallible (List Nat)).run m =
      (.ok pcrs, m) := by
    rw [eval_settle, hpcrs]
  have hexisting := @eval_hostSignatures P v c DEFAULT_BANK
  rw [ensureHostSignature, eval_exceptT_bind_ok hopen, eval_exceptT_bind_ok hsel,
    eval_exceptT_bind_ok hdigest]
  rw [hv] at hexisting
  cases hsigs : m.sys.hostSignatures P DEFAULT_BANK with
  | error e =>
      rw [hsigs] at hexisting
      rw [eval_exceptT_bind_error hexisting]
  | ok sigs =>
      rw [hsigs] at hexisting
      rw [eval_exceptT_bind_ok hexisting]
      by_cases hfound : (findForPolicy sigs pcrs (pcrPolicy P.H m.sys.pcr pcrs)).isSome = true
      · simp only [if_pos hfound, eval_exceptT_pure]
      · simp only [if_neg hfound]

/-- A signature for the current registers is made where a list has none. -/
theorem eval_signed (policyRef : Bytes) {pcrs : List Nat} {digest : Bytes}
    {sigs : List PcrSignature}
    (hpair : HostPair P m.sys sk) (hsigs : m.sys.hostSignatures P DEFAULT_BANK = .ok sigs)
    (hnone : findForPolicy sigs pcrs digest = none) :
    let made := do
      let sig ← signAhash P (authorizationHash P.H digest policyRef)
      persistHostSignature P DEFAULT_BANK pcrs digest sig
      pure digest
    (∃ e, eval (respond c) made.run m = (.error e, m) ∧ sk.pub.n.length < 62) ∨
    (∃ v banks s, eval (respond c) made.run m = (.ok digest, v) ∧ 62 ≤ sk.pub.n.length ∧
      v.sys = m.sys.replaceSignatures banks ∧
      parseSignatures P banks DEFAULT_BANK = .ok (sigs ++ [s]) ∧ s.pcrs = pcrs ∧ s.pol = digest ∧
      P.rsa.verify sk.pub (authorizationHash P.H digest policyRef) s.sig = true) := by
  obtain ⟨⟨keyPem, hkeyFile, hkey⟩, ⟨pubPem, fp, hpubFile, -, hfp⟩⟩ := hpair
  have hsign :=
    @eval_signAhash P m c sk keyPem (authorizationHash P.H digest policyRef) hkeyFile hkey
  have hsize : (∃ sig, P.rsa.sign sk (authorizationHash P.H digest policyRef) = .ok sig) ↔
      62 ≤ sk.pub.n.length := P.rsa.sign_hash sk _
  cases hsig : P.rsa.sign sk (authorizationHash P.H digest policyRef) with
  | error e =>
      rw [hsig] at hsign
      refine .inl ⟨_, eval_exceptT_bind_error hsign, ?_⟩
      rw [← not_le, ← hsize, hsig]
      rintro ⟨sig, h⟩
      cases h
  | ok sig =>
      rw [hsig] at hsign
      obtain ⟨v, hpersist, hv⟩ := eval_persistHostSignature (c := c) DEFAULT_BANK pcrs
        digest sig hpubFile hfp
      refine .inr ⟨v, _, { pcrs := pcrs, pkfp := fp, pol := digest, sig := sig }, ?_,
        hsize.1 ⟨sig, hsig⟩, hv, parseSignatures_addEntry (parseSignatures_existing hsigs) hnone,
        rfl, rfl, P.rsa.verify_sign _ _ _ hsig⟩
      rw [eval_exceptT_bind_ok hsign, eval_exceptT_bind_ok hpersist]
      rfl

/-- With a readable signature file and a key pair the digest comes back. -/
theorem eval_ensureHostSignature_ok (policyRef : Bytes) {pcrs : List Nat} {sigs : List PcrSignature}
    (hpcrs : pcrSelection pcrs = .ok pcrs) (hpair : HostPair P m.sys sk)
    (hsize : 62 ≤ sk.pub.n.length) (hsigs : m.sys.hostSignatures P DEFAULT_BANK = .ok sigs) :
    ∃ v, eval (respond c) (ensureHostSignature P pcrs policyRef).run m =
      (.ok (pcrPolicy P.H m.sys.pcr pcrs), v) := by
  obtain ⟨v, hv, hensure⟩ := eval_ensureHostSignature (c := c) (m := m) policyRef hpcrs
  rw [hsigs] at hensure
  dsimp only at hensure
  cases hfind : findForPolicy sigs pcrs (pcrPolicy P.H m.sys.pcr pcrs) with
  | some s =>
      rw [hfind] at hensure
      exact ⟨v, hensure⟩
  | none =>
      rw [hfind] at hensure
      obtain ⟨e, -, hshort⟩ | ⟨w, _, _, hok, -⟩ := eval_signed (c := c) (m := v)
        policyRef (hv ▸ hpair) (hv ▸ hsigs) hfind
      · omega
      · exact ⟨w, hensure.trans hok⟩

/-! ## The host's signer as a whole -/

theorem calm_persistHostSignature {bank : String} {pcrs : List Nat} {polDigest sig : Bytes} :
    (persistHostSignature P bank pcrs polDigest sig).run.Only fun o : Op => o.chooses = false := by
  refine only_exceptT_bind (only_exceptT_lift (only_perform rfl)) fun read => ?_
  refine only_exceptT_bind (quiet_readText.imp fun _ ho => ho.2) fun pem => ?_
  refine only_exceptT_bind only_settle fun pkfp => ?_
  refine only_exceptT_bind (only_attempt (only_perform rfl)) fun _ => ?_
  refine only_exceptT_bind (only_attempt (only_perform rfl)) fun _ => ?_
  refine only_exceptT_bind (only_attempt (only_perform rfl)) fun _ => ?_
  exact only_attempt (only_perform rfl)

theorem calm_ensureHostSignature {pcrs : List Nat} {policyRef : Bytes} :
    (ensureHostSignature P pcrs policyRef).run.Only fun o : Op => o.chooses = false := by
  have hquiet : ∀ {β : Type} {p : Program tpm β}, p.Only Op.Quiet →
      p.Only fun o : Op => o.chooses = false :=
    fun hp => hp.imp fun _ ho => ho.2
  refine only_exceptT_bind (hquiet quiet_openContext) fun _ => ?_
  refine only_exceptT_bind only_settle fun sel => ?_
  refine only_exceptT_bind (hquiet quiet_computePolicyDigest) fun approved => ?_
  refine only_exceptT_bind (hquiet (@quiet_signaturesFor P .linhelloHost)) fun existing => ?_
  split
  · exact only_exceptT_pure
  · refine only_exceptT_bind (hquiet quiet_signAhash) fun sig => ?_
    exact only_exceptT_bind calm_persistHostSignature fun _ => only_exceptT_pure

theorem exec_hostSignatures {bank : String} {r : Except LinuxHelloError (List PcrSignature)} :
    Exec (Step P False) (hostSignatures P bank).run m r m' ↔
      r = m.sys.hostSignatures P bank ∧ m' = m := by
  have hcalm : (hostSignatures P bank).run.Only fun o : Op => o.chooses = false := by
    refine only_exceptT_bind (only_exceptT_lift (only_perform rfl)) fun present => ?_
    split
    · exact only_exceptT_bind (quiet_readJson.imp fun _ ho => ho.2) fun _ => only_settle
    · exact only_exceptT_pure
  rw [exec_iff_eval (Choices.fixed P) hcalm, eval_hostSignatures, Prod.mk.injEq]

/-- Self-healing recovers: it returns the digest of the current registers, and the
signature that is found for it afterwards verifies under the host's key. -/
def Recovers (P : Platform) (m : Machine) (pcrs : List Nat) (policyRef : Bytes) (key : PublicKey) :
    Prop :=
  ∀ r m', Exec (Step P False) (ensureHostSignature P pcrs policyRef).run m r m' →
    r = .ok (pcrPolicy P.H m.sys.pcr pcrs) ∧
    ∃ sigs s, Exec (Step P False) (hostSignatures P DEFAULT_BANK).run m' (.ok sigs) m' ∧
      findForPolicy sigs pcrs (pcrPolicy P.H m.sys.pcr pcrs) = some s ∧
      P.rsa.verify key (authorizationHash P.H (pcrPolicy P.H m.sys.pcr pcrs) policyRef) s.sig = true

/-- The signature file is absent or can be read, and the first signature for the current
registers verifies; where there is none, the key is long enough to make one. -/
def Recoverable (P : Platform) (y : System) (pcrs : List Nat) (policyRef : Bytes)
    (key : PublicKey) :
    Prop :=
  ∃ sigs, y.hostSignatures P DEFAULT_BANK = .ok sigs ∧
    match findForPolicy sigs pcrs (pcrPolicy P.H y.pcr pcrs) with
    | some s =>
        P.rsa.verify key (authorizationHash P.H (pcrPolicy P.H y.pcr pcrs) policyRef) s.sig = true
    | none => 62 ≤ key.n.length

theorem recovers_iff {pcrs : List Nat} {policyRef : Bytes} (hpair : HostPair P m.sys sk)
    (hpcrs : pcrSelection pcrs = .ok pcrs) :
    Recovers P m pcrs policyRef sk.pub ↔ Recoverable P m.sys pcrs policyRef sk.pub := by
  obtain ⟨v, hv, heval⟩ := eval_ensureHostSignature (c := Choices.fixed P) (m := m)
    policyRef hpcrs
  -- without faults there is one execution
  have hone : ∀ r m', Exec (Step P False) (ensureHostSignature P pcrs policyRef).run m r m' ↔
      (r, m') = eval (respond (Choices.fixed P)) (ensureHostSignature P pcrs policyRef).run m :=
    fun r m' => exec_iff_eval _ calm_ensureHostSignature
  rw [heval] at hone
  unfold Recovers Recoverable
  simp only [hone, exec_hostSignatures, and_true]
  cases hsigs : m.sys.hostSignatures P DEFAULT_BANK with
  | error e =>
      constructor
      · intro h
        cases (h _ _ rfl).1
      · rintro ⟨_, h, -⟩
        cases h
  | ok sigs =>
      simp only [Except.ok.injEq, exists_eq_left']
      cases hfind : findForPolicy sigs pcrs (pcrPolicy P.H m.sys.pcr pcrs) with
      | some s =>
          constructor
          · intro h
            obtain ⟨-, l, x, hl, hx, hverify⟩ := h _ _ rfl
            rw [hv, hsigs] at hl
            obtain rfl := Except.ok.inj hl
            rw [hfind] at hx
            rwa [Option.some.inj hx]
          · rintro hverify r m' h
            obtain ⟨rfl, rfl⟩ := Prod.mk.inj h
            exact ⟨rfl, sigs, s, by rw [hv, hsigs], hfind, hverify⟩
      | none =>
          have hmade := eval_signed (c := Choices.fixed P) (m := v)
            policyRef (hv ▸ hpair) (hv ▸ hsigs) hfind
          obtain ⟨e, herror, hshort⟩ | ⟨w, banks, s, hok, hlong, hw, hparse, hspcrs, hspol,
            hverify⟩ := hmade
          · constructor
            · intro h
              cases (h _ _ herror.symm).1
            · intro hlong
              omega
          · constructor
            · intro _
              exact hlong
            · rintro - r m' h
              obtain ⟨rfl, rfl⟩ := Prod.mk.inj (h.trans hok)
              refine ⟨rfl, sigs ++ [s], s, ?_, ?_, hverify⟩
              · rw [hw, hostSignatures_replaceSignatures, hparse]
              · exact findForPolicy_append hfind hspol hspcrs

theorem simulated_hostPair {secureBoot : Bool} {signatures : Option (Json Banks)} :
    HostPair simulated (simulatedMachine secureBoot signatures).sys hostPair :=
  ⟨⟨"host.key", rfl, rfl⟩, ⟨"host.pem", _, rfl, rfl, rfl⟩⟩

/-- A host that has signed nothing yet recovers. -/
theorem recovers_fresh :
    Recovers simulated (simulatedMachine true none) LINHELLO_SIGNED_PCRS [] hostKey := by
  refine (recovers_iff simulated_hostPair rfl).2 ⟨[], rfl, ?_⟩
  change 62 ≤ hostKey.n.length
  rw [hostKey_length]
  decide

/-- A damaged signature file stops the healer before the writer that would replace it. -/
theorem not_recovers_damaged :
    let m := simulatedMachine true (some (.malformed "expected value at line 1 column 1"))
    secureBootOf m.sys.efivar = true ∧ HostPair simulated m.sys hostPair ∧
      ¬ Recovers simulated m LINHELLO_SIGNED_PCRS [] hostKey := by
  intro m
  refine ⟨rfl, simulated_hostPair, fun h => ?_⟩
  have hexec := exec_of_respond (F := False) simulatedChoices
    (ensureHostSignature simulated LINHELLO_SIGNED_PCRS []).run m
  obtain ⟨v, -, heval⟩ := eval_ensureHostSignature (c := simulatedChoices) (P := simulated) (m := m)
    [] (show pcrSelection LINHELLO_SIGNED_PCRS = .ok LINHELLO_SIGNED_PCRS from rfl)
  have hok := (h _ _ hexec).1
  rw [heval] at hok
  cases hok

end Linhello.Tpm
