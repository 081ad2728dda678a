import Linhello.Tpm.FileSteps
import Linhello.Tpm.Recovery
import Linhello.Tpm.Simulated
/-!
# Signatures read back

What `host_signatures` lists once `persist_host_signature` has succeeded. Entries are told
apart by their hex text, so one digest may stand there twice, in either case of its digits.
-/

namespace Linhello.Tpm

open Common Effect Host

variable {P : Platform} {m m' m'' : Machine} {bank b : String} {pcrs : List Nat}
  {digest sig : Bytes} {banks : Banks} {entry : RawEntry} {sigs : List PcrSignature}

/-! ## The list of a bank -/

/-- The bank has an entry with the hex text and the registers of this one. -/
def Has (banks : Banks) (bank : String) (entry : RawEntry) : Prop :=
  (((banks.lookup bank).getD []).any fun e => e.pol = entry.pol ∧ e.pcrs = entry.pcrs) = true

theorem lookup_addEntry_of_has (h : Has banks bank entry) :
    (addEntry banks bank entry).lookup bank = some ((banks.lookup bank).getD []) := by
  unfold Has at h
  unfold addEntry
  dsimp only
  rw [if_pos h, AList.lookup_insert]

theorem lookup_addEntry_of_not (h : ¬Has banks bank entry) :
    (addEntry banks bank entry).lookup bank = some ((banks.lookup bank).getD [] ++ [entry]) := by
  unfold Has at h
  unfold addEntry
  dsimp only
  rw [if_neg h, AList.lookup_insert]

theorem lookup_addEntry_of_ne (h : b ≠ bank) :
    (addEntry banks bank entry).lookup b = banks.lookup b := by
  unfold addEntry
  dsimp only
  split
  · rw [AList.lookup_insert_ne h]
  · rw [AList.lookup_insert_ne h]

theorem parseSignatures_eq : parseSignatures P banks bank =
    parseEntries P ((banks.lookup bank).getD []) := by
  unfold parseSignatures
  cases banks.lookup bank with
  | none => rfl
  | some entries => rfl

theorem parseSignatures_addEntry_of_ne (h : b ≠ bank) :
    parseSignatures P (addEntry banks bank entry) b = parseSignatures P banks b := by
  rw [parseSignatures_eq, parseSignatures_eq, lookup_addEntry_of_ne h]

theorem parseSignatures_addEntry_of_has (h : Has banks bank entry) :
    parseSignatures P (addEntry banks bank entry) bank = parseSignatures P banks bank := by
  rw [parseSignatures_eq, parseSignatures_eq, lookup_addEntry_of_has h, Option.getD_some]

theorem has_addEntry : Has (addEntry banks bank entry) bank entry := by
  by_cases hhas : Has banks bank entry
  · rw [Has, lookup_addEntry_of_has hhas]
    exact hhas
  · rw [Has, lookup_addEntry_of_not hhas, Option.getD_some, List.any_append, List.any_cons,
      decide_eq_true ⟨rfl, rfl⟩, Bool.true_or, Bool.or_true]

theorem has_congr {entry' : RawEntry} (hpol : entry'.pol = entry.pol)
    (hpcrs : entry'.pcrs = entry.pcrs)
    (h : Has banks bank entry) : Has banks bank entry' := by
  unfold Has at h ⊢
  rwa [hpol, hpcrs]

def signatureOf (pkfp : String) (pcrs : List Nat) (digest sig : Bytes) : PcrSignature :=
  { pcrs := pcrs, pkfp := pkfp, pol := digest, sig := sig }

def writtenEntry (P : Platform) (pkfp : String) (pcrs : List Nat) (digest sig : Bytes) : RawEntry :=
  { pcrs := pcrs, pkfp := pkfp, pol := hexLower digest, sig := P.encode sig }

theorem parseSignatures_addEntry_fresh {pkfp : String}
    (hparse : parseSignatures P banks bank = .ok sigs)
    (h : ¬Has banks bank (writtenEntry P pkfp pcrs digest sig)) :
    parseSignatures P (addEntry banks bank (writtenEntry P pkfp pcrs digest sig)) bank =
      .ok (sigs ++ [signatureOf pkfp pcrs digest sig]) := by
  rw [parseSignatures_eq] at hparse ⊢
  rw [lookup_addEntry_of_not h, Option.getD_some]
  exact parseEntries_append hparse parseEntry_written

/-- A bank with an entry for the digest has a signature for it. -/
theorem findForPolicy_of_has {pkfp : String} (hparse : parseSignatures P banks bank = .ok sigs)
    (h : Has banks bank (writtenEntry P pkfp pcrs digest sig)) :
    (findForPolicy sigs pcrs digest).isSome = true := by
  obtain ⟨e, he, hmatch⟩ := List.any_eq_true.1 h
  obtain ⟨hpol, hpcrs⟩ := of_decide_eq_true hmatch
  rw [parseSignatures_eq] at hparse
  obtain ⟨s, hs, hsparse⟩ := exists_parsed hparse he
  obtain ⟨hspol, -, hspcrs⟩ := parseEntry_ok hsparse
  have hdigest : s.pol = digest := by
    rw [hpol, writtenEntry, fromHex_hexLower] at hspol
    exact (Except.ok.inj hspol).symm
  rw [findForPolicy, List.find?_isSome]
  exact ⟨s, hs, decide_eq_true ⟨hdigest, hspcrs.trans hpcrs⟩⟩

/-! ## A call that succeeded -/

/-- Anything may fail, except that reading the signature file gives what it holds. -/
def reading (P : Platform) : Semantics tpm Machine :=
  fun m o r m' => Step P True m o r m' ∧ (o = .readFile .signatures → Step P False m o r m')

theorem reading_of_step {o : Op} {r : o.Ans} (h : Step P False m o r m') : reading P m o r m' := by
  refine ⟨?_, fun _ => h⟩
  rcases h with h | ⟨hfalse, -⟩
  · exact .inl h
  · exact hfalse.elim

private theorem existing_of_step {read : Except IoError (Json Banks)} :
    Step P False m (.readFile .signatures) read m' →
    (match read with
      | .ok (.value banks) => banks
      | _ => ∅ : Banks) = m.sys.existingBanks := by
  intro h
  obtain ⟨-, hread⟩ := step_readFile h
  unfold System.existingBanks
  cases hfile : m.sys.file .signatures with
  | none =>
      rw [hfile] at hread
      rw [hread]
  | some json =>
      rw [hfile] at hread
      rw [hread]
      cases json <;> rfl

/-- A call that succeeded has put the entry into the file as it was. -/
theorem file_of_persisted
    (h : Exec (reading P) (persistHostSignature P bank pcrs digest sig).run m (.ok ()) m') :
    ∃ pkfp, m'.sys.file .signatures =
      some (.value (addEntry m.sys.existingBanks bank (writtenEntry P pkfp pcrs digest sig))) := by
  unfold persistHostSignature at h
  obtain ⟨read, v₀, hread, h₀⟩ := exec_exceptT_bind_ok.1 h
  rw [exec_exceptT_lift_ok, exec_perform] at hread
  have hbanks := existing_of_step (hread.2 rfl)
  obtain ⟨rfl, -⟩ := step_readFile (hread.2 rfl)
  obtain ⟨pem, v₁, -, h₁⟩ := exec_exceptT_bind_ok.1 h₀
  obtain ⟨pkfp, v₂, -, h₂⟩ := exec_exceptT_bind_ok.1 h₁
  obtain ⟨_, v₃, -, h₃⟩ := exec_exceptT_bind_ok.1 h₂
  obtain ⟨_, v₄, hwrite, h₄⟩ := exec_exceptT_bind_ok.1 h₃
  obtain ⟨_, v₅, hchmod, h₅⟩ := exec_exceptT_bind_ok.1 h₄
  rw [exec_attempt_ok, exec_perform] at hwrite hchmod h₅
  have htmp := step_file (a := .signaturesTmp) hchmod.1 rfl
  rw [step_writeFile_ok hwrite.1] at htmp
  obtain ⟨d, hd, rfl⟩ := step_renameSignatures_ok h₅.1
  refine ⟨pkfp, ?_⟩
  have hvalue := Option.some.inj (setFile_file_self.symm.trans (htmp.symm.trans hd))
  have hfinal :
      ((v₅.setFile .signatures (some d)).setFile .signaturesTmp none).sys.file .signatures =
      some d := (setFile_file_of_ne (by decide)).trans setFile_file_self
  rw [hfinal, ← hvalue, ← hbanks]
  rfl

theorem existingBanks_of_file (h : m.sys.file .signatures = some (.value banks)) :
    m.sys.existingBanks = banks := by
  rw [System.existingBanks, h]

theorem hostSignatures_of_file (h : m.sys.file .signatures = some (.value banks)) :
    m.sys.hostSignatures P b = parseSignatures P banks b := by
  rw [System.hostSignatures, h]
  rfl

/-- Persisting what is there already leaves every list as it is. -/
theorem hostSignatures_of_persisted_again {pkfp : String}
    (hfile : m.sys.file .signatures = some (.value banks))
    (hhas : Has banks bank (writtenEntry P pkfp pcrs digest sig))
    (h : Exec (reading P) (persistHostSignature P bank pcrs digest sig).run m (.ok ()) m')
    (b : String) :
    m'.sys.hostSignatures P b = m.sys.hostSignatures P b := by
  obtain ⟨pkfp', hfile'⟩ := file_of_persisted h
  rw [existingBanks_of_file hfile] at hfile'
  rw [hostSignatures_of_file hfile', hostSignatures_of_file hfile]
  by_cases hb : b = bank
  · subst hb
    exact parseSignatures_addEntry_of_has (has_congr rfl rfl hhas)
  · exact parseSignatures_addEntry_of_ne hb

/-- `host_signatures` lists these signatures. -/
def Lists (P : Platform) (m : Machine) (bank : String) (sigs : List PcrSignature) : Prop :=
  ∀ r v, Exec (Step P False) (hostSignatures P bank).run m r v ↔ r = .ok sigs ∧ v = m

theorem lists_of_hostSignatures (h : m.sys.hostSignatures P bank = .ok sigs) :
    Lists P m bank sigs := by
  intro r v
  rw [exec_hostSignatures, h]

/-- After a call that succeeded every bank lists what it listed before, in order; the bank of
the call at most one signature more, at its end, with the given registers, digest and
signature bytes; a signature for the digest is found; and the same call again changes no list. -/
theorem persist_host_signature_read_back {sigs : String → List PcrSignature}
    (hparses : ∀ b, m.sys.hostSignatures P b = .ok (sigs b))
    (h : Exec (reading P) (persistHostSignature P bank pcrs digest sig).run m (.ok ()) m') :
    ∃ added, added.length ≤ 1 ∧ (∀ s ∈ added, s.pcrs = pcrs ∧ s.pol = digest ∧ s.sig = sig) ∧
      (∀ b, Lists P m' b (if b = bank then sigs b ++ added else sigs b)) ∧
      (findForPolicy (sigs bank ++ added) pcrs digest).isSome = true ∧
      ∀ m'', Exec (reading P) (persistHostSignature P bank pcrs digest sig).run m' (.ok ()) m'' →
        ∀ b, Lists P m'' b (if b = bank then sigs b ++ added else sigs b) := by
  obtain ⟨pkfp, hfile⟩ := file_of_persisted h
  have hexisting : ∀ b, parseSignatures P m.sys.existingBanks b = .ok (sigs b) :=
    fun b => parseSignatures_existing (hparses b)
  obtain ⟨added, hlen, hfields, hself⟩ : ∃ added : List PcrSignature, added.length ≤ 1 ∧
      (∀ s ∈ added, s.pcrs = pcrs ∧ s.pol = digest ∧ s.sig = sig) ∧
      parseSignatures P
        (addEntry m.sys.existingBanks bank (writtenEntry P pkfp pcrs digest sig)) bank =
        .ok (sigs bank ++ added) := by
    by_cases hhas : Has m.sys.existingBanks bank (writtenEntry P pkfp pcrs digest sig)
    · refine ⟨[], Nat.zero_le 1, nofun, ?_⟩
      rw [parseSignatures_addEntry_of_has hhas, hexisting bank, List.append_nil]
    · refine ⟨[signatureOf pkfp pcrs digest sig], Nat.le_refl 1, ?_, ?_⟩
      · intro s hs
        rw [List.mem_singleton.1 hs]
        exact ⟨rfl, rfl, rfl⟩
      · exact parseSignatures_addEntry_fresh (hexisting bank) hhas
  have hlisted :
      ∀ b, m'.sys.hostSignatures P b = .ok (if b = bank then sigs b ++ added else sigs b) := by
    intro b
    rw [hostSignatures_of_file hfile]
    by_cases hb : b = bank
    · rw [if_pos hb, hb, hself]
    · rw [if_neg hb, parseSignatures_addEntry_of_ne hb, hexisting b]
  refine ⟨added, hlen, hfields, fun b => lists_of_hostSignatures (hlisted b), ?_, ?_⟩
  · exact findForPolicy_of_has hself has_addEntry
  · intro m'' hagain b
    apply lists_of_hostSignatures
    rw [hostSignatures_of_persisted_again hfile has_addEntry hagain b, hlisted b]

/-- A file with one bank and a digest in upper case. -/
def upperCaseFile : Banks :=
  (∅ : Banks).insert "sha256" [{ pcrs := [7], pkfp := "7682", pol := "DEADBEEF", sig := "00" }]

def upperCaseSignature : PcrSignature :=
  { pcrs := [7], pkfp := "7682", pol := [0xDE, 0xAD, 0xBE, 0xEF], sig := [0] }

private theorem parseEntries_upperCase : parseEntries simulated
    [{ pcrs := [7], pkfp := "7682", pol := "DEADBEEF", sig := "00" }] =
      .ok [upperCaseSignature] := by
  have hpol : fromHex "DEADBEEF" = .ok [0xDE, 0xAD, 0xBE, 0xEF] := by decide +kernel
  have hsig : simulated.decode "00" = .ok [0] := by rfl
  rw [parseEntries, parseEntry, hpol, hsig]
  rfl

/-- The digest is added once more, in lower case, behind the one in upper case. -/
theorem persist_read_back_upper_case :
    let m := simulatedMachine true (some (.value upperCaseFile))
    ∃ m' added, Exec (reading simulated)
        (persistHostSignature simulated "sha256" [7] [0xDE, 0xAD, 0xBE, 0xEF]
          [1]).run m (.ok ()) m' ∧
      added.length ≤ 1 ∧ Lists simulated m' "sha256" ([upperCaseSignature] ++ added) := by
  intro m
  have hfile : m.sys.file .signatures = some (.value upperCaseFile) := rfl
  have hpub : m.sys.file .signingPub = some (some "host.pem") := rfl
  have hparses : ∀ b, m.sys.hostSignatures simulated b =
      .ok (if b = "sha256" then [upperCaseSignature] else []) := by
    intro b
    rw [hostSignatures_of_file hfile, parseSignatures_eq]
    by_cases hb : b = "sha256"
    · rw [if_pos hb, hb, upperCaseFile, AList.lookup_insert]
      exact parseEntries_upperCase
    · rw [if_neg hb, upperCaseFile, AList.lookup_insert_ne hb]
      rfl
  obtain ⟨v, heval, -⟩ :=
    eval_persistHostSignature (c := simulatedChoices) (P := simulated) (m := m)
    "sha256" [7] [0xDE, 0xAD, 0xBE, 0xEF] [1] hpub rfl
  have hrun := exec_of_respond (F := False) simulatedChoices
    (persistHostSignature simulated "sha256" [7] [0xDE, 0xAD, 0xBE, 0xEF] [1]).run m
  rw [heval] at hrun
  have hexec := exec_mono (fun _ _ _ _ => reading_of_step) hrun
  obtain ⟨added, hlen, -, hlists, -, -⟩ := persist_host_signature_read_back hparses hexec
  exact ⟨v, added, hexec, hlen, hlists "sha256"⟩

end Linhello.Tpm
