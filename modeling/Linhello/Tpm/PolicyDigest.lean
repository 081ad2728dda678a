import Linhello.Common.Error
import Mathlib.Data.List.Infix
import Mathlib.Data.Nat.Bits
/-!
# Policy digests

The digests of TPM2 enhanced authorization over an ideal hash: `PolicyPCR` folds
the selected registers into a session, `PolicyAuthorize` replaces the digest by
one that depends on a key and a reference only. Digests made in different ways are
different, and a digest determines what went into it.
-/

namespace Linhello.Tpm

open Common

def zeroDigest : Bytes := List.replicate 32 0

/-- A hash whose digests have one length and no collisions: a digest in front of
other bytes can be told from everything else. -/
structure IdealHash where
  hash : Bytes → Bytes
  cancel : ∀ a b x y, hash a ++ x = hash b ++ y → a = b ∧ x = y
  zero_ne : ∀ a x y, zeroDigest ++ x ≠ hash a ++ y

theorem IdealHash.injective (H : IdealHash) {a b : Bytes} (h : H.hash a = H.hash b) : a = b :=
  (H.cancel a b [] [] (by rw [h])).1

theorem IdealHash.ne_zero (H : IdealHash) (a : Bytes) : H.hash a ≠ zeroDigest := by
  intro h
  exact H.zero_ne a [] [] (by rw [h])

/-! ## Registers -/

/-- The registers of a selection, in the order a TPM reads them. -/
def selected (pcrs : List Nat) : List Nat := (List.range 24).filter fun i => i ∈ pcrs

theorem mem_selected {pcrs : List Nat} {i : Nat} : i ∈ selected pcrs ↔ i < 24 ∧ i ∈ pcrs := by
  simp [selected]

def bitmap (pcrs : List Nat) : Nat := Nat.ofBits fun i : Fin 24 => decide (i.val ∈ pcrs)

/-- `TPML_PCR_SELECTION` with one bank, SHA-256. -/
def selectionBytes (pcrs : List Nat) : Bytes :=
  let n := bitmap pcrs
  [0, 0, 0, 1, 0, 0x0B, 3, UInt8.ofNat n, UInt8.ofNat (n / 256), UInt8.ofNat (n / 65536)]

private theorem bitmap_inj {pcrs pcrs' : List Nat} (h : bitmap pcrs = bitmap pcrs') :
    selected pcrs = selected pcrs' := by
  apply List.filter_congr
  intro i hi
  have hlt : i < 24 := List.mem_range.1 hi
  have hbit := congrArg (fun n => n.testBit i) h
  simp only [bitmap, Nat.testBit_ofBits_lt _ _ hlt] at hbit
  exact hbit

theorem selectionBytes_inj {pcrs pcrs' : List Nat}
    (h : selectionBytes pcrs = selectionBytes pcrs') :
    selected pcrs = selected pcrs' := by
  have hlt : ∀ l, bitmap l < 2 ^ 24 := fun l => Nat.ofBits_lt_two_pow _
  have hn := hlt pcrs
  have hn' := hlt pcrs'
  simp only [selectionBytes, List.cons.injEq, and_true, true_and, ← UInt8.toNat_inj,
    UInt8.toNat_ofNat'] at h
  apply bitmap_inj
  omega

variable (H : IdealHash)

def pcrDigest (pcr : Nat → Bytes) (pcrs : List Nat) : Bytes :=
  H.hash ((selected pcrs).flatMap pcr)

theorem flatMap_inj {l : List Nat} {f g : Nat → Bytes} (hf : ∀ i, (f i).length = 32)
    (hg : ∀ i, (g i).length = 32) (h : l.flatMap f = l.flatMap g) : ∀ i ∈ l, f i = g i := by
  induction l with
  | nil => simp
  | cons a l ih =>
      rw [List.flatMap_cons, List.flatMap_cons] at h
      obtain ⟨ha, hl⟩ := List.append_inj h (by rw [hf, hg])
      exact List.forall_mem_cons.2 ⟨ha, ih hl⟩

/-! ## Policies -/

def TPM_CC_POLICY_PCR : Bytes := [0x00, 0x00, 0x01, 0x7F]

def TPM_CC_POLICY_AUTHORIZE : Bytes := [0x00, 0x00, 0x01, 0x6A]

/-- `TPM2_PolicyPCR` on a session digest. -/
def extendPcr (session : Bytes) (pcr : Nat → Bytes) (pcrs : List Nat) : Bytes :=
  H.hash (session ++ TPM_CC_POLICY_PCR ++ selectionBytes pcrs ++ pcrDigest H pcr pcrs)

/-- `TPM2_PolicyAuthorize`: the digest starts again from zero. -/
def authorizeDigest (keyName policyRef : Bytes) : Bytes :=
  H.hash (H.hash (zeroDigest ++ TPM_CC_POLICY_AUTHORIZE ++ keyName) ++ policyRef)

/-- The digest of a fresh session after `PolicyPCR`. -/
def pcrPolicy (pcr : Nat → Bytes) (pcrs : List Nat) : Bytes := extendPcr H zeroDigest pcr pcrs

variable {H}

theorem pcrPolicy_inj {pcr pcr' : Nat → Bytes} {pcrs pcrs' : List Nat}
    (hlen : ∀ i, (pcr i).length = 32) (hlen' : ∀ i, (pcr' i).length = 32)
    (h : pcrPolicy H pcr pcrs = pcrPolicy H pcr' pcrs') :
    selected pcrs = selected pcrs' ∧ ∀ i ∈ selected pcrs, pcr i = pcr' i := by
  have hbytes := H.injective h
  simp only [List.append_assoc, List.append_cancel_left_eq] at hbytes
  obtain ⟨hsel, hdigest⟩ := List.append_inj hbytes rfl
  have hselected := selectionBytes_inj hsel
  refine ⟨hselected, flatMap_inj hlen hlen' ?_⟩
  have hvalues := H.injective hdigest
  rwa [← hselected] at hvalues

theorem authorizeDigest_inj {name name' ref ref' : Bytes}
    (h : authorizeDigest H name ref = authorizeDigest H name' ref') :
    name = name' ∧ ref = ref' := by
  obtain ⟨hname, href⟩ := H.cancel _ _ _ _ (H.injective h)
  rw [List.append_cancel_left_eq] at hname
  exact ⟨hname, href⟩

theorem pcrPolicy_ne_authorizeDigest {pcr : Nat → Bytes} {pcrs : List Nat} {name ref : Bytes} :
    pcrPolicy H pcr pcrs ≠ authorizeDigest H name ref := by
  intro h
  have hbytes := H.injective h
  rw [List.append_assoc, List.append_assoc] at hbytes
  exact H.zero_ne _ _ _ hbytes

theorem pcrPolicy_ne_zero {pcr : Nat → Bytes} {pcrs : List Nat} :
    pcrPolicy H pcr pcrs ≠ zeroDigest :=
  H.ne_zero _

theorem authorizeDigest_ne_zero {name ref : Bytes} : authorizeDigest H name ref ≠ zeroDigest :=
  H.ne_zero _

/-- What a `PolicyAuthorize` signature covers. -/
def authorizationHash (H : IdealHash) (approved policyRef : Bytes) : Bytes :=
  H.hash (approved ++ policyRef)

end Linhello.Tpm
