import Linhello.Core.Store
import Linhello.Host.World
/-!
# What the store functions leave on disk

One lemma for each function of the core crate, about the files before and after
a call. They hold under any faults.
-/

namespace Linhello.Core

open Common Effect Host Host.World

variable {sealed : SealedEnvelope → Option Bytes} {flt : Faults} {w w' : World}

/-! ## Successful calls -/

theorem exec_load_ok {p : Path} {as : p.Data → Json SealedEnvelope} {env : SealedEnvelope}
    (h : Exec (Step sealed flt) (SealedEnvelope.load p as).run w (.ok env) w') :
    (w.file p).map as = some (.value env) ∧ w' = w := by
  obtain ⟨d, hread, hparse⟩ := exec_readJson_ok.1 h
  obtain ⟨hfile, rfl⟩ := step_read_ok hread
  rw [hfile, Option.map_some, parse_eq_ok.1 hparse]
  exact ⟨rfl, rfl⟩

theorem exec_unsealPassword_ok {user : String} {secret : Bytes}
    (h : Exec (Step sealed flt) (unsealPassword user).run w (.ok secret) w') :
    ∃ env, w.file (.user user .passwordEnvelope) = some (.value env) ∧
      sealed env = some secret ∧ w' = w := by
  unfold unsealPassword at h
  simp only [exec_exceptT_bind_ok, exec_fallible, exec_perform] at h
  obtain ⟨_, v, ⟨-, rfl⟩, env, u, hload, hunseal⟩ := h
  obtain ⟨hfile, rfl⟩ := exec_load_ok hload
  obtain ⟨hsealed, rfl⟩ := step_unseal_ok hunseal
  rw [Option.map_id_fun, id] at hfile
  exact ⟨env, hfile, hsealed, rfl⟩

theorem exec_unsealKeyringSecret_ok {secret : Bytes}
    (h : Exec (Step sealed flt) unsealKeyringSecret.run w (.ok secret) w') :
    ∃ env, w.file (.root .tpmEnvelope) = some (.value env) ∧ sealed env = some secret ∧ w' = w := by
  unfold unsealKeyringSecret at h
  simp only [exec_exceptT_bind_ok, exec_fallible, exec_perform] at h
  obtain ⟨env, u, hload, hunseal⟩ := h
  obtain ⟨hfile, rfl⟩ := exec_load_ok hload
  obtain ⟨hsealed, rfl⟩ := step_unseal_ok hunseal
  rw [Option.map_id_fun, id] at hfile
  exact ⟨env, hfile, hsealed, rfl⟩

private theorem exec_encrypt_ok {cl : CryptoLib} {key plaintext blob : Bytes}
    (h : Exec (Step sealed flt) (encrypt cl key plaintext).run w (.ok blob) w') :
    w' = w ∧ decrypt cl key blob = .ok plaintext := by
  unfold encrypt at h
  split at h
  · cases h.1
  · rename_i hkey
    simp only [exec_exceptT_bind_ok, exec_exceptT_lift_ok, exec_perform, exec_orFail] at h
    obtain ⟨nonce, v, ⟨hlen, rfl⟩, hok, rfl⟩ := h
    exact ⟨rfl, decrypt_encryptWith (not_not.1 hkey) (by simpa [allows] using hlen) hok.symm⟩

theorem exec_saveEncryptedEmbedding_ok {cl : CryptoLib} {user : String} {raw key : Bytes}
    (h : Exec (Step sealed flt) (saveEncryptedEmbedding cl user raw key).run w (.ok ()) w') :
    ∃ blob, decrypt cl key blob = .ok raw ∧ w'.file (.user user .embeddingEnc) = some blob := by
  unfold saveEncryptedEmbedding at h
  simp only [exec_exceptT_bind_ok, exec_exceptT_lift_ok, exec_perform, exec_io_ok,
    exec_exceptT_pure] at h
  obtain ⟨_, v₁, -, _, v₂, -, blob, v₃, henc, _, v₄, hwrite, _, v₅, hchmod, r, v₆, hrm, -, rfl⟩ := h
  obtain ⟨-, hdec⟩ := exec_encrypt_ok henc
  refine ⟨blob, hdec, ?_⟩
  rw [step_removeFile_of_ne hrm (by simp), step_setPermissions hchmod, step_write_ok hwrite,
    file_set_self]

/-- A loaded template is the plaintext of `embedding.enc`, also when it has just
been migrated. -/
theorem exec_loadEncryptedEmbedding_ok {pr : Process} {user : String} {raw key : Bytes}
    (h : Exec (Step sealed flt) (loadEncryptedEmbedding pr user key).run w (.ok raw) w') :
    ∃ blob, w'.file (.user user .embeddingEnc) = some blob ∧
      decrypt pr.cl key blob = .ok raw := by
  unfold loadEncryptedEmbedding at h
  obtain ⟨_, v₁, -, h⟩ := exec_exceptT_bind_ok.1 h
  obtain ⟨present, v₂, -, h⟩ := exec_exceptT_bind_ok.1 h
  split at h
  · simp only [exec_exceptT_bind_ok, exec_io_ok, exec_perform, exec_orFail] at h
    obtain ⟨blob, v₃, hread, hdec, rfl⟩ := h
    obtain ⟨hfile, rfl⟩ := step_read_ok hread
    exact ⟨blob, hfile, hdec.symm⟩
  · obtain ⟨legacy, v₃, -, h⟩ := exec_exceptT_bind_ok.1 h
    split at h
    · split at h
      · cases h.1
      · simp only [exec_exceptT_bind_ok, exec_exceptT_lift_ok, exec_io_ok, exec_perform,
          exec_exceptT_pure, Except.ok.injEq] at h
        obtain ⟨raw', v₄, -, _, v₅, hsave, r, v₆, hrm, rfl, rfl⟩ := h
        obtain ⟨blob, hdec, hfile⟩ := exec_saveEncryptedEmbedding_ok hsave
        refine ⟨blob, ?_, hdec⟩
        rw [step_removeFile_of_ne hrm (by simp), hfile]
    · cases h.1

end Linhello.Core
