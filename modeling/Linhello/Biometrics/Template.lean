import Linhello.Biometrics.Embedding
import Linhello.Host.Simulated
/-!
# Templates

A template is the samples one after another. Appending a sample to the bytes appends it to
what is parsed, and the score of a live vector is the largest over the samples, in
whatever order they stand.
-/

namespace Linhello.Biometrics

open Common (Bytes LinuxHelloError)
open Liveness (FloatLib)

/-! ## The byte format -/

theorem F32.fromLeBytes_toLeBytes (x : F32) :
    F32.fromLeBytes (UInt8.ofNat x.bits.toNat) (UInt8.ofNat (x.bits.toNat / 2 ^ 8))
      (UInt8.ofNat (x.bits.toNat / 2 ^ 16)) (UInt8.ofNat (x.bits.toNat / 2 ^ 24)) = x := by
  have hlt : x.bits.toNat < 2 ^ 32 := x.bits.toNat_lt
  have hsum : x.bits.toNat % 2 ^ 8 + x.bits.toNat / 2 ^ 8 % 2 ^ 8 * 2 ^ 8 +
      x.bits.toNat / 2 ^ 16 % 2 ^ 8 * 2 ^ 16 + x.bits.toNat / 2 ^ 24 % 2 ^ 8 * 2 ^ 24 =
      x.bits.toNat := by omega
  rw [F32.fromLeBytes, UInt8.toNat_ofNat', UInt8.toNat_ofNat', UInt8.toNat_ofNat',
    UInt8.toNat_ofNat', hsum, UInt32.ofNat_toNat]

theorem parseF32s_embeddingToBytes (v : List F32) : parseF32s (embeddingToBytes v) = v := by
  induction v with
  | nil => rfl
  | cons x v ih =>
      change F32.fromLeBytes _ _ _ _ :: parseF32s (embeddingToBytes v) = x :: v
      rw [F32.fromLeBytes_toLeBytes, ih]

theorem chunksExact_append {n k j : Nat} {bytes tail : Bytes} (h : bytes.length = k * n) :
    chunksExact n (k + j) (bytes ++ tail) = chunksExact n k bytes ++ chunksExact n j tail := by
  induction k generalizing bytes with
  | zero =>
      obtain rfl : bytes = [] := List.length_eq_zero_iff.1 (h.trans (Nat.zero_mul n))
      rw [Nat.zero_add]
      rfl
  | succ k ih =>
      have hlen : n ≤ bytes.length := by
        rw [h, Nat.succ_mul]
        exact Nat.le_add_left n (k * n)
      have hdrop : (bytes.drop n).length = k * n := by
        rw [List.length_drop, h, Nat.succ_mul, Nat.add_sub_cancel]
      have hall : ¬(bytes ++ tail).length < n := by
        rw [List.length_append]
        omega
      rw [Nat.succ_add, chunksExact, if_neg hall, chunksExact, if_neg (Nat.not_lt.2 hlen),
        List.take_append_of_le_length hlen, List.drop_append_of_le_length hlen, ih hdrop]
      rfl

theorem chunksExact_one {n : Nat} {bytes : Bytes} (h : bytes.length = n) :
    chunksExact n 1 bytes = [bytes] := by
  rw [chunksExact, if_neg (by omega), List.take_of_length_le h.le]
  rfl

/-! ## A sample that is accepted -/

def normOf (fl : FloatLib) (v : List F32) : ℚ :=
  fl.sqrt ((v.map F32.value).map fun x => x * x).sum

def unitOf (fl : FloatLib) (v : List F32) : List ℚ := (v.map F32.value).map (· / normOf fl v)

/-- What `parse_raw_embeddings` asks of a sample. -/
structure Acceptable (fl : FloatLib) (v : List F32) : Prop where
  finite : v.all F32.isFinite = true
  norm : 1 / 1000000 < normOf fl v

variable {fl : FloatLib} {bytes : Bytes} {samples samples' extra : List (List ℚ)}
  {v live : List F32}
  {threshold : ℚ}

theorem normalizeSample_eq (h : Acceptable fl v) : normalizeSample fl v = .ok (unitOf fl v) := by
  unfold normalizeSample
  rw [h.finite]
  exact if_pos h.norm

theorem normalizeSample_ok {s : List ℚ} (h : normalizeSample fl v = .ok s) :
    Acceptable fl v ∧ s = unitOf fl v := by
  unfold normalizeSample at h
  split at h
  · cases h
  · rename_i hfinite
    dsimp only at h
    split at h
    · rename_i hnorm
      rw [Bool.not_eq_true', Bool.not_eq_false] at hfinite
      exact ⟨⟨hfinite, hnorm⟩, (Except.ok.inj h).symm⟩
    · cases h

/-- The samples a template holds, before they are scaled. -/
def storedSamples (bytes : Bytes) : List (List F32) :=
  (chunksExact STRIDE_BYTES (bytes.length / STRIDE_BYTES) bytes).map parseF32s

private theorem mapM_normalizeSample {vs : List (List F32)} :
    vs.mapM (normalizeSample fl) = .ok samples ↔
      (∀ v ∈ vs, Acceptable fl v) ∧ samples = vs.map (unitOf fl) := by
  induction vs generalizing samples with
  | nil => exact ⟨fun h => ⟨nofun, (Except.ok.inj h).symm⟩, fun h => congrArg Except.ok h.2.symm⟩
  | cons v vs ih =>
      rw [List.mapM_cons]
      constructor
      · intro h
        obtain ⟨s, hs, hrest⟩ := Common.bind_eq_ok.1 h
        obtain ⟨ss, hss, hsamples⟩ := Common.bind_eq_ok.1 hrest
        obtain ⟨hv, rfl⟩ := normalizeSample_ok hs
        obtain ⟨hvs, rfl⟩ := ih.1 hss
        exact ⟨List.forall_mem_cons.2 ⟨hv, hvs⟩, (Except.ok.inj hsamples).symm⟩
      · intro h
        obtain ⟨hall, rfl⟩ := h
        obtain ⟨hv, hvs⟩ := List.forall_mem_cons.1 hall
        rw [normalizeSample_eq hv, ih.2 ⟨hvs, rfl⟩]
        rfl

theorem parseRawEmbeddings_ok_iff : parseRawEmbeddings fl bytes = .ok samples ↔
    (bytes ≠ [] ∧ bytes.length % STRIDE_BYTES = 0) ∧
      (∀ v ∈ storedSamples bytes, Acceptable fl v) ∧
      samples = (storedSamples bytes).map (unitOf fl) := by
  unfold parseRawEmbeddings
  by_cases hsize : bytes.length = 0 ∨ bytes.length % STRIDE_BYTES ≠ 0
  · rw [if_pos hsize]
    constructor
    · intro h
      cases h
    · intro h
      obtain ⟨⟨hne, hmod⟩, -⟩ := h
      rcases hsize with hzero | hpartial
      · exact absurd (List.length_eq_zero_iff.1 hzero) hne
      · exact absurd hmod hpartial
  · rw [if_neg hsize, ← storedSamples, mapM_normalizeSample]
    obtain ⟨hne, hmod⟩ := not_or.1 hsize
    have hbytes : bytes ≠ [] ∧ bytes.length % STRIDE_BYTES = 0 :=
      ⟨fun hnil => hne (List.length_eq_zero_iff.2 hnil), not_not.1 hmod⟩
    exact ⟨fun h => ⟨hbytes, h⟩, fun h => h.2⟩

private theorem length_chunksExact {n k : Nat} {bytes : Bytes} (h : bytes.length = k * n) :
    (chunksExact n k bytes).length = k := by
  induction k generalizing bytes with
  | zero => rfl
  | succ k ih =>
      rw [Nat.succ_mul] at h
      have hdrop : (bytes.drop n).length = k * n := by rw [List.length_drop, h, Nat.add_sub_cancel]
      rw [chunksExact, if_neg (by omega), List.length_cons, ih hdrop]

theorem length_storedSamples (h : bytes.length % STRIDE_BYTES = 0) :
    (storedSamples bytes).length = bytes.length / STRIDE_BYTES := by
  have hlen := (Nat.div_mul_cancel (Nat.dvd_of_mod_eq_zero h)).symm
  rw [storedSamples, List.length_map, length_chunksExact hlen]

theorem storedSamples_append (hbytes : bytes.length % STRIDE_BYTES = 0)
    (hlen : v.length = EMBEDDING_DIM) :
    storedSamples (bytes ++ embeddingToBytes v) = storedSamples bytes ++ [v] := by
  have hnew : (embeddingToBytes v).length = STRIDE_BYTES := by
    rw [length_embeddingToBytes, hlen, STRIDE_BYTES]
  have hpos : 0 < STRIDE_BYTES := by decide
  have hold : bytes.length = bytes.length / STRIDE_BYTES * STRIDE_BYTES :=
    (Nat.div_mul_cancel (Nat.dvd_of_mod_eq_zero hbytes)).symm
  have hcount : (bytes ++ embeddingToBytes v).length / STRIDE_BYTES =
      bytes.length / STRIDE_BYTES + 1 := by
    rw [List.length_append, hnew, Nat.add_div_right _ hpos]
  rw [storedSamples, hcount, chunksExact_append hold, chunksExact_one hnew, List.map_append,
    List.map_singleton, parseF32s_embeddingToBytes]
  rfl

/-- A sample behind a template that is accepted is the last of what is parsed. -/
theorem parseRawEmbeddings_append (h : parseRawEmbeddings fl bytes = .ok samples)
    (hlen : v.length = EMBEDDING_DIM) (hv : Acceptable fl v) :
    parseRawEmbeddings fl (bytes ++ embeddingToBytes v) = .ok (samples ++ [unitOf fl v]) := by
  obtain ⟨⟨hne, hmod⟩, hall, rfl⟩ := parseRawEmbeddings_ok_iff.1 h
  have hstored := storedSamples_append hmod hlen
  apply parseRawEmbeddings_ok_iff.2
  rw [hstored, List.map_append, List.map_singleton, List.length_append, length_embeddingToBytes,
    hlen]
  have hsize : (bytes.length + EMBEDDING_DIM * 4) % STRIDE_BYTES = 0 := by
    rw [← STRIDE_BYTES, Nat.add_mod_right, hmod]
  refine ⟨⟨fun hnil => hne (List.append_eq_nil_iff.1 hnil).1, hsize⟩, ?_, rfl⟩
  intro w hw
  cases List.mem_append.1 hw with
  | inl hold => exact hall w hold
  | inr hnew => rwa [List.mem_singleton.1 hnew]

theorem ne_nil_of_parse (h : parseRawEmbeddings fl bytes = .ok samples) : samples ≠ [] := by
  obtain ⟨⟨hne, hmod⟩, -, rfl⟩ := parseRawEmbeddings_ok_iff.1 h
  have hpos : 0 < STRIDE_BYTES := by decide
  have hlong : STRIDE_BYTES ≤ bytes.length :=
    Nat.le_of_dvd (List.length_pos_of_ne_nil hne) (Nat.dvd_of_mod_eq_zero hmod)
  obtain ⟨k, hk⟩ := Nat.exists_eq_succ_of_ne_zero (Nat.div_pos hlong hpos).ne'
  rw [storedSamples, hk, chunksExact, if_neg (Nat.not_lt.2 hlong)]
  exact List.cons_ne_nil _ _

/-! ## The score -/

/-- The best score is that of a sample, and no sample does better. -/
theorem exists_best (threshold : ℚ) (live : List F32) (h : samples ≠ []) :
    ∃ s ∈ samples, (matchAgainst threshold live samples).score = cosine (live.map F32.value) s ∧
      ∀ s' ∈ samples, cosine (live.map F32.value) s' ≤ cosine (live.map F32.value) s := by
  have hne : (samples.map fun s => (cosine (live.map F32.value) s : WithBot ℚ)) ≠ [] := by
    rwa [Ne, List.map_eq_nil_iff]
  obtain ⟨best, hbest⟩ := Option.isSome_iff_exists.1 (List.isSome_max?_of_ne_nil hne)
  have hscore : (matchAgainst threshold live samples).score = best := by
    unfold matchAgainst
    dsimp only
    rw [List.foldl_max, hbest, Option.getD_some, max_eq_right bot_le]
  obtain ⟨hmem, hmax⟩ := List.max?_eq_some_iff.1 hbest
  obtain ⟨s, hs, rfl⟩ := List.mem_map.1 hmem
  refine ⟨s, hs, hscore, ?_⟩
  intro s' hs'
  exact WithBot.coe_le_coe.1 (hmax _ (List.mem_map_of_mem hs'))

theorem score_perm (threshold : ℚ) (live : List F32) (h : samples.Perm samples') :
    (matchAgainst threshold live samples').score = (matchAgainst threshold live samples).score := by
  unfold matchAgainst
  exact (h.symm.map fun s => (cosine (live.map F32.value) s : WithBot ℚ)).foldl_eq ⊥

theorem score_append (threshold : ℚ) (live : List F32) (samples extra : List (List ℚ)) :
    (matchAgainst threshold live samples).score ≤
      (matchAgainst threshold live (samples ++ extra)).score := by
  unfold matchAgainst
  dsimp only
  rw [List.map_append, List.foldl_append]
  rw [List.foldl_max (l := extra.map _)]
  apply le_max_left

theorem matched_iff : (matchAgainst threshold live samples).matched = true ↔
    (threshold : WithBot ℚ) ≤ (matchAgainst threshold live samples).score := decide_eq_true_iff

private theorem cosine_mem (a b : List ℚ) : -1 ≤ cosine a b ∧ cosine a b ≤ 1 := by
  unfold cosine
  split
  · norm_num
  · exact ⟨Liveness.le_clamp, Liveness.clamp_le (by norm_num)⟩

/-- A sample appended to a template that is accepted is parsed behind the others. For every
live vector more samples keep a match, their order does not matter, and the score is the
largest over them, between -1 and 1. -/
theorem template_append_keeps_match (hparse : parseRawEmbeddings fl bytes = .ok samples)
    (hlen : v.length = EMBEDDING_DIM) (hfinite : v.all F32.isFinite = true)
    (hnorm : 1 / 1000000 < normOf fl v) :
    parseRawEmbeddings fl (bytes ++ embeddingToBytes v) = .ok (samples ++ [unitOf fl v]) ∧
    ∀ (threshold : ℚ) (live : List F32),
      (∀ extra, (matchAgainst threshold live samples).matched = true →
        (matchAgainst threshold live (samples ++ extra)).matched = true) ∧
      (∀ samples', samples.Perm samples' →
        (matchAgainst threshold live samples').score =
          (matchAgainst threshold live samples).score) ∧
      (∃ s ∈ samples, (matchAgainst threshold live samples).score = cosine (live.map F32.value) s ∧
        ∀ s' ∈ samples, cosine (live.map F32.value) s' ≤ cosine (live.map F32.value) s) ∧
      ∃ score : ℚ, (matchAgainst threshold live samples).score = score ∧ -1 ≤ score ∧
        score ≤ 1 := by
  refine ⟨parseRawEmbeddings_append hparse hlen ⟨hfinite, hnorm⟩, ?_⟩
  intro threshold live
  have hbest := exists_best threshold live (ne_nil_of_parse hparse)
  refine ⟨?_, fun samples' hperm => score_perm threshold live hperm, hbest, ?_⟩
  · intro extra hmatched
    exact matched_iff.2 ((matched_iff.1 hmatched).trans (score_append threshold live samples extra))
  · obtain ⟨s, -, hscore, -⟩ := hbest
    exact ⟨_, hscore, cosine_mem _ _⟩

theorem template_append_keeps_match_unit :
    parseRawEmbeddings Host.simulatedFloats (embeddingToBytes (Host.unitVector 0)) =
      .ok [(Host.unitVector 0).map F32.value] ∧
    parseRawEmbeddings Host.simulatedFloats (embeddingToBytes (Host.unitVector 0) ++
      embeddingToBytes (Host.unitVector 0)) = .ok ([(Host.unitVector 0).map F32.value] ++
        [unitOf Host.simulatedFloats (Host.unitVector 0)]) := by
  have hparse : parseRawEmbeddings Host.simulatedFloats (embeddingToBytes (Host.unitVector 0)) =
      .ok [(Host.unitVector 0).map F32.value] := by decide +kernel
  exact ⟨hparse, (template_append_keeps_match hparse (by decide +kernel) (by decide +kernel)
    (by decide +kernel)).1⟩

end Linhello.Biometrics
