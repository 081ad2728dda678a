import Linhello.Common.Error
import Linhello.Liveness.Image
/-!
# Embeddings

The byte format of a face template (`enroll.rs`), the match score
(`matcher.rs`, `match_against`) and the post-processing of the ArcFace output
(`embed.rs`). An embedding is kept as `f32` bit patterns, since that is what is
stored; scores are computed on the values.
-/

namespace Linhello.Biometrics

open Common (Bytes LinuxHelloError)
open Liveness (FloatLib clamp)

def EMBEDDING_DIM : Nat := 512

def STRIDE_BYTES : Nat := EMBEDDING_DIM * 4

/-! ## `f32` bit patterns -/

structure F32 where
  bits : UInt32
  deriving DecidableEq

namespace F32

def exponent (x : F32) : Nat := x.bits.toNat / 2 ^ 23 % 2 ^ 8

def mantissa (x : F32) : Nat := x.bits.toNat % 2 ^ 23

def negative (x : F32) : Bool := 2 ^ 31 ≤ x.bits.toNat

def isFinite (x : F32) : Bool := x.exponent ≠ 255

def value (x : F32) : ℚ :=
  let magnitude : ℚ :=
    if x.exponent = 0 then mkRat x.mantissa (2 ^ 149)
    else if x.exponent < 150 then mkRat (2 ^ 23 + x.mantissa) (2 ^ (150 - x.exponent))
    else ((2 ^ 23 + x.mantissa) * 2 ^ (x.exponent - 150) : Nat)
  if x.negative then -magnitude else magnitude

def toLeBytes (x : F32) : Bytes :=
  let n := x.bits.toNat
  [UInt8.ofNat n, UInt8.ofNat (n / 2 ^ 8), UInt8.ofNat (n / 2 ^ 16), UInt8.ofNat (n / 2 ^ 24)]

def fromLeBytes (a b c d : UInt8) : F32 :=
  ⟨UInt32.ofNat (a.toNat + b.toNat * 2 ^ 8 + c.toNat * 2 ^ 16 + d.toNat * 2 ^ 24)⟩

@[simp] theorem length_toLeBytes (x : F32) : x.toLeBytes.length = 4 := rfl

end F32

/-- `embedding_to_bytes`. -/
def embeddingToBytes (vec : List F32) : Bytes := vec.flatMap F32.toLeBytes

theorem length_embeddingToBytes (vec : List F32) :
    (embeddingToBytes vec).length = vec.length * 4 := by
  induction vec with
  | nil => rfl
  | cons x xs ih =>
      rw [embeddingToBytes] at ih ⊢
      rw [List.flatMap_cons, List.length_append, ih, F32.length_toLeBytes, List.length_cons]
      omega

/-- What `Embedder::embed` accepts after normalizing: a finite vector of the
right length that is not all zero. -/
def checkEmbedding (v : List F32) : Except LinuxHelloError (List F32) :=
  if v.length ≠ EMBEDDING_DIM then
    .error (.biometrics ("unexpected embedding dim " ++ toString v.length ++ " (want " ++
      toString EMBEDDING_DIM ++ ")"))
  else if v.all F32.isFinite && v.any (fun x => x.value ≠ 0) then .ok v
  else .error (.biometrics "degenerate embedding (zero norm or non-finite)")

theorem length_of_checkEmbedding {v e : List F32} (h : checkEmbedding v = .ok e) :
    e.length = EMBEDDING_DIM := by
  simp only [checkEmbedding] at h
  split at h
  · cases h
  · rename_i hlen
    split at h
    · rw [← Except.ok.inj h]
      exact not_not.1 hlen
    · cases h

/-! ## Stored samples -/

/-- `chunks_exact(4)` with `f32::from_le_bytes` on each chunk. -/
def parseF32s : Bytes → List F32
  | a :: b :: c :: d :: rest => .fromLeBytes a b c d :: parseF32s rest
  | _ => []

/-- `chunks_exact`; the first argument bounds the number of chunks. -/
def chunksExact (n : Nat) : Nat → Bytes → List Bytes
  | 0, _ => []
  | fuel + 1, bytes =>
      if bytes.length < n then [] else bytes.take n :: chunksExact n fuel (bytes.drop n)

/-- Reject a non-finite or degenerate stored sample and scale it to unit length. -/
def normalizeSample (fl : FloatLib) (s : List F32) : Except LinuxHelloError (List ℚ) :=
  if !s.all F32.isFinite then .error (.biometrics "enrollment contains non-finite values")
  else
    let xs := s.map F32.value
    let norm := fl.sqrt (xs.map fun x => x * x).sum
    if norm > 1 / 1000000 then .ok (xs.map (· / norm))
    else .error (.biometrics "enrollment sample has a degenerate (near-zero) norm")

def parseRawEmbeddings (fl : FloatLib) (bytes : Bytes) : Except LinuxHelloError (List (List ℚ)) :=
  if bytes.length = 0 ∨ bytes.length % STRIDE_BYTES ≠ 0 then
    .error (.biometrics ("enrollment size " ++ toString bytes.length ++ " not a multiple of " ++
      toString STRIDE_BYTES ++ " (dim=" ++ toString EMBEDDING_DIM ++ ")"))
  else
    ((chunksExact STRIDE_BYTES (bytes.length / STRIDE_BYTES) bytes).map parseF32s).mapM
      (normalizeSample fl)

/-! ## Matching -/

/-- Dot product clamped to `[-1, 1]`; 0 for vectors of different or zero length. -/
def cosine (a b : List ℚ) : ℚ :=
  if a.length ≠ b.length ∨ a.length = 0 then 0
  else clamp (-1) 1 (List.zipWith (· * ·) a b).sum

structure AuthResult where
  matched : Bool
  score : WithBot ℚ
  deriving DecidableEq

/-- The best score over all samples, starting from minus infinity. -/
def matchAgainst (threshold : ℚ) (live : List F32) (samples : List (List ℚ)) : AuthResult :=
  let score := (samples.map fun s => (cosine (live.map F32.value) s : WithBot ℚ)).foldl max ⊥
  { matched := (threshold : WithBot ℚ) ≤ score, score := score }

private theorem exists_of_le_foldl_max {xs : List ℚ} {b : WithBot ℚ} {t : ℚ}
    (h : (t : WithBot ℚ) ≤ (xs.map fun (x : ℚ) => (x : WithBot ℚ)).foldl max b) :
    (t : WithBot ℚ) ≤ b ∨ ∃ x ∈ xs, t ≤ x := by
  induction xs generalizing b with
  | nil => exact .inl h
  | cons x xs ih =>
      rcases ih h with hb | ⟨y, hy, hty⟩
      · rcases le_max_iff.1 hb with hb | hx
        · exact .inl hb
        · exact .inr ⟨x, List.mem_cons_self, WithBot.coe_le_coe.1 hx⟩
      · exact .inr ⟨y, List.mem_cons_of_mem _ hy, hty⟩

theorem exists_sample_of_matched {threshold : ℚ} {live : List F32} {samples : List (List ℚ)}
    (h : (matchAgainst threshold live samples).matched = true) :
    ∃ s ∈ samples, threshold ≤ cosine (live.map F32.value) s := by
  have hle : (threshold : WithBot ℚ) ≤ ((samples.map fun s => cosine (live.map F32.value) s).map
      fun (x : ℚ) => (x : WithBot ℚ)).foldl max ⊥ := by
    simpa [matchAgainst, List.map_map, Function.comp_def] using h
  rcases exists_of_le_foldl_max hle with hbot | ⟨x, hx, hle⟩
  · exact absurd hbot (WithBot.not_coe_le_bot threshold)
  · obtain ⟨s, hs, rfl⟩ := List.mem_map.1 hx
    exact ⟨s, hs, hle⟩

end Linhello.Biometrics
