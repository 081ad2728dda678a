import Linhello.Daemon.DirectRelease
/-!
# Identification

`do_identify` scores one live face against every profile, `do_verify` against one. Both
compare the same samples in the same way, so the ranking lists what `do_verify` would
answer for each profile that can be read.
-/

namespace Linhello.Daemon

open Common Effect Host Liveness Biometrics

variable {W : Type} {S : Semantics host W} {pr : Process} {w w' w₁ w₂ : W} {user : String}
  {users : List String} {live : List F32} {samples : List (List ℚ)} {r : Response}

/-- What `load_user_samples` returned for a profile. -/
abbrev Outcome := String × Except String (List (List ℚ))

/-- The profiles were loaded one after another; the name of one that can be read follows. -/
inductive Loaded (S : Semantics host W) (pr : Process) : List String → W → List Outcome → W → Prop
  | nil (w : W) : Loaded S pr [] w [] w
  | unreadable {user : String} {users : List String} {w v w' : W} {e : String} {ls : List Outcome} :
      Exec S (loadUserSamples pr user).run w (.error e) v → Loaded S pr users v ls w' →
      Loaded S pr (user :: users) w ((user, .error e) :: ls) w'
  | readable {user : String} {users : List String} {w v v' w' : W} {samples : List (List ℚ)}
      {name : Option String} {ls : List Outcome} :
      Exec S (loadUserSamples pr user).run w (.ok samples) v →
      Exec S (readProfileName user) v name v' → Loaded S pr users v' ls w' →
      Loaded S pr (user :: users) w ((user, .ok samples) :: ls) w'

/-- The profiles whose samples were returned, with the samples. -/
def readable (ls : List Outcome) : List (String × List (List ℚ)) :=
  ls.filterMap fun outcome => outcome.2.toOption.map fun samples => (outcome.1, samples)

/-- A profile and its score against a live face. -/
def scoreOf (pr : Process) (live : List F32) (profile : String × List (List ℚ)) :
    String × WithBot ℚ :=
  (profile.1, (matchAgainst (matchThreshold pr) live profile.2).score)

theorem profiles_of_loaded {ls : List Outcome} (h : Loaded S pr users w ls w') :
    ls.map Prod.fst = users := by
  induction h with
  | nil w => rfl
  | unreadable _ _ ih => rw [List.map_cons, ih]
  | readable _ _ _ ih => rw [List.map_cons, ih]

/-- A candidate for every profile that can be read, in their order. -/
theorem loaded_of_candidates {scored : List (Option IdentifyCandidate)}
    (h : Exec S (users.mapM (identifyCandidate pr live)) w scored w') :
    ∃ ls, Loaded S pr users w ls w' ∧
      (scored.filterMap id).map (fun c => (c.user, c.score)) =
        (readable ls).map (scoreOf pr live) := by
  induction users generalizing w scored with
  | nil =>
      obtain ⟨rfl, rfl⟩ := h
      exact ⟨[], .nil w', rfl⟩
  | cons user users ih =>
      rw [List.mapM_cons] at h
      obtain ⟨c, v, hc, hrest⟩ := exec_bind.1 h
      obtain ⟨cs, u, hcs, hscored, rfl⟩ := exec_bind.1 hrest
      obtain ⟨ls, hloaded, hscores⟩ := ih hcs
      unfold identifyCandidate at hc
      obtain ⟨outcome, x, hload, hname⟩ := exec_bind.1 hc
      cases outcome with
      | error e =>
          obtain ⟨rfl, rfl⟩ := hname
          refine ⟨(user, .error e) :: ls, .unreadable hload hloaded, ?_⟩
          rw [hscored]
          exact hscores
      | ok samples =>
          obtain ⟨name, y, hread, rfl, rfl⟩ := exec_bind.1 hname
          refine ⟨(user, .ok samples) :: ls, .readable hload hread hloaded, ?_⟩
          rw [hscored]
          exact congrArg ((user, _) :: ·) hscores

/-! ## Verification -/

/-- `do_verify`, once it has these samples and this live face, answers `r`. -/
def VerifyAnswers (S : Semantics host W) (pr : Process) (user : String) (live : List F32)
    (samples : List (List ℚ)) (r : Response) : Prop :=
  ∀ w w₁ w₂, Exec S (loadUserSamples pr user).run w (.ok samples) w₁ →
    Exec S (captureEmbedGated pr user).run w₁ (.ok live) w₂ → Exec S (doVerify pr user) w r w₂

theorem verifyAnswers : VerifyAnswers S pr user live samples
    (.verified (matchAgainst (matchThreshold pr) live samples).matched
      (matchAgainst (matchThreshold pr) live samples).score (matchThreshold pr)) := by
  intro w w₁ w₂ hload hcapture
  exact exec_bind.2 ⟨.ok samples, w₁, hload, exec_bind.2 ⟨.ok live, w₂, hcapture, rfl, rfl⟩⟩

/-! ## The ranking -/

/-- What the answer says about the profiles that can be read. -/
structure Ranking (S : Semantics host W) (pr : Process) (live : List F32)
    (profiles : List (String × List (List ℚ))) (best : Option IdentifyCandidate)
    (candidates : List IdentifyCandidate) : Prop where
  scores : (candidates.map fun c => (c.user, c.score)).Perm (profiles.map (scoreOf pr live))
  sorted : candidates.Pairwise fun a b => b.score ≤ a.score
  verified : ∀ c ∈ candidates, ∃ samples, (c.user, samples) ∈ profiles ∧
    VerifyAnswers S pr c.user live samples (.verified
      (decide ((matchThreshold pr : WithBot ℚ) ≤ c.score)) c.score (matchThreshold pr))
  best_isSome : best.isSome = true ↔
    ∃ profile ∈ profiles, (matchThreshold pr : WithBot ℚ) ≤ (scoreOf pr live profile).2
  best_max : ∀ b, best = some b → b ∈ candidates ∧ ∀ c ∈ candidates, c.score ≤ b.score
  best_matched : ∀ b, best = some b → ∃ samples, (b.user, samples) ∈ profiles ∧
    VerifyAnswers S pr b.user live samples (.verified true b.score (matchThreshold pr))

theorem head_max {c : IdentifyCandidate} {cs : List IdentifyCandidate}
    (h : (c :: cs).Pairwise fun a b => b.score ≤ a.score) : ∀ d ∈ c :: cs, d.score ≤ c.score := by
  intro d hd
  cases List.mem_cons.1 hd with
  | inl heq => rw [heq]
  | inr hmem => exact List.rel_of_pairwise_cons h hmem

theorem pairwise_ranked (cs : List IdentifyCandidate) :
    (cs.insertionSort fun a b => b.score ≤ a.score).Pairwise fun a b => b.score ≤ a.score := by
  have htotal : Std.Total fun a b : IdentifyCandidate => b.score ≤ a.score :=
    ⟨fun a b => le_total b.score a.score⟩
  have htrans : IsTrans IdentifyCandidate fun a b => b.score ≤ a.score :=
    ⟨fun a b c hab hbc => hbc.trans hab⟩
  exact List.pairwise_insertionSort _ cs

theorem profile_of_candidate {profiles : List (String × List (List ℚ))}
    {candidates : List IdentifyCandidate} {c : IdentifyCandidate}
    (h : (candidates.map fun c => (c.user, c.score)).Perm (profiles.map (scoreOf pr live)))
    (hc : c ∈ candidates) : ∃ samples, (c.user, samples) ∈ profiles ∧
      c.score = (matchAgainst (matchThreshold pr) live samples).score := by
  have hmem : (c.user, c.score) ∈ profiles.map (scoreOf pr live) :=
    h.mem_iff.1 (List.mem_map.2 ⟨c, hc, rfl⟩)
  obtain ⟨⟨user, samples⟩, hprofile, hscore⟩ := List.mem_map.1 hmem
  obtain ⟨rfl, hscore⟩ := Prod.mk.inj hscore
  exact ⟨samples, hprofile, hscore.symm⟩

theorem candidate_of_profile {profiles : List (String × List (List ℚ))}
    {candidates : List IdentifyCandidate} {profile : String × List (List ℚ)}
    (h : (candidates.map fun c => (c.user, c.score)).Perm (profiles.map (scoreOf pr live)))
    (hprofile : profile ∈ profiles) : ∃ c ∈ candidates, c.score = (scoreOf pr live profile).2 := by
  have hmem : scoreOf pr live profile ∈ candidates.map fun c => (c.user, c.score) :=
    h.mem_iff.2 (List.mem_map_of_mem hprofile)
  obtain ⟨c, hc, hscore⟩ := List.mem_map.1 hmem
  exact ⟨c, hc, congrArg Prod.snd hscore⟩

theorem verifyAnswers_of_candidate {c : IdentifyCandidate}
    (h : c.score = (matchAgainst (matchThreshold pr) live samples).score) :
    VerifyAnswers S pr user live samples (.verified
      (decide ((matchThreshold pr : WithBot ℚ) ≤ c.score)) c.score (matchThreshold pr)) := by
  rw [h]
  exact verifyAnswers

private theorem ranking_of_sorted {profiles : List (String × List (List ℚ))}
    {ranked : List IdentifyCandidate}
    (hscores : (ranked.map fun c => (c.user, c.score)).Perm (profiles.map (scoreOf pr live)))
    (hsorted : ranked.Pairwise fun a b => b.score ≤ a.score) :
    Ranking S pr live profiles
      (ranked.head?.filter fun c => (matchThreshold pr : WithBot ℚ) ≤ c.score) ranked := by
  have hbest : ∀ b, (ranked.head?.filter fun c => (matchThreshold pr : WithBot ℚ) ≤ c.score) =
      some b → (matchThreshold pr : WithBot ℚ) ≤ b.score ∧ b ∈ ranked ∧
        ∀ c ∈ ranked, c.score ≤ b.score := by
    intro b hb
    obtain ⟨hhead, hreaches⟩ := Option.filter_eq_some_iff.1 hb
    obtain ⟨rest, rfl⟩ := List.head?_eq_some_iff.1 hhead
    exact ⟨of_decide_eq_true hreaches, List.mem_cons_self, head_max hsorted⟩
  refine ⟨hscores, hsorted, ?_, ?_, fun b hb => (hbest b hb).2, ?_⟩
  · intro c hc
    obtain ⟨samples, hprofile, hscore⟩ := profile_of_candidate hscores hc
    exact ⟨samples, hprofile, verifyAnswers_of_candidate hscore⟩
  · constructor
    · intro hsome
      obtain ⟨b, hb⟩ := Option.isSome_iff_exists.1 hsome
      obtain ⟨hreaches, hmem, -⟩ := hbest b hb
      obtain ⟨samples, hprofile, hscore⟩ := profile_of_candidate hscores hmem
      refine ⟨(b.user, samples), hprofile, ?_⟩
      rwa [hscore] at hreaches
    · intro hexists
      obtain ⟨profile, hprofile, hreaches⟩ := hexists
      obtain ⟨c, hc, hscore⟩ := candidate_of_profile hscores hprofile
      cases ranked with
      | nil => cases hc
      | cons b rest =>
          have hmax := head_max hsorted c hc
          rw [hscore] at hmax
          rw [List.head?_cons, Option.filter_some, if_pos (decide_eq_true (hreaches.trans hmax))]
          rfl
  · intro b hb
    obtain ⟨hreaches, hmem, -⟩ := hbest b hb
    obtain ⟨samples, hprofile, hscore⟩ := profile_of_candidate hscores hmem
    refine ⟨samples, hprofile, ?_⟩
    have hanswers : VerifyAnswers S pr b.user live samples _ := verifyAnswers_of_candidate hscore
    rwa [decide_eq_true hreaches] at hanswers

/-- However a run of `do_identify` goes: without a profile, or without a live face, or if no
profile can be read, it answers an error; otherwise it ranks the profiles that can be read
as `do_verify` would. -/
theorem do_identify_refines_verify (h : Exec S (doIdentify pr) w r w') :
    ∃ profiles w₁, Exec S enrolledProfiles w profiles w₁ ∧
      (profiles = [] ∧ r = .error "no enrolled profiles to identify against" ∨
      profiles ≠ [] ∧
        ((∃ e, Exec S (captureAndEmbed pr).run w₁ (.error e) w' ∧ r = .error e.display) ∨
        ∃ live w₂ ls, Exec S (captureAndEmbed pr).run w₁ (.ok live) w₂ ∧
          Loaded S pr profiles w₂ ls w' ∧ ls.map Prod.fst = profiles ∧
          (readable ls = [] ∧ r = .error "no profile templates could be read (TPM/PCR state?)" ∨
          readable ls ≠ [] ∧ ∃ best candidates,
            r = .identified best (matchThreshold pr) candidates ∧
            Ranking S pr live (readable ls) best candidates))) := by
  unfold doIdentify at h
  obtain ⟨profiles, w₁, hprofiles, h₁⟩ := exec_bind.1 h
  refine ⟨profiles, w₁, hprofiles, ?_⟩
  cases profiles with
  | nil =>
      obtain ⟨rfl, -⟩ := h₁
      exact .inl ⟨rfl, rfl⟩
  | cons user users =>
      refine .inr ⟨List.cons_ne_nil user users, ?_⟩
      obtain ⟨captured, w₂, hcapture, h₂⟩ := exec_bind.1 h₁
      cases captured with
      | error e =>
          obtain ⟨rfl, rfl⟩ := h₂
          exact .inl ⟨e, hcapture, rfl⟩
      | ok live =>
          obtain ⟨scored, w₃, hscored, h₃⟩ := exec_bind.1 h₂
          obtain ⟨ls, hloaded, hscores⟩ := loaded_of_candidates hscored
          have hperm := List.perm_insertionSort (fun a b : IdentifyCandidate => b.score ≤ a.score)
            (scored.filterMap id)
          have hranked := hperm.map fun c => (c.user, c.score)
          rw [hscores] at hranked
          have hlength := hranked.length_eq
          rw [List.length_map, List.length_map] at hlength
          have hlisted := profiles_of_loaded hloaded
          right
          by_cases hnone : readable ls = []
          · rw [hnone] at hlength
            have hempty := List.length_eq_zero_iff.1 hlength
            rw [hempty] at h₃
            obtain ⟨rfl, rfl⟩ := h₃
            exact ⟨live, w₂, ls, hcapture, hloaded, hlisted, .inl ⟨hnone, rfl⟩⟩
          · have hsome :
                ((scored.filterMap id).insertionSort fun a b => b.score ≤ a.score) ≠ [] := by
              intro hempty
              rw [hempty] at hlength
              exact hnone (List.length_eq_zero_iff.1 hlength.symm)
            rw [if_neg (by rwa [List.isEmpty_iff])] at h₃
            obtain ⟨rfl, rfl⟩ := h₃
            exact ⟨live, w₂, ls, hcapture, hloaded, hlisted, .inr ⟨hnone, _, _, rfl,
              ranking_of_sorted hranked (pairwise_ranked _)⟩⟩

/-- Two users of whom one stands in front of the camera. -/
def sharedWorld : World :=
  ((enrolledWorld "alice").set (.user "bob" .templateKeyEnvelope)
    (.value (simulatedSeal simulatedKey))).set
    (.user "bob" .embeddingEnc)
    (List.replicate 12 7 ++ (embeddingToBytes (unitVector 1) ++ simulatedTag simulatedKey))

/-- `bob` is listed first and `alice` ranked first. -/
theorem do_identify_refines_verify_alice : ∃ first second w',
    Exec (World.Step simulatedUnseal .none) (doIdentify simulatedProcess) sharedWorld
      (.identified (some first) (matchThreshold simulatedProcess) [first, second]) w' ∧
    first.user = "alice" ∧ second.user = "bob" ∧ second.score < first.score ∧
    ∃ live profiles, Ranking (World.Step simulatedUnseal .none) simulatedProcess live profiles
      (some first) [first, second] := by
  obtain ⟨w', hrun⟩ : ∃ w', Exec (World.Step simulatedUnseal .none) (doIdentify simulatedProcess)
      sharedWorld (.identified (some ⟨"alice", none, (1 : ℚ)⟩) (matchThreshold simulatedProcess)
        [⟨"alice", none, (1 : ℚ)⟩, ⟨"bob", none, (0 : ℚ)⟩]) w' :=
    simulatedScript.exec_of_run 40 (by decide +kernel)
  refine ⟨_, _, w', hrun, rfl, rfl, by decide +kernel, ?_⟩
  obtain ⟨profiles, w₁, -, ⟨-, hr⟩ | ⟨-, ⟨e, -, hr⟩ | ⟨live, w₂, ls, -, -, -, hcase⟩⟩⟩ :=
    do_identify_refines_verify hrun
  · cases hr
  · cases hr
  · rcases hcase with ⟨-, hr⟩ | ⟨-, best, candidates, hr, hranking⟩
    · cases hr
    · obtain ⟨rfl, -, rfl⟩ := Response.identified.inj hr
      exact ⟨live, _, hranking⟩

end Linhello.Daemon
