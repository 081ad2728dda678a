import Linhello.Liveness.Antispoof
import Linhello.Liveness.Ir
/-!
# The enrolled envelope

What the calibrated IR gate decides, in terms of its three references. Each reference
is an order statistic of the enrolled values, at a fifth of their number.
-/

namespace Linhello.Liveness

open Stat

/-! ## References -/

namespace IrCalibration

theorem robustLow_eq_kth {v : List ℚ} (hv : 0 < v.length) :
    robustLow v = kth v (v.length / 5) (by omega) := by
  have hfloor : ⌊(v.length : ℚ) * (2 / 10)⌋.toNat = v.length / 5 := by
    have hdiv : (v.length : ℚ) * (2 / 10) = (v.length : ℚ) / (5 : ℕ) := by
      push_cast
      ring
    rw [hdiv, Rat.floor_natCast_div_natCast]
    omega
  have hidx : min (v.length / 5) (v.length - 1) = v.length / 5 := by omega
  have hne : v.insertionSort (· ≤ ·) ≠ [] := by
    apply List.ne_nil_of_length_pos
    rwa [List.length_insertionSort]
  simp only [robustLow, hne, if_false, List.length_insertionSort, hfloor, hidx]
  apply List.getD_eq_getElem

def reference (c : IrCalibration) (cue : IrObservation → ℚ) : ℚ :=
  robustLow (c.observations.map cue)

theorem reference_perm {c c' : IrCalibration} (h : c'.observations.Perm c.observations)
    (cue : IrObservation → ℚ) : c'.reference cue = c.reference cue := by
  have hmap : (c'.observations.map cue).Perm (c.observations.map cue) := h.map cue
  unfold reference
  by_cases hempty : c'.observations = []
  · have hempty' : c.observations = [] := List.nil_perm.1 (hempty ▸ h)
    rw [hempty, hempty']
  · have hpos : 0 < (c'.observations.map cue).length := by
      rw [List.length_map]
      exact List.length_pos_iff.2 hempty
    rw [robustLow_eq_kth hpos, robustLow_eq_kth (hmap.length_eq ▸ hpos), kth_perm hmap]
    simp only [hmap.length_eq]

/-- At most a fifth of the enrolled observations are below a reference. -/
theorem countP_lt_reference (c : IrCalibration) (cue : IrObservation → ℚ) :
    c.observations.countP (fun o => decide (cue o < c.reference cue)) ≤
      c.observations.length / 5 := by
  by_cases hempty : c.observations = []
  · simp [hempty]
  · have hpos : 0 < (c.observations.map cue).length := by
      rw [List.length_map]
      exact List.length_pos_iff.2 hempty
    have hcount := countP_lt_kth (v := c.observations.map cue)
      (i := (c.observations.map cue).length / 5) (by omega)
    rw [← robustLow_eq_kth hpos, List.countP_map, List.length_map] at hcount
    exact hcount

/-! ## The verdict -/

/-- The margins the gate reads from the environment. -/
def ratioMargin (fl : FloatLib) (env : String → Option String) : ℚ :=
  envMargin fl env "LINHELLO_IR_RATIO_MARGIN" (8 / 10)

def glintMargin (fl : FloatLib) (env : String → Option String) : ℚ :=
  envMargin fl env "LINHELLO_IR_GLINT_MARGIN" (5 / 10)

def depthMargin (fl : FloatLib) (env : String → Option String) : ℚ :=
  envMargin fl env "LINHELLO_IR_DEPTH_MARGIN" (85 / 100)

theorem envMargin_mem {fl : FloatLib} {env : String → Option String} {var : String} {dflt : ℚ}
    (hdflt : 0 < dflt ∧ dflt ≤ 1) :
    0 < envMargin fl env var dflt ∧ envMargin fl env var dflt ≤ 1 := by
  unfold envMargin
  cases hv : ((env var).bind fun s => fl.parseFinite (Common.trim s)).filter
      fun v => decide (0 < v ∧ v ≤ 1) with
  | none => exact hdflt
  | some v =>
      have := (Option.filter_eq_some_iff.1 hv).2
      simpa using this

/-- Both brightness cues that have a reference are below their thresholds. -/
structure Dim (fl : FloatLib) (env : String → Option String) (c : IrCalibration)
    (live : IrObservation) : Prop where
  usable : 0 < c.reference (·.faceBgRatio) ∨ 0 < c.reference (·.eyeGlint)
  ratio : 0 < c.reference (·.faceBgRatio) →
    live.faceBgRatio < c.reference (·.faceBgRatio) * ratioMargin fl env
  glint : 0 < c.reference (·.eyeGlint) →
    live.eyeGlint < c.reference (·.eyeGlint) * glintMargin fl env

/-- The depth cue has a reference and is below its threshold. -/
structure Flat (fl : FloatLib) (env : String → Option String) (c : IrCalibration)
    (live : IrObservation) : Prop where
  usable : DEPTH_MIN_REF < c.reference (·.depthRatio)
  depth : live.depthRatio < c.reference (·.depthRatio) * depthMargin fl env

/-- Counting the usable and the absent brightness cues decides `Dim`. -/
theorem brightnessSpoof_iff {fl : FloatLib} {env : String → Option String} {c : IrCalibration}
    {live : IrObservation} {ratioUsable glintUsable ratioAbsent glintAbsent : Bool}
    (hru : ratioUsable = decide (0 < c.reference (·.faceBgRatio)))
    (hgu : glintUsable = decide (0 < c.reference (·.eyeGlint)))
    (hra : ratioAbsent =
      decide (live.faceBgRatio < c.reference (·.faceBgRatio) * ratioMargin fl env))
    (hga : glintAbsent = decide (live.eyeGlint < c.reference (·.eyeGlint) * glintMargin fl env)) :
    (decide (0 < ratioUsable.toNat + glintUsable.toNat) &&
      (ratioUsable && ratioAbsent).toNat + (glintUsable && glintAbsent).toNat ==
        ratioUsable.toNat + glintUsable.toNat) = true ↔ Dim fl env c live := by
  have hcount : ∀ a b x y : Bool, (decide (0 < a.toNat + b.toNat) &&
      (a && x).toNat + (b && y).toNat == a.toNat + b.toNat) = true ↔
      (a = true ∨ b = true) ∧ (a = true → x = true) ∧ (b = true → y = true) := by
    decide
  rw [hcount, hru, hgu, hra, hga]
  simp only [decide_eq_true_eq]
  exact ⟨fun ⟨h₁, h₂, h₃⟩ => ⟨h₁, h₂, h₃⟩, fun h => ⟨h.usable, h.ratio, h.glint⟩⟩

theorem gate_eq_pass_iff {fl : FloatLib} {env : String → Option String} {c : IrCalibration}
    {live : IrObservation} (hready : c.isReady = true) :
    c.gate fl env live = .pass ↔ ¬ Dim fl env c live ∧ ¬ Flat fl env c live := by
  have hdim := @brightnessSpoof_iff fl env c live _ _ _ _ rfl rfl rfl rfl
  have hflat : (decide (DEPTH_MIN_REF < c.reference (·.depthRatio)) &&
      decide (live.depthRatio < c.reference (·.depthRatio) * depthMargin fl env)) = true ↔
      Flat fl env c live := by
    rw [Bool.and_eq_true, decide_eq_true_eq, decide_eq_true_eq]
    exact ⟨fun h => ⟨h.1, h.2⟩, fun h => ⟨h.usable, h.depth⟩⟩
  rw [← hdim, ← hflat]
  simp only [gate, hready, Bool.not_true, Bool.false_eq_true, if_false]
  split
  · rename_i h
    apply iff_of_false _ (fun hnot => hnot.1 h)
    intro hpass
    cases hpass
  · split
    · rename_i h
      apply iff_of_false _ (fun hnot => hnot.2 h)
      intro hpass
      cases hpass
    · rename_i h₁ h₂
      exact iff_of_true rfl ⟨h₁, h₂⟩

theorem gate_eq_reject_iff {fl : FloatLib} {env : String → Option String} {c : IrCalibration}
    {live : IrObservation} (hready : c.isReady = true) :
    (∃ reason, c.gate fl env live = .reject reason) ↔ Dim fl env c live ∨ Flat fl env c live := by
  have hpass : c.gate fl env live = .pass ↔ _ := gate_eq_pass_iff hready
  have hlen : ¬ c.observations.length < MIN_CALIBRATION_OBSERVATIONS := by
    simpa [isReady] using hready
  cases hgate : c.gate fl env live with
  | pass =>
      have hnot := hpass.1 hgate
      apply iff_of_false _ (fun h => h.elim hnot.1 hnot.2)
      rintro ⟨_, h⟩
      cases h
  | reject reason =>
      have hsome : ¬ (¬ Dim fl env c live ∧ ¬ Flat fl env c live) := by
        rw [← hpass, hgate]
        intro h
        cases h
      exact iff_of_true ⟨reason, rfl⟩ (by tauto)
  | notCalibrated => exact absurd (gate_eq_notCalibrated_iff.1 hgate) hlen

/-! ### Better evidence and reordered evidence -/

theorem Dim.of_le {fl : FloatLib} {env : String → Option String} {c : IrCalibration}
    {live live' : IrObservation} (h : Dim fl env c live')
    (hratio : live.faceBgRatio ≤ live'.faceBgRatio) (hglint : live.eyeGlint ≤ live'.eyeGlint) :
    Dim fl env c live where
  usable := h.usable
  ratio := fun hpos => hratio.trans_lt (h.ratio hpos)
  glint := fun hpos => hglint.trans_lt (h.glint hpos)

theorem Flat.of_le {fl : FloatLib} {env : String → Option String} {c : IrCalibration}
    {live live' : IrObservation} (h : Flat fl env c live')
    (hdepth : live.depthRatio ≤ live'.depthRatio) : Flat fl env c live where
  usable := h.usable
  depth := hdepth.trans_lt h.depth

theorem gate_perm {fl : FloatLib} {env : String → Option String} {c c' : IrCalibration}
    (h : c'.observations.Perm c.observations) (live : IrObservation) :
    c'.gate fl env live = c.gate fl env live := by
  have hrefs : ∀ cue : IrObservation → ℚ, robustLow (c'.observations.map cue) =
      robustLow (c.observations.map cue) := reference_perm h
  unfold gate isReady
  rw [h.length_eq, hrefs (·.faceBgRatio), hrefs (·.eyeGlint), hrefs (·.depthRatio)]

/-- A genuine user's envelope: a clear face/background lift and corneal glints. -/
def liveCal : IrCalibration where
  observations := [⟨16 / 10, 45, 8 / 10, 1, 3 / 10⟩, ⟨15 / 10, 38, 8 / 10, 1, 3 / 10⟩,
    ⟨17 / 10, 52, 8 / 10, 1, 3 / 10⟩, ⟨155 / 100, 41, 8 / 10, 1, 3 / 10⟩]

/-- For a ready calibration and any margins: an observation at least as large in the
three cues passes when the smaller one does, reordering the enrolled observations
changes nothing, and the gate rejects exactly a dim or a flat observation. -/
theorem gate_monotone (fl : FloatLib) (env : String → Option String) (c : IrCalibration)
    (hready : c.isReady = true) :
    (∀ live live' : IrObservation, live.faceBgRatio ≤ live'.faceBgRatio →
      live.eyeGlint ≤ live'.eyeGlint → live.depthRatio ≤ live'.depthRatio →
      c.gate fl env live = .pass → c.gate fl env live' = .pass) ∧
    (∀ c' : IrCalibration, c'.observations.Perm c.observations →
      ∀ live, c'.gate fl env live = c.gate fl env live) ∧
    ∀ live, (∃ reason, c.gate fl env live = .reject reason) ↔
      Dim fl env c live ∨ Flat fl env c live := by
  refine ⟨?_, fun c' h live => gate_perm h live, fun live => gate_eq_reject_iff hready⟩
  intro live live' hratio hglint hdepth hpass
  rw [gate_eq_pass_iff hready] at hpass ⊢
  constructor
  · intro hdim
    exact hpass.1 (hdim.of_le hratio hglint)
  · intro hflat
    exact hpass.2 (hflat.of_le hdepth)

theorem gate_monotone_liveCal : liveCal.isReady = true ∧
    ∀ fl env, liveCal.gate fl env ⟨2, 60, 8 / 10, 1, 3 / 10⟩ = .pass →
      liveCal.gate fl env ⟨2, 70, 8 / 10, 1, 3 / 10⟩ = .pass :=
  ⟨rfl, fun fl env => (gate_monotone fl env liveCal rfl).1 _ _ le_rfl (by norm_num) le_rfl⟩

/-! ### The enrolled observations themselves -/

/-- A margin of at most one keeps a threshold at or below its positive reference. -/
theorem lt_of_lt_mul_margin {x ref margin : ℚ} (hmargin : margin ≤ 1) (href : 0 < ref)
    (h : x < ref * margin) : x < ref :=
  h.trans_le (mul_le_of_le_one_right href.le hmargin)

private theorem countP_or_le {α : Type} (p q r : α → Bool) (l : List α)
    (h : ∀ x ∈ l, p x = true → q x = true ∨ r x = true) :
    l.countP p ≤ l.countP q + l.countP r := by
  induction l with
  | nil => simp
  | cons x l ih =>
      have hrest := ih fun y hy => h y (List.mem_cons_of_mem x hy)
      have hx := h x List.mem_cons_self
      simp only [List.countP_cons]
      by_cases hp : p x = true
      · cases hx hp with
        | inl hq =>
            rw [if_pos hp, if_pos hq]
            omega
        | inr hr =>
            rw [if_pos hp, if_pos hr]
            omega
      · rw [if_neg hp]
        omega

/-- Of `n` enrolled observations at most `2 * (n / 5)` are rejected by their own
calibration. A rejected one is below the reference of a brightness cue, always the
same one, or below that of depth. -/
theorem gate_accepts_enrollment (fl : FloatLib) (env : String → Option String) (c : IrCalibration)
    (hn : 3 ≤ c.observations.length) :
    c.observations.countP (fun o => decide (c.gate fl env o ≠ .pass)) ≤
        2 * (c.observations.length / 5) ∧
      (c.observations.length ≤ 4 → ∀ o ∈ c.observations, c.gate fl env o = .pass) := by
  have hready : c.isReady = true := decide_eq_true hn
  have hratioMargin : ratioMargin fl env ≤ 1 := (envMargin_mem (by norm_num)).2
  have hglintMargin : glintMargin fl env ≤ 1 := (envMargin_mem (by norm_num)).2
  have hdepthMargin : depthMargin fl env ≤ 1 := (envMargin_mem (by norm_num)).2
  -- the brightness cue to count by: the ratio if it is usable, else the glint
  obtain ⟨cue, hcue⟩ : ∃ cue : IrObservation → ℚ, ∀ o, Dim fl env c o →
    cue o < c.reference cue := by
    by_cases hratio : 0 < c.reference (·.faceBgRatio)
    · exact ⟨(·.faceBgRatio), fun o h => lt_of_lt_mul_margin hratioMargin hratio (h.ratio hratio)⟩
    · refine ⟨(·.eyeGlint), fun o h => ?_⟩
      have hglint := h.usable.resolve_left hratio
      exact lt_of_lt_mul_margin hglintMargin hglint (h.glint hglint)
  have hdepth : ∀ o, Flat fl env c o → o.depthRatio < c.reference (·.depthRatio) := by
    intro o h
    have hpos : 0 < c.reference (·.depthRatio) := by
      apply lt_trans _ h.usable
      norm_num [DEPTH_MIN_REF]
    exact lt_of_lt_mul_margin hdepthMargin hpos h.depth
  have hcount : c.observations.countP (fun o => decide (c.gate fl env o ≠ .pass)) ≤
      2 * (c.observations.length / 5) := by
    have hsplit := countP_or_le (fun o => decide (c.gate fl env o ≠ .pass))
      (fun o => decide (cue o < c.reference cue))
      (fun o => decide (o.depthRatio < c.reference (·.depthRatio))) c.observations (by
        intro o _ ho
        rw [decide_eq_true_eq, ne_eq, gate_eq_pass_iff hready] at ho
        simp only [decide_eq_true_eq]
        by_cases hdim : Dim fl env c o
        · exact .inl (hcue o hdim)
        · exact .inr (hdepth o (by tauto)))
    have hbright := c.countP_lt_reference cue
    have hflat := c.countP_lt_reference (·.depthRatio)
    omega
  refine ⟨hcount, fun hsmall o ho => ?_⟩
  have hzero : c.observations.countP (fun o => decide (c.gate fl env o ≠ .pass)) = 0 := by omega
  have hpass := List.countP_eq_zero.1 hzero o ho
  simpa using hpass

/-- The same user with an enrollment frame at arm's length. -/
def dimCal : IrCalibration where
  observations := ⟨2 / 10, 5, 8 / 10, 1, 3 / 10⟩ :: liveCal.observations

/-- Of five observations the dim one is rejected, and not more than two. -/
theorem gate_accepts_enrollment_liveCal :
    (∀ fl env, ∀ o ∈ liveCal.observations, liveCal.gate fl env o = .pass) ∧
      ∀ fl : FloatLib, 0 < dimCal.observations.countP
          (fun o => decide (dimCal.gate fl (fun _ => none) o ≠ .pass)) ∧
        dimCal.observations.countP
          (fun o => decide (dimCal.gate fl (fun _ => none) o ≠ .pass)) ≤ 2 := by
  refine ⟨fun fl env => (gate_accepts_enrollment fl env liveCal (by decide)).2 (by decide),
    fun fl => ⟨?_, (gate_accepts_enrollment fl _ dimCal (by decide)).1⟩⟩
  refine List.countP_pos_iff.2 ⟨⟨2 / 10, 5, 8 / 10, 1, 3 / 10⟩, List.mem_cons_self, ?_⟩
  rw [decide_eq_true_eq]
  intro hpass
  have hratio : dimCal.reference (·.faceBgRatio) = 15 / 10 := by decide +kernel
  have hglint : dimCal.reference (·.eyeGlint) = 38 := by decide +kernel
  refine ((gate_eq_pass_iff (by decide)).1 hpass).1 ⟨.inl ?_, fun _ => ?_, fun _ => ?_⟩
  · rw [hratio]
    norm_num
  · have hmargin : ratioMargin fl (fun _ => none) = 8 / 10 := rfl
    rw [hratio, hmargin]
    norm_num
  · have hmargin : glintMargin fl (fun _ => none) = 5 / 10 := rfl
    rw [hglint, hmargin]
    norm_num

end IrCalibration

end Linhello.Liveness
