import Linhello.Cli.WizardMoves
/-!
# Runs of the wizard

What the wizard does over a whole run, from its start and whatever it is answered: what has
to happen before it uninstalls, deletes a profile, seals a password, enrolls a face, wires
PAM or writes a threshold.
-/

namespace Linhello.Cli.Wizard

open Common Effect Liveness

def Fresh (a : App) : Prop :=
  ∃ (s : Start) (es : List (Event console)), (onEnter (App.new s)).Traces es a

theorem Fresh.core {a : App} (h : Fresh a) :
    ∃ user, a.core = ⟨user, .welcome, user, none, .idle, .idle, .entry "", .idle true, false⟩ := by
  obtain ⟨s, es, h⟩ := h
  obtain ⟨-, pw, harrived, hcore⟩ := enters_onEnter (App.new s) es a h
  have hpw : pw = .entry "" := harrived.1 (by simp [App.new])
  rw [hcore, hpw]
  exact ⟨s.user, rfl⟩

abbrev Round := Turn console Act App

abbrev Run (fl : FloatLib) (start : App) (ts : List Round) (a : App) : Prop :=
  Session loud (act fl) start ts a

/-- A run of the event loop is a run of acts, and as much is heard of it. -/
theorem run_of_rounds {fl : FloatLib} {start a : App}
    {ts : List (Turn console (Input × Bool) App)}
    (h : Session loud (fun i => round fl i.1 i.2) start ts a) :
    ∃ us, Run fl start us a ∧ us.flatMap (·.heard) = ts.flatMap (·.heard) := by
  induction h with
  | nil => exact ⟨[], .nil, rfl⟩
  | @snoc ts a b i es run served ih =>
      obtain ⟨us, hus, hheard⟩ := ih
      obtain ⟨input, second⟩ := i
      obtain ⟨es₁, rest, b₁, rfl, hinput, hrest⟩ := traces_bind.1 served
      obtain ⟨es₂, es₃, b₂, rfl, hflow, hlast⟩ := traces_bind.1 hrest
      have hflows : (act fl .flows b₁).Traces es₂ b₂ := hflow
      have htick : (act fl (.tick second) b₂).Traces es₃ b := hlast
      cases input with
      | key code shift =>
          have hkey : (act fl (.key code shift) a).Traces es₁ b₁ := hinput
          refine ⟨_, ((hus.snoc hkey).snoc hflows).snoc htick, ?_⟩
          rw [heard_append, heard_append]
          simp [hheard]
      | idle =>
          have hidle : es₁ = [] ∧ b₁ = a := hinput
          rw [hidle.2] at hflows
          refine ⟨_, (hus.snoc hflows).snoc htick, ?_⟩
          rw [hidle.1, List.nil_append, heard_append]
          simp [hheard]

def typed (s : String) (t : Round) : String :=
  match t.input with
  | .key code _ => edit code s
  | _ => s

theorem mem_ORDER_of_beyond {a : App} {s : Screen} (h : Beyond a s) : s ∈ ORDER := by
  obtain ⟨skipped, rest, hdrop, -⟩ := h
  apply List.mem_of_mem_drop (i := stepIndex a + 1)
  rw [hdrop]
  simp

section Turns

variable {fl : FloatLib} {a : App} {i : Act} {es : List (Event console)} {c : Core}

theorem edit_of_open {L : String → Prop} {s s' : String} {t : Round}
    (kept : s' = s ∨ ∃ code shift, t.input = .key code shift ∧ s' = edit code s)
    (taken : ∀ {code shift}, t.input = .key code shift → edits code = true → L (edit code s))
    (hline : ∀ {u}, L u → u = s') : s' = typed s t := by
  unfold typed
  split
  next code shift hinput =>
    rcases kept with hsame | ⟨code', shift', hinput', hedit⟩
    · cases hedits : edits code with
      | true => exact (hline (taken hinput hedits)).symm
      | false =>
          rw [hsame]
          cases code <;> first
            | rfl
            | cases hedits
    · rw [hinput'] at hinput
      cases hinput
      exact hedit
  next hother =>
    rcases kept with hsame | ⟨code', shift', hinput', -⟩
    · exact hsame
    · exact absurd hinput' (hother _ _)

/-- How the confirmation line of the uninstaller comes to be what it is. -/
theorem Move.confirming (h : Move fl a i es c) {rm : Bool} {s : String}
    (hscreen : c.screen = .uninstall) (hline : c.uninstall = .confirm rm s) :
    (∃ shift, i = .key (.char 'x') shift ∧ a.screen = .uninstall ∧ a.uninstall = .idle rm ∧
      s = "") ∨
    a.screen = .uninstall ∧ ∃ s₀, a.uninstall = .confirm rm s₀ ∧
      (s = s₀ ∨ ∃ code shift, i = .key code shift ∧ s = edit code s₀) := by
  cases h with
  | @forward code shift s' pw passed beyond arrived =>
      have hs : s' = .uninstall := hscreen
      exact absurd (mem_ORDER_of_beyond beyond) (by rw [hs]; decide)
  | @back code shift s' pw before arrived =>
      have hs : s' = .uninstall := hscreen
      exact absurd (List.mem_of_mem_take before) (by rw [hs]; decide)
  | toUninstall here => cases hline
  | leaveUninstall here ended => exact absurd hline (ended rm s)
  | toggleModels here state => cases hline
  | arm here state =>
      cases hline
      exact .inl ⟨_, rfl, here, state, rfl⟩
  | typeWord here state typed =>
      cases hline
      exact .inr ⟨here, _, state, .inr ⟨_, _, rfl, rfl⟩⟩
  | disarm here state => cases hline
  | uninstallNow answer here state word ended => exact absurd hline (ended rm s)
  | _ => exact .inr ⟨hscreen, s, hline, .inl rfl⟩

theorem Move.uninstalls (h : Move fl a i es c) {rm : Bool} {answer : Ans (.uninstall rm)}
    (hdone : (⟨.uninstall rm, answer⟩ : Event console) ∈ es) :
    (∃ shift, i = .key .enter shift) ∧ a.screen = .uninstall ∧
      ∃ s, a.uninstall = .confirm rm s ∧ trim s = UNINSTALL_WORD := by
  cases h with
  | @uninstallNow shift rm' s u answer' here state word ended =>
      cases List.mem_singleton.1 hdone
      exact ⟨⟨shift, rfl⟩, here, s, state, word⟩
  | _ => simp at hdone

/-- How the second line of the password step comes to be what it is. -/
theorem Move.repeating (h : Move fl a i es c) {first s : String}
    (hscreen : c.screen = .password) (hline : c.password = .confirm first s) :
    c.activeProfile = a.activeProfile ∧ a.screen = .password ∧
      ((∃ shift, i = .key .enter shift ∧ a.password = .entry first ∧ first ≠ "" ∧ s = "") ∨
        ∃ s₀, a.password = .confirm first s₀ ∧
          (s = s₀ ∨ ∃ code shift, i = .key code shift ∧ s = edit code s₀)) := by
  cases h with
  | forward passed beyond arrived => exact absurd hline (arrived.2 hscreen first s)
  | back before arrived => exact absurd hline (arrived.2 hscreen first s)
  | toUninstall here => cases hscreen
  | leaveUninstall here ended => cases hscreen
  | select here chosen => cases here.symm.trans hscreen
  | newTarget here valid => cases here.symm.trans hscreen
  | deleteNow answer here state yes => cases here.symm.trans hscreen
  | typePassword here state typed => cases hline
  | clearPassword here => cases hline
  | firstEntry here state filled =>
      cases hline
      exact ⟨rfl, here, .inl ⟨_, rfl, state, filled, rfl⟩⟩
  | retype here state typed =>
      cases hline
      exact ⟨rfl, here, .inr ⟨_, state, .inr ⟨_, _, rfl, rfl⟩⟩⟩
  | sealNow answer here state ended => exact absurd hline (ended first s)
  | _ => exact ⟨rfl, hscreen, .inr ⟨s, hline, .inl rfl⟩⟩

theorem Move.seals (h : Move fl a i es c) {user : String} {bytes : List UInt8}
    {answer : Ans (.send (.sealPassword user bytes))}
    (hdone : (⟨.send (.sealPassword user bytes), answer⟩ : Event console) ∈ es) :
    (∃ shift, i = .key .enter shift) ∧ a.screen = .password ∧ user = a.activeProfile ∧
      ∃ first, a.password = .confirm first first ∧ bytes = utf8 first := by
  cases h with
  | @sealNow shift first pw answer' here state ended =>
      cases List.mem_singleton.1 hdone
      exact ⟨⟨shift, rfl⟩, here, rfl, first, state, rfl⟩
  | _ => simp at hdone

theorem Move.asking (h : Move fl a i es c) {user : String} (hask : c.deleteConfirm = some user) :
    ((∃ shift, i = .key (.char 'd') shift) ∧ a.screen = .profiles ∧ c.screen = .profiles ∧
      ∃ p, highlighted a = some p ∧ p.user = user) ∨ a.deleteConfirm = some user := by
  cases h with
  | askDelete here state chosen =>
      cases hask
      exact .inl ⟨⟨_, rfl⟩, here, here, _, chosen, rfl⟩
  | cancelDelete here state => cases hask
  | deleteNow answer here state yes => cases hask
  | _ => exact .inr hask

theorem Move.deletes (h : Move fl a i es c) {user : String}
    {answer : Ans (.send (.deleteProfile user))}
    (hdone : (⟨.send (.deleteProfile user), answer⟩ : Event console) ∈ es) :
    (∃ code shift, i = .key code shift ∧ (code = .char 'y' ∨ code = .char 'Y')) ∧
      a.screen = .profiles ∧ a.deleteConfirm = some user := by
  cases h with
  | @deleteNow code shift user' active answer' here state yes =>
      cases List.mem_singleton.1 hdone
      exact ⟨⟨code, shift, rfl, yes⟩, here, state⟩
  | _ => simp at hdone

theorem Move.screen_of_no_key (h : Move fl a i es c) (hno : ∀ code shift, i ≠ .key code shift) :
    c.screen = a.screen := by
  cases h <;> first
    | rfl
    | exact absurd rfl (hno _ _)

theorem asked_here {b : App} (h : Move fl a i es b.core ∧ Modal a i b.core)
    (hask : ∀ user, a.deleteConfirm = some user → a.screen = .profiles) :
    ∀ user, b.deleteConfirm = some user → b.screen = .profiles := by
  intro user hb
  rcases h.1.asking hb with ⟨-, -, hscreen, -⟩ | ha
  · exact hscreen
  · have here := hask user ha
    cases i with
    | key code shift =>
        rcases h.2.asked rfl here ha with ⟨-, hsame⟩ | hnone
        · exact (congrArg Core.screen hsame).trans here
        · cases hnone.symm.trans hb
    | flows => exact (h.1.screen_of_no_key (fun _ _ => by simp)).trans here
    | tick second => exact (h.1.screen_of_no_key (fun _ _ => by simp)).trans here

end Turns

/-! ## Rehearsals -/

/-- A host on which everything works, with one enrolled user. -/
def obliging (ir : Option String) : (o : Op) → Ans o
  | .send .probe => .ok (.capabilities ⟨[]⟩)
  | .send .listProfiles => .ok (.profiles [⟨"ada", none, 5, false⟩])
  | .send .positionSample =>
      .ok (.position ⟨1, 640, 480, none, none, none, none, none, none, 90, true, none, none, false,
        true, ""⟩)
  | .send (.enroll _ _) => .ok (.enrolled 1)
  | .send (.verify _) => .ok (.verified true ((8 / 10 : ℚ) : WithBot ℚ) (6 / 10))
  | .send (.sealPassword _ _) => .ok .passwordSealed
  | .send (.deleteProfile user) => .ok (.profileDeleted user 5)
  | .send _ => .error "no answer"
  | .detect => ⟨some "/usr/bin/linhello", some "/usr/bin/linhellod", true, true, ["ada"]⟩
  | .enumerate => []
  | .irDevice => ir
  | .deploy _ | .copyModelsFrom _ | .uninstall _ => .ok []
  | .bundledModelsDir => none
  | .restartDaemon | .writeCamerasConf _ _ | .writeKv _ _ _ | .pamEnable _ | .pamDisable => .ok ()
  | .fingerprintAvailable => true
  | .pamStatus | .ensureSocketGroup | .refreshFingerprint _ | .fingerprintEnable _
  | .platformSetup | .setRecovery _ => ()

def simpleFloats : FloatLib where
  sqrt := id
  exp := id
  parse := fun _ => none
  fixed := fun _ _ => "0.75"

/-- The wizard once it has started on that host. -/
def opened : App :=
  ((onEnter (App.new ⟨"ada", obliging none .detect, [], none, none, true⟩)).replay
    (obliging none)).2

theorem fresh_opened : Fresh opened :=
  ⟨⟨"ada", obliging none .detect, [], none, none, true⟩, _,
    traces_replay (σ := console) (obliging none) _⟩

def rehearsal (ir : Option String) (acts : List Act) : List Round × App :=
  play loud (act simpleFloats) (obliging ir) opened acts

theorem run_rehearsal (ir : Option String) (acts : List Act) :
    Run simpleFloats opened (rehearsal ir acts).1 (rehearsal ir acts).2 :=
  session_play loud (act simpleFloats) (obliging ir) opened acts

def press (code : Key) : Act := .key code false

def forward (n : Nat) : List Act := List.replicate n (press .tab)

def write (cs : List Char) : List Act := cs.map fun c => press (.char c)

/-- What is heard when a key is pressed after some acts. -/
def heardAt (ir : Option String) (acts : List Act) (i : Act) : Round :=
  served loud (act simpleFloats) (obliging ir) (rehearsal ir acts).2 i

theorem rehearsal_concat (ir : Option String) (acts : List Act) (i : Act) :
    (rehearsal ir (acts ++ [i])).1 = (rehearsal ir acts).1 ++ heardAt ir acts i :: [] :=
  play_concat (σ := console) loud (act simpleFloats) (obliging ir) opened acts i

section Runs

variable {fl : FloatLib} {start a : App} {ts pre post : List Round} {t : Round}

/-- The wizard uninstalls only when Enter follows an `x` and the word, typed since then. -/
theorem uninstall_typed {rm : Bool} {answer : Ans (.uninstall rm)} (hstart : Fresh start)
    (hrun : Run fl start ts a) (hts : ts = pre ++ t :: post)
    (hdone : (⟨.uninstall rm, answer⟩ : Event console) ∈ t.heard) :
    (∃ shift, t.input = .key .enter shift) ∧
    ∃ before x mid, pre = before ++ x :: mid ∧
      (∃ shift, x.input = .key (.char 'x') shift) ∧
      x.before.screen = .uninstall ∧ x.before.uninstall = .idle rm ∧
      (∀ u ∈ mid, u.before.screen = .uninstall ∧ ∃ s, u.before.uninstall = .confirm rm s) ∧
      trim (mid.foldl typed "") = UNINSTALL_WORD := by
  obtain ⟨user, huser⟩ := hstart.core
  have ht := hrun.moves (act_moves fl) t (by simp [hts])
  obtain ⟨henter, hscreen, s, hline, hword⟩ := ht.1.uninstalls hdone
  refine ⟨henter, ?_⟩
  have hsince := (hrun.upTo hts).since
    (fun s a => a.screen = .uninstall ∧ a.uninstall = .confirm rm s)
    (fun x s => (∃ shift, x.input = .key (.char 'x') shift) ∧ x.before.screen = .uninstall ∧
      x.before.uninstall = .idle rm ∧ s = "") typed (act_moves fl) ?_ ?_ ⟨hscreen, hline⟩
  · obtain ⟨before, x, mid, s₀, hpre, ⟨hx, hxscreen, hxline, rfl⟩, rfl, hmid⟩ := hsince
    refine ⟨before, x, mid, hpre, hx, hxscreen, hxline, fun u hu => ?_, hword⟩
    obtain ⟨⟨s, hs⟩, -⟩ := hmid u hu
    exact ⟨hs.1, s, hs.2⟩
  · intro s hs
    have hwelcome : start.screen = .welcome := congrArg Core.screen huser
    rw [hwelcome] at hs
    cases hs.1
  · intro u hu s hs
    rcases hu.1.confirming hs.1 hs.2 with ⟨shift, hinput, here, hidle, hs₀⟩ | ⟨here, s₀, state, hs₀⟩
    · exact .inl ⟨⟨shift, hinput⟩, here, hidle, hs₀⟩
    · refine .inr ⟨s₀, ⟨here, state⟩, edit_of_open (L := fun l => u.after.uninstall = .confirm rm l)
        hs₀ (fun hinput hedits => hu.2.word hinput hedits here state) fun hl => ?_⟩
      cases hl.symm.trans hs.2
      rfl

def removing : List Act := write ['u', 'x', 'R', 'E', 'M', 'O', 'V', 'E']

theorem uninstall_typed_remove :
    ∃ before x mid, (rehearsal none removing).1 = before ++ x :: mid ∧
      (∃ shift, x.input = .key (.char 'x') shift) ∧
      x.before.screen = .uninstall ∧ x.before.uninstall = .idle true ∧
      (∀ u ∈ mid, u.before.screen = .uninstall ∧ ∃ s, u.before.uninstall = .confirm true s) ∧
      trim (mid.foldl typed "") = UNINSTALL_WORD :=
  (uninstall_typed fresh_opened (run_rehearsal none (removing ++ [press .enter]))
    (rehearsal_concat none removing (press .enter))
    (show (⟨.uninstall true, .ok []⟩ : Event console) ∈ _ by decide +kernel)).2

/-- The wizard seals a password only when it has been entered twice, for the profile that was
active throughout. -/
theorem password_sealed_twice {user : String} {bytes : List UInt8}
    {answer : Ans (.send (.sealPassword user bytes))} (hstart : Fresh start)
    (hrun : Run fl start ts a) (hts : ts = pre ++ t :: post)
    (hdone : (⟨.send (.sealPassword user bytes), answer⟩ : Event console) ∈ t.heard) :
    (∃ shift, t.input = .key .enter shift) ∧ ∃ password, bytes = utf8 password ∧ password ≠ "" ∧
    ∃ before x mid, pre = before ++ x :: mid ∧
      (∃ shift, x.input = .key .enter shift) ∧ x.before.screen = .password ∧
      x.before.activeProfile = user ∧ x.before.password = .entry password ∧
      (∀ u ∈ mid, u.before.screen = .password ∧ u.before.activeProfile = user ∧
        ∃ s, u.before.password = .confirm password s) ∧
      mid.foldl typed "" = password := by
  obtain ⟨first, hfirst⟩ := hstart.core
  have ht := hrun.moves (act_moves fl) t (by simp [hts])
  obtain ⟨henter, hscreen, huser, password, hline, hbytes⟩ := ht.1.seals hdone
  have hsince := (hrun.upTo hts).since
    (fun s a => a.screen = .password ∧ a.activeProfile = user ∧ a.password = .confirm password s)
    (fun x s => (∃ shift, x.input = .key .enter shift) ∧ x.before.screen = .password ∧
      x.before.activeProfile = user ∧ x.before.password = .entry password ∧ password ≠ "" ∧ s = "")
    typed (act_moves fl) ?_ ?_ ⟨hscreen, huser.symm, hline⟩
  · obtain ⟨before, x, mid, s₀, hpre, ⟨hx, hxscreen, hxuser, hxline, hfilled, rfl⟩, hsame, hmid⟩ :=
      hsince
    refine ⟨henter, password, hbytes, hfilled, before, x, mid, hpre, hx, hxscreen, hxuser, hxline,
      fun u hu => ?_, hsame.symm⟩
    obtain ⟨⟨s, hs⟩, -⟩ := hmid u hu
    exact ⟨hs.1, hs.2.1, s, hs.2.2⟩
  · intro s hs
    have hwelcome : start.screen = .welcome := congrArg Core.screen hfirst
    rw [hwelcome] at hs
    cases hs.1
  · intro u hu s hs
    obtain ⟨hactive, here, hfrom⟩ := hu.1.repeating hs.1 hs.2.2
    have huser : u.before.activeProfile = user := hactive.symm.trans hs.2.1
    rcases hfrom with ⟨shift, hinput, hentry, hfilled, hs₀⟩ | ⟨s₀, state, hs₀⟩
    · exact .inl ⟨⟨shift, hinput⟩, here, huser, hentry, hfilled, hs₀⟩
    · refine .inr ⟨s₀, ⟨here, huser, state⟩,
        edit_of_open (L := fun l => u.after.password = .confirm password l)
        hs₀ (fun hinput hedits => hu.2.again hinput hedits here state) fun hl => ?_⟩
      cases hl.symm.trans hs.2.2
      rfl

/-- The password "ab" once, and once more up to the last Enter. -/
def sealing : List Act := forward 9 ++ write ['a', 'b'] ++ [press .enter] ++ write ['a', 'b']

theorem password_sealed_twice_ab :
    ∃ password, utf8 "ab" = utf8 password ∧ password ≠ "" ∧
    ∃ before x mid, (rehearsal (some "/dev/video2") sealing).1 = before ++ x :: mid ∧
      (∃ shift, x.input = .key .enter shift) ∧ x.before.screen = .password ∧
      x.before.activeProfile = "ada" ∧ x.before.password = .entry password ∧
      (∀ u ∈ mid, u.before.screen = .password ∧ u.before.activeProfile = "ada" ∧
        ∃ s, u.before.password = .confirm password s) ∧
      mid.foldl typed "" = password :=
  (password_sealed_twice fresh_opened
    (run_rehearsal (some "/dev/video2") (sealing ++ [press .enter]))
    (rehearsal_concat (some "/dev/video2") sealing (press .enter))
    (show (⟨.send (.sealPassword "ada" (utf8 "ab")), .ok .passwordSealed⟩ : Event console) ∈ _ by
      decide +kernel)).2

/-- The wizard deletes a profile only when `y` is the first key after a `d` on that profile. -/
theorem deleted_at_once {user : String} {answer : Ans (.send (.deleteProfile user))}
    (hstart : Fresh start) (hrun : Run fl start ts a) (hts : ts = pre ++ t :: post)
    (hdone : (⟨.send (.deleteProfile user), answer⟩ : Event console) ∈ t.heard) :
    (∃ code shift, t.input = .key code shift ∧ (code = .char 'y' ∨ code = .char 'Y')) ∧
    ∃ before x mid, pre = before ++ x :: mid ∧
      (∃ shift, x.input = .key (.char 'd') shift) ∧ x.before.screen = .profiles ∧
      (∃ p, highlighted x.before = some p ∧ p.user = user) ∧
      ∀ u ∈ mid, u.before.screen = .profiles ∧
        ∀ code shift, u.input = .key code shift → (shift && scrolls code) = true := by
  obtain ⟨first, hfirst⟩ := hstart.core
  have hnone : start.deleteConfirm = none := congrArg Core.deleteConfirm hfirst
  have hmoves := hrun.moves (act_moves fl)
  have hasked := (hrun.invariant (P := fun a => ∀ user, a.deleteConfirm = some user →
    a.screen = .profiles) (act_moves fl) (fun user h => by cases hnone.symm.trans h) asked_here).2
  obtain ⟨hyes, hscreen, hask⟩ := (hmoves t (by simp [hts])).1.deletes hdone
  refine ⟨hyes, ?_⟩
  have hsince :=
    (hrun.upTo hts).since (D := Unit) (d := ()) (fun _ a => a.deleteConfirm = some user)
    (fun x _ => (∃ shift, x.input = .key (.char 'd') shift) ∧ x.before.screen = .profiles ∧
      ∃ p, highlighted x.before = some p ∧ p.user = user)
    (fun _ _ => ()) (act_moves fl) ?_ ?_ hask
  · obtain ⟨before, x, mid, -, hpre, ⟨hx, hxscreen, hp⟩, -, hmid⟩ := hsince
    refine ⟨before, x, mid, hpre, hx, hxscreen, hp, fun u hu => ?_⟩
    obtain ⟨⟨-, hbefore⟩, -, hafter⟩ := hmid u hu
    have hmem : u ∈ ts := by simp [hts, hpre, hu]
    have here := hasked u hmem user hbefore
    refine ⟨here, fun code shift hinput => ?_⟩
    rcases (hmoves u hmem).2.asked hinput here hbefore with ⟨hscroll, -⟩ | hcleared
    · exact hscroll
    · cases hcleared.symm.trans hafter
  · intro _ h
    cases hnone.symm.trans h
  · intro u hu _ hafter
    rcases hu.1.asking hafter with ⟨hinput, here, -, hp⟩ | hbefore
    · exact .inl ⟨hinput, here, hp⟩
    · exact .inr ⟨(), hbefore, rfl⟩

/-- A `d` on the only profile, with a tick before the answer. -/
def deleting : List Act := forward 4 ++ [press (.char 'd'), .tick true]

theorem deleted_at_once_ada :
    ∃ before x mid, (rehearsal none deleting).1 = before ++ x :: mid ∧
      (∃ shift, x.input = .key (.char 'd') shift) ∧ x.before.screen = .profiles ∧
      (∃ p, highlighted x.before = some p ∧ p.user = "ada") ∧
      ∀ u ∈ mid, u.before.screen = .profiles ∧
        ∀ code shift, u.input = .key code shift → (shift && scrolls code) = true :=
  (deleted_at_once fresh_opened (run_rehearsal none (deleting ++ [press (.char 'y')]))
    (rehearsal_concat none deleting (press (.char 'y')))
    (show (⟨.send (.deleteProfile "ada"), .ok (.profileDeleted "ada" 5)⟩ : Event console) ∈ _ by
      decide +kernel)).2

end Runs

/-! ## The way to PAM -/

def gated : List Screen := [.install, .doctor, .cameras, .enroll]

/-- Every gated step before the current one has been passed, its gate open. -/
def Passed (ts : List Round) (a : App) : Prop :=
  ∀ g ∈ gated, g ∈ ORDER.take (stepIndex a) →
    ∃ u ∈ ts, u.before.screen = g ∧ gate u.before = .ok ()

section Gates

variable {fl : FloatLib} {start a b : App} {i : Act} {es : List (Event console)} {c : Core}
  {ts pre post : List Round} {t : Round}

theorem stepIndex_congr (h : b.screen = a.screen) : stepIndex b = stepIndex a := by
  rw [stepIndex, h]
  rfl

private theorem take_idxOf {l skipped rest : List Screen} {s : Screen} {n : Nat} (hnodup : l.Nodup)
    (h : l.drop n = skipped ++ s :: rest) : l.take (l.idxOf s) = l.take n ++ skipped := by
  have hl : l = (l.take n ++ skipped) ++ s :: rest := by
    rw [List.append_assoc, ← h, List.take_append_drop]
  have hnot : s ∉ l.take n ++ skipped := by
    rw [hl] at hnodup
    intro hmem
    exact List.disjoint_of_nodup_append hnodup hmem List.mem_cons_self
  calc l.take (l.idxOf s) = l.take (l.take n ++ skipped).length := by
        conv_lhs => rw [hl, List.idxOf_append_of_notMem hnot, List.idxOf_cons_self, Nat.add_zero]
        rw [← hl]
    _ = ((l.take n ++ skipped) ++ s :: rest).take (l.take n ++ skipped).length := by rw [← hl]
    _ = l.take n ++ skipped := List.take_left

/-- What lies before a later step was before the current one, is the current one, or is not
gated. -/
theorem before_beyond {s g : Screen} (h : Beyond a s) (hs : b.screen = s) (hg : g ∈ gated)
    (hbefore : g ∈ ORDER.take (stepIndex b)) :
    g ∈ ORDER.take (stepIndex a) ∨ a.screen = g := by
  have hindex : stepIndex b = ORDER.idxOf s := by
    rw [stepIndex, hs, if_pos (mem_ORDER_of_beyond h)]
  obtain ⟨skipped, rest, hdrop, hskipped⟩ := h
  rw [hindex, take_idxOf (by decide) hdrop, List.mem_append] at hbefore
  rcases hbefore with hearlier | hskip
  · have hlt : stepIndex a < ORDER.length := by
      by_contra hge
      rw [List.drop_eq_nil_of_le (by omega)] at hdrop
      exact absurd (congrArg List.length hdrop) (by simp)
    rw [List.take_succ_eq_append_getElem hlt, List.mem_append, List.mem_singleton] at hearlier
    refine hearlier.imp_right fun hcurrent => ?_
    by_cases hmem : a.screen ∈ ORDER
    · have hidx : stepIndex a = ORDER.idxOf a.screen := if_pos hmem
      simp only [hidx] at hcurrent
      exact hcurrent.symm ▸ (List.getElem_idxOf _).symm
    · have hzero : stepIndex a = 0 := if_neg hmem
      simp only [hzero] at hcurrent
      rw [hcurrent, show ORDER[0] = .welcome from rfl] at hg
      exact absurd hg (by decide)
  · rw [hskipped g hskip] at hg
    exact absurd hg (by decide)

private theorem before_back {s g : Screen} (h : s ∈ ORDER.take (stepIndex a)) (hs : b.screen = s)
    (hbefore : g ∈ ORDER.take (stepIndex b)) : g ∈ ORDER.take (stepIndex a) := by
  have hindex : stepIndex b = ORDER.idxOf s := by
    rw [stepIndex, hs, if_pos (List.mem_of_mem_take h)]
  have hle : ORDER.idxOf s ≤ stepIndex a := by
    rw [← List.take_append_drop (stepIndex a) ORDER, List.idxOf_append_of_mem h]
    exact (List.idxOf_lt_length_of_mem h).le.trans (by simp)
  rw [hindex] at hbefore
  exact List.take_subset_take_left _ hle hbefore

theorem passed_step (h : Move fl a i es c) (hc : b.core = c) (ha : Passed ts a) :
    Passed (ts ++ [⟨a, i, es, b⟩]) b := by
  have hscreen : b.screen = c.screen := congrArg Core.screen hc
  have hkeep : ∀ g, (∃ u ∈ ts, u.before.screen = g ∧ gate u.before = .ok ()) →
      ∃ u ∈ ts ++ [⟨a, i, es, b⟩], u.before.screen = g ∧ gate u.before = .ok () := by
    intro g hu
    obtain ⟨u, hmem, hu⟩ := hu
    exact ⟨u, List.mem_append_left _ hmem, hu⟩
  intro g hg hbefore
  cases h with
  | @forward code shift s pw passed beyond arrived =>
      rcases before_beyond beyond hscreen hg hbefore with hearlier | hcurrent
      · exact hkeep g (ha g hg hearlier)
      · exact ⟨_, List.mem_append_right _ (List.mem_singleton_self _), hcurrent, passed⟩
  | @back code shift s pw before arrived =>
      exact hkeep g (ha g hg (before_back before hscreen hbefore))
  | toUninstall here =>
      rw [stepIndex, hscreen] at hbefore
      exact absurd hbefore List.not_mem_nil
  | leaveUninstall here ended =>
      rw [stepIndex, hscreen] at hbefore
      exact absurd hbefore List.not_mem_nil
  | _ =>
      rw [stepIndex_congr hscreen] at hbefore
      exact hkeep g (ha g hg hbefore)

/-- The operations that wire or unwire the module. -/
def wiresPam : Op → Bool
  | .pamEnable _ | .pamDisable => true
  | _ => false

theorem Move.wires (h : Move fl a i es c) {e : Event console} (hdone : e ∈ es)
    (hpam : wiresPam e.1 = true) : a.screen = .pam := by
  cases h with
  | wire answer here => exact here
  | unwire answer here => exact here
  | capture polled answer here state fine last after =>
      rcases List.mem_cons.1 hdone with rfl | hlast
      · cases hpam
      · rw [List.mem_singleton.1 hlast] at hpam
        cases hpam
  | _ => first
    | exact absurd hdone List.not_mem_nil
    | (rw [List.mem_singleton.1 hdone] at hpam
       cases hpam)

theorem Move.setsUp (h : Move fl a i es c) {user : String} {answer : Ans (.fingerprintEnable user)}
    (hdone : (⟨.fingerprintEnable user, answer⟩ : Event console) ∈ es) :
    a.pendingFpEnable = true := by
  cases h with
  | setupFingerprint answer' pending => exact pending
  | _ => simp at hdone

theorem Move.pending (h : Move fl a i es c) (hpending : c.pendingFpEnable = true) :
    (∃ shift, i = .key (.char 'e') shift) ∧ a.screen = .fingerprint ∨
      a.pendingFpEnable = true := by
  cases h with
  | askFingerprint here => exact .inl ⟨⟨_, rfl⟩, here⟩
  | setupFingerprint answer pending => cases hpending
  | _ => exact .inr hpending

/-- Each gated step was shown with its gate open. -/
def GatesPassed (ts : List Round) : Prop :=
  ∀ g ∈ gated, ∃ u ∈ ts, u.before.screen = g ∧ gate u.before = .ok ()

/-- A run that reaches a screen behind every gated step has passed them. -/
theorem gatesPassed_of_screen (hstart : Fresh start) (hrun : Run fl start ts a)
    (hbehind : ∀ g ∈ gated, g ∈ ORDER.take (stepIndex a)) : GatesPassed ts := by
  obtain ⟨user, huser⟩ := hstart.core
  have hpassed : Passed ts a := by
    apply hrun.history (P := Passed) (act_moves fl)
    · intro g hg hbefore
      have hwelcome : start.screen = .welcome := congrArg Core.screen huser
      rw [stepIndex, hwelcome] at hbefore
      exact absurd hbefore List.not_mem_nil
    · intro ts t h ha
      exact passed_step h.1 rfl ha
  exact fun g hg => hpassed g hg (hbehind g hg)

/-- PAM is wired or unwired only on the PAM screen, and the fingerprint setup, which wires its
own module, runs only after an `e` on the fingerprint screen: in both cases after every gated
step was shown with its gate open. The uninstaller, which unwires PAM, runs on its own screen
only. -/
theorem wired_after_gates (hstart : Fresh start) (hrun : Run fl start ts a)
    (hts : ts = pre ++ t :: post) :
    (∀ e ∈ t.heard, wiresPam e.1 = true → t.before.screen = .pam ∧ GatesPassed pre) ∧
    (∀ user (answer : Ans (.fingerprintEnable user)),
      (⟨.fingerprintEnable user, answer⟩ : Event console) ∈ t.heard →
      ∃ before x mid, pre = before ++ x :: mid ∧ (∃ shift, x.input = .key (.char 'e') shift) ∧
        x.before.screen = .fingerprint ∧ GatesPassed before) ∧
    ∀ rm (answer : Ans (.uninstall rm)),
      (⟨.uninstall rm, answer⟩ : Event console) ∈ t.heard → t.before.screen = .uninstall := by
  have hmove := (hrun.moves (act_moves fl) t (by simp [hts])).1
  refine ⟨fun e hdone hpam => ?_, fun user answer hdone => ?_, fun rm answer hdone => ?_⟩
  · have hscreen := hmove.wires hdone hpam
    refine ⟨hscreen, gatesPassed_of_screen hstart (hrun.upTo hts) ?_⟩
    rw [stepIndex, hscreen]
    decide
  · obtain ⟨first, hfirst⟩ := hstart.core
    have hsince := (hrun.upTo hts).since (D := Unit) (d := ())
      (fun _ a => a.pendingFpEnable = true)
      (fun x _ => (∃ shift, x.input = .key (.char 'e') shift) ∧ x.before.screen = .fingerprint)
      (fun _ _ => ()) (act_moves fl) ?_ ?_ (hmove.setsUp hdone)
    · obtain ⟨before, x, mid, -, hpre, ⟨hx, hscreen⟩, -, -⟩ := hsince
      have hbefore : ts = before ++ x :: (mid ++ t :: post) := by simp [hts, hpre]
      refine ⟨before, x, mid, hpre, hx, hscreen,
        gatesPassed_of_screen hstart (hrun.upTo hbefore) ?_⟩
      rw [stepIndex, hscreen]
      decide
    · intro _ h
      have hnone : start.pendingFpEnable = false := congrArg Core.pendingFpEnable hfirst
      cases hnone.symm.trans h
    · intro u hu _ hafter
      rcases hu.1.pending hafter with ⟨hinput, here⟩ | hbefore
      · exact .inl ⟨hinput, here⟩
      · exact .inr ⟨(), hbefore, rfl⟩
  · exact (hmove.uninstalls hdone).2.1

/-- The fingerprint setup, asked for on its screen, and the wiring of PAM two screens on. -/
def wiring : List Act := forward 8 ++ [press (.char 'e')]

theorem wired_after_gates_open :
    (∃ before x mid, (rehearsal none wiring).1 = before ++ x :: mid ∧
      (∃ shift, x.input = .key (.char 'e') shift) ∧ x.before.screen = .fingerprint ∧
      GatesPassed before) ∧
    GatesPassed (rehearsal none (wiring ++ [.flows, press .tab])).1 := by
  constructor
  · exact (wired_after_gates fresh_opened (run_rehearsal none (wiring ++ [.flows]))
      (rehearsal_concat none wiring .flows)).2.1 "ada" ()
      (show (⟨.fingerprintEnable "ada", ()⟩ : Event console) ∈ _ by decide +kernel)
  · exact ((wired_after_gates fresh_opened
      (run_rehearsal none (wiring ++ [.flows, press .tab] ++ [press (.char 'e')]))
      (rehearsal_concat none (wiring ++ [.flows, press .tab]) (press (.char 'e')))).1 _
      (show (⟨.pamEnable false, .ok ()⟩ : Event console) ∈ _ by decide +kernel) rfl).2

end Gates

end Linhello.Cli.Wizard
