import Linhello.Cli.Wizard
import Linhello.Effect.Sessions
/-!
# What the wizard can do

The part of the state that decides what the wizard does to the machine, and every way an
act can change it, with the operations that are heard. `act_moves` says that the wizard
makes these moves only.
-/

namespace Linhello.Cli.Wizard

open Common Effect Liveness

/-- The state that decides about operations. -/
structure Core where
  user : String
  screen : Screen
  activeProfile : String
  deleteConfirm : Option String
  enroll : EnrollState
  cal : CalState
  password : PasswordStep
  uninstall : UninstallState
  pendingFpEnable : Bool

def App.core (a : App) : Core where
  user := a.user
  screen := a.screen
  activeProfile := a.activeProfile
  deleteConfirm := a.deleteConfirm
  enroll := a.enroll
  cal := a.cal
  password := a.password
  uninstall := a.uninstall
  pendingFpEnable := a.pendingFpEnable

/-- The parts of a round. -/
inductive Act
  | key (code : Key) (shift : Bool)
  | flows
  | tick (second : Bool)

def act (fl : FloatLib) : Act → App → Ui App
  | .key code shift, a => onKey fl a code shift
  | .flows, a => pendingFlows a
  | .tick second, a => tick second a

/-- The operations that enroll, release, delete or rewire something, and the samples they
rest on. -/
def loud : Op → Bool
  | .uninstall _ | .pamEnable _ | .pamDisable | .fingerprintEnable _ | .writeKv _ _ _ => true
  | .send (.sealPassword _ _) | .send (.deleteProfile _) | .send (.enroll _ _)
  | .send .positionSample | .send (.verify _) => true
  | _ => false

def reported : Except String Response → Option PositionReport
  | .ok (.position report) => some report
  | _ => none

def scored : Except String Response → List Score
  | .ok (.verified _ score _) => [score]
  | _ => []

def edit : Key → String → String
  | .char c, s => s.push c
  | .backspace, s => pop s
  | _, s => s

def edits : Key → Bool
  | .char _ | .backspace => true
  | _ => false

/-- Steps that follow the current one, up to steps that may not apply. -/
def Beyond (a : App) (s : Screen) : Prop :=
  ∃ skipped rest, ORDER.drop (stepIndex a + 1) = skipped ++ s :: rest ∧
    ∀ x ∈ skipped, x = .password

/-- The password step once a screen has been entered. -/
def Arrived (s : Screen) (before after : PasswordStep) : Prop :=
  (s ≠ .password → after = before) ∧ (s = .password → ∀ first input, after ≠ .confirm first input)

def afterCapture (captured : Nat) : Except String Response → EnrollState → Prop
  | .ok (.enrolled _), e =>
      e = if captured + 1 ≥ ENROLL_TARGET then .done (captured + 1) else .framing (captured + 1) 0
  | _, e => ∃ msg, e = .failed msg

inductive Move (fl : FloatLib) (a : App) : Act → List (Event console) → Core → Prop
  | stay (act : Act) : Move fl a act [] a.core
  | forward {code : Key} {shift : Bool} {s : Screen} {pw : PasswordStep}
      (passed : gate a = .ok ()) (beyond : Beyond a s) (arrived : Arrived s a.password pw) :
      Move fl a (.key code shift) [] { a.core with screen := s, password := pw }
  | back {code : Key} {shift : Bool} {s : Screen} {pw : PasswordStep}
      (before : s ∈ ORDER.take (stepIndex a)) (arrived : Arrived s a.password pw) :
      Move fl a (.key code shift) [] { a.core with screen := s, password := pw }
  | toUninstall {shift : Bool} (here : a.screen = .welcome) :
      Move fl a (.key (.char 'u') shift) []
        { a.core with screen := .uninstall, uninstall := .idle true }
  | leaveUninstall {code : Key} {shift : Bool} {u : UninstallState} (here : a.screen = .uninstall)
      (ended : ∀ rm s, u ≠ .confirm rm s) :
      Move fl a (.key code shift) [] { a.core with screen := .welcome, uninstall := u }
  | toggleModels {shift : Bool} {rm : Bool} (here : a.screen = .uninstall)
      (state : a.uninstall = .idle rm) :
      Move fl a (.key (.char 'd') shift) [] { a.core with uninstall := .idle (!rm) }
  | arm {shift : Bool} {rm : Bool} (here : a.screen = .uninstall) (state : a.uninstall = .idle rm) :
      Move fl a (.key (.char 'x') shift) [] { a.core with uninstall := .confirm rm "" }
  | typeWord {code : Key} {shift : Bool} {rm : Bool} {s : String} (here : a.screen = .uninstall)
      (state : a.uninstall = .confirm rm s) (typed : edits code = true) :
      Move fl a (.key code shift) [] { a.core with uninstall := .confirm rm (edit code s) }
  | disarm {shift : Bool} {rm : Bool} {s : String} (here : a.screen = .uninstall)
      (state : a.uninstall = .confirm rm s) :
      Move fl a (.key .esc shift) [] { a.core with uninstall := .idle rm }
  | uninstallNow {shift : Bool} {rm : Bool} {s : String} {u : UninstallState}
      (answer : Ans (.uninstall rm)) (here : a.screen = .uninstall)
      (state : a.uninstall = .confirm rm s) (word : trim s = UNINSTALL_WORD)
      (ended : ∀ rm s, u ≠ .confirm rm s) :
      Move fl a (.key .enter shift) [⟨.uninstall rm, answer⟩] { a.core with uninstall := u }
  | select {shift : Bool} {p : ProfileInfo} (here : a.screen = .profiles)
      (chosen : highlighted a = some p) :
      Move fl a (.key (.char 's') shift) [] { a.core with activeProfile := p.user }
  | newTarget {shift : Bool} {name : String} (here : a.screen = .profiles)
      (valid : invalidName name = false) :
      Move fl a (.key .enter shift) [] { a.core with activeProfile := name }
  | askDelete {shift : Bool} {p : ProfileInfo} (here : a.screen = .profiles)
      (state : a.deleteConfirm = none) (chosen : highlighted a = some p) :
      Move fl a (.key (.char 'd') shift) [] { a.core with deleteConfirm := some p.user }
  | cancelDelete {code : Key} {shift : Bool} {user : String} (here : a.screen = .profiles)
      (state : a.deleteConfirm = some user) :
      Move fl a (.key code shift) [] { a.core with deleteConfirm := none }
  | deleteNow {code : Key} {shift : Bool} {user active : String}
      (answer : Ans (.send (.deleteProfile user))) (here : a.screen = .profiles)
      (state : a.deleteConfirm = some user) (yes : code = .char 'y' ∨ code = .char 'Y') :
      Move fl a (.key code shift) [⟨.send (.deleteProfile user), answer⟩]
        { a.core with deleteConfirm := none, activeProfile := active }
  | typePassword {code : Key} {shift : Bool} {s : String} (here : a.screen = .password)
      (state : a.password = .entry s) (typed : edits code = true) :
      Move fl a (.key code shift) [] { a.core with password := .entry (edit code s) }
  | clearPassword {code : Key} {shift : Bool} (here : a.screen = .password) :
      Move fl a (.key code shift) [] { a.core with password := .entry "" }
  | firstEntry {shift : Bool} {s : String} (here : a.screen = .password)
      (state : a.password = .entry s) (filled : s ≠ "") :
      Move fl a (.key .enter shift) [] { a.core with password := .confirm s "" }
  | retype {code : Key} {shift : Bool} {first s : String} (here : a.screen = .password)
      (state : a.password = .confirm first s) (typed : edits code = true) :
      Move fl a (.key code shift) [] { a.core with password := .confirm first (edit code s) }
  | sealNow {shift : Bool} {first : String} {pw : PasswordStep}
      (answer : Ans (.send (.sealPassword a.activeProfile (utf8 first))))
      (here : a.screen = .password) (state : a.password = .confirm first first)
      (ended : ∀ first s, pw ≠ .confirm first s) :
      Move fl a (.key .enter shift)
        [⟨.send (.sealPassword a.activeProfile (utf8 first)), answer⟩]
        { a.core with password := pw }
  | startEnroll {code : Key} {shift : Bool} (here : a.screen = .enroll)
      (idle : canStart a.enroll = true) (start : code = .enter ∨ code = .char 'c') :
      Move fl a (.key code shift) [] { a.core with enroll := .framing 0 0 }
  | framed {second : Bool} {captured streak : Nat} (answer : Ans (.send .positionSample))
      (here : a.screen = .enroll) (state : a.enroll = .framing captured streak)
      (fine : good (reported answer) = true) :
      Move fl a (.tick second) [⟨.send .positionSample, answer⟩]
        { a.core with enroll := if streak + 1 ≥ ENROLL_STREAK then .countdown captured 3
                                else .framing captured (streak + 1) }
  | countedDown {second : Bool} {captured left : Nat} (answer : Ans (.send .positionSample))
      (here : a.screen = .enroll) (state : a.enroll = .countdown captured left)
      (fine : good (reported answer) = true) (more : ¬ left ≤ 1) :
      Move fl a (.tick second) [⟨.send .positionSample, answer⟩]
        { a.core with enroll := .countdown captured (left - 1) }
  | lostFrame {second : Bool} {captured : Nat} (answer : Ans (.send .positionSample))
      (here : a.screen = .enroll)
      (state : (∃ streak, a.enroll = .framing captured streak) ∨
        ∃ left, a.enroll = .countdown captured left)
      (lost : good (reported answer) = false) :
      Move fl a (.tick second) [⟨.send .positionSample, answer⟩]
        { a.core with enroll := .framing captured 0 }
  | capture {second : Bool} {captured left : Nat} {e : EnrollState}
      (polled : Ans (.send .positionSample))
      (answer : Ans (.send (.enroll a.activeProfile false))) (here : a.screen = .enroll)
      (state : a.enroll = .countdown captured left) (fine : good (reported polled) = true)
      (last : left ≤ 1) (after : afterCapture captured answer e) :
      Move fl a (.tick second)
        [⟨.send .positionSample, polled⟩, ⟨.send (.enroll a.activeProfile false), answer⟩]
        { a.core with enroll := e }
  | startCalibration {shift : Bool} (here : a.screen = .calibrate)
      (fresh : ∀ scores attempts, a.cal ≠ .sampling scores attempts) :
      Move fl a (.key (.char 'c') shift) [] { a.core with cal := .sampling [] 0 }
  | sampled {second : Bool} {scores : List Score} {attempts : Nat}
      (answer : Ans (.send (.verify a.user))) (here : a.screen = .calibrate)
      (state : a.cal = .sampling scores attempts) :
      Move fl a (.tick second) [⟨.send (.verify a.user), answer⟩]
        { a.core with cal := calibrated (scores ++ scored answer) (attempts + 1) }
  | typeThreshold {code : Key} {shift : Bool} {scores : List Score} {rec : ℚ} {s s' : String}
      (here : a.screen = .calibrate) (state : a.cal = .review scores rec s) :
      Move fl a (.key code shift) [] { a.core with cal := .review scores rec s' }
  | saveThreshold {shift : Bool} {scores : List Score} {rec : ℚ} {s : String} {cal : CalState}
      (answer : Ans (.writeKv "settings.conf" "match_threshold"
        (fl.fixed 2 (chosenThreshold fl rec s))))
      (here : a.screen = .calibrate) (state : a.cal = .review scores rec s)
      (after : cal = a.cal ∨ cal = .saved (chosenThreshold fl rec s)) :
      Move fl a (.key .enter shift)
        [⟨.writeKv "settings.conf" "match_threshold" (fl.fixed 2 (chosenThreshold fl rec s)),
          answer⟩] { a.core with cal := cal }
  | wire {code : Key} {shift withSudo : Bool} (answer : Ans (.pamEnable withSudo))
      (here : a.screen = .pam) :
      Move fl a (.key code shift) [⟨.pamEnable withSudo, answer⟩] a.core
  | unwire {shift : Bool} (answer : Ans .pamDisable) (here : a.screen = .pam) :
      Move fl a (.key (.char 'd') shift) [⟨.pamDisable, answer⟩] a.core
  | askFingerprint {shift : Bool} (here : a.screen = .fingerprint) :
      Move fl a (.key (.char 'e') shift) [] { a.core with pendingFpEnable := true }
  | setupFingerprint (answer : Ans (.fingerprintEnable a.activeProfile))
      (pending : a.pendingFpEnable = true) :
      Move fl a .flows [⟨.fingerprintEnable a.activeProfile, answer⟩]
        { a.core with pendingFpEnable := false }

/-! ## Parts that are not heard -/

section Heard

variable {α : Type} {T : List (Event console) → α → Prop} {o : Op} {f : Ans o → Ui α}

theorem heard_op_quiet (ho : loud o = false) (h : ∀ r, (f r).Heard loud T) :
    (perform o >>= f).Heard loud T := heard_quiet ho h

theorem heard_op_loud (ho : loud o = true)
    (h : ∀ r, (f r).Heard loud fun es a => T (⟨o, r⟩ :: es) a) :
    (perform o >>= f).Heard loud T := heard_loud ho h

end Heard

/-- The program is not heard and leaves the core as it is. -/
def Silent (a : App) (p : Ui App) : Prop :=
  p.Heard loud fun es b => es = [] ∧ b.core = a.core

theorem silent_pure {a b : App} (h : b.core = a.core) : Silent a (pure b) := heard_pure ⟨rfl, h⟩

theorem silent_op {a : App} {o : Op} {f : Ans o → Ui App} (ho : loud o = false)
    (h : ∀ r, Silent a (f r)) : Silent a (perform o >>= f) := heard_op_quiet ho h

theorem Silent.of_core {a b : App} {p : Ui App} (h : Silent b p) (hcore : b.core = a.core) :
    Silent a p :=
  h.imp fun _ _ hes => ⟨hes.1, hes.2.trans hcore⟩

theorem silent_refreshProfiles (a : App) : Silent a (refreshProfiles a) := by
  apply silent_op rfl
  intro r
  split
  · exact silent_pure rfl
  · exact silent_pure rfl

theorem silent_refreshProbe (a : App) : Silent a (refreshProbe a) := by
  apply silent_op rfl
  intro r
  rcases r with e | r
  · exact silent_op rfl fun _ => silent_pure rfl
  · cases r <;> exact silent_op rfl fun _ => silent_pure rfl

/-- Entering any screen but the password step leaves the core as it is. -/
theorem arrived_same {a b : App} (hs : a.screen ≠ .password) (hcore : b.core = a.core) :
    ∃ pw, Arrived a.screen a.password pw ∧ b.core = { a.core with password := pw } :=
  ⟨a.password, ⟨fun _ => rfl, fun h => absurd h hs⟩, hcore⟩

/-- The program enters the screen of its state. -/
def Enters (a : App) (p : Ui App) : Prop :=
  p.Heard loud fun es b =>
    es = [] ∧ ∃ pw, Arrived a.screen a.password pw ∧ b.core = { a.core with password := pw }

theorem Silent.enters {a : App} {p : Ui App} (h : Silent a p) (hs : a.screen ≠ .password) :
    Enters a p :=
  h.imp fun _ _ hes => ⟨hes.1, arrived_same hs hes.2⟩

theorem enters_pure {a b : App} {pw : PasswordStep} (hs : a.screen = .password)
    (hpw : ∀ first input, pw ≠ .confirm first input)
    (hcore : b.core = { a.core with password := pw }) : Enters a (pure b) :=
  heard_pure ⟨rfl, pw, ⟨fun h => absurd hs h, fun _ => hpw⟩, hcore⟩

theorem core_password {a b : App} (h : b.core = a.core) (pw : PasswordStep) :
    ({ b with password := pw } : App).core = { a.core with password := pw } := by
  rw [← h]
  rfl

theorem enters_onEnter (a : App) : Enters a (onEnter a) := by
  refine heard_op_quiet rfl fun install => ?_
  simp only
  split
  next hs => exact ((silent_refreshProbe _).of_core rfl).enters (by simp [hs])
  next hs => exact Silent.enters (silent_op rfl fun _ => silent_pure rfl) (by simp [hs])
  next hs => exact ((silent_refreshProfiles _).of_core rfl).enters (by simp [hs])
  next hs =>
    refine heard_after (Q := fun b : App => b.core = a.core)
      ((silent_refreshProfiles _).of_core rfl) fun b hb => ?_
    split
    · exact enters_pure hs (by simp) (core_password hb .sealed)
    · split
      next input hentry =>
        refine enters_pure hs (by simp : ∀ s t, PasswordStep.entry input ≠ .confirm s t) ?_
        rw [← hentry, ← hb]
        rfl
      · exact enters_pure hs (by simp) (core_password hb (.entry ""))
  next hs =>
    refine Silent.enters (silent_op rfl fun u => ?_) (by simp [hs])
    split
    · exact silent_pure rfl
    · exact silent_op rfl fun _ => silent_pure rfl
  next hs => exact Silent.enters (silent_op rfl fun _ => silent_pure rfl) (by simp [hs])
  next h₁ h₂ h₃ h₄ h₅ h₆ => exact Silent.enters (silent_pure rfl) h₄

/-! ## Moving between screens -/

private theorem heard_firstApplicable (screens : List Screen) :
    (firstApplicable screens).Heard loud fun es r => es = [] ∧ ∀ s, r = some s →
      ∃ skipped rest, screens = skipped ++ s :: rest ∧ ∀ x ∈ skipped, x = .password := by
  induction screens with
  | nil => exact heard_pure ⟨rfl, fun s hs => by cases hs⟩
  | cons x rest ih =>
      have hfound : ∀ s, some x = some s → ∃ skipped after, x :: rest = skipped ++ s :: after ∧
          ∀ y ∈ skipped, y = .password := by
        intro s hs
        cases hs
        exact ⟨[], rest, rfl, fun y hy => absurd hy List.not_mem_nil⟩
      by_cases hx : x = .password
      · subst hx
        refine heard_op_quiet rfl fun ir => ?_
        simp only
        split
        · exact heard_pure ⟨rfl, hfound⟩
        · refine ih.imp fun es r hr => ⟨hr.1, fun s hs => ?_⟩
          obtain ⟨skipped, after, hrest, hskipped⟩ := hr.2 s hs
          refine ⟨.password :: skipped, after, by rw [hrest]; rfl, ?_⟩
          intro y hy
          rcases List.mem_cons.1 hy with hhead | htail
          · exact hhead
          · exact hskipped y htail
      · have happlies : firstApplicable (x :: rest) = pure (some x) := by
          cases x <;> first | rfl | exact absurd rfl hx
        rw [happlies]
        exact heard_pure ⟨rfl, hfound⟩

theorem heard_goTo (screens : List Screen) (a : App) :
    (goTo screens a).Heard loud fun es b => es = [] ∧ (b.core = a.core ∨
      ∃ s pw, (∃ skipped rest, screens = skipped ++ s :: rest ∧ ∀ x ∈ skipped, x = .password) ∧
        Arrived s a.password pw ∧ b.core = { a.core with screen := s, password := pw }) := by
  refine heard_after (heard_firstApplicable screens) fun r hr => ?_
  cases r with
  | none => exact heard_pure ⟨rfl, .inl rfl⟩
  | some s =>
      refine (enters_onEnter { a with screen := s }).imp fun es b hb => ⟨hb.1, .inr ?_⟩
      obtain ⟨pw, harrived, hcore⟩ := hb.2
      exact ⟨s, pw, hr s rfl, harrived, hcore⟩

/-- The program makes one move of the act from the state. -/
def Makes (fl : FloatLib) (a : App) (act : Act) (p : Ui App) : Prop :=
  p.Heard loud fun es b => Move fl a act es b.core

section Makes

variable {fl : FloatLib} {a : App} {code : Key} {shift : Bool}

theorem makes_pure {act : Act} {b : App} (h : Move fl a act [] b.core) : Makes fl a act (pure b) :=
  heard_pure h

theorem Silent.makes {act : Act} {p : Ui App} (h : Silent a p) : Makes fl a act p :=
  h.imp fun es b hes => by
    rw [hes.1, hes.2]
    exact .stay act

theorem makes_stay {act : Act} {b : App} (h : b.core = a.core) : Makes fl a act (pure b) :=
  (silent_pure h).makes

/-- What is not heard changes nothing about the move before it. -/
theorem Makes.then_silent {act : Act} {p : Ui App} {f : App → Ui App} (h : Makes fl a act p)
    (hf : ∀ b, Silent b (f b)) : Makes fl a act (p >>= f) := by
  refine heard_bind (R := fun es (b : App) => Move fl a act es b.core) h fun es b hb => ?_
  refine (hf b).imp fun es' c hc => ?_
  rw [hc.1, hc.2, List.append_nil]
  exact hb

theorem makes_next : Makes fl a (.key code shift) (next a) := by
  unfold next
  split
  · exact makes_stay rfl
  next hgate =>
    refine (heard_goTo _ a).imp fun es b hb => ?_
    rw [hb.1]
    rcases hb.2 with hsame | ⟨s, pw, hbeyond, harrived, hcore⟩
    · rw [hsame]
      exact .stay _
    · rw [hcore]
      exact .forward hgate hbeyond harrived

theorem makes_prev : Makes fl a (.key code shift) (prev a) := by
  refine (heard_goTo _ a).imp fun es b hb => ?_
  rw [hb.1]
  rcases hb.2 with hsame | ⟨s, pw, ⟨skipped, rest, hscreens, -⟩, harrived, hcore⟩
  · rw [hsame]
    exact .stay _
  · rw [hcore]
    have hmem : s ∈ (ORDER.take (stepIndex a)).reverse := by simp [hscreens]
    exact .back (List.mem_reverse.1 hmem) harrived

/-! ## Keys -/

theorem silent_copyModels (dir input : String) (log : List String) :
    Silent a (copyModels a dir input log) := by
  refine silent_op rfl fun r => ?_
  split
  · exact silent_op rfl fun _ => silent_op rfl fun _ => silent_pure rfl
  · exact silent_pure rfl

theorem makes_installKey : Makes fl a (.key code shift) (installKey a code) := by
  unfold installKey
  split
  · split
    · refine Silent.makes (silent_op rfl fun r => ?_)
      split
      · refine silent_op rfl fun install => ?_
        simp only
        split
        · exact silent_pure rfl
        · refine silent_op rfl fun dir => ?_
          split
          · exact (silent_copyModels _ _ _).of_core rfl
          · exact silent_pure rfl
      · exact silent_pure rfl
    · exact makes_stay rfl
    · exact makes_next
    · exact makes_prev
    · exact makes_stay rfl
  · split
    · exact makes_stay rfl
    · exact makes_stay rfl
    · exact makes_stay rfl
    · exact (silent_copyModels _ _ _).makes
    · exact makes_stay rfl
  · split
    · exact makes_stay rfl
    · exact makes_next
    · exact makes_prev
    · exact makes_stay rfl

theorem makes_profilesKey (here : a.screen = .profiles) (state : a.deleteConfirm = none) :
    Makes fl a (.key code shift) (profilesKey a code) := by
  unfold profilesKey
  split
  · exact makes_stay rfl
  · exact makes_stay rfl
  · split
    next p hp => exact makes_pure (.select here hp)
    · exact makes_stay rfl
  · exact makes_stay rfl
  · split
    · exact makes_stay rfl
    · exact makes_stay rfl
  · split
    next p hp => exact makes_pure (.askDelete here state hp)
    · exact makes_stay rfl
  · exact (silent_refreshProfiles a).makes
  · exact makes_next
  · exact makes_prev
  · exact makes_stay rfl

theorem makes_nameEditKey (buf : String) :
    Makes fl a (.key code shift) (nameEditKey a buf code) := by
  unfold nameEditKey
  split
  · exact makes_stay rfl
  · exact makes_stay rfl
  · exact makes_stay rfl
  · simp only
    split
    · refine Silent.makes (silent_op rfl fun r => ?_)
      split
      · exact (silent_refreshProfiles _).of_core rfl
      · exact silent_pure rfl
    · exact makes_stay rfl
  · exact makes_stay rfl

theorem makes_newProfileEditKey (here : a.screen = .profiles) (buf : String) :
    Makes fl a (.key code shift) (newProfileEditKey a buf code) := by
  unfold newProfileEditKey
  split
  · exact makes_stay rfl
  · exact makes_stay rfl
  · exact makes_stay rfl
  · split
    · exact makes_stay rfl
    next hvalid => exact makes_pure (.newTarget here (Bool.eq_false_iff.2 hvalid))
  · exact makes_stay rfl

theorem makes_deleteConfirmKey {user : String} (here : a.screen = .profiles)
    (state : a.deleteConfirm = some user) :
    Makes fl a (.key code shift) (deleteConfirmKey a user code) := by
  unfold deleteConfirmKey
  split
  next hyes =>
    rw [Bool.or_eq_true, beq_iff_eq, beq_iff_eq] at hyes
    refine heard_op_loud rfl fun answer => ?_
    split
    · refine (silent_refreshProfiles _).imp fun es b hb => ?_
      rw [hb.1, hb.2]
      exact .deleteNow _ here state hyes
    · exact heard_pure (.deleteNow _ here state hyes)
  · exact makes_pure (.cancelDelete here state)

theorem makes_identifyKey : Makes fl a (.key code shift) (identifyKey a code) := by
  unfold identifyKey
  split
  · split <;> exact makes_stay rfl
  · split <;> exact makes_stay rfl
  · exact makes_next
  · exact makes_prev
  · exact makes_stay rfl

private theorem sealedStep_ne_confirm (answer : Except String Response) (first s : String) :
    sealedStep answer ≠ .confirm first s := by
  unfold sealedStep
  split <;> simp

theorem makes_passwordKey (here : a.screen = .password) :
    Makes fl a (.key code shift) (passwordKey a code) := by
  unfold passwordKey
  split
  next input state =>
    split
    · exact makes_pure (.typePassword here state rfl)
    · exact makes_pure (.typePassword here state rfl)
    · exact makes_pure (.clearPassword here)
    · split
      · exact makes_stay rfl
      next hfilled => exact makes_pure (.firstEntry here state hfilled)
    · exact makes_stay rfl
  next first input state =>
    split
    · exact makes_pure (.retype here state rfl)
    · exact makes_pure (.retype here state rfl)
    · exact makes_pure (.clearPassword here)
    · split
      · exact makes_pure (.clearPassword here)
      next hsame =>
        rw [of_not_not hsame] at state
        refine heard_op_loud rfl fun answer => ?_
        split
        · refine heard_op_quiet rfl fun install => heard_pure ?_
          exact .sealNow _ here state (by simp)
        · exact heard_pure (.sealNow _ here state (sealedStep_ne_confirm _))
    · exact makes_stay rfl
  · split
    · exact makes_pure (.clearPassword here)
    · exact makes_next
    · exact makes_prev
    · exact makes_stay rfl

theorem makes_uninstallKey (here : a.screen = .uninstall) :
    Makes fl a (.key code shift) (uninstallKey a code) := by
  have hleave : ∀ u, (∀ rm s, u ≠ .confirm rm s) →
      Makes fl a (.key code shift) (onEnter { a with screen := .welcome, uninstall := u }) := by
    intro u hu
    refine (enters_onEnter { a with screen := .welcome, uninstall := u }).imp fun es b hb => ?_
    obtain ⟨pw, harrived, hcore⟩ := hb.2
    have hpw : pw = a.password := harrived.1 (by simp)
    rw [hb.1, hcore, hpw]
    exact .leaveUninstall here hu
  unfold uninstallKey
  split
  next rm state =>
    split
    · exact makes_pure (.toggleModels here state)
    · exact makes_pure (.arm here state)
    · have hsame : { a with screen := .welcome } =
          { a with screen := .welcome, uninstall := .idle rm } := by rw [← state]
      rw [hsame]
      exact hleave _ (by simp)
    · exact makes_stay rfl
  next rm input state =>
    split
    · exact makes_pure (.typeWord here state rfl)
    · exact makes_pure (.typeWord here state rfl)
    · exact makes_pure (.disarm here state)
    · split
      next hword =>
        refine heard_op_loud rfl fun answer => ?_
        split
        · refine heard_op_quiet rfl fun install => heard_pure ?_
          exact .uninstallNow _ here state hword (by simp)
        · exact heard_pure (.uninstallNow _ here state hword (by simp))
      · exact makes_stay rfl
    · exact makes_stay rfl
  · split
    · exact hleave _ (by simp)
    · exact makes_stay rfl

theorem makes_enrollKey (here : a.screen = .enroll) :
    Makes fl a (.key code shift) (enrollKey a code) := by
  unfold enrollKey
  split
  · split
    next hidle => exact makes_pure (.startEnroll here hidle (.inl rfl))
    · exact makes_stay rfl
  · split
    next hidle => exact makes_pure (.startEnroll here hidle (.inr rfl))
    · exact makes_stay rfl
  · exact makes_next
  · exact makes_prev
  · exact makes_stay rfl

theorem makes_pamKey (here : a.screen = .pam) :
    Makes fl a (.key code shift) (pamKey a code) := by
  unfold pamKey
  split
  · refine heard_op_loud rfl fun answer => ?_
    refine heard_op_quiet rfl fun _ => heard_op_quiet rfl fun install => heard_pure ?_
    exact .wire _ here
  · refine heard_op_loud rfl fun answer => ?_
    refine heard_op_quiet rfl fun _ => heard_op_quiet rfl fun install => heard_pure ?_
    exact .wire _ here
  · exact makes_stay rfl
  · refine heard_op_loud rfl fun answer => ?_
    refine heard_op_quiet rfl fun _ => heard_op_quiet rfl fun install => heard_pure ?_
    exact .unwire _ here
  · exact makes_next
  · exact makes_prev
  · exact makes_stay rfl

private theorem silent_saveCameras : Silent a (saveCameras a) := by
  unfold saveCameras
  split
  · exact silent_pure rfl
  · refine silent_op rfl fun r => ?_
    split
    · exact silent_op rfl fun _ => silent_pure rfl
    · exact silent_pure rfl

theorem makes_camerasKey : Makes fl a (.key code shift) (camerasKey a code) := by
  unfold camerasKey
  split
  · exact makes_stay rfl
  · exact makes_stay rfl
  · split <;> exact makes_stay rfl
  · split <;> exact makes_stay rfl
  · exact makes_stay rfl
  · exact silent_saveCameras.makes
  · exact makes_next
  · exact makes_prev
  · exact makes_stay rfl

theorem makes_calibrateKey (here : a.screen = .calibrate) :
    Makes fl a (.key code shift) (calibrateKey fl a code) := by
  unfold calibrateKey
  split
  · exact makes_stay rfl
  next scores rec input state =>
    split
    · split
      · exact makes_pure (.typeThreshold here state)
      · exact makes_stay rfl
    · exact makes_pure (.typeThreshold here state)
    · refine heard_op_loud rfl fun answer => ?_
      split
      · exact heard_op_quiet rfl fun _ => heard_pure (.saveThreshold _ here state (.inr rfl))
      · exact heard_pure (.saveThreshold _ here state (.inl rfl))
    · exact makes_stay rfl
  next hfresh _ =>
    split
    · exact makes_pure (.startCalibration here hfresh)
    · exact makes_next
    · exact makes_prev
    · exact makes_stay rfl

theorem makes_fingerprintKey (here : a.screen = .fingerprint) :
    Makes fl a (.key code shift) (fingerprintKey a code) := by
  unfold fingerprintKey
  split
  · refine heard_op_quiet rfl fun r => ?_
    split
    · exact heard_pure (.askFingerprint here)
    · exact heard_pure (.stay _)
  · exact makes_stay rfl

theorem makes_doctorKey : Makes fl a (.key code shift) (doctorKey a code) := by
  unfold doctorKey
  split
  · exact makes_stay rfl
  · exact makes_stay rfl
  · exact makes_stay rfl
  · exact makes_stay rfl
  · exact (silent_refreshProbe a).makes
  · exact Silent.makes (silent_op rfl fun _ => silent_refreshProbe a)
  · exact makes_next
  · exact makes_next
  · exact makes_prev
  · exact makes_stay rfl

theorem makes_plainKey : Makes fl a (.key code shift) (plainKey a code) := by
  unfold plainKey
  split
  · exact makes_next
  · exact makes_next
  · exact makes_prev
  · exact makes_stay rfl

theorem makes_screenKey (state : a.deleteConfirm = none ∨ a.screen ≠ .profiles) :
    Makes fl a (.key code shift) (screenKey fl a code) := by
  unfold screenKey
  split
  next here =>
    split
    next hu =>
      rw [eq_of_beq hu]
      split
      · exact makes_pure (.toUninstall here)
      · exact makes_stay rfl
    · exact makes_plainKey
  · exact makes_installKey
  · exact makes_camerasKey
  next here => exact makes_profilesKey here (state.resolve_right fun h => h here)
  next here => exact makes_calibrateKey here
  next here => exact makes_enrollKey here
  · exact makes_identifyKey
  next here => exact makes_passwordKey here
  next here => exact makes_pamKey here
  next here => exact makes_fingerprintKey here
  · exact makes_doctorKey
  · split
    · exact makes_stay rfl
    · exact makes_plainKey
  · exact makes_plainKey

private theorem makes_textKey {p : Ui App} (h : textKey a code = some p) :
    Makes fl a (.key code shift) p := by
  unfold textKey at h
  split at h
  next here =>
    split at h
    · cases h
      exact makes_nameEditKey _
    · cases h
      exact makes_newProfileEditKey here _
    · cases h
  · split at h
    · cases h
      exact makes_installKey
    · cases h
  next here =>
    split at h
    · cases h
      exact makes_passwordKey here
    · cases h
      exact makes_passwordKey here
    · cases h
  · cases h

theorem makes_onKey : Makes fl a (.key code shift) (onKey fl a code shift) := by
  unfold onKey
  split
  · exact makes_stay rfl
  · split
    next here => exact makes_uninstallKey here
    · split
      next here state => exact makes_deleteConfirmKey here state
      next hmodal =>
        split
        · exact makes_next
        · exact makes_next
        · exact makes_prev
        · exact makes_prev
        · split
          next handled htext => exact makes_textKey htext
          · split
            · exact makes_stay rfl
            · apply makes_screenKey
              by_cases here : a.screen = .profiles
              · left
                cases hdelete : a.deleteConfirm with
                | none => rfl
                | some user => exact absurd hdelete (hmodal user here)
              · exact .inr here

/-! ## Ticks -/

theorem silent_pollLive : Silent a (pollLive a) := by
  refine silent_op rfl fun install => silent_op rfl fun cameras => ?_
  simp only
  split
  · exact (silent_refreshProbe _).of_core rfl
  · exact (silent_refreshProfiles _).of_core rfl
  · exact silent_op rfl fun _ => silent_pure rfl
  · exact silent_pure rfl

theorem pollPosition_eq : pollPosition = (do
    let answer ← perform (.send .positionSample)
    pure (reported answer) : Ui (Option PositionReport)) := by
  apply congrArg (Program.call _)
  funext answer
  rcases answer with e | r
  · rfl
  · cases r <;> rfl

theorem makes_tickEnroll {second : Bool} (here : a.screen = .enroll) :
    Makes fl a (.tick second) (tickEnroll a) := by
  unfold tickEnroll
  split
  next captured streak state =>
    rw [pollPosition_eq]
    refine heard_op_loud rfl fun answer => heard_pure ?_
    cases hgood : good (reported answer) with
    | true => exact .framed answer here state hgood
    | false => exact .lostFrame answer here (.inl ⟨streak, state⟩) hgood
  next captured left state =>
    rw [pollPosition_eq]
    refine heard_op_loud rfl fun polled => ?_
    change (ite _ _ _ : Ui App).Heard _ _
    cases hgood : good (reported polled) with
    | false => exact heard_pure (.lostFrame polled here (.inr ⟨left, state⟩) hgood)
    | true =>
        rw [if_neg (by simp)]
        split
        next hlast =>
          refine heard_op_loud rfl fun answer => ?_
          rcases answer with e | r
          · exact heard_pure (.capture polled _ here state hgood hlast ⟨e, rfl⟩)
          · cases r
            case enrolled n =>
              change (ite _ _ _ : Ui App).Heard _ _
              split
              next hfull =>
                refine heard_op_quiet rfl fun install => heard_pure ?_
                exact .capture polled _ here state hgood hlast (if_pos hfull).symm
              next hmore =>
                exact heard_pure (.capture polled _ here state hgood hlast (if_neg hmore).symm)
            case error msg =>
              exact heard_pure (.capture polled _ here state hgood hlast ⟨msg, rfl⟩)
            all_goals
              exact heard_pure (.capture polled _ here state hgood hlast ⟨_, rfl⟩)
        next hmore => exact heard_pure (.countedDown polled here state hgood hmore)
  · exact makes_stay rfl

theorem silent_tickIdentify : Silent a (tickIdentify a) := by
  unfold tickIdentify
  split
  · refine silent_op rfl fun answer => ?_
    rcases answer with e | r
    · exact silent_pure rfl
    · cases r <;> exact silent_pure rfl
  · exact silent_pure rfl

theorem makes_tickCalibrate {second : Bool} (here : a.screen = .calibrate) :
    Makes fl a (.tick second) (tickCalibrate a) := by
  unfold tickCalibrate
  split
  next scores attempts state =>
    refine heard_op_loud rfl fun answer => ?_
    have hsampled : Move fl a (.tick second) _ _ := Move.sampled answer here state
    rcases answer with e | r
    · rw [show scored (.error e) = [] from rfl, List.append_nil] at hsampled
      exact heard_pure hsampled
    · cases r
      case verified m score threshold => exact heard_pure hsampled
      all_goals
        simp only [scored, List.append_nil] at hsampled
        exact heard_pure hsampled
  · exact makes_stay rfl

theorem Move.of_core {b : App} {second : Bool} {es : List (Event console)} {c : Core}
    (h : Move fl b (.tick second) es c) (hcore : b.core = a.core) :
    Move fl a (.tick second) es c := by
  cases a
  cases b
  simp only [App.core, Core.mk.injEq] at hcore
  obtain ⟨rfl, rfl, rfl, rfl, rfl, rfl, rfl, rfl, rfl⟩ := hcore
  cases h with
  | stay act => exact .stay _
  | framed answer here state fine => exact .framed answer here state fine
  | countedDown answer here state fine more => exact .countedDown answer here state fine more
  | lostFrame answer here state lost => exact .lostFrame answer here state lost
  | capture polled answer here state fine last after =>
      apply Move.capture <;> assumption
  | sampled answer here state => apply Move.sampled <;> assumption

theorem makes_tickScreen {second : Bool} : Makes fl a (.tick second) (tickScreen a) := by
  unfold tickScreen
  split
  next here => exact makes_tickEnroll here
  · exact silent_tickIdentify.makes
  next here => exact makes_tickCalibrate here
  · exact makes_stay rfl

theorem makes_tick {second : Bool} : Makes fl a (.tick second) (tick second a) := by
  unfold tick
  split
  · refine heard_after silent_pollLive fun b hb => ?_
    exact makes_tickScreen.imp fun es c hc => hc.of_core hb
  · exact makes_tickScreen

theorem makes_fingerprintFlow : Makes fl a .flows (fingerprintFlow a) := by
  unfold fingerprintFlow
  split
  next pending =>
    refine heard_op_loud rfl fun answer => heard_op_quiet rfl fun _ => heard_pure ?_
    exact .setupFingerprint answer pending
  · exact makes_stay rfl

theorem silent_platformFlow : Silent a (platformFlow a) := by
  unfold platformFlow
  split
  · exact silent_op rfl fun _ => silent_op rfl fun _ => silent_op rfl fun _ => silent_pure rfl
  · exact silent_pure rfl

private theorem silent_recoveryFlow : Silent a (recoveryFlow a) := by
  unfold recoveryFlow
  split
  · exact silent_op rfl fun _ => silent_pure rfl
  · exact silent_pure rfl

theorem makes_pendingFlows : Makes fl a .flows (pendingFlows a) := by
  have hboth : Makes fl a .flows (fingerprintFlow a >>= platformFlow) :=
    makes_fingerprintFlow.then_silent fun b => silent_platformFlow
  exact hboth.then_silent fun b => silent_recoveryFlow

end Makes

/-! ## Open lines and questions -/

/-- What a key does while a line of text or a question is open. -/
structure Modal (a : App) (i : Act) (c : Core) : Prop where
  word : ∀ {code shift rm s}, i = .key code shift → edits code = true → a.screen = .uninstall →
    a.uninstall = .confirm rm s → c.uninstall = .confirm rm (edit code s)
  again : ∀ {code shift first s}, i = .key code shift → edits code = true →
    a.screen = .password → a.password = .confirm first s →
    c.password = .confirm first (edit code s)
  asked : ∀ {code shift user}, i = .key code shift → a.screen = .profiles →
    a.deleteConfirm = some user → (shift && scrolls code) = true ∧ c = a.core ∨
      c.deleteConfirm = none

section Modal

variable {fl : FloatLib} {a : App} {code : Key} {shift : Bool}

theorem onKey_word {rm : Bool} {s : String} (typed : edits code = true)
    (here : a.screen = .uninstall) (state : a.uninstall = .confirm rm s) :
    onKey fl a code shift = pure { a with uninstall := .confirm rm (edit code s) } := by
  cases code with
  | char c => simp [onKey, scrolls, here, uninstallKey, state, edit]
  | backspace => simp [onKey, scrolls, here, uninstallKey, state, edit]
  | _ => exact absurd typed (by decide)

theorem onKey_again {first s : String} (typed : edits code = true)
    (here : a.screen = .password) (state : a.password = .confirm first s) :
    onKey fl a code shift = pure { a with password := .confirm first (edit code s) } := by
  cases code with
  | char c => simp [onKey, scrolls, here, textKey, passwordKey, state, edit]
  | backspace => simp [onKey, scrolls, here, textKey, passwordKey, state, edit]
  | _ => exact absurd typed (by decide)

private theorem heard_asked {user : String} (here : a.screen = .profiles)
    (state : a.deleteConfirm = some user) :
    (onKey fl a code shift).Heard loud fun _ b =>
      (shift && scrolls code) = true ∧ b.core = a.core ∨ b.core.deleteConfirm = none := by
  unfold onKey
  split
  next hscroll => exact heard_pure (.inl ⟨hscroll, rfl⟩)
  · rw [if_neg (by simp [here]), here, state]
    change (deleteConfirmKey a user code).Heard _ _
    unfold deleteConfirmKey
    split
    · refine heard_op_loud rfl fun answer => ?_
      split
      · refine (silent_refreshProfiles _).imp fun es b hb => .inr ?_
        rw [hb.2]
        rfl
      · exact heard_pure (.inr rfl)
    · exact heard_pure (.inr rfl)

private theorem act_modal (fl : FloatLib) (i : Act) (a : App) :
    (act fl i a).Heard loud fun _ b => Modal a i b.core := by
  intro es b h
  refine ⟨?_, ?_, ?_⟩
  · rintro code shift rm s rfl typed here state
    have hpure : act fl (.key code shift) a = _ := onKey_word typed here state
    rw [hpure] at h
    rw [h.2]
    rfl
  · rintro code shift first s rfl typed here state
    have hpure : act fl (.key code shift) a = _ := onKey_again typed here state
    rw [hpure] at h
    rw [h.2]
    rfl
  · rintro code shift user rfl here state
    exact heard_asked here state es b h

end Modal

theorem act_moves (fl : FloatLib) (i : Act) (a : App) :
    (act fl i a).Heard loud fun es b => Move fl a i es b.core ∧ Modal a i b.core := by
  intro es b h
  refine ⟨?_, act_modal fl i a es b h⟩
  cases i with
  | key code shift => exact makes_onKey es b h
  | flows => exact makes_pendingFlows es b h
  | tick second => exact makes_tick es b h

end Linhello.Cli.Wizard
