import Linhello.Common.KeyFile
import Linhello.Common.Utf8
import Linhello.Effect.CutShort
/-!
# Configuration files

`config::read_kv` and `config::write_kv` on one file under `CONFIG_ROOT`. The file is a
sequence of bytes that need not be text. A write truncates the file and then fills it, in
as many pieces as the operating system likes.
-/

namespace Linhello.Common.Conf

open Effect

/-! ## Operations -/

inductive Op
  | readToString
  /-- `File::create`, which truncates a file that exists. -/
  | create
  /-- One `write` system call. -/
  | write (buf : Bytes)
  | setPermissions
  deriving DecidableEq

abbrev Op.Ans : Op → Type
  | .readToString => Except IoError String
  | .create | .setPermissions => Except IoError Unit
  | .write _ => Except IoError Nat

abbrev conf : Signature where
  Op := Op
  Ans := Op.Ans

abbrev Proc (α : Type) := Program conf α

abbrev Fallible (α : Type) := ExceptT LinuxHelloError (Program conf) α

abbrev perform (o : Op) : Proc o.Ans := @Program.perform conf o

/-- `Write::write_all`; the first argument bounds the number of calls. -/
def writeAll : Nat → Bytes → Fallible Unit
  | 0, _ => pure ()
  | fuel + 1, buf =>
      if buf = [] then pure ()
      else do
        let n ← attempt .io (perform (.write buf))
        if n = 0 then throw (.io (.other "failed to write whole buffer"))
        else writeAll fuel (buf.drop n)

/-- `std::fs::write`. -/
def fsWrite (out : Bytes) : Fallible Unit := do
  attempt .io (perform .create)
  writeAll out.length out

/-- `unwrap_or_default` on what was read. -/
def unwrapOrDefault : Except IoError String → String
  | .ok text => text
  | .error _ => ""

/-- `config::write_kv`. -/
def writeKv (key val : String) : Fallible Unit := do
  -- a file that cannot be read counts as empty
  let existing ← perform .readToString
  fsWrite (utf8 (rewriteText key val (unwrapOrDefault existing)))
  attempt .io (perform .setPermissions)

/-- `config::read_kv`. -/
def readKv (key : String) : Proc (Option String) := do
  match ← perform .readToString with
  | .ok text => pure (kvLookup key text)
  | .error _ => pure none

/-! ## The file -/

abbrev File := Option Bytes

/-- `read_to_string`, where nothing goes wrong. -/
def contentOf : File → Except IoError String
  | none => .error .notFound
  | some b =>
      match ofUtf8 b with
      | some text => .ok text
      | none => .error (.other "stream did not contain valid UTF-8")

/-- What an operation may answer; `faulty` says that a read may fail for any reason. -/
def allows (faulty : Prop) (f : File) : (o : Op) → o.Ans → Prop
  | .readToString, .ok text => contentOf f = .ok text
  | .readToString, .error e => contentOf f = .error e ∨ faulty
  | .write buf, .ok n => n ≤ buf.length
  | _, _ => True

def next (f : File) : (o : Op) → o.Ans → File
  | .create, .ok _ => some []
  | .write buf, .ok n => f.map (· ++ buf.take n)
  | _, _ => f

def Step (faulty : Prop) : Semantics conf File := fun f o r f' =>
  allows faulty f o r ∧ f' = next f o r

/-- What `read_kv` finds in the file. -/
def readBack (key : String) (f : File) : Option String :=
  match contentOf f with
  | .ok text => kvLookup key text
  | .error _ => none

theorem exec_readKv {key : String} {f f' : File} {r : Option String} :
    Exec (Step False) (readKv key) f r f' ↔ r = readBack key f ∧ f' = f := by
  have hread : ∀ x v, Step False f .readToString x v ↔ x = contentOf f ∧ v = f := by
    intro x v
    cases x with
    | ok text => exact and_congr eq_comm Iff.rfl
    | error e => exact and_congr ((or_iff_left not_false).trans eq_comm) Iff.rfl
  unfold readKv
  rw [exec_bind]
  simp only [exec_perform, hread]
  constructor
  · rintro ⟨x, v, ⟨rfl, rfl⟩, hrest⟩
    unfold readBack
    cases hcontent : contentOf v with
    | ok text =>
        rw [hcontent] at hrest
        exact hrest
    | error e =>
        rw [hcontent] at hrest
        exact hrest
  · rintro ⟨rfl, rfl⟩
    refine ⟨contentOf f', f', ⟨rfl, rfl⟩, ?_⟩
    unfold readBack
    cases contentOf f' with
    | ok text => exact ⟨rfl, rfl⟩
    | error e => exact ⟨rfl, rfl⟩

/-! ## What a call did -/

def pieceOf : Event conf → Bytes
  | ⟨.write buf, .ok n⟩ => buf.take n
  | _ => []

def written (events : List (Event conf)) : Bytes := events.flatMap pieceOf

def Truncated (events : List (Event conf)) : Prop := ⟨.create, .ok ()⟩ ∈ events

def seen : List (Event conf) → Option String
  | ⟨.readToString, .ok text⟩ :: _ => some text
  | _ => none

section Runs

variable {faulty : Prop} {key val : String} {f : File} {b buf : Bytes}
  {x y : File × List (Event conf)}

theorem written_append (es es' : List (Event conf)) :
    written (es ++ es') = written es ++ written es' := List.flatMap_append

theorem step_write {r : Except IoError Nat} (hx : x.1 = some b)
    (h : recorded (Step faulty) x (.write buf) r y) :
    y.1 = some (b ++ pieceOf ⟨.write buf, r⟩) ∧ y.2 = x.2 ++ [⟨.write buf, r⟩] ∧
      ∀ n, r = .ok n → n ≤ buf.length := by
  obtain ⟨⟨hallows, hnext⟩, hlog⟩ := h
  rw [hx] at hnext
  cases r with
  | ok n =>
      refine ⟨hnext, hlog, ?_⟩
      intro m hm
      rw [← Except.ok.inj hm]
      exact hallows
  | error e =>
      refine ⟨?_, hlog, fun n hn => nomatch hn⟩
      rw [hnext]
      exact congrArg some (List.append_nil b).symm

/-- Pieces were appended to the file, all of `buf` if the run returned. -/
def Filled (buf b : Bytes) (x y : File × List (Event conf))
    (e : Option (Except LinuxHelloError Unit)) : Prop :=
  ∃ rest, y.1 = some (b ++ written rest) ∧ y.2 = x.2 ++ rest ∧
    (∀ ev ∈ rest, ∃ piece, ev.1 = .write piece) ∧ (e = some (.ok ()) → written rest = buf)

theorem filled_nothing {e : Option (Except LinuxHelloError Unit)} (hx : x.1 = some b)
    (he : e = some (.ok ()) → buf = []) : Filled buf b x x e := by
  refine ⟨[], ?_, (List.append_nil _).symm, nofun, fun hok => (he hok).symm⟩
  rw [hx]
  exact congrArg some (List.append_nil b).symm

theorem filled_once {r : Except IoError Nat} {e : Option (Except LinuxHelloError Unit)}
    (hx : x.1 = some b) (h : recorded (Step faulty) x (.write buf) r y) (he : e ≠ some (.ok ())) :
    Filled buf b x y e := by
  obtain ⟨hfile, hlog, -⟩ := step_write hx h
  refine ⟨[⟨.write buf, r⟩], ?_, hlog, ?_, fun hok => absurd hok he⟩
  · rw [hfile, written, List.flatMap_singleton]
  · intro ev hev
    rw [List.mem_singleton.1 hev]
    exact ⟨buf, rfl⟩

/-- However `write_all` ends, its pieces follow each other; if it returns, they are all. -/
theorem runs_writeAll {fuel : Nat} {e : Option (Except LinuxHelloError Unit)}
    (hfuel : buf.length ≤ fuel) (hx : x.1 = some b)
    (h : Runs (recorded (Step faulty)) (writeAll fuel buf).run x e y) : Filled buf b x y e := by
  induction fuel generalizing buf b x with
  | zero =>
      obtain ⟨-, rfl⟩ := h
      exact filled_nothing hx fun _ => List.length_eq_zero_iff.1 (Nat.le_zero.1 hfuel)
  | succ fuel ih =>
      rw [writeAll] at h
      by_cases hempty : buf = []
      · rw [if_pos hempty] at h
        obtain ⟨-, rfl⟩ := h
        exact filled_nothing hx fun _ => hempty
      · rw [if_neg hempty] at h
        rcases runs_exceptT_bind h with ⟨rfl, hcut⟩ | ⟨n, v, hwrite, hrest⟩ | ⟨err, hwrite, he⟩
        · have hnone : (none : Option (Except LinuxHelloError Unit)) ≠ some (.ok ()) := nofun
          rcases runs_attempt_none hcut with hcut | ⟨r, hr⟩
          · rcases runs_perform_none hcut with rfl | ⟨r, hr⟩
            · exact filled_nothing hx fun hok => absurd hok hnone
            · exact filled_once hx hr hnone
          · exact filled_once hx (exec_perform.1 hr) hnone
        · have hstep := exec_perform.1 (exec_attempt_ok.1 hwrite)
          by_cases hzero : n = 0
          · rw [if_pos hzero] at hrest
            obtain ⟨he, rfl⟩ := hrest
            apply filled_once hx hstep
            rcases he with rfl | rfl
            · exact nofun
            · exact nofun
          · rw [if_neg hzero] at hrest
            obtain ⟨hfile, hlog, hle⟩ := step_write hx hstep
            have hlen : (buf.drop n).length ≤ fuel := by
              have hpos := List.length_pos_of_ne_nil hempty
              rw [List.length_drop]
              omega
            obtain ⟨rest, hrestFile, hrestLog, hwrites, hall⟩ := ih hlen hfile hrest
            refine ⟨⟨.write buf, .ok n⟩ :: rest, ?_, ?_, ?_, ?_⟩
            · rw [hrestFile, List.append_assoc]
              rfl
            · rw [hrestLog, hlog, List.append_assoc]
              rfl
            · intro ev hev
              cases List.mem_cons.1 hev with
              | inl heq =>
                  rw [heq]
                  exact ⟨buf, rfl⟩
              | inr hev => exact hwrites ev hev
            · intro hok
              calc written (⟨.write buf, .ok n⟩ :: rest) = buf.take n ++ written rest := rfl
                _ = buf.take n ++ buf.drop n := by rw [hall hok]
                _ = buf := List.take_append_drop n buf
        · obtain ⟨r, hr, -⟩ := exec_attempt.1 hwrite
          apply filled_once hx (exec_perform.1 hr)
          rcases he with rfl | rfl
          · exact nofun
          · exact nofun

/-- What a call leaves: the file as it was, or what it wrote since it truncated it. -/
def Leaves (faulty : Prop) (key val : String) (f f' : File) (events : List (Event conf))
    (e : Option (Except LinuxHelloError Unit)) : Prop :=
  (¬Truncated events ∧ f' = f ∧ e ≠ some (.ok ())) ∨
    ∃ r rest, events = ⟨.readToString, r⟩ :: ⟨.create, .ok ()⟩ :: rest ∧
      allows faulty f .readToString r ∧ f' = some (written events) ∧
      (e = some (.ok ()) → written events = utf8 (rewriteText key val (unwrapOrDefault r)))

theorem not_truncated {events : List (Event conf)} (h : ∀ ev ∈ events, ev.1 ≠ .create) :
    ¬Truncated events := fun hmem => h _ hmem rfl

/-- `std::fs::write` leaves the file alone, or fills it after truncating it. -/
theorem runs_fsWrite {out : Bytes} {e : Option (Except LinuxHelloError Unit)}
    (h : Runs (recorded (Step faulty)) (fsWrite out).run x e y) :
    (y.1 = x.1 ∧ e ≠ some (.ok ()) ∧ ∃ rest, y.2 = x.2 ++ rest ∧
      ∀ ev ∈ rest, ev ≠ ⟨.create, .ok ()⟩) ∨
    ∃ rest, y.2 = x.2 ++ ⟨.create, .ok ()⟩ :: rest ∧ y.1 = some (written rest) ∧
      (e = some (.ok ()) → written rest = out) := by
  have hnone : (none : Option (Except LinuxHelloError Unit)) ≠ some (.ok ()) := nofun
  -- the file is opened, or not, and nothing else is done
  have hopenOnly : ∀ r, recorded (Step faulty) x .create r y → e ≠ some (.ok ()) →
      (y.1 = x.1 ∧ e ≠ some (.ok ()) ∧ ∃ rest, y.2 = x.2 ++ rest ∧
        ∀ ev ∈ rest, ev ≠ ⟨.create, .ok ()⟩) ∨
      ∃ rest, y.2 = x.2 ++ ⟨.create, .ok ()⟩ :: rest ∧ y.1 = some (written rest) ∧
        (e = some (.ok ()) → written rest = out) := by
    intro r hr he
    obtain ⟨⟨-, hfile⟩, hlog⟩ := hr
    cases r with
    | ok u => exact .inr ⟨[], hlog, hfile, fun hok => absurd hok he⟩
    | error err =>
        refine .inl ⟨hfile, he, _, hlog, ?_⟩
        intro ev hev
        rw [List.mem_singleton.1 hev]
        intro heq
        cases heq
  rcases runs_exceptT_bind h with ⟨rfl, hcut⟩ | ⟨u, v, hcreate, hrest⟩ | ⟨err, hcreate, he⟩
  · rcases runs_attempt_none hcut with hcut | ⟨r, hr⟩
    · rcases runs_perform_none hcut with rfl | ⟨r, hr⟩
      · exact .inl ⟨rfl, hnone, [], (List.append_nil _).symm, nofun⟩
      · exact hopenOnly r hr hnone
    · exact hopenOnly r (exec_perform.1 hr) hnone
  · obtain ⟨⟨-, hfile⟩, hlog⟩ := exec_perform.1 (exec_attempt_ok.1 hcreate)
    obtain ⟨rest, hrestFile, hrestLog, -, hall⟩ := runs_writeAll (Nat.le_refl _) hfile hrest
    refine .inr ⟨rest, ?_, hrestFile, hall⟩
    rw [hrestLog, hlog, List.append_assoc]
    rfl
  · obtain ⟨r, hr, -⟩ := exec_attempt.1 hcreate
    apply hopenOnly r (exec_perform.1 hr)
    rcases he with rfl | rfl
    · exact nofun
    · exact hnone

/-- Setting the mode is the last step, and leaves the content alone. -/
theorem runs_setPermissions {e : Option (Except LinuxHelloError Unit)}
    (h : Runs (recorded (Step faulty)) (attempt LinuxHelloError.io (perform .setPermissions)).run
      x e y) : y.1 = x.1 ∧ (y.2 = x.2 ∨ ∃ r, y.2 = x.2 ++ [⟨.setPermissions, r⟩]) := by
  have hstep : ∀ r, recorded (Step faulty) x .setPermissions r y →
      y.1 = x.1 ∧ (y.2 = x.2 ∨ ∃ r, y.2 = x.2 ++ [⟨.setPermissions, r⟩]) :=
    fun r hr => ⟨hr.1.2, .inr ⟨r, hr.2⟩⟩
  cases e with
  | none =>
      rcases runs_attempt_none h with hcut | ⟨r, hr⟩
      · rcases runs_perform_none hcut with rfl | ⟨r, hr⟩
        · exact ⟨rfl, .inl rfl⟩
        · exact hstep r hr
      · exact hstep r (exec_perform.1 hr)
  | some res =>
      obtain ⟨r, hr, -⟩ := exec_attempt.1 (exec_of_runs h)
      exact hstep r (exec_perform.1 hr)

private theorem runs_after_read {r : Except IoError String}
    {e : Option (Except LinuxHelloError Unit)}
    {events : List (Event conf)} {f' : File} (hread : allows faulty f .readToString r)
    (h : Runs (recorded (Step faulty)) (do
      fsWrite (utf8 (rewriteText key val (unwrapOrDefault r)))
      attempt .io (perform .setPermissions) : Fallible Unit).run (f, [⟨.readToString, r⟩]) e
      (f', events)) : Leaves faulty key val f f' events e := by
  have hnone : (none : Option (Except LinuxHelloError Unit)) ≠ some (.ok ()) := nofun
  -- the call ends in `std::fs::write`
  have hwriteOnly : ∀ e', Runs (recorded (Step faulty))
      (fsWrite (utf8 (rewriteText key val (unwrapOrDefault r)))).run (f, [⟨.readToString, r⟩]) e'
      (f', events) → e ≠ some (.ok ()) → Leaves faulty key val f f' events e := by
    intro e' hw he
    rcases runs_fsWrite hw with ⟨hfile, -, rest, hlog, hother⟩ | ⟨rest, hlog, hfile, -⟩
    · replace hlog : events = ⟨.readToString, r⟩ :: rest := hlog
      refine .inl ⟨?_, hfile, he⟩
      intro hmem
      rw [hlog] at hmem
      cases List.mem_cons.1 hmem with
      | inl heq => cases heq
      | inr hmem => exact hother _ hmem rfl
    · replace hlog : events = ⟨.readToString, r⟩ :: ⟨.create, .ok ()⟩ :: rest := hlog
      refine .inr ⟨r, rest, hlog, hread, ?_, fun hok => absurd hok he⟩
      rw [hlog]
      exact hfile
  rcases runs_exceptT_bind h with ⟨rfl, hcut⟩ | ⟨u, v, hw, hrest⟩ | ⟨err, hw, he⟩
  · exact hwriteOnly none hcut hnone
  · rcases runs_fsWrite (runs_of_exec hw) with ⟨-, hok, -⟩ | ⟨rest, hlog, hfile, hall⟩
    · exact absurd rfl hok
    · obtain ⟨hsame, hmode⟩ := runs_setPermissions hrest
      have hevents : ∃ tail, events = ⟨.readToString, r⟩ :: ⟨.create, .ok ()⟩ :: (rest ++ tail) ∧
          written tail = [] := by
        rcases hmode with hmode | ⟨res, hmode⟩
        · refine ⟨[], ?_, rfl⟩
          rw [List.append_nil]
          exact hmode.trans hlog
        · refine ⟨[⟨.setPermissions, res⟩], ?_, rfl⟩
          replace hmode : events = v.2 ++ [⟨.setPermissions, res⟩] := hmode
          rw [hmode, hlog]
          rfl
      obtain ⟨tail, hevents, htail⟩ := hevents
      have hwritten : written events = written rest := by
        rw [hevents]
        calc written (⟨.readToString, r⟩ :: ⟨.create, .ok ()⟩ :: (rest ++ tail))
            = written (rest ++ tail) := rfl
          _ = written rest := by rw [written_append, htail, List.append_nil]
      refine .inr ⟨r, rest ++ tail, hevents, hread, ?_, fun _ => ?_⟩
      · rw [hwritten]
        exact hsame.trans hfile
      · rw [hwritten, hall rfl]
  · apply hwriteOnly _ (runs_of_exec hw)
    rcases he with rfl | rfl
    · exact nofun
    · exact hnone

theorem runs_writeKv {e : Option (Except LinuxHelloError Unit)} {events : List (Event conf)}
    {f' : File} (h : Runs (recorded (Step faulty)) (writeKv key val).run (f, []) e (f', events)) :
    Leaves faulty key val f f' events e := by
  have hnone : (none : Option (Except LinuxHelloError Unit)) ≠ some (.ok ()) := nofun
  -- the call reads, and does no more
  have hreadOnly : ∀ r, recorded (Step faulty) (f, []) .readToString r (f', events) →
      e ≠ some (.ok ()) → Leaves faulty key val f f' events e := by
    intro r hr he
    obtain ⟨⟨-, hfile⟩, hlog⟩ := hr
    replace hlog : events = [⟨.readToString, r⟩] := hlog
    refine .inl ⟨not_truncated ?_, hfile, he⟩
    rw [hlog]
    intro ev hev
    rw [List.mem_singleton.1 hev]
    exact nofun
  unfold writeKv at h
  rcases runs_exceptT_bind h with ⟨rfl, hcut⟩ | ⟨r, v, hread, hrest⟩ | ⟨err, hread, -⟩
  · rcases runs_lift_none hcut with hcut | ⟨r, hr⟩
    · rcases runs_perform_none hcut with hsame | ⟨r, hr⟩
      · obtain ⟨rfl, rfl⟩ := Prod.mk.inj hsame
        exact .inl ⟨List.not_mem_nil, rfl, hnone⟩
      · exact hreadOnly r hr hnone
    · exact hreadOnly r (exec_perform.1 hr) hnone
  · obtain ⟨⟨hallows, hfile⟩, hlog⟩ := exec_perform.1 (exec_exceptT_lift_ok.1 hread)
    obtain rfl : v = (f, [⟨.readToString, r⟩]) := Prod.ext hfile hlog
    exact runs_after_read hallows hrest
  · obtain ⟨r, -, heq⟩ := exec_exceptT_lift.1 hread
    exact nomatch heq

end Runs

/-! ## Calls that succeed -/

section Success

variable {faulty : Prop} {key val : String} {f f' : File}

theorem exec_writeAll (faulty : Prop) (out : Bytes) (es : List (Event conf)) :
    ∃ es', Exec (recorded (Step faulty)) (writeAll out.length out).run (some [], es) (.ok ())
      (some out, es ++ es') := by
  cases out with
  | nil =>
      refine ⟨[], rfl, ?_⟩
      rw [List.append_nil]
  | cons c body =>
      refine ⟨[⟨.write (c :: body), .ok (body.length + 1)⟩], ?_⟩
      rw [List.length_cons, writeAll, if_neg (List.cons_ne_nil c body)]
      refine exec_exceptT_bind_ok.2 ⟨body.length + 1,
        (some (c :: body), es ++ [⟨.write (c :: body), .ok (body.length + 1)⟩]),
        exec_attempt_ok.2 (exec_perform.2 ⟨⟨Nat.le_refl _, ?_⟩, rfl⟩), ?_⟩
      · exact congrArg some List.take_length.symm
      · have hdone : (c :: body).drop (body.length + 1) = [] := List.drop_length
        rw [if_neg (Nat.succ_ne_zero body.length), hdone]
        cases body.length with
        | zero => exact ⟨rfl, rfl⟩
        | succ fuel =>
            rw [writeAll, if_pos rfl]
            exact ⟨rfl, rfl⟩

theorem exists_writeKv (key val : String) {r : Except IoError String}
    (hread : allows faulty f .readToString r) :
    ∃ rest, Exec (recorded (Step faulty)) (writeKv key val).run (f, []) (.ok ())
      (some (utf8 (rewriteText key val (unwrapOrDefault r))), ⟨.readToString, r⟩ :: rest) := by
  obtain ⟨es, hwrite⟩ := exec_writeAll faulty
    (utf8 (rewriteText key val (unwrapOrDefault r)))
    [⟨.readToString, r⟩, ⟨.create, .ok ()⟩]
  refine ⟨⟨.create, .ok ()⟩ :: (es ++ [⟨.setPermissions, .ok ()⟩]), ?_⟩
  refine exec_exceptT_bind_ok.2 ⟨r, (f, [⟨.readToString, r⟩]),
    exec_exceptT_lift_ok.2 (exec_perform.2 ⟨⟨hread, ?_⟩, rfl⟩), ?_⟩
  · cases r <;> rfl
  refine exec_exceptT_bind_ok.2 ⟨(), _, exec_exceptT_bind_ok.2 ⟨(), _,
    exec_attempt_ok.2 (exec_perform.2 ⟨⟨trivial, rfl⟩, rfl⟩), hwrite⟩, ?_⟩
  exact exec_attempt_ok.2 (exec_perform.2 ⟨⟨trivial, rfl⟩, by simp⟩)

/-- A call that succeeds has rewritten what it took the file for. -/
theorem file_of_writeKv (h : Exec (Step False) (writeKv key val).run f (.ok ()) f') :
    f' = some (utf8 (rewriteText key val (unwrapOrDefault (contentOf f)))) := by
  obtain ⟨events, hrec⟩ := exec_recorded h []
  obtain ⟨-, -, hok⟩ | ⟨r, rest, -, hread, hfile, hall⟩ := runs_writeKv (runs_of_exec hrec)
  · exact absurd rfl hok
  · have hcontent : r = contentOf f := by
      cases r with
      | ok text => exact Eq.symm hread
      | error e => exact Eq.symm (hread.resolve_right not_false)
    rw [hfile, hall rfl, hcontent]

theorem exec_writeKv (key val : String) (f : File) :
    Exec (Step False) (writeKv key val).run f (.ok ())
      (some (utf8 (rewriteText key val (unwrapOrDefault (contentOf f))))) := by
  have hread : allows False f .readToString (contentOf f) := by
    cases hcontent : contentOf f with
    | ok text => exact hcontent
    | error e => exact .inl hcontent
  obtain ⟨rest, hrec⟩ := exists_writeKv key val hread
  exact exec_of_recorded hrec

end Success

end Linhello.Common.Conf
