import Linhello.Cli.Downloads
/-!
# Pinned models

The models that are installed are the ones whose digests are pinned, `models_pinned`. Nobody
else is supposed to write in the temporary directory meanwhile.
-/

namespace Linhello.Cli.Downloads

open Common Effect

/-! ## Files -/

abbrev Files := String → Option Bytes

def Under (dir p : String) : Prop := ∃ rest, p = dir ++ "/" ++ rest

theorem Under.trans {dir sub p : String} (h : Under (dir ++ "/" ++ sub) p) : Under dir p := by
  obtain ⟨rest, rfl⟩ := h
  refine ⟨sub ++ "/" ++ rest, ?_⟩
  rw [← String.append_assoc, ← String.append_assoc]

/-- What the digests are of, what the archives hold, and where the temporary directories
are: apart from what is installed. -/
structure Env where
  sha256 : Bytes → String
  unpack : Bytes → List (String × Bytes)
  tmp : String → String
  apart : ∀ stem p, Under CONFIG_ROOT p ∨ Under LIBDIR p → ¬ Under (tmp stem) p

variable {E : Env} {w v w' : Files} {tmp : String}

def writes : String → List String → String → Prop
  | "curl", ["-fL", "--proto", "=https", "--tlsv1.2", "-o", out, _], q => q = out
  | "unzip", ["-oq", _, "-d", dir], q => Under dir q
  | "tar", ["xzf", _, "-C", dir], q => Under dir q
  | _, _, _ => False

/-- A file that is new comes from the archive. -/
def Unpacked (E : Env) (w w' : Files) : String → List String → Prop
  | "tar", ["xzf", tgz, "-C", dir] => ∀ q, w' q ≠ w q → ∃ archive name bytes,
      w tgz = some archive ∧ (name, bytes) ∈ E.unpack archive ∧ q = dir ++ "/" ++ name ∧
        w' q = some bytes
  | _, _ => True

/-- `sha256sum` puts a backslash in front of the digest of a file with a strange name. -/
def Printed (E : Env) (w : Files) (path : String) (out : Output) : Prop :=
  ∃ bytes, w path = some bytes ∧ ((splitWhitespace out.stdout).head? = some (E.sha256 bytes) ∨
    (splitWhitespace out.stdout).head? = some ("\\" ++ E.sha256 bytes))

/-- A copy that fails can leave a part of the file. -/
def Step (E : Env) : Semantics host Files
  | w, .tempDir stem, r, w' => r = E.tmp stem ∧ w' = w
  | w, .copy source target, r, w' =>
      (r = .ok () ∧ ∃ bytes, w source = some bytes ∧ w' = Function.update w target (some bytes)) ∨
        ((∃ e, r = .error e) ∧ (w' = w ∨ ∃ bytes part, w source = some bytes ∧ part <+: bytes ∧
          w' = Function.update w target (some part)))
  | w, .removeDirAll dir, _, w' => ∀ q, ¬ Under dir q → w' q = w q
  | w, .removeFile path, _, w' => ∀ q, q ≠ path → w' q = w q
  | w, .symlink _ link, _, w' => ∀ q, q ≠ link → w' q = w q
  | w, .status _ prog args, r, w' => (∀ q, ¬ writes prog args q → w' q = w q) ∧
      (r = .ok true → Unpacked E w w' prog args)
  | w, .output prog args, r, w' => w' = w ∧ ∀ path out, prog = "sha256sum" → args = [path] →
      r = .ok out → out.success = true → Printed E w path out
  | w, _, _, w' => w' = w

/-- The operations that write nothing outside of a directory. -/
def Confined (tmp : String) : Op → Prop
  | .status _ prog args => ∀ q, writes prog args q → Under tmp q
  | .copy _ _ | .removeDirAll _ | .removeFile _ | .symlink _ _ => False
  | _ => True

def SameOutside (tmp : String) (w w' : Files) : Prop := ∀ q, ¬ Under tmp q → w' q = w q

private theorem sameOutside_of_confined {o : Op} {r : o.Ans} (ho : Confined tmp o)
    (h : Step E w o r w') : SameOutside tmp w w' := by
  cases o with
  | status cwd prog args => exact fun q hq => h.1 q fun hwrites => hq (ho q hwrites)
  | copy source target => exact False.elim ho
  | removeDirAll dir => exact False.elim ho
  | removeFile path => exact False.elim ho
  | symlink target link => exact False.elim ho
  | tempDir stem => rw [h.2]; exact fun _ _ => rfl
  | output prog args => rw [h.1]; exact fun _ _ => rfl
  | _ =>
      have hsame : w' = w := h
      rw [hsame]
      exact fun _ _ => rfl

theorem exec_confined {α : Type} {p : Proc α} {a : α} (hp : p.Only (Confined tmp))
    (h : Exec (Step E) p w a w') : SameOutside tmp w w' :=
  hp.exec (R := SameOutside tmp) (fun _ _ _ => rfl)
    (fun h₁ h₂ q hq => (h₂ q hq).trans (h₁ q hq)) sameOutside_of_confined h

/-! ## Digests -/

def Digest (E : Env) (w : Files) (path pinned : String) : Prop :=
  ∃ bytes, w path = some bytes ∧ E.sha256 bytes = pinned

/-- A digest that is pinned, and not left open. -/
structure Pinned (pinned : String) : Prop where
  nonempty : pinned ≠ ""
  final : endsWith pinned "PLACEHOLDER" = false
  hex : pinned.toList.head? ≠ some '\\'

theorem exec_verifyModel {path label pinned line : String} (hpinned : Pinned pinned)
    (h : Exec (Step E) (verifyModel path label pinned).run w (.ok line) w') :
    w' = w ∧ Digest E w path pinned := by
  obtain ⟨got, v, hgot, hrest⟩ := exec_exceptT_bind_ok.1 h
  obtain ⟨out, u, hout, hdigest⟩ := exec_exceptT_bind_ok.1 hgot
  rw [exec_attempt_ok, exec_perform] at hout
  obtain ⟨rfl, hprinted⟩ := hout
  split at hdigest
  next hsuccess =>
    obtain ⟨hword, rfl⟩ := hdigest
    obtain ⟨bytes, hbytes, hhead⟩ := hprinted path out rfl rfl rfl hsuccess
    split at hrest
    next hopen =>
      rw [Bool.or_eq_true, decide_eq_true_eq, hpinned.final] at hopen
      rcases hopen with hempty | hfalse
      · exact absurd hempty hpinned.nonempty
      · cases hfalse
    next =>
      split at hrest
      · cases hrest.1
      next hsame =>
        obtain ⟨-, rfl⟩ := hrest
        refine ⟨rfl, bytes, hbytes, ?_⟩
        have heq : pinned = ((splitWhitespace out.stdout).head?).getD "" :=
          (not_not.1 hsame).symm.trans (Except.ok.inj hword)
        rcases hhead with hplain | hslash
        · rw [heq, hplain]
          rfl
        · rw [hslash] at heq
          refine absurd ?_ hpinned.hex
          rw [heq, Option.getD_some, String.toList_append]
          rfl
  next => cases hdigest.1

/-! ## Looking for a file -/

/-- What holds of every answer of a program holds along a list. -/
theorem exec_mapM {α β : Type} {f : α → Proc β} {Q : β → Prop} {xs : List α} {ys : List β}
    (hf : ∀ x v y v', Exec (Step E) (f x) v y v' → Q y) (h : Exec (Step E) (xs.mapM f) w ys w') :
    ∀ y ∈ ys, Q y := by
  induction xs generalizing w ys with
  | nil =>
      obtain ⟨rfl, -⟩ := h
      exact fun y hy => absurd hy List.not_mem_nil
  | cons x xs ih =>
      rw [List.mapM_cons] at h
      obtain ⟨y, v, hy, hrest⟩ := exec_bind.1 h
      obtain ⟨ys, u, hys, rfl, rfl⟩ := exec_bind.1 hrest
      exact List.forall_mem_cons.2 ⟨hf x w y v hy, ih hys⟩

theorem exec_eachEntry {dir : String} {look : String → Proc (List String)} {Q : String → Prop}
    {ps : List String} (hlook : ∀ e v qs v', Exec (Step E) (look e) v qs v' → ∀ q ∈ qs, Q q)
    (h : Exec (Step E) (eachEntry dir look) w ps w') : ∀ p ∈ ps, Q p := by
  obtain ⟨entries, v, -, hrest⟩ := exec_bind.1 h
  obtain ⟨found, u, hfound, rfl, rfl⟩ := exec_bind.1 hrest
  intro p hp
  obtain ⟨qs, hqs, hpq⟩ := List.mem_flatten.1 hp
  exact exec_mapM hlook hfound qs hqs p hpq

/-- What is found is called `name`, in the directory or further below. -/
def Found (name dir p : String) : Prop := ∃ d, (d = dir ∨ Under dir d) ∧ p = d ++ "/" ++ name

theorem found_under {name dir p : String} (h : Found name dir p) : Under dir p := by
  obtain ⟨d, rfl | ⟨rest, rfl⟩, rfl⟩ := h
  · exact ⟨name, rfl⟩
  · refine ⟨rest ++ "/" ++ name, ?_⟩
    rw [← String.append_assoc, ← String.append_assoc]

theorem found_named {name dir entry p : String} (h : p ∈ named name dir entry) :
    Found name dir p := by
  unfold named at h
  split at h
  next heq =>
    rw [heq] at h
    exact ⟨dir, .inl rfl, List.mem_singleton.1 h⟩
  next => exact absurd h List.not_mem_nil

theorem Found.below {name dir sub p : String} (h : Found name (dir ++ "/" ++ sub) p) :
    Found name dir p := by
  obtain ⟨d, rfl | hd, rfl⟩ := h
  · exact ⟨_, .inr ⟨sub, rfl⟩, rfl⟩
  · exact ⟨d, .inr hd.trans, rfl⟩

private theorem exec_walk {name dir : String} {depth : Nat} {ps : List String}
    (h : Exec (Step E) (walk name depth dir) w ps w') : ∀ p ∈ ps, Found name dir p := by
  induction depth generalizing dir w w' ps with
  | zero =>
      refine exec_eachEntry (fun e v qs v' hqs => ?_) h
      obtain ⟨isDir, u, -, rfl, rfl⟩ := exec_bind.1 hqs
      exact fun q hq => found_named hq
  | succ depth ih =>
      refine exec_eachEntry (fun e v qs v' hqs => ?_) h
      obtain ⟨isDir, u, -, hrest⟩ := exec_bind.1 hqs
      split at hrest
      · exact fun q hq => (ih hrest q hq).below
      · obtain ⟨rfl, rfl⟩ := hrest
        exact fun q hq => found_named hq

theorem exec_findUnder {name dir src : String}
    (h : Exec (Step E) (findUnder dir name) w (some src) w') : Found name dir src := by
  obtain ⟨ps, v, hps, hlast, rfl⟩ := exec_bind.1 h
  exact exec_walk hps src (List.mem_of_getLast? hlast.symm)

/-! ## Commands -/

theorem only_runStreamed {D : Op → Prop} {cwd prog : String} {args : List String}
    (h : D (.status cwd prog args)) : (runStreamed cwd prog args).run.Only D := by
  refine only_exceptT_bind (only_attempt (only_perform h)) fun success => ?_
  cases success
  · exact only_exceptT_throw
  · exact only_exceptT_pure

theorem only_okOr {α : Type} {a : Option α} {e : String} :
    (okOr a e).run.Only (Confined tmp) := by
  cases a
  · exact only_exceptT_throw
  · exact only_exceptT_pure

theorem only_verifyModel {path label pinned : String} :
    (verifyModel path label pinned).run.Only (Confined tmp) := by
  refine only_exceptT_bind ?_ fun got => ?_
  · refine only_exceptT_bind (only_attempt (only_perform trivial)) fun out => ?_
    split
    · exact only_exceptT_pure
    · exact only_exceptT_throw
  · split
    · exact only_exceptT_pure
    · split
      · exact only_exceptT_throw
      · exact only_exceptT_pure

def Looks : Op → Prop
  | .readDir _ | .isDir _ => True
  | _ => False

theorem only_eachEntry {dir : String} {look : String → Proc (List String)}
    (h : ∀ e, (look e).Only Looks) : (eachEntry dir look).Only Looks :=
  only_bind (only_perform trivial) fun _ => only_bind (only_mapM h _) fun _ => only_pure

private theorem only_walk {name dir : String} {depth : Nat} : (walk name depth dir).Only Looks := by
  induction depth generalizing dir with
  | zero => exact only_eachEntry fun e => only_bind (only_perform trivial) fun _ => only_pure
  | succ depth ih =>
      refine only_eachEntry fun e => only_bind (only_perform trivial) fun isDir => ?_
      split
      · exact ih
      · exact only_pure

theorem only_findUnder {dir name : String} : (findUnder dir name).Only Looks :=
  only_bind only_walk fun _ => only_pure

theorem confined_of_looks {o : Op} (h : Looks o) : Confined tmp o := by
  cases o with
  | readDir path => trivial
  | isDir path => trivial
  | _ => exact False.elim h

/-- An operation that cannot fail, in front of a program that can. -/
theorem exec_lift_bind {α β : Type} {p : Proc α} {f : α → Fallible β} {r : Except String β}
    (h : Exec (Step E) (liftM p >>= f).run w r w') :
    ∃ a v, Exec (Step E) p w a v ∧ Exec (Step E) (f a).run v r w' := by
  rcases exec_exceptT_bind.1 h with ⟨a, v, hp, hrest⟩ | ⟨e, hp, rfl⟩
  · rw [exec_exceptT_lift_ok] at hp
    exact ⟨a, v, hp, hrest⟩
  · obtain ⟨a, -, he⟩ := exec_exceptT_lift.1 hp
    cases he

theorem exec_requireTools {tools : List String} {r : Except String Unit}
    (h : Exec (Step E) (requireTools tools).run w r w') : w' = w := by
  induction tools generalizing w with
  | nil => exact h.2
  | cons t ts ih =>
      obtain ⟨b, v, hb, hrest⟩ := exec_lift_bind h
      rw [exec_perform] at hb
      obtain rfl : v = w := hb
      split at hrest
      · exact ih hrest
      · exact hrest.2

theorem exec_createDirAll {context : String → String} {dir : String} {r : Except String Unit}
    (h : Exec (Step E) (attempt context (perform (.createDirAll dir))).run w r w') : w' = w := by
  obtain ⟨x, hx, -⟩ := exec_map.1 h
  rw [exec_perform] at hx
  exact hx

/-! ## The temporary directory -/

/-- What the body leaves outside of the directory stays, and a success is the body's. -/
theorem exec_inTempDir {stem : String} {body : String → Fallible (List String)}
    {r : Except String (List String)} (h : Exec (Step E) (inTempDir stem body).run w r w') :
    (w' = w ∧ ∃ e, r = .error e) ∨ ∃ v, Exec (Step E) (body (E.tmp stem)).run w r v ∧
      SameOutside (E.tmp stem) v w' := by
  obtain ⟨tmp, v₁, htmp, h₁⟩ := exec_lift_bind h
  rw [exec_perform] at htmp
  obtain ⟨rfl, rfl⟩ := htmp
  rcases exec_exceptT_bind.1 h₁ with ⟨_, v₂, hmade, h₂⟩ | ⟨e, hmade, rfl⟩
  · obtain rfl := exec_createDirAll hmade
    rcases exec_exceptT_bind.1 h₂ with ⟨result, v₃, hbody, h₃⟩ | ⟨e, hbody, rfl⟩
    · obtain ⟨result', hrun, heq⟩ := exec_caught.1 hbody
      obtain rfl := Except.ok.inj heq
      obtain ⟨_, v₄, hremoved, rfl, rfl⟩ := exec_lift_bind h₃
      rw [exec_perform] at hremoved
      exact .inr ⟨v₃, hrun, hremoved⟩
    · obtain ⟨result', -, he⟩ := exec_caught.1 hbody
      cases he
  · exact .inl ⟨exec_createDirAll hmade, e, rfl⟩

/-! ## Installing a file -/

/-- The target is as it was, or a part of the source. -/
def Partly (w w' : Files) (source target : String) : Prop :=
  w' target = w target ∨
    ∃ bytes part, w source = some bytes ∧ part <+: bytes ∧ w' target = some part

theorem exec_installFile {mode : Nat} {source target : String} {r : Except String Unit}
    (h : Exec (Step E) (installFile mode source target).run w r w') :
    (∀ q, q ≠ target → w' q = w q) ∧ Partly w w' source target ∧
      (r = .ok () → w source ≠ none ∧ w' target = w source) := by
  have hcopied : ∀ {x : Except String Unit} {v : Files}, Step E w (.copy source target) x v →
      (∀ q, q ≠ target → v q = w q) ∧ Partly w v source target ∧
        (x = .ok () → w source ≠ none ∧ v target = w source) := by
    rintro x v (⟨rfl, bytes, hbytes, rfl⟩ | ⟨⟨e, rfl⟩, hleft⟩)
    · refine ⟨fun q hq => Function.update_of_ne hq _ _,
        .inr ⟨bytes, bytes, hbytes, List.prefix_rfl, Function.update_self _ _ _⟩, fun _ => ?_⟩
      rw [hbytes]
      exact ⟨Option.some_ne_none bytes, Function.update_self _ _ _⟩
    · rcases hleft with rfl | ⟨bytes, part, hbytes, hpart, rfl⟩
      · exact ⟨fun _ _ => rfl, .inl rfl, fun h => by cases h⟩
      · exact ⟨fun q hq => Function.update_of_ne hq _ _,
          .inr ⟨bytes, part, hbytes, hpart, Function.update_self _ _ _⟩, fun h => by cases h⟩
  rcases exec_exceptT_bind.1 h with ⟨u, v, hcopy, hmode⟩ | ⟨e, hcopy, rfl⟩
  · rw [exec_attempt_ok, exec_perform] at hcopy
    obtain ⟨_, hset, rfl⟩ := exec_exceptT_lift.1 hmode
    rw [exec_perform] at hset
    obtain rfl : w' = v := hset
    obtain ⟨hother, hpart, hwhole⟩ := hcopied hcopy
    exact ⟨hother, hpart, fun _ => hwhole rfl⟩
  · obtain ⟨x, hx, he⟩ := exec_map.1 hcopy
    rw [exec_perform] at hx
    obtain ⟨hother, hpart, -⟩ := hcopied hx
    exact ⟨hother, hpart, fun h => by cases h⟩

/-- A command that writes nothing, whether it succeeds or not. -/
theorem exec_caught_runStreamed {cwd prog : String} {args : List String}
    {r : Except String (Except String Unit)} (hquiet : ∀ q, ¬ writes prog args q)
    (h : Exec (Step E) (caught (runStreamed cwd prog args)).run w r w') :
    w' = w ∧ ∃ x, r = .ok x := by
  obtain ⟨x, hrun, rfl⟩ := exec_caught.1 h
  refine ⟨?_, x, rfl⟩
  have hstatus : ∀ {y : Except String Bool} {v : Files}, Step E w (.status cwd prog args) y v →
      v = w := fun hstep => funext fun q => hstep.1 q (hquiet q)
  rcases exec_exceptT_bind.1 hrun with ⟨success, v, hran, hrest⟩ | ⟨e, hran, rfl⟩
  · rw [exec_attempt_ok, exec_perform] at hran
    have hsame := hstatus hran
    split at hrest
    · exact hrest.2.trans hsame
    · exact hrest.2.trans hsame
  · obtain ⟨y, hy, -⟩ := exec_map.1 hran
    rw [exec_perform] at hy
    exact hstatus hy

theorem not_writes_systemctl {args : List String} (q : String) : ¬ writes "systemctl" args q := by
  simp [writes]

theorem exec_whenStreamed {prog line : String} {args : List String}
    {r : Except String (List String)} (hquiet : ∀ q, ¬ writes prog args q)
    (h : Exec (Step E) (whenStreamed prog args line).run w r w') : w' = w ∧ ∃ l, r = .ok l := by
  rcases exec_exceptT_bind.1 h with ⟨x, v, hrun, hrest⟩ | ⟨e, hrun, rfl⟩
  · obtain ⟨rfl, -⟩ := exec_caught_runStreamed hquiet hrun
    cases x with
    | ok u => exact ⟨hrest.2, _, hrest.1⟩
    | error e => exact ⟨hrest.2, _, hrest.1⟩
  · obtain ⟨-, x, hx⟩ := exec_caught_runStreamed hquiet hrun
    cases hx

/-! ## A simulated machine -/

def simulatedSha (bytes : Bytes) : String :=
  if bytes = [1] then DET_SHA256
  else if bytes = [2] then REC_SHA256
  else if bytes = [3] then ORT_X64_SHA256
  else "0"

theorem isWord_of_all {s : String}
    (h : (decide (s.toList ≠ []) && s.toList.all fun c => !isWhiteSpace c) = true) : IsWord s := by
  obtain ⟨hne, hall⟩ := Bool.and_eq_true_iff.1 h
  refine ⟨of_decide_eq_true hne, fun c hc => ?_⟩
  simpa using List.all_eq_true.1 hall c hc

theorem isWord_simulatedSha (bytes : Bytes) : IsWord (simulatedSha bytes) := by
  unfold simulatedSha
  split
  · exact isWord_of_all (by decide +kernel)
  · split
    · exact isWord_of_all (by decide +kernel)
    · split
      · exact isWord_of_all (by decide +kernel)
      · exact isWord_of_all (by decide +kernel)

theorem second_append {a b : String} {c : Char} (h : a.toList[1]? = some c) :
    (a ++ b).toList[1]? = some c := by
  obtain ⟨hlt, -⟩ := List.getElem?_eq_some_iff.1 h
  rw [String.toList_append, List.getElem?_append_left hlt]
  exact h

def simulated : Env where
  sha256 := simulatedSha
  unpack _ := [(SONAME, [4])]
  tmp stem := "/tmp/" ++ stem
  apart := by
    rintro stem p hp ⟨rest, rfl⟩
    have htmp : ("/tmp/" ++ stem ++ "/" ++ rest).toList[1]? = some 't' :=
      second_append (second_append (second_append (by decide)))
    rcases hp with ⟨rest', heq⟩ | ⟨rest', heq⟩
    · have hconf : CONFIG_ROOT.toList[1]? = some 'e' := by decide
      rw [heq, second_append (second_append hconf)] at htmp
      exact absurd (Option.some.inj htmp) (by decide)
    · have hlib : LIBDIR.toList[1]? = some 'u' := by decide
      rw [heq, second_append (second_append hlib)] at htmp
      exact absurd (Option.some.inj htmp) (by decide)

/-- What `curl`, `unzip` and `tar` write. -/
def ran (w : Files) (prog : String) : List String → Files
  | [a, b, c, d, e, out, _] =>
      if prog = "curl" ∧ [a, b, c, d, e] = ["-fL", "--proto", "=https", "--tlsv1.2", "-o"] then
        Function.update w out (some [3])
      else w
  | [a, source, b, dir] =>
      if prog = "unzip" ∧ a = "-oq" ∧ b = "-d" then
        Function.update (Function.update w (dir ++ "/" ++ "det_10g.onnx") (some [1]))
          (dir ++ "/" ++ "w600k_r50.onnx") (some [2])
      else if prog = "tar" ∧ a = "xzf" ∧ b = "-C" ∧ w source ≠ none then
        Function.update w (dir ++ "/" ++ SONAME) (some [4])
      else w
  | _ => w

def copied (w : Files) (source target : String) : Except String Unit × Files :=
  match w source with
  | some bytes => (.ok (), Function.update w target (some bytes))
  | none => (.error "No such file or directory", w)

def summed (w : Files) : List String → Except String Output
  | [path] =>
      match w path with
      | some bytes => .ok ⟨true, simulatedSha bytes ++ (" " ++ (" " ++ path ++ "\n")), ""⟩
      | none => .ok ⟨false, "", "No such file or directory"⟩
  | _ => .error "not simulated"

def answer (w : Files) : (o : Op) → o.Ans × Files
  | .pathExists path => ((w path).isSome, w)
  | .isDir _ => (false, w)
  | .onPath _ => (true, w)
  | .onnxruntimeDylib => (none, w)
  | .tempDir stem => (simulated.tmp stem, w)
  | .createDirAll _ => (.ok (), w)
  | .removeDirAll dir =>
      ((), fun q => if (dir ++ "/").toList <+: q.toList then none else w q)
  | .removeFile path => ((), Function.update w path none)
  | .readDir dir =>
      (["det_10g.onnx", "w600k_r50.onnx", SONAME].filter fun e => (w (dir ++ "/" ++ e)).isSome, w)
  | .copy source target => copied w source target
  | .setMode _ _ => ((), w)
  | .symlink _ link => (.ok (), Function.update w link (w DYLIB))
  | .status _ prog args => (.ok true, ran w prog args)
  | .output _ args => (summed w args, w)

theorem unpacked_same {w : Files} {prog : String} {args : List String} :
    Unpacked simulated w w prog args := by
  unfold Unpacked
  split
  · exact fun q hq => absurd rfl hq
  · trivial

theorem ran_step (w : Files) (prog : String) (args : List String) :
    (∀ q, ¬ writes prog args q → ran w prog args q = w q) ∧
      Unpacked simulated w (ran w prog args) prog args := by
  unfold ran
  split
  next a b c d e out url =>
    split
    next h =>
      obtain ⟨rfl, hargs⟩ := h
      obtain ⟨rfl, rfl, rfl, rfl, rfl⟩ : a = "-fL" ∧ b = "--proto" ∧ c = "=https" ∧
        d = "--tlsv1.2" ∧ e = "-o" := by simpa using hargs
      exact ⟨fun q hq => Function.update_of_ne hq _ _, trivial⟩
    next => exact ⟨fun _ _ => rfl, unpacked_same⟩
  next a source b dir =>
    split
    next h =>
      obtain ⟨rfl, rfl, rfl⟩ := h
      refine ⟨fun q hq => ?_, trivial⟩
      have hne : ∀ name, q ≠ dir ++ "/" ++ name := fun name heq => hq ⟨name, heq⟩
      rw [Function.update_of_ne (hne _), Function.update_of_ne (hne _)]
    next =>
      split
      next h =>
        obtain ⟨rfl, rfl, rfl, hsource⟩ := h
        obtain ⟨archive, harchive⟩ := Option.ne_none_iff_exists'.1 hsource
        refine ⟨fun q hq => Function.update_of_ne (fun heq => hq ⟨_, heq⟩) _ _, fun q hq => ?_⟩
        have heq : q = dir ++ "/" ++ SONAME :=
          not_not.1 fun hne => hq (Function.update_of_ne hne _ _)
        exact ⟨archive, SONAME, [4], harchive, List.mem_singleton.2 rfl, heq,
          heq ▸ Function.update_self _ _ _⟩
      next => exact ⟨fun _ _ => rfl, unpacked_same⟩
  next => exact ⟨fun _ _ => rfl, unpacked_same⟩

theorem copied_step (w : Files) (source target : String) :
    Step simulated w (.copy source target) (copied w source target).1
      (copied w source target).2 := by
  unfold copied
  split
  next bytes hbytes => exact .inl ⟨rfl, bytes, hbytes, rfl⟩
  next => exact .inr ⟨⟨_, rfl⟩, .inl rfl⟩

private theorem summed_printed {w : Files} {path : String} {out : Output}
    (h : summed w [path] = .ok out) (hsuccess : out.success = true) :
    Printed simulated w path out := by
  unfold summed at h
  dsimp only at h
  split at h
  next bytes hbytes =>
    obtain rfl := Except.ok.inj h
    refine ⟨bytes, hbytes, .inl ?_⟩
    rw [splitWhitespace, String.toList_append, String.toList_append]
    exact congrArg List.head? (wordsFrom_word (isWord_simulatedSha bytes) _)
  next =>
    obtain rfl := Except.ok.inj h
    cases hsuccess

theorem answer_step (w : Files) (o : Op) : Step simulated w o (answer w o).1 (answer w o).2 := by
  cases o with
  | tempDir stem => exact ⟨rfl, rfl⟩
  | copy source target => exact copied_step w source target
  | removeDirAll dir =>
      intro q hq
      refine if_neg fun hpre => hq ?_
      obtain ⟨rest, hrest⟩ := hpre
      refine ⟨String.ofList rest, String.toList_injective ?_⟩
      rw [String.toList_append, String.toList_ofList, hrest]
  | removeFile path => exact fun q hq => Function.update_of_ne hq _ _
  | symlink target link => exact fun q hq => Function.update_of_ne hq _ _
  | status cwd prog args =>
      obtain ⟨hother, hunpacked⟩ := ran_step w prog args
      exact ⟨hother, fun _ => hunpacked⟩
  | output prog args =>
      refine ⟨rfl, fun path out _ hargs hout hsuccess => ?_⟩
      rw [hargs] at hout
      exact summed_printed hout hsuccess
  | _ => rfl

/-! ## The models -/

/-- The target is as it was, or a part of a file with the digest. -/
def FromPinned (E : Env) (w w' : Files) (target pinned : String) : Prop :=
  w' target = w target ∨
    ∃ bytes part, E.sha256 bytes = pinned ∧ part <+: bytes ∧ w' target = some part

theorem FromPinned.of_partly {source target pinned : String} (hdigest : Digest E w source pinned)
    (h : Partly w w' source target) : FromPinned E w w' target pinned := by
  rcases h with hsame | ⟨bytes, part, hbytes, hpart, htarget⟩
  · exact .inl hsame
  · obtain ⟨bytes', hbytes', hsha⟩ := hdigest
    rw [hbytes] at hbytes'
    obtain rfl := Option.some.inj hbytes'
    exact .inr ⟨bytes, part, hsha, hpart, htarget⟩

theorem Digest.copied {source target pinned : String} (hdigest : Digest E w source pinned)
    (h : w' target = w source) : Digest E w' target pinned := by
  obtain ⟨bytes, hbytes, hsha⟩ := hdigest
  exact ⟨bytes, h.trans hbytes, hsha⟩

theorem pinned_det : Pinned DET_SHA256 := ⟨by decide, by decide +kernel, by decide⟩

theorem pinned_rec : Pinned REC_SHA256 := ⟨by decide, by decide +kernel, by decide⟩

theorem only_verifiedModels : (verifiedModels tmp).run.Only (Confined tmp) := by
  have hfind : ∀ {name}, (findUnder (tmp ++ "/" ++ "x") name).Only (Confined tmp) :=
    only_findUnder.imp fun _ => confined_of_looks
  refine only_exceptT_bind (only_runStreamed ?_) fun _ => ?_
  · rintro q rfl
    exact ⟨"buffalo_l.zip", rfl⟩
  refine only_exceptT_bind (only_runStreamed ?_) fun _ => ?_
  · rintro q ⟨rest, rfl⟩
    exact Under.trans ⟨rest, rfl⟩
  refine only_exceptT_bind (only_exceptT_lift hfind) fun _ => ?_
  refine only_exceptT_bind only_okOr fun _ => ?_
  refine only_exceptT_bind (only_exceptT_lift hfind) fun _ => ?_
  refine only_exceptT_bind only_okOr fun _ => ?_
  refine only_exceptT_bind only_verifyModel fun _ => ?_
  exact only_exceptT_bind only_verifyModel fun _ => only_exceptT_pure

theorem exec_okOr_ok {α : Type} {a : Option α} {e : String} {b : α}
    (h : Exec (Step E) (okOr a e).run w (.ok b) w') : a = some b ∧ w' = w := by
  cases a with
  | none => cases h.1
  | some a => exact ⟨congrArg some (Except.ok.inj h.1).symm, h.2⟩

theorem exec_verifiedModels {detSrc recSrc : String} {log : List String}
    (h : Exec (Step E) (verifiedModels tmp).run w (.ok (detSrc, recSrc, log)) w') :
    Under tmp detSrc ∧ Under tmp recSrc ∧ Digest E w' detSrc DET_SHA256 ∧
      Digest E w' recSrc REC_SHA256 := by
  obtain ⟨_, v₁, -, h₁⟩ := exec_exceptT_bind_ok.1 h
  obtain ⟨_, v₂, -, h₂⟩ := exec_exceptT_bind_ok.1 h₁
  obtain ⟨det, v₃, hdet, h₃⟩ := exec_lift_bind h₂
  obtain ⟨d, v₄, hd, h₄⟩ := exec_exceptT_bind_ok.1 h₃
  obtain ⟨recognizer, v₅, hrec, h₅⟩ := exec_lift_bind h₄
  obtain ⟨r, v₆, hr, h₆⟩ := exec_exceptT_bind_ok.1 h₅
  obtain ⟨line, v₇, hfirst, h₇⟩ := exec_exceptT_bind_ok.1 h₆
  obtain ⟨line', v₈, hsecond, hresult, rfl⟩ := exec_exceptT_bind_ok.1 h₇
  obtain ⟨rfl, rfl⟩ := exec_okOr_ok hd
  obtain ⟨rfl, rfl⟩ := exec_okOr_ok hr
  obtain ⟨rfl, hdigest⟩ := exec_verifyModel pinned_det hfirst
  obtain ⟨rfl, hdigest'⟩ := exec_verifyModel pinned_rec hsecond
  have hpaths := Except.ok.inj hresult
  obtain rfl := congrArg Prod.fst hpaths
  obtain rfl := congrArg (fun x => x.2.1) hpaths
  refine ⟨(found_under (exec_findUnder hdet)).trans, (found_under (exec_findUnder hrec)).trans,
    ?_, ?_⟩
  · exact hdigest
  · exact hdigest'

theorem det_ne_face : DET ≠ FACE := by decide

/-- What the installation of a pair leaves. -/
structure Paired (w w' : Files) (detSrc recSrc : String) (r : Except String (List String)) :
    Prop where
  other : ∀ q, q ≠ DET → q ≠ FACE → w' q = w q
  det : Partly w w' detSrc DET
  face : Partly w w' recSrc FACE
  whole : ∀ log, r = .ok log → w' DET = w detSrc ∧ w' FACE = w recSrc

theorem exec_installModels {detSrc recSrc : String} {log : List String}
    {r : Except String (List String)} (hsrc : recSrc ≠ DET)
    (h : Exec (Step E) (installModels detSrc recSrc log).run w r w') :
    Paired w w' detSrc recSrc r := by
  rcases exec_exceptT_bind.1 h with ⟨_, v₁, hmade, h₁⟩ | ⟨e, hmade, rfl⟩
  · obtain rfl := exec_createDirAll hmade
    rcases exec_exceptT_bind.1 h₁ with ⟨_, v₂, hfirst, h₂⟩ | ⟨e, hfirst, rfl⟩
    · obtain ⟨hother, hpart, hwhole⟩ := exec_installFile hfirst
      have hrec : v₂ recSrc = v₁ recSrc := hother recSrc hsrc
      have hface : v₂ FACE = v₁ FACE := hother FACE det_ne_face.symm
      have hsecond : ∀ {x : Except String Unit} {u : Files},
          Exec (Step E) (installFile 0o644 recSrc FACE).run v₂ x u →
          (∀ q, q ≠ DET → q ≠ FACE → u q = v₁ q) ∧ u DET = v₂ DET ∧ Partly v₁ u recSrc FACE ∧
            (x = .ok () → u FACE = v₁ recSrc) := by
        intro x u hx
        obtain ⟨hother', hpart', hwhole'⟩ := exec_installFile hx
        refine ⟨fun q hd hf => (hother' q hf).trans (hother q hd), hother' DET det_ne_face, ?_, ?_⟩
        · unfold Partly at hpart' ⊢
          rwa [hrec, hface] at hpart'
        · exact fun hx => (hwhole' hx).2.trans hrec
      have hdet : ∀ {u : Files}, u DET = v₂ DET → Partly v₁ u detSrc DET := by
        intro u hu
        unfold Partly
        rwa [hu]
      rcases exec_exceptT_bind.1 h₂ with ⟨_, v₃, hx, h₃⟩ | ⟨e, hx, rfl⟩
      · obtain ⟨hothers, hsame, hfaced, hboth⟩ := hsecond hx
        have hend : w' = v₃ := by
          rcases exec_exceptT_bind.1 h₃ with ⟨l, v₄, hrestart, h₄⟩ | ⟨e, hrestart, rfl⟩
          · exact h₄.2.trans (exec_whenStreamed not_writes_systemctl hrestart).1
          · exact (exec_whenStreamed not_writes_systemctl hrestart).1
        rw [hend]
        refine ⟨hothers, hdet hsame, hfaced, fun _ _ => ⟨?_, hboth rfl⟩⟩
        exact hsame.trans (hwhole rfl).2
      · obtain ⟨hothers, hsame, hfaced, -⟩ := hsecond hx
        exact ⟨hothers, hdet hsame, hfaced, fun _ h => by cases h⟩
    · obtain ⟨hother, hpart, -⟩ := exec_installFile hfirst
      exact ⟨fun q hd _ => hother q hd, hpart, .inl (hother FACE det_ne_face.symm),
        fun _ h => by cases h⟩
  · obtain rfl := exec_createDirAll hmade
    exact ⟨fun _ _ _ => rfl, .inl rfl, .inl rfl, fun _ h => by cases h⟩

/-- What a fetch of the models leaves outside of the temporary directory. -/
structure Models (E : Env) (tmp : String) (w w' : Files) : Prop where
  other : ∀ q, ¬ Under tmp q → q ≠ DET → q ≠ FACE → w' q = w q
  det : FromPinned E w w' DET DET_SHA256
  face : FromPinned E w w' FACE REC_SHA256

theorem Models.same (E : Env) (tmp : String) (w : Files) : Models E tmp w w :=
  ⟨fun _ _ _ _ => rfl, .inl rfl, .inl rfl⟩

theorem det_outside (stem : String) : ¬ Under (E.tmp stem) DET :=
  E.apart stem DET (.inl ⟨"det_10g.onnx", by decide⟩)

theorem face_outside (stem : String) : ¬ Under (E.tmp stem) FACE :=
  E.apart stem FACE (.inl ⟨"face.onnx", by decide⟩)

theorem exec_downloadModels {r : Except String (List String)}
    (h : Exec (Step E) downloadModels.run w r w') :
    Models E (E.tmp "linhello-models-") w w' ∧ ∀ log, r = .ok log →
      Digest E w' DET DET_SHA256 ∧ Digest E w' FACE REC_SHA256 := by
  rcases exec_exceptT_bind.1 h with ⟨_, v₀, htools, h₀⟩ | ⟨e, htools, rfl⟩
  · obtain rfl := exec_requireTools htools
    rcases exec_inTempDir h₀ with ⟨rfl, e, rfl⟩ | ⟨v, hbody, hafter⟩
    · exact ⟨Models.same _ _ _, fun _ h => by cases h⟩
    · have hdet := hafter DET (det_outside _)
      have hface := hafter FACE (face_outside _)
      rcases exec_exceptT_bind.1 hbody with ⟨⟨d, f, log⟩, v₁, hverified, hinstall⟩ |
        ⟨e, hverified, rfl⟩
      · have hbefore := exec_confined only_verifiedModels hverified
        obtain ⟨-, hf, hsha, hsha'⟩ := exec_verifiedModels hverified
        have hne : f ≠ DET := fun heq => det_outside _ (heq ▸ hf)
        have hpair := exec_installModels hne hinstall
        have hfrom : ∀ {source target pinned : String}, Digest E v₁ source pinned →
            Partly v₁ v source target → ¬ Under (E.tmp "linhello-models-") target →
            FromPinned E v₀ w' target pinned := by
          intro source target pinned hdigest hpart hout
          have hpinned := FromPinned.of_partly hdigest hpart
          unfold FromPinned at hpinned ⊢
          rwa [hbefore target hout, ← hafter target hout] at hpinned
        refine ⟨⟨fun q hq hqd hqf => ?_, hfrom hsha hpair.det (det_outside _),
          hfrom hsha' hpair.face (face_outside _)⟩, fun l hl => ?_⟩
        · exact (hafter q hq).trans ((hpair.other q hqd hqf).trans (hbefore q hq))
        · obtain ⟨hwhole, hwhole'⟩ := hpair.whole l hl
          exact ⟨hsha.copied (hdet.trans hwhole), hsha'.copied (hface.trans hwhole')⟩
      · have hbefore := exec_confined only_verifiedModels hverified
        have hsame : ∀ q, ¬ Under (E.tmp "linhello-models-") q → w' q = v₀ q := fun q hq =>
          (hafter q hq).trans (hbefore q hq)
        exact ⟨⟨fun q hq _ _ => hsame q hq, .inl (hsame DET (det_outside _)),
          .inl (hsame FACE (face_outside _))⟩, fun _ h => by cases h⟩
  · obtain rfl := exec_requireTools htools
    exact ⟨Models.same _ _ _, fun _ h => by cases h⟩

theorem models_pinned {force : Bool} {r : Except String (List String)}
    (h : Exec (Step E) (fetchModels force).run w r w') :
    Models E (E.tmp "linhello-models-") w w' ∧ ∀ log, r = .ok log → (force = false ∧ w' = w) ∨
      (Digest E w' DET DET_SHA256 ∧ Digest E w' FACE REC_SHA256) := by
  unfold fetchModels at h
  split at h
  · obtain ⟨hmodels, hboth⟩ := exec_downloadModels h
    exact ⟨hmodels, fun log hlog => .inr (hboth log hlog)⟩
  next hforce =>
    obtain ⟨present, v, hpresent, hrest⟩ := exec_lift_bind h
    have hsame : v = w := by
      obtain ⟨found, u, hfound, hthen⟩ := exec_bind.1 hpresent
      rw [exec_perform] at hfound
      obtain rfl : u = w := hfound
      split at hthen
      · rw [exec_perform] at hthen
        exact hthen
      · exact hthen.2
    subst hsame
    split at hrest
    · obtain ⟨rfl, rfl⟩ := hrest
      exact ⟨Models.same _ _ _, fun _ _ => .inl ⟨Bool.not_eq_true _ ▸ hforce, rfl⟩⟩
    · obtain ⟨hmodels, hboth⟩ := exec_downloadModels hrest
      exact ⟨hmodels, fun log hlog => .inr (hboth log hlog)⟩

/-- Both models arrive whole on a machine that holds nothing. -/
theorem models_pinned_installed :
    Digest simulated (eval answer (fetchModels true).run fun _ => none).2 DET DET_SHA256 ∧
      Digest simulated (eval answer (fetchModels true).run fun _ => none).2 FACE REC_SHA256 := by
  have hrun := exec_of_eval answer_step (fetchModels true).run fun _ => none
  have hok : (eval answer (fetchModels true).run fun _ => none).1 =
      .ok ["downloading buffalo_l (~250 MB) from InsightFace v0.7…",
        "detector (det_10g.onnx) sha256 verified", "recognizer (w600k_r50.onnx) sha256 verified",
        "installed /etc/linhello/det_10g.onnx + /etc/linhello/face.onnx",
        "restarted linhellod"] := by decide +kernel
  rcases (models_pinned hrun).2 _ hok with ⟨hforce, -⟩ | hboth
  · cases hforce
  · exact hboth

end Linhello.Cli.Downloads
