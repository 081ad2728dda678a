import Linhello.Cli.Rollback
import Linhello.Common.KeyFile
import Linhello.Select.Maximum
import Mathlib.Data.List.GetD
import Mathlib.Order.PiLex
/-!
# The update check

Whether there is a newer release: what the sources list is compared by version, and the
result is kept in a file for a day. `traces_fetchLatest` says what is told of the versions
on offer.
-/

namespace Linhello.Cli.UpdateCheck

open Common Effect Select
open Update (cmpFrom cmpVersion parseVersion)

/-! ## The order of versions -/

/-- The numbers of a version; there is no end to the zeros. -/
def numbers (s : String) : Lex (ℕ → ℕ) := toLex fun i => (parseVersion s).getD i 0

private theorem cmpFrom_gt {va vb : List Nat} {n i : Nat}
    (heq : ∀ j < i, va.getD j 0 = vb.getD j 0) (hva : va.length ≤ i + n) (hvb : vb.length ≤ i + n) :
    cmpFrom va vb i n = .gt ↔
      toLex (fun j => vb.getD j 0) < (toLex (fun j => va.getD j 0) : Lex (ℕ → ℕ)) := by
  induction n generalizing i with
  | zero =>
      have hsame : (fun j => vb.getD j 0) = fun j => va.getD j 0 := by
        funext j
        by_cases hj : j < i
        · exact (heq j hj).symm
        · rw [List.getD_eq_default _ _ (by omega), List.getD_eq_default _ _ (by omega)]
      rw [hsame]
      exact iff_of_false (by simp [cmpFrom]) (lt_irrefl _)
  | succ n ih =>
      unfold cmpFrom
      cases hcmp : compare (va.getD i 0) (vb.getD i 0) with
      | eq =>
          apply ih _ (by omega) (by omega)
          intro j hj
          rcases Nat.lt_succ_iff_lt_or_eq.1 hj with hlt | rfl
          · exact heq j hlt
          · exact Nat.compare_eq_eq.1 hcmp
      | gt =>
          have hlt := Nat.compare_eq_gt.1 hcmp
          exact iff_of_true rfl ⟨i, fun j hj => (heq j hj).symm, hlt⟩
      | lt =>
          have hlt := Nat.compare_eq_lt.1 hcmp
          refine iff_of_false (by simp) (lt_asymm ?_)
          exact ⟨i, heq, hlt⟩

theorem ranks_cmpVersion : Ranks cmpVersion numbers := by
  intro a b
  exact cmpFrom_gt (fun j hj => absurd hj (Nat.not_lt_zero j)) (by omega) (by omega)

/-! ## Operations -/

inductive Op
  | distroFamily
  | git (args : List String)
  | dnf (args : List String)
  | readCache
  | createCacheDir
  | writeCache (text : String)
  | now

/-- A command that succeeds answers its output. -/
def Ans : Op → Type
  | .distroFamily => DistroFamily
  | .git _ | .dnf _ | .readCache => Option String
  | .createCacheDir | .writeCache _ => Unit
  | .now => Nat

abbrev host : Signature := ⟨Op, Ans⟩

abbrev Proc (α : Type) := Program host α

def perform (o : Op) : Proc (Ans o) := Program.perform (σ := host) o

/-! ## The check -/

def CACHE_TTL : Nat := 24 * 60 * 60

structure UpdateStatus where
  current : String
  latest : Option String

/-- `rsplit('/').next()` -/
def lastSegment (l : String) : String :=
  String.ofList (l.toList.reverse.takeWhile (· ≠ '/')).reverse

/-- The tags in the output of `git ls-remote`. -/
def tagNames (stdout : String) : List String :=
  ((lines stdout).map fun l => trim (lastSegment l)).filter (· ≠ "")

def gitArgs : List String := ["ls-remote", "--tags", "--refs", Update.REPO_URL, "v*"]

def latestGit : Proc (Option String) := do
  match ← perform (.git gitArgs) with
  | some stdout => pure (maxBy cmpVersion (tagNames stdout))
  | none => pure none

def startsWithDigit (l : String) : Bool := (l.toList.head?.map Char.isDigit).getD false

/-- The first line that looks like a version. -/
def dnfVersion (stdout : String) : Option String :=
  let v := (((lines stdout).map trim).find? startsWithDigit).getD ""
  if v = "" then none else some v

def dnfArgs : List String :=
  ["-q", "-C", "repoquery", "--available", "--latest-limit=1", "--qf=%{version}", "linhello"]

def latestDnf : Proc (Option String) := do
  match ← perform (.dnf dnfArgs) with
  | some stdout => pure (dnfVersion stdout)
  | none => pure none

def stripV (s : String) : String :=
  String.ofList ((trim s).toList.dropWhile fun c => c == 'v' || c == 'V')

def newest (raw : List String) : Option String := maxBy cmpVersion (raw.map stripV)

def fetchLatest : Proc (Option String) := do
  match ← perform .distroFamily with
  | .fedora => do
      let dnf ← latestDnf
      let git ← latestGit
      pure (newest (dnf.toList ++ git.toList))
  | _ => do
      let git ← latestGit
      pure (newest git.toList)

def unexpired (now ts : Nat) (latest : String) : Option String :=
  if now - ts > CACHE_TTL then none else some latest

/-- When a check was made, and the version it found. -/
def parseCache (text : String) : Option (Nat × String) :=
  match lines text with
  | first :: second :: _ =>
      match parseUsize (trim first) with
      | some ts => if trim second = "" then none else some (ts, trim second)
      | none => none
  | _ => none

def unlessExpired (text : String) : Proc (Option String) :=
  match parseCache text with
  | none => pure none
  | some (ts, latest) => do
      let now ← perform .now
      pure (unexpired now ts latest)

def readCache : Proc (Option String) := do
  match ← perform .readCache with
  | none => pure none
  | some text => unlessExpired text

def note (now : Nat) (latest : String) : String := toString now ++ "\n" ++ latest ++ "\n"

def writeCache (latest : String) : Proc Unit := do
  perform .createCacheDir
  let now ← perform .now
  perform (.writeCache (note now latest))

def liveStatus (current : String) : Proc UpdateStatus := do
  match ← fetchLatest with
  | some v => do
      writeCache v
      pure { current := current, latest := some v }
  | none => pure { current := current, latest := none }

def cachedStatus (current : String) : Proc UpdateStatus := do
  match ← readCache with
  | some latest => pure { current := current, latest := some latest }
  | none => liveStatus current

/-! ## What the sources offer -/

def offers : Event host → List String
  | ⟨.git _, some stdout⟩ => tagNames stdout
  | ⟨.dnf _, some stdout⟩ => (dnfVersion stdout).toList
  | _ => []

def offered (es : List (Event host)) : List String := es.flatMap offers

def tags : Event host → List String
  | ⟨.git _, some stdout⟩ => tagNames stdout
  | _ => []

abbrev Clean (es : List (Event host)) : Prop :=
  ∀ e ∈ es, ∀ t ∈ tags e, ∀ c ∈ t.toList, isWhiteSpace c = false

/-- What is told of the versions on offer: the newest, without its `v`. -/
def Tells (vs : List String) : Option String → Prop
  | none => vs = []
  | some l => (∃ v ∈ vs, numbers l = numbers v) ∧ ∀ v ∈ vs, numbers v ≤ numbers l

/-- Without white space the numbers do not depend on the `v`. -/
theorem numbers_stripV {s : String} (h : ∀ c ∈ s.toList, isWhiteSpace c = false) :
    numbers (stripV s) = numbers s := by
  have hs : (trim s).toList = s.toList := by rw [trim, String.toList_ofList, trimChars_of_clean h]
  have hstrip : (trim (stripV s)).toList = s.toList.dropWhile fun c => c == 'v' || c == 'V' := by
    rw [trim, stripV, String.toList_ofList, String.toList_ofList, hs]
    exact trimChars_of_clean fun c hc => h c (List.dropWhile_subset _ hc)
  have hparse : parseVersion (stripV s) = parseVersion s := by
    unfold parseVersion
    rw [hstrip, hs, List.dropWhile_idempotent]
  rw [numbers, hparse]
  rfl

/-- A trimmed line that starts with a digit has no `v` to strip. -/
theorem stripV_of_digit {l : String} (h : startsWithDigit (trim l) = true) :
    stripV (trim l) = trim l := by
  unfold startsWithDigit at h
  cases hl : (trim l).toList with
  | nil =>
      rw [hl] at h
      cases h
  | cons c body =>
      rw [hl] at h
      have hdigit : c.isDigit = true := h
      have hv : (c == 'v' || c == 'V') = false := by
        rw [Bool.or_eq_false_iff]
        constructor
        · apply beq_false_of_ne
          rintro rfl
          exact absurd hdigit (by decide)
        · apply beq_false_of_ne
          rintro rfl
          exact absurd hdigit (by decide)
      rw [stripV, trim_trim, hl, List.dropWhile_cons, hv, if_neg Bool.false_ne_true, ← hl,
        String.ofList_toList]

/-! ## One line

What a check finds is on one line, as the cache file has it. -/

theorem mem_of_mem_stripV {c : Char} {s : String} (h : c ∈ (stripV s).toList) : c ∈ s.toList := by
  rw [stripV, String.toList_ofList] at h
  exact mem_of_mem_trim (List.dropWhile_subset _ h)

theorem mem_of_mem_lastSegment {c : Char} {l : String} (h : c ∈ (lastSegment l).toList) :
    c ∈ l.toList := by
  rw [lastSegment, String.toList_ofList, List.mem_reverse] at h
  exact List.mem_reverse.1 (List.takeWhile_subset _ h)

def OneLine (r : Option String) : Prop := ∀ v ∈ r, '\n' ∉ v.toList

theorem oneLine_newest {raw : List String} (h : ∀ w ∈ raw, '\n' ∉ w.toList) :
    OneLine (newest raw) := by
  intro v hv hmem
  obtain ⟨w, hw, rfl⟩ := List.mem_map.1 (mem_of_maxBy ranks_cmpVersion hv)
  exact h w hw (mem_of_mem_stripV hmem)

/-! ## The newest version -/

theorem tells_newest {raw vs : List String} (hsub : ∀ w ∈ raw, w ∈ vs)
    (hstrip : ∀ w ∈ raw, numbers (stripV w) = numbers w)
    (hbest : ∀ v ∈ vs, ∃ w ∈ raw, numbers v ≤ numbers w) : Tells vs (newest raw) := by
  cases hl : newest raw with
  | none =>
      have hraw : raw = [] := List.map_eq_nil_iff.1 (maxBy_eq_none.1 hl)
      apply List.eq_nil_iff_forall_not_mem.2
      intro v hv
      obtain ⟨w, hw, -⟩ := hbest v hv
      rw [hraw] at hw
      exact absurd hw List.not_mem_nil
  | some l =>
      obtain ⟨w, hw, hwl⟩ := List.mem_map.1 (mem_of_maxBy ranks_cmpVersion hl)
      refine ⟨⟨w, hsub w hw, by rw [← hwl, hstrip w hw]⟩, fun v hv => ?_⟩
      obtain ⟨u, hu, hvu⟩ := hbest v hv
      calc numbers v ≤ numbers u := hvu
        _ = numbers (stripV u) := (hstrip u hu).symm
        _ ≤ numbers l := le_of_maxBy ranks_cmpVersion hl (List.mem_map_of_mem hu)

/-- What a source answers stands for all it offers. -/
structure Stands (vs : List String) (r : Option String) : Prop where
  sub : ∀ w ∈ r, w ∈ vs
  line : OneLine r
  strip : ∀ w ∈ r, numbers (stripV w) = numbers w
  best : ∀ v ∈ vs, ∃ w ∈ r, numbers v ≤ numbers w

theorem stands_none : Stands [] none where
  sub := fun w hw => by cases hw
  line := fun w hw => by cases hw
  strip := fun w hw => by cases hw
  best := fun v hv => by cases hv

theorem traces_latestGit {es : List (Event host)} {r : Option String} (h : latestGit.Traces es r)
    (hclean : Clean es) : Stands (offered es) r := by
  obtain ⟨out, rest, rfl, hrest⟩ := h
  cases out with
  | none =>
      obtain ⟨rfl, rfl⟩ := hrest
      exact stands_none
  | some stdout =>
      obtain ⟨rfl, rfl⟩ := hrest
      have hvs : offered [⟨.git gitArgs, some stdout⟩] = tagNames stdout := List.append_nil _
      rw [hvs]
      refine ⟨fun w hw => mem_of_maxBy ranks_cmpVersion hw, fun w hw hmem => ?_, fun w hw => ?_,
        fun v hv => ?_⟩
      · have htag := (List.mem_filter.1 (mem_of_maxBy ranks_cmpVersion hw)).1
        obtain ⟨l, hl, rfl⟩ := List.mem_map.1 htag
        exact no_newline_of_mem_lines hl (mem_of_mem_lastSegment (mem_of_mem_trim hmem))
      · exact numbers_stripV (hclean _ List.mem_cons_self w (mem_of_maxBy ranks_cmpVersion hw))
      · cases hr : maxBy cmpVersion (tagNames stdout) with
        | none =>
            rw [maxBy_eq_none.1 hr] at hv
            cases hv
        | some w => exact ⟨w, rfl, le_of_maxBy ranks_cmpVersion hr hv⟩

theorem traces_latestDnf {es : List (Event host)} {r : Option String} (h : latestDnf.Traces es r) :
    Stands (offered es) r := by
  obtain ⟨out, rest, rfl, hrest⟩ := h
  cases out with
  | none =>
      obtain ⟨rfl, rfl⟩ := hrest
      exact stands_none
  | some stdout =>
      obtain ⟨rfl, rfl⟩ := hrest
      have hvs : offered [⟨.dnf dnfArgs, some stdout⟩] = (dnfVersion stdout).toList :=
        List.append_nil _
      rw [hvs]
      have hfound : ∀ w ∈ dnfVersion stdout, ∃ l ∈ lines stdout, w = trim l ∧ stripV w = w := by
        intro w hw
        unfold dnfVersion at hw
        cases hfind : ((lines stdout).map trim).find? startsWithDigit with
        | none =>
            rw [hfind] at hw
            cases hw
        | some v =>
            rw [hfind] at hw
            obtain ⟨l, hl, rfl⟩ := List.mem_map.1 (List.mem_of_find?_eq_some hfind)
            have hstrip := stripV_of_digit (List.find?_some hfind)
            simp only [Option.getD_some] at hw
            split at hw
            · cases hw
            · cases hw
              exact ⟨l, hl, rfl, hstrip⟩
      refine ⟨fun w hw => Option.mem_toList.2 hw, fun w hw hmem => ?_, fun w hw => ?_,
        fun v hv => ⟨v, Option.mem_toList.1 hv, le_rfl⟩⟩
      · obtain ⟨l, hl, rfl, -⟩ := hfound w hw
        exact no_newline_of_mem_lines hl (mem_of_mem_trim hmem)
      · obtain ⟨l, -, -, hstrip⟩ := hfound w hw
        rw [hstrip]

theorem Clean.mono {es es' : List (Event host)} (h : Clean es) (hsub : ∀ e ∈ es', e ∈ es) :
    Clean es' :=
  fun e he => h e (hsub e he)

theorem Stands.tells {vs : List String} {r : Option String} (h : Stands vs r) :
    Tells vs (newest r.toList) ∧ OneLine (newest r.toList) := by
  refine ⟨tells_newest ?_ ?_ ?_, oneLine_newest ?_⟩
  · exact fun w hw => h.sub w (Option.mem_toList.1 hw)
  · exact fun w hw => h.strip w (Option.mem_toList.1 hw)
  · intro v hv
    obtain ⟨w, hw, hle⟩ := h.best v hv
    exact ⟨w, Option.mem_toList.2 hw, hle⟩
  · exact fun w hw => h.line w (Option.mem_toList.1 hw)

theorem Stands.tells_append {vs us : List String} {r q : Option String} (h : Stands vs r)
    (h' : Stands us q) : Tells (vs ++ us) (newest (r.toList ++ q.toList)) ∧
      OneLine (newest (r.toList ++ q.toList)) := by
  refine ⟨tells_newest ?_ ?_ ?_, oneLine_newest ?_⟩
  · intro w hw
    rcases List.mem_append.1 hw with hr | hq
    · exact List.mem_append_left us (h.sub w (Option.mem_toList.1 hr))
    · exact List.mem_append_right vs (h'.sub w (Option.mem_toList.1 hq))
  · intro w hw
    rcases List.mem_append.1 hw with hr | hq
    · exact h.strip w (Option.mem_toList.1 hr)
    · exact h'.strip w (Option.mem_toList.1 hq)
  · intro v hv
    rcases List.mem_append.1 hv with hin | hin
    · obtain ⟨w, hw, hle⟩ := h.best v hin
      exact ⟨w, List.mem_append_left _ (Option.mem_toList.2 hw), hle⟩
    · obtain ⟨w, hw, hle⟩ := h'.best v hin
      exact ⟨w, List.mem_append_right _ (Option.mem_toList.2 hw), hle⟩
  · intro w hw
    rcases List.mem_append.1 hw with hr | hq
    · exact h.line w (Option.mem_toList.1 hr)
    · exact h'.line w (Option.mem_toList.1 hq)

theorem traces_fetchLatest {es : List (Event host)} {r : Option String}
    (h : fetchLatest.Traces es r) (hclean : Clean es) : Tells (offered es) r ∧ OneLine r := by
  obtain ⟨family, rest, rfl, hrest⟩ := h
  have hrun : ∀ {es' : List (Event host)},
      (∀ e ∈ es', e ∈ (⟨.distroFamily, family⟩ : Event host) :: rest) →
      ∀ {r' : Option String}, latestGit.Traces es' r' → Stands (offered es') r' :=
    fun hsub _ hrun => traces_latestGit hrun (hclean.mono hsub)
  have hother : ∀ {r' : Option String}, (latestGit >>= fun git => pure (newest git.toList)).Traces
      rest r' → Tells (offered rest) r' ∧ OneLine r' := by
    intro r' hgit
    obtain ⟨es₁, es₂, git, rfl, h₁, rfl, rfl⟩ := traces_bind.1 hgit
    rw [List.append_nil]
    exact (hrun (fun e he => by simp [he]) h₁).tells
  cases family with
  | fedora =>
      change (latestDnf >>= fun dnf => latestGit >>= fun git =>
        pure (newest (dnf.toList ++ git.toList))).Traces rest r at hrest
      obtain ⟨es₁, es₂, dnf, rfl, h₁, h₂⟩ := traces_bind.1 hrest
      obtain ⟨es₃, es₄, git, rfl, h₃, rfl, rfl⟩ := traces_bind.1 h₂
      have hoffered : offered ((⟨.distroFamily, DistroFamily.fedora⟩ : Event host) ::
          (es₁ ++ (es₃ ++ []))) = offered es₁ ++ offered es₃ := by
        simp [offered, offers]
      rw [hoffered]
      exact (traces_latestDnf h₁).tells_append (hrun (fun e he => by simp [he]) h₃)
  | _ => exact hother hrest

end Linhello.Cli.UpdateCheck
