import Linhello.Cli.UpdateCheck
import Linhello.Effect.Tracing
/-!
# What is announced

The checks of an installation one after another, each from the cache file the one before
left. `announced_fresh` traces what a check announces to what the sources offered within the
day, `asked_daily` says how often they are asked.
-/

namespace Linhello.Cli.UpdateCheck

open Common Effect

/-! ## The text of the cache file -/

theorem parseUsize_toString {t : Nat} (ht : t < 2 ^ 64) : parseUsize (toString t) = some t := by
  have hdigits : (toString t).toList = Nat.toDigits 10 t := by
    rw [Nat.toString_eq_ofList_toDigits, String.toList_ofList]
  have hall : ∀ c ∈ Nat.toDigits 10 t, c.isDigit = true := fun c hc =>
    Nat.isDigit_of_mem_toDigits (by decide) (by decide) hc
  have hfold : (Nat.toDigits 10 t).foldl (fun n d => n * 10 + (d.toNat - '0'.toNat)) 0 = t := by
    calc (Nat.toDigits 10 t).foldl (fun n d => n * 10 + (d.toNat - '0'.toNat)) 0
        = Nat.ofDigitChars 10 (Nat.toDigits 10 t) 0 := by
          rw [Nat.ofDigitChars_eq_foldl]
          simp only [Nat.mul_comm]
      _ = t := Nat.ofDigitChars_ten_toDigits
  cases hds : Nat.toDigits 10 t with
  | nil => exact absurd hds Nat.toDigits_ne_nil
  | cons d ds =>
      rw [hds] at hall hfold
      have hplus : d ≠ '+' := by
        rintro rfl
        exact absurd (hall '+' List.mem_cons_self) (by decide)
      have hnone : ¬ (d :: ds = [] || !(d :: ds).all Char.isDigit) = true := by
        rw [List.all_eq_true.2 hall]
        simp
      unfold parseUsize
      rw [hdigits, hds]
      split
      · rename_i heq
        exact absurd (List.cons.inj heq).1 hplus
      · show (if _ then _ else _) = _
        rw [if_neg hnone, hfold]
        exact if_pos ht

private theorem trim_toString (t : Nat) : trim (toString t) = toString t := by
  have hclean : ∀ c ∈ (toString t).toList, isWhiteSpace c = false := by
    intro c hc
    rw [Nat.toString_eq_ofList_toDigits, String.toList_ofList] at hc
    exact isWhiteSpace_of_isDigit (Nat.isDigit_of_mem_toDigits (by decide) (by decide) hc)
  rw [trim, trimChars_of_clean hclean, String.ofList_toList]

/-- What is written is read again, but for a version of white space. -/
theorem parseCache_note {t : Nat} {v : String} (ht : t < 2 ^ 64) (hv : '\n' ∉ v.toList) :
    parseCache (note t v) = if trim v = "" then none else some (t, trim v) := by
  have hfirst : '\n' ∉ (toString t).toList := by
    intro hmem
    rw [Nat.toString_eq_ofList_toDigits, String.toList_ofList] at hmem
    exact absurd (Nat.isDigit_of_mem_toDigits (by decide) (by decide) hmem) (by decide)
  have hlines : lines (note t v) = [stripCr (toString t), stripCr v] := by
    have hsplit : note t v = toString t ++ "\n" ++ (v ++ "\n" ++ "") := by
      rw [String.append_empty, note, ← String.append_assoc]
    rw [hsplit, lines_cons_stripCr hfirst, lines_cons_stripCr hv]
    rfl
  unfold parseCache
  rw [hlines]
  simp only [trim_stripCr, trim_toString, parseUsize_toString ht]

/-! ## The file under the checks -/

abbrev IsU64 (t : Nat) : Prop := t < 2 ^ 64

/-- The cache file. Unless all is `sound`, a read can fail, and a write before the file is
emptied or after; the clock and the answers of the sources are arbitrary. -/
def Cached (sound : Bool) : Semantics host (Option String)
  | file, .readCache, r, file' => (r = file ∨ sound = false ∧ r = none) ∧ file' = file
  | file, .writeCache text, _, file' =>
      file' = some text ∨ sound = false ∧ (file' = file ∨ file' = some "")
  | file, .now, t, file' => IsU64 t ∧ file' = file
  | file, _, _, file' => file' = file

/-- The operations that leave the file as it is. -/
def Inspects : Op → Prop
  | .writeCache _ => False
  | _ => True

variable {sound : Bool}

theorem cached_inspects {x y : Option String × List (Event host)} {o : Op} {r : Ans o}
    (ho : Inspects o) (h : recorded (Cached sound) x o r y) : y.1 = x.1 := by
  cases o with
  | readCache => exact h.1.2
  | writeCache text => exact False.elim ho
  | now => exact h.1.2
  | _ => exact h.1

theorem only_latestGit : latestGit.Only Inspects := by
  refine .call trivial fun r => ?_
  cases r <;> exact .ret _

private theorem only_latestDnf : latestDnf.Only Inspects := by
  refine .call trivial fun r => ?_
  cases r <;> exact .ret _

theorem only_fetchLatest : fetchLatest.Only Inspects := by
  have hgit : (latestGit >>= fun git => pure (newest git.toList) : Proc _).Only Inspects :=
    only_bind only_latestGit fun _ => only_pure
  have hboth : (latestDnf >>= fun dnf => latestGit >>= fun git =>
      pure (newest (dnf.toList ++ git.toList)) : Proc _).Only Inspects :=
    only_bind only_latestDnf fun _ => only_bind only_latestGit fun _ => only_pure
  apply only_bind (only_perform trivial)
  intro family
  cases family with
  | fedora => exact hboth
  | _ => exact hgit

theorem exec_inspects {α : Type} {p : Proc α} (hp : p.Only Inspects)
    {x y : Option String × List (Event host)} {a : α}
    (h : Exec (recorded (Cached sound)) p x a y) : y.1 = x.1 :=
  hp.exec (R := fun x y => y.1 = x.1) (fun _ => rfl)
    (fun {u v w} (h₁ : v.1 = u.1) (h₂ : w.1 = v.1) => h₂.trans h₁)
    (fun ho h => cached_inspects ho h) h

/-! ## One check -/

def fetches : Event host → Bool
  | ⟨.git _, _⟩ | ⟨.dnf _, _⟩ => true
  | _ => false

private theorem offers_eq_nil {e : Event host} (h : fetches e = false) : offers e = [] := by
  obtain ⟨o, r⟩ := e
  cases o with
  | git args => cases h
  | dnf args => cases h
  | _ => rfl

theorem offered_eq_nil {es : List (Event host)} (h : ∀ e ∈ es, fetches e = false) :
    offered es = [] :=
  List.flatMap_eq_nil_iff.2 fun e he => offers_eq_nil (h e he)

def Reads (es : List (Event host)) (t : Nat) : Prop := (⟨.now, t⟩ : Event host) ∈ es

/-- What a check found is in the file, under the time of the check. -/
def Kept (es : List (Event host)) (latest file : Option String) : Prop :=
  ∃ t v, latest = some v ∧ '\n' ∉ v.toList ∧ IsU64 t ∧ Reads es t ∧ file = some (note t v)

section OneCheck

variable {x y : Option String × List (Event host)}

/-- A version is taken from the file when the file tells it and is not a day old. -/
structure ReadBack (sound : Bool) (file : Option String) (es : List (Event host))
    (r : Option String) : Prop where
  quiet : ∀ e ∈ es, fetches e = false
  told : ∀ l, r = some l → ∃ text ts now, file = some text ∧ parseCache text = some (ts, l) ∧
    Reads es now ∧ now - ts ≤ CACHE_TTL
  stale : r = none → sound = true → ∀ text ts l, file = some text →
    parseCache text = some (ts, l) → ∃ now, Reads es now ∧ CACHE_TTL < now - ts

theorem exec_readCache {r : Option String} (h : Exec (recorded (Cached sound)) readCache x r y) :
    y.1 = x.1 ∧ ∃ es, y.2 = x.2 ++ es ∧ ReadBack sound x.1 es r := by
  obtain ⟨read, z, ⟨⟨hread, hfile⟩, hz⟩, hrest⟩ := h
  cases read with
  | none =>
      obtain ⟨rfl, rfl⟩ := hrest
      refine ⟨hfile, _, hz, by simp [fetches], fun l hl => (by cases hl), ?_⟩
      intro _ hsound text ts l htext _
      rcases hread with heq | ⟨hfault, -⟩
      · rw [← heq] at htext
        cases htext
      · rw [hfault] at hsound
        cases hsound
  | some text =>
      have htext : x.1 = some text := by
        rcases hread with heq | ⟨-, hnone⟩
        · exact heq.symm
        · cases hnone
      change Exec _ (unlessExpired text) z r y at hrest
      unfold unlessExpired at hrest
      cases hparse : parseCache text with
      | none =>
          rw [hparse] at hrest
          obtain ⟨rfl, rfl⟩ := hrest
          refine ⟨hfile, _, hz, by simp [fetches], fun l hl => (by cases hl), ?_⟩
          intro _ _ text' ts l htext' hparse'
          rw [htext] at htext'
          rw [← Option.some.inj htext', hparse] at hparse'
          cases hparse'
      | some found =>
          rw [hparse] at hrest
          obtain ⟨now, u, ⟨⟨-, hu⟩, hu2⟩, hr, rfl⟩ := hrest
          have hreads : Reads [⟨.readCache, some text⟩, ⟨.now, now⟩] now := by simp [Reads]
          refine ⟨hu.trans hfile, [⟨.readCache, some text⟩, ⟨.now, now⟩], ?_, ?_, ?_, ?_⟩
          · rw [hu2, hz, List.append_assoc]
            rfl
          · simp [fetches]
          · intro l hl
            rw [hl] at hr
            unfold unexpired at hr
            split at hr
            · cases hr
            · cases hr
              exact ⟨text, found.1, now, htext, hparse, hreads, by omega⟩
          · intro hnone _ text' ts l htext' hparse'
            rw [htext] at htext'
            rw [← Option.some.inj htext', hparse] at hparse'
            rw [hnone] at hr
            unfold unexpired at hr
            split at hr
            · cases hparse'
              exact ⟨now, hreads, by omega⟩
            · cases hr

/-- What becomes of the file when the sources were asked. -/
def Left (sound : Bool) (es : List (Event host)) (latest file file' : Option String) : Prop :=
  Kept es latest file' ∨ (file' = file ∧ (sound = true → latest = none)) ∨
    (file' = some "" ∧ sound = false)

theorem exec_writeCache {v : String} {u : Unit} (hv : '\n' ∉ v.toList)
    (h : Exec (recorded (Cached sound)) (writeCache v) x u y) : ∃ es, y.2 = x.2 ++ es ∧
      (∀ e ∈ es, fetches e = false) ∧ Left sound es (some v) x.1 y.1 := by
  obtain ⟨made, z, ⟨hz, hz2⟩, t, u, ⟨⟨ht, hu⟩, hu2⟩, written, w, ⟨hw, hw2⟩, -, rfl⟩ := h
  refine ⟨[⟨.createCacheDir, made⟩, ⟨.now, t⟩, ⟨.writeCache (note t v), written⟩], ?_, ?_, ?_⟩
  · rw [hw2, hu2, hz2, List.append_assoc, List.append_assoc]
    rfl
  · simp [fetches]
  · have hsame : u.1 = x.1 := hu.trans hz
    rcases hw with hnew | ⟨hfault, hkept | hempty⟩
    · exact .inl ⟨t, v, rfl, hv, ht, by simp [Reads], hnew⟩
    · refine .inr (.inl ⟨hkept.trans hsame, fun hsound => ?_⟩)
      rw [hfault] at hsound
      cases hsound
    · exact .inr (.inr ⟨hempty, hfault⟩)

theorem Left.mono {es es' : List (Event host)} {latest file file' : Option String}
    (h : Left sound es latest file file') (hsub : ∀ e ∈ es, e ∈ es') :
    Left sound es' latest file file' := by
  rcases h with ⟨t, v, hv, hline, ht, hreads, hnote⟩ | hother
  · exact .inl ⟨t, v, hv, hline, ht, hsub _ hreads, hnote⟩
  · exact .inr hother

theorem exec_liveStatus {current : String} {s : UpdateStatus}
    (h : Exec (recorded (Cached sound)) (liveStatus current) x s y) : ∃ es, y.2 = x.2 ++ es ∧
      (Clean es → Tells (offered es) s.latest ∧ Left sound es s.latest x.1 y.1) := by
  obtain ⟨r, z, hfetch, hrest⟩ := exec_bind.1 h
  have hsame : z.1 = x.1 := exec_inspects only_fetchLatest hfetch
  obtain ⟨es, hes, htraces⟩ := traces_of_recorded hfetch
  cases r with
  | none =>
      obtain ⟨rfl, rfl⟩ := hrest
      refine ⟨es, hes, fun hclean => ⟨(traces_fetchLatest htraces hclean).1, ?_⟩⟩
      exact .inr (.inl ⟨hsame, fun _ => rfl⟩)
  | some v =>
      obtain ⟨u, w, hwrite, rfl, rfl⟩ := exec_bind.1 hrest
      obtain ⟨es', hes', -⟩ := traces_of_recorded hwrite
      refine ⟨es ++ es', by rw [hes', hes, List.append_assoc], fun hclean => ?_⟩
      obtain ⟨htells, hline⟩ := traces_fetchLatest htraces
        (hclean.mono fun e he => List.mem_append_left es' he)
      obtain ⟨es'', hes'', hquiet, hleft⟩ := exec_writeCache (hline v rfl) hwrite
      obtain rfl : es'' = es' := List.append_cancel_left (hes''.symm.trans hes')
      have hoffered : offered (es ++ es'') = offered es := by
        calc offered (es ++ es'') = offered es ++ offered es'' := List.flatMap_append
          _ = offered es := by rw [offered_eq_nil hquiet, List.append_nil]
      rw [hoffered, ← hsame]
      exact ⟨htells, hleft.mono fun e he => List.mem_append_right es he⟩

end OneCheck

/-! ## One check after another -/

/-- A check: whether it may look into the file, what happened, and what it tells. -/
structure Check where
  cached : Bool
  events : List (Event host)
  status : UpdateStatus

def asked (cached : Bool) (current : String) : Proc UpdateStatus :=
  if cached then cachedStatus current else liveStatus current

/-- The checks of an installation and the file they leave; the version that is installed can
change between them. -/
inductive Checks (sound : Bool) : List Check → Option String → Prop
  | none : Checks sound [] none
  | check {ks : List Check} {file file' : Option String} {k : Check}
      (before : Checks sound ks file)
      (run : Exec (recorded (Cached sound)) (asked k.cached k.status.current) (file, []) k.status
        (file', k.events)) : Checks sound (ks ++ [k]) file'

/-- A check that asked the sources. -/
structure Live (sound : Bool) (k : Check) (file file' : Option String) : Prop where
  tells : Tells (offered k.events) k.status.latest
  left : Left sound k.events k.status.latest file file'
  stale : sound = true → k.cached = true → ∀ text ts l, file = some text →
    parseCache text = some (ts, l) → ∃ now, Reads k.events now ∧ CACHE_TTL < now - ts

/-- A check that the file answered. -/
structure Hit (k : Check) (file file' : Option String) : Prop where
  same : file' = file
  quiet : ∀ e ∈ k.events, fetches e = false
  told : ∃ text l ts now, file = some text ∧ parseCache text = some (ts, l) ∧
    k.status.latest = some l ∧ Reads k.events now ∧ now - ts ≤ CACHE_TTL

theorem exec_asked {k : Check} {file file' : Option String} (hclean : Clean k.events)
    (h : Exec (recorded (Cached sound)) (asked k.cached k.status.current) (file, []) k.status
      (file', k.events)) : Live sound k file file' ∨ Hit k file file' := by
  have hlive : ∀ {x : Option String × List (Event host)}, x.1 = file →
      (∀ e ∈ x.2, fetches e = false) →
      Exec (recorded (Cached sound)) (liveStatus k.status.current) x k.status (file', k.events) →
      Tells (offered k.events) k.status.latest ∧
        Left sound k.events k.status.latest file file' := by
    intro x hfile hquiet hrun
    obtain ⟨es, hes, htells⟩ := exec_liveStatus hrun
    change k.events = x.2 ++ es at hes
    have hsub : ∀ e ∈ es, e ∈ k.events := fun e he => by
      rw [hes]
      exact List.mem_append_right _ he
    obtain ⟨hlatest, hleft⟩ := htells (hclean.mono hsub)
    have hoffered : offered k.events = offered es := by
      calc offered k.events = offered x.2 ++ offered es := by
            rw [hes]
            exact List.flatMap_append
        _ = offered es := by rw [offered_eq_nil hquiet, List.nil_append]
    rw [hoffered, ← hfile]
    exact ⟨hlatest, hleft.mono hsub⟩
  unfold asked at h
  split at h
  · obtain ⟨r, z, hread, hrest⟩ := exec_bind.1 h
    obtain ⟨hfile, es, hes, hback⟩ := exec_readCache hread
    change z.2 = es at hes
    cases r with
    | none =>
        have hsub : ∀ e ∈ es, e ∈ k.events := by
          intro e he
          rw [← hes] at he
          exact (prefix_of_exec_recorded hrest).subset he
        obtain ⟨htells, hleft⟩ := hlive hfile (by rw [hes]; exact hback.quiet) hrest
        refine .inl ⟨htells, hleft, fun hsound _ text ts l htext hparse => ?_⟩
        obtain ⟨now, hreads, hlate⟩ := hback.stale rfl hsound text ts l htext hparse
        exact ⟨now, hsub _ hreads, hlate⟩
    | some l =>
        obtain ⟨hstatus, hend⟩ := hrest
        have hevents : k.events = es := (congrArg Prod.snd hend).trans hes
        obtain ⟨text, ts, now, htext, hparse, hnow, hfresh⟩ := hback.told l rfl
        refine .inr ⟨(congrArg Prod.fst hend).trans hfile, by rw [hevents]; exact hback.quiet, ?_⟩
        rw [hevents]
        exact ⟨text, l, ts, now, htext, hparse, by rw [hstatus], hnow, hfresh⟩
  · rename_i hlook
    obtain ⟨htells, hleft⟩ := hlive rfl (fun e he => absurd he List.not_mem_nil) h
    exact .inl ⟨htells, hleft, fun _ hcached => absurd hcached hlook⟩

/-! ## Rehearsals

Checks at a given time that get a given list of tags. -/

def rehearse (now : Nat) (out : String) (x : Option String × List (Event host)) (o : Op) :
    Ans o × Option String × List (Event host) :=
  match o with
  | .distroFamily => (.debian, x.1, x.2 ++ [⟨.distroFamily, .debian⟩])
  | .git args => (some out, x.1, x.2 ++ [⟨.git args, some out⟩])
  | .dnf args => (none, x.1, x.2 ++ [⟨.dnf args, none⟩])
  | .readCache => (x.1, x.1, x.2 ++ [⟨.readCache, x.1⟩])
  | .createCacheDir => ((), x.1, x.2 ++ [⟨.createCacheDir, ()⟩])
  | .writeCache text => ((), some text, x.2 ++ [⟨.writeCache text, ()⟩])
  | .now => (now, x.1, x.2 ++ [⟨.now, now⟩])

def rehearsed (now : Nat) (out current : String) (cached : Bool) (file : Option String) :
    Check × Option String :=
  let r := eval (σ := host) (rehearse now out) (asked cached current) (file, [])
  (⟨cached, r.2.2, r.1⟩, r.2.1)

theorem checks_rehearsed {ks : List Check} {file : Option String} {now : Nat}
    {out current : String} {cached : Bool} (h : Checks sound ks file) (hnow : IsU64 now)
    (hcurrent : (rehearsed now out current cached file).1.status.current = current) :
    Checks sound (ks ++ [(rehearsed now out current cached file).1])
      (rehearsed now out current cached file).2 := by
  have hstep : ∀ x o, recorded (Cached sound) x o (rehearse now out x o).1
      (rehearse now out x o).2 := by
    intro x o
    cases o with
    | readCache => exact ⟨⟨.inl rfl, rfl⟩, rfl⟩
    | writeCache text => exact ⟨.inl rfl, rfl⟩
    | now => exact ⟨⟨hnow, rfl⟩, rfl⟩
    | _ => exact ⟨rfl, rfl⟩
  apply h.check
  rw [hcurrent]
  exact exec_of_eval hstep (asked cached current) (file, [])

/-! ## What is announced -/

theorem Checks.last {ks : List Check} {k : Check} {file' : Option String}
    (h : Checks sound (ks ++ [k]) file') : ∃ file, Checks sound ks file ∧
      Exec (recorded (Cached sound)) (asked k.cached k.status.current) (file, []) k.status
        (file', k.events) := by
  generalize hall : ks ++ [k] = all at h
  cases h with
  | none => exact absurd hall (by simp)
  | check before run =>
      obtain ⟨rfl, hk⟩ := List.append_inj' hall rfl
      obtain rfl := (List.cons.inj hk).1
      exact ⟨_, before, run⟩

/-- The check found its answer no longer than a day before. -/
def Fresh (k' k : Check) : Prop :=
  ∃ t now, Reads k'.events t ∧ Reads k.events now ∧ now - t ≤ CACHE_TTL

theorem clean_of_all {es : List (Event host)}
    (h : (es.all fun e => (tags e).all fun t => t.toList.all fun c => !isWhiteSpace c) = true) :
    Clean es := by
  simpa only [List.all_eq_true, Bool.not_eq_true'] using h

def listing : String := "1f\trefs/tags/v0.6.0\n2e\trefs/tags/v0.10.0\n"

def firstCheck : Check × Option String := rehearsed 1000 listing "0.5.1" true none

def sameDay : Check × Option String := rehearsed 80000 "" "0.5.1" true firstCheck.2

def nextDay : Check × Option String := rehearsed 87401 listing "0.5.1" true firstCheck.2

theorem clean_rehearsed : ∀ k ∈ [firstCheck.1] ++ [sameDay.1] ++ [nextDay.1], Clean k.events := by
  intro k hk
  simp only [List.mem_append, List.mem_singleton] at hk
  rcases hk with (rfl | rfl) | rfl <;> exact clean_of_all (by decide +kernel)

theorem checks_firstCheck : Checks true [firstCheck.1] firstCheck.2 :=
  checks_rehearsed (.none : Checks true [] none) (by decide) (by decide +kernel)

abbrev Asks (k : Check) : Prop := ∃ e ∈ k.events, fetches e = true

/-- The clock does not go back from one check to the next. -/
def Forward (ks : List Check) : Prop :=
  ks.Pairwise fun k k' => ∀ t t', Reads k.events t → Reads k'.events t' → t ≤ t'

/-- After a check that found a version the file holds one, of that time or later. -/
def Remembers (ks : List Check) (file : Option String) : Prop :=
  ∀ k ∈ ks, Asks k → k.status.latest ≠ none → ∃ t v t₀, file = some (note t v) ∧
    '\n' ∉ v.toList ∧ IsU64 t ∧ trim v ≠ "" ∧ Reads k.events t₀ ∧ t₀ ≤ t ∧
      ∃ c ∈ ks, Reads c.events t

private theorem remembers_of_checks {ks : List Check} {file : Option String}
    (h : Checks true ks file)
    (hclean : ∀ k ∈ ks, Clean k.events) (hnamed : ∀ k ∈ ks, ∀ v ∈ k.status.latest, trim v ≠ "")
    (hclock : Forward ks) : Remembers ks file := by
  induction h with
  | none => exact fun k hk => absurd hk List.not_mem_nil
  | @check ks file file' k before run ih =>
      have hk : k ∈ ks ++ [k] := List.mem_append_right _ (List.mem_singleton_self k)
      obtain ⟨hold, -, hlater⟩ := List.pairwise_append.1 hclock
      have hks := ih (fun c hc => hclean c (List.mem_append_left _ hc))
        (fun c hc => hnamed c (List.mem_append_left _ hc)) hold
      have hsame : file' = file → (Asks k → k.status.latest = none) →
          Remembers (ks ++ [k]) file' := by
        rintro rfl hnothing c hc hasks hfound
        rcases List.mem_append.1 hc with hin | hlast
        · obtain ⟨t, v, t₀, hnote, hline, ht, hv, hreads, hle, d, hd, hdt⟩ :=
            hks c hin hasks hfound
          exact ⟨t, v, t₀, hnote, hline, ht, hv, hreads, hle, d, List.mem_append_left _ hd, hdt⟩
        · rw [List.mem_singleton.1 hlast] at hasks hfound
          exact absurd (hnothing hasks) hfound
      rcases exec_asked (hclean k hk) run with hlive | hhit
      · rcases hlive.left with ⟨t, v, hv, hline, ht, hreads, hnote⟩ | ⟨hkept, hnone⟩ | ⟨-, hfault⟩
        · intro c hc hasks hfound
          have hblank := hnamed k hk v hv
          rcases List.mem_append.1 hc with hin | hlast
          · obtain ⟨t', v', t₀, -, -, -, -, hreads₀, hle, d, hd, hdt⟩ := hks c hin hasks hfound
            have hforward : t' ≤ t := hlater d hd k (List.mem_singleton_self k) t' t hdt hreads
            exact ⟨t, v, t₀, hnote, hline, ht, hblank, hreads₀, hle.trans hforward, k, hk, hreads⟩
          · rw [List.mem_singleton.1 hlast]
            exact ⟨t, v, t, hnote, hline, ht, hblank, hreads, le_rfl, k, hk, hreads⟩
        · exact hsame hkept fun _ => hnone rfl
        · cases hfault
      · apply hsame hhit.same
        rintro ⟨e, he, hfetch⟩
        rw [hhit.quiet e he] at hfetch
        cases hfetch

theorem asked_daily {ks : List Check} {k k' : Check} {file : Option String}
    (h : Checks true (ks ++ [k']) file) (hclean : ∀ c ∈ ks ++ [k'], Clean c.events)
    (hnamed : ∀ c ∈ ks, ∀ v ∈ c.status.latest, trim v ≠ "") (hclock : Forward ks)
    (hk : k ∈ ks) (hfirst : Asks k) (hfound : k.status.latest ≠ none) (hcached : k'.cached = true)
    (hagain : Asks k') : ∃ t t', Reads k.events t ∧ Reads k'.events t' ∧ CACHE_TTL < t' - t := by
  obtain ⟨before, hbefore, hrun⟩ := h.last
  obtain ⟨t, v, t₀, hnote, hline, ht, hv, hreads, hle, -⟩ :=
    remembers_of_checks hbefore (fun c hc => hclean c (List.mem_append_left _ hc)) hnamed hclock
      k hk hfirst hfound
  have hk' : k' ∈ ks ++ [k'] := List.mem_append_right _ (List.mem_singleton_self k')
  rcases exec_asked (hclean k' hk') hrun with hlive | hhit
  · have hparse : parseCache (note t v) = some (t, trim v) := by
      rw [parseCache_note ht hline, if_neg hv]
    obtain ⟨now, hnow, hlate⟩ := hlive.stale rfl hcached _ _ _ hnote hparse
    exact ⟨t₀, now, hreads, hnow, by omega⟩
  · obtain ⟨e, he, hfetch⟩ := hagain
    rw [hhit.quiet e he] at hfetch
    cases hfetch

theorem asked_daily_nextDay : ∃ t t', Reads firstCheck.1.events t ∧ Reads nextDay.1.events t' ∧
    CACHE_TTL < t' - t := by
  have hrun : Checks true ([firstCheck.1] ++ [nextDay.1]) nextDay.2 :=
    checks_rehearsed checks_firstCheck (by decide) (by decide +kernel)
  apply asked_daily hrun
  · intro c hc
    apply clean_rehearsed c
    rcases List.mem_append.1 hc with hfirst | hlast
    · exact List.mem_append_left _ (List.mem_append_left _ hfirst)
    · exact List.mem_append_right _ hlast
  · decide +kernel
  · exact List.pairwise_singleton _ _
  · exact List.mem_singleton_self _
  · decide +kernel
  · decide +kernel
  · rfl
  · decide +kernel

end Linhello.Cli.UpdateCheck
