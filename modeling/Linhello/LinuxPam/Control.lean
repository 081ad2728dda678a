import Linhello.LinuxPam.Directives
import Linhello.LinuxPam.Stack
/-!
# Controls

The control of a directive says what each value that its module returns does to the verdict:
four keywords, or a list of values and actions in brackets. A file that is included stands
for its own directives.
-/

namespace Linhello.LinuxPam

/-! ## The verdict -/

inductive Impression where
  | undef
  | positive
  | negative
deriving DecidableEq, Repr

/-- What was made of the modules so far, and whether the value to be returned is success. -/
structure Verdict where
  impression : Impression
  success : Bool
deriving DecidableEq, Repr

def Verdict.initial : Verdict := ⟨.undef, false⟩

def Verdict.grants (v : Verdict) : Bool := v.impression == .positive && v.success

/-- The verdict of a stack that was jumped out of. -/
def Verdict.broken (_ : Verdict) : Verdict := ⟨.negative, false⟩

/-- A value counts unless a failure was there before. -/
def Verdict.accept (v : Verdict) (success : Bool) : Verdict :=
  if v.impression = .undef ∨ (v.impression = .positive ∧ v.success = true) then
    ⟨.positive, success⟩
  else v

def Verdict.reject (v : Verdict) (success : Bool) : Verdict :=
  if v.impression = .negative then v else ⟨.negative, success⟩

/-! ## Actions -/

inductive Action where
  | ignore
  | ok
  | done
  | bad
  | die
  | reset
  | jump (n : Nat)
deriving DecidableEq, Repr

/-- What an action does; `counts` says whether a jump also counts as `ok`. -/
def Action.entry (counts : Bool) (a : Action) (success : Bool) : Entry Verdict := fun v =>
  match a with
  | .ignore => (v, .on)
  | .ok => (v.accept success, .on)
  | .done =>
      let v' := v.accept success
      (v', if v'.impression = .positive then .stop else .on)
  | .bad => (v.reject success, .on)
  | .die => (v.reject success, .stop)
  | .reset => (.initial, .on)
  | .jump n => (if counts then v.accept success else v, .skip n)

/-- The action for each value a module returns, by its name. -/
abbrev Control := String → Action

/-- The value that is returned by a module that succeeds. -/
def SUCCESS : String := "success"

def NEW_AUTHTOK_REQD : String := "new_authtok_reqd"

def required : Control := fun ret =>
  if ret = SUCCESS ∨ ret = NEW_AUTHTOK_REQD then .ok else if ret = "ignore" then .ignore else .bad

def requisite : Control := fun ret =>
  if ret = SUCCESS ∨ ret = NEW_AUTHTOK_REQD then .ok else if ret = "ignore" then .ignore else .die

def sufficient : Control := fun ret =>
  if ret = SUCCESS ∨ ret = NEW_AUTHTOK_REQD then .done else .ignore

def optional : Control := fun ret =>
  if ret = SUCCESS ∨ ret = NEW_AUTHTOK_REQD then .ok else .ignore

/-- A number jumps over as many entries; zero is no jump. -/
def actionOf (s : String) : Option Action :=
  if s = "ignore" then some .ignore
  else if s = "ok" then some .ok
  else if s = "done" then some .done
  else if s = "bad" then some .bad
  else if s = "die" then some .die
  else if s = "reset" then some .reset
  else if s.toList ≠ [] ∧ s.toList.all Char.isDigit then
    let n := s.toList.foldl (fun n d => n * 10 + (d.toNat - '0'.toNat)) 0
    some (if n = 0 then .ignore else .jump n)
  else none

/-- `value=action`. -/
def valueAction (word : String) : Option (String × Action) :=
  let value := word.toList.takeWhile (· != '=')
  (actionOf (String.ofList (word.toList.drop (value.length + 1)))).map fun a =>
    (String.ofList value, a)

/-- The last action for a value counts, and the default one for the values without. -/
def bracketed (pairs : List (String × Action)) : Control := fun ret =>
  match pairs.reverse.find? (·.1 == ret) with
  | some (_, a) => a
  | none =>
      match pairs.find? (·.1 == "default") with
      | some (_, a) => a
      | none => .bad

def controlOf (word : String) : Control :=
  if sameWord word "required" then required
  else if sameWord word "requisite" then requisite
  else if sameWord word "sufficient" then sufficient
  else if sameWord word "optional" then optional
  else
    match (tokensFrom .between word.toList).mapM valueAction with
    | some pairs => bracketed pairs
    | none => fun _ => .bad

/-! ## Stacks of a file -/

/-- An entry of a stack before its modules returned: a module with its control, or a stack
of its own, which decides for itself. -/
inductive Site where
  | module (control : Control)
  | substack

/-- What happens at a site: the value the module returns, or what the inner stack makes of
the verdict. -/
structure Outcome where
  ret : String
  inner : Verdict → Verdict

def Site.entry (counts : Bool) (site : Site) (outcome : Outcome) : Entry Verdict :=
  match site with
  | .module control => (control outcome.ret).entry counts (outcome.ret == SUCCESS)
  | .substack => fun v => (outcome.inner v, .on)

/-- The sites of a logical line, where `files` has those of the files that are included. A
line without a control is an error that fails. -/
def sitesOf (files : String → List Site) (line : List String) : List Site :=
  match tokens line with
  | _ :: control :: path =>
      if sameWord control "include" then path.head?.elim [] files
      else if sameWord control "substack" then [.substack]
      else [.module (controlOf control)]
  | _ => [.module fun _ => .bad]

theorem sitesOf_words {files : String → List Site} {line path : List String} {kind control : String}
    (h : tokens line = kind :: control :: path) (hinclude : sameWord control "include" = false)
    (hsubstack : sameWord control "substack" = false) :
    sitesOf files line = [.module (controlOf control)] := by
  rw [sitesOf, h]
  simp only [hinclude, hsubstack, Bool.false_eq_true, if_false]

/-- The sites of the logical lines for one facility. -/
def sitesFor (f : Facility) (files : String → List Site) (ls : List (List String)) : List Site :=
  (ls.filter fun g => facility g == some f).flatMap (sitesOf files)

/-- The entries of the sites from position `j` on. -/
def entriesFrom (counts : Bool) (out : Nat → Outcome) : Nat → List Site → List (Entry Verdict)
  | _, [] => []
  | j, site :: rest => site.entry counts (out j) :: entriesFrom counts out (j + 1) rest

def evaluate (counts : Bool) (sites : List Site) (out : Nat → Outcome) : List Nat × Verdict :=
  runFrom Verdict.broken .initial 0 0 (entriesFrom counts out 0 sites)

/-! ## One more site -/

/-- The outcomes of a stack with one more site at `k`. -/
def insertAt (k : Nat) (outcome : Outcome) (out : Nat → Outcome) (j : Nat) : Outcome :=
  if j < k then out j else if j = k then outcome else out (j - 1)

/-- Each jump from in front of `k` lands in front of it, or is past the end also of a
stack that is longer by one. -/
def JumpsStay (sites : List Site) (k : Nat) : Prop :=
  ∀ j control ret n, j < k → sites[j]? = some (.module control) → control ret = .jump n →
    j + 1 + n < k ∨ sites.length + 1 < j + 1 + n

/-- One more site between the others, with an outcome of its kind, changes nothing: whether
the stack grants, which of the others run, and where their jumps land. -/
structure Transparent (counts : Bool) (site : Site) (kind : Outcome → Prop)
    (front back : List Site) : Prop where
  grants : ∀ out outcome, kind outcome →
    (evaluate counts (front ++ site :: back) (insertAt front.length outcome out)).2.grants =
      (evaluate counts (front ++ back) out).2.grants
  runs : ∀ out outcome, kind outcome → ∀ j ∈ (evaluate counts (front ++ back) out).1,
    shiftAt front.length j ∈
      (evaluate counts (front ++ site :: back) (insertAt front.length outcome out)).1
  lands : ∀ j control ret n, (front ++ back)[j]? = some (.module control) →
    control ret = .jump n →
      landing (front ++ site :: back).length (shiftAt front.length j) n =
        (landing (front ++ back).length j n).map (shiftAt front.length)

section OneMore

variable {counts : Bool} {site : Site} {kind : Outcome → Prop} {front back : List Site}
  {outcome : Outcome} {out : Nat → Outcome}

theorem length_entriesFrom (j : Nat) (sites : List Site) :
    (entriesFrom counts out j sites).length = sites.length := by
  induction sites generalizing j with
  | nil => rfl
  | cons site rest ih => rw [entriesFrom, List.length_cons, List.length_cons, ih]

theorem entriesFrom_append (j : Nat) (front back : List Site) :
    entriesFrom counts out j (front ++ back) =
      entriesFrom counts out j front ++ entriesFrom counts out (j + front.length) back := by
  induction front generalizing j with
  | nil => rfl
  | cons site front ih =>
      rw [List.cons_append, entriesFrom, entriesFrom, ih, List.cons_append, List.length_cons]
      congr 3
      omega

theorem entriesFrom_insertAt_front {k j : Nat} (h : j + front.length ≤ k) :
    entriesFrom counts (insertAt k outcome out) j front = entriesFrom counts out j front := by
  induction front generalizing j with
  | nil => rfl
  | cons site front ih =>
      rw [List.length_cons] at h
      have hout : insertAt k outcome out j = out j := if_pos (by omega)
      rw [entriesFrom, entriesFrom, hout, ih]
      omega

private theorem entriesFrom_insertAt_back {k j : Nat} (h : k ≤ j) (sites : List Site) :
    entriesFrom counts (insertAt k outcome out) (j + 1) sites = entriesFrom counts out j sites := by
  induction sites generalizing j with
  | nil => rfl
  | cons site rest ih =>
      have hout : insertAt k outcome out (j + 1) = out j := by
        rw [insertAt, if_neg (by omega), if_neg (by omega), Nat.add_sub_cancel]
      rw [entriesFrom, entriesFrom, hout, ih (by omega)]

theorem entriesFrom_insert (front back : List Site) :
    entriesFrom counts (insertAt front.length outcome out) 0 (front ++ site :: back) =
      entriesFrom counts out 0 front ++
        site.entry counts outcome :: entriesFrom counts out front.length back := by
  have hhere : insertAt front.length outcome out front.length = outcome := by
    rw [insertAt, if_neg (Nat.lt_irrefl _), if_pos rfl]
  rw [entriesFrom_append, entriesFrom_insertAt_front (by omega), Nat.zero_add, entriesFrom, hhere,
    entriesFrom_insertAt_back (Nat.le_refl _)]

private theorem jump_of_entry_skip {v v' : Verdict} {n : Nat}
    (h : site.entry counts outcome v = (v', .skip n)) :
    ∃ control, site = .module control ∧ control outcome.ret = .jump n := by
  cases site with
  | substack => exact nomatch h
  | module control =>
      refine ⟨control, rfl, ?_⟩
      rw [Site.entry, Action.entry.eq_def] at h
      cases haction : control outcome.ret with
      | jump m =>
          rw [haction] at h
          have hnext : Next.skip m = .skip n := congrArg Prod.snd h
          rw [Next.skip.inj hnext]
      | done =>
          rw [haction] at h
          have hnext := congrArg Prod.snd h
          dsimp only at hnext
          split at hnext
          · exact nomatch hnext
          · exact nomatch hnext
      | _ =>
          rw [haction] at h
          exact nomatch congrArg Prod.snd h

theorem jumpsClear_entriesFrom {m j : Nat}
    (h : ∀ i control ret n, front[i]? = some (.module control) →
    control ret = .jump n → i + 1 + n < front.length ∨ front.length + m + 1 < i + 1 + n) :
    JumpsClear m (entriesFrom counts out j front) := by
  induction front generalizing j with
  | nil => exact trivial
  | cons site front ih =>
      constructor
      · intro v v' n hskip
        obtain ⟨control, rfl, hjump⟩ := jump_of_entry_skip hskip
        have hfirst := h 0 control _ n rfl hjump
        rw [List.length_cons] at hfirst
        rw [length_entriesFrom]
        omega
      · apply ih
        intro i control ret n hi hjump
        have hrest := h (i + 1) control ret n hi hjump
        rw [List.length_cons] at hrest
        omega

/-- A jump lands at the same site in the longer stack, or does not. -/
theorem landing_shiftAt_iff {length k j n : Nat} (hk : k ≤ length) :
    landing (length + 1) (shiftAt k j) n = (landing length j n).map (shiftAt k) ↔
      (j < k → j + 1 + n < k ∨ length + 1 < j + 1 + n) := by
  unfold landing shiftAt
  by_cases hj : j < k
  · rw [if_pos hj]
    by_cases hin : j + 1 + n ≤ length
    · rw [if_pos (by omega), if_pos hin, Option.map_some, Option.some_inj]
      by_cases hbefore : j + 1 + n < k
      · rw [if_pos hbefore]
        exact iff_of_true rfl fun _ => .inl hbefore
      · rw [if_neg hbefore]
        constructor
        · omega
        · intro h
          have := h hj
          omega
    · rw [if_neg hin, Option.map_none]
      constructor
      · intro h _
        apply Or.inr
        by_contra hle
        rw [if_pos (by omega)] at h
        exact nomatch h
      · intro h
        apply if_neg
        have := h hj
        omega
  · rw [if_neg hj]
    refine iff_of_true ?_ fun h => absurd h hj
    by_cases hin : j + 1 + n ≤ length
    · rw [if_pos (by omega), if_pos hin, Option.map_some, if_neg (by omega)]
      congr 1
      omega
    · rw [if_neg (by omega), if_neg hin, Option.map_none]

/-- A site that does nothing when it fails can be put where no jump crosses it, and only
there. -/
theorem transparent_iff
    (hneutral : ∀ outcome, kind outcome → ∀ v, site.entry counts outcome v = (v, .on)) :
    Transparent counts site kind front back ↔ JumpsStay (front ++ back) front.length := by
  have hlong : (front ++ site :: back).length = (front ++ back).length + 1 := by
    simp only [List.length_append, List.length_cons]
    omega
  have hplace : front.length ≤ (front ++ back).length := by
    rw [List.length_append]
    omega
  constructor
  · intro h j control ret n hj hsite hjump
    have hlands := h.lands j control ret n hsite hjump
    rw [hlong, landing_shiftAt_iff hplace] at hlands
    exact hlands hj
  · intro h
    have hclear : ∀ out, JumpsClear (entriesFrom counts out front.length back).length
        (entriesFrom counts out 0 front) := by
      intro out
      rw [length_entriesFrom]
      apply jumpsClear_entriesFrom
      intro i control ret n hi hjump
      have hlt : i < front.length := (List.getElem?_eq_some_iff.1 hi).1
      have hstay := h i control ret n hlt (by rw [List.getElem?_append_left hlt, hi]) hjump
      rw [List.length_append] at hstay
      omega
    have hinsert : ∀ out outcome, kind outcome →
        (evaluate counts (front ++ site :: back) (insertAt front.length outcome out)).2 =
          (evaluate counts (front ++ back) out).2 ∧
        ∀ j, j ∈ (evaluate counts (front ++ back) out).1 →
          shiftAt front.length j ∈
            (evaluate counts (front ++ site :: back) (insertAt front.length outcome out)).1 := by
      intro out outcome hkind
      have hrun := @runFrom_insert _ Verdict.broken .initial 0 0 _ _ _ (hneutral outcome hkind)
        (hclear out) (.inl rfl)
      rw [length_entriesFrom, Nat.zero_add] at hrun
      rw [evaluate, evaluate, entriesFrom_insert, entriesFrom_append, Nat.zero_add]
      exact hrun
    constructor
    · intro out outcome hkind
      rw [(hinsert out outcome hkind).1]
    · intro out outcome hkind
      exact (hinsert out outcome hkind).2
    · intro j control ret n hsite hjump
      rw [hlong, landing_shiftAt_iff hplace]
      intro hj
      exact h j control ret n hj hsite hjump

end OneMore

end Linhello.LinuxPam
