import Linhello.Cli.Disk
import Linhello.Cli.TextEdits
import Linhello.Cli.Wiring
import Linhello.Effect.Moments
/-!
# Wiring a file and unwiring it

A service file after enable and disable have both returned `Ok` for it. Every operation
may fail; that a path exists is answered truly.
-/

namespace Linhello.Cli.Pamwire

open Common Effect Machine

/-! ## Truthful answers -/

def Exists (d : Disk) (p : OsPath) : Prop := ∃ q, d.resolve p = some q ∧ (d.node q).isSome

/-- A path is said to exist if and only if it does. -/
def Honest : Disk → (o : Op) → o.Ans → Prop
  | d, .pathExists p, r => r = true ↔ Exists d p
  | _, _, _ => True

abbrev honest : Semantics machine Disk := Semantics.restrict Disk.allows Honest

def NoLink (d : Disk) (p : OsPath) : Prop := ∀ target, d.node p ≠ some (.link target)

section Files

variable {d d' : Disk} {path : OsPath} {stanza s c : String} {u : Unit}

theorem exists_of_content {x : Content} (h : d.content path = some x) : Exists d path := by
  obtain ⟨q, hq, hnode⟩ := Option.bind_eq_some_iff.1 h
  refine ⟨q, hq, ?_⟩
  rw [Disk.contentAt] at hnode
  cases hn : d.node q with
  | none =>
      rw [hn] at hnode
      cases hnode
  | some n => rfl

theorem content_of_node {x : Content} (h : d.node path = some (.file x)) :
    d.content path = some x := by
  have hresolve : d.resolve path = some path := by
    rw [Disk.resolve, Disk.follow, h]
  rw [Disk.content, hresolve, Option.bind_some, Disk.contentAt, h]

theorem not_exists_of_node (h : d.node path = none) : ¬ Exists d path := by
  have hresolve : d.resolve path = some path := by
    rw [Disk.resolve, Disk.follow, h]
  rintro ⟨q, hq, hsome⟩
  rw [hresolve] at hq
  rw [← Option.some.inj hq, h] at hsome
  exact Bool.false_ne_true hsome

theorem tmpPath_ne (path : OsPath) : tmpPath path ≠ path := by
  intro heq
  have hraw : path.raw = none := by
    rw [← heq]
    rfl
  have hname : path.fileName.toStr = some path.fileName.display := by
    rw [OsPath.toStr, OsPath.fileName, hraw]
    rfl
  have htmp : (tmpPath path).display =
      path.parent ++ "/." ++ path.fileName.display ++ ".linhello.tmp" := by
    rw [tmpPath, hname]
    rfl
  have hdisplay := congrArg (fun p : OsPath => p.display.toList.length) heq
  have hsplit := congrArg List.length
    (List.takeWhile_append_dropWhile (p := fun c => decide (c ≠ '/'))
      (l := path.display.toList.reverse))
  simp only [htmp, OsPath.parent, OsPath.fileName, String.toList_append, String.toList_ofList,
    List.length_append, List.length_reverse, List.length_tail] at hdisplay
  rw [List.length_append, List.length_reverse] at hsplit
  have hdot : "/.".toList.length = 2 := rfl
  have hsuffix : ".linhello.tmp".toList.length = 13 := rfl
  omega

private theorem noLink_of_wrote {ok : Content → Prop} {p q : OsPath} (h : d.Wrote p ok d')
    (hq : NoLink d q) : NoLink d' q := by
  obtain ⟨q', x, -, -, rfl⟩ := h
  intro target
  by_cases hsame : q = q'
  · subst hsame
    rw [Disk.node_put_self]
    exact fun hlink => nomatch hlink
  · rw [Disk.node_put_of_ne hsame]
    exact hq target

theorem noLink_of_backup {q : OsPath} (h : Exec honest (backup path).run d (.ok u) d')
    (hq : NoLink d q) : NoLink d' q := by
  obtain ⟨here, v, hexists, hrest⟩ := exec_exceptT_bind_ok.1 h
  obtain ⟨⟨rfl, -⟩, -⟩ := exec_perform.1 (exec_exceptT_lift_ok.1 hexists)
  cases here with
  | true =>
      obtain ⟨-, rfl⟩ := exec_exceptT_pure.1 hrest
      exact hq
  | false =>
      obtain ⟨hcopy, -⟩ := exec_perform.1 (exec_attempt_ok.1 hrest)
      exact noLink_of_wrote hcopy hq

theorem node_of_writeAtomic (hlink : NoLink d (tmpPath path))
    (h : Exec honest (writeAtomic path s).run d (.ok u) d') :
    d'.node path = some (.file (.text s)) ∧ NoLink d' (tmpPath path) := by
  obtain ⟨_, v, hwrite, h⟩ := exec_exceptT_bind_ok.1 h
  obtain ⟨⟨q, x, hq, rfl, rfl⟩, -⟩ := exec_perform.1 (exec_attempt_ok.1 hwrite)
  obtain ⟨_, v, hmode, h⟩ := exec_exceptT_bind_ok.1 h
  obtain ⟨rfl, -⟩ := exec_perform.1 (exec_exceptT_lift_ok.1 hmode)
  obtain ⟨renamed, v, hrename, h⟩ := exec_exceptT_bind_ok.1 h
  obtain ⟨r, hrename, hr⟩ := exec_caught.1 hrename
  obtain rfl := Except.ok.inj hr
  -- the write went to the temporary path itself
  have htmp : d.resolve (tmpPath path) = some (tmpPath path) := by
    rw [Disk.resolve, Disk.follow]
    split
    next target hnode => exact absurd hnode (hlink target)
    · rfl
  obtain rfl : tmpPath path = q := Option.some.inj (htmp.symm.trans hq)
  cases renamed with
  | error e =>
      obtain ⟨-, v', -, hthrow⟩ := exec_exceptT_bind_ok.1 h
      cases (exec_exceptT_throw.1 hthrow).1
  | ok =>
      obtain ⟨-, rfl⟩ := exec_exceptT_pure.1 h
      obtain ⟨hmoved, -⟩ := exec_perform.1 (exec_attempt_ok.1 hrename)
      have hne := tmpPath_ne path
      have hmoved : d' = (((d.put (tmpPath path) (some (.file (.text s)))).put path
        ((d.put (tmpPath path) (some (.file (.text s)))).node (tmpPath path))).put
          (tmpPath path) none) := hmoved
      subst hmoved
      constructor
      · rw [Disk.node_put_of_ne hne.symm, Disk.node_put_self, Disk.node_put_self]
      · intro target
        rw [Disk.node_put_self]
        intro hsome
        cases hsome

/-! ## Enable -/

theorem exec_readService (hcontent : d.content path = some (.text c))
    (h : Exec honest (readService path).run d (.ok s) d') : s = c ∧ d' = d := by
  obtain ⟨⟨rfl, hread⟩, -⟩ := exec_perform.1 (exec_attempt_ok.1 h)
  have htext := hread s rfl
  rw [hcontent] at htext
  exact ⟨(Content.text.inj (Option.some.inj htext)).symm, rfl⟩

theorem exec_editIn {change : Change} (hcontent : d.content path = some (.text c))
    (hmodule : contentHasModule c = false) (hlink : NoLink d (tmpPath path))
    (h : Exec honest (editIn path stanza false).run d (.ok change) d') :
    change = .edited path ∧ d'.node path = some (.file (.text (insertFirstAuth c stanza).1)) ∧
      NoLink d' (tmpPath path) := by
  obtain ⟨content, v, hread, hrest⟩ := exec_exceptT_bind_ok.1 h
  obtain ⟨rfl, rfl⟩ := exec_readService hcontent hread
  rw [insertFirstAuth_eq hmodule] at hrest ⊢
  simp only [Bool.not_true, Bool.false_eq_true, if_false] at hrest
  obtain ⟨_, v, hbackup, hrest⟩ := exec_exceptT_bind_ok.1 hrest
  obtain ⟨_, u, hwrite, hrest⟩ := exec_exceptT_bind_ok.1 hrest
  obtain ⟨hchange, rfl⟩ := exec_exceptT_pure.1 hrest
  exact ⟨Except.ok.inj hchange, node_of_writeAtomic (noLink_of_backup hbackup hlink) hwrite⟩

theorem exec_editIn_wired {change : Change} (hcontent : d.content path = some (.text c))
    (hmodule : contentHasModule c = true)
    (h : Exec honest (editIn path stanza false).run d (.ok change) d') :
    change = .alreadyWired path ∧ d' = d := by
  obtain ⟨content, v, hread, hrest⟩ := exec_exceptT_bind_ok.1 h
  obtain ⟨rfl, rfl⟩ := exec_readService hcontent hread
  have hsame : insertFirstAuth content stanza = (content, false) := by
    rw [insertFirstAuth, hmodule, if_pos rfl]
  rw [hsame] at hrest
  obtain ⟨hchange, rfl⟩ := exec_exceptT_pure.1 hrest
  exact ⟨Except.ok.inj hchange, rfl⟩

theorem exec_pathExists {here : Bool}
    (h : Exec honest (liftM (perform (.pathExists path)) : Fallible Bool).run d (.ok here) d') :
    d' = d ∧ (here = true ↔ Exists d path) := by
  obtain ⟨⟨hsame, -⟩, hhonest⟩ := exec_perform.1 (exec_exceptT_lift_ok.1 h)
  exact ⟨hsame, hhonest⟩

/-- A service without a file gets the override of its vendor copy. -/
theorem exec_applyOverride_missing {plan : OverridePlan} {change : Change}
    (hmissing : ¬ Exists d plan.etc) (hlink : NoLink d (tmpPath plan.etc))
    (h : Exec honest (applyOverride plan false).run d (.ok change) d') :
    change = .created plan.etc ∧ NoLink d' (tmpPath plan.etc) ∧
      ∃ v, d.content plan.vendor = some (.text v) ∧
        d'.node plan.etc = some (.file (.text (buildOverride plan.vendor v plan.stanza))) := by
  obtain ⟨here, w, hexists, hrest⟩ := exec_exceptT_bind_ok.1 h
  obtain ⟨rfl, hhere⟩ := exec_pathExists hexists
  rw [if_neg (mt hhere.1 hmissing)] at hrest
  obtain ⟨v, w', hread, h₁⟩ := exec_exceptT_bind_ok.1 hrest
  obtain ⟨⟨rfl, htext⟩, -⟩ := exec_perform.1 (exec_attempt_ok.1 hread)
  obtain ⟨again, w', hexists, h₂⟩ := exec_exceptT_bind_ok.1 h₁
  obtain ⟨rfl, hagain⟩ := exec_pathExists hexists
  rw [if_neg (mt hagain.1 hmissing)] at h₂
  obtain ⟨_, w', hwrite, h₃⟩ := exec_exceptT_bind_ok.1 h₂
  obtain ⟨hchange, rfl⟩ := exec_exceptT_pure.1 h₃
  obtain ⟨hnode, hlink'⟩ := node_of_writeAtomic hlink hwrite
  exact ⟨Except.ok.inj hchange, hlink', v, htext v rfl, hnode⟩

theorem exec_applyOverride_existing {plan : OverridePlan} {change : Change}
    (hthere : Exists d plan.etc)
    (h : Exec honest (applyOverride plan false).run d (.ok change) d') :
    Exec honest (editIn plan.etc plan.stanza false).run d (.ok change) d' := by
  obtain ⟨here, w, hexists, hrest⟩ := exec_exceptT_bind_ok.1 h
  obtain ⟨rfl, hhere⟩ := exec_pathExists hexists
  rw [if_pos (hhere.2 hthere)] at hrest
  exact hrest

/-! ## Disable -/

theorem exec_removeIn_missing {change : Change} (hmissing : ¬ Exists d path)
    (h : Exec honest (removeIn path false).run d (.ok change) d') :
    change = .notWired path ∧ d' = d := by
  obtain ⟨here, w, hexists, hrest⟩ := exec_exceptT_bind_ok.1 h
  obtain ⟨rfl, hhere⟩ := exec_pathExists hexists
  have hnot : (!here) = true := by
    rw [Bool.not_eq_true', ← Bool.not_eq_true]
    exact mt hhere.1 hmissing
  rw [if_pos hnot] at hrest
  obtain ⟨hchange, rfl⟩ := exec_exceptT_pure.1 hrest
  exact ⟨Except.ok.inj hchange, rfl⟩

theorem exec_removeIn {change : Change} (hcontent : d.content path = some (.text c))
    (h : Exec honest (removeIn path false).run d (.ok change) d') :
    (isCreatedOverride c = true → change = .removed path ∧ d' = d.put path none) ∧
    (isCreatedOverride c = false → contentHasModule c = true → NoLink d (tmpPath path) →
      change = .removed path ∧ d'.node path = some (.file (.text (removeModule c).1))) ∧
    (isCreatedOverride c = false → contentHasModule c = false →
      change = .notWired path ∧ d' = d) := by
  obtain ⟨here, w, hexists, hrest⟩ := exec_exceptT_bind_ok.1 h
  obtain ⟨rfl, hhere⟩ := exec_pathExists hexists
  rw [hhere.2 (exists_of_content hcontent), Bool.not_true, if_neg Bool.false_ne_true] at hrest
  obtain ⟨content, v, hread, h₁⟩ := exec_exceptT_bind_ok.1 hrest
  obtain ⟨rfl, rfl⟩ := exec_readService hcontent hread
  cases hcreated : isCreatedOverride content with
  | true =>
      rw [hcreated, if_pos rfl, if_neg Bool.false_ne_true] at h₁
      obtain ⟨_, v, hremove, h₂⟩ := exec_exceptT_bind_ok.1 h₁
      obtain ⟨hgone, -⟩ := exec_perform.1 (exec_attempt_ok.1 hremove)
      obtain ⟨hchange, rfl⟩ := exec_exceptT_pure.1 h₂
      refine ⟨fun _ => ⟨Except.ok.inj hchange, hgone⟩, ?_, ?_⟩
      · intro hfalse
        cases hfalse
      · intro hfalse
        cases hfalse
  | false =>
      rw [hcreated, if_neg Bool.false_ne_true] at h₁
      cases hmodule : contentHasModule content with
      | true =>
          have hchanged : removeModule content =
              (joinLines ((lines content).filter fun l => !activeLine l), true) := by
            rw [removeModule, hmodule, if_pos rfl]
          rw [hchanged] at h₁ ⊢
          simp only [Bool.not_true, Bool.false_eq_true, if_false] at h₁
          obtain ⟨_, v, hbackup, h₂⟩ := exec_exceptT_bind_ok.1 h₁
          obtain ⟨_, u, hwrite, h₃⟩ := exec_exceptT_bind_ok.1 h₂
          obtain ⟨hchange, rfl⟩ := exec_exceptT_pure.1 h₃
          refine ⟨?_, fun _ _ hlink => ⟨Except.ok.inj hchange,
            (node_of_writeAtomic (noLink_of_backup hbackup hlink) hwrite).1⟩, ?_⟩
          · intro htrue
            cases htrue
          · intro _ hfalse
            cases hfalse
      | false =>
          have hsame : removeModule content = (content, false) := by
            rw [removeModule, hmodule, if_neg Bool.false_ne_true]
          rw [hsame] at h₁
          obtain ⟨hchange, rfl⟩ := exec_exceptT_pure.1 h₁
          refine ⟨?_, ?_, fun _ _ => ⟨Except.ok.inj hchange, rfl⟩⟩
          · intro htrue
            cases htrue
          · intro _ htrue
            cases htrue

end Files

/-! ## There and back -/

/-- The lines of `c'` are those of `c`, up to the carriage returns at their ends; those of
the empty text are one empty line. -/
def SameLines (c c' : String) : Prop :=
  lines c' = if lines c = [] then [""] else (lines c).map (stripCr ∘ stripCr)

/-- Insertion and removal on a text without the module. -/
structure TextReversible (c stanza : String) : Prop where
  /-- Every line is kept in order, and one is added. -/
  inserted : ∃ front back, front ++ back = lines c ∧
    lines (insertFirstAuth c stanza).1 = front.map stripCr ++ stanza :: back.map stripCr
  idempotent : insertFirstAuth (insertFirstAuth c stanza).1 stanza =
    ((insertFirstAuth c stanza).1, false)
  removed : SameLines c (removeModule (insertFirstAuth c stanza).1).1
  /-- Nothing at all changes in the lines of a text without stray carriage returns. -/
  exact : (∀ l ∈ lines c, l.toList.getLast? ≠ some '\r') →
    (∃ front back, front ++ back = lines c ∧
      lines (insertFirstAuth c stanza).1 = front ++ stanza :: back) ∧
    (lines c ≠ [] → lines (removeModule (insertFirstAuth c stanza).1).1 = lines c)

/-- A file with the text `c` that is enabled and disabled. -/
def FileReversible (c stanza : String) : Prop :=
  ∀ (path : OsPath) (d d₁ d₂ : Disk) (enabled disabled : Change),
    d.content path = some (.text c) → NoLink d (tmpPath path) →
    Exec honest (editIn path stanza false).run d (.ok enabled) d₁ →
    Exec honest (removeIn path false).run d₁ (.ok disabled) d₂ →
    enabled = .edited path ∧ disabled = .removed path ∧
      (∃ c', d₂.content path = some (.text c') ∧ SameLines c c') ∧
      (∀ again d', Exec honest (editIn path stanza false).run d₁ (.ok again) d' →
        again = .alreadyWired path ∧ d' = d₁) ∧
      ∀ again d', Exec honest (removeIn path false).run d₂ (.ok again) d' →
        again = .notWired path ∧ d' = d₂

/-- A service with a vendor copy only that is enabled and disabled. -/
def VendorReversible (plan : OverridePlan) : Prop :=
  ∀ (d d₁ d₂ : Disk) (enabled disabled : Change),
    ¬ Exists d plan.etc → NoLink d (tmpPath plan.etc) →
    Exec honest (applyOverride plan false).run d (.ok enabled) d₁ →
    Exec honest (removeIn plan.etc false).run d₁ (.ok disabled) d₂ →
    enabled = .created plan.etc ∧ disabled = .removed plan.etc ∧ d₂.node plan.etc = none ∧
      (∀ again d', Exec honest (applyOverride plan false).run d₁ (.ok again) d' →
        again = .alreadyWired plan.etc ∧ d' = d₁) ∧
      ∀ again d', Exec honest (removeIn plan.etc false).run d₂ (.ok again) d' →
        again = .notWired plan.etc ∧ d' = d₂

section Reversible

variable {c stanza : String}

/-- With a line at all, and without stray carriage returns, the same lines are equal. -/
theorem SameLines.eq {c' : String} (h : SameLines c c') (hne : lines c ≠ [])
    (hcr : ∀ l ∈ lines c, l.toList.getLast? ≠ some '\r') : lines c' = lines c := by
  have hkept : ∀ l ∈ lines c, (stripCr ∘ stripCr) l = id l := by
    intro l hl
    rw [Function.comp_apply, stripCr_of_noReturn (hcr l hl), stripCr_of_noReturn (hcr l hl)]
    rfl
  rw [h, if_neg hne, List.map_congr_left hkept, List.map_id]

theorem textReversible (hstanza : IsStanza stanza) (h : contentHasModule c = false) :
    TextReversible c stanza where
  inserted := ⟨before c, after c, before_append_after c, lines_insertFirstAuth hstanza h⟩
  idempotent := insertFirstAuth_idem hstanza c
  removed := lines_removeModule_insertFirstAuth hstanza h
  exact := by
    intro hcr
    have hkept : ∀ ls : List String, (∀ l ∈ ls, l ∈ lines c) → ls.map stripCr = ls := by
      intro ls hls
      have hid : ∀ l ∈ ls, stripCr l = id l := fun l hl => stripCr_of_noReturn (hcr l (hls l hl))
      rw [List.map_congr_left hid, List.map_id]
    have hfront : (before c).map stripCr = before c := hkept _ fun l hl => by
      rw [← before_append_after c]
      exact List.mem_append_left _ hl
    have hback : (after c).map stripCr = after c := hkept _ fun l hl => by
      rw [← before_append_after c]
      exact List.mem_append_right _ hl
    refine ⟨⟨before c, after c, before_append_after c, ?_⟩, fun hne => ?_⟩
    · rw [lines_insertFirstAuth hstanza h, hfront, hback]
    · exact SameLines.eq (lines_removeModule_insertFirstAuth hstanza h) hne hcr

theorem fileReversible (hstanza : IsStanza stanza) (h : contentHasModule c = false)
    (hcreated : isCreatedOverride c = false) : FileReversible c stanza := by
  intro path d d₁ d₂ enabled disabled hcontent hlink henable hdisable
  obtain ⟨hedited, hnode, hlink₁⟩ := exec_editIn hcontent h hlink henable
  have hcontent₁ := content_of_node hnode
  have hmodule₁ := contentHasModule_insertFirstAuth hstanza c
  have hcreated₁ := isCreatedOverride_insertFirstAuth hstanza h hcreated
  obtain ⟨hremoved, hnode₂⟩ := (exec_removeIn hcontent₁ hdisable).2.1 hcreated₁ hmodule₁ hlink₁
  have hcontent₂ := content_of_node hnode₂
  refine ⟨hedited, hremoved, ⟨_, hcontent₂, lines_removeModule_insertFirstAuth hstanza h⟩, ?_, ?_⟩
  · intro again d' hagain
    exact exec_editIn_wired hcontent₁ hmodule₁ hagain
  · intro again d' hagain
    exact (exec_removeIn hcontent₂ hagain).2.2 (isCreatedOverride_removed hstanza h hcreated)
      (contentHasModule_removed hstanza h)

private theorem vendorReversible {plan : OverridePlan} (hstanza : IsStanza plan.stanza) :
    VendorReversible plan := by
  intro d d₁ d₂ enabled disabled hmissing hlink henable hdisable
  obtain ⟨hcreated, -, v, -, hnode⟩ := exec_applyOverride_missing hmissing hlink henable
  have hcontent₁ := content_of_node hnode
  obtain ⟨hremoved, hgone⟩ := (exec_removeIn hcontent₁ hdisable).1
    (isCreatedOverride_buildOverride plan.vendor v plan.stanza)
  have hnode₂ : d₂.node plan.etc = none := by rw [hgone, Disk.node_put_self]
  refine ⟨hcreated, hremoved, hnode₂, ?_, ?_⟩
  · intro again d' hagain
    exact exec_editIn_wired hcontent₁ (contentHasModule_buildOverride hstanza plan.vendor v)
      (exec_applyOverride_existing (exists_of_content hcontent₁) hagain)
  · intro again d' hagain
    exact exec_removeIn_missing (not_exists_of_node hnode₂) hagain

end Reversible

/-- For each stanza: a text comes back with its lines, a file that is enabled and disabled
holds them again, a service with a vendor copy only has no file again, and doing either
twice changes nothing. -/
theorem wiring_reversible (stanza : String) (hstanza : stanza ∈ STANZAS) :
    (∀ c, contentHasModule c = false → isCreatedOverride c = false →
      TextReversible c stanza ∧ FileReversible c stanza) ∧
    ∀ plan : OverridePlan, plan.stanza = stanza → VendorReversible plan := by
  have hstanza := isStanza_of_mem hstanza
  constructor
  · intro c hmodule hcreated
    exact ⟨textReversible hstanza hmodule, fileReversible hstanza hmodule hcreated⟩
  · rintro plan rfl
    exact vendorReversible hstanza

/-! A host on which every operation succeeds that can. -/

def sound (d : Disk) : (o : Op) → o.Ans × Disk
  | .distroFamily => (.arch, d)
  | .pathExists p => (((d.resolve p).bind d.node).isSome, d)
  | .isFile p => ((d.content p).isSome, d)
  | .isDir _ => (false, d)
  | .readDir _ => (none, d)
  | .readToString p =>
      match d.content p with
      | some (.text s) => (.ok s, d)
      | _ => (.error "stream did not contain valid UTF-8", d)
  | .write p s =>
      match d.resolve p with
      | some q => (.ok (), d.put q (some (.file (.text s))))
      | none => (.error "Too many levels of symbolic links (os error 40)", d)
  | .copy a b =>
      match d.content a, d.resolve b with
      | some c, some q => (.ok (), d.put q (some (.file c)))
      | _, _ => (.error "No such file or directory (os error 2)", d)
  | .rename a b => (.ok (), (d.put b (d.node a)).put a none)
  | .removeFile p => if (d.node p).isSome then (.ok (), d.put p none) else (.error .notFound, d)
  | .removeDir _ | .removeDirAll _ | .run _ _ | .output _ _ => (.error "Permission denied", d)
  | .createDirAll _ => (.ok (), d)
  | .copyPermissions _ _ => ((), d)
  | .runCapture _ _ => (none, d)
  | .status _ _ => (false, d)

theorem honest_sound (d : Disk) (o : Op) : honest d o (sound d o).1 (sound d o).2 := by
  have hexists : ∀ p, ((d.resolve p).bind d.node).isSome = true ↔ Exists d p := by
    intro p
    rw [Option.isSome_bind]
    cases hq : d.resolve p with
    | none => simp [Exists, hq]
    | some q => simp [Exists, hq]
  cases o with
  | pathExists p => exact ⟨⟨rfl, (hexists p).1⟩, hexists p⟩
  | isFile p => exact ⟨⟨rfl, id⟩, trivial⟩
  | readDir dir => exact ⟨⟨rfl, nofun⟩, trivial⟩
  | readToString p =>
      refine ⟨?_, trivial⟩
      simp only [sound]
      split
      · next s hs => exact ⟨rfl, fun t ht => (Except.ok.inj ht) ▸ hs⟩
      · exact ⟨rfl, nofun⟩
  | write p s =>
      refine ⟨?_, trivial⟩
      simp only [sound]
      split
      · next q hq => exact ⟨q, .text s, hq, rfl, rfl⟩
      · exact .inl rfl
  | copy a b =>
      refine ⟨?_, trivial⟩
      simp only [sound]
      split
      · next c q hc hq => exact ⟨q, c, hq, hc, rfl⟩
      · exact .inl rfl
  | removeFile p =>
      refine ⟨?_, trivial⟩
      simp only [sound]
      split
      · rfl
      · rfl
  | removeDir p => exact ⟨fun q => .inl rfl, trivial⟩
  | removeDirAll p => exact ⟨fun q => .inl rfl, trivial⟩
  | createDirAll p => exact ⟨fun q => .inl rfl, trivial⟩
  | output cmd args => exact ⟨fun q => .inl rfl, trivial⟩
  | distroFamily | isDir | rename | copyPermissions | run | runCapture | status =>
      exact ⟨by first | rfl | trivial, trivial⟩

def GDM : String :=
  "auth include system-login\n"

def SDDM : OsPath := "/etc/pam.d/sddm"

def greeterHost : Disk where
  node p := if p = SDDM then some (.file (.text GDM)) else none

set_option maxRecDepth 4000 in
theorem wiring_reversible_sddm : ∃ d₁ d₂ c',
    Exec honest (editIn SDDM GREETER_STANZA false).run greeterHost (.ok (.edited SDDM)) d₁ ∧
      Exec honest (removeIn SDDM false).run d₁ (.ok (.removed SDDM)) d₂ ∧
      d₂.content SDDM = some (.text c') ∧ lines c' = lines GDM := by
  have hmodule : contentHasModule GDM = false := by decide +kernel
  have hreversible := (wiring_reversible GREETER_STANZA (by decide)).1 GDM hmodule
    (by decide +kernel)
  have henable := exec_of_eval honest_sound (editIn SDDM GREETER_STANZA false).run greeterHost
  have hedited : (eval sound (editIn SDDM GREETER_STANZA false).run greeterHost).1 =
      .ok (.edited SDDM) := by
    rfl
  have hdisable := exec_of_eval honest_sound (removeIn SDDM false).run
    (eval sound (editIn SDDM GREETER_STANZA false).run greeterHost).2
  have hremoved : (eval sound (removeIn SDDM false).run
      (eval sound (editIn SDDM GREETER_STANZA false).run greeterHost).2).1 =
      .ok (.removed SDDM) := by
    rfl
  rw [hedited] at henable
  rw [hremoved] at hdisable
  obtain ⟨-, -, ⟨c', hcontent, hsame⟩, -⟩ := hreversible.2 SDDM greeterHost _ _ _ _ rfl
    (fun _ h => nomatch h) henable hdisable
  exact ⟨_, _, c', henable, hdisable, hcontent,
    hsame.eq (by decide +kernel) (by decide +kernel)⟩

/-- The empty text comes back as one empty line. -/
theorem not_wiring_reversible :
    ¬ ∀ c stanza, contentHasModule c = false → isCreatedOverride c = false → stanza ∈ STANZAS →
      lines (removeModule (insertFirstAuth c stanza).1).1 = lines c := by
  intro hall
  have hsame := hall "" GREETER_STANZA (by decide) (by decide) (by decide)
  have hstanza : IsStanza GREETER_STANZA := isStanza_of_mem (by decide)
  rw [lines_removeModule_insertFirstAuth hstanza (by decide)] at hsame
  exact absurd hsame (by decide)

end Linhello.Cli.Pamwire
