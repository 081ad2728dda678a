import Linhello.Common.ConfigFile
/-!
# What a configuration file keeps

What a call of `write_kv` that succeeds leaves to be read (`write_kv_law_iff`), and what a
call that need not even return does to the rest of the file (`write_kv_spares`).
-/

namespace Linhello.Common.Conf

open Effect

/-! ## The lines of a file -/

def fileLines (f : File) : List Bytes := linesOfBytes (f.getD [])

/-- Whether a line, which need not be text, assigns a value to `key`. -/
def isTargetBytes (key : String) (line : Bytes) : Bool :=
  match ofUtf8 line with
  | some text => isTarget key text
  | none => false

def otherFileLines (key : String) (f : File) : List Bytes :=
  (fileLines f).filter fun line => !isTargetBytes key line

/-- No line other than the key's ends in a carriage return of its own. -/
def NoReturns (key text : String) : Prop :=
  ∀ line ∈ otherLines key text, line.toList.getLast? ≠ some '\r'

instance (key text : String) : Decidable (NoReturns key text) :=
  inferInstanceAs (Decidable (∀ line ∈ otherLines key text, _))

theorem isTargetBytes_comp_utf8 (key : String) : isTargetBytes key ∘ utf8 = isTarget key := by
  funext line
  rw [Function.comp_apply, isTargetBytes, ofUtf8_utf8]

theorem fileLines_utf8 (text : String) : fileLines (some (utf8 text)) = (lines text).map utf8 :=
  linesOfBytes_utf8 text

theorem otherFileLines_utf8 (key text : String) :
    otherFileLines key (some (utf8 text)) = (otherLines key text).map utf8 := by
  have hcomp : (fun line => !isTargetBytes key line) ∘ utf8 = fun line => !isTarget key line := by
    funext line
    rw [← isTargetBytes_comp_utf8, Function.comp_apply, Function.comp_apply]
  rw [otherFileLines, fileLines_utf8, List.filter_map, hcomp, otherLines]

theorem readBack_utf8 (key text : String) :
    readBack key (some (utf8 text)) = kvLookup key text := by
  have hcontent : contentOf (some (utf8 text)) = .ok text := by
    rw [contentOf, ofUtf8_utf8]
  rw [readBack, hcontent]

/-- The other lines of a rewritten text are those of the text if and only if none of them
ends in a carriage return. -/
theorem otherFileLines_rewriteText {key val text : String} (hkey : IsKey key)
    (hval : '\n' ∉ val.toList) :
    otherFileLines key (some (utf8 (rewriteText key val text))) =
      otherFileLines key (some (utf8 text)) ↔ NoReturns key text := by
  have hinj : Function.Injective utf8 := fun _ _ => utf8_inj
  rw [otherFileLines_utf8, otherFileLines_utf8, otherLines_rewriteText hkey hval,
    (List.map_injective_iff.2 hinj).eq_iff]
  exact map_stripCr_eq_self_iff

/-! ## The law of a write that succeeds -/

structure Law (key val : String) (before after : File) : Prop where
  value : readBack key after = if trim val = "" then none else some (trim val)
  others : ∀ other, other ≠ key → readBack other after = readBack other before
  kept : otherFileLines key after = otherFileLines key before
  once : (fileLines after).countP (isTargetBytes key) = 1
  again : ∀ after', Exec (Step False) (writeKv key val).run after (.ok ()) after' → after' = after

private theorem law_of_noReturns {key val text : String} (hkey : IsKey key)
    (hval : '\n' ∉ val.toList)
    (h : NoReturns key text) :
    Law key val (some (utf8 text)) (some (utf8 (rewriteText key val text))) where
  value := by
    rw [readBack_utf8, kvLookup_rewriteText hkey hval]
  others := by
    intro other hne
    rw [readBack_utf8, readBack_utf8, kvLookup_rewriteText_of_ne hkey hval _ hne]
  kept := (otherFileLines_rewriteText hkey hval).2 h
  once := by
    rw [fileLines_utf8, List.countP_map, isTargetBytes_comp_utf8,
      countP_lines_rewriteText hkey hval]
  again := by
    intro after' hagain
    have hfile := file_of_writeKv hagain
    rwa [contentOf, ofUtf8_utf8, unwrapOrDefault, rewriteText_rewriteText hkey hval h] at hfile

/-- After a write that succeeds, the key reads as the trimmed value, every other key reads as
before, the other lines are kept in order, the key has one line, and a second write changes
nothing, if and only if no line other than the key's ends in a carriage return. -/
theorem write_kv_law_iff {key val text : String} {after : File} (hkey : IsKey key)
    (hval : '\n' ∉ val.toList)
    (h : Exec (Step False) (writeKv key val).run (some (utf8 text)) (.ok ()) after) :
    Law key val (some (utf8 text)) after ↔ NoReturns key text := by
  have hafter := file_of_writeKv h
  rw [contentOf, ofUtf8_utf8, unwrapOrDefault] at hafter
  subst hafter
  constructor
  · intro hlaw
    exact (otherFileLines_rewriteText hkey hval).1 hlaw.kept
  · exact law_of_noReturns hkey hval

theorem exec_writeKv_text (key val text : String) :
    Exec (Step False) (writeKv key val).run (some (utf8 text)) (.ok ())
      (some (utf8 (rewriteText key val text))) := by
  have hrun := exec_writeKv key val (some (utf8 text))
  rwa [contentOf, ofUtf8_utf8, unwrapOrDefault] at hrun

theorem isKey_ir : IsKey "ir" := ⟨by decide, by decide +kernel, by decide, by decide, by decide⟩

/-- A file with a comment and another key. -/
theorem write_kv_law_iff_ir : ∃ after,
    Exec (Step False) (writeKv "ir" "/dev/video2").run
      (some (utf8 "# cameras\nrgb=/dev/video0\n")) (.ok ()) after ∧
    Law "ir" "/dev/video2" (some (utf8 "# cameras\nrgb=/dev/video0\n")) after := by
  have hrun := exec_writeKv_text "ir" "/dev/video2" "# cameras\nrgb=/dev/video0\n"
  exact ⟨_, hrun, (write_kv_law_iff isKey_ir (by decide) hrun).2 (by decide +kernel)⟩

/-- A line with two carriage returns at its end loses one at every write. -/
theorem not_law_of_return : ¬ ∀ (key val text : String) (after : File), IsKey key →
    '\n' ∉ val.toList →
    Exec (Step False) (writeKv key val).run (some (utf8 text)) (.ok ()) after →
    Law key val (some (utf8 text)) after := by
  intro hall
  have hval : '\n' ∉ "/dev/video2".toList := by decide
  have hlaw := hall "ir" "/dev/video2" "rgb=/dev/video0\r\r\n" _ isKey_ir hval
    (exec_writeKv_text _ _ _)
  have hnone := (otherFileLines_rewriteText isKey_ir hval).1 hlaw.kept
  revert hnone
  decide +kernel

/-! ## Calls that fail or do not return -/

section Faults

variable {key val : String} {b : Bytes} {f' : File} {events : List (Event conf)}
  {e : Option (Except LinuxHelloError Unit)}

/-- The rest of a file that exists survives a call: where the call succeeded, every line that
is not the key's is still there, and no other setting reads differently; otherwise the file
is as it was. -/
def Spares (key val : String) (b : Bytes) (f' : File) :
    Option (Except LinuxHelloError Unit) → Prop
  | some (.ok ()) =>
      (otherFileLines key (some b)).Sublist (otherFileLines key f') ∧
        (IsKey key → '\n' ∉ val.toList →
          ∀ other, other ≠ key → readBack other f' = readBack other (some b))
  | _ => f' = some b

/-- The calls that do no harm: a call that succeeded has read the file, and no line other
than the key's ends in a carriage return, or there is no other line; one that did not has not
truncated the file, or what it wrote since is what was there. -/
def Harmless (key : String) (b : Bytes) (events : List (Event conf)) :
    Option (Except LinuxHelloError Unit) → Prop
  | some (.ok ()) =>
      match seen events with
      | some text => NoReturns key text
      | none => otherFileLines key (some b) = []
  | _ => Truncated events → written events = b

theorem lines_unlines_flatMap (ls : List String) :
    lines (unlines ls) = ls.flatMap fun l => lines (l ++ "\n") := by
  induction ls with
  | nil => rfl
  | cons l ls ih => rw [unlines, lines_append_newline, ih, List.flatMap_cons]

/-- Whatever the key and the value, the other lines survive being rewritten. -/
theorem sublist_rewriteLines {replaced : Bool} {ls : List String}
    (hline : ∀ l ∈ ls, isTarget key l = false → lines (l ++ "\n") = [l]) :
    (ls.filter fun l => !isTarget key l).Sublist
      (((rewriteLines key val replaced ls).flatMap fun l => lines (l ++ "\n")).filter
        fun l => !isTarget key l) := by
  induction ls generalizing replaced with
  | nil => exact List.nil_sublist _
  | cons line rest ih =>
      have hrest : ∀ l ∈ rest, isTarget key l = false → lines (l ++ "\n") = [l] :=
        fun l hl => hline l (List.mem_cons_of_mem _ hl)
      rw [rewriteLines]
      by_cases htarget : isTarget key line = true
      · rw [if_pos htarget, List.filter_cons_of_neg (by rw [htarget]; decide)]
        cases replaced with
        | true => exact ih hrest
        | false =>
            rw [if_neg Bool.false_ne_true, List.flatMap_cons, List.filter_append]
            exact (ih hrest).trans (List.sublist_append_right _ _)
      · rw [Bool.not_eq_true] at htarget
        have hkeep : ∀ ls, (line :: ls).filter (fun l => !isTarget key l) =
            line :: ls.filter fun l => !isTarget key l := by
          intro ls
          rw [List.filter_cons, htarget]
          rfl
        rw [htarget, if_neg Bool.false_ne_true, List.flatMap_cons, List.filter_append,
          hline line List.mem_cons_self htarget, hkeep, hkeep, List.filter_nil]
        exact (ih hrest).cons_cons line

theorem sublist_rewriteText {text : String} (h : NoReturns key text) :
    (otherLines key text).Sublist (otherLines key (rewriteText key val text)) := by
  rw [otherLines, otherLines, rewriteText, lines_unlines_flatMap]
  apply sublist_rewriteLines
  intro l hl htarget
  have hmem : l ∈ otherLines key text := by
    rw [otherLines, List.mem_filter, htarget]
    exact ⟨hl, rfl⟩
  have hlines := lines_cons_stripCr (no_newline_of_mem_lines hl) ""
  rwa [String.append_empty, stripCr_of_noReturn (h l hmem)] at hlines

theorem eq_utf8_of_content {text : String} (h : contentOf (some b) = .ok text) : b = utf8 text := by
  rw [contentOf] at h
  split at h
  · rename_i heq
    rw [Except.ok.inj h] at heq
    exact (utf8_of_ofUtf8 heq).symm
  · exact nomatch h

/-- A file of the key's lines alone gives no other key a value. -/
theorem readBack_of_no_others {other : String} (hne : other ≠ key)
    (h : otherFileLines key (some b) = []) : readBack other (some b) = none := by
  cases hcontent : contentOf (some b) with
  | error err => rw [readBack, hcontent]
  | ok text =>
      obtain rfl := eq_utf8_of_content hcontent
      rw [otherFileLines_utf8, List.map_eq_nil_iff, otherLines, List.filter_eq_nil_iff] at h
      rw [readBack_utf8, kvLookup, List.findSome?_eq_none_iff]
      intro l hl
      have htarget : isTarget key l = true := by simpa using h l hl
      exact kvLine_of_target hne htarget

/-- What was seen is what is there, or nothing was seen and the file counts as empty. -/
theorem seen_cases {r : Except IoError String} {rest : List (Event conf)}
    (hread : allows True (some b) .readToString r) (h : events = ⟨.readToString, r⟩ :: rest) :
    (∃ text, seen events = some text ∧ unwrapOrDefault r = text ∧ b = utf8 text) ∨
      (seen events = none ∧ unwrapOrDefault r = "") := by
  subst h
  cases r with
  | ok text => exact .inl ⟨text, rfl, rfl, eq_utf8_of_content hread⟩
  | error err => exact .inr ⟨rfl, rfl⟩

theorem spares_of_harmless_ok {text : String} (hfile : f' = some (utf8 (rewriteText key val text)))
    (hcase : (b = utf8 text ∧ NoReturns key text) ∨
      (text = "" ∧ otherFileLines key (some b) = [])) :
    Spares key val b f' (some (.ok ())) := by
  subst hfile
  rcases hcase with ⟨rfl, hcr⟩ | ⟨rfl, hnone⟩
  · constructor
    · rw [otherFileLines_utf8, otherFileLines_utf8]
      exact (sublist_rewriteText hcr).map utf8
    · intro hkey hval other hne
      rw [readBack_utf8, readBack_utf8, kvLookup_rewriteText_of_ne hkey hval _ hne]
  · constructor
    · rw [hnone]
      exact List.nil_sublist _
    · intro hkey hval other hne
      rw [readBack_utf8, kvLookup_rewriteText_of_ne hkey hval _ hne,
        readBack_of_no_others hne hnone]
      rfl

theorem harmless_of_spares_ok {text : String} (hkey : IsKey key) (hval : '\n' ∉ val.toList)
    (hfile : f' = some (utf8 (rewriteText key val text)))
    (h : Spares key val b f' (some (.ok ()))) :
    (b = utf8 text → NoReturns key text) ∧
      (text = "" → otherFileLines key (some b) = []) := by
  subst hfile
  obtain ⟨hsub, -⟩ := h
  constructor
  · rintro rfl
    apply (otherFileLines_rewriteText hkey hval).1
    refine (hsub.eq_of_length ?_).symm
    rw [otherFileLines_utf8, otherFileLines_utf8, otherLines_rewriteText hkey hval, List.length_map,
      List.length_map, List.length_map]
  · rintro rfl
    have hempty : otherFileLines key (some (utf8 (rewriteText key val ""))) = [] := by
      rw [otherFileLines_utf8, otherLines_rewriteText hkey hval]
      rfl
    rw [hempty] at hsub
    exact List.sublist_nil.1 hsub

/-- Every harmless call spares the rest of the file; and for a key and a value of one line,
no other call does. -/
theorem write_kv_spares
    (h : Runs (recorded (Step True)) (writeKv key val).run (some b, []) e (f', events)) :
    (Harmless key b events e → Spares key val b f' e) ∧
      (IsKey key → '\n' ∉ val.toList → Spares key val b f' e → Harmless key b events e) := by
  obtain ⟨huntouched, hfile, hok⟩ | ⟨r, rest, hevents, hread, hfile, hall⟩ := runs_writeKv h
  · -- the file was not truncated
    have hspares : Spares key val b f' e := by
      unfold Spares
      split
      · exact absurd rfl hok
      · exact hfile
    have hharmless : Harmless key b events e := by
      unfold Harmless
      split
      · exact absurd rfl hok
      · exact fun htrunc => absurd htrunc huntouched
    exact ⟨fun _ => hspares, fun _ _ _ => hharmless⟩
  · have htrunc : Truncated events := by
      rw [hevents]
      exact List.mem_cons_of_mem _ List.mem_cons_self
    by_cases hok : e = some (.ok ())
    · subst hok
      rw [hall rfl] at hfile
      rcases seen_cases hread hevents with ⟨text, hseen, htext, rfl⟩ | ⟨hseen, htext⟩
      · rw [htext] at hfile
        rw [Harmless, hseen]
        constructor
        · exact fun hcr => spares_of_harmless_ok hfile (.inl ⟨rfl, hcr⟩)
        · exact fun hkey hval hspares => (harmless_of_spares_ok hkey hval hfile hspares).1 rfl
      · rw [htext] at hfile
        rw [Harmless, hseen]
        constructor
        · exact fun hnone => spares_of_harmless_ok hfile (.inr ⟨rfl, hnone⟩)
        · exact fun hkey hval hspares => (harmless_of_spares_ok hkey hval hfile hspares).2 rfl
    · -- the file holds what was written since it was truncated
      have hspares : Spares key val b f' e ↔ written events = b := by
        unfold Spares
        split
        · exact absurd rfl hok
        · rw [hfile, Option.some.injEq]
      have hharmless : Harmless key b events e ↔ written events = b := by
        unfold Harmless
        split
        · exact absurd rfl hok
        · exact ⟨fun himp => himp htrunc, fun heq _ => heq⟩
      rw [hspares, hharmless]
      exact ⟨id, fun _ _ => id⟩

end Faults

/-- A policy is kept when another key is written. -/
theorem write_kv_spares_policy : ∃ f' events,
    Runs (recorded (Step True)) (writeKv "method" "auto").run
      (some (utf8 "screen_unlock=off\n"), [])
      (some (.ok ())) (f', events) ∧
    Spares "method" "auto" (utf8 "screen_unlock=off\n") f' (some (.ok ())) := by
  have hread : allows True (some (utf8 "screen_unlock=off\n")) .readToString
      (.ok "screen_unlock=off\n") := by
    change contentOf _ = _
    rw [contentOf, ofUtf8_utf8]
  obtain ⟨rest, hrun⟩ := exists_writeKv "method" "auto" hread
  have hruns := runs_of_exec hrun
  refine ⟨_, _, hruns, (write_kv_spares hruns).1 ?_⟩
  change NoReturns "method" "screen_unlock=off\n"
  decide +kernel

/-- Where the read fails, the call succeeds and the policy is gone. -/
theorem not_write_kv_spares : ¬ ∀ (key val : String) (b : Bytes) (f' : File)
    (events : List (Event conf)) (e : Option (Except LinuxHelloError Unit)),
    Runs (recorded (Step True)) (writeKv key val).run (some b, []) e (f', events) →
    Spares key val b f' e := by
  intro hall
  have hread : allows True (some (utf8 "screen_unlock=off\n")) .readToString
      (.error (.other "Input/output error (os error 5)")) := .inr trivial
  obtain ⟨rest, hrun⟩ := exists_writeKv "method" "auto" hread
  obtain ⟨hsub, -⟩ := hall _ _ _ _ _ _ (runs_of_exec hrun)
  rw [otherFileLines_utf8, otherFileLines_utf8, unwrapOrDefault] at hsub
  have hlen := hsub.length_le
  rw [List.length_map, List.length_map] at hlen
  revert hlen
  decide +kernel

end Linhello.Common.Conf
