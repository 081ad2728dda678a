import Linhello.Cli.Authselect
/-!
# Runs of enable and disable

What is selected after a disable depends on the whole history since the last one. A first
enable stores the profile it found. A second one, made while `custom/linhello` is selected,
stores `custom/linhello` over it: the next disable then selects that profile and deletes it.
-/

namespace Linhello.Cli.Authselect

open Common Effect Machine

inductive Call
  | enable (dryRun : Bool)
  | disable (dryRun : Bool)

def Call.run : Call → Fallible (List Change)
  | .enable dryRun => fedoraEnable dryRun
  | .disable dryRun => fedoraDisable dryRun

def Host.call (V : String → Templates) (h : Host) (c : Call) : Host :=
  (eval (hostStep V) c.run.run h).2

def Host.Selected (h : Host) (e : Entry) : Prop := ∃ s, h.active = some s ∧ s.id = e

/-- `custom/linhello` is selected, and there is no such profile. -/
def Host.Stranded (h : Host) : Prop := h.Selected linhello ∧ h.custom = none

/-- A host in a run of calls. -/
structure Trail where
  host : Host
  /-- What was selected before the first enable since the last disable. -/
  before : Option Selection
  /-- Whether an enable since then was made while `custom/linhello` was selected. -/
  again : Bool

/-- Whether `custom/linhello` is selected. -/
def Host.onLinhello (h : Host) : Bool := h.active.any (·.id = linhello)

def Trail.next (V : String → Templates) (t : Trail) (c : Call) : Trail :=
  { host := t.host.call V c
    before := match c with
      | .enable false => t.before.or t.host.active
      | .disable false => none
      | _ => t.before
    again := match c with
      | .enable false => t.again || t.host.onLinhello
      | .disable false => false
      | _ => t.again }

/-- The run from a host at which nothing has been called. -/
def trail (V : String → Templates) (start : Host) (calls : List Call) : Trail :=
  calls.foldl (Trail.next V) ⟨start, none, false⟩

/-- What the call `c` from `t` is to leave: after a disable the profile that was selected
before the first enable since the last one, and not `custom/linhello`; after no call a
selected profile that is not there. -/
def Restores (V : String → Templates) (t : Trail) (c : Call) : Prop :=
  (c = .disable false →
    ¬(t.host.call V c).Selected linhello ∧
      ∀ s, t.before = some s → (t.host.call V c).active = some s) ∧
    ¬(t.host.call V c).Stranded

/-- A disable is made after no enable that found `custom/linhello` selected. Where it finds
that profile selected and there was no enable since the last disable, the marker names
another one. -/
def Unspoilt (t : Trail) (c : Call) : Prop :=
  c = .disable false → t.again = false ∧
    (t.host.Selected linhello → t.before = none →
      ∃ e, Entry.ofString? (baseOf (File.read t.host.marker)) = some e ∧ e ≠ linhello)

/-! ## One call -/

section Calls

variable {V : String → Templates} {h : Host} {t : Trail} {sel : Selection} {calls : List Call}

theorem onLinhello_iff : h.onLinhello = true ↔ h.Selected linhello := by
  rw [Host.onLinhello, Option.any_eq_true]
  constructor
  · rintro ⟨s, hs, hid⟩
    exact ⟨s, hs, of_decide_eq_true hid⟩
  · rintro ⟨s, hs, hid⟩
    exact ⟨s, hs, decide_eq_true hid⟩

theorem not_selected (hactive : h.active = some sel) {e : Entry} (hid : sel.id ≠ e) :
    ¬h.Selected e := by
  rintro ⟨s, hs, rfl⟩
  rw [hactive] at hs
  exact hid (congrArg Selection.id (Option.some.inj hs))

theorem host_next (c : Call) : (t.next V c).host = t.host.call V c := rfl

theorem call_enable_dry : h.call V (.enable true) = h := by
  change (eval (hostStep V) (fedoraEnable true).run h).2 = h
  rw [fedoraEnable, eval_perform_bind]
  rfl

/-- An enable either selects `custom/linhello`, based on what was active, or changes only
templates. The former where the templates can be read. -/
theorem call_enable (hactive : h.active = some sel) :
    (∃ d, Readable d ∧ h.call V (.enable false) =
      { active := some ⟨linhello, sel.features⟩, custom := some d,
        marker := some (.text (sel.id.text ++ "\n")) }) ∨
    (∃ d, h.call V (.enable false) = { h with custom := some d }) ∧
      ∀ d, h.custom = some d → ¬Readable d := by
  obtain ⟨hok, herror⟩ := eval_fedoraEnable (V := V) hactive
  by_cases hread : Readable (h.custom.getD (V sel.id.text))
  · exact .inl (hok hread)
  · refine .inr ⟨herror hread, ?_⟩
    intro d hd
    rw [hd] at hread
    exact hread

theorem call_disable_linhello (hactive : h.active = some sel) (hid : sel.id = linhello) :
    (∀ e, Entry.ofString? (baseOf (File.read h.marker)) = some e →
      h.call V (.disable false) =
        { active := some ⟨e, sel.features⟩, custom := none, marker := none }) ∧
    (Entry.ofString? (baseOf (File.read h.marker)) = none → h.call V (.disable false) = h) :=
  eval_fedoraDisable_linhello hactive hid

theorem call_disable_other (hactive : h.active = some sel) (hid : sel.id ≠ linhello) :
    h.call V (.disable false) = { active := some sel, custom := none, marker := none } :=
  eval_fedoraDisable_other hactive hid

theorem baseOf_marker (e : Entry) :
    Entry.ofString? (baseOf (File.read (some (.text (e.text ++ "\n"))))) = some e := by
  rw [File.read, baseOf, e.trim_append_newline, if_neg e.text_ne_empty, Entry.ofString?_text]

/-! ## What holds along a run -/

/-- The marker names what was selected before the first enable, or else the profile
`custom/linhello` that a later enable found selected. -/
structure Consistent (t : Trail) : Prop where
  active : ∃ s, t.host.active = some s
  first : ∀ s, t.before = some s → t.again = false → s.id ≠ linhello ∧
    (t.host.active = some s ∨ (t.host.active = some ⟨linhello, s.features⟩ ∧
      t.host.marker = some (.text (s.id.text ++ "\n")) ∧ ∃ d, t.host.custom = some d ∧ Readable d))
  spoilt : t.again = true → (∃ s, t.before = some s ∧ s.id = linhello) ∨
    (t.host.Selected linhello ∧ t.host.marker = some (.text (linhello.text ++ "\n")))

theorem Consistent.enable_other (ht : Consistent t) (hactive : t.host.active = some sel)
    (hid : sel.id ≠ linhello) : Consistent (t.next V (.enable false)) := by
  have hoff : t.host.onLinhello = false := by
    rw [← Bool.not_eq_true, onLinhello_iff]
    exact not_selected hactive hid
  have hagain : (t.next V (.enable false)).again = t.again := by
    change (t.again || t.host.onLinhello) = t.again
    rw [hoff, Bool.or_false]
  have hbefore : (t.next V (.enable false)).before = t.before.or (some sel) := by
    rw [← hactive]
    rfl
  have hcall := call_enable (V := V) hactive
  rw [← host_next] at hcall
  refine ⟨?_, ?_, ?_⟩
  · rcases hcall with ⟨d, -, hcall⟩ | ⟨⟨d, hcall⟩, -⟩
    · exact ⟨_, congrArg Host.active hcall⟩
    · exact ⟨sel, (congrArg Host.active hcall).trans hactive⟩
  · intro s hs hfalse
    rw [hbefore] at hs
    rw [hagain] at hfalse
    -- what was selected before the first enable is still selected
    have hsel : s = sel := by
      cases hold : t.before with
      | none =>
          rw [hold, Option.none_or] at hs
          exact (Option.some.inj hs).symm
      | some s' =>
          rw [hold, Option.some_or] at hs
          obtain ⟨-, hcase⟩ := ht.first s' hold hfalse
          rw [hactive] at hcase
          rcases hcase with hcase | ⟨hcase, -⟩
          · exact ((Option.some.inj hcase).trans (Option.some.inj hs)).symm
          · exact absurd (congrArg Selection.id (Option.some.inj hcase)) hid
    subst hsel
    refine ⟨hid, ?_⟩
    rcases hcall with ⟨d, hread, hcall⟩ | ⟨⟨d, hcall⟩, -⟩
    · exact .inr
        ⟨congrArg Host.active hcall, congrArg Host.marker hcall, d, congrArg Host.custom hcall,
        hread⟩
    · exact .inl ((congrArg Host.active hcall).trans hactive)
  · intro htrue
    rw [hagain] at htrue
    rcases ht.spoilt htrue with ⟨s, hs, hsid⟩ | ⟨hon, -⟩
    · refine .inl ⟨s, ?_, hsid⟩
      rw [hbefore, hs, Option.some_or]
    · exact absurd hon (not_selected hactive hid)

/-- An enable made while `custom/linhello` is selected puts its id into the marker, unless
it was selected from the start. -/
theorem Consistent.enable_again (ht : Consistent t) (hactive : t.host.active = some sel)
    (hid : sel.id = linhello) : Consistent (t.next V (.enable false)) := by
  have hon : t.host.onLinhello = true := onLinhello_iff.2 ⟨sel, hactive, hid⟩
  have hagain : (t.next V (.enable false)).again = true := by
    change (t.again || t.host.onLinhello) = true
    rw [hon, Bool.or_true]
  have hbefore : (t.next V (.enable false)).before = t.before.or (some sel) := by
    rw [← hactive]
    rfl
  have hcall := call_enable (V := V) hactive
  rw [← host_next] at hcall
  refine ⟨?_, ?_, ?_⟩
  · rcases hcall with ⟨d, -, hcall⟩ | ⟨⟨d, hcall⟩, -⟩
    · exact ⟨_, congrArg Host.active hcall⟩
    · exact ⟨sel, (congrArg Host.active hcall).trans hactive⟩
  · intro s _ hfalse
    rw [hagain] at hfalse
    exact absurd hfalse Bool.noConfusion
  · intro _
    cases hold : t.before with
    | none =>
        refine .inl ⟨sel, ?_, hid⟩
        rw [hbefore, hold, Option.none_or]
    | some s =>
        by_cases hs : s.id = linhello
        · refine .inl ⟨s, ?_, hs⟩
          rw [hbefore, hold, Option.some_or]
        · right
          rcases hcall with ⟨d, -, hcall⟩ | ⟨⟨d, hcall⟩, hunread⟩
          · refine ⟨⟨_, congrArg Host.active hcall, rfl⟩, (congrArg Host.marker hcall).trans ?_⟩
            rw [hid]
          · -- the templates could not be read: so the marker is that of an earlier enable
            have hmarker : t.host.marker = some (.text (linhello.text ++ "\n")) := by
              cases hspoilt : t.again with
              | true =>
                  rcases ht.spoilt hspoilt with ⟨s', hs', hsid⟩ | ⟨-, hmarker⟩
                  · rw [hold] at hs'
                    exact absurd ((congrArg Selection.id (Option.some.inj hs')).trans hsid) hs
                  · exact hmarker
              | false =>
                  obtain ⟨-, hcase⟩ := ht.first s hold hspoilt
                  rcases hcase with hcase | ⟨-, -, d, hd, hread⟩
                  · rw [hactive] at hcase
                    exact absurd ((congrArg Selection.id (Option.some.inj hcase)).symm.trans hid) hs
                  · exact absurd hread (hunread d hd)
            exact ⟨⟨sel, (congrArg Host.active hcall).trans hactive, hid⟩,
              (congrArg Host.marker hcall).trans hmarker⟩

private theorem call_disable_active (hactive : h.active = some sel) :
    ∃ s, (h.call V (.disable false)).active = some s := by
  by_cases hid : sel.id = linhello
  · obtain ⟨hsome, hnone⟩ := call_disable_linhello (V := V) hactive hid
    cases he : Entry.ofString? (baseOf (File.read h.marker)) with
    | none => exact ⟨sel, (congrArg Host.active (hnone he)).trans hactive⟩
    | some e => exact ⟨_, congrArg Host.active (hsome e he)⟩
  · exact ⟨sel, congrArg Host.active (call_disable_other (V := V) hactive hid)⟩

theorem Consistent.next (ht : Consistent t) (c : Call) : Consistent (t.next V c) := by
  obtain ⟨sel, hactive⟩ := ht.active
  match c with
  | .enable true =>
      have hsame : t.next V (.enable true) = t := by
        change { t with host := t.host.call V (.enable true) } = t
        rw [call_enable_dry]
      rw [hsame]
      exact ht
  | .disable true => exact ht
  | .enable false =>
      by_cases hid : sel.id = linhello
      · exact ht.enable_again hactive hid
      · exact ht.enable_other hactive hid
  | .disable false =>
      obtain ⟨s, hs⟩ := call_disable_active (V := V) hactive
      rw [← host_next] at hs
      exact ⟨⟨s, hs⟩, nofun, nofun⟩

/-! ## The condition -/

theorem Consistent.restores (ht : Consistent t) (hpresent : ¬t.host.Stranded) {c : Call}
    (hc : Unspoilt t c) : Restores V t c := by
  obtain ⟨sel, hactive⟩ := ht.active
  match c with
  | .enable true =>
      refine ⟨nofun, ?_⟩
      rw [call_enable_dry]
      exact hpresent
  | .disable true => exact ⟨nofun, hpresent⟩
  | .enable false =>
      refine ⟨nofun, ?_⟩
      rintro ⟨-, hgone⟩
      rcases call_enable (V := V) hactive with ⟨d, -, hcall⟩ | ⟨⟨d, hcall⟩, -⟩
      · exact Option.some_ne_none d ((congrArg Host.custom hcall).symm.trans hgone)
      · exact Option.some_ne_none d ((congrArg Host.custom hcall).symm.trans hgone)
  | .disable false =>
      obtain ⟨hagain, hmarker⟩ := hc rfl
      -- it is enough that another profile, and the right one, is selected afterwards
      have hgoal : ∀ s, (t.host.call V (.disable false)).active = some s → s.id ≠ linhello →
          (∀ s', t.before = some s' → s' = s) → Restores V t (.disable false) := by
        intro s hs hid hbefore
        have hoff := not_selected hs hid
        refine ⟨fun _ => ⟨hoff, ?_⟩, fun hstranded => hoff hstranded.1⟩
        intro s' hs'
        rw [hbefore s' hs']
        exact hs
      by_cases hid : sel.id = linhello
      · have hcall := (call_disable_linhello (V := V) hactive hid).1
        cases hold : t.before with
        | none =>
            obtain ⟨e, he, hne⟩ := hmarker ⟨sel, hactive, hid⟩ hold
            refine hgoal _ (congrArg Host.active (hcall e he)) hne ?_
            rw [hold]
            nofun
        | some s =>
            obtain ⟨hne, hcase⟩ := ht.first s hold hagain
            rcases hcase with hcase | ⟨hcase, hmarker, -⟩
            · rw [hactive] at hcase
              exact absurd ((congrArg Selection.id (Option.some.inj hcase)).symm.trans hid) hne
            · have he : Entry.ofString? (baseOf (File.read t.host.marker)) = some s.id := by
                rw [hmarker]
                exact baseOf_marker s.id
              have hsame : (⟨s.id, sel.features⟩ : Selection) = s := by
                rw [hactive] at hcase
                rw [Option.some.inj hcase]
              refine hgoal s ?_ hne ?_
              · rw [hcall s.id he, hsame]
              · intro s' hs'
                exact Option.some.inj (hs'.symm.trans hold)
      · have hcall := call_disable_other (V := V) hactive hid
        refine hgoal sel (congrArg Host.active hcall) hid ?_
        intro s hs
        obtain ⟨-, hcase⟩ := ht.first s hs hagain
        rw [hactive] at hcase
        rcases hcase with hcase | ⟨hcase, -⟩
        · exact (Option.some.inj hcase).symm
        · exact absurd (congrArg Selection.id (Option.some.inj hcase)) hid

theorem Consistent.unspoilt (ht : Consistent t) {c : Call} (hc : Restores V t c) :
    Unspoilt t c := by
  rintro rfl
  obtain ⟨hoff, hbefore⟩ := hc.1 rfl
  have hnamed : ∀ s, t.host.active = some s → s.id = linhello →
      ∃ e, Entry.ofString? (baseOf (File.read t.host.marker)) = some e ∧ e ≠ linhello := by
    intro s hs hid
    obtain ⟨hsome, hnone⟩ := call_disable_linhello (V := V) hs hid
    cases he : Entry.ofString? (baseOf (File.read t.host.marker)) with
    | none => exact absurd ⟨s, (congrArg Host.active (hnone he)).trans hs, hid⟩ hoff
    | some e =>
        refine ⟨e, rfl, ?_⟩
        intro hlinhello
        exact hoff ⟨_, congrArg Host.active (hsome e he), hlinhello⟩
  refine ⟨?_, fun ⟨s, hs, hid⟩ _ => hnamed s hs hid⟩
  rw [← Bool.not_eq_true]
  intro hagain
  rcases ht.spoilt hagain with ⟨s, hs, hid⟩ | ⟨⟨s, hs, hid⟩, hmarker⟩
  · exact hoff ⟨s, hbefore s hs, hid⟩
  · obtain ⟨e, he, hne⟩ := hnamed s hs hid
    rw [hmarker, baseOf_marker] at he
    exact hne (Option.some.inj he).symm

end Calls

/-! ## Runs -/

section Runs

variable {V : String → Templates} {start : Host} {sel : Selection}

theorem trail_concat (pre : List Call) (c : Call) :
    trail V start (pre ++ [c]) = (trail V start pre).next V c := by
  rw [trail, trail, List.foldl_append, List.foldl_cons, List.foldl_nil]

theorem consistent_trail (hactive : start.active = some sel) (calls : List Call) :
    Consistent (trail V start calls) := by
  induction calls using List.reverseRecOn with
  | nil => exact ⟨⟨sel, hactive⟩, nofun, nofun⟩
  | append_singleton pre c ih =>
      rw [trail_concat]
      exact ih.next c

/-- In a run from a host whose selected profile is there, every call leaves what it is to
leave exactly if no disable follows an enable that found `custom/linhello` selected, and a
first call that is a disable finds another profile in the marker. -/
theorem restores_iff_unspoilt (V : String → Templates) (start : Host) (sel : Selection)
    (hactive : start.active = some sel) (hpresent : ¬start.Stranded) (calls : List Call) :
    (∀ pre c, pre ++ [c] <+: calls → Restores V (trail V start pre) c) ↔
      ∀ pre c, pre ++ [c] <+: calls → Unspoilt (trail V start pre) c := by
  constructor
  · intro h pre c hpre
    exact (consistent_trail hactive pre).unspoilt (h pre c hpre)
  · intro h pre c hpre
    have hthere : ∀ pre, pre <+: calls → ¬(trail V start pre).host.Stranded := by
      intro pre hpre
      induction pre using List.reverseRecOn with
      | nil => exact hpresent
      | append_singleton pre c ih =>
          have hstep := (consistent_trail hactive pre).restores (V := V)
            (ih ((List.prefix_append pre [c]).trans hpre)) (h pre c hpre)
          rw [trail_concat]
          exact hstep.2
    exact (consistent_trail hactive pre).restores
      (hthere pre ((List.prefix_append pre [c]).trans hpre)) (h pre c hpre)

end Runs

/-! ### A fresh host -/

def sssd : Entry where
  text := "sssd"
  noNewline := by decide
  first := Entry.all_visible_iff.1 (by decide)
  last := Entry.all_visible_iff.1 (by decide)
  nonempty := by decide

/-- Every profile comes with one line for each of the two stacks. -/
def stock : String → Templates := fun _ name =>
  if name ∈ TEMPLATES then some (.text "auth sufficient pam_unix.so\n") else none

/-- `sssd` is selected, and nothing was ever enabled. -/
def fresh : Host := { active := some ⟨sssd, []⟩, custom := none, marker := none }

theorem readable_stock (id : String) : Readable (stock id) := by
  intro name hname
  rw [stock, if_pos hname]
  nofun

theorem not_stranded_fresh : ¬fresh.Stranded := by
  have hactive : fresh.active = some ⟨sssd, []⟩ := rfl
  intro h
  exact not_selected hactive (by decide) h.1

/-- One enable and one disable: `sssd` is selected again. -/
theorem restores_once : fresh.active = some ⟨sssd, []⟩ ∧
    ∀ pre c, pre ++ [c] <+: [.enable false, .disable false] →
      Restores stock (trail stock fresh pre) c := by
  refine ⟨rfl, (restores_iff_unspoilt stock fresh ⟨sssd, []⟩ rfl not_stranded_fresh _).2 ?_⟩
  rintro pre c hpre rfl
  -- the only disable comes right after the enable
  have hfirst : pre = [.enable false] := by
    match pre, hpre with
    | [], hpre =>
        have hhead := (List.cons_prefix_cons.1 hpre).1
        cases hhead
    | [a], hpre => rw [(List.cons_prefix_cons.1 hpre).1]
    | a :: b :: rest, hpre =>
        have hlen := hpre.length_le
        simp at hlen
  rw [hfirst]
  exact ⟨rfl, fun _ hnone => absurd hnone (Option.some_ne_none _)⟩

/-- Enabled twice, then disabled: `custom/linhello` stays selected and is deleted. -/
theorem stranded_after_two_enables :
    ¬∀ V start sel, start.active = some sel → ¬start.Stranded → ∀ calls pre c,
      pre ++ [c] <+: calls → Restores V (trail V start pre) c := by
  intro h
  obtain ⟨d, hread, hfirst⟩ := (eval_fedoraEnable (V := stock) (h := fresh) rfl).1
    (readable_stock "sssd")
  obtain ⟨d', -, hsecond⟩ := (eval_fedoraEnable (V := stock)
    (h := { active := some ⟨linhello, []⟩, custom := some d,
            marker := some (.text (sssd.text ++ "\n")) }) rfl).1 hread
  have hdisable := (eval_fedoraDisable_linhello (V := stock)
    (h := { active := some ⟨linhello, []⟩, custom := some d',
            marker := some (.text (linhello.text ++ "\n")) }) rfl rfl).1 linhello (baseOf_marker _)
  have hhost : (trail stock fresh [.enable false, .enable false]).host.call stock (.disable false) =
      { active := some ⟨linhello, []⟩, custom := none, marker := none } := by
    rw [trail, List.foldl_cons, List.foldl_cons, List.foldl_nil, host_next, host_next, Host.call,
      Host.call, Host.call, Call.run, Call.run, hfirst, hsecond, hdisable]
  have hrestores := (h stock fresh ⟨sssd, []⟩ rfl not_stranded_fresh
    [.enable false, .enable false, .disable false] [.enable false, .enable false] (.disable false)
    (List.prefix_refl _)).2
  rw [hhost] at hrestores
  exact hrestores ⟨⟨_, rfl, rfl⟩, rfl⟩

end Linhello.Cli.Authselect
