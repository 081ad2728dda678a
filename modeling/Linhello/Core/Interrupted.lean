import Linhello.Common.ConfigLaw
import Linhello.Core.EnvelopeFile
import Linhello.Host.Simulated
/-!
# Interrupted saves

`SealedEnvelope::save` truncates the file and fills it. A save that stops before it
truncates leaves the old envelope, one that has written everything leaves the new one, and
one that stops in between leaves a text that does not parse.
-/

namespace Linhello.Core.EnvelopeFile

open Common Common.Conf Effect
open Common.JsonCodec

variable {J : JsonText} {encode : Bytes → String} {decode : String → Except String Bytes}
  {faulty : Prop} {made : Except IoError Unit} {env old : SealedEnvelope} {f f' : File}
  {b buf : Bytes} {x y : File × List (Event conf)} {e : Option (Except LinuxHelloError Unit)}
  {events : List (Event conf)}

/-! ## What an interrupted call leaves -/

/-- The file holds `b` and the beginning of a buffer behind it. -/
def Begun (b buf : Bytes) (f : File) : Prop := ∃ w, f = some (b ++ w) ∧ w <+: buf

theorem begun_nothing (hx : x.1 = some b) : Begun b buf x.1 := by
  refine ⟨[], ?_, List.nil_prefix⟩
  rw [hx, List.append_nil]

theorem begun_piece {r : Except IoError Nat} (hx : x.1 = some b)
    (h : recorded (Step faulty) x (.write buf) r y) : Begun b buf y.1 := by
  obtain ⟨hfile, -, -⟩ := step_write hx h
  refine ⟨_, hfile, ?_⟩
  cases r with
  | ok n => exact List.take_prefix n buf
  | error err => exact List.nil_prefix

/-- However `write_all` ends, the file holds the beginning of the buffer. -/
theorem begun_of_writeAll {fuel : Nat} (hx : x.1 = some b)
    (h : Runs (recorded (Step faulty)) (writeAll fuel buf).run x e y) : Begun b buf y.1 := by
  induction fuel generalizing buf b x with
  | zero =>
      obtain ⟨-, rfl⟩ := h
      exact begun_nothing hx
  | succ fuel ih =>
      rw [writeAll] at h
      by_cases hempty : buf = []
      · rw [if_pos hempty] at h
        obtain ⟨-, rfl⟩ := h
        exact begun_nothing hx
      · rw [if_neg hempty] at h
        rcases runs_exceptT_bind h with ⟨-, hcut⟩ | ⟨n, v, hwrite, hrest⟩ | ⟨err, hwrite, -⟩
        · rcases runs_attempt_none hcut with hcut | ⟨r, hr⟩
          · rcases runs_perform_none hcut with rfl | ⟨r, hr⟩
            · exact begun_nothing hx
            · exact begun_piece hx hr
          · exact begun_piece hx (exec_perform.1 hr)
        · have hstep := exec_perform.1 (exec_attempt_ok.1 hwrite)
          by_cases hzero : n = 0
          · rw [if_pos hzero] at hrest
            obtain ⟨-, rfl⟩ := hrest
            exact begun_piece hx hstep
          · rw [if_neg hzero] at hrest
            obtain ⟨hfile, -, -⟩ := step_write hx hstep
            obtain ⟨w, hw, hstart⟩ := ih hfile hrest
            refine ⟨buf.take n ++ w, ?_, ?_⟩
            · rw [hw, List.append_assoc]
              rfl
            · have hwhole := (List.prefix_append_right_inj (buf.take n)).2 hstart
              rwa [List.take_append_drop] at hwhole
        · obtain ⟨r, hr, -⟩ := exec_attempt.1 hwrite
          exact begun_piece hx (exec_perform.1 hr)

/-- The file as it was, or the beginning of the text that replaces it. -/
def Replaces (out : Bytes) (f f' : File) (events : List (Event conf)) : Prop :=
  (¬Truncated events ∧ f' = f) ∨
    (Truncated events ∧ f' = some (written events) ∧ written events <+: out)

theorem replaces_of_create {out : Bytes} {r : Except IoError Unit}
    (h : recorded (Step faulty) (f, []) .create r (f', events)) : Replaces out f f' events := by
  obtain ⟨⟨-, hfile⟩, hlog⟩ := h
  replace hlog : events = [⟨.create, r⟩] := hlog
  rw [hlog]
  cases r with
  | ok u => exact .inr ⟨List.mem_cons_self, hfile, List.nil_prefix⟩
  | error err =>
      refine .inl ⟨?_, hfile⟩
      intro hmem
      cases List.mem_singleton.1 hmem

private theorem replaces_of_fsWrite {out : Bytes}
    (h : Runs (recorded (Step faulty)) (fsWrite out).run (f, []) e (f', events)) :
    Replaces out f f' events := by
  have huntouched : ¬Truncated [] := List.not_mem_nil
  rcases runs_exceptT_bind h with ⟨-, hcut⟩ | ⟨u, v, hcreate, hrest⟩ | ⟨err, hcreate, -⟩
  · rcases runs_attempt_none hcut with hcut | ⟨r, hr⟩
    · rcases runs_perform_none hcut with hsame | ⟨r, hr⟩
      · obtain ⟨rfl, rfl⟩ := Prod.mk.inj hsame
        exact .inl ⟨huntouched, rfl⟩
      · exact replaces_of_create hr
    · exact replaces_of_create (exec_perform.1 hr)
  · obtain ⟨⟨-, hopened⟩, hlog⟩ := exec_perform.1 (exec_attempt_ok.1 hcreate)
    obtain ⟨rest, hfile, hevents, -, -⟩ := runs_writeAll (Nat.le_refl _) hopened hrest
    obtain ⟨w, hw, hstart⟩ := begun_of_writeAll hopened hrest
    replace hlog : v.2 = [⟨.create, .ok u⟩] := hlog
    replace hevents : events = v.2 ++ rest := hevents
    rw [hlog] at hevents
    have hwritten : written events = w := by
      have hsame := Option.some.inj (hfile.symm.trans hw)
      rw [hevents]
      exact hsame
    right
    rw [hwritten]
    refine ⟨?_, hw, hstart⟩
    rw [hevents]
    exact List.mem_cons_self
  · obtain ⟨r, hr, -⟩ := exec_attempt.1 hcreate
    exact replaces_of_create (exec_perform.1 hr)

theorem replaces_of_save (h : Runs (recorded (Step faulty)) (save J encode decode made env).run
    (f, []) e (f', events)) :
    Replaces (utf8 (J.toStringPretty (sealedEnvelope encode decode) env)) f f' events := by
  have huntouched : ¬Truncated [] := List.not_mem_nil
  unfold save at h
  rcases runs_exceptT_bind h with ⟨-, -, hsame⟩ | ⟨u, v, ⟨-, rfl⟩, hrest⟩ | ⟨err, ⟨-, hsame⟩, -⟩
  · obtain ⟨rfl, rfl⟩ := Prod.mk.inj hsame
    exact .inl ⟨huntouched, rfl⟩
  · exact replaces_of_fsWrite hrest
  · obtain ⟨rfl, rfl⟩ := Prod.mk.inj hsame
    exact .inl ⟨huntouched, rfl⟩

/-! ## Crash safety -/

/-- The printed text of an envelope is parsed again, and no beginning of it parses. -/
structure SelfDelimiting (J : JsonText) (v : JsonValue) : Prop where
  whole : J.parse (J.print v) = some v
  beginning : ∀ s, utf8 s <+: utf8 (J.print v) → s ≠ J.print v → J.parse s = none

/-- The numbers of an envelope fit their type. -/
structure Fits (env : SealedEnvelope) : Prop where
  version : env.version < 2 ^ 32
  pcrs : ∀ i ∈ env.pcrs, i < 2 ^ 32
  pcrValues : ∀ p ∈ env.pcrValues, p.pcr < 2 ^ 32

/-- A save that stopped between the truncation and the last byte leaves a file that does
not load. -/
theorem loaded_error_of_beginning {out : Bytes}
    (htext : SelfDelimiting J ((sealedEnvelope encode decode).write env))
    (hstart : out <+: utf8 (J.toStringPretty (sealedEnvelope encode decode) env))
    (hne : out ≠ utf8 (J.toStringPretty (sealedEnvelope encode decode) env)) :
    ∃ err, loaded J encode decode (some out) = .error err := by
  cases hcontent : contentOf (some out) with
  | error err =>
      refine ⟨.io err, ?_⟩
      unfold loaded
      rw [hcontent]
  | ok s =>
      have hout := eq_utf8_of_content hcontent
      rw [hout] at hstart hne ⊢
      have hparse := htext.beginning s hstart fun heq => hne (congrArg utf8 heq)
      refine ⟨.serde (J.failure s), ?_⟩
      rw [loaded_of_text, JsonText.fromStr, hparse]
      rfl

/-- A later load gives the old envelope or the new one. -/
def Survives (J : JsonText) (encode : Bytes → String) (decode : String → Except String Bytes)
    (old env : SealedEnvelope) (f : File) : Prop :=
  ∀ r f', Exec (Step False) (load J encode decode).run f r f' → r = .ok old ∨ r = .ok env

theorem survives_iff : Survives J encode decode old env f ↔
    loaded J encode decode f = .ok old ∨ loaded J encode decode f = .ok env := by
  constructor
  · intro h
    exact h _ _ (exec_loaded f)
  · intro h r f' hload
    rwa [exec_load hload]

/-- However a save over a loadable file stops, a later load gives the old envelope or the new
one if and only if the file was not truncated, or all of the new text was written. -/
theorem save_crash_safe_iff (hb64 : ∀ b, decode (encode b) = .ok b) (hfits : Fits env)
    (htext : SelfDelimiting J ((sealedEnvelope encode decode).write env))
    (hold : loaded J encode decode f = .ok old)
    (h : Runs (recorded (Step True)) (save J encode decode made env).run (f, []) e (f', events)) :
    Survives J encode decode old env f' ↔ (Truncated events →
      written events = utf8 (J.toStringPretty (sealedEnvelope encode decode) env)) := by
  rw [survives_iff]
  rcases replaces_of_save h with ⟨huntouched, rfl⟩ | ⟨htrunc, rfl, hstart⟩
  · exact iff_of_true (.inl hold) fun htrunc => absurd htrunc huntouched
  · by_cases hall : written events = utf8 (J.toStringPretty (sealedEnvelope encode decode) env)
    · have hback := readsBack_sealedEnvelope hb64 hfits.version hfits.pcrs hfits.pcrValues
      refine iff_of_true (.inr ?_) fun _ => hall
      rw [hall, loaded_of_text, JsonText.fromStr_toStringPretty htext.whole hback]
      rfl
    · obtain ⟨err, hload⟩ := loaded_error_of_beginning htext hstart hall
      refine iff_of_false ?_ fun himp => hall (himp htrunc)
      rw [hload]
      exact nofun

/-! ## One envelope -/

theorem exists_save (J : JsonText) (encode : Bytes → String) (decode : String → Except String Bytes)
    (env : SealedEnvelope) (f : File) : ∃ events,
    Exec (recorded (Step True)) (save J encode decode (.ok ()) env).run (f, []) (.ok ())
      (some (utf8 (J.toStringPretty (sealedEnvelope encode decode) env)),
        ⟨.create, .ok ()⟩ :: events) := by
  obtain ⟨es, hwrite⟩ := exec_writeAll True
    (utf8 (J.toStringPretty (sealedEnvelope encode decode) env)) [⟨.create, .ok ()⟩]
  refine ⟨es, exec_exceptT_bind_ok.2 ⟨(), (f, []), ⟨rfl, rfl⟩, ?_⟩⟩
  exact exec_exceptT_bind_ok.2 ⟨(), _,
    exec_attempt_ok.2 (exec_perform.2 ⟨⟨trivial, rfl⟩, rfl⟩), hwrite⟩

theorem runs_opened (J : JsonText) (encode : Bytes → String) (decode : String → Except String Bytes)
    (env : SealedEnvelope) (f : File) :
    Runs (recorded (Step True)) (save J encode decode (.ok ()) env).run (f, []) none
      (some [], [⟨.create, .ok ()⟩]) :=
  .inr ⟨.ok (), (some [], [⟨.create, .ok ()⟩]), ⟨⟨trivial, rfl⟩, rfl⟩, runs_stop _ _⟩

def smallEnvelope : SealedEnvelope :=
  { version := CURRENT_VERSION, mode := .medium, pcrs := [7],
    policy := .pcrLiteral, pub := [0, 1, 2], priv := [3, 4, 5], pcrValues := [] }

def smallText : JsonText :=
  .of ((sealedEnvelope Host.simulatedEncode Host.simulatedDecode).write smallEnvelope)

theorem fits_smallEnvelope : Fits smallEnvelope := ⟨by decide, by decide, by decide⟩

theorem selfDelimiting_small : SelfDelimiting smallText
    ((sealedEnvelope Host.simulatedEncode Host.simulatedDecode).write smallEnvelope) :=
  ⟨JsonText.parse_of _, fun _ _ hne => if_neg hne⟩

def smallFile : File := some (utf8 (smallText.toStringPretty
  (sealedEnvelope Host.simulatedEncode Host.simulatedDecode) smallEnvelope))

theorem loaded_smallFile :
    loaded smallText Host.simulatedEncode Host.simulatedDecode smallFile = .ok smallEnvelope := by
  have hback := readsBack_sealedEnvelope Host.simulatedDecode_encode fits_smallEnvelope.version
    fits_smallEnvelope.pcrs fits_smallEnvelope.pcrValues
  unfold smallFile
  rw [loaded_of_text, JsonText.fromStr_toStringPretty selfDelimiting_small.whole hback]
  rfl

def earlierEnvelope : SealedEnvelope := { smallEnvelope with priv := [6, 7] }

def earlierValue : JsonValue :=
  (sealedEnvelope Host.simulatedEncode Host.simulatedDecode).write earlierEnvelope

def bothTexts : JsonText where
  print := smallText.print
  failure := smallText.failure
  parse text :=
    if text = smallText.print earlierValue then some earlierValue else smallText.parse text

theorem parse_earlier {text : String} (h : text = smallText.print earlierValue) :
    bothTexts.parse text = some earlierValue := if_pos h

theorem parse_other {text : String} (h : text ≠ smallText.print earlierValue) :
    bothTexts.parse text = smallText.parse text := if_neg h

theorem selfDelimiting_both : SelfDelimiting bothTexts
    ((sealedEnvelope Host.simulatedEncode Host.simulatedDecode).write smallEnvelope) where
  whole := by
    have hne : smallText.print ((sealedEnvelope Host.simulatedEncode Host.simulatedDecode).write
        smallEnvelope) ≠ smallText.print earlierValue := by decide +kernel
    exact (parse_other hne).trans selfDelimiting_small.whole
  beginning := by
    have hdiffer : ¬ utf8 (smallText.print earlierValue) <+: utf8 (smallText.print
        ((sealedEnvelope Host.simulatedEncode Host.simulatedDecode).write smallEnvelope)) := by
      decide +kernel
    intro s hstart hne
    refine (parse_other ?_).trans (selfDelimiting_small.beginning s hstart hne)
    rintro rfl
    exact hdiffer hstart

def earlierFile : File := some (utf8 (bothTexts.toStringPretty
  (sealedEnvelope Host.simulatedEncode Host.simulatedDecode) earlierEnvelope))

theorem loaded_earlierFile :
    loaded bothTexts Host.simulatedEncode Host.simulatedDecode earlierFile =
    .ok earlierEnvelope := by
  have hback : (sealedEnvelope Host.simulatedEncode Host.simulatedDecode).ReadsBack
      earlierEnvelope := readsBack_sealedEnvelope Host.simulatedDecode_encode
    fits_smallEnvelope.version fits_smallEnvelope.pcrs fits_smallEnvelope.pcrValues
  have htext : bothTexts.parse (bothTexts.print earlierValue) = some earlierValue :=
    parse_earlier rfl
  unfold earlierFile
  rw [loaded_of_text, JsonText.fromStr_toStringPretty htext hback]
  rfl

/-- A save over another envelope is killed before it returns, with everything written, or once
it has truncated the file. -/
theorem save_crash_safe_iff_interrupted : earlierEnvelope ≠ smallEnvelope ∧
    (∃ f' events, Runs (recorded (Step True)) (save bothTexts Host.simulatedEncode
        Host.simulatedDecode (.ok ()) smallEnvelope).run (earlierFile, []) none (f', events) ∧
      Truncated events ∧
      Survives bothTexts Host.simulatedEncode Host.simulatedDecode earlierEnvelope
        smallEnvelope f') ∧
    Runs (recorded (Step True)) (save bothTexts Host.simulatedEncode Host.simulatedDecode (.ok ())
        smallEnvelope).run (earlierFile, []) none (some [], [⟨.create, .ok ()⟩]) ∧
      ¬ Survives bothTexts Host.simulatedEncode Host.simulatedDecode earlierEnvelope smallEnvelope
        (some []) := by
  refine ⟨by decide, ?_, ?_⟩
  · obtain ⟨events, hsave⟩ := exists_save bothTexts Host.simulatedEncode Host.simulatedDecode
      smallEnvelope earlierFile
    have hruns := runs_end (.inr rfl) hsave
    refine ⟨_, _, hruns, List.mem_cons_self, (save_crash_safe_iff Host.simulatedDecode_encode
      fits_smallEnvelope selfDelimiting_both loaded_earlierFile hruns).2 ?_⟩
    intro htrunc
    rcases replaces_of_save hruns with ⟨huntouched, -⟩ | ⟨-, hfile, -⟩
    · exact absurd htrunc huntouched
    · exact (Option.some.inj hfile).symm
  · have hruns := runs_opened bothTexts Host.simulatedEncode Host.simulatedDecode smallEnvelope
      earlierFile
    refine ⟨hruns, fun hsurvives => ?_⟩
    have hall := (save_crash_safe_iff Host.simulatedDecode_encode fits_smallEnvelope
      selfDelimiting_both loaded_earlierFile hruns).1 hsurvives List.mem_cons_self
    have hne : written [⟨.create, .ok ()⟩] ≠ utf8 (bothTexts.toStringPretty
        (sealedEnvelope Host.simulatedEncode Host.simulatedDecode) smallEnvelope) := by
          decide +kernel
    exact hne hall

/-- The process is killed right after `fs::write` opened the file. -/
theorem not_save_crash_safe : ¬ ∀ (J : JsonText) (encode : Bytes → String)
    (decode : String → Except String Bytes) (made : Except IoError Unit) (old env : SealedEnvelope)
    (f f' : File) (e : Option (Except LinuxHelloError Unit)) (events : List (Event conf)),
    (∀ b, decode (encode b) = .ok b) → Fits env →
    SelfDelimiting J ((sealedEnvelope encode decode).write env) →
    loaded J encode decode f = .ok old →
    Runs (recorded (Step True)) (save J encode decode made env).run (f, []) e (f', events) →
    Survives J encode decode old env f' := by
  intro hall
  have hruns :=
    runs_opened smallText Host.simulatedEncode Host.simulatedDecode smallEnvelope smallFile
  have hne : ([] : Bytes) ≠ utf8 (smallText.toStringPretty
      (sealedEnvelope Host.simulatedEncode Host.simulatedDecode) smallEnvelope) := by decide +kernel
  obtain ⟨err, hload⟩ := loaded_error_of_beginning selfDelimiting_small List.nil_prefix hne
  have hsurvives := survives_iff.1 (hall _ _ _ _ _ _ _ _ _ _ Host.simulatedDecode_encode
    fits_smallEnvelope selfDelimiting_small loaded_smallFile hruns)
  rw [hload] at hsurvives
  revert hsurvives
  exact nofun

end Linhello.Core.EnvelopeFile
