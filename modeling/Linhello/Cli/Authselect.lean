import Linhello.Cli.Machine
import Linhello.Cli.Pamwire
/-!
# The authselect profile

On Fedora the shared stacks are rendered from a profile. `fedoraEnable` bases the profile
`custom/linhello` on the active one, puts the stanza into its templates, stores the id of
the active profile in a marker file and selects `custom/linhello`. `fedoraDisable` selects
what the marker names and removes the profile.

The marker is written on every enable, also when `custom/linhello` is the active profile.
-/

namespace Linhello.Cli.Authselect

open Common Effect Machine Pamwire

def FEDORA_CUSTOM_DIR : String := "/etc/authselect/custom/linhello"

def FEDORA_BASE_MARKER : String := "/etc/linhello/authselect-base"

/-- `Path::parent` of the marker. -/
def FEDORA_BASE_MARKER_PARENT : String := "/etc/linhello"

/-! ## The calls -/

/-- Profile, features, and whether the features have begun. -/
abbrev Parsed := Option String × List String × Bool

def parseLine (acc : Parsed) (line : String) : Parsed :=
  let (profile, features, inFeatures) := acc
  let t := trim line
  match stripPrefix t "Profile ID:" with
  | some rest => (some (trim rest), features, inFeatures)
  | none =>
      if startsWith t "Enabled features:" then (profile, features, true)
      else if inFeatures then
        match stripPrefix t "-" with
        | some f => if trim f = "" then acc else (profile, features ++ [trim f], inFeatures)
        | none => acc
      else acc

def parseAuthselectCurrent (out : String) : Option String × List String :=
  let (profile, features, _) := (lines out).foldl parseLine (none, [], false)
  (profile, features)

def currentArgs : List String := ["current"]

def createArgs (base : String) : List String := ["create-profile", "linhello", "--base-on", base]

def selectArgs (id : String) (features : List String) : List String :=
  "select" :: id :: features ++ ["--force"]

def TEMPLATES : List String := ["system-auth", "password-auth"]

def template (name : String) : String := FEDORA_CUSTOM_DIR ++ "/" ++ name

/-- Put the stanza into one template, if there is one. -/
def wireTemplate (name : String) : Fallible (List Change) := do
  let p := template name
  if ← perform (.pathExists p) then
    let content ← fallible ("reading " ++ p ++ ": ") (perform (.readToString p))
    let edit := insertFirstAuth content SUFFICIENT_STANZA
    if edit.2 then
      fallible ("writing " ++ p ++ ": ") (perform (.write p edit.1))
      pure [.edited p]
    else pure [.alreadyWired p]
  else pure []

def wireTemplates : List String → Fallible (List Change)
  | [] => pure []
  | name :: names => do return (← wireTemplate name) ++ (← wireTemplates names)

def storeAuthselectBase (base : String) : Fallible Unit := do
  ignored (perform (.createDirAll FEDORA_BASE_MARKER_PARENT))
  fallible ("writing " ++ FEDORA_BASE_MARKER ++ ": ")
    (perform (.write FEDORA_BASE_MARKER (base ++ "\n")))

def baseOf (marker : Except String String) : String :=
  match marker with
  | .ok s => if trim s = "" then "sssd" else trim s
  | .error _ => "sssd"

def loadAuthselectBase : Proc String :=
  do return baseOf (← perform (.readToString FEDORA_BASE_MARKER))

def enableDryRun (base : String) (features : List String) : List Change :=
  [.manual ("would base a custom/linhello profile on '" ++ base ++ "'"),
    .manual ("would inject `" ++ SUFFICIENT_STANZA ++ "` into its system-auth & password-auth"),
    .manual ("then run: authselect select custom/linhello" ++
      String.join (features.map (" " ++ ·)) ++ " --force")]

def createProfile (base : String) : Fallible Unit := do
  if ← perform (.pathExists FEDORA_CUSTOM_DIR) then pure ()
  else fallible "" (perform (.run "authselect" (createArgs base)))

def fedoraEnable (dryRun : Bool) : Fallible (List Change) := do
  let current ← perform (.runCapture "authselect" currentArgs)
  let (profile, features) := parseAuthselectCurrent (current.getD "")
  let base := profile.getD "sssd"
  if dryRun then pure (enableDryRun base features)
  else
    createProfile base
    let wired ← wireTemplates TEMPLATES
    storeAuthselectBase base
    fallible "" (perform (.run "authselect" (selectArgs "custom/linhello" features)))
    pure (wired ++
      [.manual ("activated custom/linhello (was '" ++ base ++
        "') — face login is live; password still works"),
       .manual "revert any time with:  linhello pam disable"])

/-- Leave `custom/linhello`, if it is the active profile. -/
def switchBack (profile : Option String) (features : List String) : Fallible (List Change) := do
  if profile = some "custom/linhello" then
    let base ← loadAuthselectBase
    fallible "" (perform (.run "authselect" (selectArgs base features)))
    pure [.manual ("switched back to '" ++ base ++ "'")]
  else pure []

def removeProfile : Fallible (List Change) := do
  if ← perform (.pathExists FEDORA_CUSTOM_DIR) then
    fallible ("removing " ++ FEDORA_CUSTOM_DIR ++ ": ") (perform (.removeDirAll FEDORA_CUSTOM_DIR))
    pure [.removed FEDORA_CUSTOM_DIR]
  else pure [.notWired FEDORA_CUSTOM_DIR]

def fedoraDisable (dryRun : Bool) : Fallible (List Change) := do
  if dryRun then pure [.wouldRemove FEDORA_CUSTOM_DIR]
  else
    let current ← perform (.runCapture "authselect" currentArgs)
    let (profile, features) := parseAuthselectCurrent (current.getD "")
    let switched ← switchBack profile features
    let removed ← removeProfile
    ignored (perform (.removeFile FEDORA_BASE_MARKER))
    pure (switched ++ removed)

/-! ## The host

The state of authselect and the marker file. The operations on them have the effect they
are documented to have. -/

/-- A profile id or a feature: text that a line keeps and trimming leaves alone. -/
structure Entry where
  text : String
  noNewline : '\n' ∉ text.toList
  first : ∀ c ∈ text.toList.head?, isWhiteSpace c = false
  last : ∀ c ∈ text.toList.getLast?, isWhiteSpace c = false
  nonempty : text.toList ≠ []

namespace Entry

instance : DecidableEq Entry := fun a b =>
  decidable_of_iff (a.text = b.text) ⟨fun h => by cases a; cases b; cases h; rfl, congrArg text⟩

def WellFormed (s : String) : Prop :=
  '\n' ∉ s.toList ∧ (∀ c ∈ s.toList.head?, isWhiteSpace c = false) ∧
    (∀ c ∈ s.toList.getLast?, isWhiteSpace c = false) ∧ s.toList ≠ []

theorem all_visible_iff {o : Option Char} :
    o.all (fun c => !isWhiteSpace c) = true ↔ ∀ c ∈ o, isWhiteSpace c = false := by
  cases o <;> simp

instance (s : String) : Decidable (WellFormed s) :=
  decidable_of_iff ('\n' ∉ s.toList ∧ (s.toList.head?.all fun c => !isWhiteSpace c) = true ∧
    (s.toList.getLast?.all fun c => !isWhiteSpace c) = true ∧ s.toList ≠ []) (by
    rw [all_visible_iff, all_visible_iff, WellFormed])

/-- The entry with a text, if the text can be one. -/
def ofString? (s : String) : Option Entry :=
  if h : WellFormed s then some ⟨s, h.1, h.2.1, h.2.2.1, h.2.2.2⟩ else none

theorem ofString?_text (e : Entry) : ofString? e.text = some e := by
  rw [ofString?, dif_pos ⟨e.noNewline, e.first, e.last, e.nonempty⟩]

end Entry

/-- `custom/linhello`. -/
def linhello : Entry where
  text := "custom/linhello"
  noNewline := by decide
  first := Entry.all_visible_iff.1 (by decide)
  last := Entry.all_visible_iff.1 (by decide)
  nonempty := by decide

structure Selection where
  id : Entry
  features : List Entry
  deriving DecidableEq

inductive File
  | text (s : String)
  | undecodable

def File.read : Option File → Except String String
  | some (.text s) => .ok s
  | some .undecodable => .error "stream did not contain valid UTF-8"
  | none => .error "No such file or directory (os error 2)"

abbrev Templates := String → Option File

/-- No template the stanza goes into is undecodable. -/
def Readable (d : Templates) : Prop := ∀ name ∈ TEMPLATES, d name ≠ some .undecodable

structure Host where
  active : Option Selection
  /-- The templates of `custom/linhello`, where there is such a profile. -/
  custom : Option Templates
  marker : Option File

/-- What `authselect current` prints. -/
def printCurrent : Option Selection → String
  | none => "No existing configuration detected.\n"
  | some s => unlines (("Profile ID: " ++ s.id.text) ::
      (if s.features = [] then ["Enabled features: None"]
       else "Enabled features:" :: s.features.map ("- " ++ ·.text)))

/-- A selection from the arguments of `select`. -/
def selection (id : String) (features : List String) : Option Selection := do
  some ⟨← Entry.ofString? id, ← features.mapM Entry.ofString?⟩

/-- The file a path is of, among those of the host. -/
def Host.file (h : Host) (path : OsPath) : Option File :=
  if path = FEDORA_BASE_MARKER then h.marker
  else (TEMPLATES.find? (path = template ·)).bind fun name =>
    h.custom.bind (· name)

def Host.exists (h : Host) (path : OsPath) : Bool :=
  if path = FEDORA_CUSTOM_DIR then h.custom.isSome else (h.file path).isSome

def Host.write (h : Host) (path : OsPath) (contents : String) : Host :=
  if path = FEDORA_BASE_MARKER then { h with marker := some (.text contents) }
  else match TEMPLATES.find? (path = template ·) with
    | some name =>
      { h with custom := h.custom.map (Function.update · name (some (.text contents))) }
    | none => h

/-- `authselect` run with arguments; `V` are the templates of the profiles there are. -/
def Host.authselect (V : String → Templates) (h : Host) : List String → Except String Unit × Host
  | ["create-profile", "linhello", "--base-on", base] =>
      (.ok (), { h with custom := some (V base) })
  | "select" :: id :: rest =>
      match selection id rest.dropLast with
      | some s => (.ok (), { h with active := some s })
      | none => (.error "authselect select failed", h)
  | _ => (.error "authselect failed", h)

def hostStep (V : String → Templates) (h : Host) : (o : Op) → o.Ans × Host
  | .runCapture _ _ => (some (printCurrent h.active), h)
  | .run _ args => h.authselect V args
  | .pathExists path => (h.exists path, h)
  | .readToString path => (File.read (h.file path), h)
  | .write path contents => (.ok (), h.write path contents)
  | .removeDirAll _ => (.ok (), { h with custom := none })
  | .removeFile _ => (.ok (), { h with marker := none })
  | .createDirAll _ | .copy _ _ | .rename _ _ | .removeDir _ => (.ok (), h)
  | .distroFamily => (.fedora, h)
  | .isFile _ | .isDir _ | .status _ _ => (false, h)
  | .output _ _ => (.error "", h)
  | .readDir _ => (none, h)
  | .copyPermissions _ _ => ((), h)

/-! ## The printed selection -/

namespace Entry

variable (e : Entry)

theorem trimChars_text : trimChars e.text.toList = e.text.toList :=
  trimChars_of_ends e.first e.last

theorem last_append (s : String) : ∀ c ∈ (s ++ e.text).toList.getLast?, isWhiteSpace c = false := by
  rw [String.toList_append, List.getLast?_append_of_ne_nil _ e.nonempty]
  exact e.last

theorem trim_append {s : String} {c : Char} {t : List Char} (hs : s.toList = c :: t)
    (hc : isWhiteSpace c = false) : trim (s ++ e.text) = s ++ e.text := by
  have hfirst : ∀ d ∈ (s ++ e.text).toList.head?, isWhiteSpace d = false := by
    rw [String.toList_append, hs]
    intro d hd
    rw [← Option.some.inj hd]
    exact hc
  rw [trim, trimChars_of_ends hfirst (e.last_append s), String.ofList_toList]

theorem trim_space_append : trim (" " ++ e.text) = e.text := by
  have hspace : (" " ++ e.text).toList.dropWhile isWhiteSpace = e.text.toList := by
    rw [String.toList_append, show " ".toList = [' '] from rfl, List.singleton_append,
      List.dropWhile_cons, if_pos (by decide), dropWhile_eq_self e.first]
  have htrim := e.trimChars_text
  rw [trimChars, dropWhile_eq_self e.first] at htrim
  rw [trim, trimChars, hspace, htrim, String.ofList_toList]

theorem trim_append_newline : trim (e.text ++ "\n") = e.text := by
  have hfirst : ∀ c ∈ (e.text ++ "\n").toList.head?, isWhiteSpace c = false := by
    rw [String.toList_append, List.head?_append_of_ne_nil _ e.nonempty]
    exact e.first
  have hlast : ∀ c ∈ e.text.toList.reverse.head?, isWhiteSpace c = false := by
    rw [List.head?_reverse]
    exact e.last
  rw [trim, trimChars, dropWhile_eq_self hfirst, String.toList_append,
    show "\n".toList = ['\n'] from rfl, List.reverse_append, List.reverse_singleton,
    List.singleton_append, List.dropWhile_cons, if_pos (by decide), dropWhile_eq_self hlast,
    List.reverse_reverse, String.ofList_toList]

theorem isLine_append {s : String} (hs : '\n' ∉ s.toList) : IsLine (s ++ e.text) := by
  constructor
  · rw [String.toList_append, List.mem_append, not_or]
    exact ⟨hs, e.noNewline⟩
  · intro hcr
    have hspace := e.last_append s _ hcr
    exact absurd hspace (by decide)

theorem text_ne_empty : e.text ≠ "" := by
  intro h
  exact e.nonempty (congrArg String.toList h)

end Entry

theorem parseLine_profile (acc : Parsed) (e : Entry) :
    parseLine acc ("Profile ID: " ++ e.text) = (some e.text, acc.2) := by
  have htrim := e.trim_append (s := "Profile ID: ") (t := "rofile ID: ".toList) rfl (by decide)
  have hsplit : "Profile ID: " ++ e.text = "Profile ID:" ++ (" " ++ e.text) := by
    rw [← String.append_assoc]
    rfl
  simp only [parseLine]
  rw [htrim, hsplit, stripPrefix_append]
  dsimp only
  rw [e.trim_space_append]

private theorem parseLine_feature (profile : Option String) (features : List String) (e : Entry) :
    parseLine (profile, features, true) ("- " ++ e.text) =
      (profile, features ++ [e.text], true) := by
  have htrim := e.trim_append (s := "- ") (t := [' ']) rfl (by decide)
  have hsplit : "- " ++ e.text = "-" ++ (" " ++ e.text) := by
    rw [← String.append_assoc]
    rfl
  have hchars : ("- " ++ e.text).toList = '-' :: ' ' :: e.text.toList := by
    rw [String.toList_append]
    rfl
  have hprofile : stripPrefix ("- " ++ e.text) "Profile ID:" = none := by
    rw [stripPrefix, startsWith, hchars]
    rfl
  have hheader : startsWith ("- " ++ e.text) "Enabled features:" = false := by
    rw [startsWith, hchars]
    rfl
  simp only [parseLine]
  rw [htrim, hprofile, hheader, if_neg Bool.false_ne_true]
  dsimp only
  rw [if_pos trivial, hsplit, stripPrefix_append]
  dsimp only
  rw [e.trim_space_append, if_neg e.text_ne_empty]

private theorem foldl_parseLine_features (profile : Option String) (features : List String)
    (es : List Entry) :
    (es.map ("- " ++ ·.text)).foldl parseLine (profile, features, true) =
      (profile, features ++ es.map Entry.text, true) := by
  induction es generalizing features with
  | nil => simp
  | cons e es ih =>
      rw [List.map_cons, List.foldl_cons, parseLine_feature, ih, List.map_cons, List.append_assoc,
        List.singleton_append]

theorem parse_printCurrent (s : Selection) :
    parseAuthselectCurrent (printCurrent (some s)) =
      (some s.id.text, s.features.map Entry.text) := by
  have hheader : '\n' ∉ "Profile ID: ".toList := by decide
  have hdash : '\n' ∉ "- ".toList := by decide
  by_cases hnone : s.features = []
  · have hlines : ∀ l ∈ ["Profile ID: " ++ s.id.text, "Enabled features: None"], IsLine l := by
      intro l hl
      rcases List.mem_pair.1 hl with rfl | rfl
      · exact s.id.isLine_append hheader
      · exact ⟨by decide, by decide⟩
    rw [printCurrent, if_pos hnone, parseAuthselectCurrent, lines_unlines hlines, List.foldl_cons,
      parseLine_profile, hnone]
    rfl
  · have hlines : ∀ l ∈ ("Profile ID: " ++ s.id.text) :: "Enabled features:" ::
        s.features.map ("- " ++ ·.text), IsLine l := by
      intro l hl
      rcases List.mem_cons.1 hl with rfl | hl
      · exact s.id.isLine_append hheader
      · rcases List.mem_cons.1 hl with rfl | hl
        · exact ⟨by decide, by decide⟩
        · obtain ⟨e, -, rfl⟩ := List.mem_map.1 hl
          exact e.isLine_append hdash
    have hbegin : parseLine (some s.id.text, [], false) "Enabled features:" =
        (some s.id.text, [], true) := by
      rfl
    rw [printCurrent, if_neg hnone, parseAuthselectCurrent, lines_unlines hlines, List.foldl_cons,
      parseLine_profile, List.foldl_cons, hbegin, foldl_parseLine_features, List.nil_append]

theorem selection_features (id : String) (features : List Entry) :
    selection id (features.map Entry.text) = (Entry.ofString? id).map (⟨·, features⟩) := by
  have hfeatures : (features.map Entry.text).mapM Entry.ofString? = some features := by
    induction features with
    | nil => rfl
    | cons e es ih => rw [List.map_cons, List.mapM_cons, Entry.ofString?_text, ih]; rfl
  rw [selection, hfeatures]
  cases Entry.ofString? id with
  | none => rfl
  | some e => rfl

/-! ## What the calls do to the host -/

section Calls

variable {V : String → Templates} {h v : Host} {name : String} {d : Templates} {sel : Selection}

theorem find_template (hname : name ∈ TEMPLATES) :
    TEMPLATES.find? ((template name : OsPath) = template ·) = some name := by
  rcases List.mem_pair.1 hname with rfl | rfl
  · decide
  · decide

theorem template_ne (hname : name ∈ TEMPLATES) :
    (template name : OsPath) ≠ FEDORA_BASE_MARKER ∧
    (template name : OsPath) ≠ FEDORA_CUSTOM_DIR := by
  rcases List.mem_pair.1 hname with rfl | rfl
  · decide
  · decide

theorem Host.file_template (hname : name ∈ TEMPLATES) :
    h.file (template name) = h.custom.bind (· name) := by
  rw [Host.file, if_neg (template_ne hname).1, find_template hname]
  rfl

theorem Host.exists_template (hname : name ∈ TEMPLATES) :
    h.exists (template name) = (h.custom.bind (· name)).isSome := by
  rw [Host.exists, if_neg (template_ne hname).2, Host.file_template hname]

theorem Host.write_template (hname : name ∈ TEMPLATES) (t : String) :
    h.write (template name) t =
      { h with custom := h.custom.map (Function.update · name (some (.text t))) } := by
  rw [Host.write, if_neg (template_ne hname).1, find_template hname]

theorem eval_perform_bind {α : Type} (o : Op) (k : o.Ans → Fallible α) :
    eval (hostStep V) (liftM (perform o) >>= k).run h =
      eval (hostStep V) (k (hostStep V h o).1).run (hostStep V h o).2 :=
  eval_exceptT_bind_ok eval_exceptT_lift

theorem eval_ignored_bind {α β : Type} {p : Proc α} {k : Unit → Fallible β} :
    eval (hostStep V) (ignored p >>= k).run h =
      eval (hostStep V) (k ()).run (eval (hostStep V) p h).2 := by
  refine eval_exceptT_bind_ok ?_
  rw [ignored, eval_exceptT_lift, eval_bind]
  rfl

theorem eval_fallible_bind {α β : Type} {c : String} {p : Proc (Except String α)}
    {k : α → Fallible β} {a : α} (hp : eval (hostStep V) p h = (.ok a, v)) :
    eval (hostStep V) (fallible c p >>= k).run h = eval (hostStep V) (k a).run v := by
  refine eval_exceptT_bind_ok ?_
  rw [fallible, eval_attempt, hp]
  rfl

theorem eval_fallible_bind_error {α β : Type} {c : String} {p : Proc (Except String α)}
    {k : α → Fallible β} {e : String} (hp : eval (hostStep V) p h = (.error e, v)) :
    eval (hostStep V) (fallible c p >>= k).run h = (.error (c ++ e), v) := by
  refine eval_exceptT_bind_error ?_
  rw [fallible, eval_attempt, hp]
  rfl

/-- A template that can be read may be replaced by another that can be read. -/
theorem eval_wireTemplate (hname : name ∈ TEMPLATES) (hd : h.custom = some d)
    (hread : d name ≠ some .undecodable) :
    ∃ cs t, t ≠ some .undecodable ∧ eval (hostStep V) (wireTemplate name).run h =
      (.ok cs, { h with custom := some (Function.update d name t) }) := by
  have hsame : ∀ f, d name = f → { h with custom := some (Function.update d name f) } = h := by
    intro f hf
    rw [← hf, Function.update_eq_self, ← hd]
  rw [wireTemplate, eval_perform_bind]
  simp only [hostStep, Host.exists_template hname, hd, Option.bind_some]
  cases hfile : d name with
  | none =>
      refine ⟨[], none, Option.some_ne_none _ |>.symm, ?_⟩
      rw [hsame none hfile]
      rfl
  | some file =>
      cases file with
      | undecodable => exact absurd hfile hread
      | text content =>
          have hcontent : eval (hostStep V) (perform (.readToString (template name))) h =
              (.ok content, h) := by
            rw [eval_perform]
            simp only [hostStep, Host.file_template hname, hd, Option.bind_some, hfile, File.read]
          rw [Option.isSome_some, if_pos rfl, eval_fallible_bind hcontent]
          cases hedit : (insertFirstAuth content SUFFICIENT_STANZA).2 with
          | false =>
              refine ⟨[.alreadyWired (template name)], some (.text content), nofun, ?_⟩
              rw [if_neg Bool.false_ne_true, hsame _ hfile]
              rfl
          | true =>
              have hwrite : eval (hostStep V) (perform (.write (template name)
                  (insertFirstAuth content SUFFICIENT_STANZA).1)) h = (.ok (), { h with
                    custom := some (Function.update d name
                      (some (.text (insertFirstAuth content SUFFICIENT_STANZA).1))) }) := by
                rw [eval_perform]
                simp only [hostStep, Host.write_template hname, hd, Option.map_some]
              refine ⟨[.edited (template name)],
                some (.text (insertFirstAuth content SUFFICIENT_STANZA).1), nofun, ?_⟩
              rw [if_pos rfl, eval_fallible_bind hwrite]
              rfl

theorem eval_wireTemplate_error (hname : name ∈ TEMPLATES) (hd : h.custom = some d)
    (hread : d name = some .undecodable) :
    ∃ e, eval (hostStep V) (wireTemplate name).run h = (.error e, h) := by
  have hcontent : eval (hostStep V) (perform (.readToString (template name))) h =
      (.error "stream did not contain valid UTF-8", h) := by
    rw [eval_perform]
    simp only [hostStep, Host.file_template hname, hd, Option.bind_some, hread, File.read]
  refine ⟨"reading " ++ template name ++ ": " ++ "stream did not contain valid UTF-8", ?_⟩
  rw [wireTemplate, eval_perform_bind]
  simp only [hostStep, Host.exists_template hname, hd, Option.bind_some, hread, Option.isSome_some]
  rw [if_pos trivial, eval_fallible_bind_error hcontent]

theorem Readable.update (hd : Readable d) {t : Option File} (ht : t ≠ some .undecodable) :
    Readable (Function.update d name t) := by
  intro other hother
  by_cases hname : other = name
  · rw [hname, Function.update_self]
    exact ht
  · rw [Function.update_of_ne hname]
    exact hd other hother

theorem eval_createProfile (base : String) :
    eval (hostStep V) (createProfile base).run h =
      (.ok (), { h with custom := some (h.custom.getD (V base)) }) := by
  have hexists : (hostStep V h (.pathExists FEDORA_CUSTOM_DIR)).1 = h.custom.isSome := by
    change h.exists FEDORA_CUSTOM_DIR = h.custom.isSome
    rw [Host.exists, if_pos rfl]
  rw [createProfile, eval_perform_bind, hexists]
  cases hcustom : h.custom with
  | some d =>
      rw [Option.isSome_some, if_pos rfl, Option.getD_some, ← hcustom]
      rfl
  | none =>
      rw [Option.isSome_none, if_neg Bool.false_ne_true, fallible, eval_attempt]
      rfl

theorem eval_storeAuthselectBase (base : String) :
    eval (hostStep V) (storeAuthselectBase base).run h =
      (.ok (), { h with marker := some (.text (base ++ "\n")) }) := by
  rw [storeAuthselectBase, eval_ignored_bind, fallible, eval_attempt, eval_perform]
  rfl

theorem authselect_select (id : String) (features : List String) :
    h.authselect V (selectArgs id features) =
      match selection id features with
      | some s => (.ok (), { h with active := some s })
      | none => (.error "authselect select failed", h) := by
  have hargs : h.authselect V (selectArgs id features) =
      match selection id (features ++ ["--force"]).dropLast with
      | some s => (.ok (), { h with active := some s })
      | none => (.error "authselect select failed", h) := rfl
  rw [hargs, List.dropLast_concat]

/-- The loop over templates that can all be read leaves templates that can be read. -/
theorem eval_wireTemplates {l : List String} (hnames : ∀ n ∈ l, n ∈ TEMPLATES)
    (hd : h.custom = some d) (hread : ∀ n ∈ l, d n ≠ some .undecodable) :
    ∃ cs d', (Readable d → Readable d') ∧ eval (hostStep V) (wireTemplates l).run h =
      (.ok cs, { h with custom := some d' }) := by
  induction l generalizing h d with
  | nil =>
      refine ⟨[], d, id, ?_⟩
      rw [← hd]
      rfl
  | cons name names ih =>
      obtain ⟨cs, t, ht, hrun⟩ := eval_wireTemplate (V := V)
        (hnames name List.mem_cons_self) hd (hread name List.mem_cons_self)
      have hkept : ∀ n ∈ names, Function.update d name t n ≠ some .undecodable := by
        intro n hn
        by_cases hsame : n = name
        · rw [hsame, Function.update_self]
          exact ht
        · rw [Function.update_of_ne hsame]
          exact hread n (List.mem_cons_of_mem _ hn)
      obtain ⟨cs', d', hreadable, hrun'⟩ := ih (fun n hn => hnames n (List.mem_cons_of_mem _ hn))
        (h := { h with custom := some (Function.update d name t) }) rfl hkept
      refine ⟨cs ++ cs', d', fun hd => hreadable (hd.update ht), ?_⟩
      rw [wireTemplates, eval_exceptT_bind_ok hrun, eval_exceptT_bind_ok hrun']
      rfl

theorem eval_wireTemplates_error {l : List String} (hnames : ∀ n ∈ l, n ∈ TEMPLATES)
    (hd : h.custom = some d) (hread : ∃ n ∈ l, d n = some .undecodable) :
    ∃ e d', eval (hostStep V) (wireTemplates l).run h =
      (.error e, { h with custom := some d' }) := by
  induction l generalizing h d with
  | nil =>
      obtain ⟨n, hn, -⟩ := hread
      exact absurd hn List.not_mem_nil
  | cons name names ih =>
      have hname := hnames name List.mem_cons_self
      by_cases hfirst : d name = some .undecodable
      · obtain ⟨e, he⟩ := eval_wireTemplate_error (V := V) hname hd hfirst
        refine ⟨e, d, ?_⟩
        rw [wireTemplates, eval_exceptT_bind_error he, ← hd]
      · obtain ⟨cs, t, -, hrun⟩ := eval_wireTemplate (V := V) hname hd hfirst
        have hlater : ∃ n ∈ names, Function.update d name t n = some .undecodable := by
          obtain ⟨n, hn, hundecodable⟩ := hread
          have hne : n ≠ name := fun hsame => hfirst (hsame ▸ hundecodable)
          refine ⟨n, (List.mem_cons.1 hn).resolve_left hne, ?_⟩
          rw [Function.update_of_ne hne]
          exact hundecodable
        obtain ⟨e, d', he⟩ := ih (fun n hn => hnames n (List.mem_cons_of_mem _ hn))
          (h := { h with custom := some (Function.update d name t) }) rfl hlater
        refine ⟨e, d', ?_⟩
        rw [wireTemplates, eval_exceptT_bind_ok hrun, eval_exceptT_bind_error he]

theorem eval_current (hactive : h.active = some sel) :
    parseAuthselectCurrent ((some (printCurrent h.active) : Option String).getD "") =
      (some sel.id.text, sel.features.map Entry.text) := by
  rw [hactive]
  exact parse_printCurrent sel

/-- An enable bases `custom/linhello` on the active profile, and selects it unless a
template cannot be read. -/
theorem eval_fedoraEnable (hactive : h.active = some sel) :
    (Readable (h.custom.getD (V sel.id.text)) → ∃ d', Readable d' ∧
      (eval (hostStep V) (fedoraEnable false).run h).2 =
        { active := some ⟨linhello, sel.features⟩, custom := some d',
          marker := some (.text (sel.id.text ++ "\n")) }) ∧
    (¬Readable (h.custom.getD (V sel.id.text)) → ∃ d',
      (eval (hostStep V) (fedoraEnable false).run h).2 = { h with custom := some d' }) := by
  have hselect : selection "custom/linhello" (sel.features.map Entry.text) =
      some ⟨linhello, sel.features⟩ := by
    rw [selection_features]
    exact congrArg _ (Entry.ofString?_text linhello)
  have hcreate := eval_createProfile (V := V) (h := h) sel.id.text
  rw [fedoraEnable, eval_perform_bind]
  simp only [hostStep]
  rw [eval_current hactive]
  dsimp only
  rw [if_neg Bool.false_ne_true, Option.getD_some, eval_exceptT_bind_ok hcreate]
  constructor
  · intro hread
    obtain ⟨cs, d', hreadable, hrun⟩ := eval_wireTemplates (V := V) (l := TEMPLATES)
      (h := { h with custom := some (h.custom.getD (V sel.id.text)) }) (fun _ => id) rfl hread
    refine ⟨d', hreadable hread, ?_⟩
    rw [eval_exceptT_bind_ok hrun, eval_exceptT_bind_ok (eval_storeAuthselectBase _),
      eval_fallible_bind]
    rotate_left
    · rw [eval_perform, hostStep, authselect_select, hselect]
    · rfl
  · intro hread
    obtain ⟨e, d', hrun⟩ := eval_wireTemplates_error (V := V) (l := TEMPLATES)
      (h := { h with custom := some (h.custom.getD (V sel.id.text)) }) (fun _ => id) rfl
      (by simpa [Readable] using hread)
    refine ⟨d', ?_⟩
    rw [eval_exceptT_bind_error hrun]

/-- The profile is gone afterwards, whether there was one or not. -/
theorem eval_removeProfile :
    ∃ cs, eval (hostStep V) removeProfile.run h = (.ok cs, { h with custom := none }) := by
  have hexists : (hostStep V h (.pathExists FEDORA_CUSTOM_DIR)).1 = h.custom.isSome := by
    change h.exists FEDORA_CUSTOM_DIR = h.custom.isSome
    rw [Host.exists, if_pos rfl]
  rw [removeProfile, eval_perform_bind, hexists]
  cases hcustom : h.custom with
  | none =>
      have hsame : { h with custom := none } = h := by rw [← hcustom]
      refine ⟨[.notWired FEDORA_CUSTOM_DIR], ?_⟩
      rw [Option.isSome_none, if_neg Bool.false_ne_true, hsame]
      rfl
  | some d =>
      have hremove : eval (hostStep V) (perform (.removeDirAll FEDORA_CUSTOM_DIR)) h =
          (.ok (), { h with custom := none }) := rfl
      refine ⟨[.removed FEDORA_CUSTOM_DIR], ?_⟩
      rw [Option.isSome_some, if_pos rfl]
      exact eval_fallible_bind hremove

theorem text_eq_linhello {e : Entry} : some e.text = some "custom/linhello" ↔ e = linhello := by
  constructor
  · intro h
    have htext := Entry.ofString?_text e
    rw [Option.some.inj h] at htext
    exact Option.some.inj (htext.symm.trans (Entry.ofString?_text linhello))
  · intro h
    rw [h]
    rfl

theorem fedoraDisable_eq (hactive : h.active = some sel) :
    eval (hostStep V) (fedoraDisable false).run h = eval (hostStep V) (do
      let switched ← switchBack (some sel.id.text) (sel.features.map Entry.text)
      let removed ← removeProfile
      ignored (perform (.removeFile FEDORA_BASE_MARKER))
      pure (switched ++ removed) : Fallible (List Change)).run h := by
  rw [fedoraDisable, if_neg Bool.false_ne_true, eval_perform_bind]
  simp only [hostStep]
  rw [eval_current hactive]

theorem eval_fedoraDisable (hactive : h.active = some sel) {cs : List Change}
    (hswitch : eval (hostStep V)
      (switchBack (some sel.id.text) (sel.features.map Entry.text)).run h = (.ok cs, v)) :
    (eval (hostStep V) (fedoraDisable false).run h).2 =
      { v with custom := none, marker := none } := by
  obtain ⟨cs', hremove⟩ := eval_removeProfile (V := V) (h := v)
  rw [fedoraDisable_eq hactive, eval_exceptT_bind_ok hswitch, eval_exceptT_bind_ok hremove,
    eval_ignored_bind]
  rfl

private theorem eval_switchBack {id : String} (hid : some id = some "custom/linhello")
    (features : List Entry) :
    eval (hostStep V) (switchBack (some id) (features.map Entry.text)).run h =
      match Entry.ofString? (baseOf (File.read h.marker)) with
      | some e => (.ok [.manual ("switched back to '" ++ baseOf (File.read h.marker) ++ "'")],
          { h with active := some ⟨e, features⟩ })
      | none => (.error ("" ++ "authselect select failed"), h) := by
  have hload : eval (hostStep V) loadAuthselectBase h = (baseOf (File.read h.marker), h) := by
    have hfile : h.file FEDORA_BASE_MARKER = h.marker := if_pos rfl
    rw [loadAuthselectBase, eval_bind, eval_perform, hostStep, hfile]
    rfl
  rw [switchBack, if_pos hid, eval_exceptT_bind_ok eval_exceptT_lift, hload]
  dsimp only
  cases he : Entry.ofString? (baseOf (File.read h.marker)) with
  | none =>
      refine eval_fallible_bind_error ?_
      rw [eval_perform, hostStep, authselect_select, selection_features, he]
      rfl
  | some e =>
      refine eval_fallible_bind (v := { h with active := some ⟨e, features⟩ }) (a := ()) ?_
      rw [eval_perform, hostStep, authselect_select, selection_features, he]
      rfl

/-- A disable selects what the marker names, if `custom/linhello` is the active profile. -/
theorem eval_fedoraDisable_linhello (hactive : h.active = some sel) (hid : sel.id = linhello) :
    (∀ e, Entry.ofString? (baseOf (File.read h.marker)) = some e →
      (eval (hostStep V) (fedoraDisable false).run h).2 =
        { active := some ⟨e, sel.features⟩, custom := none, marker := none }) ∧
    (Entry.ofString? (baseOf (File.read h.marker)) = none →
      (eval (hostStep V) (fedoraDisable false).run h).2 = h) := by
  have hswitch := eval_switchBack (V := V) (h := h) (text_eq_linhello.2 hid) sel.features
  constructor
  · intro e he
    rw [he] at hswitch
    rw [eval_fedoraDisable hactive hswitch]
  · intro he
    rw [he] at hswitch
    rw [fedoraDisable_eq hactive, eval_exceptT_bind_error hswitch]

theorem eval_fedoraDisable_other (hactive : h.active = some sel) (hid : sel.id ≠ linhello) :
    (eval (hostStep V) (fedoraDisable false).run h).2 =
      { active := some sel, custom := none, marker := none } := by
  have hswitch : eval (hostStep V)
      (switchBack (some sel.id.text) (sel.features.map Entry.text)).run h = (.ok [], h) := by
    rw [switchBack, if_neg (mt text_eq_linhello.1 hid)]
    rfl
  rw [eval_fedoraDisable hactive hswitch, hactive]

end Calls

end Linhello.Cli.Authselect
