import Linhello.LinuxPam.Lines
/-!
# The directives of a Linux-PAM service file

A logical line is cut into words at blanks, where brackets hold a word together. Its first
word is the facility, the second the control, and the third the path of the module.
-/

namespace Linhello.LinuxPam

/-! ## Words -/

/-- Where the tokenizer stands: between two words, in a word, or in brackets; what it has
of the current word is held backwards. -/
inductive Scan where
  | between
  | word (cur : List Char)
  | bracket (cur : List Char)
deriving DecidableEq, Repr

/-- Words end at blanks; a word that opens with a bracket runs to the closing one, and an
escaped closing bracket is part of it. -/
def tokensFrom : Scan → List Char → List String
  | .between, [] => []
  | .between, c :: rest =>
      if isBlank c then tokensFrom .between rest
      else if c = '[' then tokensFrom (.bracket []) rest
      else tokensFrom (.word [c]) rest
  | .word cur, [] => [String.ofList cur.reverse]
  | .word cur, c :: rest =>
      if isBlank c then String.ofList cur.reverse :: tokensFrom .between rest
      else tokensFrom (.word (c :: cur)) rest
  | .bracket cur, [] => [String.ofList cur.reverse]
  | .bracket cur, '\\' :: ']' :: rest => tokensFrom (.bracket (']' :: cur)) rest
  | .bracket cur, c :: rest =>
      if c = ']' then String.ofList cur.reverse :: tokensFrom .between rest
      else tokensFrom (.bracket (c :: cur)) rest

def tokens (line : List String) : List String := tokensFrom .between (assembled line)

/-! ## Directives -/

inductive Facility where
  | auth
  | account
  | session
  | password
deriving DecidableEq, Repr

/-- `strcasecmp`. -/
def sameWord (s t : String) : Bool := s.toList.map Char.toLower == t.toList.map Char.toLower

/-- The first word of a directive, whose dash only keeps a missing module quiet. -/
def facilityOf (word : String) : Option Facility :=
  let name := if word.toList.head? = some '-' then String.ofList word.toList.tail else word
  if sameWord name "auth" then some .auth
  else if sameWord name "session" then some .session
  else if sameWord name "account" then some .account
  else if sameWord name "password" then some .password
  else none

def fileName (path : String) : String :=
  String.ofList (path.toList.reverse.takeWhile (· != '/')).reverse

def facility (line : List String) : Option Facility := (tokens line).head?.bind facilityOf

/-- The module of a logical line: the third word, unless it names a file to be read there. -/
def moduleOf (line : List String) : Option String :=
  match tokens line with
  | _ :: control :: path :: _ =>
      if sameWord control "include" || sameWord control "substack" then none
      else some (fileName path)
  | _ => none

/-! ## Words within a line -/

/-- What was read up to here is a part of the text up to here, but for the brackets that
were escaped. -/
structure Reflects (text held : List Char) : Prop where
  within : ∀ s, ']' ∉ s → s <:+: held → s <:+: text
  atEnd : ∀ s, ']' ∉ s → s <:+ held → s <:+ text

namespace Reflects

variable {text held : List Char}

theorem empty (text : List Char) : Reflects text [] := by
  constructor
  · intro s _ h
    rw [List.eq_nil_of_infix_nil h]
    exact List.nil_infix
  · intro s _ h
    rw [List.eq_nil_of_suffix_nil h]
    exact List.nil_suffix

theorem concat (h : Reflects text held) (c : Char) : Reflects (text ++ [c]) (held ++ [c]) := by
  have hend : ∀ s, ']' ∉ s → s <:+ held ++ [c] → s <:+ text ++ [c] := by
    intro s hs hsuffix
    rcases List.suffix_concat_iff.1 hsuffix with rfl | ⟨s', rfl, hs'⟩
    · exact List.nil_suffix
    · rw [List.mem_append, not_or] at hs
      exact List.suffix_concat_iff.2 (.inr ⟨s', rfl, h.atEnd s' hs.1 hs'⟩)
  constructor
  · intro s hs hpart
    cases List.infix_concat_iff.1 hpart with
    | inl hsuffix => exact (hend s hs hsuffix).isInfix
    | inr hpart => exact (h.within s hs hpart).trans (List.prefix_append _ _).isInfix
  · exact hend

/-- A bracket that was escaped ends no text without brackets. -/
theorem escaped (h : Reflects text held) : Reflects (text ++ ['\\', ']']) (held ++ [']']) := by
  have hend : ∀ s, ']' ∉ s → s <:+ held ++ [']'] → s = [] := by
    intro s hs hsuffix
    rcases List.suffix_concat_iff.1 hsuffix with hnil | ⟨s', rfl, -⟩
    · exact hnil
    · exact absurd (List.mem_append_right _ List.mem_cons_self) hs
  constructor
  · intro s hs hpart
    cases List.infix_concat_iff.1 hpart with
    | inl hsuffix =>
        rw [hend s hs hsuffix]
        exact List.nil_infix
    | inr hpart => exact (h.within s hs hpart).trans (List.prefix_append _ _).isInfix
  · intro s hs hsuffix
    rw [hend s hs hsuffix]
    exact List.nil_suffix

end Reflects

/-- What the tokenizer holds of the current word. -/
def Scan.held : Scan → List Char
  | .between => []
  | .word cur => cur.reverse
  | .bracket cur => cur.reverse

private theorem infix_of_mem_tokensFrom {w : List Char} (hw : ']' ∉ w) {t : String}
    (hpart : w <:+: t.toList)
    (st : Scan) (rest : List Char) (text : List Char) (h : Reflects text st.held)
    (ht : t ∈ tokensFrom st rest) : w <:+: text ++ rest := by
  -- a word that ends here is a part of what was read
  have hends : ∀ {cur text rest : List Char}, Reflects text cur.reverse →
      t = String.ofList cur.reverse → w <:+: text ++ rest := by
    intro cur text rest h heq
    rw [heq, String.toList_ofList] at hpart
    exact (h.within w hw hpart).trans (List.prefix_append _ _).isInfix
  have hstep : ∀ {cur text : List Char} (c : Char), Reflects text cur.reverse →
      Reflects (text ++ [c]) (c :: cur).reverse := by
    intro cur text c h
    rw [List.reverse_cons]
    exact h.concat c
  induction st, rest using tokensFrom.induct generalizing text with
  | case1 => exact absurd ht List.not_mem_nil
  | case2 c rest hblank ih =>
      rw [tokensFrom, if_pos hblank] at ht
      have hrest := ih (text ++ [c]) (.empty _) ht
      rwa [List.append_assoc] at hrest
  | case3 rest hblank ih =>
      rw [tokensFrom, if_neg hblank, if_pos rfl] at ht
      have hrest := ih (text ++ ['[']) (.empty _) ht
      rwa [List.append_assoc] at hrest
  | case4 c rest hblank hc ih =>
      rw [tokensFrom, if_neg hblank, if_neg hc] at ht
      have hrest := ih (text ++ [c]) (@hstep [] text c (.empty _)) ht
      rwa [List.append_assoc] at hrest
  | case5 cur =>
      rw [tokensFrom] at ht
      exact hends h (List.mem_singleton.1 ht)
  | case6 cur c rest hblank ih =>
      rw [tokensFrom, if_pos hblank] at ht
      cases List.mem_cons.1 ht with
      | inl heq => exact hends h heq
      | inr ht =>
          have hrest := ih (text ++ [c]) (.empty _) ht
          rwa [List.append_assoc] at hrest
  | case7 cur c rest hblank ih =>
      rw [tokensFrom, if_neg hblank] at ht
      have hrest := ih (text ++ [c]) (hstep c h) ht
      rwa [List.append_assoc] at hrest
  | case8 cur =>
      rw [tokensFrom] at ht
      exact hends h (List.mem_singleton.1 ht)
  | case9 cur rest ih =>
      rw [tokensFrom] at ht
      have hheld : Reflects (text ++ ['\\', ']']) (Scan.bracket (']' :: cur)).held := by
        rw [Scan.held, List.reverse_cons]
        exact h.escaped
      have hrest := ih _ hheld ht
      rwa [List.append_assoc] at hrest
  | case10 cur rest hesc ih =>
      rw [tokensFrom, if_pos rfl] at ht
      · cases List.mem_cons.1 ht with
        | inl heq => exact hends h heq
        | inr ht =>
            have hrest := ih (text ++ [']']) (.empty _) ht
            rwa [List.append_assoc] at hrest
      · exact hesc
  | case11 cur c rest hesc hc ih =>
      rw [tokensFrom, if_neg hc] at ht
      · have hrest := ih (text ++ [c]) (hstep c h) ht
        rwa [List.append_assoc] at hrest
      · exact hesc

theorem infix_of_mem_tokens {w : List Char} (hw : ']' ∉ w) {t : String} {line : List String}
    (ht : t ∈ tokens line) (hpart : w <:+: t.toList) : w <:+: assembled line :=
  infix_of_mem_tokensFrom hw hpart .between (assembled line) [] (.empty _) ht

/-- Text without blanks that is read of a logical line is read of one of its lines. -/
theorem infix_reading_of_infix_assembled {w : List Char} (hw : ' ' ∉ w) (hne : w ≠ [])
    {line : List String} (hgoes : ∀ l ∈ line.dropLast, continues l = true)
    (h : w <:+: assembled line) : ∃ l ∈ line, w <:+: reading l := by
  induction line with
  | nil => exact absurd (List.eq_nil_of_infix_nil h) hne
  | cons l line ih =>
      cases line with
      | nil =>
          rw [assembled, List.flatMap_singleton] at h
          exact ⟨l, List.mem_cons_self, h⟩
      | cons l' line =>
          rw [List.dropLast_cons_cons] at hgoes
          have hl := hgoes l List.mem_cons_self
          rw [assembled, List.flatMap_cons] at h
          rcases List.infix_append_iff.1 h with h | h | ⟨front, back, heq, hfront, hback⟩
          · exact ⟨l, List.mem_cons_self, h⟩
          · obtain ⟨m, hm, hmw⟩ := ih (fun m hm => hgoes m (List.mem_cons_of_mem _ hm)) h
            exact ⟨m, List.mem_cons_of_mem _ hm, hmw⟩
          · -- nothing of it lies before the blank at the end of the line
            have hnil : front = [] := by
              rw [reading_of_continues hl] at hfront
              rcases List.suffix_concat_iff.1 hfront with hnil | ⟨s, rfl, -⟩
              · exact hnil
              · apply absurd _ hw
                rw [heq]
                exact List.mem_append_left _ (List.mem_append_right _ List.mem_cons_self)
            rw [hnil, List.nil_append] at heq
            rw [← heq] at hback
            obtain ⟨m, hm, hmw⟩ :=
              ih (fun m hm => hgoes m (List.mem_cons_of_mem _ hm)) hback.isInfix
            exact ⟨m, List.mem_cons_of_mem _ hm, hmw⟩

private theorem fileName_suffix (path : String) : (fileName path).toList <:+ path.toList := by
  have hprefix :=
    List.reverse_suffix.2 (List.takeWhile_prefix (l := path.toList.reverse) (· != '/'))
  rw [List.reverse_reverse] at hprefix
  rw [fileName, String.toList_ofList]
  exact hprefix

private theorem infix_assembled_of_moduleOf {line : List String} {name : String}
    (hw : ']' ∉ name.toList)
    (h : moduleOf line = some name) : name.toList <:+: assembled line := by
  rw [moduleOf] at h
  split at h
  next t control path rest htokens =>
    split at h
    · exact nomatch h
    · have hname : name.toList <:+: path.toList := by
        rw [← Option.some.inj h]
        exact (fileName_suffix path).isInfix
      apply infix_of_mem_tokens hw _ hname
      rw [htokens]
      exact List.mem_cons_of_mem _ (List.mem_cons_of_mem _ List.mem_cons_self)
  · exact nomatch h

/-- The module of a logical line is named by one of its physical lines, before a comment. -/
theorem exists_infix_of_moduleOf {text : String} {line : List String}
    (hline : line ∈ logicalLines text)
    {name : String} (hbracket : ']' ∉ name.toList) (hblank : ' ' ∉ name.toList)
    (hne : name.toList ≠ []) (h : moduleOf line = some name) :
    ∃ l ∈ line, ∃ front, front <+: l.toList ∧ '#' ∉ front ∧ name.toList <:+: front := by
  have hgoes := continues_of_mem_dropLast (fun l hl => absurd hl List.not_mem_nil) hline
  obtain ⟨l, hl, hwithin⟩ := infix_reading_of_infix_assembled hblank hne hgoes
    (infix_assembled_of_moduleOf hbracket h)
  obtain ⟨front, hfront, hcomment, hreading⟩ := reading_eq l
  refine ⟨l, hl, front, hfront, hcomment, ?_⟩
  cases hreading with
  | inl heq => rwa [heq] at hwithin
  | inr heq =>
      rw [heq] at hwithin
      cases List.infix_concat_iff.1 hwithin with
      | inl hsuffix =>
          rcases List.suffix_concat_iff.1 hsuffix with hnil | ⟨s, hs, -⟩
          · exact absurd hnil hne
          · apply absurd _ hblank
            rw [hs]
            exact List.mem_append_right _ List.mem_cons_self
      | inr hpart => exact hpart

end Linhello.LinuxPam
