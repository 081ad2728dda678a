import Linhello.Common.Text
import Mathlib.Data.List.TakeWhile
/-!
# Editing `key=value` files

The loop of `config::write_kv` on the text of a file, and what `read_kv` finds in the
result. The loop splits the text at newlines and writes every line it keeps with a newline
of its own, so a line that ends in a carriage return loses it on the next reading.
-/

namespace Linhello.Common

/-! ## The loop -/

/-- Whether a line assigns a value, possibly an empty one, to `key`. -/
def isTarget (key line : String) : Bool :=
  let trimmed := trim line
  !startsWith trimmed "#" &&
    match splitOnce '=' trimmed with
    | some (k, _) => trim k = key
    | none => false

def assignment (key val : String) : String := key ++ "=" ++ val

/-- The lines still to be written; `replaced` says that the key has its line already. -/
def rewriteLines (key val : String) : Bool → List String → List String
  | replaced, [] => if replaced then [] else [assignment key val]
  | replaced, line :: rest =>
      if isTarget key line then
        -- duplicates are dropped
        if replaced then rewriteLines key val true rest
        else assignment key val :: rewriteLines key val true rest
      else line :: rewriteLines key val replaced rest

/-- The text `write_kv` replaces the existing one by. -/
def rewriteText (key val existing : String) : String :=
  unlines (rewriteLines key val false (lines existing))

/-- The lines of a text that are not the key's: comments, blank lines and other keys. -/
def otherLines (key text : String) : List String :=
  (lines text).filter fun line => !isTarget key line

/-- A key as the callers write them. -/
structure IsKey (key : String) : Prop where
  nonempty : key ≠ ""
  trimmed : trim key = key
  noEquals : '=' ∉ key.toList
  noNewline : '\n' ∉ key.toList
  noHash : startsWith key "#" = false

/-! ## Trimming -/

theorem dropWhile_white {w : List Char} (hw : ∀ c ∈ w, isWhiteSpace c = true) (rest : List Char) :
    (w ++ rest).dropWhile isWhiteSpace = rest.dropWhile isWhiteSpace := by
  induction w with
  | nil => rfl
  | cons c w ih =>
      rw [List.cons_append, List.dropWhile_cons, if_pos (hw c List.mem_cons_self)]
      exact ih fun d hd => hw d (List.mem_cons_of_mem _ hd)

theorem trimChars_append_white {w : List Char} (hw : ∀ c ∈ w, isWhiteSpace c = true)
    (cs : List Char) : trimChars (cs ++ w) = trimChars cs := by
  have hback : ∀ c ∈ w.reverse, isWhiteSpace c = true := fun c hc => hw c (List.mem_reverse.1 hc)
  unfold trimChars
  rw [List.dropWhile_append]
  by_cases hblank : cs.dropWhile isWhiteSpace = []
  · have hall : w.dropWhile isWhiteSpace = [] := by
      have hnone := dropWhile_white hw []
      rwa [List.append_nil] at hnone
    rw [hblank, hall]
    rfl
  · rw [if_neg (by simpa using hblank), List.reverse_append, dropWhile_white hback]

theorem trim_stripCr (l : String) : trim (stripCr l) = trim l := by
  by_cases hcr : l.toList.getLast? = some '\r'
  · have hsplit : l.toList = l.toList.dropLast ++ ['\r'] := by
      have hne : l.toList ≠ [] := by
        intro hnil
        rw [hnil] at hcr
        exact nomatch hcr
      rw [List.getLast?_eq_some_getLast hne] at hcr
      rw [← Option.some.inj hcr, List.dropLast_append_getLast hne]
    have hwhite : ∀ c ∈ ['\r'], isWhiteSpace c = true := List.forall_mem_singleton.2 (by decide)
    rw [trim, trim, stripCr, if_pos hcr, String.toList_ofList, hsplit,
      trimChars_append_white hwhite, List.dropLast_concat]
  · rw [stripCr_of_noReturn hcr]

theorem head_of_trimmed {c : Char} {body : List Char} (h : trimChars (c :: body) = c :: body) :
    isWhiteSpace c = false := by
  by_contra hc
  rw [Bool.not_eq_false] at hc
  have hlen : (trimChars (c :: body)).length ≤ body.length := by
    unfold trimChars
    rw [List.dropWhile_cons, if_pos hc, List.length_reverse]
    calc ((body.dropWhile isWhiteSpace).reverse.dropWhile isWhiteSpace).length
        ≤ (body.dropWhile isWhiteSpace).reverse.length := List.length_dropWhile_le _ _
      _ = (body.dropWhile isWhiteSpace).length := List.length_reverse
      _ ≤ body.length := List.length_dropWhile_le _ _
  rw [h, List.length_cons] at hlen
  omega

private theorem splitOnceChars_append {c : Char} {a : List Char} (h : c ∉ a) (b : List Char) :
    splitOnceChars c (a ++ c :: b) = some (a, b) := by
  induction a with
  | nil =>
      rw [List.nil_append, splitOnceChars, if_pos rfl]
  | cons x a ih =>
      have hx : x ≠ c := fun hx => h (hx ▸ List.mem_cons_self)
      have ha : c ∉ a := fun hmem => h (List.mem_cons_of_mem _ hmem)
      rw [List.cons_append, splitOnceChars, if_neg hx, ih ha]
      rfl

/-! ## The line of the key -/

theorem splitOnce_assignment {key : String} (hkey : IsKey key) (val : String) :
    ∃ v, splitOnce '=' (trim (assignment key val)) = some (key, v) ∧ trim v = trim val ∧
      startsWith (trim (assignment key val)) "#" = startsWith key "#" := by
  obtain ⟨c, body, hbody⟩ : ∃ c body, key.toList = c :: body := by
    apply List.exists_cons_of_ne_nil
    intro hnil
    exact hkey.nonempty (String.toList_inj.1 hnil)
  have hc : isWhiteSpace c = false := by
    apply @head_of_trimmed c body
    have htrim := congrArg String.toList hkey.trimmed
    rwa [trim, String.toList_ofList, hbody] at htrim
  let kept := (val.toList.reverse.dropWhile isWhiteSpace).reverse
  have htoList : (assignment key val).toList = c :: (body ++ '=' :: val.toList) := by
    rw [assignment, String.toList_append, String.toList_append, hbody, List.append_assoc]
    rfl
  have htrimmed : trim (assignment key val) = String.ofList (key.toList ++ '=' :: kept) := by
    have heq : isWhiteSpace '=' = false := by decide
    have hdrop : (val.toList.reverse ++ '=' :: (c :: body).reverse).dropWhile isWhiteSpace =
        val.toList.reverse.dropWhile isWhiteSpace ++ '=' :: (c :: body).reverse := by
      rw [List.dropWhile_append]
      by_cases hblank : val.toList.reverse.dropWhile isWhiteSpace = []
      · rw [hblank, List.dropWhile_cons, heq]
        rfl
      · rw [if_neg (by simpa using hblank)]
    have hrev : (c :: (body ++ '=' :: val.toList)).reverse =
        val.toList.reverse ++ '=' :: (c :: body).reverse := by simp
    rw [trim, htoList, trimChars, List.dropWhile_cons, hc, if_neg Bool.false_ne_true, hrev, hdrop,
      hbody]
    simp [kept]
  have hwhite : ∀ d ∈ (val.toList.reverse.takeWhile isWhiteSpace).reverse,
      isWhiteSpace d = true := by
    intro d hd
    exact List.mem_takeWhile_imp (List.mem_reverse.1 hd)
  have hval : val.toList = kept ++ (val.toList.reverse.takeWhile isWhiteSpace).reverse := by
    rw [← List.reverse_append, List.takeWhile_append_dropWhile, List.reverse_reverse]
  refine ⟨String.ofList kept, ?_, ?_, ?_⟩
  · rw [htrimmed, splitOnce, String.toList_ofList, splitOnceChars_append hkey.noEquals]
    exact congrArg some (Prod.ext String.ofList_toList rfl)
  · rw [trim, trim, String.toList_ofList, hval, trimChars_append_white hwhite]
  · have hhash : "#".toList = ['#'] := rfl
    rw [htrimmed, startsWith, startsWith, hhash, String.toList_ofList, hbody]
    rfl

theorem isTarget_assignment {key : String} (hkey : IsKey key) (val : String) :
    isTarget key (assignment key val) = true := by
  obtain ⟨v, hsplit, -, hhash⟩ := splitOnce_assignment hkey val
  unfold isTarget
  simp only [hsplit, hhash, hkey.noHash, hkey.trimmed]
  decide

theorem kvLine_assignment {key : String} (hkey : IsKey key) (val : String) :
    kvLine key (assignment key val) = if trim val = "" then none else some (trim val) := by
  obtain ⟨v, hsplit, hv, hhash⟩ := splitOnce_assignment hkey val
  have hne : trim (assignment key val) ≠ "" := by
    intro hempty
    rw [hempty] at hsplit
    exact nomatch hsplit
  unfold kvLine
  simp only [hsplit, hhash, hkey.noHash, hkey.trimmed, hne, hv]
  by_cases hblank : trim val = "" <;> simp [hblank]

/-! ## Other lines -/

theorem isTarget_stripCr (key l : String) : isTarget key (stripCr l) = isTarget key l := by
  unfold isTarget
  rw [trim_stripCr]

theorem isTarget_comp_stripCr (key : String) : isTarget key ∘ stripCr = isTarget key := by
  funext l
  rw [Function.comp_apply, isTarget_stripCr]

theorem kvLine_comp_stripCr (key : String) : kvLine key ∘ stripCr = kvLine key := by
  funext l
  rw [Function.comp_apply, kvLine, trim_stripCr, kvLine]

theorem isTarget_of_kvLine {key l v : String} (h : kvLine key l = some v) :
    isTarget key l = true := by
  unfold kvLine at h
  unfold isTarget
  dsimp only at h ⊢
  split at h
  · exact nomatch h
  · rename_i hskip
    simp only [Bool.or_eq_true, not_or, Bool.not_eq_true] at hskip
    cases hsplit : splitOnce '=' (trim l) with
    | none =>
        rw [hsplit] at h
        exact nomatch h
    | some kv =>
        rw [hsplit] at h
        dsimp only at h ⊢
        split at h
        · rename_i hkey
          rw [Bool.and_eq_true] at hkey
          rw [hskip.2, hkey.1]
          rfl
        · exact nomatch h

theorem kvLine_of_not_target {key l : String} (h : isTarget key l = false) :
    kvLine key l = none := by
  cases hline : kvLine key l with
  | none => rfl
  | some v =>
      rw [isTarget_of_kvLine hline] at h
      exact nomatch h

private theorem isTarget_inj {k k' l : String} (h : isTarget k l = true)
    (h' : isTarget k' l = true) :
    k = k' := by
  unfold isTarget at h h'
  dsimp only at h h'
  rw [Bool.and_eq_true] at h h'
  cases hsplit : splitOnce '=' (trim l) with
  | none =>
      rw [hsplit] at h
      exact nomatch h.2
  | some kv =>
      rw [hsplit] at h h'
      exact (of_decide_eq_true h.2).symm.trans (of_decide_eq_true h'.2)

theorem kvLine_of_target {key other l : String} (hne : other ≠ key) (h : isTarget key l = true) :
    kvLine other l = none := by
  cases hline : kvLine other l with
  | none => rfl
  | some v => exact absurd (isTarget_inj (isTarget_of_kvLine hline) h) hne

/-! ## The rewritten text -/

section Rewrite

variable {key val : String} {replaced : Bool} {ls : List String}

private theorem no_newline_rewriteLines (hkey : IsKey key) (hval : '\n' ∉ val.toList)
    (hls : ∀ l ∈ ls, '\n' ∉ l.toList) :
    ∀ l ∈ rewriteLines key val replaced ls, '\n' ∉ l.toList := by
  have hassignment : '\n' ∉ (assignment key val).toList := by
    have hequals : '\n' ∉ "=".toList := by decide
    rw [assignment, String.toList_append, String.toList_append, List.mem_append, List.mem_append]
    rintro ((hmem | hmem) | hmem)
    · exact hkey.noNewline hmem
    · exact hequals hmem
    · exact hval hmem
  induction ls generalizing replaced with
  | nil =>
      intro l hl
      rw [rewriteLines] at hl
      cases replaced with
      | true => exact absurd hl List.not_mem_nil
      | false =>
          rw [List.mem_singleton.1 hl]
          exact hassignment
  | cons line rest ih =>
      have hrest : ∀ l ∈ rest, '\n' ∉ l.toList := fun l hl => hls l (List.mem_cons_of_mem _ hl)
      intro l hl
      rw [rewriteLines] at hl
      by_cases htarget : isTarget key line = true
      · rw [if_pos htarget] at hl
        cases replaced with
        | true => exact ih hrest l hl
        | false =>
            cases List.mem_cons.1 hl with
            | inl heq =>
                rw [heq]
                exact hassignment
            | inr hl => exact ih hrest l hl
      · rw [if_neg htarget] at hl
        cases List.mem_cons.1 hl with
        | inl heq =>
            rw [heq]
            exact hls line List.mem_cons_self
        | inr hl => exact ih hrest l hl

/-- What is read after writing: the written lines without their carriage returns. -/
theorem lines_rewriteText (hkey : IsKey key) (hval : '\n' ∉ val.toList) (existing : String) :
    lines (rewriteText key val existing) =
      (rewriteLines key val false (lines existing)).map stripCr :=
  lines_unlines_stripCr (no_newline_rewriteLines hkey hval fun _ => no_newline_of_mem_lines)

/-- The key is left with one line, unless it had its line before; the others are kept, in
order. -/
theorem partition_rewriteLines (hkey : IsKey key) :
    (rewriteLines key val replaced ls).partition (isTarget key) =
      (if replaced then [] else [assignment key val], ls.filter fun l => !isTarget key l) := by
  induction ls generalizing replaced with
  | nil =>
      cases replaced with
      | true => rfl
      | false => simp [rewriteLines, isTarget_assignment hkey]
  | cons line rest ih =>
      rw [rewriteLines]
      simp only [List.partition_eq_filter_filter] at ih ⊢
      by_cases htarget : isTarget key line = true
      · cases replaced with
        | true => simpa [htarget] using @ih true
        | false => simpa [htarget, isTarget_assignment hkey] using @ih true
      · simpa [htarget] using ih

theorem filter_rewriteLines (hkey : IsKey key) :
    (rewriteLines key val replaced ls).filter (fun l => !isTarget key l) =
      ls.filter fun l => !isTarget key l := by
  have h := @partition_rewriteLines key val replaced ls hkey
  rw [List.partition_eq_filter_filter] at h
  exact congrArg Prod.snd h

theorem countP_rewriteLines (hkey : IsKey key) :
    (rewriteLines key val replaced ls).countP (isTarget key) = if replaced then 0 else 1 := by
  have h := @partition_rewriteLines key val replaced ls hkey
  rw [List.partition_eq_filter_filter] at h
  have hown : (rewriteLines key val replaced ls).filter (isTarget key) =
      if replaced then [] else [assignment key val] := congrArg Prod.fst h
  rw [List.countP_eq_length_filter, hown]
  cases replaced <;> rfl

theorem findSome?_rewriteLines_of_ne (hkey : IsKey key) {other : String} (hne : other ≠ key) :
    (rewriteLines key val replaced ls).findSome? (kvLine other) =
      ls.findSome? (kvLine other) := by
  have hassignment := kvLine_of_target hne (isTarget_assignment hkey val)
  induction ls generalizing replaced with
  | nil =>
      cases replaced with
      | true => rfl
      | false => simp [rewriteLines, hassignment]
  | cons line rest ih =>
      rw [rewriteLines]
      by_cases htarget : isTarget key line = true
      · have hline := kvLine_of_target hne htarget
        cases replaced with
        | true => simp [htarget, hline, ih]
        | false => simp [htarget, hline, ih, hassignment]
      · simp [htarget, List.findSome?_cons, ih]

theorem findSome?_rewriteLines :
    (rewriteLines key val replaced ls).findSome? (kvLine key) =
      if replaced then none else kvLine key (assignment key val) := by
  induction ls generalizing replaced with
  | nil =>
      cases replaced with
      | true => rfl
      | false => simp [rewriteLines]
  | cons line rest ih =>
      rw [rewriteLines]
      by_cases htarget : isTarget key line = true
      · cases replaced with
        | true => simp [htarget, ih]
        | false =>
            simp only [htarget, if_true, Bool.false_eq_true, if_false, List.findSome?_cons, ih]
            cases kvLine key (assignment key val) <;> rfl
      · simp [htarget, kvLine_of_not_target, ih]

/-- Lines that changed only where the key is are rewritten as before. -/
theorem rewriteLines_map {f : String → String} (hf : ∀ l, isTarget key (f l) = isTarget key l)
    (hls : ∀ l ∈ ls, isTarget key l = false → f l = l) :
    rewriteLines key val replaced (ls.map f) = rewriteLines key val replaced ls := by
  induction ls generalizing replaced with
  | nil => rfl
  | cons line rest ih =>
      have hrest : ∀ l ∈ rest, isTarget key l = false → f l = l :=
        fun l hl => hls l (List.mem_cons_of_mem _ hl)
      rw [List.map_cons, rewriteLines, rewriteLines, hf]
      by_cases htarget : isTarget key line = true
      · simp [htarget, ih hrest]
      · rw [Bool.not_eq_true] at htarget
        simp [htarget, ih hrest, hls line List.mem_cons_self htarget]

theorem rewriteLines_rewriteLines (hkey : IsKey key) :
    rewriteLines key val replaced (rewriteLines key val replaced ls) =
      rewriteLines key val replaced ls := by
  induction ls generalizing replaced with
  | nil =>
      cases replaced with
      | true => rfl
      | false => simp [rewriteLines, isTarget_assignment hkey]
  | cons line rest ih =>
      by_cases htarget : isTarget key line = true
      · cases replaced with
        | true => simp [rewriteLines, htarget, ih]
        | false => simp [rewriteLines, htarget, ih, isTarget_assignment hkey]
      · simp [rewriteLines, htarget, ih]

/-! ## Reading the rewritten text -/

theorem kvLookup_rewriteText (hkey : IsKey key) (hval : '\n' ∉ val.toList) (existing : String) :
    kvLookup key (rewriteText key val existing) =
      if trim val = "" then none else some (trim val) := by
  rw [kvLookup, lines_rewriteText hkey hval, List.findSome?_map, kvLine_comp_stripCr,
    findSome?_rewriteLines, if_neg Bool.false_ne_true, kvLine_assignment hkey]

theorem kvLookup_rewriteText_of_ne (hkey : IsKey key) (hval : '\n' ∉ val.toList)
    (existing : String) {other : String} (hne : other ≠ key) :
    kvLookup other (rewriteText key val existing) = kvLookup other existing := by
  rw [kvLookup, lines_rewriteText hkey hval, List.findSome?_map, kvLine_comp_stripCr,
    findSome?_rewriteLines_of_ne hkey hne, kvLookup]

theorem countP_lines_rewriteText (hkey : IsKey key) (hval : '\n' ∉ val.toList)
    (existing : String) : (lines (rewriteText key val existing)).countP (isTarget key) = 1 := by
  rw [lines_rewriteText hkey hval, List.countP_map, isTarget_comp_stripCr,
    countP_rewriteLines hkey]
  rfl

theorem otherLines_rewriteText (hkey : IsKey key) (hval : '\n' ∉ val.toList) (existing : String) :
    otherLines key (rewriteText key val existing) = (otherLines key existing).map stripCr := by
  have hstrip : (fun l => !isTarget key l) ∘ stripCr = fun l => !isTarget key l := by
    funext l
    rw [Function.comp_apply, isTarget_stripCr]
  rw [otherLines, lines_rewriteText hkey hval, List.filter_map, hstrip, filter_rewriteLines hkey,
    otherLines]

/-- A line that ends in a carriage return does not survive being written. -/
theorem map_stripCr_eq_self_iff :
    ls.map stripCr = ls ↔ ∀ l ∈ ls, l.toList.getLast? ≠ some '\r' := by
  constructor
  · intro hmap l hl hcr
    have hsame : stripCr l = l := List.map_eq_map_iff.1 (hmap.trans (List.map_id ls).symm) l hl
    have hne : l.toList ≠ [] := by
      intro hnil
      rw [hnil] at hcr
      exact nomatch hcr
    have hlen := congrArg (fun s => s.toList.length) hsame
    have hpos : 0 < l.toList.length := List.length_pos_of_ne_nil hne
    simp only [stripCr, if_pos hcr, String.toList_ofList, List.length_dropLast] at hlen
    omega
  · intro hls
    calc ls.map stripCr = ls.map id :=
          List.map_congr_left fun l hl => stripCr_of_noReturn (hls l hl)
      _ = ls := List.map_id ls

theorem rewriteText_rewriteText (hkey : IsKey key) (hval : '\n' ∉ val.toList) {existing : String}
    (hcr : ∀ l ∈ otherLines key existing, l.toList.getLast? ≠ some '\r') :
    rewriteText key val (rewriteText key val existing) = rewriteText key val existing := by
  have hkept : ∀ l ∈ rewriteLines key val false (lines existing), isTarget key l = false →
      stripCr l = l := by
    intro l hl htarget
    apply stripCr_of_noReturn
    apply hcr
    have hmem : l ∈ (rewriteLines key val false (lines existing)).filter
        fun l => !isTarget key l := by
      rw [List.mem_filter, htarget]
      exact ⟨hl, rfl⟩
    rw [filter_rewriteLines hkey] at hmem
    exact hmem
  have hlines := lines_rewriteText hkey hval existing
  rw [rewriteText, hlines, rewriteLines_map (isTarget_stripCr key) hkept,
    rewriteLines_rewriteLines hkey, rewriteText]

end Rewrite

end Linhello.Common
