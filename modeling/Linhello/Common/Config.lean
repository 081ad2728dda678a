import Mathlib.Algebra.Group.Nat.Defs
import Mathlib.Data.List.Infix
/-!
# Text helpers and `key=value` files

The string operations the sources use, on the character list of a string, and
the parser behind `config::read_kv`. `str::trim` removes Unicode white space;
`str::lines` drops a carriage return only in front of a line feed.
-/

namespace Linhello.Common

/-- Unicode `White_Space`, the set `str::trim` removes. -/
def isWhiteSpace (c : Char) : Bool :=
  let n := c.toNat
  (9 ≤ n && n ≤ 13) || n == 0x20 || n == 0x85 || n == 0xA0 || n == 0x1680 ||
    (0x2000 ≤ n && n ≤ 0x200A) || n == 0x2028 || n == 0x2029 || n == 0x202F ||
    n == 0x205F || n == 0x3000

def trimChars (cs : List Char) : List Char :=
  ((cs.dropWhile isWhiteSpace).reverse.dropWhile isWhiteSpace).reverse

/-- `str::trim`. -/
def trim (s : String) : String := String.ofList (trimChars s.toList)

/-- `str::to_ascii_lowercase`. -/
def toAsciiLowercase (s : String) : String := String.ofList (s.toList.map Char.toLower)

/-- `str::contains` with a string pattern. -/
def contains (s pat : String) : Bool := decide (pat.toList <:+: s.toList)

/-- `str::starts_with`. -/
def startsWith (s pat : String) : Bool := pat.toList.isPrefixOf s.toList

/-- `str::strip_prefix`. -/
def stripPrefix (s pat : String) : Option String :=
  if startsWith s pat then some (String.ofList (s.toList.drop pat.toList.length)) else none

/-- The lines still to come; `cur` holds the current line backwards. -/
def linesFrom (cur : List Char) : List Char → List String
  | [] => if cur = [] then [] else [String.ofList cur.reverse]
  | c :: rest =>
      if c = '\n' then
        let line := match cur with
          | '\r' :: body => body
          | body => body
        String.ofList line.reverse :: linesFrom [] rest
      else linesFrom (c :: cur) rest

/-- `str::lines`. -/
def lines (s : String) : List String := linesFrom [] s.toList

def splitOnceChars (c : Char) : List Char → Option (List Char × List Char)
  | [] => none
  | x :: xs =>
      if x = c then some ([], xs)
      else (splitOnceChars c xs).map fun (a, b) => (x :: a, b)

/-- `str::split_once` with a character pattern. -/
def splitOnce (c : Char) (s : String) : Option (String × String) :=
  (splitOnceChars c s.toList).map fun (a, b) => (String.ofList a, String.ofList b)

/-- `parse::<usize>`: decimal digits after an optional plus sign. -/
def parseUsize (s : String) : Option Nat :=
  let ds := match s.toList with
    | '+' :: ds => ds
    | ds => ds
  if ds = [] || !ds.all Char.isDigit then none
  else
    let n := ds.foldl (fun n d => n * 10 + (d.toNat - '0'.toNat)) 0
    if n < 2 ^ 64 then some n else none

/-- The value one line of a `key=value` file gives `key`. -/
def kvLine (key : String) (line : String) : Option String :=
  let line := trim line
  if line = "" || startsWith line "#" then none
  else
    match splitOnce '=' line with
    | some (k, v) =>
        let v := trim v
        if trim k = key && v ≠ "" then some v else none
    | none => none

/-- The scan of `read_kv` over the text of the file: the first line that gives
`key` a non-empty value. -/
def kvLookup (key text : String) : Option String :=
  (lines text).findSome? (kvLine key)

/-! ## A line put in front of a text -/

theorem linesFrom_cons_of_ne {c : Char} (h : c ≠ '\n') (cur rest : List Char) :
    linesFrom cur (c :: rest) = linesFrom (c :: cur) rest := by
  rw [linesFrom.eq_def]
  exact if_neg h

theorem linesFrom_newline {cur : List Char} (h : cur.head? ≠ some '\r') (rest : List Char) :
    linesFrom cur ('\n' :: rest) = String.ofList cur.reverse :: linesFrom [] rest := by
  rw [linesFrom.eq_def]
  refine (if_pos rfl).trans ?_
  split
  · exact absurd rfl h
  · rfl

theorem linesFrom_line {cs : List Char} (h : '\n' ∉ cs) (cur rest : List Char) :
    linesFrom cur (cs ++ '\n' :: rest) = linesFrom (cs.reverse ++ cur) ('\n' :: rest) := by
  induction cs generalizing cur with
  | nil => rfl
  | cons c cs ih =>
      have hc : c ≠ '\n' := fun hc => h (by rw [hc]; exact List.mem_cons_self)
      have hcs : '\n' ∉ cs := fun hmem => h (List.mem_cons_of_mem _ hmem)
      rw [List.cons_append, linesFrom_cons_of_ne hc, ih hcs, List.reverse_cons, List.append_assoc]
      rfl

theorem lines_cons {line : String} (h : '\n' ∉ line.toList)
    (hcr : line.toList.getLast? ≠ some '\r') (text : String) :
    lines (line ++ "\n" ++ text) = line :: lines text := by
  have htext : (line ++ "\n" ++ text).toList = line.toList ++ '\n' :: text.toList := by
    rw [String.toList_append, String.toList_append, List.append_assoc]
    rfl
  have hhead : line.toList.reverse.head? ≠ some '\r' := by
    rwa [← List.getLast?_eq_head?_reverse]
  rw [lines, htext, linesFrom_line h, List.append_nil, linesFrom_newline hhead,
    List.reverse_reverse, String.ofList_toList]
  rfl

/-- The line sets the key `k` to `v` and nothing else. -/
structure Sets (line k v : String) : Prop where
  oneLine : '\n' ∉ line.toList
  noReturn : line.toList.getLast? ≠ some '\r'
  trimmed : trim line = line
  value : (line = "" || startsWith line "#") = false
  split : splitOnce '=' line = some (k, v)
  key : trim k = k
  trimmedValue : trim v = v
  nonempty : v ≠ ""

theorem Sets.kvLine {line k v : String} (h : Sets line k v) (key : String) :
    kvLine key line = if k = key then some v else none := by
  have hne : (v ≠ "") = True := eq_true h.nonempty
  simp only [Common.kvLine, h.trimmed, h.value, h.split, h.key, h.trimmedValue, hne]
  by_cases hk : k = key
  · simp [hk]
  · simp [hk]

theorem Sets.kvLookup {line k v : String} (h : Sets line k v) (key text : String) :
    kvLookup key (line ++ "\n" ++ text) = if k = key then some v else kvLookup key text := by
  rw [Common.kvLookup, lines_cons h.oneLine h.noReturn, List.findSome?_cons, h.kvLine]
  by_cases hk : k = key
  · rw [if_pos hk, if_pos hk]
  · rw [if_neg hk, if_neg hk]
    rfl

end Linhello.Common
