import Linhello.Common.JsonRecord
import Linhello.Common.Utf8
/-!
# Compact text of a value

A value on one line. Whatever its strings hold, the text has no newline where the spelled
floats have none.
-/

namespace Linhello.Common

mutual

/-- `serde_json::to_string`. -/
def JsonValue.compact : JsonValue → String
  | .null => "null"
  | .bool b => if b then "true" else "false"
  | .int n => toString n
  | .float text => text
  | .str s => quoted s
  | .arr [] => "[]"
  | .arr (item :: items) => "[" ++ item.compact ++ compactItems items ++ "]"
  | .obj [] => "\x7b\x7d"
  | .obj ((name, value) :: entries) =>
      "\x7b" ++ quoted name ++ ":" ++ value.compact ++ compactEntries entries ++ "\x7d"

def compactItems : List JsonValue → String
  | [] => ""
  | item :: items => "," ++ item.compact ++ compactItems items

def compactEntries : List (String × JsonValue) → String
  | [] => ""
  | (name, value) :: entries =>
      "," ++ quoted name ++ ":" ++ value.compact ++ compactEntries entries

end

mutual

/-- The floats in a value are spelled on one line. -/
def JsonValue.OneLine : JsonValue → Prop
  | .float text => '\n' ∉ text.toList
  | .arr items => OneLineItems items
  | .obj entries => OneLineEntries entries
  | _ => True

def OneLineItems : List JsonValue → Prop
  | [] => True
  | item :: items => item.OneLine ∧ OneLineItems items

def OneLineEntries : List (String × JsonValue) → Prop
  | [] => True
  | (_, value) :: entries => value.OneLine ∧ OneLineEntries entries

end

theorem digitChar_ne_newline : ∀ n < 16, Nat.digitChar n ≠ '\n' := by decide

private theorem escapeChar_no_newline (c : Char) : '\n' ∉ escapeChar c := by
  unfold escapeChar
  split_ifs with hquote hslash hnewline hreturn htab hback hform hcontrol
  · simp
  · simp
  · simp
  · simp
  · simp
  · simp
  · simp
  · have hhigh := (digitChar_ne_newline (c.toNat / 16) (by omega)).symm
    have hlow := (digitChar_ne_newline (c.toNat % 16) (by omega)).symm
    simp [hhigh, hlow]
  · intro hmem
    exact hnewline (List.mem_singleton.1 hmem).symm

theorem quoted_no_newline (s : String) : '\n' ∉ (quoted s).toList := by
  have hescaped : '\n' ∉ s.toList.flatMap escapeChar := by
    intro hmem
    obtain ⟨c, -, hc⟩ := List.mem_flatMap.1 hmem
    exact escapeChar_no_newline c hc
  simp [quoted, hescaped]

theorem natString_no_newline (n : Nat) : '\n' ∉ (toString n).toList := by
  rw [Nat.toString_eq_repr, Nat.toList_repr]
  intro hmem
  have hdigit := Nat.isDigit_of_mem_toDigits (by decide) (by decide) hmem
  revert hdigit
  decide

private theorem intString_no_newline (n : Int) : '\n' ∉ (toString n).toList := by
  cases n with
  | ofNat n => exact natString_no_newline n
  | negSucc n =>
      have htail := natString_no_newline (n + 1)
      change '\n' ∉ ("-" ++ toString (n + 1)).toList
      simp only [String.toList_append, List.mem_append, not_or]
      exact ⟨by decide, htail⟩

mutual

theorem compact_no_newline : ∀ v : JsonValue, v.OneLine → '\n' ∉ v.compact.toList
  | .null, _ => by decide
  | .bool b, _ => by cases b <;> decide
  | .int n, _ => intString_no_newline n
  | .float _, h => h
  | .str s, _ => quoted_no_newline s
  | .arr [], _ => by decide
  | .arr (item :: items), h => by
      have hitem := compact_no_newline item h.1
      have hitems := compactItems_no_newline items h.2
      simp [JsonValue.compact, hitem, hitems]
  | .obj [], _ => by decide
  | .obj ((name, value) :: entries), h => by
      have hname := quoted_no_newline name
      have hvalue := compact_no_newline value h.1
      have hentries := compactEntries_no_newline entries h.2
      simp [JsonValue.compact, hname, hvalue, hentries]

theorem compactItems_no_newline :
    ∀ items, OneLineItems items → '\n' ∉ (compactItems items).toList
  | [], _ => by decide
  | item :: items, h => by
      have hitem := compact_no_newline item h.1
      have hitems := compactItems_no_newline items h.2
      simp [compactItems, hitem, hitems]

theorem compactEntries_no_newline :
    ∀ entries, OneLineEntries entries → '\n' ∉ (compactEntries entries).toList
  | [], _ => by decide
  | (name, value) :: entries, h => by
      have hname := quoted_no_newline name
      have hvalue := compact_no_newline value h.1
      have hentries := compactEntries_no_newline entries h.2
      simp [compactEntries, hname, hvalue, hentries]

end

end Linhello.Common
